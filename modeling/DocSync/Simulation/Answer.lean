import DocSync.Service.Session
import DocSync.Simulation.World

/-!
How the world answers the requests of a routine, which has a session of its own.
-/

namespace DocSync

/-- The world and the open scopes of the session at hand. -/
abbrev Site := World × Frames

namespace World

/-! Sessions. -/

def execute (s : Site) (query : Query) : Except Failure (List Row) × Site :=
  match s.2.execute s.1.database query with
  | .ok result =>
    (.ok result.rows, ({ s.1 with database := result.database }.feed result.logged, result.frames))
  | .error e => (.error e.toFailure, s)

def commitScope (s : Site) : Except Failure Unit × Site :=
  match s.2.commit s.1.database with
  | (.ok (logged, db), frames) => (.ok (), ({ s.1 with database := db }.feed logged, frames))
  | (.error e, frames) => (.error e.toFailure, (s.1, frames))

def rollbackScope (s : Site) : Except Failure Unit × Site :=
  match s.2.rollback with
  | .ok frames => (.ok (), (s.1, frames))
  | .error e => (.error e.toFailure, s)

/-- A text with one character for another at its first place. -/
def replaceFirst (c replacement : Char) : List Char → List Char
  | [] => []
  | d :: rest => if d = c then replacement :: rest else d :: replaceFirst c replacement rest

/-- A text value with one character for another at its first place; other values stay. -/
def respell (c replacement : Char) : Json → Json
  | .string s => .string (String.ofList (replaceFirst c replacement s.toList))
  | other => other

/-- A statement whose filter values are read with a `T` for the first space. -/
def castFilter : Query → Query
  | .select s =>
    match s.filter with
    | .among columns tuples =>
      .select { s with filter := .among columns (tuples.map (·.map (respell ' ' 'T'))) }
    | .all => .select s
  | other => other

/-- Makes a call that may be made to fail, where the wiring allows it. -/
def strikeIf (enabled : Bool) (p : FaultPoint) (s : Site) : Option Failure × Site :=
  if enabled then
    let (failure, w) := s.1.strike p
    (failure, (w, s.2))
  else (none, s)

def answerSession (wiring : Wiring) : (call : SessionCall) → Site → call.Answer × Site
  | .execute query, s =>
    match strikeIf wiring.failing .execute s with
    | (some failure, s) => (.error failure, s)
    | (none, s) => execute s (if wiring.casting then castFilter query else query)
  | .transactionId, s =>
    match strikeIf wiring.failing .transactionId s with
    | (some failure, s) => (.error failure, s)
    | (none, s) => (.ok s.1.database.lastTxid, s)
  | .begin, s =>
    match strikeIf wiring.failing .begin s with
    | (some failure, s) => (.error failure, s)
    | (none, s) => (.ok (), (s.1, s.2.begin))
  | .commit, s => commitScope s
  | .rollback, s => rollbackScope s
  | .enter, s => ((), s)
  | .leave, s => ((), s)

/-! Change logs. -/

/-- A record with its key spelled differently, and without values. -/
def respelled (r : ChangeRecord) : ChangeRecord :=
  { r with key := r.key.map fun (c, v) => (c, respell 'T' ' ' v), values := none }

/-- A page as the wiring lets it pass. -/
def pageThrough (wiring : Wiring) (records : List ChangeRecord) : ChangePage :=
  let kept := records.filter fun r => !wiring.ignored.contains r.table
  ⟨if wiring.textKeys then kept.map respelled else kept, records.length⟩

def answerSource (wiring : Wiring) (call : SourceCall) (w : World) : call.Answer × World :=
  let struck (p : FaultPoint) : Option Failure × World :=
    if wiring.failing then w.strike p else (none, w)
  match call with
  | .openSlot name =>
    match struck .openSlot with
    | (some failure, w) => (.error failure, w)
    | (none, w) => (.ok name, { w with database := w.database.openSlot name })
  | .pull slot window most offset =>
    match struck .pull with
    | (some failure, w) => (.error failure, w)
    | (none, w) =>
      match w.database.pull slot window most offset with
      | .ok records => (.ok (pageThrough wiring records), w)
      | .error e => (.error e.toFailure, w)
  | .reclaim slot upTo =>
    match struck .reclaim with
    | (some failure, w) => (.error failure, w)
    | (none, w) =>
      match w.database.reclaim slot upTo with
      | .ok db => (.ok (), { w with database := db })
      | .error e => (.error e.toFailure, w)

/-! Everything else. -/

def answerBuffer (name : String) : (call : BufferCall) → World → call.Answer × World
  | .drain, w => w.drain name
  | .ack, w => w.ack name
  | .wait _, w => w.wait name

def answerSink (name : String) : (call : SinkCall) → World → call.Answer × World
  | .upsert d, w => w.onSink name (·.upsert d)
  | .delete index identity, w => w.onSink name (·.delete index identity)
  | .refresh _, w => w.onSink name (·.refresh)
  | .findByMeta index table key, w => (.ok ((w.sink name).findByMeta index table key), w)
  | .identities index, w => (.ok ((w.sink name).identities index), w)

def answerStore (name : String) : (call : StoreCall) → World → call.Answer × World
  | .load index, w => w.loadMark name index
  | .save index txmin, w => w.saveMark name index txmin

/-- Time passes at once, and the stop signal has been given. -/
def answerClock : (call : ClockCall) → call.Answer
  | .sleep _ => ()
  | .pause _ => .stopped
  | .idle _ => .stopped

/-- Answers one request. -/
def answer (wiring : Wiring) (call : Call) (s : Site) : call.Answer × Site :=
  let outside {α : Type} (r : α × World) : α × Site := (r.1, (r.2, s.2))
  match call with
  | .session call => answerSession wiring call s
  | .source call => outside (answerSource wiring call s.1)
  | .buffer call => outside (answerBuffer wiring.buffer call s.1)
  | .sink call => outside (answerSink wiring.sink call s.1)
  | .store call => outside (answerStore wiring.store call s.1)
  | .clock call => (answerClock call, s)

/-- Runs a routine to its end; nothing when it spends its allowance. -/
def runRoutine {α : Type} (wiring : Wiring) (r : Routine α) (s : Site) : Option α × Site :=
  r.run (answer wiring) s

end World

end DocSync
