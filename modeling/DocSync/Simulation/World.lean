import DocSync.Buffer.Memory
import DocSync.Buffer.Queue
import DocSync.Checkpoint.Store
import DocSync.Document.Fetch
import DocSync.Job.Basic
import DocSync.Relation.Catalog
import DocSync.Relation.Frames
import DocSync.Simulation.Fault
import DocSync.Sink.Memory
import DocSync.Text.Quoted

/-!
A world for jobs to run in: a database, sessions on it, buffers, queue files, sinks, checkpoint stores
and jobs, all in memory and all by name.
-/

namespace DocSync

/-- What a named buffer is made of: memory, or a channel of a queue file. -/
inductive BufferStore where
  | memory (buffer : MemoryBuffer)
  | queue (file : String) (buffer : QueueBuffer)
deriving Repr, Inhabited

/-- A named buffer, the arrivals that no wait has noticed yet, and the groups of writes that the next
drains cause, one group each. -/
structure NamedBuffer where
  store : BufferStore
  unnoticed : Nat
  writes : List (List Query)
deriving Repr, Inhabited

/-- What a job is connected to, and how its connections distort what passes. -/
structure Wiring where
  buffer : String
  sink : String
  store : String
  /-- Tables whose records are left out of pages. -/
  ignored : List String
  /-- Pages write keys with a space for the first `T`, and leave out the values. -/
  textKeys : Bool
  /-- Selects read their filters with a `T` for the first space. -/
  casting : Bool
  /-- Whether session and source fail on demand. -/
  failing : Bool
deriving Repr, Inhabited

/-- The wiring of an operation that only needs a sink. -/
def Wiring.ofSink (sink : String) : Wiring := ⟨"", sink, "", [], false, false, false⟩

/-- A job, what it is connected to, and the open scopes of its session. -/
structure SimulatedJob where
  job : Job
  wiring : Wiring
  frames : Frames
deriving Repr, Inhabited

structure World where
  /-- What plans are checked against. -/
  schema : Schema
  /-- The directory that files are named under. -/
  directory : String
  /-- The database that new checkpoint files name as their source. -/
  sourceUrl : String
  database : Database
  /-- The buffers that every committed change is pushed to. -/
  feeds : List String
  sessions : Keyed Frames
  scans : Keyed RootScan
  catalog : CachedCatalog
  buffers : Keyed NamedBuffer
  queues : Keyed ChangeQueue
  sinks : Keyed MemorySink
  /-- Writers with the names of their sinks. -/
  writers : Keyed (String × Writer)
  stores : Keyed (Keyed Nat)
  files : Keyed StoredFile
  /-- Checkpoint files that no store holds. -/
  looseFiles : Keyed CheckpointFile
  jobs : Keyed SimulatedJob
  faults : Faults
deriving Inhabited

namespace World

/-- A world with empty tables. -/
def empty (schema databaseSchema : Schema) (directory sourceUrl : String) : World where
  schema := schema
  directory := directory
  sourceUrl := sourceUrl
  database := .empty databaseSchema
  feeds := []
  sessions := []
  scans := []
  catalog := .ofSchema schema
  buffers := []
  queues := []
  sinks := []
  writers := []
  stores := []
  files := []
  looseFiles := []
  jobs := []
  faults := .none

/-- Makes a call at a point that may be made to fail. -/
def strike (w : World) (p : FaultPoint) : Option Failure × World :=
  let (struck, faults) := w.faults.strike p
  (if struck then some p.failure else none, { w with faults := faults })

/-! Files. -/

/-- The parts of a path; empty ones and single points do not count. -/
def pathParts (path : String) : List String :=
  ((Text.pieces (· == '/') path.toList).map String.ofList).filter fun part => part != "" && part != "."

/-- The place of a file, the same for every way to write its path. -/
def filePlace (path : String) : String := "/".intercalate (pathParts path)

/-- The path of the directory that the last part of a path is in. -/
def parentPath (path : List Char) : List Char :=
  ((path.reverse.dropWhile (· != '/')).dropWhile (· == '/')).reverse

/-! Buffers. -/

/-- A buffer by its name; one in memory where none is set up. -/
def buffer (w : World) (name : String) : NamedBuffer :=
  w.buffers.getD name ⟨.memory .empty, 0, []⟩

def putBuffer (w : World) (name : String) (b : NamedBuffer) : World :=
  { w with buffers := w.buffers.put name b }

def queue (w : World) (file : String) : ChangeQueue := w.queues.getD (filePlace file) .empty

def putQueue (w : World) (file : String) (q : ChangeQueue) : World :=
  { w with queues := w.queues.put (filePlace file) q }

/-- Runs an operation on a queue file. -/
def onQueue {α : Type} (w : World) (file : String) (operation : ChangeQueue → α × ChangeQueue) : α × World :=
  let (result, q) := operation (w.queue file)
  (result, w.putQueue file q)

/-- Closes a queue; one in memory lives no longer. -/
def closeQueue (w : World) (file : String) : World :=
  if file = ":memory:" then { w with queues := w.queues.erase ":memory:" } else w

/-- Pushes a record to a buffer. -/
def push (w : World) (name : String) (r : ChangeRecord) : World :=
  let b := w.buffer name
  match b.store with
  | .memory m => w.putBuffer name { b with store := .memory (m.push r), unnoticed := b.unnoticed + 1 }
  | .queue file q =>
    (w.putQueue file (q.push (w.queue file) r)).putBuffer name { b with unnoticed := b.unnoticed + 1 }

/-- How many records a buffer has pending. -/
def pendingCount (w : World) (name : String) : Nat :=
  match (w.buffer name).store with
  | .memory m => m.pending.length
  | .queue file q => (w.queue file).pendingCount q.channel

/-- Pushes the records of a commit to every buffer that is fed. -/
def feed (w : World) (records : List ChangeRecord) : World :=
  records.foldl (fun w r => w.feeds.foldl (fun w name => w.push name r) w) w

/-- Commits writes as one transaction. -/
def commit (w : World) (queries : List Query) : Except DatabaseError World :=
  (w.database.commit queries).map fun (_, logged, db) => { w with database := db }.feed logged

/-- Commits writes one by one up to the first that fails. -/
def commitEach (w : World) : List Query → Except DatabaseError Unit × World
  | [] => (.ok (), w)
  | query :: rest =>
    match w.commit [query] with
    | .ok w => w.commitEach rest
    | .error e => (.error e, w)

/-- Makes the writes that the next drain of a buffer causes. -/
def writeOnDrain (w : World) (name : String) : Except DatabaseError Unit × World :=
  let b := w.buffer name
  match b.writes with
  | [] => (.ok (), w)
  | group :: rest => (w.putBuffer name { b with writes := rest }).commitEach group

/-- Hands out what a buffer has pending.  The writes that a drain causes come first; a drain whose
writes fail hands out nothing. -/
def drain (w : World) (name : String) : Except Failure (List ChangeRecord) × World :=
  match w.strike .drain with
  | (some failure, w) => (.error failure, w)
  | (none, w) =>
    match w.writeOnDrain name with
    | (.error e, w) => (.error e.toFailure, w)
    | (.ok (), w) =>
      let b := w.buffer name
      match b.store with
      | .memory m =>
        let (records, m) := m.drain
        (.ok records, w.putBuffer name { b with store := .memory m })
      | .queue file q =>
        let (records, q) := q.drain (w.queue file)
        (.ok records, w.putBuffer name { b with store := .queue file q })

def ack (w : World) (name : String) : Except Failure Unit × World :=
  match w.strike .ack with
  | (some failure, w) => (.error failure, w)
  | (none, w) =>
    let b := w.buffer name
    match b.store with
    | .memory m => (.ok (), w.putBuffer name { b with store := .memory m.ack })
    | .queue file q =>
      let (q, left) := q.ack (w.queue file)
      (.ok (), (w.putQueue file left).putBuffer name { b with store := .queue file q })

/-- Forgets the arrivals of a buffer that no wait has noticed. -/
def notice (w : World) (name : String) : World :=
  w.putBuffer name { w.buffer name with unnoticed := 0 }

/-- A wait while nothing else happens. -/
def wait (w : World) (name : String) : Except Failure Bool × World :=
  match w.strike .wait with
  | (some failure, w) => (.error failure, w)
  | (none, w) =>
    if w.pendingCount name > 0 then (.ok true, w) else (.ok false, w.notice name)

/-! Sinks. -/

/-- A sink by its name, which also says what a new one cannot do. -/
def sink (w : World) (name : String) : MemorySink :=
  w.sinks.getD name (.empty (!name.startsWith "nometa") (!name.startsWith "unlisted"))

/-- Runs an operation on a sink. -/
def onSink {α : Type} (w : World) (name : String) (operation : MemorySink → α × MemorySink) :
    α × World :=
  let (result, sink) := operation (w.sink name)
  (result, { w with sinks := w.sinks.put name sink })

/-! Checkpoint stores.  A store whose name ends in `.json` is a file. -/

def isFile (store : String) : Bool := store.endsWith ".json"

/-- What a store's file holds. -/
def file (w : World) (store : String) : StoredFile :=
  match w.files.get? (filePlace store) with
  | some file => file
  | none =>
    if w.files.keys.any fun other => (pathParts store).isPrefixOf (pathParts other) then .directory
    else .missing

def putFile (w : World) (store : String) (file : StoredFile) : World :=
  { w with files := w.files.put (filePlace store) file }

/-- Whether a directory that a store's file would be in is itself a file. -/
def isBelowFile (w : World) (store : String) : Bool :=
  w.files.keys.any fun other => other != filePlace store && (pathParts other).isPrefixOf (pathParts store)

/-- The path of a store's file. -/
def filePath (w : World) (store : String) : List Char := (w.directory ++ "/" ++ store).toList

/-- The failure to do something with a path. -/
def pathFailure (action : String) (path : List Char) : Failure :=
  ⟨action ++ " " ++ Text.display path, ["..."]⟩

/-- Reads a whole checkpoint file; a missing one is fresh. -/
def checkpointsIn (w : World) (store sourceUrl : String) : Except Failure CheckpointFile :=
  match w.file store with
  | .missing => .ok (.fresh sourceUrl)
  | .directory => .error (pathFailure "Failed to read checkpoints from" (w.filePath store))
  | .unreadable => .error (pathFailure "Failed to parse checkpoints from" (w.filePath store))
  | .readable file => .ok file

/-- Writes a whole checkpoint file; the directories it is in are made. -/
def storeCheckpoints (w : World) (store : String) (file : CheckpointFile) : Except Failure World :=
  if w.isBelowFile store then
    .error (pathFailure "Failed to create directory" (parentPath (w.filePath store)))
  else .ok (w.putFile store (.readable file))

/-- The stored transaction id of an index. -/
def mark (w : World) (store index : String) : Except Failure (Option Nat) :=
  if isFile store then (w.checkpointsIn store w.sourceUrl).map fun file => file.marks.get? index
  else .ok ((w.stores.getD store []).get? index)

def loadMark (w : World) (store index : String) : Except Failure (Option Nat) × World :=
  match w.strike .load with
  | (some failure, w) => (.error failure, w)
  | (none, w) => (w.mark store index, w)

def saveMark (w : World) (store index : String) (txmin : Nat) : Except Failure Nat × World :=
  match w.strike .save with
  | (some failure, w) => (.error failure, w)
  | (none, w) =>
    if isFile store then
      match w.checkpointsIn store w.sourceUrl with
      | .error e => (.error e, w)
      | .ok file =>
        let (mark, file) := file.advance index txmin
        match w.storeCheckpoints store file with
        | .ok w => (.ok mark, w)
        | .error e => (.error e, w)
    else
      let (mark, marks) := raiseMark (w.stores.getD store []) index txmin
      (.ok mark, { w with stores := w.stores.put store marks })

end World

end DocSync
