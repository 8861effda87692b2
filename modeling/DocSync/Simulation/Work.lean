import DocSync.Job.Run
import DocSync.Simulation.Answer

/-!
Work on what the world has names for: sessions, scans, writers and jobs.  A routine that spends its
allowance gives nothing.
-/

namespace DocSync

namespace World

/-- More pages, cycles or wakings than any routine needs. -/
def allowance : Nat := 1000000

/-! Sessions. -/

def frames (w : World) (session : String) : Frames := w.sessions.getD session []

/-- Runs an operation on a named session. -/
def onSession {α : Type} (w : World) (session : String) (operation : Site → α × Site) : α × World :=
  let (result, (w, frames)) := operation (w, w.frames session)
  (result, { w with sessions := w.sessions.put session frames })

/-- The state of a scoped program: its site, what happened so far, and how many scopes are guarded. -/
structure ScopeState where
  site : Site
  events : List Scope.Event
  guarded : Nat

/-- Notes an event. -/
def ScopeState.note (s : ScopeState) (e : Scope.Event) : ScopeState :=
  { s with events := s.events ++ [e] }

/-- Answers a request of a scoped program; a program that hangs is not answered. -/
def answerScoped : (call : Scope.Call) → ScopeState → Option call.Answer × ScopeState
  | .session .enter, s => (some (), { s with guarded := s.guarded + 1 })
  | .session .leave, s => (some (), { s with guarded := s.guarded - 1 })
  | .session call, s =>
    let (result, site) := answerSession (.ofSink "") call s.site
    (some result, { s with site := site })
  | .rows rows, s => (some (), s.note (.rows rows))
  | .failed failure, s => (some (), s.note (.failed failure))
  | .entered, s => (some (), s.note .entered)
  | .left, s => (some (), s.note (.left s.site.2.depth))
  | .hang, s => (none, s)

/-- How a scoped program ended: with a result, or dropped. -/
inductive ScopeEnd where
  | finished (result : Except Failure Unit)
  | dropped

/-- Runs steps in a scope.  When the program hangs it is dropped, which abandons every guarded scope. -/
def runScope (body : List Scope.Step) (site : Site) : (ScopeEnd × List Scope.Event) × Site :=
  match (Scope.run body).run.runWhile answerScoped ⟨site, [], 0⟩ with
  | (some result, s) => ((.finished result, s.events), s.site)
  | (none, s) =>
    ((.dropped, s.events), (s.site.1, Nat.repeat Frames.abandon s.guarded s.site.2))

/-! Row trees. -/

/-- Fetches the trees of the roots that a filter accepts. -/
def fetch (w : World) (plan : Plan) (filter : Filter) :
    Option (Except Failure (List RowTree)) × World :=
  let (result, site) := runRoutine (.ofSink "") (fetchRoots plan filter).run (w, [])
  (result, site.1)

/-- The next page of a named scan, whose batch is that of its first page. -/
def scan (w : World) (name : String) (plan : Plan) (batch : Nat) :
    Option (Except Failure (Option (List RowTree))) × World :=
  let scan := w.scans.getD name (.start batch)
  match runRoutine (.ofSink "") (scan.nextPage plan).run (w, []) with
  | (some (.ok (page, scan)), (w, _)) => (some (.ok page), { w with scans := w.scans.put name scan })
  | (some (.error e), (w, _)) => (some (.error e), { w with scans := w.scans.put name scan })
  | (none, (w, _)) => (none, w)

/-! Writers. -/

def writer (w : World) (name : String) : String × Writer :=
  w.writers.getD name ("main", ⟨"books", .none, []⟩)

/-- Runs a routine over a named writer. -/
def onWriter {α : Type} (w : World) (name : String) (work : Writing α) :
    Option (Except SyncError α) × World :=
  let (sink, writer) := w.writer name
  match runRoutine (.ofSink sink) (work.run.run writer) (w, []) with
  | (some (result, writer), (w, _)) =>
    (some result, { w with writers := w.writers.put name (sink, writer) })
  | (none, (w, _)) => (none, w)

/-- Resolves coalesced records with a named writer. -/
def resolveWith (w : World) (name : String) (plan : Plan) (records : List ChangeRecord) :
    Option (Except SyncError Resolution) × World :=
  let (sink, writer) := w.writer name
  let (result, site) := runRoutine (.ofSink sink) (resolve plan writer records).run (w, [])
  (result, site.1)

/-! Jobs. -/

/-- Sets up a job in place of an earlier one of its index. -/
def putJob (w : World) (job : Job) (wiring : Wiring) : World :=
  { w with jobs := w.jobs.put job.options.index ⟨job, wiring, []⟩ }

/-- Runs a routine over a job. -/
def onJob {α : Type} (w : World) (index : String) (work : Working α) :
    Option (Except SyncError α) × World :=
  match w.jobs.get? index with
  | none => (none, w)
  | some j =>
    match runRoutine j.wiring (work.run.run j.job) (w, j.frames) with
    | (some (result, job), (w, frames)) =>
      (some result, { w with jobs := w.jobs.put index ⟨job, j.wiring, frames⟩ })
    | (none, (w, _)) => (none, w)

/-! Retries. -/

/-- Runs an operation that fails with each text in turn and then succeeds.  Gives how often it ran,
and its last text or the attempt it succeeded with. -/
def retryTexts (texts : List String) (policy : RetryPolicy) (retryable : String → Bool) :
    Routine (Nat × Except String Nat) :=
  let operation (attempt : Nat) : Attempt (Nat × String) Nat :=
    match texts[attempt]? with
    | some text => throw (attempt, text)
    | none => return attempt
  do
    match ← (retryFrom operation (fun e => retryable e.2) 0 policy.retries policy.delay).run with
    | .ok attempt => return (attempt + 1, .ok attempt)
    | .error (attempt, text) => return (attempt + 1, .error text)

end World

end DocSync
