import DocSync.Change.Resolve
import DocSync.Text.SlotName

/-!
Sync jobs: one node tree kept in step with one index.
-/

namespace DocSync

/-- Where a job is in its cycle. -/
inductive Phase where
  | idle
  | slotReady
  | windowOpen
  | applying
  | reclaiming
  | terminated
deriving DecidableEq, Repr, Inhabited

def Phase.name : Phase → String
  | idle => "idle"
  | slotReady => "slot-ready"
  | windowOpen => "window-open"
  | applying => "applying"
  | reclaiming => "reclaiming"
  | terminated => "terminated"

/-- What a job is told.  The index also keys the checkpoint. -/
structure SyncOptions where
  index : String
  slotName : String
  /-- Root rows per page of a scan and per fetch. -/
  batchSize : Nat
  /-- Log entries per pull. -/
  maxChanges : Nat
  /-- The longest idle wait between cycles, in milliseconds. -/
  pollInterval : Nat
  retry : RetryPolicy
deriving Repr, Inhabited

/-- The options of an index that sets nothing else. -/
def SyncOptions.standard (index : String) : SyncOptions :=
  ⟨index, SlotName.ofIndex "replicator" index, 1000, 10000, 1000, .standard⟩

/-- What one cycle did. -/
structure CycleStats where
  upserted : Nat
  unchanged : Nat
  deleted : Nat
  /-- Records that did not compile or that the sink refused. -/
  rejected : Nat
  /-- Change records read from the slot and the buffer. -/
  changes : Nat
  errors : List String
  /-- The window applied, none for a full resync. -/
  window : Option TxWindow
deriving Repr, Inhabited

namespace CycleStats

def empty : CycleStats := ⟨0, 0, 0, 0, 0, [], none⟩

/-- Whether no record was skipped. -/
def isSuccess (s : CycleStats) : Bool := s.errors.isEmpty

/-- Writes that reached the sink. -/
def mutations (s : CycleStats) : Nat := s.upserted + s.deleted

def skip (s : CycleStats) (reason : String) : CycleStats :=
  { s with rejected := s.rejected + 1, errors := s.errors ++ [reason] }

def record (s : CycleStats) : WriteOutcome → CycleStats
  | .upserted => { s with upserted := s.upserted + 1 }
  | .unchanged => { s with unchanged := s.unchanged + 1 }
  | .deleted => { s with deleted := s.deleted + 1 }
  | .rejected reason => s.skip reason

end CycleStats

/-- A job with what it remembers between cycles. -/
structure Job where
  plan : Plan
  options : SyncOptions
  writer : Writer
  slot : Option String
  phase : Phase
deriving Repr, Inhabited

namespace Job

/-- A job that has done nothing yet. -/
def ofPlan (plan : Plan) (options : SyncOptions) : Job :=
  ⟨plan, options, ⟨options.index, options.retry, []⟩, none, .idle⟩

/-- Checks the declaration and sets the job up. -/
def create (node : Node) (schema : Schema) (options : SyncOptions) : Except NodeError Job :=
  (Plan.build node schema).map (ofPlan · options)

end Job

/-- A routine over a job, which keeps what it remembers when it fails. -/
abbrev Working (α : Type) := ExceptT SyncError (StateT Job Routine) α

namespace Working

variable {α : Type}

def enter (phase : Phase) : Working Unit := modify fun job => { job with phase := phase }

/-- Runs a routine that leaves the job as it is. -/
def attempt (a : Attempt SyncError α) : Working α :=
  ExceptT.mk fun job => do return (← a.run, job)

/-- Runs a routine whose failure may pass. -/
def transported (a : Attempt Failure α) : Working α := attempt (a.mapError .transport)

/-- Runs a routine whose failure stops the job. -/
def orFatal (a : Attempt Failure α) : Working α := attempt (a.mapError .fatal)

/-- Runs a routine over the job's writer. -/
def writing (w : Writing α) : Working α :=
  ExceptT.mk fun job => do
    let (result, writer) ← w.run.run job.writer
    return (result, { job with writer := writer })

end Working

end DocSync
