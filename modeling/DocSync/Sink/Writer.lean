import DocSync.Service.Retry
import DocSync.Error

/-!
Writing the documents of one index: a document whose digest equals the last one written is not sent
again, transient errors are retried, and permanent ones concern the one record only.
-/

namespace DocSync

/-- What a single write did. -/
inductive WriteOutcome where
  | upserted
  | unchanged
  | deleted
  | rejected (reason : String)
deriving DecidableEq, Repr, Inhabited

/-- The writer of an index.  Its ledger maps each identity to the digest last written. -/
structure Writer where
  index : String
  retry : RetryPolicy
  ledger : Keyed String
deriving Repr, Inhabited

/-- A routine over a writer, which keeps its ledger when it fails. -/
abbrev Writing (α : Type) := ExceptT SyncError (StateT Writer Routine) α

namespace Writer

/-- A routine of the sink as one that may fail. -/
def ask (call : SinkCall) : Routine call.Answer := Program.request (Call.sink call)

/-- Asks the sink, with retries. -/
def send {α : Type} (w : Writer) (request : Routine (Except SinkError α)) : Routine (Except SinkError α) :=
  (w.retry.attempt (.ofRoutine request) SinkError.isTransient).run

/-- A sink error that ends the cycle. -/
def transport (e : SinkError) : SyncError := .transport e.toFailure

/-- A failed write: a transient error ends the cycle, any other rejects the record. -/
def outcomeOfError (e : SinkError) : Except SyncError WriteOutcome :=
  if e.isTransient then .error (transport e) else .ok (.rejected e.message)

/-- Sends a write; only an accepted one changes the ledger. -/
def write (call : Routine (Except SinkError Unit)) (accepted : WriteOutcome)
    (change : Keyed String → Keyed String) : Writing WriteOutcome := do
  let w ← get
  match ← (w.send call : Routine _) with
  | .ok () =>
    set { w with ledger := change w.ledger }
    return accepted
  | .error e => liftExcept (outcomeOfError e)
where
  liftExcept (result : Except SyncError WriteOutcome) : Writing WriteOutcome :=
    ExceptT.mk (pure result)

/-- Writes a document unless it was the last one written under its identity. -/
def upsert (d : Document) : Writing WriteOutcome := do
  let digest := d.digest
  if (← get).ledger.get? d.identity = some digest then return .unchanged
  write (ask (.upsert d)) .upserted (·.putSorted d.identity digest)

/-- Deletes the document of an identity. -/
def delete (identity : String) : Writing WriteOutcome := do
  let w ← get
  write (ask (.delete w.index identity)) .deleted (·.erase identity)

/-- Makes earlier writes visible to lookups. -/
def refresh (w : Writer) : Attempt SyncError Unit :=
  (Attempt.ofRoutine (w.send (ask (.refresh w.index)))).mapError transport

/-- The identities whose documents list a key under a table. -/
def findByMeta (w : Writer) (table : String) (key : List (String × Json)) :
    Attempt SyncError (Option (List String)) :=
  (Attempt.ofRoutine (w.send (ask (.findByMeta w.index table key)))).mapError transport

/-- The identities the sink lists, or those of the ledger where it cannot list any. -/
def known (w : Writer) : Attempt SyncError (List String) := do
  let listed ← (Attempt.ofRoutine (w.send (ask (.identities w.index)))).mapError transport
  return match listed with
    | some identities => identities
    | none => w.ledger.keys

/-- Runs a routine that reads the writer and leaves it as it is. -/
def reading {α : Type} (f : Writer → Attempt SyncError α) : Writing α :=
  ExceptT.mk fun w => do return (← (f w).run, w)

/-- Deletes identities in turn; gives how many were deleted. -/
def deleteAll : List String → Writing Nat
  | [] => return 0
  | identity :: rest => do
    let outcome ← delete identity
    let others ← deleteAll rest
    return (if outcome = .deleted then 1 else 0) + others

/-- Deletes every known identity that is not among those seen, in order; gives how many. -/
def reconcile (seen : List String) : Writing Nat := do
  let known ← reading known
  deleteAll (sortStable (fun a b => a ≤ b) (known.filter fun identity => !seen.contains identity))

end Writer

end DocSync
