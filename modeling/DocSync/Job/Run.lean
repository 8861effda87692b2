import DocSync.Job.Cycle

/-!
Running a job until it is told to stop.
-/

namespace DocSync.Job

open Working

/-- What a running job is to do next. -/
inductive Next where
  | goOn (needsResync : Bool)
  | stop
deriving DecidableEq, Repr

/-- Waits, unless told to stop. -/
def pause (milliseconds : Nat) : Working (Wakening Unit) :=
  attempt (ExceptT.lift (Clock.pause milliseconds))

/-- Waits for the buffer, unless told to stop. -/
def idleWait (milliseconds : Nat) : Working (Wakening (Except Failure Bool)) :=
  attempt (ExceptT.lift (Clock.idle milliseconds))

/-- Opens the slot; gives whether the job has never completed a cycle. -/
def prepare : Working Bool := do
  let _ ← openSlot
  return (← checkpoint).isNone

/-- Runs a routine whose failure is a value. -/
def caught {α : Type} (a : Working α) : Working (Except SyncError α) :=
  tryCatch (a >>= fun value => pure (Except.ok value)) fun e => pure (Except.error e)

/-- One attempt of a cycle. -/
def attemptCycle (pages : Nat) (needsResync : Bool) : Working CycleStats :=
  if needsResync then fullResync pages else receiveOnce pages

/-- One cycle with its retries: a transient failure is tried again after a delay that doubles, until
`retries` are used up; the stop signal ends the delay. -/
def cycle (pages : Nat) (needsResync : Bool) : Nat → Nat → Working Next
  | retries, delay => do
    match ← caught (attemptCycle pages needsResync) with
    | .ok _ => return .goOn false
    | .error e =>
      if e.isTransient then
        enter .idle
        match retries with
        | 0 => return .goOn needsResync
        | retries + 1 =>
          match ← pause delay with
          | .stopped => return .stop
          | .woken () => cycle pages needsResync retries (2 * delay)
      else throw e

/-- Cycles until the stop signal.  A job that has to resync does not wait first. -/
def cycles (pages : Nat) : Nat → Bool → Working Unit
  | 0, _ => attempt (ExceptT.mk .spent)
  | count + 1, needsResync => do
    let stopped ←
      if needsResync then pure false
      else
        match ← idleWait (← get).options.pollInterval with
        | .stopped => pure true
        | .woken _ => pure false
    if stopped then return ()
    let retry := (← get).options.retry
    match ← cycle pages needsResync retry.retries retry.delay with
    | .stop => return ()
    | .goOn needsResync => cycles pages count needsResync

/-- Runs until the stop signal, starting with a full resync where there is no checkpoint; at most
`count` cycles.  Errors that retrying cannot mend stop the job. -/
def run (pages count : Nat) : Working Unit := do
  let result ← caught (prepare >>= cycles pages count)
  enter .terminated
  match result with
  | .ok () => return ()
  | .error e => throw e

end DocSync.Job
