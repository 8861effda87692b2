import DocSync.Simulation.Work

/-!
Jobs running together under a clock of their own, which stands still while anyone can go on and then
jumps to the next moment someone waits for.  A script acts on the world at given times, and at last
the stop signal is given.
-/

namespace DocSync.Daemon

/-- A routine that has come to a wait, or to its end.  Every wait has a time at which it is looked
at again; the stop signal ends a pause and an idle wait. -/
inductive Suspended (α : Type) where
  | ended (value : Option α)
  | sleeping (wake : Nat) (next : Unit → Routine α)
  | pausing (wake : Nat) (next : Wakening Unit → Routine α)
  | idling (deadline wake : Nat) (next : Wakening (Except Failure Bool) → Routine α)

/-- How often a wait on a queue looks at it, in milliseconds. -/
def queueInterval : Nat := 250

def isQueue (w : World) (buffer : String) : Bool :=
  match (w.buffer buffer).store with
  | .memory _ => false
  | .queue .. => true

/-- When an idle wait that starts or goes on now is looked at next. -/
def idleWake (w : World) (buffer : String) (now deadline : Nat) : Nat :=
  if isQueue w buffer then min (now + queueInterval) deadline else deadline

/-- Whether a wait on a buffer without pending records ends at once: one in memory remembers an
arrival that no wait has noticed. -/
def hasUnnoticed (w : World) (buffer : String) : Bool :=
  !isQueue w buffer && (w.buffer buffer).unnoticed > 0

/-- What is the same for a routine between two of its waits. -/
structure Moment where
  wiring : Wiring
  now : Nat
  /-- Whether the stop signal has been given. -/
  stopping : Bool

/-- Runs a routine to its next wait. -/
def advance {α : Type} (m : Moment) : Routine α → Site → Suspended α × Site
  | .done value, s => (.ended (some value), s)
  | .spent, s => (.ended none, s)
  | .ask (.clock (.sleep ms)) next, s => (.sleeping (m.now + ms) next, s)
  | .ask (.clock (.pause ms)) next, s =>
    if m.stopping then advance m (next .stopped) s else (.pausing (m.now + ms) next, s)
  | .ask (.clock (.idle ms)) next, s =>
    if m.stopping then advance m (next .stopped) s
    else
      match World.strikeIf true .wait s with
      | (some failure, s) => advance m (next (.woken (.error failure))) s
      | (none, s) =>
        let noticed := (s.1.notice m.wiring.buffer, s.2)
        if s.1.pendingCount m.wiring.buffer > 0 then advance m (next (.woken (.ok true))) s
        else if hasUnnoticed s.1 m.wiring.buffer then advance m (next (.woken (.ok false))) noticed
        else
          (.idling (m.now + ms) (idleWake s.1 m.wiring.buffer m.now (m.now + ms)) next, noticed)
  | .ask call next, s =>
    let (result, s) := World.answer m.wiring call s
    advance m (next result) s

/-- A job that runs. -/
structure Task where
  index : String
  wiring : Wiring
  frames : Frames
  state : Suspended (Except SyncError Unit × Job)

namespace Task

/-- A job about to start. -/
def start (j : SimulatedJob) : Task :=
  ⟨j.job.options.index, j.wiring, j.frames,
    .sleeping 0 fun _ => (Job.run World.allowance World.allowance).run.run j.job⟩

/-- When the task is looked at next. -/
def wake? (t : Task) : Option Nat :=
  match t.state with
  | .ended _ => none
  | .sleeping wake _ => some wake
  | .pausing wake _ => some wake
  | .idling _ wake _ => some wake

/-- Looks at the task now. -/
def resume (t : Task) (now : Nat) (stopping : Bool) (w : World) : Task × World :=
  let m : Moment := ⟨t.wiring, now, stopping⟩
  let goOn (r : Routine (Except SyncError Unit × Job)) : Task × World :=
    let (state, (w, frames)) := advance m r (w, t.frames)
    ({ t with frames := frames, state := state }, w)
  match t.state with
  | .ended _ => (t, w)
  | .sleeping _ next => goOn (next ())
  | .pausing _ next => goOn (next (if stopping then .stopped else .woken ()))
  | .idling deadline _ next =>
    let pending := w.pendingCount t.wiring.buffer > 0
    if stopping then goOn (next .stopped)
    else if pending || deadline ≤ now || !isQueue w t.wiring.buffer then
      goOn (next (.woken (.ok pending)))
    else ({ t with state := .idling deadline (idleWake w t.wiring.buffer now deadline) next }, w)

/-- An idle task that is to be looked at now. -/
def woken (t : Task) (now : Nat) : Task :=
  match t.state with
  | .idling deadline _ next => { t with state := .idling deadline now next }
  | .pausing _ next => { t with state := .pausing now next }
  | _ => t

def isIdle (t : Task) (now : Nat) : Bool :=
  match t.state with
  | .idling _ wake _ => now < wake
  | _ => false

end Task

/-- Jobs that run, in the order in which they came to wait; the indices of jobs that failed, in the
order in which they did; and what is left of the script with the answers so far. -/
structure State (α : Type) where
  now : Nat
  tasks : List Task
  failed : List String
  script : List (Nat × (World → α × World))
  answers : List α
  stopAt : Nat
  stopping : Bool

namespace State

variable {α : Type}

/-- Lets each arrival at a buffer wake one task that waits on it. -/
def wakeIdle (now : Nat) : List Task → World → List Task × World
  | [], w => ([], w)
  | t :: rest, w =>
    let b := w.buffer t.wiring.buffer
    if t.isIdle now && b.unnoticed > 0 then
      let (rest, w) :=
        wakeIdle now rest (w.putBuffer t.wiring.buffer { b with unnoticed := b.unnoticed - 1 })
      (t.woken now :: rest, w)
    else
      let (rest, w) := wakeIdle now rest w
      (t :: rest, w)

/-- Adds a task that was looked at: at the end while it runs, to the failed ones if it failed. -/
def settle (d : State α) (t : Task) : State α :=
  match t.state with
  | .ended (some (.error _, _)) => { d with failed := d.failed ++ [t.index] }
  | .ended _ => d
  | _ => { d with tasks := d.tasks ++ [t] }

/-- The first of the tasks that are looked at next, and the others. -/
def nextTask? : List Task → Option (Nat × Task × List Task)
  | [] => none
  | t :: rest =>
    match t.wake?, nextTask? rest with
    | none, _ => none
    | some wake, none => some (wake, t, rest)
    | some wake, some (earliest, first, others) =>
      if wake ≤ earliest then some (wake, t, rest) else some (earliest, first, t :: others)

/-- Gives the stop signal. -/
def stop (d : State α) (now : Nat) : State α :=
  { d with now := now, stopping := true, tasks := d.tasks.map (·.woken now) }

/-- Looks at a task. -/
def runTask (d : State α) (wake : Nat) (t : Task) (others : List Task) (w : World) :
    State α × World :=
  let now := max d.now wake
  let (t, w) := t.resume now d.stopping w
  let d := settle { d with now := now, tasks := others } t
  let (tasks, w) := wakeIdle now d.tasks w
  ({ d with tasks := tasks }, w)

/-- Runs a step of the script. -/
def runScript (d : State α) (time : Nat) (step : World → α × World)
    (rest : List (Nat × (World → α × World))) (w : World) : State α × World :=
  let now := max d.now time
  let (result, w) := step w
  let (tasks, w) := wakeIdle now d.tasks w
  ({ d with now := now, tasks := tasks, script := rest, answers := d.answers ++ [result] }, w)

/-- What happens next, at one time the script before the stop signal before the tasks; nothing once
all has happened. -/
def step (d : State α) (w : World) : Option (State α × World) :=
  let next := nextTask? d.tasks
  let isFirst (time : Nat) : Bool :=
    match next with
    | some (wake, _, _) => max d.now time ≤ max d.now wake
    | none => true
  let task : Option (State α × World) :=
    next.map fun (wake, t, others) => d.runTask wake t others w
  match d.script with
  | (time, act) :: rest => if isFirst time then some (d.runScript time act rest w) else task
  | [] =>
    if !d.stopping && isFirst d.stopAt then some (d.stop (max d.now d.stopAt), w) else task

/-- Runs until all has happened, in at most `steps` steps. -/
def run : Nat → State α → World → State α × World
  | 0, d, w => (d, w)
  | steps + 1, d, w =>
    match d.step w with
    | some (d, w) => run steps d w
    | none => (d, w)

end State

/-- What a run gave: the answers of the script, and the indices of the jobs that failed. -/
structure Report (α : Type) where
  answers : List α
  failed : List String

/-- The failure of a run in which jobs failed. -/
def Report.result {α : Type} (r : Report α) : Except Failure Unit :=
  if r.failed.isEmpty then .ok ()
  else .error (.ofText ("Sync jobs failed: " ++ ", ".intercalate r.failed))

/-- Runs jobs of the world with a script until the stop signal at `stopAt`; they belong to the world no
more. -/
def run {α : Type} (w : World) (indices : List String) (script : List (Nat × (World → α × World)))
    (stopAt : Nat) : Report α × World :=
  let tasks := (indices.filterMap w.jobs.get?).map Task.start
  let w := { w with jobs := w.jobs.filter fun (index, _) => !indices.contains index }
  let (d, w) := State.run World.allowance ⟨0, tasks, [], script, [], stopAt, false⟩ w
  (⟨d.answers, d.failed⟩, w)

end DocSync.Daemon
