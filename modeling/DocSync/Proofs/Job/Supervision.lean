import DocSync.Job.Run
import DocSync.Proofs.Job.Progress

/-!
A running job as requests of its own: to prepare, to attempt a cycle, and to wait.  Main statement: to run a job
is to put these requests and to answer each by what the job does then.
-/

namespace DocSync

namespace Program

variable {Request : Type} {Answer : Request → Type} {Stage α β σ : Type}

theorem bind_congr {ends : β → Prop} {p : Program Request Answer β} {f g : β → Program Request Answer α}
    (hp : p.Yields ends) (h : ∀ b, ends b → f b = g b) : p.bind f = p.bind g := by
  induction p with
  | done b => exact h b hp
  | spent => rfl
  | ask r next ih => exact congrArg (ask r) (funext fun a => ih a (hp a))

theorem Follows.yields {rules : Rules Request Answer Stage} {ends : α → Stage → Prop}
    {p : Program Request Answer α} {stage : Stage} (hp : p.Follows rules ends stage) :
    p.Yields fun value => ∃ stage, ends value stage := by
  induction p generalizing stage with
  | done value => exact ⟨stage, hp⟩
  | spent => trivial
  | ask r next ih => exact fun a => ih a (hp.2 a)

theorem interpret_bind {Request' : Type} {Answer' : Request' → Type}
    {answer : (r : Request) → σ → Program Request' Answer' (Answer r × σ)} (p : Program Request Answer β)
    (f : β → Program Request Answer α) (s : σ) :
    (p.bind f).interpret answer s = (p.interpret answer s).bind fun (b, s) => (f b).interpret answer s := by
  induction p generalizing s with
  | done b => rfl
  | spent => rfl
  | ask r next ih =>
    simp only [bind, interpret, bind_assoc]
    exact congrArg _ (funext fun r => ih r.1 r.2)

end Program

namespace Job

open Program Working

/-- What a running job does next. -/
inductive Task where
  | prepare
  | attempt (needsResync : Bool)
  | idle (milliseconds : Nat)
  | pause (milliseconds : Nat)

@[reducible] def Task.Answer : Task → Type
  | prepare => Except SyncError Bool
  | attempt _ => Except SyncError CycleStats
  | idle _ => Wakening (Except Failure Bool)
  | pause _ => Wakening Unit

/-- A job after an attempt: a transient failure leaves it idle. -/
def rested (job : Job) : Except SyncError CycleStats → Job
  | .ok _ => job
  | .error e => if e.isTransient then { job with phase := .idle } else job

/-- Does a task for a job. -/
def Task.perform (pages : Nat) : (task : Task) → Job → Routine (task.Answer × Job)
  | prepare, job => Job.prepare.run.run job
  | attempt needsResync, job =>
    ((attemptCycle pages needsResync).run.run job).bind fun (result, job) => done (result, rested job result)
  | idle milliseconds, job => (Clock.idle milliseconds).bind fun answer => done (answer, job)
  | pause milliseconds, job => (Clock.pause milliseconds).bind fun answer => done (answer, job)

/-- The attempts of one cycle, with the retries that are left. -/
def superviseCycle (needsResync : Bool) : Nat → Nat → Program Task Task.Answer (Except SyncError Next)
  | retries, delay => ask (.attempt needsResync) fun
    | .ok _ => done (.ok (.goOn false))
    | .error e =>
      if e.isTransient then
        match retries with
        | 0 => done (.ok (.goOn needsResync))
        | retries + 1 => ask (.pause delay) fun
          | .stopped => done (.ok .stop)
          | .woken () => superviseCycle needsResync retries (2 * delay)
      else done (.error e)

/-- What follows a cycle. -/
def afterCycle (cycles : Bool → Program Task Task.Answer (Except SyncError Unit)) :
    Except SyncError Next → Program Task Task.Answer (Except SyncError Unit)
  | .ok .stop => done (.ok ())
  | .ok (.goOn needsResync) => cycles needsResync
  | .error e => done (.error e)

/-- At most `count` cycles, each after an idle wait unless the job has to resync. -/
def superviseCycles (options : SyncOptions) : Nat → Bool → Program Task Task.Answer (Except SyncError Unit)
  | 0, _ => spent
  | count + 1, needsResync =>
    let cycle := (superviseCycle needsResync options.retry.retries options.retry.delay).bind
      (afterCycle (superviseCycles options count))
    if needsResync then cycle
    else ask (.idle options.pollInterval) fun
      | .stopped => done (.ok ())
      | .woken _ => cycle

/-- The tasks of a job from its start. -/
def supervise (options : SyncOptions) (count : Nat) : Program Task Task.Answer (Except SyncError Unit) :=
  ask .prepare fun
    | .ok needsResync => superviseCycles options count needsResync
    | .error e => done (.error e)

/-! ### Runs as tasks -/

variable {pages : Nat} {job : Job}

/-- What follows a routine whose failure is caught. -/
theorem run_caught_bind {α β : Type} (a : Working α) (f : Except SyncError α → Working β) (job : Job) :
    (caught a >>= f).run.run job = (a.run.run job).bind fun (result, job) => (f result).run.run job := by
  change Program.bind (Program.bind (Program.bind (a.run.run job) _) _) _ = _
  rw [bind_assoc, bind_assoc]
  refine congrArg (Program.bind (a.run.run job)) (funext fun (result, job) => ?_)
  cases result <;> rfl

theorem attemptCycle_options (needsResync : Bool) (job : Job) :
    ((attemptCycle pages needsResync).run.run job).Yields fun r => r.2.options = job.options := by
  cases needsResync with
  | true =>
    refine Yields.mono ?_ (cycle_follows .resync rfl).yields
    rintro ⟨result, job'⟩ ⟨p, hends⟩
    exact hends.agrees.options
  | false =>
    refine Yields.mono ?_ (cycle_follows .receive rfl).yields
    rintro ⟨result, job'⟩ ⟨p, hends⟩
    exact hends.agrees.options

theorem prepare_options (job : Job) :
    (Job.prepare.run.run job).Yields fun r => r.2.options = job.options := by
  have hfollows : Stateful.Follows (Progress.rules job.options .receive) (Progress.Fails job.options)
      (fun _ => Progress.Agrees job.options) Job.prepare job (.begin job) :=
    .bind (openSlot_follows ⟨rfl, rfl⟩ rfl fun _ _ hagrees =>
      .bind (checkpoint_follows hagrees rfl rfl fun _ => ⟨hagrees.options, hagrees.slot⟩))
  refine Yields.mono ?_ (Follows.yields hfollows)
  rintro ⟨_ | _, job'⟩ ⟨p, hends⟩
  · exact hends.options
  · exact hends.options

theorem perform_options (task : Task) (job : Job) :
    (task.perform pages job).Yields fun r => r.2.options = job.options := by
  cases task with
  | prepare => exact prepare_options job
  | attempt needsResync =>
    refine Yields.bind (Yields.mono ?_ (attemptCycle_options needsResync job))
    rintro ⟨result, job'⟩ hoptions
    refine Eq.trans ?_ hoptions
    cases result with
    | ok => rfl
    | error e =>
      show (if e.isTransient then { job' with phase := .idle } else job').options = job'.options
      split <;> rfl
  | idle | pause => exact fun _ => rfl

/-- No task changes the options. -/
theorem interpret_options {α : Type} (p : Program Task Task.Answer α) (job : Job) :
    (p.interpret (Task.perform pages) job).Yields fun r => r.2.options = job.options := by
  induction p generalizing job with
  | done value => rfl
  | spent => trivial
  | ask task next ih =>
    refine Yields.bind (Yields.mono ?_ (perform_options task job))
    rintro ⟨answer, job'⟩ hoptions
    exact Yields.mono (fun r hr => hr.trans hoptions) (ih answer job')

/-- What follows an attempt, one case for each of its outcomes. -/
theorem run_attempt_bind {β : Type} (needsResync : Bool) {f : Except SyncError CycleStats → Working β}
    {next : Except SyncError CycleStats → Program Task Task.Answer (Except SyncError β)}
    (hok : ∀ stats job, (f (.ok stats)).run.run job = (next (.ok stats)).interpret (Task.perform pages) job)
    (htransient : ∀ e job, e.isTransient = true → (f (.error e)).run.run job =
      (next (.error e)).interpret (Task.perform pages) { job with phase := .idle })
    (hfatal : ∀ e job, ¬ e.isTransient = true →
      (f (.error e)).run.run job = (next (.error e)).interpret (Task.perform pages) job) (job : Job) :
    (caught (attemptCycle pages needsResync) >>= f).run.run job =
      (ask (.attempt needsResync) next).interpret (Task.perform pages) job := by
  rw [run_caught_bind, interpret, Task.perform, bind_assoc]
  refine congrArg (Program.bind _) (funext fun (result, job) => ?_)
  show _ = (next result).interpret (Task.perform pages) (job.rested result)
  cases result with
  | ok stats => exact hok stats job
  | error e =>
    by_cases h : e.isTransient = true
    · rw [rested, if_pos h]
      exact htransient e job h
    · rw [rested, if_neg h]
      exact hfatal e job h

theorem run_cycle (needsResync : Bool) (retries delay : Nat) (job : Job) :
    (Job.cycle pages needsResync retries delay).run.run job =
      (superviseCycle needsResync retries delay).interpret (Task.perform pages) job := by
  induction retries generalizing delay job with
  | zero =>
    rw [Job.cycle, superviseCycle]
    apply run_attempt_bind
    · exact fun stats job => rfl
    · intro e job htransient
      simp only [if_pos htransient]
      rfl
    · intro e job htransient
      simp only [if_neg htransient]
      rfl
  | succ retries ih =>
    rw [Job.cycle, superviseCycle]
    apply run_attempt_bind
    · exact fun stats job => rfl
    · intro e job htransient
      simp only [if_pos htransient]
      refine congrArg (ask _) (funext fun answer => ?_)
      cases answer with
      | stopped => rfl
      | woken => exact ih (2 * delay) { job with phase := .idle }
    · intro e job htransient
      simp only [if_neg htransient]
      rfl

theorem cycle_options (needsResync : Bool) (retries delay : Nat) (job : Job) :
    ((Job.cycle pages needsResync retries delay).run.run job).Yields fun r => r.2.options = job.options := by
  rw [run_cycle]
  exact interpret_options _ job

/-- A cycle, and what follows it for a job with the same options. -/
theorem run_cycle_bind (needsResync : Bool) (retries delay : Nat) {f : Next → Working Unit}
    {cycles : Bool → Program Task Task.Answer (Except SyncError Unit)}
    (hstop : ∀ job, (f .stop).run.run job = done (.ok (), job))
    (hgoOn : ∀ needsResync (job' : Job), job'.options = job.options →
      (f (.goOn needsResync)).run.run job' = (cycles needsResync).interpret (Task.perform pages) job') :
    (Job.cycle pages needsResync retries delay >>= f).run.run job =
      ((superviseCycle needsResync retries delay).bind (afterCycle cycles)).interpret (Task.perform pages) job := by
  rw [interpret_bind, ← run_cycle]
  refine bind_congr (cycle_options needsResync retries delay job) ?_
  rintro ⟨result, job'⟩ hoptions
  rcases result with e | needsResync | _
  · rfl
  · exact hgoOn needsResync job' hoptions
  · exact hstop job'

theorem run_cycles (count : Nat) (needsResync : Bool) (job : Job) :
    (Job.cycles pages count needsResync).run.run job =
      (superviseCycles job.options count needsResync).interpret (Task.perform pages) job := by
  induction count generalizing needsResync job with
  | zero => rfl
  | succ count ih =>
    have hrest : ∀ needsResync (job' : Job), job'.options = job.options →
        (Job.cycles pages count needsResync).run.run job' =
          (superviseCycles job.options count needsResync).interpret (Task.perform pages) job' := by
      intro needsResync job' hoptions
      rw [← hoptions]
      exact ih needsResync job'
    rw [Job.cycles, superviseCycles]
    cases needsResync with
    | true => exact run_cycle_bind true _ _ (fun _ => rfl) hrest
    | false =>
      refine congrArg (ask _) (funext fun answer => ?_)
      cases answer with
      | stopped => rfl
      | woken => exact run_cycle_bind false _ _ (fun _ => rfl) hrest

/-- **A run is the conversation of its tasks.**  To run a job is to put the tasks of its options one after
another, each done by the job, and to enter the last phase at the end. -/
theorem run_supervise (count : Nat) (job : Job) :
    (Job.run pages count).run.run job =
      ((supervise job.options count).interpret (Task.perform pages) job).bind fun (result, job) =>
        done (result, { job with phase := .terminated }) := by
  rw [Job.run, run_caught_bind, supervise, interpret]
  have hbody : (Job.prepare >>= Job.cycles pages count).run.run job =
      (Task.perform pages .prepare job).bind fun (prepared, job') => interpret (Task.perform pages) (match prepared with
        | .ok needsResync => superviseCycles job.options count needsResync
        | .error e => done (.error e)) job' := by
    refine bind_congr (prepare_options job) ?_
    rintro ⟨result, job'⟩ hoptions
    cases result with
    | error e => rfl
    | ok needsResync =>
      rw [← hoptions]
      exact run_cycles count needsResync job'
  rw [hbody]
  refine congrArg (Program.bind _) (funext fun (result, job) => ?_)
  cases result <;> rfl

end Job

end DocSync
