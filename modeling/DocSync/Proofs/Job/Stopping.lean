import DocSync.Proofs.Conversation
import DocSync.Proofs.Job.Supervision

/-!
How a running job stops.  A wait ends at the stop signal, and nothing else asks for it.  Main statement: after the
signal a job attempts one more cycle at most, unless the attempt it is to make is the last one of a cycle that
resyncs, for then it goes on to a cycle before which it does not wait.
-/

namespace DocSync

open Program

namespace Job

abbrev TaskTurn := (task : Task) × task.Answer

/-- A turn after the stop signal: a wait is answered by it. -/
def TaskTurn.Told : TaskTurn → Prop
  | ⟨.idle _, .woken _⟩ | ⟨.pause _, .woken _⟩ => False
  | _ => True

/-- How many attempts of cycles are begun. -/
def attempts (trace : List TaskTurn) : Nat :=
  trace.countP fun
    | ⟨.attempt _, _⟩ => true
    | _ => false

theorem attempts_append (trace trace' : List TaskTurn) :
    attempts (trace ++ trace') = attempts trace + attempts trace' := List.countP_append

/-- Where a job stands, with the cycles it may begin after the one at hand. -/
inductive Stance where
  | starting (cycles : Nat)
  | idling (cycles : Nat)
  | attempting (needsResync : Bool) (retries delay cycles : Nat)
  | pausing (needsResync : Bool) (retries delay cycles : Nat)
  | ended (result : Except SyncError Unit)
  | spent

namespace Stance

variable (options : SyncOptions)

def begin : Nat → Bool → Stance
  | 0, _ => spent
  | cycles + 1, true => attempting true options.retry.retries options.retry.delay cycles
  | cycles + 1, false => idling cycles

def task : Stance → Option Task
  | starting _ => some .prepare
  | idling _ => some (.idle options.pollInterval)
  | attempting needsResync .. => some (.attempt needsResync)
  | pausing _ _ delay _ => some (.pause delay)
  | ended _ | spent => none

def next : Stance → TaskTurn → Stance
  | starting cycles, ⟨.prepare, .ok needsResync⟩ => begin options cycles needsResync
  | starting _, ⟨.prepare, .error e⟩ => ended (.error e)
  | idling _, ⟨.idle _, .stopped⟩ => ended (.ok ())
  | idling cycles, ⟨.idle _, .woken _⟩ => attempting false options.retry.retries options.retry.delay cycles
  | attempting _ _ _ cycles, ⟨.attempt _, .ok _⟩ => begin options cycles false
  | attempting needsResync retries delay cycles, ⟨.attempt _, .error e⟩ =>
    if e.isTransient then
      match retries with
      | 0 => begin options cycles needsResync
      | retries + 1 => pausing needsResync retries delay cycles
    else ended (.error e)
  | pausing .., ⟨.pause _, .stopped⟩ => ended (.ok ())
  | pausing needsResync retries delay cycles, ⟨.pause _, .woken ()⟩ =>
    attempting needsResync retries (2 * delay) cycles
  | stance, _ => stance

/-- What a job is still to do. -/
def program : Stance → Program Task Task.Answer (Except SyncError Unit)
  | starting cycles => supervise options cycles
  | idling cycles => superviseCycles options (cycles + 1) false
  | attempting needsResync retries delay cycles =>
    (superviseCycle needsResync retries delay).bind (afterCycle (superviseCycles options cycles))
  | pausing needsResync retries delay cycles => ask (.pause delay) fun
    | .stopped => done (.ok ())
    | .woken () => (superviseCycle needsResync retries (2 * delay)).bind (afterCycle (superviseCycles options cycles))
  | ended result => done result
  | spent => .spent

/-- The last attempt of a cycle that resyncs is to be made, and another cycle may follow. -/
def Exposed : Stance → Prop
  | starting cycles => options.retry.retries = 0 ∧ 2 ≤ cycles
  | attempting true 0 _ cycles => 0 < cycles
  | _ => False

/-- The most attempts after the stop signal. -/
def most : Stance → Nat
  | attempting true 0 _ (_ + 1) => 2
  | starting _ | attempting .. => 1
  | _ => 0

/-- The most tasks after the stop signal. -/
def reach : Stance → Nat
  | starting _ | attempting true 0 _ (_ + 1) => 3
  | attempting .. => 2
  | idling _ | pausing .. => 1
  | ended _ | spent => 0

variable {options} {stance : Stance}

theorem program_begin (cycles : Nat) (needsResync : Bool) :
    (begin options cycles needsResync).program options = superviseCycles options cycles needsResync := by
  cases cycles with
  | zero => rfl
  | succ cycles => cases needsResync <;> rfl

theorem program_of_task {task : Task} (h : stance.task options = some task) :
    stance.program options = ask task fun answer => (stance.next options ⟨task, answer⟩).program options := by
  cases stance with
  | starting cycles =>
    obtain rfl := Option.some.inj h
    refine congrArg (ask _) (funext fun answer => ?_)
    cases answer with
    | ok needsResync => exact (program_begin cycles needsResync).symm
    | error e => rfl
  | idling cycles =>
    obtain rfl := Option.some.inj h
    refine congrArg (ask _) (funext fun answer => ?_)
    cases answer <;> rfl
  | attempting needsResync retries delay cycles =>
    obtain rfl := Option.some.inj h
    rw [program, superviseCycle.eq_def, Program.bind]
    refine congrArg (ask _) (funext fun answer => ?_)
    cases answer with
    | ok stats => exact (program_begin cycles false).symm
    | error e =>
      by_cases htransient : e.isTransient = true
      · simp only [next, if_pos htransient]
        cases retries with
        | zero => exact (program_begin cycles needsResync).symm
        | succ retries =>
          refine congrArg (ask _) (funext fun answer => ?_)
          cases answer <;> rfl
      · simp only [next, if_neg htransient]
        rfl
  | pausing needsResync retries delay cycles =>
    obtain rfl := Option.some.inj h
    refine congrArg (ask _) (funext fun answer => ?_)
    cases answer <;> rfl
  | ended | spent => contradiction

/-- What asks something is at a task, and goes on from where its answer leads. -/
theorem task_of_program {r : Task} {rest : r.Answer → Program Task Task.Answer (Except SyncError Unit)}
    (h : stance.program options = ask r rest) :
    stance.task options = some r ∧ ∀ answer, rest answer = (stance.next options ⟨r, answer⟩).program options := by
  cases htask : stance.task options with
  | none => cases stance <;> contradiction
  | some task =>
    rw [program_of_task htask] at h
    cases h
    exact ⟨rfl, fun _ => rfl⟩

variable (options) in
/-- Where a job stands after some turns. -/
def after (stance : Stance) (trace : List TaskTurn) : Stance := trace.foldl (next options) stance

theorem after_concat (trace : List TaskTurn) (turn : TaskTurn) :
    stance.after options (trace ++ [turn]) = (stance.after options trace).next options turn := by
  rw [after, after, List.foldl_append]
  rfl

variable {trace : List TaskTurn} {left : Program Task Task.Answer (Except SyncError Unit)}

theorem program_after (stance : Stance) (h : (stance.program options).After trace left) :
    left = (stance.after options trace).program options := by
  induction h with
  | nothing => rfl
  | answered answer _ ih =>
    rw [after_concat]
    exact (task_of_program ih.symm).2 answer

theorem after_turn {p : Program Task Task.Answer (Except SyncError Unit)} (stance : Stance) {task : Task}
    (h : p.After trace (stance.program options)) (htask : stance.task options = some task) (answer : task.Answer) :
    p.After (trace ++ [⟨task, answer⟩]) ((stance.next options ⟨task, answer⟩).program options) := by
  rw [program_of_task htask] at h
  exact .answered answer h

/-! ### After the stop signal -/

/-- How far a job goes at most, whatever it is answered after the stop signal. -/
structure Nears (options : SyncOptions) (stance : Stance) (most reach : Nat) : Prop where
  safe : options.retry.retries ≠ 0 ∨ ¬ stance.Exposed options
  most : stance.most ≤ most
  reach : stance.reach ≤ reach

theorem nears_ended (result : Except SyncError Unit) : Nears options (ended result) 0 0 :=
  ⟨.inr id, Nat.le_refl _, Nat.le_refl _⟩

theorem nears_begin_false (cycles : Nat) : Nears options (begin options cycles false) 0 1 := by
  cases cycles with
  | zero => exact ⟨.inr id, Nat.le_refl _, Nat.zero_le _⟩
  | succ cycles => exact ⟨.inr id, Nat.le_refl _, Nat.le_refl _⟩

theorem nears_begin_true {cycles : Nat} (h : options.retry.retries ≠ 0 ∨ cycles ≤ 1) :
    Nears options (begin options cycles true) 1 2 := by
  cases cycles with
  | zero => exact ⟨.inr id, Nat.zero_le _, Nat.zero_le _⟩
  | succ cycles =>
    rw [begin]
    cases hretries : options.retry.retries with
    | succ retries => exact ⟨.inl (by omega), Nat.le_refl _, Nat.le_refl _⟩
    | zero =>
      obtain rfl : cycles = 0 := by omega
      exact ⟨.inr (Nat.lt_irrefl 0), Nat.le_refl _, Nat.le_refl _⟩

theorem attempting_reach (needsResync : Bool) (retries delay cycles : Nat) :
    1 ≤ (attempting needsResync retries delay cycles).most ∧
      2 ≤ (attempting needsResync retries delay cycles).reach := by
  cases needsResync with
  | false => exact ⟨Nat.le_refl _, Nat.le_refl _⟩
  | true => cases retries <;> cases cycles <;> simp [most, reach]

theorem told_next {turn : TaskTurn} (hsafe : options.retry.retries ≠ 0 ∨ ¬ stance.Exposed options)
    (htask : stance.task options = some turn.1) (htold : turn.Told) :
    ∃ most reach, Nears options (stance.next options turn) most reach ∧
      attempts [turn] + most ≤ stance.most ∧ 1 + reach ≤ stance.reach := by
  obtain ⟨task, answer⟩ := turn
  cases stance with
  | starting cycles =>
    obtain rfl := Option.some.inj htask
    cases answer with
    | error e => exact ⟨0, 0, nears_ended _, Nat.zero_le _, Nat.le_add_left _ _⟩
    | ok needsResync =>
      cases needsResync with
      | false => exact ⟨0, 1, nears_begin_false cycles, Nat.zero_le _, Nat.le_succ 2⟩
      | true =>
        -- Without retries the first attempt is the last of its cycle, so no other cycle may follow.
        have hcycles : options.retry.retries ≠ 0 ∨ cycles ≤ 1 := by
          simp only [Exposed] at hsafe
          omega
        exact ⟨1, 2, nears_begin_true hcycles, Nat.le_refl _, Nat.le_refl _⟩
  | idling cycles =>
    obtain rfl := Option.some.inj htask
    cases answer with
    | woken => contradiction
    | stopped => exact ⟨0, 0, nears_ended _, Nat.le_refl _, Nat.le_refl _⟩
  | attempting needsResync retries delay cycles =>
    obtain rfl := Option.some.inj htask
    have hone : attempts [⟨.attempt needsResync, answer⟩] = 1 := rfl
    obtain ⟨hmost, hreach⟩ := attempting_reach needsResync retries delay cycles
    cases answer with
    | ok stats => exact ⟨0, 1, nears_begin_false cycles, by omega, by omega⟩
    | error e =>
      by_cases htransient : e.isTransient = true
      · simp only [next, if_pos htransient]
        cases retries with
        | succ retries => exact ⟨0, 1, ⟨.inr id, Nat.le_refl _, Nat.le_refl _⟩, by omega, by omega⟩
        | zero =>
          cases needsResync with
          | false => exact ⟨0, 1, nears_begin_false cycles, by omega, by omega⟩
          | true =>
            cases cycles with
            | zero => exact ⟨0, 1, ⟨.inr id, Nat.zero_le _, Nat.zero_le _⟩, by omega, by omega⟩
            | succ cycles =>
              -- The next cycle resyncs too, without a wait before it, but it has retries and ends at the first pause.
              have hretries : options.retry.retries ≠ 0 := by
                simp only [Exposed] at hsafe
                omega
              exact ⟨1, 2, nears_begin_true (.inl hretries), Nat.le_refl _, Nat.le_refl _⟩
      · simp only [next, if_neg htransient]
        exact ⟨0, 0, nears_ended _, by omega, by omega⟩
  | pausing needsResync retries delay cycles =>
    obtain rfl := Option.some.inj htask
    cases answer with
    | woken => contradiction
    | stopped => exact ⟨0, 0, nears_ended _, Nat.le_refl _, Nat.le_refl _⟩
  | ended | spent => contradiction

theorem told_after (hsafe : options.retry.retries ≠ 0 ∨ ¬ stance.Exposed options)
    (h : (stance.program options).After trace left) (htold : ∀ turn ∈ trace, turn.Told) :
    ∃ most reach, Nears options (stance.after options trace) most reach ∧
      attempts trace + most ≤ stance.most ∧ trace.length + reach ≤ stance.reach := by
  -- The bounds of the stance pay for the turns one after another, the last of them from what the others left.
  induction h with
  | nothing => exact ⟨stance.most, stance.reach, ⟨hsafe, Nat.le_refl _, Nat.le_refl _⟩, by simp [attempts], by simp⟩
  | answered answer hrest ih =>
    obtain ⟨most, reach, hnears, hmost, hreach⟩ := ih fun turn hturn => htold turn (List.mem_append_left _ hturn)
    have htask := (task_of_program (program_after _ hrest).symm).1
    obtain ⟨most', reach', hnears', hmost', hreach'⟩ :=
      told_next hnears.safe htask (htold _ (List.mem_append_right _ (List.mem_singleton_self _)))
    rw [after_concat]
    refine ⟨most', reach', hnears', ?_, ?_⟩
    · have := hnears.most
      rw [attempts_append]
      omega
    · have := hnears.reach
      rw [List.length_append, List.length_singleton]
      omega

end Stance

/-- After the stop signal, at most so many attempts are begun, and with a few tasks the job is over. -/
def StopsWithin (most : Nat) (left : Program Task Task.Answer (Except SyncError Unit)) : Prop :=
  ∀ trace rest, left.After trace rest → (∀ turn ∈ trace, TaskTurn.Told turn) → attempts trace ≤ most ∧ trace.length ≤ 3

theorem StopsWithin.mono {most most' : Nat} {left : Program Task Task.Answer (Except SyncError Unit)}
    (h : StopsWithin most left) (hle : most ≤ most') : StopsWithin most' left := by
  intro trace rest htrace htold
  obtain ⟨hmost, hlength⟩ := h trace rest htrace htold
  exact ⟨Nat.le_trans hmost hle, hlength⟩

namespace Stance

variable {options : SyncOptions} {stance : Stance}

theorem most_le_one (h : ¬ stance.Exposed options) : stance.most ≤ 1 := by
  unfold most
  split
  · exact absurd (Nat.succ_pos _) h
  all_goals omega

theorem most_le_two (stance : Stance) : stance.most ≤ 2 := by
  unfold most
  split <;> omega

theorem reach_le_three (stance : Stance) : stance.reach ≤ 3 := by
  unfold reach
  split <;> omega

theorem stopsWithin (hsafe : options.retry.retries ≠ 0 ∨ ¬ stance.Exposed options) :
    StopsWithin stance.most (stance.program options) := by
  intro trace rest h htold
  obtain ⟨most, reach, -, hmost, hreach⟩ := told_after hsafe h htold
  have := reach_le_three stance
  omega

/-- Where the last attempt of a resync fails, the job goes on with the next cycle. -/
theorem not_stopsWithin_of_last {p : Program Task Task.Answer (Except SyncError Unit)} {before : List TaskTurn}
    {delay cycles : Nat} (htold : ∀ turn ∈ before, turn.Told)
    (h : p.After before ((attempting true 0 delay (cycles + 1)).program options)) : ¬ StopsWithin 1 p := by
  intro hstops
  have hfirst := after_turn _ h rfl (.error (.transport default))
  have hsecond := after_turn (attempting true _ _ cycles) hfirst rfl (.error (.transport default))
  have hfailed : ∀ turn ∈ ([⟨.attempt true, .error (.transport default)⟩] : List TaskTurn), turn.Told := by
    simp [TaskTurn.Told]
  have htwice := List.forall_mem_append.mpr ⟨List.forall_mem_append.mpr ⟨htold, hfailed⟩, hfailed⟩
  have hmost := (hstops _ _ hsecond htwice).1
  have hone : attempts [⟨.attempt true, .error (.transport default)⟩] = 1 := rfl
  rw [attempts_append, attempts_append] at hmost
  omega

theorem not_stopsWithin_one (h : stance.Exposed options) : ¬ StopsWithin 1 (stance.program options) := by
  cases stance with
  | starting cycles =>
    obtain ⟨hretries, hcycles⟩ := h
    obtain ⟨cycles, rfl⟩ := Nat.exists_eq_add_of_le' hcycles
    have hprepared := after_turn (starting (cycles + 2)) (p := (starting (cycles + 2)).program options)
      .nothing rfl (.ok true)
    have hnext : (starting (cycles + 2)).next options ⟨.prepare, .ok true⟩ =
        attempting true 0 options.retry.delay (cycles + 1) := by
      rw [← hretries]
      rfl
    rw [hnext] at hprepared
    exact not_stopsWithin_of_last (by simp [TaskTurn.Told]) hprepared
  | attempting needsResync retries delay cycles =>
    cases needsResync with
    | false => contradiction
    | true =>
      cases retries with
      | succ => contradiction
      | zero =>
        obtain ⟨cycles, rfl⟩ := Nat.exists_eq_add_of_le' (Nat.succ_le_of_lt h)
        exact not_stopsWithin_of_last (by simp) .nothing
  | idling | pausing | ended | spent => contradiction

end Stance

/-- **The stop signal and pending resyncs.**  A run puts the tasks of its job one after another.  From wherever it
has come to when the stop signal is sent, it begins one more attempt of a cycle at most, whatever the attempts
give, exactly if it is not at the last attempt of a cycle that resyncs; with retries it begins two at most. -/
theorem stop_signal_honoured_iff (pages count : Nat) (job : Job) :
    (Job.run pages count).run.run job =
      ((supervise job.options count).interpret (Task.perform pages) job).bind (fun (result, job) =>
        done (result, { job with phase := .terminated })) ∧
    ∀ before left, (supervise job.options count).After before left →
      (StopsWithin 1 left ↔ ¬ ((Stance.starting count).after job.options before).Exposed job.options) ∧
      (job.options.retry.retries ≠ 0 → StopsWithin 2 left) := by
  refine ⟨run_supervise count job, fun before left h => ?_⟩
  obtain rfl := Stance.program_after (.starting count) h
  generalize (Stance.starting count).after job.options before = stance
  refine ⟨⟨fun hstops hexposed => Stance.not_stopsWithin_one hexposed hstops, fun hsafe => ?_⟩, fun hretries => ?_⟩
  · exact (Stance.stopsWithin (.inr hsafe)).mono (Stance.most_le_one hsafe)
  · exact (Stance.stopsWithin (.inl hretries)).mono (Stance.most_le_two stance)

/-- A resync that failed once and is to be tried again stops at the signal. -/
theorem stop_signal_honoured_between_retries :
    let options : SyncOptions := { SyncOptions.standard "books" with retry := ⟨1, 500⟩ }
    ∃ left, (supervise options 5).After [⟨.prepare, .ok true⟩, ⟨.attempt true, .error (.transport default)⟩] left ∧
      StopsWithin 1 left := by
  intro options
  have hprepared := Stance.after_turn (.starting 5) (p := supervise options 5) .nothing rfl (.ok true)
  have hfailed := Stance.after_turn (.attempting true 1 500 4) hprepared rfl (.error (.transport default))
  obtain ⟨-, hstops⟩ := stop_signal_honoured_iff 9 5 { (default : Job) with options := options }
  exact ⟨_, hfailed, (hstops _ _ hfailed).1.mpr id⟩

/-- A job without retries that is told to stop once it is prepared attempts its resync again. -/
theorem stop_signal_lost_in_resync :
    let options : SyncOptions := { SyncOptions.standard "books" with retry := ⟨0, 500⟩ }
    ∃ left rest trace, (supervise options 2).After [⟨.prepare, .ok true⟩] left ∧ left.After trace rest ∧
      (∀ turn ∈ trace, TaskTurn.Told turn) ∧ attempts trace = 2 := by
  intro options
  have hprepared := Stance.after_turn (.starting 2) (p := supervise options 2) .nothing rfl (.ok true)
  have hfirst := Stance.after_turn (.attempting true 0 500 1) (p := Stance.program options (.attempting true 0 500 1))
    .nothing rfl (.error (.transport default))
  have hsecond := Stance.after_turn (.attempting true 0 500 0) hfirst rfl (.error (.transport default))
  exact ⟨_, _, _, hprepared, hsecond, by simp [TaskTurn.Told], rfl⟩

end Job

end DocSync
