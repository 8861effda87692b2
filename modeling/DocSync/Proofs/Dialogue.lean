import DocSync.Proofs.Run

/-!
Rules for what a program asks.  The rules say at each stage what may be asked, and to what stage an
answer leads.  A program follows them when it keeps to them whatever it is answered; what it gives, and
the stage where it ends, are then as they should be.
-/

namespace DocSync

/-- What may be asked at a stage, and the stage after an answer. -/
structure Rules (Request : Type) (Answer : Request → Type) (Stage : Type) where
  allows : Stage → Request → Prop
  next : Stage → (r : Request) → Answer r → Stage

namespace Program

variable {Request : Type} {Answer : Request → Type} {Stage α β : Type}
  {rules : Rules Request Answer Stage}

/-- Whatever the answers, the program asks what the rules allow, and its value and its last stage are
as they should be. -/
def Follows (rules : Rules Request Answer Stage) (ends : α → Stage → Prop) :
    Program Request Answer α → Stage → Prop
  | done value, stage => ends value stage
  | ask r next, stage => rules.allows stage r ∧ ∀ a, Follows rules ends (next a) (rules.next stage r a)
  | spent, _ => True

theorem Follows.bind {ends : α → Stage → Prop} {p : Program Request Answer β}
    {f : β → Program Request Answer α} {stage : Stage}
    (hp : p.Follows rules (fun b stage => (f b).Follows rules ends stage) stage) :
    (p.bind f).Follows rules ends stage := by
  induction p generalizing stage with
  | done b => exact hp
  | spent => trivial
  | ask r next ih => exact ⟨hp.1, fun a => ih a (hp.2 a)⟩

theorem Follows.mono {ends wider : α → Stage → Prop}
    (hwider : ∀ value stage, ends value stage → wider value stage) {p : Program Request Answer α}
    {stage : Stage} (hp : p.Follows rules ends stage) : p.Follows rules wider stage := by
  induction p generalizing stage with
  | done value => exact hwider value stage hp
  | spent => trivial
  | ask r next ih => exact ⟨hp.1, fun a => ih a (hp.2 a)⟩

/-- A program whose requests are allowed at a stage, and leave it, stays there. -/
theorem Follows.of_asks {allowed : Request → Prop} {yields : α → Prop} {ends : α → Stage → Prop}
    {p : Program Request Answer α} {stage : Stage} (hasks : p.Asks allowed) (hyields : p.Yields yields)
    (hallows : ∀ r, allowed r → rules.allows stage r)
    (hstays : ∀ r, allowed r → ∀ a, rules.next stage r a = stage)
    (hends : ∀ value, yields value → ends value stage) : p.Follows rules ends stage := by
  induction p with
  | done value => exact hends value hyields
  | spent => trivial
  | ask r next ih =>
    refine ⟨hallows r hasks.1, fun a => ?_⟩
    rw [hstays r hasks.1 a]
    exact ih a (hasks.2 a) (hyields a)

end Program

/-- Rules for what a job asks. -/
abbrev CallRules (Stage : Type) := Rules Call Call.Answer Stage

namespace Stateful

variable {σ Stage α β : Type} {rules : CallRules Stage} {fails : σ → Stage → Prop} {st : σ}
  {stage : Stage}

/-- The routine follows the rules to where it should succeed, or fail. -/
def Follows (rules : CallRules Stage) (fails : σ → Stage → Prop) (succeeds : α → σ → Stage → Prop)
    (a : Stateful σ α) (st : σ) (stage : Stage) : Prop :=
  (a.run.run st).Follows rules (fun
    | (.ok value, st), stage => succeeds value st stage
    | (.error _, st), stage => fails st stage) stage

variable {succeeds : α → σ → Stage → Prop}

theorem Follows.bind {a : Stateful σ β} {f : β → Stateful σ α}
    (h : Follows rules fails (fun b st stage => Follows rules fails succeeds (f b) st stage) a st
      stage) : Follows rules fails succeeds (a >>= f) st stage := by
  refine Program.Follows.bind (Program.Follows.mono (fun r stage hr => ?_) h)
  obtain ⟨e | b, st⟩ := r
  · exact hr
  · exact hr

theorem follows_writing {Stage α : Type} {rules : CallRules Stage} {fails : Job → Stage → Prop}
    {succeeds : α → Job → Stage → Prop} {a : Writing α} {job : Job} {stage : Stage}
    (h : Follows rules (fun w stage => fails { job with writer := w } stage)
      (fun value w stage => succeeds value { job with writer := w } stage) a job.writer stage) :
    Follows rules fails succeeds (Working.writing a) job stage := by
  refine Program.Follows.bind (Program.Follows.mono (fun r stage hr => ?_) h)
  obtain ⟨e | value, w⟩ := r <;> exact hr

theorem follows_lift {p : Routine α}
    (h : p.Follows rules (fun value stage => succeeds value st stage) stage) :
    Follows rules fails succeeds (liftM p : Stateful σ α) st stage := by
  rw [Follows, lift_run]
  exact Program.Follows.bind (Program.Follows.mono (fun _ _ hr => hr) h)

/-- A routine whose calls are allowed at a stage, and leave it, stays there. -/
theorem follows_of_asks {allowed : Call → Prop} {a : Stateful σ α} (ha : Asks allowed a)
    (hallows : ∀ call, allowed call → rules.allows stage call)
    (hstays : ∀ call, allowed call → ∀ answer, rules.next stage call answer = stage)
    (hfails : ∀ st, fails st stage) (hsucceeds : ∀ value st, succeeds value st stage) :
    Follows rules fails succeeds a st stage := by
  have hyields : (a.run.run st).Yields fun _ => True := Program.yields_of_forall (fun _ => trivial) _
  refine Program.Follows.of_asks (ha st) hyields hallows hstays fun r _ => ?_
  obtain ⟨e | value, st⟩ := r
  · exact hfails st
  · exact hsucceeds value st

/-- A routine that leaves its state as it is follows the rules as it does alone. -/
theorem follows_attempt {Stage α : Type} {rules : CallRules Stage} {fails : Job → Stage → Prop}
    {succeeds : α → Job → Stage → Prop} {a : Attempt SyncError α} {job : Job} {stage : Stage}
    (h : a.run.Follows rules (fun
      | .ok value, stage => succeeds value job stage
      | .error _, stage => fails job stage) stage) :
    Follows rules fails succeeds (Working.attempt a) job stage := by
  refine Program.Follows.bind (Program.Follows.mono (fun r stage hr => ?_) h)
  cases r <;> exact hr

theorem follows_mapError {Stage ε ε' α : Type} {rules : CallRules Stage}
    {ends : Except ε' α → Stage → Prop} {f : ε → ε'} {a : Attempt ε α} {stage : Stage}
    (h : a.run.Follows rules (fun
      | .ok value, stage => ends (.ok value) stage
      | .error e, stage => ends (.error (f e)) stage) stage) :
    (a.mapError f).run.Follows rules ends stage := by
  refine Program.Follows.bind (Program.Follows.mono (fun r stage hr => ?_) h)
  cases r <;> exact hr

theorem follows_enter_bind {Stage α : Type} {rules : CallRules Stage} {fails : Job → Stage → Prop}
    {succeeds : α → Job → Stage → Prop} {phase : Phase} {f : Unit → Working α} {job : Job}
    {stage : Stage}
    (h : Follows rules fails succeeds (f ()) { job with phase := phase } stage) :
    Follows rules fails succeeds (Working.enter phase >>= f) job stage := h

end Stateful

end DocSync
