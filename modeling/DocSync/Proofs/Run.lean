import DocSync.Job.Cycle
import DocSync.Simulation.Answer

/-!
Runs of routines while others act.  A routine runs against a world in which anyone may commit
transactions, and make calls and writes fail, before each of its requests.  The lemmas take the runs
of a routine apart, layer by layer: programs, attempts, and routines over a state such as a writer or
a job.  What a routine asks bounds what its runs change.
-/

namespace DocSync

namespace Program

variable {Request : Type} {Answer : Request → Type} {α β σ : Type}

/-- The program ends in state `s'` with `value`, where others act before each request. -/
inductive Runs (others : σ → σ → Prop) (answer : (r : Request) → σ → Answer r × σ) :
    Program Request Answer α → σ → α → σ → Prop
  | done (value : α) (s : σ) : Runs others answer (done value) s value s
  | ask {r : Request} {next : Answer r → Program Request Answer α} {s s₁ s' : σ} {value : α} :
      others s s₁ → Runs others answer (next (answer r s₁).1) (answer r s₁).2 value s' →
        Runs others answer (ask r next) s value s'

variable {others : σ → σ → Prop} {answer : (r : Request) → σ → Answer r × σ}
  {s s' : σ} {value : α}

@[simp] theorem runs_done {result : α} :
    Runs others answer (done result) s value s' ↔ value = result ∧ s' = s := by
  constructor
  · rintro ⟨⟩
    exact ⟨rfl, rfl⟩
  · rintro ⟨rfl, rfl⟩
    exact .done _ _

theorem runs_ask {r : Request} {next : Answer r → Program Request Answer α} :
    Runs others answer (ask r next) s value s' ↔
      ∃ s₁, others s s₁ ∧ Runs others answer (next (answer r s₁).1) (answer r s₁).2 value s' := by
  constructor
  · rintro (_ | ⟨hothers, hrest⟩)
    exact ⟨_, hothers, hrest⟩
  · rintro ⟨s₁, hothers, hrest⟩
    exact .ask hothers hrest

theorem not_runs_spent : ¬ Runs others answer (spent : Program Request Answer α) s value s' := by
  rintro ⟨⟩

theorem runs_bind {p : Program Request Answer β} {f : β → Program Request Answer α} :
    Runs others answer (p.bind f) s value s' ↔
      ∃ b s₁, Runs others answer p s b s₁ ∧ Runs others answer (f b) s₁ value s' := by
  induction p generalizing s with
  | done b => simp [bind, and_assoc]
  | spent => simp [bind, not_runs_spent]
  | ask r next ih =>
    simp only [bind, runs_ask, ih]
    constructor
    · rintro ⟨s₁, hothers, b, s₂, hnext, hf⟩
      exact ⟨b, s₂, ⟨s₁, hothers, hnext⟩, hf⟩
    · rintro ⟨b, s₂, ⟨s₁, hothers, hnext⟩, hf⟩
      exact ⟨s₁, hothers, b, s₂, hnext, hf⟩

@[simp] theorem runs_request {r : Request} {a : Answer r} :
    Runs others answer (request r) s a s' ↔
      ∃ s₁, others s s₁ ∧ a = (answer r s₁).1 ∧ s' = (answer r s₁).2 := by
  simp [request, runs_ask]

/-- What a program does alone is one of its runs, when others may do nothing. -/
theorem Runs.of_run (hothers : ∀ s, others s s) {p : Program Request Answer α} {s : σ}
    (h : (p.run answer s).1 = some value) :
    Runs others answer p s value (p.run answer s).2 := by
  induction p generalizing s with
  | done result =>
    obtain rfl : result = value := by simpa [run] using h
    exact .done _ _
  | spent => simp [run] at h
  | ask r next ih => exact .ask (hothers s) (ih _ h)

/-- What others may do more of, may happen more often. -/
theorem Runs.mono {wider : σ → σ → Prop} (hwider : ∀ {s s'}, others s s' → wider s s')
    {p : Program Request Answer α} (h : Runs others answer p s value s') :
    Runs wider answer p s value s' := by
  induction h with
  | done value s => exact .done value s
  | ask ho _ ih => exact .ask (hwider ho) ih

/-- Whatever the answers, a program makes allowed requests only. -/
def Asks (allowed : Request → Prop) : Program Request Answer α → Prop
  | done _ => True
  | ask r next => allowed r ∧ ∀ a, Asks allowed (next a)
  | spent => True

variable {allowed : Request → Prop}

theorem Asks.bind {p : Program Request Answer β} {f : β → Program Request Answer α}
    (hp : p.Asks allowed) (hf : ∀ b, (f b).Asks allowed) : (p.bind f).Asks allowed := by
  induction p with
  | done b => exact hf b
  | spent => trivial
  | ask r next ih => exact ⟨hp.1, fun a => ih a (hp.2 a)⟩

theorem Asks.mono {wider : Request → Prop} (hwider : ∀ r, allowed r → wider r)
    {p : Program Request Answer α} (hp : p.Asks allowed) : p.Asks wider := by
  induction p with
  | done => trivial
  | spent => trivial
  | ask r next ih => exact ⟨hwider r hp.1, fun a => ih a (hp.2 a)⟩

/-- From a state on, whatever others do, a program makes allowed requests only. -/
def Makes (others : σ → σ → Prop) (answer : (r : Request) → σ → Answer r × σ)
    (allowed : Request → Prop) : Program Request Answer α → σ → Prop
  | done _, _ => True
  | ask r next, s => allowed r ∧
      ∀ s₁, others s s₁ → Makes others answer allowed (next (answer r s₁).1) (answer r s₁).2
  | spent, _ => True

theorem Asks.makes {p : Program Request Answer α} (hp : p.Asks allowed) (s : σ) :
    p.Makes others answer allowed s := by
  induction p generalizing s with
  | done => trivial
  | spent => trivial
  | ask r next ih => exact ⟨hp.1, fun s₁ _ => ih _ (hp.2 _) _⟩

theorem Makes.bind {p : Program Request Answer β} {f : β → Program Request Answer α}
    (hp : p.Makes others answer allowed s)
    (hf : ∀ b s₁, Runs others answer p s b s₁ → (f b).Makes others answer allowed s₁) :
    (p.bind f).Makes others answer allowed s := by
  induction p generalizing s with
  | done b => exact hf b s (.done b s)
  | spent => trivial
  | ask r next ih =>
    refine ⟨hp.1, fun s₁ hothers => ih _ (hp.2 s₁ hothers) fun b s₂ hnext => ?_⟩
    exact hf b s₂ (.ask hothers hnext)

/-- Whatever the answers, the value of a program is as it should be. -/
def Yields (ends : α → Prop) : Program Request Answer α → Prop
  | done value => ends value
  | ask _ next => ∀ a, Yields ends (next a)
  | spent => True

theorem Yields.bind {ends : α → Prop} {p : Program Request Answer β}
    {f : β → Program Request Answer α} (hp : p.Yields fun b => (f b).Yields ends) :
    (p.bind f).Yields ends := by
  induction p with
  | done b => exact hp
  | spent => trivial
  | ask r next ih => exact fun a => ih a (hp a)

theorem Yields.mono {ends wider : α → Prop} (hwider : ∀ value, ends value → wider value)
    {p : Program Request Answer α} (hp : p.Yields ends) : p.Yields wider := by
  induction p with
  | done value => exact hwider value hp
  | spent => trivial
  | ask r next ih => exact fun a => ih a (hp a)

theorem yields_of_forall {ends : α → Prop} (h : ∀ value, ends value)
    (p : Program Request Answer α) : p.Yields ends := by
  induction p with
  | done value => exact h value
  | spent => trivial
  | ask r next ih => exact fun a => ih a

theorem Yields.of_runs {ends : α → Prop} {p : Program Request Answer α} (hp : p.Yields ends)
    (h : Runs others answer p s value s') : ends value := by
  induction h with
  | done => exact hp
  | ask _ _ ih => exact ih (hp _)

/-- A relation that others and the answers to allowed requests keep holds between the ends of a run. -/
theorem Runs.keeps {Keeps : σ → σ → Prop} (refl : ∀ s, Keeps s s)
    (trans : ∀ {s t u}, Keeps s t → Keeps t u → Keeps s u)
    (hothers : ∀ {s t}, others s t → Keeps s t)
    (hanswer : ∀ {r} s, allowed r → Keeps s (answer r s).2)
    {p : Program Request Answer α} (hasks : p.Asks allowed)
    (h : Runs others answer p s value s') : Keeps s s' := by
  induction h with
  | done => exact refl _
  | ask ho _ ih => exact trans (hothers ho) (trans (hanswer _ hasks.1) (ih (hasks.2 _)))

end Program

/-- What others do to a world in one step: commit a transaction, or make the next writes of a sink or
the next calls at a point fail. -/
inductive World.Interferes : World → World → Prop
  | commit {w w' : World} (queries : List Query) : w.commit queries = .ok w' → Interferes w w'
  | failSink (w : World) (name : String) (count : Nat) :
      Interferes w (w.onSink name fun sink => ((), { sink with failures := count })).2
  | arm (w : World) (point : FaultPoint) (count : Nat) :
      Interferes w { w with faults := w.faults.arm point count }

/-- What others do in any number of steps. -/
inductive World.Others : World → World → Prop
  | refl (w : World) : Others w w
  | step {w w₁ w' : World} : Interferes w w₁ → Others w₁ w' → Others w w'

/-- Others act on the world, and leave the session at hand alone. -/
def Site.Others (s s' : Site) : Prop := World.Others s.1 s'.1 ∧ s'.2 = s.2

theorem Site.Others.refl (s : Site) : Site.Others s s := ⟨.refl _, rfl⟩

/-- The runs of a routine over a wiring. -/
abbrev Routine.Runs {α : Type} (others : Site → Site → Prop) (wiring : Wiring) (p : Routine α)
    (s : Site) (value : α) (s' : Site) : Prop :=
  Program.Runs others (World.answer wiring) p s value s'

variable {ε ε' α β : Type} {others : Site → Site → Prop} {wiring : Wiring} {s s' : Site}

namespace Attempt

/-- The runs of a routine that may fail. -/
def Runs (others : Site → Site → Prop) (wiring : Wiring) (a : Attempt ε α) (s : Site)
    (result : Except ε α) (s' : Site) : Prop :=
  Routine.Runs others wiring a.run s result s'

variable {result : Except ε α}

@[simp] theorem runs_pure {value : α} :
    Runs others wiring (pure value : Attempt ε α) s result s' ↔ result = .ok value ∧ s' = s :=
  Program.runs_done

@[simp] theorem runs_throw {e : ε} :
    Runs others wiring (throw e : Attempt ε α) s result s' ↔ result = .error e ∧ s' = s :=
  Program.runs_done

theorem runs_bind {a : Attempt ε β} {f : β → Attempt ε α} :
    Runs others wiring (a >>= f) s result s' ↔
      (∃ value s₁, Runs others wiring a s (.ok value) s₁ ∧
        Runs others wiring (f value) s₁ result s') ∨
        ∃ e, Runs others wiring a s (.error e) s' ∧ result = .error e := by
  refine Program.runs_bind.trans ⟨?_, ?_⟩
  · rintro ⟨value | e, s₁, ha, hf⟩
    · obtain ⟨rfl, rfl⟩ := Program.runs_done.mp hf
      exact .inr ⟨_, ha, rfl⟩
    · exact .inl ⟨_, _, ha, hf⟩
  · rintro (⟨value, s₁, ha, hf⟩ | ⟨e, ha, rfl⟩)
    · exact ⟨_, _, ha, hf⟩
    · exact ⟨_, _, ha, Program.runs_done.mpr ⟨rfl, rfl⟩⟩

/-- A run that succeeds, taken apart. -/
theorem runs_bind_ok {a : Attempt ε β} {f : β → Attempt ε α} {value : α} :
    Runs others wiring (a >>= f) s (.ok value) s' ↔
      ∃ b s₁, Runs others wiring a s (.ok b) s₁ ∧ Runs others wiring (f b) s₁ (.ok value) s' := by
  simp [runs_bind]

theorem runs_mapError {f : ε' → ε} {a : Attempt ε' α} :
    Runs others wiring (a.mapError f) s result s' ↔
      ∃ r, Runs others wiring a s r s' ∧ result = r.mapError f := by
  refine Program.runs_bind.trans ⟨?_, ?_⟩
  · rintro ⟨value | e, s₁, ha, hf⟩
    · obtain ⟨rfl, rfl⟩ := Program.runs_done.mp hf
      exact ⟨_, ha, rfl⟩
    · obtain ⟨rfl, rfl⟩ := Program.runs_done.mp hf
      exact ⟨_, ha, rfl⟩
  · rintro ⟨e | value, ha, rfl⟩
    · exact ⟨_, _, ha, Program.runs_done.mpr ⟨rfl, rfl⟩⟩
    · exact ⟨_, _, ha, Program.runs_done.mpr ⟨rfl, rfl⟩⟩

theorem runs_mapError_ok {f : ε' → ε} {a : Attempt ε' α} {value : α} :
    Runs others wiring (a.mapError f) s (.ok value) s' ↔ Runs others wiring a s (.ok value) s' := by
  rw [runs_mapError]
  constructor
  · rintro ⟨e | found, ha, hfound⟩
    · contradiction
    · exact Except.ok.inj hfound ▸ ha
  · exact fun ha => ⟨_, ha, rfl⟩

/-- Whatever the answers, the routine makes allowed calls only. -/
def Asks (allowed : Call → Prop) (a : Attempt ε α) : Prop := Program.Asks allowed a.run

variable {allowed : Call → Prop}

theorem asks_pure (value : α) : (pure value : Attempt ε α).Asks allowed := trivial

theorem Asks.mono {wider : Call → Prop} (hwider : ∀ call, allowed call → wider call)
    {a : Attempt ε α} (ha : a.Asks allowed) : a.Asks wider :=
  Program.Asks.mono hwider ha

theorem Asks.bind {a : Attempt ε β} {f : β → Attempt ε α} (ha : a.Asks allowed)
    (hf : ∀ b, (f b).Asks allowed) : (a >>= f).Asks allowed :=
  Program.Asks.bind ha fun
    | .ok b => hf b
    | .error _ => trivial

theorem asks_mapError {f : ε' → ε} {a : Attempt ε' α} (ha : a.Asks allowed) :
    (a.mapError f).Asks allowed :=
  Program.Asks.bind ha fun
    | .ok _ => trivial
    | .error _ => trivial

end Attempt

/-- Routines over a state of their own, such as a writer or a job. -/
abbrev Stateful (σ α : Type) := ExceptT SyncError (StateT σ Routine) α

namespace Stateful

variable {σ : Type}

/-- The runs of a routine over a state. -/
def Runs (others : Site → Site → Prop) (wiring : Wiring) (a : Stateful σ α) (st : σ) (s : Site)
    (result : Except SyncError α) (st' : σ) (s' : Site) : Prop :=
  Routine.Runs others wiring (a.run.run st) s (result, st') s'

variable {st st' : σ} {result : Except SyncError α}

@[simp] theorem runs_pure {value : α} :
    Runs others wiring (pure value : Stateful σ α) st s result st' s' ↔
      result = .ok value ∧ st' = st ∧ s' = s := by
  refine Program.runs_done.trans ?_
  simp [and_assoc]

theorem runs_bind {a : Stateful σ β} {f : β → Stateful σ α} :
    Runs others wiring (a >>= f) st s result st' s' ↔
      (∃ value st₁ s₁, Runs others wiring a st s (.ok value) st₁ s₁ ∧
        Runs others wiring (f value) st₁ s₁ result st' s') ∨
      ∃ e, Runs others wiring a st s (.error e) st' s' ∧ result = .error e := by
  refine Program.runs_bind.trans ⟨?_, ?_⟩
  · rintro ⟨⟨value | e, st₁⟩, s₁, ha, hf⟩
    · obtain ⟨⟨⟩, rfl⟩ := Program.runs_done.mp hf
      exact .inr ⟨_, ha, rfl⟩
    · exact .inl ⟨_, _, _, ha, hf⟩
  · rintro (⟨value, st₁, s₁, ha, hf⟩ | ⟨e, ha, rfl⟩)
    · exact ⟨_, _, ha, hf⟩
    · exact ⟨_, _, ha, Program.runs_done.mpr ⟨rfl, rfl⟩⟩

/-- A run that succeeds, taken apart. -/
theorem runs_bind_ok {a : Stateful σ β} {f : β → Stateful σ α} {value : α} :
    Runs others wiring (a >>= f) st s (.ok value) st' s' ↔
      ∃ b st₁ s₁, Runs others wiring a st s (.ok b) st₁ s₁ ∧
        Runs others wiring (f b) st₁ s₁ (.ok value) st' s' := by
  simp [runs_bind]

@[simp] theorem runs_get {r : Except SyncError σ} :
    Runs others wiring (get : Stateful σ σ) st s r st' s' ↔ r = .ok st ∧ st' = st ∧ s' = s := by
  refine Program.runs_done.trans ?_
  simp [and_assoc]

@[simp] theorem runs_set {r : Except SyncError PUnit} {st₁ : σ} :
    Runs others wiring (set st₁ : Stateful σ PUnit) st s r st' s' ↔
      r = .ok ⟨⟩ ∧ st' = st₁ ∧ s' = s := by
  refine Program.runs_done.trans ?_
  simp [and_assoc]

/-- What a routine does alone is one of its runs. -/
theorem Runs.of_run (hothers : ∀ s, others s s) {a : Stateful σ α}
    (h : (World.runRoutine wiring (a.run.run st) s).1 = some (result, st')) :
    Runs others wiring a st s result st' (World.runRoutine wiring (a.run.run st) s).2 :=
  Program.Runs.of_run hothers h

/-- A routine that succeeds alone has a run that succeeds. -/
theorem exists_runs_ok (hothers : ∀ s, others s s) {a : Stateful σ α} (check : α → Bool)
    (h : (World.runRoutine wiring (a.run.run st) s).1.any (·.1.toOption.any check) = true) :
    ∃ value st', Runs others wiring a st s (.ok value) st'
      (World.runRoutine wiring (a.run.run st) s).2 ∧ check value = true := by
  cases hran : (World.runRoutine wiring (a.run.run st) s).1 with
  | none => simp [hran] at h
  | some r =>
    obtain ⟨e | value, st'⟩ := r
    · simp [hran, Except.toOption] at h
    · exact ⟨value, st', .of_run hothers hran, by simpa [hran, Except.toOption] using h⟩

@[simp] theorem runs_get_bind {f : σ → Stateful σ α} :
    Runs others wiring (get >>= f) st s result st' s' ↔
      Runs others wiring (f st) st s result st' s' :=
  Iff.rfl

@[simp] theorem runs_set_bind {st₁ : σ} {f : PUnit → Stateful σ α} :
    Runs others wiring (set st₁ >>= f) st s result st' s' ↔
      Runs others wiring (f ⟨⟩) st₁ s result st' s' :=
  Iff.rfl

theorem run_get_bind {f : σ → Stateful σ α} (st : σ) :
    (get >>= f : Stateful σ α).run.run st = (f st).run.run st :=
  rfl

/-- A routine that leaves the state as it is and does not fail. -/
theorem lift_run (p : Routine α) (st : σ) :
    (liftM p : Stateful σ α).run.run st = p.bind fun value => .done (.ok value, st) := by
  change Program.bind (Program.bind p fun value => .done (value, st))
    (fun (value, st) => .done (Except.ok value, st)) = _
  rw [Program.bind_assoc]
  rfl

theorem runs_lift {p : Routine α} :
    Runs others wiring (liftM p : Stateful σ α) st s result st' s' ↔
      ∃ value, Routine.Runs others wiring p s value s' ∧ result = .ok value ∧ st' = st := by
  rw [Runs, lift_run]
  refine Program.runs_bind.trans ⟨?_, ?_⟩
  · rintro ⟨value, s₁, hp, hdone⟩
    obtain ⟨⟨⟩, rfl⟩ := Program.runs_done.mp hdone
    exact ⟨value, hp, rfl, rfl⟩
  · rintro ⟨value, hp, rfl, rfl⟩
    exact ⟨value, _, hp, Program.runs_done.mpr ⟨rfl, rfl⟩⟩

/-- Whatever the answers, the routine makes allowed calls only. -/
def Asks (allowed : Call → Prop) (a : Stateful σ α) : Prop :=
  ∀ st, (a.run.run st).Asks allowed

variable {allowed : Call → Prop}

theorem asks_pure (value : α) : Asks allowed (pure value : Stateful σ α) := fun _ => trivial

theorem asks_get : Asks allowed (get : Stateful σ σ) := fun _ => trivial

theorem asks_set (st : σ) : Asks allowed (set st : Stateful σ PUnit) := fun _ => trivial

theorem asks_lift {p : Routine α} (hp : p.Asks allowed) :
    Asks allowed (liftM p : Stateful σ α) := by
  intro st
  rw [lift_run]
  exact hp.bind fun _ => trivial

theorem Asks.bind {a : Stateful σ β} {f : β → Stateful σ α} (ha : Asks allowed a)
    (hf : ∀ b, Asks allowed (f b)) : Asks allowed (a >>= f) :=
  fun st => (ha st).bind fun
    | (.ok b, st) => hf b st
    | (.error _, _) => trivial

/-- Every run from where an invariant holds ends where it holds, with a value as it should be if it
succeeds. -/
structure Upholds (others : Site → Site → Prop) (wiring : Wiring) (inv : σ → Site → Prop)
    (ends : α → Prop) (a : Stateful σ α) : Prop where
  holds : ∀ {st st' : σ} {s s' : Site} {result : Except SyncError α}, inv st s →
    Runs others wiring a st s result st' s' → inv st' s' ∧ ∀ value, result = .ok value → ends value

section

variable {inv : σ → Site → Prop} {ends : α → Prop}

theorem upholds_pure {value : α} (h : ends value) :
    Upholds others wiring inv ends (pure value : Stateful σ α) := by
  constructor
  intro st st' s s' result hinv hruns
  obtain ⟨rfl, rfl, rfl⟩ := runs_pure.mp hruns
  exact ⟨hinv, fun _ hvalue => Except.ok.inj hvalue ▸ h⟩

theorem Upholds.bind {begins : β → Prop} {a : Stateful σ β} {f : β → Stateful σ α}
    (ha : Upholds others wiring inv begins a)
    (hf : ∀ b, begins b → Upholds others wiring inv ends (f b)) :
    Upholds others wiring inv ends (a >>= f) := by
  constructor
  intro st st' s s' result hinv hruns
  rcases runs_bind.mp hruns with ⟨b, st₁, s₁, hfirst, hrest⟩ | ⟨e, hfirst, rfl⟩
  · obtain ⟨hinv₁, hb⟩ := ha.holds hinv hfirst
    exact (hf b (hb b rfl)).holds hinv₁ hrest
  · exact ⟨(ha.holds hinv hfirst).1, fun _ hvalue => by contradiction⟩

theorem upholds_get_bind {f : σ → Stateful σ α}
    (h : ∀ st s, inv st s → Upholds others wiring inv ends (f st)) :
    Upholds others wiring inv ends (get >>= f) := by
  constructor
  intro st st' s s' result hinv hruns
  exact (h st s hinv).holds hinv (runs_get_bind.mp hruns)

theorem Upholds.mono {wider : α → Prop} {a : Stateful σ α} (ha : Upholds others wiring inv ends a)
    (hwider : ∀ value, ends value → wider value) : Upholds others wiring inv wider a := by
  constructor
  intro st st' s s' result hinv hruns
  obtain ⟨hinv', hends⟩ := ha.holds hinv hruns
  exact ⟨hinv', fun value hvalue => hwider value (hends value hvalue)⟩

end

/-- From a state and a site on, whatever others do, the routine makes allowed calls only. -/
def Makes (others : Site → Site → Prop) (wiring : Wiring) (allowed : Call → Prop)
    (a : Stateful σ α) (st : σ) (s : Site) : Prop :=
  (a.run.run st).Makes others (World.answer wiring) allowed s

theorem makes_get_bind {f : σ → Stateful σ α} :
    Makes others wiring allowed (get >>= f) st s ↔ Makes others wiring allowed (f st) st s :=
  Iff.rfl

theorem Asks.makes {a : Stateful σ α} (ha : Asks allowed a) (st : σ) (s : Site) :
    Makes others wiring allowed a st s :=
  Program.Asks.makes (ha st) s

theorem Makes.bind {a : Stateful σ β} {f : β → Stateful σ α}
    (ha : Makes others wiring allowed a st s)
    (hf : ∀ b st₁ s₁, Runs others wiring a st s (.ok b) st₁ s₁ →
      Makes others wiring allowed (f b) st₁ s₁) : Makes others wiring allowed (a >>= f) st s :=
  Program.Makes.bind ha fun
    | (.ok b, st₁), s₁, hruns => hf b st₁ s₁ hruns
    | (.error _, _), _, _ => trivial

end Stateful

namespace Writing

theorem runs_reading {f : Writer → Attempt SyncError α} {w w' : Writer}
    {result : Except SyncError α} :
    Stateful.Runs others wiring (Writer.reading f) w s result w' s' ↔
      Attempt.Runs others wiring (f w) s result s' ∧ w' = w := by
  refine Program.runs_bind.trans ⟨?_, ?_⟩
  · rintro ⟨r, s₁, ha, hf⟩
    obtain ⟨⟨⟩, rfl⟩ := Program.runs_done.mp hf
    exact ⟨ha, rfl⟩
  · rintro ⟨ha, rfl⟩
    exact ⟨_, _, ha, Program.runs_done.mpr ⟨rfl, rfl⟩⟩

theorem asks_reading {allowed : Call → Prop} {f : Writer → Attempt SyncError α}
    (hf : ∀ w, (f w).Asks allowed) : Stateful.Asks allowed (Writer.reading f) :=
  fun w => Program.Asks.bind (hf w) fun _ => trivial

end Writing

namespace Working

variable {job job' : Job} {result : Except SyncError α}

@[simp] theorem runs_enter {r : Except SyncError Unit} {phase : Phase} :
    Stateful.Runs others wiring (enter phase) job s r job' s' ↔
      r = .ok () ∧ job' = { job with phase := phase } ∧ s' = s := by
  refine Program.runs_done.trans ?_
  simp [and_assoc]

@[simp] theorem runs_enter_bind {phase : Phase} {f : Unit → Working α} :
    Stateful.Runs others wiring (enter phase >>= f) job s result job' s' ↔
      Stateful.Runs others wiring (f ()) { job with phase := phase } s result job' s' :=
  Iff.rfl

theorem runs_attempt {a : Attempt SyncError α} :
    Stateful.Runs others wiring (attempt a) job s result job' s' ↔
      Attempt.Runs others wiring a s result s' ∧ job' = job := by
  refine Program.runs_bind.trans ⟨?_, ?_⟩
  · rintro ⟨r, s₁, ha, hf⟩
    obtain ⟨⟨⟩, rfl⟩ := Program.runs_done.mp hf
    exact ⟨ha, rfl⟩
  · rintro ⟨ha, rfl⟩
    exact ⟨_, _, ha, Program.runs_done.mpr ⟨rfl, rfl⟩⟩

theorem runs_transported {a : Attempt Failure α} :
    Stateful.Runs others wiring (transported a) job s result job' s' ↔
      (∃ r, Attempt.Runs others wiring a s r s' ∧ result = r.mapError .transport) ∧ job' = job := by
  rw [transported, runs_attempt, Attempt.runs_mapError]

theorem runs_transported_ok {a : Attempt Failure α} {value : α} :
    Stateful.Runs others wiring (transported a) job s (.ok value) job' s' ↔
      Attempt.Runs others wiring a s (.ok value) s' ∧ job' = job := by
  rw [transported, runs_attempt, Attempt.runs_mapError_ok]

theorem runs_orFatal {a : Attempt Failure α} :
    Stateful.Runs others wiring (orFatal a) job s result job' s' ↔
      (∃ r, Attempt.Runs others wiring a s r s' ∧ result = r.mapError .fatal) ∧ job' = job := by
  rw [orFatal, runs_attempt, Attempt.runs_mapError]

theorem runs_orFatal_ok {a : Attempt Failure α} {value : α} :
    Stateful.Runs others wiring (orFatal a) job s (.ok value) job' s' ↔
      Attempt.Runs others wiring a s (.ok value) s' ∧ job' = job := by
  rw [orFatal, runs_attempt, Attempt.runs_mapError_ok]

theorem runs_writing {a : Writing α} :
    Stateful.Runs others wiring (writing a) job s result job' s' ↔
      ∃ w', Stateful.Runs others wiring a job.writer s result w' s' ∧
        job' = { job with writer := w' } := by
  refine Program.runs_bind.trans ⟨?_, ?_⟩
  · rintro ⟨⟨r, w'⟩, s₁, ha, hf⟩
    obtain ⟨⟨⟩, rfl⟩ := Program.runs_done.mp hf
    exact ⟨w', ha, rfl⟩
  · rintro ⟨w', ha, rfl⟩
    exact ⟨_, _, ha, Program.runs_done.mpr ⟨rfl, rfl⟩⟩

variable {allowed : Call → Prop}

theorem asks_enter (phase : Phase) : Stateful.Asks allowed (enter phase) := fun _ => trivial

theorem asks_attempt {a : Attempt SyncError α} (ha : a.Asks allowed) :
    Stateful.Asks allowed (attempt a) :=
  fun _ => Program.Asks.bind ha fun _ => trivial

theorem asks_transported {a : Attempt Failure α} (ha : a.Asks allowed) :
    Stateful.Asks allowed (transported a) :=
  asks_attempt (Attempt.asks_mapError ha)

theorem asks_orFatal {a : Attempt Failure α} (ha : a.Asks allowed) :
    Stateful.Asks allowed (orFatal a) :=
  asks_attempt (Attempt.asks_mapError ha)

theorem asks_writing {a : Writing α} (ha : Stateful.Asks allowed a) :
    Stateful.Asks allowed (writing a) :=
  fun job => (ha job.writer).bind fun _ => trivial

end Working

end DocSync
