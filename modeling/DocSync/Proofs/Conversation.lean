import DocSync.Proofs.Dialogue
import DocSync.Server.Session

/-!
Conversations.  Whoever answers a program may answer in more than one way, and what an answer does to
their state is part of the choice.  The lemmas take conversations apart layer by layer, as runs are
taken apart where the answers are determined.
-/

namespace DocSync

namespace Program

variable {Request : Type} {Answer : Request → Type} {α β σ : Type}

/-- The program ends with `value`, and whoever answers in state `s'`, where `replies r s a s'` tells
that in state `s` a request `r` may be answered by `a` and leave `s'`. -/
inductive Talks (replies : (r : Request) → σ → Answer r → σ → Prop) :
    Program Request Answer α → σ → α → σ → Prop
  | done (value : α) (s : σ) : Talks replies (done value) s value s
  | ask {r : Request} {next : Answer r → Program Request Answer α} {a : Answer r} {s s₁ s' : σ}
      {value : α} : replies r s a s₁ → Talks replies (next a) s₁ value s' →
        Talks replies (ask r next) s value s'

variable {replies : (r : Request) → σ → Answer r → σ → Prop} {s s' : σ} {value : α}

@[simp] theorem talks_done {result : α} :
    Talks replies (done result) s value s' ↔ value = result ∧ s' = s := by
  constructor
  · rintro ⟨⟩
    exact ⟨rfl, rfl⟩
  · rintro ⟨rfl, rfl⟩
    exact .done _ _

theorem talks_ask {r : Request} {next : Answer r → Program Request Answer α} :
    Talks replies (ask r next) s value s' ↔
      ∃ a s₁, replies r s a s₁ ∧ Talks replies (next a) s₁ value s' := by
  constructor
  · rintro (_ | ⟨hreply, hrest⟩)
    exact ⟨_, _, hreply, hrest⟩
  · rintro ⟨a, s₁, hreply, hrest⟩
    exact .ask hreply hrest

theorem not_talks_spent : ¬ Talks replies (spent : Program Request Answer α) s value s' := by
  rintro ⟨⟩

@[simp] theorem talks_request {r : Request} {a : Answer r} :
    Talks replies (request r) s a s' ↔ replies r s a s' := by
  simp [request, talks_ask]

theorem talks_bind {p : Program Request Answer β} {f : β → Program Request Answer α} :
    Talks replies (p.bind f) s value s' ↔
      ∃ b s₁, Talks replies p s b s₁ ∧ Talks replies (f b) s₁ value s' := by
  induction p generalizing s with
  | done b => simp [bind, and_assoc]
  | spent => simp [bind, not_talks_spent]
  | ask r next ih =>
    simp only [bind, talks_ask, ih]
    constructor
    · rintro ⟨a, s₁, hreply, b, s₂, hnext, hf⟩
      exact ⟨b, s₂, ⟨a, s₁, hreply, hnext⟩, hf⟩
    · rintro ⟨b, s₂, ⟨a, s₁, hreply, hnext⟩, hf⟩
      exact ⟨a, s₁, hreply, b, s₂, hnext, hf⟩

/-- What the answers to allowed requests keep, a program that makes no others keeps. -/
theorem Talks.keeps {allowed : Request → Prop} {Keeps : σ → σ → Prop} (refl : ∀ s, Keeps s s)
    (trans : ∀ {s₁ s₂ s₃}, Keeps s₁ s₂ → Keeps s₂ s₃ → Keeps s₁ s₃)
    {p : Program Request Answer α} (hasks : p.Asks allowed)
    (hkeeps : ∀ r, allowed r → ∀ s a s', replies r s a s' → Keeps s s')
    (h : Talks replies p s value s') : Keeps s s' := by
  induction h with
  | done => exact refl _
  | ask hreply _ ih => exact trans (hkeeps _ hasks.1 _ _ _ hreply) (ih (hasks.2 _))

/-- A program that may fail, taken apart. -/
theorem talks_run_bind {ε : Type} {p : ExceptT ε (Program Request Answer) β}
    {f : β → ExceptT ε (Program Request Answer) α} {result : Except ε α} :
    Talks replies (p >>= f).run s result s' ↔
      (∃ b s₁, Talks replies p.run s (.ok b) s₁ ∧ Talks replies (f b).run s₁ result s') ∨
      ∃ e, Talks replies p.run s (.error e) s' ∧ result = .error e := by
  refine talks_bind.trans ⟨?_, ?_⟩
  · rintro ⟨e | b, s₁, hp, hf⟩
    · obtain ⟨rfl, rfl⟩ := talks_done.mp hf
      exact .inr ⟨_, hp, rfl⟩
    · exact .inl ⟨_, _, hp, hf⟩
  · rintro (⟨b, s₁, hp, hf⟩ | ⟨e, hp, rfl⟩)
    · exact ⟨_, _, hp, hf⟩
    · exact ⟨_, _, hp, talks_done.mpr ⟨rfl, rfl⟩⟩

theorem talks_run_bind_ok {ε : Type} {p : ExceptT ε (Program Request Answer) β}
    {f : β → ExceptT ε (Program Request Answer) α} :
    Talks replies (p >>= f).run s (.ok value) s' ↔
      ∃ b s₁, Talks replies p.run s (.ok b) s₁ ∧ Talks replies (f b).run s₁ (.ok value) s' := by
  simp only [talks_run_bind, reduceCtorEq, and_false, exists_false, or_false]

/-- What is left of a program once its first requests were answered, one after another. -/
inductive After (p : Program Request Answer α) :
    List ((r : Request) × Answer r) → Program Request Answer α → Prop
  | nothing : After p [] p
  | answered {trace : List ((r : Request) × Answer r)} {r : Request}
      {next : Answer r → Program Request Answer α} (a : Answer r) :
      After p trace (ask r next) → After p (trace ++ [⟨r, a⟩]) (next a)

end Program

/-- The stage after some answers. -/
def Rules.after {Request : Type} {Answer : Request → Type} {Stage : Type}
    (rules : Rules Request Answer Stage) (stage : Stage) (trace : List ((r : Request) × Answer r)) :
    Stage :=
  trace.foldl (fun stage turn => rules.next stage turn.1 turn.2) stage

/-- A program that follows rules keeps following them from the stage it has come to. -/
theorem Program.Follows.after {Request : Type} {Answer : Request → Type} {Stage α : Type}
    {rules : Rules Request Answer Stage} {ends : α → Stage → Prop}
    {p q : Program Request Answer α} {stage : Stage} {trace : List ((r : Request) × Answer r)}
    (hp : p.Follows rules ends stage) (h : p.After trace q) :
    q.Follows rules ends (rules.after stage trace) := by
  induction h with
  | nothing => exact hp
  | answered a _ ih =>
    rw [Rules.after, List.foldl_append]
    exact ih.2 a

/-- Programs over a state of their own that may fail, such as routines over a writer or work in a session. -/
abbrev Threaded (ε σ : Type) (Request : Type) (Answer : Request → Type) (α : Type) :=
  ExceptT ε (StateT σ (Program Request Answer)) α

namespace Threaded

variable {Request : Type} {Answer : Request → Type} {ε τ σ α β : Type}
  {replies : (r : Request) → τ → Answer r → τ → Prop} {st st' : σ} {s s' : τ} {result : Except ε α}

/-- The conversations of a program over a state. -/
def Talks (replies : (r : Request) → τ → Answer r → τ → Prop) (a : Threaded ε σ Request Answer α)
    (st : σ) (s : τ) (result : Except ε α) (st' : σ) (s' : τ) : Prop :=
  Program.Talks replies (a.run.run st) s (result, st') s'

@[simp] theorem talks_pure {value : α} :
    Talks replies (pure value : Threaded ε σ Request Answer α) st s result st' s' ↔
      result = .ok value ∧ st' = st ∧ s' = s := by
  refine Program.talks_done.trans ?_
  simp [and_assoc]

theorem talks_bind {a : Threaded ε σ Request Answer β} {f : β → Threaded ε σ Request Answer α} :
    Talks replies (a >>= f) st s result st' s' ↔
      (∃ value st₁ s₁, Talks replies a st s (.ok value) st₁ s₁ ∧
        Talks replies (f value) st₁ s₁ result st' s') ∨
      ∃ e, Talks replies a st s (.error e) st' s' ∧ result = .error e := by
  refine Program.talks_bind.trans ⟨?_, ?_⟩
  · rintro ⟨⟨value | e, st₁⟩, s₁, ha, hf⟩
    · obtain ⟨⟨⟩, rfl⟩ := Program.talks_done.mp hf
      exact .inr ⟨_, ha, rfl⟩
    · exact .inl ⟨_, _, _, ha, hf⟩
  · rintro (⟨value, st₁, s₁, ha, hf⟩ | ⟨e, ha, rfl⟩)
    · exact ⟨_, _, ha, hf⟩
    · exact ⟨_, _, ha, Program.talks_done.mpr ⟨rfl, rfl⟩⟩

theorem talks_bind_ok {a : Threaded ε σ Request Answer β} {f : β → Threaded ε σ Request Answer α}
    {value : α} :
    Talks replies (a >>= f) st s (.ok value) st' s' ↔
      ∃ b st₁ s₁, Talks replies a st s (.ok b) st₁ s₁ ∧ Talks replies (f b) st₁ s₁ (.ok value) st' s' := by
  simp [talks_bind]

@[simp] theorem talks_get_bind {f : σ → Threaded ε σ Request Answer α} :
    Talks replies (get >>= f) st s result st' s' ↔ Talks replies (f st) st s result st' s' :=
  Iff.rfl

@[simp] theorem talks_set_bind {st₁ : σ} {f : PUnit → Threaded ε σ Request Answer α} :
    Talks replies (set st₁ >>= f) st s result st' s' ↔ Talks replies (f ⟨⟩) st₁ s result st' s' :=
  Iff.rfl

@[simp] theorem talks_modify_bind {g : σ → σ} {f : PUnit → Threaded ε σ Request Answer α} :
    Talks replies (modify g >>= f) st s result st' s' ↔
      Talks replies (f ⟨⟩) (g st) s result st' s' :=
  Iff.rfl

theorem talks_lift {p : Program Request Answer α} :
    Talks replies (liftM p : Threaded ε σ Request Answer α) st s result st' s' ↔
      ∃ value, p.Talks replies s value s' ∧ result = .ok value ∧ st' = st := by
  have hrun : (liftM p : Threaded ε σ Request Answer α).run.run st =
      p.bind fun value => .done (.ok value, st) := by
    change Program.bind (Program.bind p fun value => .done (value, st))
      (fun r => .done (Except.ok r.1, r.2)) = _
    rw [Program.bind_assoc]
    rfl
  rw [Talks, hrun]
  refine Program.talks_bind.trans ⟨?_, ?_⟩
  · rintro ⟨value, s₁, hp, hdone⟩
    obtain ⟨⟨⟩, rfl⟩ := Program.talks_done.mp hdone
    exact ⟨value, hp, rfl, rfl⟩
  · rintro ⟨value, hp, rfl, rfl⟩
    exact ⟨value, _, hp, Program.talks_done.mpr ⟨rfl, rfl⟩⟩

end Threaded

/-! ### Sessions and jobs -/

/-- A conversation of a session that leaves it as it is. -/
theorem ServerSession.talks_talk {τ α : Type}
    {replies : (call : ServerCall) → τ → call.Answer → τ → Prop} {dialogue : Dialogue α}
    {st st' : ServerSession} {s s' : τ} {result : Except Failure α} :
    Threaded.Talks replies (talk dialogue) st s result st' s' ↔
      dialogue.run.Talks replies s result s' ∧ st' = st := by
  refine Program.talks_bind.trans ⟨?_, ?_⟩
  · rintro ⟨r, s₁, hdialogue, hdone⟩
    obtain ⟨hresult, rfl⟩ := Program.talks_done.mp hdone
    obtain ⟨rfl, hsame⟩ := Prod.mk.inj hresult
    exact ⟨hdialogue, hsame⟩
  · rintro ⟨hdialogue, rfl⟩
    exact ⟨_, _, hdialogue, Program.talks_done.mpr ⟨rfl, rfl⟩⟩

section

variable {τ α : Type} {replies : (call : Call) → τ → call.Answer → τ → Prop} {job job' : Job}
  {s s' : τ} {value : α}

theorem Attempt.talks_mapError_ok {ε ε' : Type} {f : ε → ε'} {a : Attempt ε α} :
    (a.mapError f).run.Talks replies s (.ok value) s' ↔ a.run.Talks replies s (.ok value) s' := by
  refine Program.talks_bind.trans ⟨?_, fun ha => ⟨_, _, ha, Program.talks_done.mpr ⟨rfl, rfl⟩⟩⟩
  rintro ⟨e | found, s₁, ha, hf⟩
  · obtain ⟨hresult, -⟩ := Program.talks_done.mp hf
    contradiction
  · obtain ⟨hresult, rfl⟩ := Program.talks_done.mp hf
    exact Except.ok.inj hresult ▸ ha

namespace Working

theorem talks_attempt {a : Attempt SyncError α} {result : Except SyncError α} :
    Threaded.Talks replies (attempt a) job s result job' s' ↔
      a.run.Talks replies s result s' ∧ job' = job := by
  refine Program.talks_bind.trans ⟨?_, ?_⟩
  · rintro ⟨r, s₁, ha, hf⟩
    obtain ⟨⟨⟩, rfl⟩ := Program.talks_done.mp hf
    exact ⟨ha, rfl⟩
  · rintro ⟨ha, rfl⟩
    exact ⟨_, _, ha, Program.talks_done.mpr ⟨rfl, rfl⟩⟩

theorem talks_transported_ok {a : Attempt Failure α} :
    Threaded.Talks replies (transported a) job s (.ok value) job' s' ↔
      a.run.Talks replies s (.ok value) s' ∧ job' = job := by
  rw [transported, talks_attempt, Attempt.talks_mapError_ok]

theorem talks_orFatal_ok {a : Attempt Failure α} :
    Threaded.Talks replies (orFatal a) job s (.ok value) job' s' ↔
      a.run.Talks replies s (.ok value) s' ∧ job' = job := by
  rw [orFatal, talks_attempt, Attempt.talks_mapError_ok]

theorem talks_enter_bind {phase : Phase} {f : Unit → Working α} {result : Except SyncError α} :
    Threaded.Talks replies (enter phase >>= f) job s result job' s' ↔
      Threaded.Talks replies (f ()) { job with phase := phase } s result job' s' :=
  Iff.rfl

end Working

end

end DocSync
