import DocSync.Proofs.Run

/-!
What routines give while nobody else acts.  A routine that only reads leaves the world and its session
as they were, so that it gives one result in one world.
-/

namespace DocSync

theorem Program.run_bind {Request : Type} {Answer : Request → Type} {α β σ : Type}
    {answer : (r : Request) → σ → Answer r × σ} (p : Program Request Answer α)
    (f : α → Program Request Answer β) {s s' : σ} {value : α}
    (h : p.run answer s = (some value, s')) : (p.bind f).run answer s = (f value).run answer s' := by
  induction p generalizing s with
  | done result =>
    obtain ⟨rfl, rfl⟩ : result = value ∧ s = s' := by simpa [run] using h
    rfl
  | spent => simp [run] at h
  | ask r next ih => exact ih _ h

theorem Program.run_request_bind {Request : Type} {Answer : Request → Type} {α σ : Type}
    {answer : (r : Request) → σ → Answer r × σ} {r : Request}
    (f : Answer r → Program Request Answer α) {s s' : σ} {a : Answer r}
    (h : answer r s = (a, s')) : (Program.request r >>= f).run answer s = (f a).run answer s' := by
  change (f (answer r s).1).run answer (answer r s).2 = _
  rw [h]

/-- A wiring whose session takes statements as they are and does not fail. -/
structure Wiring.Plain (wiring : Wiring) : Prop where
  casting : wiring.casting = false
  failing : wiring.failing = false

theorem Wiring.plain_ofSink (sink : String) : (Wiring.ofSink sink).Plain := ⟨rfl, rfl⟩

namespace Attempt

variable {ε ε' α β : Type} {wiring : Wiring} {w : World}

/-- In a session without pending writes the routine gives a result, and leaves everything as it
was. -/
def Gives (wiring : Wiring) (w : World) (a : Attempt ε α) (result : Except ε α) : Prop :=
  ∀ frames : Frames, frames.pending = [] →
    World.runRoutine wiring a.run (w, frames) = (some result, (w, frames))

/-- A routine gives what one run of it returns. -/
theorem Gives.eq_of_run {a : Attempt ε α} {result result' : Except ε α} (h : Gives wiring w a result)
    (hrun : (World.runRoutine wiring a.run (w, [])).1 = some result') : result = result' :=
  Option.some.inj ((congrArg Prod.fst (h [] rfl)).symm.trans hrun)

/-- What a routine gives is determined. -/
theorem Gives.unique {a : Attempt ε α} {result result' : Except ε α} (h : Gives wiring w a result)
    (h' : Gives wiring w a result') : result = result' :=
  h.eq_of_run (congrArg Prod.fst (h' [] rfl))

theorem gives_pure (value : α) : Gives wiring w (pure value : Attempt ε α) (.ok value) :=
  fun _ _ => rfl

theorem Gives.bind {a : Attempt ε β} {f : β → Attempt ε α} {value : β} {result : Except ε α}
    (ha : Gives wiring w a (.ok value)) (hf : Gives wiring w (f value) result) :
    Gives wiring w (a >>= f) result := by
  intro frames hframes
  refine (Program.run_bind a.run _ (ha frames hframes)).trans ?_
  exact hf frames hframes

theorem Gives.mapError {a : Attempt ε' α} {value : α} (f : ε' → ε)
    (ha : Gives wiring w a (.ok value)) : Gives wiring w (a.mapError f) (.ok value) := by
  intro frames hframes
  exact Program.run_bind a.run _ (ha frames hframes)

theorem gives_execute (hwiring : wiring.Plain) {s : Select} {rows : List Row}
    (h : w.database.select s [] = .ok rows) :
    Gives wiring w (Session.execute (.select s)) (.ok rows) := by
  intro frames hframes
  have hanswer : World.answerSession wiring (.execute (.select s)) (w, frames) =
      (.ok rows, (w, frames)) := by
    have hexecute : Frames.execute frames w.database (.select s) =
        .ok ⟨rows, [], frames, w.database⟩ := by
      simp only [Frames.execute, hframes, h]
      rfl
    simp only [World.answerSession, World.strikeIf, hwiring.failing, hwiring.casting,
      Bool.false_eq_true, if_false, World.execute, hexecute]
    rfl
  change ((World.answerSession wiring (.execute (.select s)) (w, frames)).1 |> some,
    (World.answerSession wiring (.execute (.select s)) (w, frames)).2) = _
  rw [hanswer]

/-- A scope in which nothing is written leaves no trace. -/
theorem Gives.transaction (hwiring : wiring.Plain) {body : Attempt Failure α}
    {value : α} (h : Gives wiring w body (.ok value)) :
    Gives wiring w (Session.transaction body) (.ok value) := by
  intro frames hframes
  have hbegin : World.answer wiring (.session .begin) (w, frames) =
      (.ok (), (w, frames ++ [[]])) := by
    simp [World.answer, World.answerSession, World.strikeIf, hwiring.failing, Frames.begin]
  have hcommit : World.answer wiring (.session .commit) (w, frames ++ [[]]) =
      (.ok (), (w, frames)) := by
    have hscope : Frames.commit (frames ++ [[]]) w.database = (.ok ([], w.database), frames) := by
      by_cases hempty : frames = []
      · subst hempty
        rfl
      · simp [Frames.commit, hempty, Frames.mergeIntoLast]
    simp only [World.answer, World.answerSession, World.commitScope, hscope]
    rfl
  have hpending : Frames.pending (frames ++ [[]]) = [] := by
    simpa [Frames.pending] using hframes
  refine (Program.run_request_bind _ hbegin).trans ?_
  refine (Program.run_request_bind _ (r := Call.session .enter) rfl).trans ?_
  refine (Program.run_bind body.run _ (h _ hpending)).trans ?_
  refine (Program.run_request_bind _ hcommit).trans ?_
  exact Program.run_request_bind _ (r := Call.session .leave) (s := (w, frames)) rfl

/-- What succeeds at once is not tried again. -/
theorem Gives.retryFrom {operation : Nat → Attempt ε α} {retryable : ε → Bool} {attempt : Nat}
    {value : α} (h : Gives wiring w (operation attempt) (.ok value)) (retries delay : Nat) :
    Gives wiring w (retryFrom operation retryable attempt retries delay) (.ok value) := by
  cases retries with
  | zero => exact h
  | succ retries =>
    intro frames hframes
    exact Program.run_bind _ _ (h frames hframes)

end Attempt

/-- A lookup gives what the sink finds. -/
theorem Writer.findByMeta_gives {wiring : Wiring} {w : World} (writer : Writer) (table : String)
    (key : List (String × Json)) :
    Attempt.Gives wiring w (writer.findByMeta table key)
      (.ok ((w.sink wiring.sink).findByMeta writer.index table key)) := by
  refine Attempt.Gives.mapError _ (Attempt.Gives.retryFrom ?_ _ _)
  exact fun _ _ => rfl

end DocSync
