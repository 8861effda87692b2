import DocSync.Proofs.Conversation
import DocSync.Service.Retry

/-!
How often a retried operation is called.  Calls go on while they fail with errors worth retrying and retries are
left.  Main statement: the conversations of a retried operation are the calls up to the last one that the outcomes
ask for, with a sleep after each call but that one.
-/

namespace DocSync

variable {ε α : Type} {retryable : ε → Bool} {retries n : Nat} {outcomes : Nat → Except ε α}

/-! ### The last call -/

/-- An outcome after which nothing is tried again: a success, or an error that is not worth it. -/
def Final (retryable : ε → Bool) : Except ε α → Prop
  | .ok _ => True
  | .error e => retryable e = false

/-- The number of calls that a sequence of outcomes asks for: the position of the first final one, counted from one,
where that is at most one more than the retries, and one more than the retries otherwise. -/
def CallCount (retryable : ε → Bool) (retries : Nat) (outcomes : Nat → Except ε α) (n : Nat) : Prop :=
  (∃ i ≤ retries, n = i + 1 ∧ Final retryable (outcomes i) ∧ ∀ j < i, ¬ Final retryable (outcomes j)) ∨
  (n = retries + 1 ∧ ∀ i ≤ retries, ¬ Final retryable (outcomes i))

theorem not_final_iff {outcome : Except ε α} :
    ¬ Final retryable outcome ↔ ∃ e, outcome = .error e ∧ retryable e = true := by
  cases outcome <;> simp [Final]

theorem CallCount.pos (h : CallCount retryable retries outcomes n) : 0 < n := by
  obtain ⟨i, -, rfl, -⟩ | ⟨rfl, -⟩ := h <;> omega

/-- Every call but the last one fails with an error worth retrying. -/
theorem CallCount.not_final (h : CallCount retryable retries outcomes n) {i : Nat} (hi : i + 1 < n) :
    ¬ Final retryable (outcomes i) := by
  obtain ⟨last, -, rfl, -, hbefore⟩ | ⟨rfl, hbefore⟩ := h
  · exact hbefore i (by omega)
  · exact hbefore i (by omega)

/-- The last call is final, unless no retries are left. -/
theorem CallCount.final_or_eq (h : CallCount retryable retries outcomes n) :
    Final retryable (outcomes (n - 1)) ∨ n = retries + 1 := by
  obtain ⟨last, -, rfl, hfinal, -⟩ | ⟨rfl, -⟩ := h
  · exact .inl hfinal
  · exact .inr rfl

theorem callCount_of_final (h : Final retryable (outcomes 0)) :
    CallCount retryable retries outcomes n ↔ n = 1 := by
  constructor
  · rintro (⟨i, -, rfl, -, hbefore⟩ | ⟨-, hbefore⟩)
    · cases i with
      | zero => rfl
      | succ i => exact absurd h (hbefore 0 (by omega))
    · exact absurd h (hbefore 0 (by omega))
  · rintro rfl
    exact .inl ⟨0, by omega, rfl, h, fun j hj => absurd hj (by omega)⟩

theorem callCount_zero : CallCount retryable 0 outcomes n ↔ n = 1 := by
  by_cases h : Final retryable (outcomes 0)
  · exact callCount_of_final h
  · constructor
    · rintro (⟨i, hi, rfl, -⟩ | ⟨rfl, -⟩) <;> omega
    · rintro rfl
      refine .inr ⟨rfl, fun i hi => ?_⟩
      obtain rfl : i = 0 := by omega
      exact h

/-- After a call that is worth retrying, the later outcomes ask for the later calls. -/
theorem callCount_succ (h : ¬ Final retryable (outcomes 0)) :
    CallCount retryable (retries + 1) outcomes (n + 1) ↔ CallCount retryable retries (fun i => outcomes (i + 1)) n := by
  constructor
  · rintro (⟨i, hi, hn, hfinal, hbefore⟩ | ⟨hn, hbefore⟩)
    · cases i with
      | zero => exact absurd hfinal h
      | succ i => exact .inl ⟨i, by omega, by omega, hfinal, fun j hj => hbefore (j + 1) (by omega)⟩
    · exact .inr ⟨by omega, fun i hi => hbefore (i + 1) (by omega)⟩
  · rintro (⟨i, hi, rfl, hfinal, hbefore⟩ | ⟨rfl, hbefore⟩)
    · refine .inl ⟨i + 1, by omega, rfl, hfinal, fun j hj => ?_⟩
      cases j with
      | zero => exact h
      | succ j => exact hbefore j (by omega)
    · refine .inr ⟨rfl, fun i hi => ?_⟩
      cases i with
      | zero => exact h
      | succ i => exact hbefore i (by omega)

theorem exists_callCount (retryable : ε → Bool) (retries : Nat) (outcomes : Nat → Except ε α) :
    ∃ n, CallCount retryable retries outcomes n := by
  induction retries generalizing outcomes with
  | zero => exact ⟨1, callCount_zero.mpr rfl⟩
  | succ retries ih =>
    by_cases h : Final retryable (outcomes 0)
    · exact ⟨1, (callCount_of_final h).mpr rfl⟩
    · obtain ⟨n, hn⟩ := ih fun i => outcomes (i + 1)
      exact ⟨n + 1, (callCount_succ h).mpr hn⟩

/-! ### The calls -/

section

variable {σ : Type} {replies : (call : Call) → σ → call.Answer → σ → Prop} {operation : Nat → Attempt ε α}
  {attempt delay : Nat} {called : List (Except ε α)} {result : Except ε α} {s s' : σ}

/-- From the call numbered `attempt` on, the operation is called once for each of the outcomes, with a sleep after
every call but the last. -/
inductive Called (replies : (call : Call) → σ → call.Answer → σ → Prop) (operation : Nat → Attempt ε α) :
    Nat → Nat → List (Except ε α) → σ → σ → Prop
  | last {attempt delay : Nat} {outcome : Except ε α} {s s' : σ} :
      (operation attempt).run.Talks replies s outcome s' → Called replies operation attempt delay [outcome] s s'
  | again {attempt delay : Nat} {outcome : Except ε α} {rest : List (Except ε α)} {s s₁ s₂ s' : σ} :
      (operation attempt).run.Talks replies s outcome s₁ → replies (.clock (.sleep delay)) s₁ () s₂ →
        Called replies operation (attempt + 1) (2 * delay) rest s₂ s' →
        Called replies operation attempt delay (outcome :: rest) s s'

theorem map_range_succ (outcomes : Nat → Except ε α) (n : Nat) :
    (List.range (n + 1)).map outcomes = outcomes 0 :: (List.range n).map fun i => outcomes (i + 1) := by
  rw [List.range_succ_eq_map, List.map_cons, List.map_map]
  rfl

theorem called_singleton {outcome : Except ε α} : Called replies operation attempt delay [outcome] s s' ↔
    (operation attempt).run.Talks replies s outcome s' := by
  constructor
  · rintro (h | ⟨-, -, ⟨⟩⟩)
    exact h
  · exact .last

theorem called_cons {outcome next : Except ε α} {rest : List (Except ε α)} :
    Called replies operation attempt delay (outcome :: next :: rest) s s' ↔
      ∃ s₁ s₂, (operation attempt).run.Talks replies s outcome s₁ ∧ replies (.clock (.sleep delay)) s₁ () s₂ ∧
        Called replies operation (attempt + 1) (2 * delay) (next :: rest) s₂ s' := by
  constructor
  · rintro (_ | ⟨hcall, hsleep, hrest⟩)
    exact ⟨_, _, hcall, hsleep, hrest⟩
  · rintro ⟨s₁, s₂, hcall, hsleep, hrest⟩
    exact .again hcall hsleep hrest

/-- One call, and what it leads to. -/
theorem retryFrom_succ_talks :
    (retryFrom operation retryable attempt (retries + 1) delay).run.Talks replies s result s' ↔
      ∃ outcome s₁, (operation attempt).run.Talks replies s outcome s₁ ∧
        ((Final retryable outcome ∧ result = outcome ∧ s' = s₁) ∨
          (¬ Final retryable outcome ∧ ∃ s₂, replies (.clock (.sleep delay)) s₁ () s₂ ∧
            (retryFrom operation retryable (attempt + 1) retries (2 * delay)).run.Talks replies s₂ result s')) := by
  refine Program.talks_bind.trans (exists_congr fun outcome => exists_congr fun s₁ => and_congr_right fun _ => ?_)
  cases outcome with
  | ok value =>
    refine Program.talks_done.trans ⟨fun h => .inl ⟨trivial, h⟩, ?_⟩
    rintro (⟨-, h⟩ | ⟨hfinal, -⟩)
    · exact h
    · exact absurd trivial hfinal
  | error e =>
    by_cases hretry : retryable e = true
    · have hagain : ¬ Final retryable (.error e : Except ε α) := not_final_iff.mpr ⟨e, rfl, hretry⟩
      simp only [hretry, if_true, hagain, not_false_iff, false_and, true_and, false_or]
      refine Program.talks_bind.trans ⟨?_, ?_⟩
      · rintro ⟨_, s₂, hsleep, hrest⟩
        exact ⟨s₂, Program.talks_request.mp hsleep, hrest⟩
      · rintro ⟨s₂, hsleep, hrest⟩
        exact ⟨(), s₂, Program.talks_request.mpr hsleep, hrest⟩
    · have hfinal : Final retryable (.error e : Except ε α) := by simpa [Final] using hretry
      simp only [hretry, hfinal, not_true, false_and, true_and, or_false]
      exact Program.talks_done

/-- The conversations of a retried operation are its calls up to the last one. -/
theorem retryFrom_talks_iff :
    (retryFrom operation retryable attempt retries delay).run.Talks replies s result s' ↔
      ∃ outcomes n, CallCount retryable retries outcomes n ∧
        Called replies operation attempt delay ((List.range n).map outcomes) s s' ∧ result = outcomes (n - 1) := by
  induction retries generalizing attempt delay s with
  | zero =>
    constructor
    · intro h
      exact ⟨fun _ => result, 1, callCount_zero.mpr rfl, called_singleton.mpr h, rfl⟩
    · rintro ⟨outcomes, n, hcount, hcalled, rfl⟩
      obtain rfl := callCount_zero.mp hcount
      have hcall := called_singleton.mp hcalled
      exact hcall
  | succ retries ih =>
    rw [retryFrom_succ_talks]
    constructor
    · rintro ⟨outcome, s₁, hcall, ⟨hfinal, rfl, rfl⟩ | ⟨hagain, s₂, hsleep, hrest⟩⟩
      · exact ⟨fun _ => result, 1, (callCount_of_final hfinal).mpr rfl, called_singleton.mpr hcall, rfl⟩
      · obtain ⟨outcomes, n, hcount, hcalled, rfl⟩ := ih.mp hrest
        -- The outcome of this call stands before those of the later ones.
        let all : Nat → Except ε α := fun i => i.casesOn outcome outcomes
        refine ⟨all, n + 1, (callCount_succ hagain).mpr hcount, ?_, ?_⟩
        · rw [map_range_succ]
          exact .again hcall hsleep hcalled
        · obtain ⟨m, rfl⟩ : ∃ m, n = m + 1 := Nat.exists_eq_add_one.mpr hcount.pos
          rfl
    · rintro ⟨outcomes, n, hcount, hcalled, rfl⟩
      by_cases hfinal : Final retryable (outcomes 0)
      · obtain rfl := (callCount_of_final hfinal).mp hcount
        exact ⟨_, _, called_singleton.mp hcalled, .inl ⟨hfinal, rfl, rfl⟩⟩
      · obtain ⟨m, rfl⟩ : ∃ m, n = m + 1 := Nat.exists_eq_add_one.mpr hcount.pos
        have hlater := (callCount_succ hfinal).mp hcount
        obtain ⟨k, rfl⟩ : ∃ k, m = k + 1 := Nat.exists_eq_add_one.mpr hlater.pos
        rw [map_range_succ, map_range_succ] at hcalled
        obtain ⟨s₁, s₂, hcall, hsleep, hrest⟩ := called_cons.mp hcalled
        refine ⟨outcomes 0, s₁, hcall, .inr ⟨hfinal, s₂, hsleep, ih.mpr ⟨_, k + 1, hlater, ?_, rfl⟩⟩⟩
        rwa [map_range_succ]

/-- Calls that may have certain outcomes may have them one after another. -/
theorem exists_called {outcomes : Nat → Except ε α} (hn : 0 < n)
    (hcalls : ∀ i s, ∃ s', (operation (attempt + i)).run.Talks replies s (outcomes i) s')
    (hsleeps : ∀ milliseconds s, ∃ s', replies (.clock (.sleep milliseconds)) s () s') (delay : Nat) (s : σ) :
    ∃ s', Called replies operation attempt delay ((List.range n).map outcomes) s s' := by
  induction n generalizing attempt delay outcomes s with
  | zero => contradiction
  | succ n ih =>
    obtain ⟨s₁, hcall⟩ := hcalls 0 s
    cases n with
    | zero => exact ⟨s₁, .last hcall⟩
    | succ n =>
      obtain ⟨s₂, hsleep⟩ := hsleeps delay s₁
      have hlater : ∀ i s, ∃ s', (operation (attempt + 1 + i)).run.Talks replies s (outcomes (i + 1)) s' :=
        fun i s => by simpa only [Nat.add_assoc, Nat.add_comm 1 i] using hcalls (i + 1) s
      obtain ⟨s', hrest⟩ := ih (Nat.succ_pos n) hlater (2 * delay) s₂
      refine ⟨s', ?_⟩
      rw [map_range_succ]
      exact .again hcall hsleep hrest

end

end DocSync
