/-!
Computations that may fail, taken apart where they succeed.
-/

namespace DocSync.Except

variable {ε α β : Type} {x : Except ε α}

/-- A bind that succeeds, taken apart. -/
theorem bind_eq_ok {f : α → Except ε β} {b : β} (h : (x >>= f) = .ok b) : ∃ a, x = .ok a ∧ f a = .ok b := by
  cases x with
  | error e => contradiction
  | ok a => exact ⟨a, rfl, h⟩

theorem map_eq_ok {f : α → β} {b : β} (h : x.map f = .ok b) : ∃ a, x = .ok a ∧ f a = b := by
  cases x with
  | error e => contradiction
  | ok a => exact ⟨a, rfl, by injection h⟩

end DocSync.Except
