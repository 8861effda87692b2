import DocSync.Proofs.Decimal.Rounding

/-!
Rounding keeps the order: of two integers the greater one does not round to the lesser binary64 number,
though both may round to the same.
-/

namespace DocSync

section

variable {a b den : Nat}

/-- A quotient is rounded to one of its two neighbours. -/
theorem div_le_roundHalfEven (num den : Nat) : num / den ≤ roundHalfEven num den := by
  unfold roundHalfEven
  dsimp only
  split <;> omega

theorem roundHalfEven_le_succ (num den : Nat) : roundHalfEven num den ≤ num / den + 1 := by
  unfold roundHalfEven
  dsimp only
  split <;> omega

theorem roundHalfEven_mono (den : Nat) (h : a ≤ b) : roundHalfEven a den ≤ roundHalfEven b den := by
  rcases (Nat.div_le_div_right (c := den) h).lt_or_eq with hlt | heq
  · calc roundHalfEven a den ≤ a / den + 1 := roundHalfEven_le_succ a den
      _ ≤ b / den := hlt
      _ ≤ roundHalfEven b den := div_le_roundHalfEven b den
  · -- Between the same neighbours the greater remainder is not rounded down alone.
    have hrest : a % den ≤ b % den := by
      have ha := Nat.div_add_mod a den
      have hb := Nat.div_add_mod b den
      rw [heq] at ha
      omega
    unfold roundHalfEven
    simp only [heq]
    split
    · split <;> omega
    · rename_i hup
      simp only [Bool.or_eq_true, decide_eq_true_eq, Bool.and_eq_true, beq_iff_eq, not_or] at hup
      rw [if_neg (by simp only [Bool.or_eq_true, decide_eq_true_eq, Bool.and_eq_true, beq_iff_eq]; omega)]

/-- A multiple of the step is rounded to itself. -/
theorem roundHalfEven_mul_of_dvd (hden : 0 < den) (h : den ∣ a) : roundHalfEven a den * den = a := by
  have hrest : a % den = 0 := Nat.mod_eq_zero_of_dvd h
  rw [roundHalfEven, hrest, if_pos (by simp [hden]), Nat.div_mul_cancel h]

end

namespace Double

variable {m n : Nat}

theorem roundUnits_one (n : Nat) : roundUnits n 1 = roundHalfEven n (spacing n) * spacing n := by
  simp [roundUnits]

/-- Rounding does not reach beyond the next power of two. -/
theorem roundUnits_le_two_pow (n : Nat) : roundUnits n 1 ≤ 2 ^ (n.log2 + 1) := by
  have hdvd : spacing n ∣ 2 ^ (n.log2 + 1) := by
    rw [spacing_eq]
    exact Nat.pow_dvd_pow 2 (by omega)
  rw [roundUnits_one, ← roundHalfEven_mul_of_dvd (spacing_pos n) hdvd]
  exact Nat.mul_le_mul_right _ (roundHalfEven_mono _ Nat.lt_log2_self.le)

theorem two_pow_le_roundUnits (h : n ≠ 0) : 2 ^ n.log2 ≤ roundUnits n 1 := by
  have hdvd : spacing n ∣ 2 ^ n.log2 := by
    rw [spacing_eq]
    exact Nat.pow_dvd_pow 2 (by omega)
  rw [roundUnits_one, ← roundHalfEven_mul_of_dvd (spacing_pos n) hdvd]
  exact Nat.mul_le_mul_right _ (roundHalfEven_mono _ (Nat.log2_self_le h))

theorem roundUnits_mono (h : m ≤ n) : roundUnits m 1 ≤ roundUnits n 1 := by
  rcases Nat.eq_zero_or_pos m with rfl | hm
  · rw [roundUnits_one, roundHalfEven_mul_of_dvd (spacing_pos 0) (Nat.dvd_zero _)]
    exact Nat.zero_le _
  have hlog : m.log2 ≤ n.log2 := (Nat.le_log2 (by omega)).mpr ((Nat.log2_self_le (by omega)).trans h)
  rcases hlog.lt_or_eq with hlt | heq
  · -- A power of two lies between numbers of different binades.
    calc roundUnits m 1 ≤ 2 ^ (m.log2 + 1) := roundUnits_le_two_pow m
      _ ≤ 2 ^ n.log2 := Nat.pow_le_pow_right (by omega) hlt
      _ ≤ roundUnits n 1 := two_pow_le_roundUnits (by omega)
  · have hspacing : spacing m = spacing n := by rw [spacing_eq, spacing_eq, heq]
    rw [roundUnits_one, roundUnits_one, hspacing]
    exact Nat.mul_le_mul_right _ (roundHalfEven_mono _ h)

/-- Integers round in their order. -/
theorem signedUnits_ofInt_mono {i j : Int} (h : i ≤ j) :
    (ofInt i).signedUnits ≤ (ofInt j).signedUnits := by
  have hmono {i j : Int} (h : i.natAbs ≤ j.natAbs) :
      roundUnits (i.natAbs * one) 1 ≤ roundUnits (j.natAbs * one) 1 :=
    roundUnits_mono (Nat.mul_le_mul_right _ h)
  rcases lt_or_ge i 0 with hi | hi <;> rcases lt_or_ge j 0 with hj | hj
  · have := hmono (i := j) (j := i) (by omega)
    simp only [signedUnits, ofInt, decide_eq_true hi, decide_eq_true hj, if_true]
    omega
  · simp only [signedUnits, ofInt, decide_eq_true hi, decide_eq_false (Int.not_lt.mpr hj), if_true,
      Bool.false_eq_true, if_false]
    omega
  · omega
  · have := hmono (i := i) (j := j) (by omega)
    simp only [signedUnits, ofInt, decide_eq_false (Int.not_lt.mpr hi), decide_eq_false (Int.not_lt.mpr hj),
      Bool.false_eq_true, if_false]
    omega

end Double

end DocSync
