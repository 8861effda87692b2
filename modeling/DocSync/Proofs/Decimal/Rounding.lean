import DocSync.Decimal.Shortest
import Mathlib.Algebra.Order.Field.Rat
import Mathlib.Tactic.ByContra
import Mathlib.Tactic.Linarith
import Mathlib.Tactic.FieldSimp
import Mathlib.Tactic.Positivity
import Mathlib.Tactic.Ring
import Mathlib.Tactic.NormNum

/-!
Shortest decimals.  The reals that round to one binary64 number do not round to another, and 17 digits
are always enough to name a real that rounds to a given number.  So the digits that are printed
determine the number.
-/

namespace DocSync.Double

/-- The count of units of a binary64 number: a significand of at most 53 bits. -/
def IsUnits (units : Nat) : Prop := units % spacing units = 0

/-- How far below a number the reals that round to it reach, in quarters of a unit. -/
def reachBelow (units : Nat) : Nat :=
  if units == 2 ^ units.log2 && spacing units > 1 then spacing units else 2 * spacing units

theorem one_eq : one = 2 ^ unitExponent := Nat.one_shiftLeft _

theorem one_pos : 0 < one := one_eq ▸ Nat.two_pow_pos _

theorem spacing_eq (units : Nat) : spacing units = 2 ^ (units.log2 - 52) := Nat.one_shiftLeft _

theorem spacing_pos (units : Nat) : 0 < spacing units := spacing_eq units ▸ Nat.two_pow_pos _

theorem spacing_le {units : Nat} (h : units ≠ 0) : spacing units ≤ units :=
  calc spacing units = 2 ^ (units.log2 - 52) := spacing_eq units
    _ ≤ 2 ^ units.log2 := Nat.pow_le_pow_right (by omega) (by omega)
    _ ≤ units := Nat.log2_self_le h

theorem reachBelow_le (units : Nat) : reachBelow units ≤ 2 * spacing units := by
  unfold reachBelow
  split <;> omega

/-- The reals, as counts of units, that round to a number. -/
def Rounds (units : Nat) (x : ℚ) : Prop :=
  if units / spacing units % 2 = 0 then
    (4 * units - reachBelow units : ℚ) ≤ 4 * x ∧ 4 * x ≤ 4 * units + 2 * spacing units
  else (4 * units - reachBelow units : ℚ) < 4 * x ∧ 4 * x < 4 * units + 2 * spacing units

theorem Rounds.bounds {units : Nat} {x : ℚ} (h : Rounds units x) :
    (4 * units - reachBelow units : ℚ) ≤ 4 * x ∧ 4 * x ≤ 4 * units + 2 * spacing units := by
  unfold Rounds at h
  split at h
  · exact h
  · exact ⟨h.1.le, h.2.le⟩

theorem Rounds.of_bounds {units : Nat} {x : ℚ}
    (h : (4 * units - reachBelow units : ℚ) < 4 * x ∧ 4 * x < 4 * units + 2 * spacing units) :
    Rounds units x := by
  unfold Rounds
  split
  · exact ⟨h.1.le, h.2.le⟩
  · exact h

/-- Zero rounds to no other number. -/
theorem Rounds.ne_zero {units : Nat} {x : ℚ} (h : Rounds units x) (hunits : units ≠ 0) : x ≠ 0 := by
  rintro rfl
  have hle : reachBelow units ≤ 2 * units := by
    have := reachBelow_le units
    have := spacing_le hunits
    omega
  have hle' : (reachBelow units : ℚ) ≤ 2 * units := by exact_mod_cast hle
  have hpos : (0 : ℚ) < units := by exact_mod_cast Nat.pos_of_ne_zero hunits
  linarith [h.bounds.1]

theorem roundsTo_iff {units num den : Nat} (hunits : units ≠ 0) (hden : 0 < den) :
    roundsTo units num den = true ↔ Rounds units (num / den) := by
  have hle : reachBelow units ≤ 4 * units := by
    have := reachBelow_le units
    have := spacing_le hunits
    omega
  have hden' : (0 : ℚ) < den := by exact_mod_cast hden
  have hlow : (((4 * units - reachBelow units) * den : Nat) : ℚ) =
      (4 * units - reachBelow units : ℚ) * den := by
    push_cast [Nat.cast_sub hle]
    ring
  have hhigh : (((4 * units + 2 * spacing units) * den : Nat) : ℚ) =
      (4 * units + 2 * spacing units : ℚ) * den := by
    push_cast
    ring
  have hvalue : ((4 * num : Nat) : ℚ) = 4 * (num / den : ℚ) * den := by
    push_cast
    field_simp
  rw [roundsTo, Nat.one_shiftLeft]
  change (if units / spacing units % 2 == 0 then
    decide ((4 * units - reachBelow units) * den ≤ 4 * num) &&
      decide (4 * num ≤ (4 * units + 2 * spacing units) * den)
    else decide ((4 * units - reachBelow units) * den < 4 * num) &&
      decide (4 * num < (4 * units + 2 * spacing units) * den)) = true ↔ _
  unfold Rounds
  by_cases heven : units / spacing units % 2 = 0
  · simp only [heven, beq_self_eq_true, if_true, Bool.and_eq_true, decide_eq_true_eq]
    rw [← Nat.cast_le (α := ℚ), ← Nat.cast_le (α := ℚ), hlow, hhigh, hvalue,
      mul_le_mul_iff_left₀ hden', mul_le_mul_iff_left₀ hden']
  · simp only [heven, beq_iff_eq, if_false, Bool.and_eq_true, decide_eq_true_eq]
    rw [← Nat.cast_lt (α := ℚ), ← Nat.cast_lt (α := ℚ), hlow, hhigh, hvalue,
      mul_lt_mul_iff_left₀ hden', mul_lt_mul_iff_left₀ hden']

/-! ### Different numbers -/

section

variable {units other : Nat}

theorem add_spacing_le_two_pow (h : IsUnits units) : units + spacing units ≤ 2 ^ (units.log2 + 1) := by
  by_cases hsmall : units.log2 < 52
  · have hone : spacing units = 1 := by simp [spacing_eq, Nat.sub_eq_zero_of_le hsmall.le]
    have := Nat.lt_log2_self (n := units)
    omega
  · have hpow : 2 ^ (units.log2 + 1) = spacing units * 2 ^ 53 := by
      rw [spacing_eq, ← pow_add]
      congr 1
      omega
    obtain ⟨count, hcount⟩ := Nat.dvd_of_mod_eq_zero h
    have hlt : spacing units * count < spacing units * 2 ^ 53 := by
      rw [← hcount, ← hpow]
      exact Nat.lt_log2_self
    calc units + spacing units = spacing units * (count + 1) := by rw [Nat.mul_succ, ← hcount]
      _ ≤ spacing units * 2 ^ 53 :=
        Nat.mul_le_mul_left _ (Nat.lt_of_mul_lt_mul_left hlt)
      _ = 2 ^ (units.log2 + 1) := hpow.symm

/-- Two numbers of one spacing differ by at least that. -/
theorem add_le_of_dvd {step : Nat} (h : units % step = 0) (h' : other % step = 0)
    (hlt : units < other) : units + step ≤ other := by
  obtain ⟨count, rfl⟩ := Nat.dvd_of_mod_eq_zero h
  obtain ⟨count', rfl⟩ := Nat.dvd_of_mod_eq_zero h'
  rw [← Nat.mul_succ]
  exact Nat.mul_le_mul_left _ (Nat.lt_of_mul_lt_mul_left hlt)

/-- If some real rounds to two numbers, the upper reach of the lower one meets the lower reach of the
other, and it meets properly unless both significands are even. -/
theorem Rounds.meet {x : ℚ} (hx : Rounds units x) (hx' : Rounds other x) :
    4 * other ≤ 4 * units + 2 * spacing units + reachBelow other ∧
      (units / spacing units % 2 ≠ 0 ∨ other / spacing other % 2 ≠ 0 →
        4 * other < 4 * units + 2 * spacing units + reachBelow other) := by
  have hhigh := hx.bounds.2
  have hlow := hx'.bounds.1
  constructor
  · have : (4 * other : ℚ) ≤ 4 * units + 2 * spacing units + reachBelow other := by linarith
    exact_mod_cast this
  · intro hodd
    have : (4 * other : ℚ) < 4 * units + 2 * spacing units + reachBelow other := by
      rcases hodd with hodd | hodd
      · simp only [Rounds, hodd, if_false] at hx
        linarith [hx.2]
      · simp only [Rounds, hodd, if_false] at hx'
        linarith [hx'.1]
    exact_mod_cast this

/-- Numbers of one binade that are next to each other do not both have an even significand. -/
theorem not_lt_of_log2_eq (h : IsUnits units) (h' : IsUnits other) {x : ℚ}
    (hx : Rounds units x) (hx' : Rounds other x) (hlog : units.log2 = other.log2) :
    ¬ units < other := by
  intro hlt
  obtain ⟨hmeet, hstrict⟩ := hx.meet hx'
  have hs := spacing_pos units
  have hsame : spacing other = spacing units := by rw [spacing_eq, spacing_eq, hlog]
  have hreach : reachBelow other ≤ 2 * spacing units := hsame ▸ reachBelow_le other
  have hnext := add_le_of_dvd h (hsame ▸ h') hlt
  have heq : other = units + spacing units := by omega
  have hparity : other / spacing units = units / spacing units + 1 := by
    rw [heq, Nat.add_div_right _ hs]
  have := hstrict (by rw [hsame]; omega)
  omega

/-- Numbers of different binades do not round alike either, though the reach is shorter below a power
of two. -/
theorem not_lt_of_log2_lt (h : IsUnits units) (h' : IsUnits other) {x : ℚ}
    (hx : Rounds units x) (hx' : Rounds other x) (hlog : units.log2 < other.log2) :
    ¬ units < other := by
  intro hlt
  obtain ⟨hmeet, hstrict⟩ := hx.meet hx'
  have hs := spacing_pos units
  have ht := spacing_pos other
  have hother : other ≠ 0 := by omega
  have htop := add_spacing_le_two_pow h
  have hbinade : 2 ^ (units.log2 + 1) ≤ 2 ^ other.log2 := Nat.pow_le_pow_right (by omega) hlog
  have hlow := Nat.log2_self_le hother
  have hreach := reachBelow_le other
  by_cases hpower : other = 2 ^ other.log2
  · by_cases hone : spacing other = 1
    · -- both binades have the least spacing
      have heq : other = units + spacing units := by omega
      have hs1 : spacing units = 1 := by omega
      have := hstrict (by rw [hone, hs1, Nat.div_one, Nat.div_one]; omega)
      omega
    · have hshort : reachBelow other = spacing other := by
        have hgt : spacing other > 1 := by omega
        simp [reachBelow, ← hpower, hgt]
      have hlarge : 53 ≤ other.log2 := by
        by_contra hsmall
        exact hone (by simp [spacing_eq, Nat.sub_eq_zero_of_le (by omega : other.log2 ≤ 52)])
      by_cases hadjacent : other.log2 = units.log2 + 1
      · have hdouble : spacing other = 2 * spacing units := by
          rw [spacing_eq, spacing_eq, ← pow_succ', hadjacent]
          congr 1
          omega
        have heq : other = units + spacing units := by omega
        have hquotient : other / spacing units = 2 ^ 53 := by
          rw [hpower, spacing_eq, Nat.pow_div (by omega) (by omega)]
          congr 1
          omega
        have hparity : other / spacing units = units / spacing units + 1 := by
          rw [heq, Nat.add_div_right _ hs]
        have := hstrict (by omega)
        omega
      · have hhalf : 2 * 2 ^ (units.log2 + 1) ≤ 2 ^ other.log2 := by
          rw [← pow_succ']
          exact Nat.pow_le_pow_right (by omega) (by omega)
        have := spacing_le hother
        omega
  · have hpast : 2 ^ other.log2 + spacing other ≤ other := by
      refine add_le_of_dvd ?_ h' (by omega)
      rw [spacing_eq]
      exact Nat.mod_eq_zero_of_dvd (Nat.pow_dvd_pow 2 (by omega))
    omega

/-- No real rounds to two numbers. -/
theorem Rounds.unique (h : IsUnits units) (h' : IsUnits other) (hunits : units ≠ 0)
    (hother : other ≠ 0) {x : ℚ} (hx : Rounds units x) (hx' : Rounds other x) : units = other := by
  have hnot {a b : Nat} (ha : IsUnits a) (hb : IsUnits b) (ha0 : a ≠ 0) (hb0 : b ≠ 0)
      (hxa : Rounds a x) (hxb : Rounds b x) : ¬ a < b := by
    intro hlt
    have hmono : a.log2 ≤ b.log2 := (Nat.le_log2 hb0).2 ((Nat.log2_self_le ha0).trans hlt.le)
    rcases Nat.lt_or_ge a.log2 b.log2 with hlog | hlog
    · exact not_lt_of_log2_lt ha hb hxa hxb hlog hlt
    · exact not_lt_of_log2_eq ha hb hxa hxb (by omega) hlt
  have := hnot h h' hunits hother hx hx'
  have := hnot h' h hother hunits hx' hx
  omega

end

/-! ### Enough digits -/

/-- The decimal `n * 10^place` as a count of units. -/
def decimalUnits (n : Nat) (place : Int) : ℚ := n * 10 ^ place * one

/-- The same decimal as a fraction of naturals. -/
def unitsFraction (n : Nat) (place : Int) : Nat × Nat :=
  if place < 0 then (n * one, 10 ^ place.natAbs) else (n * one * 10 ^ place.natAbs, 1)

theorem zpow_eq_natAbs (place : Int) : (10 : ℚ) ^ place =
    if place < 0 then ((10 ^ place.natAbs : Nat) : ℚ)⁻¹ else ((10 ^ place.natAbs : Nat) : ℚ) := by
  push_cast
  split
  · rename_i hneg
    rw [← zpow_natCast, ← zpow_neg]
    congr 1
    omega
  · rename_i hnonneg
    rw [← zpow_natCast]
    congr 1
    omega

theorem unitsFraction_pos (n : Nat) (place : Int) : 0 < (unitsFraction n place).2 := by
  unfold unitsFraction
  split
  · exact Nat.pow_pos (by omega)
  · exact Nat.one_pos

theorem unitsFraction_value (n : Nat) (place : Int) :
    ((unitsFraction n place).1 / (unitsFraction n place).2 : ℚ) = decimalUnits n place := by
  unfold unitsFraction decimalUnits
  rw [zpow_eq_natAbs]
  split <;> push_cast <;> ring

/-- The multiple of `10^place` nearest to a number. -/
def nearestMultiple (units : Nat) (place : Int) : Nat :=
  roundHalfEven (if place < 0 then 10 ^ place.natAbs * units else units)
    (if place < 0 then one else one * 10 ^ place.natAbs)

theorem gridPoint?_cases (units : Nat) (place : Int) : ∃ other, gridPoint? units place =
    if roundsTo units (unitsFraction (nearestMultiple units place) place).1
      (unitsFraction (nearestMultiple units place) place).2 then some (nearestMultiple units place)
    else if roundsTo units (unitsFraction other place).1 (unitsFraction other place).2 then some other
    else none :=
  ⟨_, rfl⟩

theorem gridPoint?_rounds {units n : Nat} {place : Int} (hunits : units ≠ 0)
    (h : gridPoint? units place = some n) : Rounds units (decimalUnits n place) := by
  rw [← unitsFraction_value, ← roundsTo_iff hunits (unitsFraction_pos n place)]
  obtain ⟨other, hcases⟩ := gridPoint?_cases units place
  rw [hcases] at h
  split at h
  · rename_i hfits
    exact Option.some.inj h ▸ hfits
  · split at h
    · rename_i hfits
      exact Option.some.inj h ▸ hfits
    · contradiction

theorem searchDigits_rounds {units n tries count : Nat} {scale place : Int} (hunits : units ≠ 0)
    (h : searchDigits units scale tries count = some (n, place)) :
    Rounds units (decimalUnits n place) := by
  induction tries generalizing count with
  | zero => simp [searchDigits] at h
  | succ tries ih =>
    simp only [searchDigits] at h
    split at h
    · rename_i found hgrid
      obtain ⟨rfl, rfl⟩ := Prod.mk.inj (Option.some.inj h)
      exact gridPoint?_rounds hunits hgrid
    · exact ih h

theorem searchDigits_isSome {units : Nat} {scale : Int} {tries count : Nat} (htries : 0 < tries)
    (h : (gridPoint? units (scale - ((count + tries - 1 : Nat) : Int))).isSome) :
    (searchDigits units scale tries count).isSome := by
  induction tries generalizing count with
  | zero => omega
  | succ tries ih =>
    simp only [searchDigits]
    split
    · rfl
    · rename_i hnone
      rcases Nat.eq_zero_or_pos tries with rfl | hpos
      · simp [hnone] at h
      · refine ih hpos ?_
        rwa [show count + 1 + tries - 1 = count + (tries + 1) - 1 by omega]

theorem roundHalfEven_near (num : Nat) {den : Nat} (hden : 0 < den) :
    |(roundHalfEven num den : ℚ) - num / den| ≤ 1 / 2 := by
  have hden' : (0 : ℚ) < den := by exact_mod_cast hden
  have hsplit : (num : ℚ) / den = (num / den : Nat) + (num % den : Nat) / den := by
    have hdiv : ((num / den * den + num % den : Nat) : ℚ) = num := by
      rw [Nat.div_add_mod']
    rw [← hdiv]
    push_cast
    field_simp
  have hrest : 0 ≤ ((num % den : Nat) : ℚ) / den := by positivity
  have hlt : ((num % den : Nat) : ℚ) / den < 1 := by
    rw [div_lt_one hden']
    exact_mod_cast Nat.mod_lt num hden
  unfold roundHalfEven
  dsimp only
  split
  · rename_i hdown
    have hhalf : 2 * (num % den) ≤ den := by
      simp only [Bool.or_eq_true, decide_eq_true_eq, Bool.and_eq_true, beq_iff_eq] at hdown
      omega
    have hhalf' : ((num % den : Nat) : ℚ) / den ≤ 1 / 2 := by
      rw [div_le_iff₀ hden']
      have : (2 * (num % den : Nat) : ℚ) ≤ den := by exact_mod_cast hhalf
      linarith
    rw [hsplit, abs_le]
    constructor <;> linarith
  · rename_i hup
    have hhalf : den ≤ 2 * (num % den) := by
      simp only [Bool.or_eq_true, decide_eq_true_eq, Bool.and_eq_true, beq_iff_eq, not_or] at hup
      omega
    have hhalf' : 1 / 2 ≤ ((num % den : Nat) : ℚ) / den := by
      rw [le_div_iff₀ hden']
      have : (den : ℚ) ≤ 2 * (num % den : Nat) := by exact_mod_cast hhalf
      linarith
    rw [hsplit, abs_le]
    push_cast
    constructor <;> linarith

/-- The power of ten that the digits of a number start with is at most the number. -/
theorem pow_decimalScale_le {units : Nat} (hunits : units ≠ 0) :
    (10 : ℚ) ^ (decimalScale units - 1) * one ≤ units := by
  have hlarge : one ≤ 10 ^ 324 := by
    have hroot : 2 ^ 179 ≤ 10 ^ 54 := by norm_num
    have hexponent : unitExponent = 179 * 6 := rfl
    rw [one_eq, hexponent, show 324 = 54 * 6 from rfl, pow_mul, pow_mul]
    exact Nat.pow_le_pow_left hroot 6
  generalize hscaled : units * 10 ^ 324 / one = scaled
  generalize hlength : (Nat.toDigits 10 scaled).length = length
  have hscale : decimalScale units = (length : Int) - 324 := by
    rw [← hlength, ← hscaled, decimalScale, Nat.pow_eq]
  have hpos : 0 < length := hlength ▸ Nat.length_toDigits_pos
  have hdigits : 10 ^ (length - 1) ≤ scaled := by
    rcases Nat.eq_zero_or_pos (length - 1) with hzero | hmore
    · rw [hzero, Nat.pow_zero, ← hscaled]
      refine (Nat.one_le_div_iff one_pos).mpr (hlarge.trans ?_)
      exact Nat.le_mul_of_pos_left _ (Nat.pos_of_ne_zero hunits)
    · by_contra hlt
      have := (Nat.length_toDigits_le_iff (by omega) hmore).mpr (Nat.lt_of_not_le hlt)
      omega
  have hbound : 10 ^ (length - 1) * one ≤ units * 10 ^ 324 :=
    (Nat.mul_le_mul_right _ hdigits).trans (hscaled ▸ Nat.div_mul_le_self _ _)
  have hbound' : ((10 : ℚ) ^ (length - 1)) * one ≤ units * 10 ^ 324 := by exact_mod_cast hbound
  have hpow : (10 : ℚ) ^ (decimalScale units - 1) = 10 ^ (length - 1) / 10 ^ 324 := by
    rw [hscale, ← zpow_natCast, ← zpow_natCast, ← zpow_sub₀ (by norm_num)]
    congr 1
    omega
  rw [hpow, div_mul_eq_mul_div, div_le_iff₀ (by positivity)]
  exact hbound'

/-- The reach on either side of a number is a good part of it. -/
theorem units_le_reach (units : Nat) :
    units < 2 ^ 53 * spacing units ∧ units ≤ 2 ^ 52 * reachBelow units := by
  have hlt : units < 2 ^ (units.log2 + 1) := Nat.lt_log2_self
  have hle : 2 ^ (units.log2 + 1) ≤ 2 ^ 53 * spacing units := by
    rw [spacing_eq, ← pow_add]
    exact Nat.pow_le_pow_right (by omega) (by omega)
  refine ⟨by omega, ?_⟩
  unfold reachBelow
  split
  · rename_i hpower
    obtain ⟨hpower, hlarge⟩ : units = 2 ^ units.log2 ∧ spacing units > 1 := by simpa using hpower
    have : 52 ≤ units.log2 := by
      by_contra hsmall
      simp [spacing_eq, Nat.sub_eq_zero_of_le (by omega : units.log2 ≤ 52)] at hlarge
    calc units = 2 ^ units.log2 := hpower
      _ = 2 ^ 52 * spacing units := by
        rw [spacing_eq, ← pow_add]
        congr 1
        omega
      _ ≤ 2 ^ 52 * spacing units := le_rfl
  · omega

theorem nearestMultiple_near (units : Nat) (place : Int) :
    |decimalUnits (nearestMultiple units place) place - units| ≤ 10 ^ place * one / 2 := by
  have hone' : (0 : ℚ) < one := by exact_mod_cast one_pos
  have hgrid : (0 : ℚ) < 10 ^ place * one := mul_pos (zpow_pos (by norm_num) place) hone'
  have hpow : 0 < 10 ^ place.natAbs := Nat.pow_pos (by omega)
  have hnear : |(nearestMultiple units place : ℚ) - units / (10 ^ place * one)| ≤ 1 / 2 := by
    unfold nearestMultiple
    rw [zpow_eq_natAbs]
    split
    · have h := roundHalfEven_near (10 ^ place.natAbs * units) one_pos
      rwa [show ((10 ^ place.natAbs * units : Nat) : ℚ) / one =
        units / (((10 ^ place.natAbs : Nat) : ℚ)⁻¹ * one) by
          push_cast
          field_simp] at h
    · have h := roundHalfEven_near units (Nat.mul_pos one_pos hpow)
      rwa [Nat.cast_mul, mul_comm (one : ℚ)] at h
  have hsplit : decimalUnits (nearestMultiple units place) place - units =
      ((nearestMultiple units place : ℚ) - units / (10 ^ place * one)) * (10 ^ place * one) := by
    rw [sub_mul, div_mul_cancel₀ _ hgrid.ne', decimalUnits, mul_assoc]
  rw [hsplit, abs_mul, abs_of_pos hgrid]
  have hscaled := mul_le_mul_of_nonneg_right hnear hgrid.le
  linarith

/-- Seventeen digits are enough. -/
theorem gridPoint?_isSome {units : Nat} (hunits : units ≠ 0) :
    (gridPoint? units (decimalScale units - 17)).isSome := by
  have hscale := pow_decimalScale_le hunits
  have hnear := nearestMultiple_near units (decimalScale units - 17)
  have hgrid : (10 : ℚ) ^ (decimalScale units - 17) * one ≤ units / 10 ^ 16 := by
    have hpow : (10 : ℚ) ^ (decimalScale units - 17) =
        10 ^ (decimalScale units - 1) / 10 ^ 16 := by
      rw [← zpow_natCast, ← zpow_sub₀ (by norm_num)]
      congr 1
      push_cast
      omega
    rw [hpow, div_mul_eq_mul_div]
    gcongr
  obtain ⟨hspacing, hreach⟩ := units_le_reach units
  have hspacing' : (units : ℚ) < 2 ^ 53 * spacing units := by exact_mod_cast hspacing
  have hreach' : (units : ℚ) ≤ 2 ^ 52 * reachBelow units := by exact_mod_cast hreach
  have hpos : (0 : ℚ) < units := by exact_mod_cast Nat.pos_of_ne_zero hunits
  obtain ⟨hlow, hhigh⟩ := abs_le.mp hnear
  have hrounds : Rounds units
      (decimalUnits (nearestMultiple units (decimalScale units - 17)) (decimalScale units - 17)) := by
    refine .of_bounds ⟨?_, ?_⟩ <;> linarith
  obtain ⟨other, hcases⟩ := gridPoint?_cases units (decimalScale units - 17)
  rw [← unitsFraction_value, ← roundsTo_iff hunits (unitsFraction_pos _ _)] at hrounds
  rw [hcases, if_pos hrounds]
  rfl

/-- The digits that are searched for are found, and round to the number. -/
theorem searchDigits_spec {units : Nat} (hunits : units ≠ 0) :
    ∃ n place, searchDigits units (decimalScale units) 17 1 = some (n, place) ∧
      Rounds units (decimalUnits n place) := by
  have hfound : (searchDigits units (decimalScale units) 17 1).isSome :=
    searchDigits_isSome (by omega) (gridPoint?_isSome hunits)
  obtain ⟨⟨n, place⟩, hdigits⟩ := Option.isSome_iff_exists.mp hfound
  exact ⟨n, place, hdigits, searchDigits_rounds hunits hdigits⟩

end DocSync.Double
