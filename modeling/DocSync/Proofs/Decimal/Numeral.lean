import DocSync.Json.Printer
import DocSync.Proofs.Decimal.Rounding
import Mathlib.Data.List.TakeWhile

/-!
The texts of numbers.  A numeral has a value that can be read off its characters, and the value of a
number's text rounds to the number.  So different numbers have different texts.
-/

namespace DocSync

/-- The power of ten that a numeral ends with. -/
def exponentOf : List Char → Int
  | 'e' :: '+' :: digits => Nat.ofDigitChars 10 digits 0
  | 'e' :: '-' :: digits => -Nat.ofDigitChars 10 digits 0
  | _ => 0

/-- The value of a numeral without a sign. -/
def numeralValue (cs : List Char) : ℚ :=
  let mantissa := cs.takeWhile (· != 'e')
  let fraction := (mantissa.dropWhile (· != '.')).drop 1
  Nat.ofDigitChars 10 (mantissa.takeWhile (· != '.') ++ fraction) 0 *
    10 ^ (exponentOf (cs.dropWhile (· != 'e')) - fraction.length)

section

variable {whole fraction tail : List Char}

theorem ne_of_isDigit {c d : Char} (h : c.isDigit = true) (hd : d.isDigit = false) :
    (c != d) = true := by
  rw [bne_iff_ne]
  rintro rfl
  simp [h] at hd

theorem takeWhile_numeral (hwhole : ∀ c ∈ whole, (c != 'e') = true)
    (htail : tail = [] ∨ ∃ rest, tail = 'e' :: rest) :
    (whole ++ tail).takeWhile (· != 'e') = whole ∧
      (whole ++ tail).dropWhile (· != 'e') = tail := by
  rw [List.takeWhile_append_of_pos hwhole, List.dropWhile_append_of_pos hwhole]
  rcases htail with rfl | ⟨rest, rfl⟩ <;> simp

theorem numeralValue_whole (hwhole : ∀ c ∈ whole, c.isDigit = true)
    (htail : tail = [] ∨ ∃ rest, tail = 'e' :: rest) :
    numeralValue (whole ++ tail) = Nat.ofDigitChars 10 whole 0 * 10 ^ exponentOf tail := by
  obtain ⟨htake, hdrop⟩ :=
    takeWhile_numeral (fun c hc => ne_of_isDigit (hwhole c hc) rfl) htail
  have hpoint : ∀ c ∈ whole, (c != '.') = true := fun c hc => ne_of_isDigit (hwhole c hc) rfl
  have htake' : whole.takeWhile (· != '.') = whole := List.takeWhile_eq_self_iff.mpr hpoint
  have hdrop' : whole.dropWhile (· != '.') = [] := List.dropWhile_eq_nil_iff.mpr hpoint
  simp only [numeralValue, htake, hdrop, htake', hdrop', List.drop_nil, List.append_nil,
    List.length_nil, Nat.cast_zero, sub_zero]

theorem numeralValue_point (hwhole : ∀ c ∈ whole, c.isDigit = true)
    (hfraction : ∀ c ∈ fraction, c.isDigit = true)
    (htail : tail = [] ∨ ∃ rest, tail = 'e' :: rest) :
    numeralValue (whole ++ '.' :: fraction ++ tail) =
      Nat.ofDigitChars 10 (whole ++ fraction) 0 * 10 ^ (exponentOf tail - fraction.length) := by
  have hmantissa : ∀ c ∈ whole ++ '.' :: fraction, (c != 'e') = true := by
    intro c hc
    rcases List.mem_append.mp hc with hc | hc
    · exact ne_of_isDigit (hwhole c hc) rfl
    · rcases List.mem_cons.mp hc with rfl | hc
      · rfl
      · exact ne_of_isDigit (hfraction c hc) rfl
  obtain ⟨htake, hdrop⟩ := takeWhile_numeral hmantissa htail
  have hpoint : ∀ c ∈ whole, (c != '.') = true := fun c hc => ne_of_isDigit (hwhole c hc) rfl
  have htake' : (whole ++ '.' :: fraction).takeWhile (· != '.') = whole := by
    rw [List.takeWhile_append_of_pos hpoint]
    simp
  have hdrop' : (whole ++ '.' :: fraction).dropWhile (· != '.') = '.' :: fraction := by
    rw [List.dropWhile_append_of_pos hpoint]
    simp
  simp only [numeralValue, htake, hdrop, htake', hdrop', List.drop_succ_cons, List.drop_zero]

end

/-- The value of digits with a point after the first one, times a power of ten. -/
def DecimalDigits.value (d : DecimalDigits) : ℚ :=
  Nat.ofDigitChars 10 d.digits 0 * 10 ^ (d.exponent + 1 - d.digits.length)

namespace NumeralLayout

variable {d : DecimalDigits}

theorem toList_zeros (n : Nat) : (zeros n).toList = List.replicate n '0' := by
  simp [zeros]

theorem isDigit_of_mem_zeros {n : Nat} : ∀ c ∈ List.replicate n '0', c.isDigit = true := by
  intro c hc
  rw [List.eq_of_mem_replicate hc]
  rfl

/-- A product with a power of ten, regrouped. -/
theorem mul_pow_regroup (digits more : Nat) {low high : Int} (h : more + low = high) :
    ((10 ^ more * digits : Nat) : ℚ) * 10 ^ low = digits * 10 ^ high := by
  push_cast
  rw [← h, zpow_add₀ (by norm_num), zpow_natCast]
  ring

theorem value_positional (hd : ∀ c ∈ d.digits, c.isDigit = true) :
    numeralValue (positional d).toList = d.value := by
  unfold positional
  split
  · rename_i hneg
    have hfraction : ∀ c ∈ List.replicate (d.exponent.natAbs - 1) '0' ++ d.digits,
        c.isDigit = true := by
      intro c hc
      rcases List.mem_append.mp hc with hc | hc
      · exact isDigit_of_mem_zeros c hc
      · exact hd c hc
    have htext : ("0." ++ zeros (d.exponent.natAbs - 1) ++ String.ofList d.digits).toList =
        ['0'] ++ '.' :: (List.replicate (d.exponent.natAbs - 1) '0' ++ d.digits) ++ [] := by
      simp [toList_zeros]
    rw [htext, numeralValue_point (by simp) hfraction (.inl rfl), DecimalDigits.value]
    have hdigits : Nat.ofDigitChars 10
        (['0'] ++ (List.replicate (d.exponent.natAbs - 1) '0' ++ d.digits)) 0 =
          Nat.ofDigitChars 10 d.digits 0 := by
      simp [Nat.ofDigitChars_append, Nat.ofDigitChars_cons]
    have hplace : exponentOf [] -
        ((List.replicate (d.exponent.natAbs - 1) '0' ++ d.digits).length : Int) =
          d.exponent + 1 - d.digits.length := by
      simp only [exponentOf, List.length_append, List.length_replicate]
      omega
    rw [hdigits, hplace]
  · rename_i hnonneg
    dsimp only
    split
    · rename_i hshort
      have hwhole : ∀ c ∈ d.digits ++
          List.replicate (d.exponent.natAbs + 1 - d.digits.length) '0', c.isDigit = true := by
        intro c hc
        rcases List.mem_append.mp hc with hc | hc
        · exact hd c hc
        · exact isDigit_of_mem_zeros c hc
      have htext : (String.ofList d.digits ++ zeros (d.exponent.natAbs + 1 - d.digits.length) ++
          ".0").toList = (d.digits ++
            List.replicate (d.exponent.natAbs + 1 - d.digits.length) '0') ++ '.' :: ['0'] ++ [] := by
        simp [toList_zeros]
      rw [htext, numeralValue_point hwhole (by simp) (.inl rfl), DecimalDigits.value]
      have hdigits : Nat.ofDigitChars 10 ((d.digits ++
          List.replicate (d.exponent.natAbs + 1 - d.digits.length) '0') ++ ['0']) 0 =
            10 ^ (d.exponent.natAbs + 1 - d.digits.length + 1) *
              Nat.ofDigitChars 10 d.digits 0 := by
        simp only [Nat.ofDigitChars_append, Nat.ofDigitChars_replicate_zero]
        rw [Nat.ofDigitChars_cons, Nat.ofDigitChars_nil, pow_succ']
        simp [Nat.mul_assoc]
      rw [hdigits]
      refine mul_pow_regroup _ _ ?_
      simp only [exponentOf, List.length_singleton]
      omega
    · rename_i hlong
      have htext : (String.ofList (d.digits.take (d.exponent.natAbs + 1)) ++ "." ++
          String.ofList (d.digits.drop (d.exponent.natAbs + 1))).toList =
            d.digits.take (d.exponent.natAbs + 1) ++
              '.' :: d.digits.drop (d.exponent.natAbs + 1) ++ [] := by
        simp
      rw [htext, numeralValue_point (fun c hc => hd c (List.mem_of_mem_take hc))
        (fun c hc => hd c (List.mem_of_mem_drop hc)) (.inl rfl), List.take_append_drop,
        DecimalDigits.value]
      congr 2
      simp only [exponentOf, List.length_drop]
      omega

theorem exponentOf_mark {exponent : Int} : exponentOf
    ((if exponent < 0 then "e-" else "e+") ++ toString exponent.natAbs).toList = exponent := by
  have hdigits : (toString exponent.natAbs).toList = Nat.toDigits 10 exponent.natAbs :=
    Nat.toList_repr
  split
  · rw [String.toList_append, hdigits]
    change -((Nat.ofDigitChars 10 (Nat.toDigits 10 exponent.natAbs) 0 : Nat) : Int) = exponent
    rw [Nat.ofDigitChars_ten_toDigits]
    omega
  · rw [String.toList_append, hdigits]
    change ((Nat.ofDigitChars 10 (Nat.toDigits 10 exponent.natAbs) 0 : Nat) : Int) = exponent
    rw [Nat.ofDigitChars_ten_toDigits]
    omega

theorem value_scientific (hd : ∀ c ∈ d.digits, c.isDigit = true) (hne : d.digits ≠ []) :
    numeralValue (Number.layout.scientific d).toList = d.value := by
  obtain ⟨digits, exponent⟩ := d
  generalize htail : ((if exponent < 0 then "e-" else "e+") ++ toString exponent.natAbs).toList = tail
  have hmark : tail = [] ∨ ∃ rest, tail = 'e' :: rest := by
    rw [← htail, String.toList_append]
    split <;> exact .inr ⟨_, rfl⟩
  have hexponent : exponentOf tail = exponent := htail ▸ exponentOf_mark
  cases digits with
  | nil => contradiction
  | cons c rest =>
    cases rest with
    | nil =>
      have htext : (Number.layout.scientific ⟨[c], exponent⟩).toList = [c] ++ tail := by
        rw [← htail]
        simp [scientific, Number.layout]
      rw [htext, numeralValue_whole hd hmark, hexponent, DecimalDigits.value]
      simp
    | cons c' rest =>
      have htext : (Number.layout.scientific ⟨c :: c' :: rest, exponent⟩).toList =
          [c] ++ '.' :: (c' :: rest) ++ tail := by
        rw [← htail]
        simp [scientific, Number.layout]
      rw [htext, numeralValue_point (fun x hx => hd x (by simp_all)) (fun x hx => hd x (by simp_all))
        hmark, hexponent, DecimalDigits.value]
      congr 2
      simp only [List.length_cons]
      push_cast
      ring

end NumeralLayout

namespace Double

theorem trimZeros_append (digits : List Char) :
    ∃ zeros, digits = trimZeros digits ++ List.replicate zeros '0' := by
  have hzeros : digits.reverse.takeWhile (· == '0') =
      List.replicate (digits.reverse.takeWhile (· == '0')).length '0' := by
    refine List.eq_replicate_of_mem fun c hc => ?_
    simpa using List.all_eq_true.mp List.all_takeWhile c hc
  refine ⟨(digits.reverse.takeWhile (· == '0')).length, ?_⟩
  have hsplit := congrArg List.reverse (List.takeWhile_append_dropWhile (p := (· == '0'))
    (l := digits.reverse))
  rw [hzeros, List.reverse_append, List.reverse_replicate, List.reverse_reverse] at hsplit
  exact hsplit.symm

theorem isDigit_of_mem_trimZeros {n : Nat} {c : Char} (h : c ∈ trimZeros (Nat.toDigits 10 n)) :
    c.isDigit = true := by
  have hmem : c ∈ Nat.toDigits 10 n :=
    List.mem_reverse.mp ((List.dropWhile_subset _) (List.mem_reverse.mp h))
  exact Nat.isDigit_of_mem_toDigits (by omega) (by omega) hmem

/-- Leaving zeros out at the end does not change a decimal. -/
theorem value_trimZeros (n : Nat) (place : Int) :
    DecimalDigits.value ⟨trimZeros (Nat.toDigits 10 n), place + (Nat.toDigits 10 n).length - 1⟩ =
      n * 10 ^ place := by
  obtain ⟨zeros, hzeros⟩ := trimZeros_append (Nat.toDigits 10 n)
  have hn : n = 10 ^ zeros * Nat.ofDigitChars 10 (trimZeros (Nat.toDigits 10 n)) 0 := by
    rw [← Nat.ofDigitChars_replicate_zero, ← Nat.ofDigitChars_append, ← hzeros,
      Nat.ofDigitChars_ten_toDigits]
  have hlength := congrArg List.length hzeros
  rw [List.length_append, List.length_replicate] at hlength
  rw [DecimalDigits.value, hlength]
  conv_rhs => rw [hn]
  refine (NumeralLayout.mul_pow_regroup _ zeros ?_).symm
  push_cast
  ring

/-- The digits of a number are digits, and their value rounds to the number. -/
theorem shortestDigits_spec {units : Nat} (hunits : units ≠ 0) :
    (∀ c ∈ (shortestDigits units).digits, c.isDigit = true) ∧
      (shortestDigits units).digits ≠ [] ∧
      Rounds units ((shortestDigits units).value * one) := by
  obtain ⟨n, place, hsearch, hrounds⟩ := searchDigits_spec hunits
  have heq : shortestDigits units = ⟨trimZeros (Nat.toDigits 10 n),
      place + (Nat.toDigits 10 n).length - 1⟩ := by
    simp only [shortestDigits, hsearch]
  have hvalue : (shortestDigits units).value * one = decimalUnits n place := by
    rw [heq, value_trimZeros, decimalUnits]
  have hrounds' : Rounds units ((shortestDigits units).value * one) := hvalue ▸ hrounds
  refine ⟨?_, ?_, hrounds'⟩
  · intro c hc
    rw [heq] at hc
    exact isDigit_of_mem_trimZeros hc
  · intro hnil
    refine hrounds'.ne_zero hunits ?_
    rw [DecimalDigits.value, hnil, Nat.ofDigitChars_nil, Nat.cast_zero, zero_mul, zero_mul]

end Double

namespace Number

/-- A double that binary64 has. -/
def IsHeld : Number → Prop
  | integer _ => True
  | double d => Double.IsUnits d.units

/-- The text of a double without its sign. -/
def body (units : Nat) : String :=
  if units == 0 then "0.0"
  else
    let digits := Double.shortestDigits units
    if layout.leastPositional ≤ digits.exponent && digits.exponent ≤ layout.mostPositional then
      NumeralLayout.positional digits
    else layout.scientific digits

theorem render_double (d : Double) :
    (double d).render = (if d.negative then "-" else "") ++ body d.units := by
  simp only [render, NumeralLayout.render, body]
  split
  · rfl
  · split <;> rfl

theorem value_body {units : Nat} (hunits : units ≠ 0) :
    Double.Rounds units (numeralValue (body units).toList * Double.one) := by
  obtain ⟨hdigits, hne, hrounds⟩ := Double.shortestDigits_spec hunits
  unfold body
  rw [if_neg (by simpa using hunits)]
  dsimp only
  split
  · rwa [NumeralLayout.value_positional hdigits]
  · rwa [NumeralLayout.value_scientific hdigits hne]

theorem body_inj {units other : Nat} (h : Double.IsUnits units) (h' : Double.IsUnits other)
    (heq : body units = body other) : units = other := by
  have hzero {units : Nat} (hunits : units ≠ 0) : body 0 ≠ body units := by
    intro hbody
    refine (value_body hunits).ne_zero hunits ?_
    have hbody₀ : numeralValue (body 0).toList = 0 := by
      have hdigits : Nat.ofDigitChars 10 ['0', '0'] 0 = 0 := by decide
      have htext : (body 0).toList = ['0', '.', '0'] := by decide
      rw [htext]
      change ((Nat.ofDigitChars 10 ['0', '0'] 0 : ℕ) : ℚ) * _ = 0
      rw [hdigits, Nat.cast_zero, zero_mul]
    rw [← hbody, hbody₀, zero_mul]
  by_cases hunits : units = 0
  · by_cases hother : other = 0
    · rw [hunits, hother]
    · exact absurd (hunits ▸ heq) (hzero hother)
  · by_cases hother : other = 0
    · exact absurd (hother ▸ heq).symm (hzero hunits)
    · exact (value_body hunits).unique h h' hunits hother (heq ▸ value_body hother)

/-- The characters of numbers. -/
def isNumeral (c : Char) : Bool := c.isDigit || c == '-' || c == '+' || c == '.' || c == 'e'

theorem isNumeral_of_isDigit {c : Char} (h : c.isDigit = true) : isNumeral c = true := by
  simp [isNumeral, h]

theorem isNumeral_of_mem_toDigits {n : Nat} {c : Char} (h : c ∈ Nat.toDigits 10 n) :
    isNumeral c = true :=
  isNumeral_of_isDigit (Nat.isDigit_of_mem_toDigits (by omega) (by omega) h)

/-- The text of a double starts with a digit after its sign, has a point or an exponent, and has the
characters of numbers only. -/
structure IsBody (cs : List Char) : Prop where
  head : ∃ c rest, cs = c :: rest ∧ c.isDigit = true
  mark : ∃ c ∈ cs, c = '.' ∨ c = 'e'
  numeral : ∀ c ∈ cs, isNumeral c = true

theorem isBody_point {whole fraction : List Char} (hwhole : ∀ c ∈ whole, c.isDigit = true)
    (hne : whole ≠ []) (hfraction : ∀ c ∈ fraction, c.isDigit = true) :
    IsBody (whole ++ '.' :: fraction) := by
  obtain ⟨c, rest, rfl⟩ := List.exists_cons_of_ne_nil hne
  refine ⟨⟨c, rest ++ '.' :: fraction, rfl, hwhole c (by simp)⟩, ⟨'.', by simp, .inl rfl⟩, ?_⟩
  intro d hd
  rcases List.mem_append.mp hd with hd | hd
  · exact isNumeral_of_isDigit (hwhole d hd)
  · rcases List.mem_cons.mp hd with rfl | hd
    · rfl
    · exact isNumeral_of_isDigit (hfraction d hd)

theorem isBody_positional {d : DecimalDigits} (hd : ∀ c ∈ d.digits, c.isDigit = true)
    (hne : d.digits ≠ []) : IsBody (NumeralLayout.positional d).toList := by
  unfold NumeralLayout.positional
  have hzeros (n : Nat) : ∀ c ∈ List.replicate n '0', c.isDigit = true :=
    NumeralLayout.isDigit_of_mem_zeros
  have happend {n : Nat} {digits : List Char} (h : ∀ c ∈ digits, c.isDigit = true) :
      (∀ c ∈ List.replicate n '0' ++ digits, c.isDigit = true) ∧
        ∀ c ∈ digits ++ List.replicate n '0', c.isDigit = true := by
    constructor
    · exact fun c hc => (List.mem_append.mp hc).elim (hzeros n c) (h c)
    · exact fun c hc => (List.mem_append.mp hc).elim (h c) (hzeros n c)
  split
  · have h := isBody_point (by simp) (List.cons_ne_nil '0' [])
      (happend (n := d.exponent.natAbs - 1) hd).1
    simpa [NumeralLayout.toList_zeros] using h
  · dsimp only
    split
    · have h := isBody_point (happend (n := d.exponent.natAbs + 1 - d.digits.length) hd).2
        (by simp [hne]) (hzeros 1)
      simpa [NumeralLayout.toList_zeros] using h
    · have h := isBody_point (fun c hc => hd c (List.mem_of_mem_take hc))
        (by simp [hne] : d.digits.take (d.exponent.natAbs + 1) ≠ [])
        (fun c (hc : c ∈ d.digits.drop (d.exponent.natAbs + 1)) => hd c (List.mem_of_mem_drop hc))
      simpa using h

theorem isBody_scientific {d : DecimalDigits} (hd : ∀ c ∈ d.digits, c.isDigit = true)
    (hne : d.digits ≠ []) : IsBody (layout.scientific d).toList := by
  obtain ⟨digits, exponent⟩ := d
  generalize htail : ((if exponent < 0 then "e-" else "e+") ++ toString exponent.natAbs).toList = tail
  have htailChars : ∀ c ∈ tail, isNumeral c = true := by
    intro c hc
    rw [← htail, String.toList_append] at hc
    rcases List.mem_append.mp hc with hc | hc
    · split at hc <;> · simp at hc; rcases hc with rfl | rfl <;> rfl
    · have hdigits : (toString exponent.natAbs).toList = Nat.toDigits 10 exponent.natAbs :=
        Nat.toList_repr
      exact isNumeral_of_mem_toDigits (hdigits ▸ hc)
  have htailMark : 'e' ∈ tail := by
    rw [← htail, String.toList_append]
    split <;> simp
  have hwith {c : Char} {middle : List Char} (hc : c.isDigit = true)
      (hmiddle : ∀ c ∈ middle, isNumeral c = true) : IsBody (c :: (middle ++ tail)) := by
    refine ⟨⟨c, _, rfl, hc⟩, ⟨'e', by simp [htailMark], .inr rfl⟩, ?_⟩
    intro x hx
    rcases List.mem_cons.mp hx with rfl | hx
    · exact isNumeral_of_isDigit hc
    · exact (List.mem_append.mp hx).elim (hmiddle x) (htailChars x)
  cases digits with
  | nil => contradiction
  | cons c rest =>
    have hc : c.isDigit = true := hd c (by simp)
    cases rest with
    | nil =>
      have htext : (layout.scientific ⟨[c], exponent⟩).toList = c :: ([] ++ tail) := by
        rw [← htail]
        simp [NumeralLayout.scientific, layout]
      exact htext ▸ hwith hc (by simp)
    | cons c' rest =>
      have htext : (layout.scientific ⟨c :: c' :: rest, exponent⟩).toList =
          c :: (('.' :: c' :: rest) ++ tail) := by
        rw [← htail]
        simp [NumeralLayout.scientific, layout]
      refine htext ▸ hwith hc fun x hx => ?_
      rcases List.mem_cons.mp hx with rfl | hx
      · rfl
      · exact isNumeral_of_isDigit (hd x (List.mem_cons_of_mem _ hx))

theorem isBody_body (units : Nat) : IsBody (body units).toList := by
  unfold body
  split
  · refine ⟨⟨'0', _, rfl, rfl⟩, ⟨'.', by simp, .inl rfl⟩, fun c hc => ?_⟩
    have hc : c ∈ ['0', '.', '0'] := hc
    simp only [List.mem_cons, List.not_mem_nil, or_false] at hc
    rcases hc with rfl | rfl | rfl <;> rfl
  · rename_i hunits
    obtain ⟨hdigits, hne, -⟩ := Double.shortestDigits_spec (by simpa using hunits : units ≠ 0)
    dsimp only
    split
    · exact isBody_positional hdigits hne
    · exact isBody_scientific hdigits hne

/-! ### Numbers -/

theorem toList_render_integer (i : Int) : (integer i).render.toList =
    if i < 0 then '-' :: Nat.toDigits 10 i.natAbs else Nat.toDigits 10 i.natAbs := by
  cases i with
  | ofNat n => exact Nat.toList_repr
  | negSucc n =>
    change ("-" ++ (n + 1).repr).toList = _
    rw [String.toList_append, Nat.toList_repr, if_pos (Int.negSucc_lt_zero n)]
    rfl

theorem toList_render_double (d : Double) : (double d).render.toList =
    if d.negative then '-' :: (body d.units).toList else (body d.units).toList := by
  rw [render_double, String.toList_append]
  split <;> rfl

/-- A number's text is not empty, and has the characters of numbers only. -/
theorem isNumeral_of_mem_render {n : Number} : n.render.toList ≠ [] ∧
    ∀ c ∈ n.render.toList, isNumeral c = true := by
  cases n with
  | integer i =>
    rw [toList_render_integer]
    split
    · refine ⟨by simp, fun c hc => ?_⟩
      rcases List.mem_cons.mp hc with rfl | hc
      · rfl
      · exact isNumeral_of_mem_toDigits hc
    · exact ⟨Nat.toDigits_ne_nil, fun c hc => isNumeral_of_mem_toDigits hc⟩
  | double d =>
    obtain ⟨⟨c, rest, hhead, -⟩, -, hnumeral⟩ := isBody_body d.units
    rw [toList_render_double]
    split
    · refine ⟨by simp, fun c hc => ?_⟩
      rcases List.mem_cons.mp hc with rfl | hc
      · rfl
      · exact hnumeral c hc
    · exact ⟨by simp [hhead], hnumeral⟩

theorem mark_not_mem_render_integer {i : Int} {c : Char} (hc : c = '.' ∨ c = 'e') :
    c ∉ (integer i).render.toList := by
  have hdigits : c ∉ Nat.toDigits 10 i.natAbs := by
    intro h
    have := Nat.isDigit_of_mem_toDigits (by omega) (by omega) h
    rcases hc with rfl | rfl <;> simp at this
  rw [toList_render_integer]
  split
  · rw [List.mem_cons, not_or]
    exact ⟨by rcases hc with rfl | rfl <;> decide, hdigits⟩
  · exact hdigits

theorem render_integer_ne_double (i : Int) (d : Double) :
    (integer i).render ≠ (double d).render := by
  intro h
  obtain ⟨-, ⟨c, hmem, hc⟩, -⟩ := isBody_body d.units
  refine mark_not_mem_render_integer (i := i) hc ?_
  rw [h, toList_render_double]
  split
  · exact List.mem_cons_of_mem _ hmem
  · exact hmem

/-- Numbers of one text are one number. -/
theorem render_inj {a b : Number} (ha : a.IsHeld) (hb : b.IsHeld) (h : a.render = b.render) :
    a = b := by
  have hdash {cs : List Char} (hcs : ∃ c rest, cs = c :: rest ∧ c.isDigit = true)
      (rest : List Char) : '-' :: rest ≠ cs := by
    obtain ⟨c, tail, rfl, hc⟩ := hcs
    intro heq
    rw [← (List.cons.inj heq).1] at hc
    simp at hc
  cases a with
  | integer i =>
    cases b with
    | integer j =>
      have htext := congrArg String.toList h
      have hdigits (n : Nat) :
          ∃ c rest, Nat.toDigits 10 n = c :: rest ∧ c.isDigit = true := by
        obtain ⟨c, rest, hcons⟩ := List.exists_cons_of_ne_nil (Nat.toDigits_ne_nil (n := n) (b := 10))
        have hmem : c ∈ Nat.toDigits 10 n := by simp [hcons]
        exact ⟨c, rest, hcons, Nat.isDigit_of_mem_toDigits (by omega) (by omega) hmem⟩
      have hnat {m n : Nat} (heq : Nat.toDigits 10 m = Nat.toDigits 10 n) : m = n := by
        rw [← Nat.ofDigitChars_ten_toDigits (n := m), heq, Nat.ofDigitChars_ten_toDigits]
      rw [toList_render_integer, toList_render_integer] at htext
      split at htext <;> split at htext
      · have := hnat (List.cons.inj htext).2
        exact congrArg integer (by omega)
      · exact absurd htext (hdash (hdigits _) _)
      · exact absurd htext.symm (hdash (hdigits _) _)
      · have := hnat htext
        exact congrArg integer (by omega)
    | double d => exact absurd h (render_integer_ne_double i d)
  | double d =>
    cases b with
    | integer j => exact absurd h.symm (render_integer_ne_double j d)
    | double e =>
      have htext := congrArg String.toList h
      rw [toList_render_double, toList_render_double] at htext
      obtain ⟨negative, units⟩ := d
      obtain ⟨negative', units'⟩ := e
      have hbody (heq : (body units).toList = (body units').toList) : units = units' :=
        body_inj ha hb (String.toList_injective heq)
      cases negative <;> cases negative' <;> simp only [Bool.false_eq_true, if_false, if_true] at htext
      · rw [hbody htext]
      · exact absurd htext.symm (hdash (isBody_body units).head _)
      · exact absurd htext (hdash (isBody_body units').head _)
      · rw [hbody (List.cons.inj htext).2]

end Number

end DocSync
