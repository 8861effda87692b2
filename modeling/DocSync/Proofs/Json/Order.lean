import DocSync.Proofs.Decimal.Monotone
import DocSync.Proofs.Json.Kinds
import Mathlib.Data.Set.Basic

/-!
The order of values as a preorder.  It may be turned round, and every value is equal to itself.  But two
signed integers compare exactly, while either compares with any other number by the binary64 number next
to it: where both are next to the same one, a number with this value is equal to two that differ.  Main
statement: this is the only way in which the order of values, or of tuples, is not transitive.
-/

namespace DocSync

namespace Number

variable {a b c : Number} {i j : Int}

/-- The value of the nearest binary64 number, in units. -/
def rounded (n : Number) : Int := n.toDouble.signedUnits

theorem compare_signed (ha : a.signed? = some i) (hb : b.signed? = some j) :
    a.compare b = Ord.compare i j := by
  simp only [compare, ha, hb]

theorem compare_rounded (h : a.signed? = none ∨ b.signed? = none) :
    a.compare b = Ord.compare a.rounded b.rounded := by
  rcases h with h | h
  · simp only [compare, h]
    rfl
  · cases ha : a.signed? <;> simp only [compare, ha, h] <;> rfl

theorem eq_integer_of_signed? (h : a.signed? = some i) : a = .integer i := by
  cases a with
  | integer k =>
    rw [signed?] at h
    split at h
    · rw [Option.some.inj h]
    · contradiction
  | double d => contradiction

theorem rounded_mono (ha : a.signed? = some i) (hb : b.signed? = some j) (h : i ≤ j) :
    a.rounded ≤ b.rounded := by
  rw [eq_integer_of_signed? ha, eq_integer_of_signed? hb]
  exact Double.signedUnits_ofInt_mono h

/-- However two numbers are compared, their roundings do not come in the opposite order. -/
theorem rounded_le_of_compare (h : (a.compare b).isLE) : a.rounded ≤ b.rounded := by
  cases ha : a.signed? with
  | none => exact Int.isLE_compare.mp (compare_rounded (.inl ha) ▸ h)
  | some i =>
    cases hb : b.signed? with
    | none => exact Int.isLE_compare.mp (compare_rounded (.inr hb) ▸ h)
    | some j => exact rounded_mono ha hb (Int.isLE_compare.mp (compare_signed ha hb ▸ h))

/-- The number is no signed integer, and two signed integers round to its value. -/
structure Blurs (n a c : Number) : Prop where
  first : a.signed?.isSome
  second : c.signed?.isSome
  unsigned : n.signed? = none
  first_same : a.toDouble.same n.toDouble
  second_same : c.toDouble.same n.toDouble

theorem same_iff : a.toDouble.same b.toDouble ↔ a.rounded = b.rounded := beq_iff_eq

theorem Blurs.compare_first (h : b.Blurs a c) : a.compare b = .eq := by
  rw [compare_rounded (.inr h.unsigned), Std.LawfulEqCmp.compare_eq_iff_eq]
  exact same_iff.mp h.first_same

theorem Blurs.compare_second (h : b.Blurs a c) : b.compare c = .eq := by
  rw [compare_rounded (.inl h.unsigned), Std.LawfulEqCmp.compare_eq_iff_eq]
  exact (same_iff.mp h.second_same).symm

/-- Only a number that blurs two integers stands between two numbers in the opposite order. -/
theorem compare_le_trans_or_blurs (hab : (a.compare b).isLE) (hbc : (b.compare c).isLE) :
    (a.compare c).isLE ∨ b.Blurs a c := by
  have hfirst := rounded_le_of_compare hab
  have hsecond := rounded_le_of_compare hbc
  cases ha : a.signed? with
  | none => exact .inl (compare_rounded (.inl ha) ▸ Int.isLE_compare.mpr (hfirst.trans hsecond))
  | some i =>
    cases hc : c.signed? with
    | none => exact .inl (compare_rounded (.inr hc) ▸ Int.isLE_compare.mpr (hfirst.trans hsecond))
    | some j =>
      rw [compare_signed ha hc, Int.isLE_compare]
      cases hb : b.signed? with
      | some k =>
        rw [compare_signed ha hb, Int.isLE_compare] at hab
        rw [compare_signed hb hc, Int.isLE_compare] at hbc
        exact .inl (hab.trans hbc)
      | none =>
        rcases le_or_gt i j with hle | hlt
        · exact .inl hle
        · -- The roundings come in the order of the integers too, so all three are one.
          have hthird := rounded_mono hc ha hlt.le
          exact .inr ⟨by rw [ha]; rfl, by rw [hc]; rfl, hb, same_iff.mpr (by omega), same_iff.mpr (by omega)⟩

theorem Blurs.compare_eq_iff (h : b.Blurs a c) : a.compare c = .eq ↔ a = c := by
  obtain ⟨i, ha⟩ := Option.isSome_iff_exists.mp h.first
  obtain ⟨j, hc⟩ := Option.isSome_iff_exists.mp h.second
  rw [compare_signed ha hc, Std.LawfulEqCmp.compare_eq_iff_eq, eq_integer_of_signed? ha,
    eq_integer_of_signed? hc, integer.injEq]

end Number

namespace Json

variable {a b c : Json} {as bs cs : List Json} {S : Set Json} {columns : List (Set Json)}

/-- The value is a number that is no signed integer, and two signed integers round to it. -/
def Blurs (b a c : Json) : Prop :=
  ∃ n x y : Number, b = .number n ∧ a = .number x ∧ c = .number y ∧ n.Blurs x y

theorem Blurs.symm (h : b.Blurs a c) : b.Blurs c a := by
  obtain ⟨n, x, y, hb, ha, hc, hblurs⟩ := h
  exact ⟨n, y, x, hb, hc, ha, hblurs.second, hblurs.first, hblurs.unsigned, hblurs.second_same,
    hblurs.first_same⟩

theorem Blurs.compare_first (h : b.Blurs a c) : compare a b = .eq := by
  obtain ⟨n, x, y, rfl, rfl, rfl, hblurs⟩ := h
  exact hblurs.compare_first

theorem Blurs.compare_second (h : b.Blurs a c) : compare b c = .eq := by
  obtain ⟨n, x, y, rfl, rfl, rfl, hblurs⟩ := h
  exact hblurs.compare_second

theorem Blurs.compare_eq_iff (h : b.Blurs a c) : compare a c = .eq ↔ a = c := by
  obtain ⟨n, x, y, rfl, rfl, rfl, hblurs⟩ := h
  rw [compare, hblurs.compare_eq_iff, number.injEq]

theorem rank_le_of_isLE (h : (compare a b).isLE) : a.rank ≤ b.rank := by
  by_cases hrank : a.rank = b.rank
  · exact hrank.le
  · rw [compare_of_rank_ne hrank] at h
    exact Nat.isLE_compare.mp h

theorem compare_le_trans_or_blurs (hab : (compare a b).isLE) (hbc : (compare b c).isLE) :
    (compare a c).isLE ∨ b.Blurs a c := by
  have hfirst := rank_le_of_isLE hab
  have hsecond := rank_le_of_isLE hbc
  by_cases hrank : a.rank = c.rank
  · -- All three are of one rank, and there of one form.
    have hrank' : a.rank = b.rank := by omega
    cases a <;> cases b <;> simp [rank] at hrank' <;> cases c <;> simp [rank] at hrank
    case number.number.number a b c =>
      exact (Number.compare_le_trans_or_blurs hab hbc).imp_right fun h => ⟨b, a, c, rfl, rfl, rfl, h⟩
    all_goals exact .inl (Std.TransOrd.isLE_trans hab hbc)
  · rw [compare_of_rank_ne hrank]
    exact .inl (Nat.isLE_compare.mpr (hfirst.trans hsecond))

/-- The order of values is transitive at three of them unless the middle one blurs the others, which come
in the opposite order. -/
theorem isLE_trans_iff (a b c : Json) : ((compare a b).isLE → (compare b c).isLE → (compare a c).isLE) ↔
    ¬ (b.Blurs a c ∧ compare a c = .gt) := by
  constructor
  · rintro htrans ⟨hblurs, hgt⟩
    have hle := htrans (by rw [hblurs.compare_first]; rfl) (by rw [hblurs.compare_second]; rfl)
    rw [hgt] at hle
    contradiction
  · intro hnot hab hbc
    rcases compare_le_trans_or_blurs hab hbc with hle | hblurs
    · exact hle
    · by_contra hgt
      exact hnot ⟨hblurs, by simpa using hgt⟩

/-- Equality under the order is transitive at three values unless the middle one blurs the others, which
differ. -/
theorem eq_trans_iff (a b c : Json) : (compare a b = .eq → compare b c = .eq → compare a c = .eq) ↔
    (b.Blurs a c → a = c) := by
  constructor
  · intro htrans hblurs
    exact hblurs.compare_eq_iff.mp (htrans hblurs.compare_first hblurs.compare_second)
  · intro hsharp hab hbc
    rcases compare_le_trans_or_blurs (a := a) (b := b) (c := c) (by rw [hab]; rfl) (by rw [hbc]; rfl) with
      hac | hblurs
    · rcases compare_le_trans_or_blurs (a := c) (b := b) (c := a) (by rw [compare_swap, hbc]; rfl)
        (by rw [compare_swap, hab]; rfl) with hca | hblurs
      · rw [compare_swap, Ordering.isLE_swap] at hca
        exact Ordering.eq_eq_of_isLE_of_isGE hac hca
      · rw [hsharp hblurs.symm]
        exact compare_self c
    · rw [hsharp hblurs]
      exact compare_self c

/-! ### Tuples -/

/-- No value of the collection blurs two others that differ. -/
def Sharp (S : Set Json) : Prop := ∀ a ∈ S, ∀ b ∈ S, ∀ c ∈ S, b.Blurs a c → a = c

/-- The values of a tuple are in the collections of its columns. -/
abbrev InColumns (columns : List (Set Json)) (tuple : List Json) : Prop :=
  List.Forall₂ (fun S v => v ∈ S) columns tuple

theorem compareTuples_cons (a b : Json) (as bs : List Json) :
    compareTuples (a :: as) (b :: bs) = (compare a b).then (compareTuples as bs) := by
  rw [compareTuples]
  cases compare a b <;> rfl

/-- On a collection that blurs nothing the order of values is transitive. -/
theorem Sharp.transCmp (h : Sharp S) : Std.TransCmp fun a b : S => compare a b where
  eq_swap := compare_swap _ _
  isLE_trans {a b c} := (isLE_trans_iff a b c).mpr fun ⟨hblurs, hgt⟩ => by
    rw [h a a.2 b b.2 c c.2 hblurs, compare_self] at hgt
    contradiction

theorem compareTuples_isLE_trans (hsharp : ∀ S ∈ columns, Sharp S) (ha : InColumns columns as)
    (hb : InColumns columns bs) (hc : InColumns columns cs) (hab : (compareTuples as bs).isLE)
    (hbc : (compareTuples bs cs).isLE) : (compareTuples as cs).isLE := by
  induction columns generalizing as bs cs with
  | nil =>
    obtain rfl := List.forall₂_nil_left_iff.mp ha
    obtain rfl := List.forall₂_nil_left_iff.mp hc
    rfl
  | cons S columns ih =>
    obtain ⟨hS, hcolumns⟩ := List.forall_mem_cons.mp hsharp
    obtain ⟨a, as, haS, has, rfl⟩ := List.forall₂_cons_left_iff.mp ha
    obtain ⟨b, bs, hbS, hbs, rfl⟩ := List.forall₂_cons_left_iff.mp hb
    obtain ⟨c, cs, hcS, hcs, rfl⟩ := List.forall₂_cons_left_iff.mp hc
    -- As values of the collection, over which the order is transitive.
    let first : S := ⟨a, haS⟩
    let second : S := ⟨b, hbS⟩
    let third : S := ⟨c, hcS⟩
    have hvalues := hS.transCmp
    rw [compareTuples_cons, Ordering.isLE_then_iff_and] at hab hbc ⊢
    -- The first values of the outer two are ordered, properly if those of either pair are.
    refine ⟨hvalues.isLE_trans (a := first) (b := second) (c := third) hab.1 hbc.1, ?_⟩
    rcases hab.2 with hlt | hrest
    · exact .inl (hvalues.lt_of_lt_of_isLE (a := first) (b := second) (c := third) hlt hbc.1)
    · rcases hbc.2 with hlt | hrest'
      · exact .inl (hvalues.lt_of_isLE_of_lt (a := first) (b := second) (c := third) hab.1 hlt)
      · exact .inr (ih hcolumns has hbs hcs hrest hrest')

theorem compareTuples_eq_trans (hsharp : ∀ S ∈ columns, Sharp S) (ha : InColumns columns as)
    (hb : InColumns columns bs) (hc : InColumns columns cs) (hab : compareTuples as bs = .eq)
    (hbc : compareTuples bs cs = .eq) : compareTuples as cs = .eq := by
  have hac := compareTuples_isLE_trans hsharp ha hb hc (by rw [hab]; rfl) (by rw [hbc]; rfl)
  have hca := compareTuples_isLE_trans hsharp hc hb ha (by rw [compareTuples_swap, hbc]; rfl)
    (by rw [compareTuples_swap, hab]; rfl)
  rw [compareTuples_swap, Ordering.isLE_swap] at hca
  exact Ordering.eq_eq_of_isLE_of_isGE hac hca

/-- Tuples that differ in one value only compare by it. -/
theorem compareTuples_around (front back : List Json) (a b : Json) :
    compareTuples (front ++ a :: back) (front ++ b :: back) = compare a b := by
  induction front with
  | nil => rw [List.nil_append, List.nil_append, compareTuples_cons, compareTuples_self, Ordering.then_eq]
  | cons first front ih => rw [List.cons_append, List.cons_append, compareTuples_cons, compare_self, ih]; rfl

theorem exists_inColumns (h : ∀ S ∈ columns, S.Nonempty) : ∃ tuple, InColumns columns tuple := by
  induction columns with
  | nil => exact ⟨[], .nil⟩
  | cons S columns ih =>
    obtain ⟨⟨value, hvalue⟩, hcolumns⟩ := List.forall_mem_cons.mp h
    obtain ⟨rest, hrest⟩ := ih hcolumns
    exact ⟨value :: rest, .cons hvalue hrest⟩

/-- Any value of a column stands in tuples that are the same elsewhere. -/
theorem exists_tuples_around (h : ∀ S ∈ columns, S.Nonempty) (hS : S ∈ columns) :
    ∃ front back, ∀ v ∈ S, InColumns columns (front ++ v :: back) := by
  induction columns with
  | nil => simp at hS
  | cons first columns ih =>
    obtain ⟨⟨value, hvalue⟩, hcolumns⟩ := List.forall_mem_cons.mp h
    rcases List.mem_cons.mp hS with rfl | hS
    · obtain ⟨back, hback⟩ := exists_inColumns hcolumns
      exact ⟨[], back, fun v hv => .cons hv hback⟩
    · obtain ⟨front, back, haround⟩ := ih hcolumns hS
      exact ⟨value :: front, back, fun v hv => .cons hvalue (haround v hv)⟩

/-- A collection on which the order is transitive blurs nothing. -/
theorem sharp_of_isLE_trans
    (h : ∀ a ∈ S, ∀ b ∈ S, ∀ c ∈ S, (compare a b).isLE → (compare b c).isLE → (compare a c).isLE) :
    Sharp S := by
  intro a ha b hb c hc hblurs
  have hac := h a ha b hb c hc (by rw [hblurs.compare_first]; rfl) (by rw [hblurs.compare_second]; rfl)
  have hca := h c hc b hb a ha (by rw [hblurs.symm.compare_first]; rfl)
    (by rw [hblurs.symm.compare_second]; rfl)
  rw [compare_swap, Ordering.isLE_swap] at hca
  exact hblurs.compare_eq_iff.mp (Ordering.eq_eq_of_isLE_of_isGE hac hca)

/-- **The order of values is a total preorder up to blurred integers.**  It may be turned round, and every
value is equal to itself.  It is transitive at three values unless the middle one is a number that is no
signed integer of 64 bits and the outer ones are two different such integers which round to its value.
The order of tuples is transitive on tuples of the same columns exactly if no column has such values. -/
theorem compare_preorder_iff (columns : List (Set Json)) (h : ∀ S ∈ columns, S.Nonempty) :
    (∀ a b : Json, compare a b = (compare b a).swap) ∧ (∀ a : Json, compare a a = .eq) ∧
      (∀ a b c : Json, ((compare a b).isLE → (compare b c).isLE → (compare a c).isLE) ↔
        ¬ (b.Blurs a c ∧ compare a c = .gt)) ∧
      (∀ a b c : Json, (compare a b = .eq → compare b c = .eq → compare a c = .eq) ↔
        (b.Blurs a c → a = c)) ∧
      (∀ as bs, compareTuples as bs = (compareTuples bs as).swap) ∧
      (∀ as, compareTuples as as = .eq) ∧
      ((∀ as bs cs, InColumns columns as → InColumns columns bs → InColumns columns cs →
          (compareTuples as bs).isLE → (compareTuples bs cs).isLE → (compareTuples as cs).isLE) ↔
        ∀ S ∈ columns, Sharp S) ∧
      ((∀ as bs cs, InColumns columns as → InColumns columns bs → InColumns columns cs →
          compareTuples as bs = .eq → compareTuples bs cs = .eq → compareTuples as cs = .eq) ↔
        ∀ S ∈ columns, Sharp S) := by
  refine ⟨compare_swap, compare_self, isLE_trans_iff, eq_trans_iff, compareTuples_swap,
    compareTuples_self, ⟨?_, ?_⟩, ⟨?_, ?_⟩⟩
  · intro htrans S hS
    obtain ⟨front, back, haround⟩ := exists_tuples_around h hS
    refine sharp_of_isLE_trans fun a ha b hb c hc => ?_
    have := htrans _ _ _ (haround a ha) (haround b hb) (haround c hc)
    simpa only [compareTuples_around] using this
  · exact fun hsharp as bs cs ha hb hc => compareTuples_isLE_trans hsharp ha hb hc
  · intro htrans S hS
    obtain ⟨front, back, haround⟩ := exists_tuples_around h hS
    intro a ha b hb c hc
    have := htrans _ _ _ (haround a ha) (haround b hb) (haround c hc)
    simp only [compareTuples_around] at this
    exact (eq_trans_iff a b c).mp this
  · exact fun hsharp as bs cs ha hb hc => compareTuples_eq_trans hsharp ha hb hc

/-- The least integer that binary64 does not have, the integer below it, and that one in binary64. -/
def oddInteger : Json := .ofNat (2 ^ 53 + 1)
def evenInteger : Json := .ofNat (2 ^ 53)
def evenDouble : Json := .number (.double (.ofInt (2 ^ 53)))

theorem blurs_evenDouble : evenDouble.Blurs oddInteger evenInteger :=
  ⟨_, _, _, rfl, rfl, rfl, rfl, rfl, rfl, by decide +kernel, by decide +kernel⟩

/-- A column that has the three values, behind one of texts. -/
theorem compare_preorder_iff_of_powers :
    (∀ S ∈ [{v | ∃ text, v = string text}, ({oddInteger, evenDouble, evenInteger} : Set Json)], S.Nonempty) ∧
      ¬ ∀ as bs cs,
        InColumns [{v | ∃ text, v = string text}, {oddInteger, evenDouble, evenInteger}] as →
        InColumns [{v | ∃ text, v = string text}, {oddInteger, evenDouble, evenInteger}] bs →
        InColumns [{v | ∃ text, v = string text}, {oddInteger, evenDouble, evenInteger}] cs →
          (compareTuples as bs).isLE → (compareTuples bs cs).isLE → (compareTuples as cs).isLE := by
  have hnonempty : ∀ S ∈ [{v | ∃ text, v = string text},
      ({oddInteger, evenDouble, evenInteger} : Set Json)], S.Nonempty := by
    simpa using ⟨string "", "", rfl⟩
  obtain ⟨-, -, -, -, -, -, htuples, -⟩ := compare_preorder_iff _ hnonempty
  refine ⟨hnonempty, fun htrans => ?_⟩
  have hsharp := htuples.mp htrans _ (List.mem_cons_of_mem _ List.mem_cons_self)
  have heq := hsharp oddInteger (by simp) evenDouble (by simp) evenInteger (by simp) blurs_evenDouble
  have hne : compare oddInteger evenInteger ≠ .eq := by decide
  exact hne (heq ▸ compare_self oddInteger)

/-- The odd integer is equal to the double, the double is equal to the even integer, and the odd integer
comes after the even one. -/
theorem compare_not_transitive : ¬ ∀ a b c : Json,
    (compare a b).isLE → (compare b c).isLE → (compare a c).isLE := by
  intro htrans
  have hle := htrans oddInteger evenDouble evenInteger (by rw [blurs_evenDouble.compare_first]; rfl)
    (by rw [blurs_evenDouble.compare_second]; rfl)
  revert hle
  decide

end Json

end DocSync
