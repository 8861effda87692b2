import DocSync.Document.Identity
import DocSync.Proofs.Json.Text
import Mathlib.Data.List.Forall2

/-!
Values of one kind.  Among the texts, and among the integers of 64 bits, the loose equality of values,
the order of values and the identities that values give all agree with equality.
-/

namespace DocSync

/-- What the values of a comparable column are: texts, or signed integers of 64 bits. -/
inductive ValueKind where
  | text
  | integer
deriving DecidableEq

/-- The value is of the kind; null is of neither. -/
def ValueKind.Has : ValueKind → Json → Prop
  | text, v => ∃ s, v = .string s
  | integer, v => ∃ i : Int, v = .number (.integer i) ∧ i < (1 <<< 63 : Nat)

/-- The value is null or of the kind. -/
def ValueKind.Admits (kind : ValueKind) (v : Json) : Prop := v.isNull = false → kind.Has v

namespace ValueKind

variable {kind : ValueKind} {a b c : Json}

/-- Whether a value is of the kind. -/
def test : ValueKind → Json → Bool
  | text, .string _ => true
  | integer, .number (.integer i) => i < (1 <<< 63 : Nat)
  | _, _ => false

theorem test_iff : kind.test a ↔ kind.Has a := by
  cases kind with
  | text => cases a <;> simp [test, Has]
  | integer =>
    cases a with
    | number n => cases n <;> simp [test, Has]
    | _ => simp [test, Has]

instance : Decidable (kind.Has a) := decidable_of_iff _ test_iff

instance : Decidable (kind.Admits a) := inferInstanceAs (Decidable (_ → _))

theorem Has.isNull (h : kind.Has a) : a.isNull = false := by
  cases kind with
  | text =>
    obtain ⟨s, rfl⟩ := h
    rfl
  | integer =>
    obtain ⟨i, rfl, -⟩ := h
    rfl

theorem compare_integers {i j : Int} (hi : i < (1 <<< 63 : Nat)) (hj : j < (1 <<< 63 : Nat)) :
    Json.compare (.number (.integer i)) (.number (.integer j)) = Ord.compare i j := by
  have hi' : Number.signed? (.integer i) = some i := if_pos hi
  have hj' : Number.signed? (.integer j) = some j := if_pos hj
  simp only [Json.compare, Number.compare, hi', hj']

theorem Has.compare_eq_iff (ha : kind.Has a) (hb : kind.Has b) :
    Json.compare a b = .eq ↔ a = b := by
  cases kind with
  | text =>
    obtain ⟨s, rfl⟩ := ha
    obtain ⟨t, rfl⟩ := hb
    rw [Json.compare, Std.LawfulEqCmp.compare_eq_iff_eq, Json.string.injEq]
  | integer =>
    obtain ⟨i, rfl, hi⟩ := ha
    obtain ⟨j, rfl, hj⟩ := hb
    rw [compare_integers hi hj, Std.LawfulEqCmp.compare_eq_iff_eq, Json.number.injEq,
      Number.integer.injEq]

theorem Has.compare_lt_trans (ha : kind.Has a) (hb : kind.Has b) (hc : kind.Has c)
    (hab : Json.compare a b = .lt) (hbc : Json.compare b c = .lt) : Json.compare a c = .lt := by
  cases kind with
  | text =>
    obtain ⟨s, rfl⟩ := ha
    obtain ⟨t, rfl⟩ := hb
    obtain ⟨u, rfl⟩ := hc
    rw [Json.compare] at hab hbc ⊢
    exact Std.TransCmp.lt_trans hab hbc
  | integer =>
    obtain ⟨i, rfl, hi⟩ := ha
    obtain ⟨j, rfl, hj⟩ := hb
    obtain ⟨k, rfl, hk⟩ := hc
    rw [compare_integers hi hj] at hab
    rw [compare_integers hj hk] at hbc
    rw [compare_integers hi hk]
    exact Std.TransCmp.lt_trans hab hbc

theorem Has.admits (h : kind.Has a) : kind.Admits a := fun _ => h

theorem Admits.eq_null_or_has (h : kind.Admits a) : a = .null ∨ kind.Has a := by
  cases hnull : a.isNull with
  | true => exact .inl (by cases a <;> first | rfl | simp [Json.isNull] at hnull)
  | false => exact .inr (h hnull)

theorem Has.compare_null (h : kind.Has a) : Json.compare a .null = .gt := by
  cases kind with
  | text =>
    obtain ⟨s, rfl⟩ := h
    rfl
  | integer =>
    obtain ⟨i, rfl, -⟩ := h
    rfl

theorem Has.null_compare (h : kind.Has a) : Json.compare .null a = .lt := by
  cases kind with
  | text =>
    obtain ⟨s, rfl⟩ := h
    rfl
  | integer =>
    obtain ⟨i, rfl, -⟩ := h
    rfl

theorem Admits.compare_eq_iff (ha : kind.Admits a) (hb : kind.Admits b) :
    Json.compare a b = .eq ↔ a = b := by
  obtain rfl | ha := ha.eq_null_or_has <;> obtain rfl | hb := hb.eq_null_or_has
  · exact iff_of_true rfl rfl
  · rw [hb.null_compare]
    exact iff_of_false (by decide) fun heq => absurd hb.isNull (by simp [← heq, Json.isNull])
  · rw [ha.compare_null]
    exact iff_of_false (by decide) fun heq => absurd ha.isNull (by simp [heq, Json.isNull])
  · exact ha.compare_eq_iff hb

theorem Admits.compare_lt_trans (ha : kind.Admits a) (hb : kind.Admits b) (hc : kind.Admits c)
    (hab : Json.compare a b = .lt) (hbc : Json.compare b c = .lt) : Json.compare a c = .lt := by
  obtain rfl | hc := hc.eq_null_or_has
  · obtain rfl | hb := hb.eq_null_or_has
    · exact hab
    · rw [hb.compare_null] at hbc
      contradiction
  · obtain rfl | ha := ha.eq_null_or_has
    · exact hc.null_compare
    · obtain rfl | hb := hb.eq_null_or_has
      · rw [ha.compare_null] at hab
        contradiction
      · exact ha.compare_lt_trans hb hc hab hbc

theorem Has.sqlMatches_iff (ha : kind.Has a) (hb : kind.Has b) : a.sqlMatches b ↔ a = b := by
  have hcompare := ha.compare_eq_iff hb
  cases kind with
  | text =>
    obtain ⟨s, rfl⟩ := ha
    obtain ⟨t, rfl⟩ := hb
    rw [← hcompare]
    simp [Json.sqlMatches, Json.isNull, Json.scalarText?]
  | integer =>
    obtain ⟨i, rfl, -⟩ := ha
    obtain ⟨j, rfl, -⟩ := hb
    rw [← hcompare]
    simp [Json.sqlMatches, Json.isNull]

theorem Admits.sqlMatches_iff (ha : kind.Admits a) (hb : kind.Has b) : a.sqlMatches b ↔ a = b := by
  cases hnull : a.isNull with
  | false => exact (ha hnull).sqlMatches_iff hb
  | true =>
    refine iff_of_false (by simp [Json.sqlMatches, hnull]) fun heq => ?_
    rw [heq, hb.isNull] at hnull
    contradiction

/-- A value of a kind is known by its text. -/
theorem Has.eq_of_render_eq (ha : kind.Has a) (h : a.render = b.render) : a = b := by
  have hkind : a.kind = b.kind := by
    refine Json.kind_eq_of_append_eq (s := []) (t := []) ?_
    rw [h]
  cases kind with
  | text =>
    obtain ⟨s, rfl⟩ := ha
    cases b with
    | string t =>
      rw [Json.render, Json.render] at h
      rw [Json.renderString_inj h]
    | bool value => cases value <;> simp [Json.kind] at hkind
    | _ => simp [Json.kind] at hkind
  | integer =>
    obtain ⟨i, rfl, -⟩ := ha
    cases b with
    | number n =>
      rw [Json.render, Json.render] at h
      cases n with
      | integer j => rw [Number.render_inj (a := .integer i) (b := .integer j) trivial trivial h]
      | double d => exact absurd h (Number.render_integer_ne_double i d)
    | bool value => cases value <;> simp [Json.kind] at hkind
    | _ => simp [Json.kind] at hkind

theorem Has.part_inj (ha : kind.Has a) (hb : kind.Has b) (h : Identity.part a = Identity.part b) :
    a = b := by
  cases kind with
  | text =>
    obtain ⟨s, rfl⟩ := ha
    obtain ⟨t, rfl⟩ := hb
    exact congrArg Json.string h
  | integer =>
    refine ha.eq_of_render_eq ?_
    obtain ⟨i, rfl, -⟩ := ha
    obtain ⟨j, rfl, -⟩ := hb
    exact h

/-- A value matches the text of an identity exactly when it gives this identity. -/
theorem Has.sqlMatches_string_iff (ha : kind.Has a) (text : String) :
    a.sqlMatches (.string text) ↔ Identity.part a = text := by
  cases kind with
  | text =>
    obtain ⟨s, rfl⟩ := ha
    have htext : Json.compare (.string s) (.string text) = .eq ↔ s = text := by
      rw [Json.compare, Std.LawfulEqCmp.compare_eq_iff_eq]
    rw [Identity.part, ← htext]
    simp [Json.sqlMatches, Json.isNull, Json.scalarText?]
  | integer =>
    obtain ⟨i, rfl, -⟩ := ha
    simp [Json.sqlMatches, Json.isNull, Json.scalarText?, Identity.part, Json.render]

/-- The kind of the values of a rank that are comparable. -/
def ofRank (rank : Nat) : ValueKind := if rank = (Json.string "").rank then text else integer

end ValueKind

/-! ### Values of any kind -/

namespace Json

/-- The value is null, a text, or a signed integer of 64 bits. -/
def IsComparable (v : Json) : Prop := ∃ kind : ValueKind, kind.Admits v

variable {a b c : Json} {as bs cs : List Json}

theorem IsComparable.admits (h : a.IsComparable) : (ValueKind.ofRank a.rank).Admits a := by
  obtain ⟨kind, hkind⟩ := h
  obtain rfl | hhas := hkind.eq_null_or_has
  · exact fun hnull => absurd hnull (by simp [isNull])
  cases kind with
  | text =>
    obtain ⟨s, rfl⟩ := hhas
    exact hkind
  | integer =>
    obtain ⟨i, rfl, -⟩ := hhas
    exact hkind

theorem compare_of_rank_ne (h : a.rank ≠ b.rank) : a.compare b = Ord.compare a.rank b.rank := by
  cases a <;> cases b <;> first | rfl | exact absurd rfl h

/-- What comes first is not of a later rank. -/
theorem rank_le_of_compare (h : a.compare b = .lt) : a.rank ≤ b.rank := by
  by_cases hrank : a.rank = b.rank
  · exact hrank.le
  · rw [compare_of_rank_ne hrank] at h
    exact (Nat.compare_eq_lt.mp h).le

theorem IsComparable.compare_eq_iff (ha : a.IsComparable) (hb : b.IsComparable) :
    a.compare b = .eq ↔ a = b := by
  by_cases hrank : a.rank = b.rank
  · exact ha.admits.compare_eq_iff (hrank ▸ hb.admits)
  · rw [compare_of_rank_ne hrank, Std.LawfulEqCmp.compare_eq_iff_eq]
    exact iff_of_false hrank fun heq => hrank (congrArg rank heq)

theorem IsComparable.compare_lt_trans (ha : a.IsComparable) (hb : b.IsComparable)
    (hc : c.IsComparable) (hab : a.compare b = .lt) (hbc : b.compare c = .lt) :
    a.compare c = .lt := by
  have hfirst := rank_le_of_compare hab
  have hsecond := rank_le_of_compare hbc
  by_cases hrank : a.rank = c.rank
  · have hrank' : a.rank = b.rank := by omega
    exact ha.admits.compare_lt_trans (hrank' ▸ hb.admits) (hrank ▸ hc.admits) hab hbc
  · rw [compare_of_rank_ne hrank]
    exact Nat.compare_eq_lt.mpr (by omega)

theorem compareTuples_eq_iff (ha : ∀ v ∈ as, v.IsComparable) (hb : ∀ v ∈ bs, v.IsComparable) :
    compareTuples as bs = .eq ↔ as = bs := by
  induction as generalizing bs with
  | nil => cases bs <;> simp [compareTuples]
  | cons a as ih =>
    cases bs with
    | nil => simp [compareTuples]
    | cons b bs =>
      obtain ⟨ha, has⟩ := List.forall_mem_cons.mp ha
      obtain ⟨hb, hbs⟩ := List.forall_mem_cons.mp hb
      have hfirst := ha.compare_eq_iff hb
      have hothers := ih has hbs
      rw [compareTuples, List.cons.injEq, ← hfirst, ← hothers]
      split
      · rename_i heq
        simp [heq]
      · rename_i hne
        exact iff_of_false hne fun h => hne h.1

theorem compareTuples_lt_trans (ha : ∀ v ∈ as, v.IsComparable) (hb : ∀ v ∈ bs, v.IsComparable)
    (hc : ∀ v ∈ cs, v.IsComparable) (hab : compareTuples as bs = .lt)
    (hbc : compareTuples bs cs = .lt) : compareTuples as cs = .lt := by
  induction as generalizing bs cs with
  | nil =>
    cases cs with
    | nil => cases bs <;> simp [compareTuples] at hab hbc
    | cons c cs => rfl
  | cons a as ih =>
    obtain _ | ⟨b, bs⟩ := bs
    · simp [compareTuples] at hab
    obtain _ | ⟨c, cs⟩ := cs
    · simp [compareTuples] at hbc
    obtain ⟨ha, has⟩ := List.forall_mem_cons.mp ha
    obtain ⟨hb, hbs⟩ := List.forall_mem_cons.mp hb
    obtain ⟨hc, hcs⟩ := List.forall_mem_cons.mp hc
    rw [compareTuples] at hab hbc ⊢
    -- the first difference of the outer two is the earlier of the two first differences
    split at hab
    · rename_i heq
      obtain rfl := (ha.compare_eq_iff hb).mp heq
      split at hbc
      · exact ih has hbs hcs hab hbc
      · rw [hbc]
    · split at hbc
      · rename_i heq
        obtain rfl := (hb.compare_eq_iff hc).mp heq
        rw [hab]
      · rw [ha.compare_lt_trans hb hc hab hbc]

end Json

namespace ValueKind

variable {kind : ValueKind} {a b c : Json}

/-! ### Tuples -/

/-- The values of a tuple are of the kinds of its columns. -/
abbrev HasAll (kinds : List ValueKind) (tuple : List Json) : Prop := List.Forall₂ Has kinds tuple

/-- The values of a tuple are null or of the kinds of its columns. -/
abbrev AdmitsAll (kinds : List ValueKind) (tuple : List Json) : Prop := List.Forall₂ Admits kinds tuple

variable {kinds : List ValueKind} {as bs cs : List Json}

/-- A tuple without nulls whose columns admit kinds has these kinds. -/
theorem hasAll_of_admits {tuple : List Json}
    (h : List.Forall₂ Admits kinds tuple) (hnull : tuple.any Json.isNull = false) :
    HasAll kinds tuple := by
  induction h with
  | nil => exact .nil
  | cons hfirst _ ih =>
    rw [List.any_cons, Bool.or_eq_false_iff] at hnull
    exact .cons (hfirst hnull.1) (ih hnull.2)

theorem HasAll.admits (h : HasAll kinds as) : AdmitsAll kinds as := h.imp fun _ _ => Has.admits

theorem HasAll.any_isNull (h : HasAll kinds as) : as.any Json.isNull = false := by
  induction h with
  | nil => rfl
  | cons hfirst _ ih => rw [List.any_cons, hfirst.isNull, ih, Bool.or_false]

theorem exists_has_of_mem (ha : HasAll kinds as) (hv : a ∈ as) : ∃ kind : ValueKind, kind.Has a := by
  induction ha with
  | nil => simp at hv
  | cons hfirst _ ih =>
    rcases List.mem_cons.mp hv with rfl | hv
    · exact ⟨_, hfirst⟩
    · exact ih hv

theorem isComparable_of_admitsAll (h : AdmitsAll kinds as) : ∀ v ∈ as, v.IsComparable := by
  induction h with
  | nil => simp
  | cons hfirst _ ih => exact List.forall_mem_cons.mpr ⟨⟨_, hfirst⟩, ih⟩

theorem compareTuples_eq_iff (ha : AdmitsAll kinds as) (hb : AdmitsAll kinds bs) :
    Json.compareTuples as bs = .eq ↔ as = bs :=
  Json.compareTuples_eq_iff (isComparable_of_admitsAll ha) (isComparable_of_admitsAll hb)

theorem compareTuples_lt_trans (ha : AdmitsAll kinds as) (hb : AdmitsAll kinds bs)
    (hc : AdmitsAll kinds cs) (hab : Json.compareTuples as bs = .lt) (hbc : Json.compareTuples bs cs = .lt) :
    Json.compareTuples as cs = .lt :=
  Json.compareTuples_lt_trans (isComparable_of_admitsAll ha) (isComparable_of_admitsAll hb)
    (isComparable_of_admitsAll hc) hab hbc

/-- One tuple does not come after another. -/
theorem compareTuples_le_trans (ha : AdmitsAll kinds as) (hb : AdmitsAll kinds bs)
    (hc : AdmitsAll kinds cs) (hab : Json.compareTuples as bs ≠ .gt) (hbc : Json.compareTuples bs cs ≠ .gt) :
    Json.compareTuples as cs ≠ .gt := by
  cases hfirst : Json.compareTuples as bs with
  | eq =>
    obtain rfl := (compareTuples_eq_iff ha hb).mp hfirst
    exact hbc
  | lt =>
    cases hsecond : Json.compareTuples bs cs with
    | eq =>
      obtain rfl := (compareTuples_eq_iff hb hc).mp hsecond
      exact hab
    | lt =>
      rw [compareTuples_lt_trans ha hb hc hfirst hsecond]
      decide
    | gt => exact absurd hsecond hbc
  | gt => exact absurd hfirst hab

theorem compareTuples_le_antisymm (ha : AdmitsAll kinds as) (hb : AdmitsAll kinds bs)
    (hab : Json.compareTuples as bs ≠ .gt) (hba : Json.compareTuples bs as ≠ .gt) : as = bs := by
  rw [Json.compareTuples_swap as bs] at hab
  refine (compareTuples_eq_iff hb ha).mp ?_ |>.symm
  cases h : Json.compareTuples bs as with
  | eq => rfl
  | lt => simp [h] at hab
  | gt => exact absurd h hba

end ValueKind

end DocSync
