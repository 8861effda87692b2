import DocSync.Change.Coalesce
import Mathlib.Data.List.Induction
import Mathlib.Tactic.ByContra

/-!
What coalescing keeps.  Of the records about one row the last one stays, with the latest old key that
any of them had.  So every key that some record has is still named afterwards, while an old key is
named exactly when no later record about the same row brought an old key of its own.
-/

namespace DocSync

namespace ChangeRecord

/-- The row that a record says was left: that of its old key. -/
def leftName? (plan : Plan) (r : ChangeRecord) : Option RowName := do
  let columns ← plan.primaryKeyOf? r.table
  let old ← r.oldKey
  return (r.table, Identity.ofKey (old.tuple columns))

/-- Every row that a record names, by its key and by its old key. -/
def names (plan : Plan) (r : ChangeRecord) : List RowName :=
  (r.rowName? plan).toList ++ (r.leftName? plan).toList

variable {plan : Plan} {r : ChangeRecord} {name : RowName}

theorem mem_names : name ∈ r.names plan ↔ r.rowName? plan = some name ∨ r.leftName? plan = some name := by
  simp [names, Option.mem_toList]

@[simp] theorem rowName?_withOldKey (old : Option Row) :
    rowName? plan { r with oldKey := old } = r.rowName? plan := rfl

theorem leftName?_congr {s : ChangeRecord} (table : r.table = s.table) (old : r.oldKey = s.oldKey) :
    r.leftName? plan = s.leftName? plan := by
  simp [leftName?, table, old]

theorem leftName?_eq_none (h : r.oldKey = none) : r.leftName? plan = none := by
  simp [leftName?, h, Option.bind_eq_bind]

/-- A record with an old key is about a row. -/
theorem exists_of_leftName? (h : r.leftName? plan = some name) :
    ∃ row, r.rowName? plan = some row ∧ ∃ old, r.oldKey = some old := by
  obtain ⟨columns, hcolumns, h⟩ := Option.bind_eq_some_iff.mp h
  obtain ⟨old, hold, -⟩ := Option.bind_eq_some_iff.mp h
  exact ⟨_, by rw [rowName?, hcolumns]; rfl, old, hold⟩

/-- A record about a row belongs to the row's table. -/
theorem table_of_rowName? (h : r.rowName? plan = some name) : r.table = name.1 := by
  obtain ⟨columns, -, rfl⟩ := Option.map_eq_some_iff.mp h
  rfl

theorem carrying_some {p : ChangeRecord} :
    r.carrying (some p) = { r with oldKey := r.oldKey.or p.oldKey } := by
  obtain ⟨_, _, _, oldKey, _, _, _⟩ := r
  cases oldKey <;> rfl

theorem carrying_none : r.carrying none = r := by
  unfold carrying
  split
  · contradiction
  · rfl

end ChangeRecord

namespace Coalesce

/-- The records kept of a list, each with the row it is about. -/
def kept (plan : Plan) (records : List ChangeRecord) : List (RowName × ChangeRecord) :=
  records.foldl (add plan) []

/-- The records about one row. -/
def about (plan : Plan) (name : RowName) (records : List ChangeRecord) : List ChangeRecord :=
  records.filter (·.rowName? plan == some name)

/-- The latest old key among records. -/
def latestOldKey (records : List ChangeRecord) : Option Row := (records.filterMap (·.oldKey)).getLast?

variable {plan : Plan} {records : List ChangeRecord} {r s : ChangeRecord} {name other : RowName}

theorem kept_concat : kept plan (records ++ [r]) = add plan (kept plan records) r := by
  simp [kept]

theorem about_concat_of_ne (h : r.rowName? plan ≠ some name) :
    about plan name (records ++ [r]) = about plan name records := by
  simp [about, List.filter_append, h]

theorem about_concat (h : r.rowName? plan = some name) :
    about plan name (records ++ [r]) = about plan name records ++ [r] := by
  simp [about, List.filter_append, h]

theorem latestOldKey_concat : latestOldKey (records ++ [r]) = r.oldKey.or (latestOldKey records) := by
  cases h : r.oldKey <;> simp [latestOldKey, List.filterMap_append, h]

theorem add_of_none (h : r.rowName? plan = none) (entries : List (RowName × ChangeRecord)) :
    add plan entries r = entries := by
  simp [add, h]

theorem mem_add_of_ne {entries : List (RowName × ChangeRecord)} (h : r.rowName? plan = some other)
    (hne : name ≠ other) : (name, s) ∈ add plan entries r ↔ (name, s) ∈ entries := by
  simp [add, h, hne]

theorem mem_add_self {entries : List (RowName × ChangeRecord)} (h : r.rowName? plan = some name) :
    (name, s) ∈ add plan entries r ↔
      s = r.carrying ((entries.find? (·.1 == name)).map Prod.snd) := by
  simp [add, h]

/-- What is kept of the records about a row: the last of them, with their latest old key. -/
theorem mem_kept : (name, s) ∈ kept plan records ↔
    ∃ r, (about plan name records).getLast? = some r ∧
      s = { r with oldKey := latestOldKey (about plan name records) } := by
  induction records using List.reverseRecOn generalizing name s with
  | nil => simp [kept, about]
  | append_singleton before r ih =>
    rw [kept_concat]
    cases hr : r.rowName? plan with
    | none => rw [add_of_none hr, about_concat_of_ne (by simp [hr]), ih]
    | some other =>
      by_cases hne : name = other
      · subst hne
        rw [mem_add_self hr, about_concat hr, latestOldKey_concat]
        -- The entry found is the one that the records before `r` left, if there is any.
        cases hfind : (kept plan before).find? (·.1 == name) with
        | none =>
          have hnone : about plan name before = [] := by
            by_contra hsome
            have hlast := List.getLast?_eq_some_getLast hsome
            have := List.find?_eq_none.mp hfind _ (ih.mpr ⟨_, hlast, rfl⟩)
            simp at this
          simp only [hnone, Option.map_none, ChangeRecord.carrying_none, List.nil_append,
            List.getLast?_singleton, Option.some.injEq, exists_eq_left', latestOldKey,
            List.filterMap_nil, List.getLast?_nil, Option.or_none]
        | some entry =>
          obtain ⟨found, p⟩ := entry
          obtain rfl : found = name := by simpa using List.find?_some hfind
          obtain ⟨last, -, rfl⟩ := ih.mp (List.mem_of_find?_eq_some hfind)
          simp [ChangeRecord.carrying_some]
      · rw [mem_add_of_ne hr hne, about_concat_of_ne (by simpa [hr] using Ne.symm hne), ih]

theorem mem_about : r ∈ about plan name records ↔ r ∈ records ∧ r.rowName? plan = some name := by
  simp [about]

theorem table_of_getLast?_about (h : (about plan name records).getLast? = some r) :
    r.table = name.1 :=
  ChangeRecord.table_of_rowName? (mem_about.mp (List.mem_of_getLast? h)).2

theorem rowName?_of_mem_kept (h : (name, s) ∈ kept plan records) : s.rowName? plan = some name := by
  obtain ⟨r, hlast, rfl⟩ := mem_kept.mp h
  exact (mem_about.mp (List.mem_of_getLast? hlast)).2

/-- Something is kept of a row exactly when some record is about it. -/
theorem exists_mem_kept : (∃ s, (name, s) ∈ kept plan records) ↔
    ∃ r ∈ records, r.rowName? plan = some name := by
  constructor
  · rintro ⟨s, hs⟩
    obtain ⟨r, hlast, -⟩ := mem_kept.mp hs
    exact ⟨r, mem_about.mp (List.mem_of_getLast? hlast)⟩
  · rintro ⟨r, hr, hname⟩
    have hne : about plan name records ≠ [] := List.ne_nil_of_mem (mem_about.mpr ⟨hr, hname⟩)
    exact ⟨_, mem_kept.mpr ⟨_, List.getLast?_eq_some_getLast hne, rfl⟩⟩

/-- The latest old key of a row's records, by the place of the record that has it. -/
theorem latestOldKey_about {old : Row} : latestOldKey (about plan name records) = some old ↔
    ∃ before r after, records = before ++ r :: after ∧ r.rowName? plan = some name ∧
      r.oldKey = some old ∧ ∀ s ∈ after, s.rowName? plan = some name → s.oldKey = none := by
  have hfold : (about plan name records).filterMap (·.oldKey) =
      records.filterMap fun r => if r.rowName? plan = some name then r.oldKey else none := by
    rw [about, List.filterMap_filter]
    congr 1
    funext r
    by_cases h : r.rowName? plan = some name <;> simp [h]
  rw [latestOldKey, hfold, List.getLast?_eq_some_iff]
  constructor
  · rintro ⟨olds, holds⟩
    obtain ⟨front, back, rfl, -, hback⟩ := List.filterMap_eq_append_iff.mp holds
    obtain ⟨between, r, after, rfl, -, hr, hafter⟩ := List.filterMap_eq_cons_iff.mp hback
    have hname : r.rowName? plan = some name := by
      by_contra hne
      simp [hne] at hr
    refine ⟨front ++ between, r, after, by simp, hname, by simpa [hname] using hr, ?_⟩
    intro s hs hsname
    simpa [hsname] using List.filterMap_eq_nil_iff.mp hafter s hs
  · rintro ⟨before, r, after, rfl, hname, hold, hafter⟩
    refine ⟨_, List.filterMap_append.trans (congrArg _ ?_)⟩
    refine List.filterMap_eq_cons_iff.mpr ⟨[], r, after, rfl, by simp, by simp [hname, hold], ?_⟩
    refine List.filterMap_eq_nil_iff.mpr fun s hs => ?_
    by_cases hsname : s.rowName? plan = some name
    · simp [hsname, hafter s hs hsname]
    · simp [hsname]

/-- What is kept of a row names it. -/
theorem exists_kept_rowName : (∃ s ∈ coalesce plan records, s.rowName? plan = some name) ↔
    ∃ r ∈ records, r.rowName? plan = some name := by
  refine Iff.trans ?_ exists_mem_kept
  constructor
  · rintro ⟨s, hs, hname⟩
    obtain ⟨⟨other, s⟩, hmem, rfl⟩ := List.mem_map.mp hs
    obtain rfl : other = name :=
      Option.some.inj ((rowName?_of_mem_kept hmem).symm.trans hname)
    exact ⟨s, hmem⟩
  · rintro ⟨s, hmem⟩
    exact ⟨s, List.mem_map.mpr ⟨_, hmem, rfl⟩, rowName?_of_mem_kept hmem⟩

/-- `name` is the old key of a record after which no record about the same row has an old key. -/
def LeftLast (plan : Plan) (records : List ChangeRecord) (name : RowName) : Prop :=
  ∃ before r after, records = before ++ r :: after ∧ r.leftName? plan = some name ∧
    ∀ s ∈ after, s.rowName? plan = r.rowName? plan → s.oldKey = none

/-- The old keys that are kept. -/
theorem exists_kept_leftName : (∃ s ∈ coalesce plan records, s.leftName? plan = some name) ↔
    LeftLast plan records name := by
  constructor
  · rintro ⟨s, hs, hleft⟩
    obtain ⟨⟨row, s⟩, hmem, rfl⟩ := List.mem_map.mp hs
    obtain ⟨last, hlast, rfl⟩ := mem_kept.mp hmem
    cases hold : latestOldKey (about plan row records) with
    | none => simp [ChangeRecord.leftName?_eq_none, hold] at hleft
    | some old =>
      obtain ⟨before, r, after, rfl, hrow, hr, hafter⟩ := latestOldKey_about.mp hold
      refine ⟨before, r, after, rfl, ?_, fun s hs hs' => hafter s hs (hs'.trans hrow)⟩
      rw [← hleft]
      exact ChangeRecord.leftName?_congr
        ((ChangeRecord.table_of_rowName? hrow).trans (table_of_getLast?_about hlast).symm)
        (hr.trans hold.symm)
  · rintro ⟨before, r, after, rfl, hleft, hafter⟩
    obtain ⟨row, hrow, old, hold⟩ := ChangeRecord.exists_of_leftName? hleft
    have hlatest : latestOldKey (about plan row (before ++ r :: after)) = some old :=
      latestOldKey_about.mpr ⟨before, r, after, rfl, hrow, hold, fun s hs hs' =>
        hafter s hs (hs'.trans hrow.symm)⟩
    have hr : r ∈ before ++ r :: after := by simp
    obtain ⟨s, hs⟩ := exists_mem_kept.mpr ⟨r, hr, hrow⟩
    refine ⟨s, List.mem_map.mpr ⟨_, hs, rfl⟩, ?_⟩
    obtain ⟨last, hlast, rfl⟩ := mem_kept.mp hs
    rw [← hleft]
    exact ChangeRecord.leftName?_congr
      ((table_of_getLast?_about hlast).trans (ChangeRecord.table_of_rowName? hrow).symm)
      (hlatest.trans hold.symm)

end Coalesce

open Coalesce

/-- A key that records name is still named after coalescing if and only if it is the key of some
record, or the old key of a record after which none about the same row has an old key. -/
theorem names_coalesce_iff (plan : Plan) (records : List ChangeRecord) (name : RowName) :
    (∃ s ∈ coalesce plan records, name ∈ s.names plan) ↔
      (∃ r ∈ records, r.rowName? plan = some name) ∨ LeftLast plan records name := by
  rw [← exists_kept_rowName, ← exists_kept_leftName, ← exists_or]
  simp only [ChangeRecord.mem_names, and_or_left]

namespace Coalesce

/-- A plan of one table, whose key is `isbn`. -/
def bookPlan : Plan := ⟨⟨"book", none, ["isbn"], [], ["isbn"], ["isbn"], none⟩, []⟩

/-- A move of a book from one `isbn` to another. -/
def moved (txid : Nat) (old new : String) : ChangeRecord :=
  ⟨"book", .update, [("isbn", .string new)], some [("isbn", .string old)],
    some [("isbn", .string new)], txid, txid⟩

end Coalesce

/-- The book at `a` moves to `b` and on to `c`, then the one at `d` moves to `b`: `a` is named no
more. -/
theorem coalesce_loses_old_key : ¬ ∀ (plan : Plan) (records : List ChangeRecord), ∀ r ∈ records,
    ∀ name ∈ r.names plan, ∃ s ∈ coalesce plan records, name ∈ s.names plan := by
  intro h
  have := h bookPlan [moved 1 "a" "b", moved 2 "b" "c", moved 3 "d" "b"] (moved 1 "a" "b")
    (by simp) ("book", "a") (by decide +kernel)
  revert this
  decide +kernel

end DocSync
