import DocSync.Proofs.Change.Coalesce
import Mathlib.Data.List.Dedup

/-!
Coalescing as a normal form.  What is kept of a list is determined by the names of its rows, in the order
of their last records, and by the last record and the latest old key of each.  So coalescing the front of
a list first, page by page, or reading some of its records again before it, changes nothing.
-/

namespace DocSync

namespace Coalesce

variable {plan : Plan} {records again : List ChangeRecord} {r s : ChangeRecord} {name other : RowName}

/-- The rows of the plan that records are about, record by record. -/
def rowNames (plan : Plan) (records : List ChangeRecord) : List RowName :=
  records.filterMap (·.rowName? plan)

/-- The last of the records about a row, with the latest old key that any of them has. -/
def lastOf? (plan : Plan) (records : List ChangeRecord) (name : RowName) : Option ChangeRecord :=
  (about plan name records).getLast?.map fun r =>
    { r with oldKey := latestOldKey (about plan name records) }

theorem rowNames_concat (h : r.rowName? plan = some name) :
    rowNames plan (records ++ [r]) = rowNames plan records ++ [name] := by
  simp [rowNames, List.filterMap_append, h]

theorem rowNames_concat_of_none (h : r.rowName? plan = none) :
    rowNames plan (records ++ [r]) = rowNames plan records := by
  simp [rowNames, List.filterMap_append, h]

/-- Of the places of a name the last one counts. -/
theorem dedup_concat (names : List RowName) (name : RowName) :
    (names ++ [name]).dedup = names.dedup.filter (· != name) ++ [name] := by
  induction names with
  | nil => rfl
  | cons first rest ih =>
    rw [List.cons_append]
    by_cases hname : first = name
    · rw [List.dedup_cons_of_mem (by simp [hname]), ih, hname]
      by_cases hrest : name ∈ rest
      · rw [List.dedup_cons_of_mem hrest]
      · simp [List.dedup_cons_of_notMem hrest]
    · by_cases hrest : first ∈ rest
      · rw [List.dedup_cons_of_mem (by simp [hrest]), List.dedup_cons_of_mem hrest, ih]
      · rw [List.dedup_cons_of_notMem (by simp [hrest, hname]), List.dedup_cons_of_notMem hrest, ih]
        simp [hname]

theorem map_fst_add {entries : List (RowName × ChangeRecord)} (h : r.rowName? plan = some name) :
    (add plan entries r).map Prod.fst = (entries.map Prod.fst).filter (· != name) ++ [name] := by
  simp [add, h, List.filter_map, Function.comp_def]

/-- The rows of which something is kept, in the order of their last records. -/
theorem map_fst_kept : (kept plan records).map Prod.fst = (rowNames plan records).dedup := by
  induction records using List.reverseRecOn with
  | nil => rfl
  | append_singleton before r ih =>
    rw [kept_concat]
    cases hr : r.rowName? plan with
    | none => rw [add_of_none hr, rowNames_concat_of_none hr, ih]
    | some name => rw [map_fst_add hr, rowNames_concat hr, dedup_concat, ih]

theorem nodup_kept : ((kept plan records).map Prod.fst).Nodup := by
  rw [map_fst_kept]
  exact List.nodup_dedup _

theorem mem_kept_iff_lastOf? : (name, s) ∈ kept plan records ↔ lastOf? plan records name = some s := by
  rw [mem_kept, lastOf?, Option.map_eq_some_iff]
  simp only [eq_comm]

/-- What is kept, row by row. -/
theorem kept_eq_filterMap : kept plan records =
    (rowNames plan records).dedup.filterMap fun name =>
      (lastOf? plan records name).map (Prod.mk name) := by
  rw [← map_fst_kept, List.filterMap_map]
  refine (List.filterMap_some (l := kept plan records)).symm.trans (List.filterMap_congr ?_)
  rintro ⟨name, s⟩ hs
  simp [mem_kept_iff_lastOf?.mp hs]

theorem rowName?_of_mem_coalesce (h : s ∈ coalesce plan records) :
    ∃ name, s.rowName? plan = some name ∧ lastOf? plan records name = some s := by
  obtain ⟨⟨name, s⟩, hmem, rfl⟩ := List.mem_map.mp h
  exact ⟨name, rowName?_of_mem_kept hmem, mem_kept_iff_lastOf?.mp hmem⟩

/-- What is kept comes in the order of the last records of the rows. -/
theorem map_rowName?_coalesce :
    (coalesce plan records).map (·.rowName? plan) = (rowNames plan records).dedup.map some := by
  rw [← map_fst_kept]
  simp only [coalesce, List.map_map]
  exact List.map_congr_left fun entry hentry => rowName?_of_mem_kept (s := entry.2) hentry

/-- Records about different rows are all kept as they are. -/
theorem kept_of_nodup {entries : List (RowName × ChangeRecord)}
    (hnames : ∀ entry ∈ entries, entry.2.rowName? plan = some entry.1)
    (hnodup : (entries.map Prod.fst).Nodup) : kept plan (entries.map Prod.snd) = entries := by
  induction entries using List.reverseRecOn with
  | nil => rfl
  | append_singleton entries entry ih =>
    obtain ⟨name, r⟩ := entry
    have hr : r.rowName? plan = some name := hnames (name, r) (by simp)
    rw [List.map_append, List.map_singleton, List.nodup_append_comm] at hnodup
    obtain ⟨hnew, hnodup⟩ := List.nodup_cons.mp hnodup
    -- Nothing is kept of the row yet, so the record is added as it is and replaces nothing.
    have hother : ∀ entry ∈ entries, entry.1 ≠ name := fun entry hentry heq =>
      hnew (List.mem_map.mpr ⟨entry, hentry, heq⟩)
    have hnone : entries.find? (·.1 == name) = none :=
      List.find?_eq_none.mpr fun entry hentry => by simpa using hother entry hentry
    have hfilter : entries.filter (·.1 != name) = entries :=
      List.filter_eq_self.mpr fun entry hentry => by simpa using hother entry hentry
    rw [List.map_append, List.map_singleton, kept_concat,
      ih (fun entry hentry => hnames entry (List.mem_append_left _ hentry)) hnodup]
    simp only [add, hr, hnone, hfilter, Option.map_none, ChangeRecord.carrying_none]

/-- Coalescing again finds what was kept. -/
theorem kept_coalesce : kept plan (coalesce plan records) = kept plan records :=
  kept_of_nodup (fun _ hentry => rowName?_of_mem_kept hentry) nodup_kept

theorem kept_append (xs ys : List ChangeRecord) :
    kept plan (xs ++ ys) = ys.foldl (add plan) (kept plan xs) :=
  List.foldl_append

/-- Coalescing what comes in front changes nothing. -/
theorem coalesce_append (plan : Plan) (xs ys : List ChangeRecord) :
    coalesce plan (xs ++ ys) = coalesce plan (coalesce plan xs ++ ys) := by
  change (kept plan (xs ++ ys)).map Prod.snd = (kept plan (coalesce plan xs ++ ys)).map Prod.snd
  rw [kept_append, kept_append, kept_coalesce]

theorem coalesce_coalesce (plan : Plan) (xs : List ChangeRecord) :
    coalesce plan (coalesce plan xs) = coalesce plan xs := by
  simpa using (coalesce_append plan xs []).symm

/-- Coalescing page by page gives what coalescing the whole gives. -/
theorem foldl_coalesce (plan : Plan) (pages : List (List ChangeRecord)) :
    pages.foldl (fun held page => coalesce plan (held ++ page)) [] = coalesce plan pages.flatten := by
  induction pages using List.reverseRecOn with
  | nil => rfl
  | append_singleton pages page ih =>
    rw [List.foldl_append, List.foldl_cons, List.foldl_nil, ih, List.flatten_append,
      List.flatten_singleton, coalesce_append plan pages.flatten]

/-- Records of a list that are read once more before it leave the last record of a row, and its latest
old key. -/
theorem lastOf?_append (h : again ⊆ records) :
    lastOf? plan (again ++ records) name = lastOf? plan records name := by
  have happend : about plan name (again ++ records) =
      about plan name again ++ about plan name records := List.filter_append _ _
  have hsubset : about plan name again ⊆ about plan name records := List.filter_subset _ h
  cases hlast : about plan name records using List.reverseRecOn with
  | nil =>
    rw [hlast, List.subset_nil] at hsubset
    simp [lastOf?, happend, hlast, hsubset]
  | append_singleton before last =>
    have hold : latestOldKey (about plan name again ++ about plan name records) =
        latestOldKey (about plan name records) := by
      rw [latestOldKey, latestOldKey, List.filterMap_append, List.getLast?_append]
      cases hrecords : ((about plan name records).filterMap (·.oldKey)).getLast? with
      | some old => rfl
      | none =>
        -- A record that is read again has no old key where none of the list has one.
        have hnone := List.filterMap_eq_nil_iff.mp (List.getLast?_eq_none_iff.mp hrecords)
        rw [List.filterMap_eq_nil_iff.mpr fun r hr => hnone r (hsubset hr)]
        rfl
    rw [lastOf?, lastOf?, happend, hold, hlast, ← List.append_assoc, List.getLast?_concat,
      List.getLast?_concat]

theorem coalesce_append_of_subset (h : again ⊆ records) :
    coalesce plan (again ++ records) = coalesce plan records := by
  have hnames : (rowNames plan (again ++ records)).dedup = (rowNames plan records).dedup := by
    rw [rowNames, List.filterMap_append]
    exact List.Subset.dedup_append_right (List.filterMap_subset _ h)
  change (kept plan (again ++ records)).map Prod.snd = (kept plan records).map Prod.snd
  rw [kept_eq_filterMap, kept_eq_filterMap, hnames]
  simp only [lastOf?_append h]

end Coalesce

open Coalesce

/-- Coalescing is a normal form in which the last record of a row stands for the row.  At most one record
of a row is kept and none of a table outside the plan, in the order of the rows' last records; of each
row its last record is kept, with the latest old key of its records.  A list is coalesced as well after
its front has been, page by page, or with some of its records once more in front of it. -/
theorem coalesce_last_of_each_row (plan : Plan) (xs ys : List ChangeRecord) :
    ((coalesce plan xs).map (·.rowName? plan)).Nodup ∧
      (∀ s ∈ coalesce plan xs, (plan.primaryKeyOf? s.table).isSome) ∧
      (coalesce plan xs).map (·.rowName? plan) = (rowNames plan xs).dedup.map some ∧
      (∀ s, s ∈ coalesce plan xs ↔ ∃ name, lastOf? plan xs name = some s) ∧
      coalesce plan (xs ++ ys) = coalesce plan (coalesce plan xs ++ ys) ∧
      coalesce plan (coalesce plan xs) = coalesce plan xs ∧
      (∀ pages : List (List ChangeRecord),
        pages.foldl (fun held page => coalesce plan (held ++ page)) [] =
          coalesce plan pages.flatten) ∧
      ∀ again ⊆ xs, coalesce plan (again ++ xs) = coalesce plan xs := by
  refine ⟨?_, ?_, map_rowName?_coalesce, ?_, coalesce_append plan xs ys, coalesce_coalesce plan xs,
    foldl_coalesce plan, fun again h => coalesce_append_of_subset h⟩
  · rw [map_rowName?_coalesce]
    exact (List.nodup_dedup _).map fun _ _ h => Option.some.inj h
  · intro s hs
    obtain ⟨name, hname, -⟩ := rowName?_of_mem_coalesce hs
    obtain ⟨columns, hcolumns, -⟩ := Option.map_eq_some_iff.mp hname
    simp [hcolumns]
  · intro s
    constructor
    · intro hs
      obtain ⟨name, -, hlast⟩ := rowName?_of_mem_coalesce hs
      exact ⟨name, hlast⟩
    · rintro ⟨name, hlast⟩
      exact List.mem_map.mpr ⟨(name, s), mem_kept_iff_lastOf?.mpr hlast, rfl⟩

namespace Coalesce

/-- A book moves from `a` to `b` and another one from `c` to `d`, then the one at `b` changes there. -/
def movesAndChange : List ChangeRecord :=
  [moved 1 "a" "b", moved 2 "c" "d", { moved 3 "b" "b" with oldKey := none }]

end Coalesce

/-- The first move comes once more in front: the change at `b` still comes last and says that `a` was
left. -/
theorem coalesce_last_of_each_row_moved_again : [moved 1 "a" "b"] ⊆ movesAndChange ∧
    coalesce bookPlan ([moved 1 "a" "b"] ++ movesAndChange) = coalesce bookPlan movesAndChange ∧
    coalesce bookPlan movesAndChange =
      [moved 2 "c" "d", moved 3 "a" "b"] := by
  have hagain : [moved 1 "a" "b"] ⊆ movesAndChange := by simp [movesAndChange]
  obtain ⟨-, -, -, -, -, -, -, h⟩ := coalesce_last_of_each_row bookPlan movesAndChange []
  exact ⟨hagain, h _ hagain, rfl⟩

end DocSync
