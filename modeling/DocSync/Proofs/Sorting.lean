import DocSync.Json.Order
import DocSync.Node.Plan
import Mathlib.Data.List.Induction

/-!
What sorting and the removal of repeats keep.
-/

namespace DocSync

variable {α : Type} {le : α → α → Bool}

theorem insertDescending_perm (item : α) (items : List α) :
    (insertDescending le item items).Perm (item :: items) := by
  induction items with
  | nil => exact .refl _
  | cons last rest ih =>
    rw [insertDescending]
    split
    · exact .refl _
    · exact (ih.cons last).trans (.swap item last rest)

theorem sortStable_perm (items : List α) : (sortStable le items).Perm items := by
  have hfold : ∀ items sorted : List α,
      (items.foldl (fun sorted item => insertDescending le item sorted) sorted).Perm
        (items.reverse ++ sorted) := by
    intro items
    induction items with
    | nil => exact fun sorted => .refl _
    | cons item rest ih =>
      intro sorted
      refine (ih _).trans ?_
      rw [List.reverse_cons, List.append_assoc]
      exact (insertDescending_perm item sorted).append_left _
  refine (List.reverse_perm _).trans ((hfold items []).trans ?_)
  rw [List.append_nil]
  exact List.reverse_perm items

@[simp] theorem mem_sortStable {item : α} {items : List α} :
    item ∈ sortStable le items ↔ item ∈ items :=
  (sortStable_perm items).mem_iff

/-- The last item is inserted last, from the end. -/
theorem sortStable_append_singleton (items : List α) (item : α) :
    sortStable le (items ++ [item]) = (insertDescending le item (sortStable le items).reverse).reverse := by
  rw [sortStable, List.foldl_append, sortStable, List.reverse_reverse]
  rfl

theorem insertDescending_pairwise {item : α} {sorted : List α}
    (total : ∀ a ∈ sorted, le item a ∨ le a item)
    (trans : ∀ a ∈ sorted, ∀ b ∈ sorted, le a b → le b item → le a item)
    (hsorted : sorted.Pairwise fun a b => le b a) :
    (insertDescending le item sorted).Pairwise fun a b => le b a := by
  induction sorted with
  | nil => exact List.pairwise_singleton _ _
  | cons last rest ih =>
    obtain ⟨hlast, hrest⟩ := List.pairwise_cons.mp hsorted
    rw [insertDescending]
    split
    · rename_i hle
      refine List.pairwise_cons.mpr ⟨fun a ha => ?_, hsorted⟩
      rcases List.mem_cons.mp ha with rfl | ha
      · exact hle
      · exact trans a (List.mem_cons_of_mem _ ha) last List.mem_cons_self (hlast a ha) hle
    · rename_i hnot
      have ih := ih (fun a ha => total a (List.mem_cons_of_mem _ ha))
        (fun a ha b hb => trans a (List.mem_cons_of_mem _ ha) b (List.mem_cons_of_mem _ hb)) hrest
      refine List.pairwise_cons.mpr ⟨fun a ha => ?_, ih⟩
      rcases List.mem_cons.mp ((insertDescending_perm item rest).mem_iff.mp ha) with rfl | ha
      · exact (total last List.mem_cons_self).resolve_right hnot
      · exact hlast a ha

/-- Inserting commutes with picking from a sorted list. -/
theorem filter_insertDescending {item : α} {sorted : List α}
    (trans : ∀ a ∈ sorted, ∀ b ∈ sorted, le a b → le b item → le a item)
    (hsorted : sorted.Pairwise fun a b => le b a) (p : α → Bool) :
    (insertDescending le item sorted).filter p =
      if p item then insertDescending le item (sorted.filter p) else sorted.filter p := by
  induction sorted with
  | nil => cases h : p item <;> simp [insertDescending, h]
  | cons last rest ih =>
    obtain ⟨hlast, hrest⟩ := List.pairwise_cons.mp hsorted
    have ih := ih (fun a ha b hb => trans a (List.mem_cons_of_mem _ ha) b (List.mem_cons_of_mem _ hb)) hrest
    rw [insertDescending]
    by_cases hle : le last item
    · rw [if_pos hle]
      by_cases hitem : p item
      · rw [List.filter_cons_of_pos hitem, if_pos hitem]
        -- every item that is left is below the one that is inserted
        have hbelow : ∀ a ∈ (last :: rest).filter p, le a item := by
          intro a ha
          rcases List.mem_cons.mp (List.mem_filter.mp ha).1 with rfl | ha
          · exact hle
          · exact trans a (List.mem_cons_of_mem _ ha) last List.mem_cons_self (hlast a ha) hle
        cases hfilter : (last :: rest).filter p with
        | nil => rfl
        | cons a others =>
          rw [hfilter] at hbelow
          rw [insertDescending, if_pos (hbelow a List.mem_cons_self)]
      · rw [List.filter_cons_of_neg hitem, if_neg hitem]
    · rw [if_neg hle]
      by_cases hp : p last
      · rw [List.filter_cons_of_pos hp, List.filter_cons_of_pos hp, ih]
        split
        · rw [insertDescending, if_neg hle]
        · rfl
      · rw [List.filter_cons_of_neg hp, List.filter_cons_of_neg hp, ih]

/-- Sorting puts items in order, where the order is total and transitive on them. -/
theorem sortStable_pairwise {items : List α} (total : ∀ a ∈ items, ∀ b ∈ items, le a b ∨ le b a)
    (trans : ∀ a ∈ items, ∀ b ∈ items, ∀ c ∈ items, le a b → le b c → le a c) :
    (sortStable le items).Pairwise fun a b => le a b := by
  induction items using List.reverseRecOn with
  | nil => exact .nil
  | append_singleton items item ih =>
    have hitem : item ∈ items ++ [item] := by simp
    have hmem : ∀ a ∈ (sortStable le items).reverse, a ∈ items ++ [item] := by simp_all
    have hsorted := ih (fun a ha b hb => total a (List.mem_append_left _ ha) b (List.mem_append_left _ hb))
      (fun a ha b hb c hc => trans a (List.mem_append_left _ ha) b (List.mem_append_left _ hb) c
        (List.mem_append_left _ hc))
    rw [sortStable_append_singleton, List.pairwise_reverse]
    apply insertDescending_pairwise
    · exact fun a ha => total item hitem a (hmem a ha)
    · exact fun a ha b hb => trans a (hmem a ha) b (hmem b hb) item hitem
    · exact List.pairwise_reverse.mpr hsorted

/-- Sorting commutes with picking: the order of what is picked does not depend on what is not. -/
theorem filter_sortStable {items : List α} (total : ∀ a ∈ items, ∀ b ∈ items, le a b ∨ le b a)
    (trans : ∀ a ∈ items, ∀ b ∈ items, ∀ c ∈ items, le a b → le b c → le a c) (p : α → Bool) :
    (sortStable le items).filter p = sortStable le (items.filter p) := by
  induction items using List.reverseRecOn with
  | nil => rfl
  | append_singleton items item ih =>
    have hitem : item ∈ items ++ [item] := by simp
    have hmem : ∀ a ∈ (sortStable le items).reverse, a ∈ items ++ [item] := by simp_all
    have htotal : ∀ a ∈ items, ∀ b ∈ items, le a b ∨ le b a :=
      fun a ha b hb => total a (List.mem_append_left _ ha) b (List.mem_append_left _ hb)
    have htrans : ∀ a ∈ items, ∀ b ∈ items, ∀ c ∈ items, le a b → le b c → le a c :=
      fun a ha b hb c hc => trans a (List.mem_append_left _ ha) b (List.mem_append_left _ hb) c
        (List.mem_append_left _ hc)
    rw [sortStable_append_singleton, List.filter_reverse, filter_insertDescending
      (fun a ha b hb => trans a (hmem a ha) b (hmem b hb) item hitem)
      (List.pairwise_reverse.mpr (sortStable_pairwise htotal htrans)), List.filter_reverse,
      ih htotal htrans, List.filter_append]
    by_cases hp : p item
    · simp [hp, sortStable_append_singleton]
    · simp [hp]

/-- What is in order already stays as it is. -/
theorem sortStable_of_pairwise {items : List α} (h : items.Pairwise fun a b => le a b) :
    sortStable le items = items := by
  induction items using List.reverseRecOn with
  | nil => rfl
  | append_singleton items item ih =>
    obtain ⟨hitems, -, hbelow⟩ := List.pairwise_append.mp h
    rw [sortStable_append_singleton, ih hitems]
    cases hlast : items.reverse with
    | nil => simp [insertDescending, List.reverse_eq_nil_iff.mp hlast]
    | cons last rest =>
      have hmem : last ∈ items := List.mem_reverse.mp (hlast ▸ List.mem_cons_self)
      rw [insertDescending, if_pos (hbelow last hmem item List.mem_cons_self), ← hlast]
      simp

@[simp] theorem Plan.mem_distinct {item : String} {items : List String} :
    item ∈ Plan.distinct items ↔ item ∈ items := by
  have hfold : ∀ items kept : List String,
      item ∈ items.foldl (fun kept item => if kept.contains item then kept else kept ++ [item]) kept ↔
        item ∈ kept ∨ item ∈ items := by
    intro items
    induction items with
    | nil => simp
    | cons first rest ih =>
      intro kept
      rw [List.foldl_cons, ih]
      split
      · rename_i hkept
        have hfirst : first ∈ kept := by simpa using hkept
        constructor
        · rintro (h | h)
          · exact .inl h
          · exact .inr (List.mem_cons_of_mem _ h)
        · rintro (h | h)
          · exact .inl h
          · rcases List.mem_cons.mp h with rfl | h
            · exact .inl hfirst
            · exact .inr h
      · simp [or_assoc]
  rw [Plan.distinct, hfold]
  simp

theorem Plan.nodup_distinct (items : List String) : (Plan.distinct items).Nodup := by
  have hfold : ∀ items kept : List String, kept.Nodup →
      (items.foldl (fun kept item => if kept.contains item then kept else kept ++ [item]) kept).Nodup := by
    intro items
    induction items with
    | nil => exact fun kept hkept => hkept
    | cons first rest ih =>
      intro kept hkept
      rw [List.foldl_cons]
      apply ih
      split
      · exact hkept
      · rename_i hnew
        have hnew : first ∉ kept := by simpa using hnew
        simpa [List.nodup_append] using ⟨hkept, fun item hitem heq => hnew (heq ▸ hitem)⟩
  exact hfold items [] List.nodup_nil

@[simp] theorem Plan.mem_inSchemaOrder {t : Table} {column : String} {columns : List String} :
    column ∈ Plan.inSchemaOrder t columns ↔ column ∈ columns :=
  mem_sortStable

theorem Plan.nodup_inSchemaOrder {t : Table} {columns : List String} (h : columns.Nodup) :
    (Plan.inSchemaOrder t columns).Nodup :=
  (sortStable_perm columns).nodup_iff.mpr h

end DocSync
