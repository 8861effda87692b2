import Mathlib.Data.List.Forall2

/-!
Lists around one of their items, and lists that are related item by item.
-/

namespace DocSync

variable {α β : Type} {items : List α} {item : α}

/-- A list around one of its items. -/
theorem exists_around {i : Nat} (h : items[i]? = some item) :
    ∃ before after, items = before ++ item :: after ∧ items.eraseIdx i = before ++ after ∧
      ∀ other, items.set i other = before ++ other :: after := by
  obtain ⟨hi, rfl⟩ := List.getElem?_eq_some_iff.mp h
  refine ⟨items.take i, items.drop (i + 1), ?_, List.eraseIdx_eq_take_drop_succ items i, ?_⟩
  · rw [List.getElem_cons_drop, List.take_append_drop]
  · intro other
    rw [List.set_eq_take_append_cons_drop, if_pos hi]

/-- A list around the first item that is chosen. -/
theorem exists_around_findIdx {chosen : α → Bool} {i : Nat} (hfind : items.findIdx? chosen = some i)
    (hitem : items[i]? = some item) :
    ∃ before after, items = before ++ item :: after ∧ (∀ other ∈ before, ¬ chosen other) ∧ chosen item ∧
      items.eraseIdx i = before ++ after ∧ ∀ other, items.set i other = before ++ other :: after := by
  obtain ⟨hi, hchosen, hbefore⟩ := List.findIdx?_eq_some_iff_getElem.mp hfind
  obtain ⟨-, rfl⟩ := List.getElem?_eq_some_iff.mp hitem
  refine ⟨items.take i, items.drop (i + 1), ?_, fun other hother => ?_, hchosen,
    List.eraseIdx_eq_take_drop_succ items i, fun other => ?_⟩
  · rw [List.getElem_cons_drop, List.take_append_drop]
  · obtain ⟨j, hj, rfl⟩ := List.mem_take_iff_getElem.mp hother
    exact hbefore j (Nat.lt_of_lt_of_le hj (Nat.min_le_left i items.length))
  · rw [List.set_eq_take_append_cons_drop, if_pos hi]

/-- Of the items with a property, one is the last. -/
theorem exists_last_of_mem {p : α → Prop} (h : ∃ item ∈ items, p item) :
    ∃ before item after, items = before ++ item :: after ∧ p item ∧ ∀ other ∈ after, ¬ p other := by
  induction items with
  | nil => simp at h
  | cons first rest ih =>
    by_cases hrest : ∃ item ∈ rest, p item
    · obtain ⟨before, item, after, rfl, hitem, hafter⟩ := ih hrest
      exact ⟨first :: before, item, after, rfl, hitem, hafter⟩
    · obtain ⟨item, hitem, hp⟩ := h
      rcases List.mem_cons.mp hitem with rfl | hitem
      · exact ⟨[], item, rest, rfl, hp, fun other hother hp => hrest ⟨other, hother, hp⟩⟩
      · exact absurd ⟨item, hitem, hp⟩ hrest

/-- Choosing among copies is copying what is chosen. -/
theorem filter_flatMap_replicate (p : α → Bool) (items : List α) (copies : Nat) :
    (items.flatMap (List.replicate copies)).filter p =
      (items.filter p).flatMap (List.replicate copies) := by
  induction items with
  | nil => rfl
  | cons first rest ih =>
    rw [List.flatMap_cons, List.filter_append, ih, List.filter_replicate, List.filter_cons]
    split <;> simp

theorem getLast?_flatMap_replicate (items : List α) (copies : Nat) :
    (items.flatMap (List.replicate copies)).getLast? = if copies = 0 then none else items.getLast? := by
  split
  · rename_i hnone
    rw [List.getLast?_eq_none_iff, List.flatMap_eq_nil_iff, hnone]
    exact fun _ _ => rfl
  · rename_i hcopies
    rcases List.eq_nil_or_concat' items with rfl | ⟨front, last, rfl⟩
    · rfl
    · rw [List.flatMap_append, List.getLast?_append, List.flatMap_singleton, List.getLast?_replicate,
        if_neg hcopies, List.getLast?_concat]
      rfl

/-- What the later steps leave alone is what the last other step left. -/
theorem foldl_append_of_later {f : β → α → β} {before after : List α} {value : β}
    (hitem : ∀ held, f held item = value) (hafter : ∀ other ∈ after, ∀ held, f held other = held)
    (start : β) : (before ++ item :: after).foldl f start = value := by
  rw [List.foldl_append, List.foldl_cons, hitem]
  induction after with
  | nil => rfl
  | cons other rest ih =>
    obtain ⟨hother, hrest⟩ := List.forall_mem_cons.mp hafter
    rw [List.foldl_cons, hother]
    exact ih hrest

section Forall₂

variable {R : α → β → Prop} {as : List α} {bs : List β}

/-- Each item of the second list is related to one of the first. -/
theorem exists_of_forall₂ (h : List.Forall₂ R as bs) {b : β} (hb : b ∈ bs) : ∃ a ∈ as, R a b := by
  induction h with
  | nil => simp at hb
  | cons hfirst _ ih =>
    rcases List.mem_cons.mp hb with rfl | hb
    · exact ⟨_, List.mem_cons_self, hfirst⟩
    · obtain ⟨a, ha, hab⟩ := ih hb
      exact ⟨a, List.mem_cons_of_mem _ ha, hab⟩

theorem exists_of_forall₂_left (h : List.Forall₂ R as bs) {a : α} (ha : a ∈ as) : ∃ b ∈ bs, R a b :=
  exists_of_forall₂ h.flip ha

end Forall₂

end DocSync
