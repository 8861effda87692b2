import DocSync.Keyed

/-!
What is found under a key after entries have been put, removed or mapped.
-/

namespace DocSync

namespace Keyed

variable {β : Type}

theorem get?_ofEntries (columns : List String) (f : String → β) (key : String) :
    get? (ofEntries (columns.map fun c => (c, f c))) key =
      if key ∈ columns then some (f key) else none := by
  have hfold : ∀ (columns : List String) (m : Keyed β),
      get? ((columns.map fun c => (c, f c)).foldl (fun m (k, v) => put m k v) m) key =
        if key ∈ columns then some (f key) else get? m key := by
    intro columns
    induction columns with
    | nil => simp
    | cons c rest ih =>
      intro m
      rw [List.map_cons, List.foldl_cons, ih, get?_put]
      by_cases hrest : key ∈ rest
      · simp [hrest]
      · by_cases hc : c = key
        · simp [hc]
        · simp [hrest, hc, Ne.symm hc]
  exact hfold columns []

theorem any_keys_put (m : Keyed β) (key : String) (value : β) (p : String → Bool) :
    (m.put key value).keys.any p = (m.keys.any p || p key) := by
  induction m with
  | nil => simp [put, keys]
  | cons entry rest ih =>
    obtain ⟨k, v⟩ := entry
    rw [put]
    split
    · rename_i hk
      subst hk
      simp only [keys, List.map_cons, List.any_cons]
      cases p k <;> simp
    · simp only [keys, List.map_cons, List.any_cons] at ih ⊢
      rw [ih, Bool.or_assoc]

theorem mem_of_get? {m : Keyed β} {key : String} {value : β} (h : m.get? key = some value) :
    (key, value) ∈ m := by
  induction m with
  | nil => simp at h
  | cons entry rest ih =>
    obtain ⟨k, v⟩ := entry
    rw [get?] at h
    split at h
    · rename_i hk
      obtain rfl := Option.some.inj h
      exact hk ▸ List.mem_cons_self
    · exact List.mem_cons_of_mem _ (ih h)

theorem mem_put {m : Keyed β} {key : String} {value : β} {entry : String × β}
    (h : entry ∈ put m key value) : entry = (key, value) ∨ entry ∈ m := by
  induction m with
  | nil => exact .inl (List.mem_singleton.mp h)
  | cons first rest ih =>
    obtain ⟨k, v⟩ := first
    rw [put] at h
    split at h
    · rename_i hk
      subst hk
      exact (List.mem_cons.mp h).imp_right (List.mem_cons_of_mem _)
    · rcases List.mem_cons.mp h with h | h
      · exact .inr (h ▸ List.mem_cons_self)
      · exact (ih h).imp_right (List.mem_cons_of_mem _)

theorem put_of_not_mem {m : Keyed β} {key : String} (h : key ∉ m.map Prod.fst) (value : β) :
    put m key value = m ++ [(key, value)] := by
  induction m with
  | nil => rfl
  | cons entry rest ih =>
    obtain ⟨k, v⟩ := entry
    rw [List.map_cons, List.mem_cons, not_or] at h
    rw [put, if_neg (Ne.symm h.1), ih h.2]
    rfl

/-- Entries of different keys are all kept. -/
theorem ofEntries_of_nodup {entries : List (String × β)} (h : (entries.map Prod.fst).Nodup) :
    ofEntries entries = entries := by
  have hfold : ∀ (entries : List (String × β)) (m : Keyed β), ((m ++ entries).map Prod.fst).Nodup →
      entries.foldl (fun m (k, v) => put m k v) m = m ++ entries := by
    intro entries
    induction entries with
    | nil => exact fun m _ => (List.append_nil m).symm
    | cons entry rest ih =>
      intro m hkeys
      obtain ⟨k, v⟩ := entry
      have hnew : k ∉ m.map Prod.fst := by
        rw [List.map_append, List.nodup_append] at hkeys
        exact fun hmem => hkeys.2.2 _ hmem _ List.mem_cons_self rfl
      rw [List.foldl_cons]
      show List.foldl _ (put m k v) rest = _
      rw [put_of_not_mem hnew, ih _ (by simpa using hkeys), List.append_assoc]
      rfl
  exact hfold entries [] h

theorem mem_ofEntries {columns : List String} {f : String → β} {c : String} {value : β} :
    (c, value) ∈ ofEntries (columns.map fun c => (c, f c)) ↔ c ∈ columns ∧ value = f c := by
  constructor
  · have hfold : ∀ (columns : List String) (m : Keyed β),
        (c, value) ∈ (columns.map fun c => (c, f c)).foldl (fun m (k, v) => put m k v) m →
          (c, value) ∈ m ∨ c ∈ columns ∧ value = f c := by
      intro columns
      induction columns with
      | nil => exact fun m h => .inl h
      | cons first rest ih =>
        intro m h
        rw [List.map_cons, List.foldl_cons] at h
        rcases ih _ h with h | ⟨hc, hvalue⟩
        · rcases mem_put h with h | h
          · obtain ⟨rfl, rfl⟩ := Prod.mk.inj h
            exact .inr ⟨List.mem_cons_self, rfl⟩
          · exact .inl h
        · exact .inr ⟨List.mem_cons_of_mem _ hc, hvalue⟩
    exact fun h => (hfold columns [] h).resolve_left (by simp)
  · rintro ⟨hc, rfl⟩
    refine mem_of_get? ?_
    rw [get?_ofEntries, if_pos hc]

theorem get?_putSorted (m : Keyed β) (key other : String) (value : β) :
    get? (putSorted m key value) other = if key = other then some value else get? m other := by
  induction m with
  | nil => rfl
  | cons entry rest ih =>
    obtain ⟨k, v⟩ := entry
    rw [putSorted]
    split
    · rfl
    · rename_i heq
      obtain rfl := Std.LawfulEqCmp.eq_of_compare heq
      by_cases ho : key = other <;> simp [get?, ho]
    · rename_i hgt
      have hne : k ≠ key := by
        rintro rfl
        have hself : compare k k = .eq := Std.LawfulEqCmp.compare_eq_iff_eq.mpr rfl
        rw [hself] at hgt
        contradiction
      by_cases hk : k = other
      · subst hk
        simp [get?, Ne.symm hne]
      · simp [get?, hk, ih]

theorem get?_append (m others : Keyed β) (key : String) :
    get? (m ++ others) key = (get? m key).or (get? others key) := by
  induction m with
  | nil => rfl
  | cons entry rest ih =>
    obtain ⟨k, v⟩ := entry
    rw [List.cons_append]
    by_cases hk : k = key <;> simp [get?, hk, ih]

theorem mem_keys_putSorted {m : Keyed β} {key other : String} {value : β} (h : other ∈ (putSorted m key value).keys) :
    other = key ∨ other ∈ m.keys := by
  induction m with
  | nil => exact .inl (List.mem_singleton.mp h)
  | cons entry rest ih =>
    obtain ⟨k, v⟩ := entry
    rw [putSorted] at h
    split at h
    · exact List.mem_cons.mp h
    · exact (List.mem_cons.mp h).imp_right (List.mem_cons_of_mem _)
    · rcases List.mem_cons.mp h with rfl | h
      · exact .inr List.mem_cons_self
      · exact (ih h).imp_right (List.mem_cons_of_mem _)

/-- Entries stay in the order of their keys. -/
theorem sorted_putSorted {m : Keyed β} (h : m.keys.Pairwise (· < ·)) (key : String) (value : β) :
    (putSorted m key value).keys.Pairwise (· < ·) := by
  induction m with
  | nil => exact List.pairwise_singleton _ _
  | cons entry rest ih =>
    obtain ⟨k, v⟩ := entry
    obtain ⟨hfirst, hrest⟩ := List.pairwise_cons.mp h
    rw [putSorted]
    split
    · rename_i hlt
      have hlt : key < k := compareOfLessAndEq_eq_lt.mp hlt
      refine List.pairwise_cons.mpr ⟨fun other hother => ?_, h⟩
      rcases List.mem_cons.mp hother with rfl | hother
      · exact hlt
      · exact String.lt_trans hlt (hfirst other hother)
    · rename_i heq
      obtain rfl := Std.LawfulEqCmp.eq_of_compare heq
      exact h
    · rename_i hgt
      have hcompare : compare k key = .lt := Std.OrientedCmp.lt_of_gt hgt
      have hlt : k < key := compareOfLessAndEq_eq_lt.mp hcompare
      refine List.pairwise_cons.mpr ⟨fun other hother => ?_, ih hrest⟩
      rcases mem_keys_putSorted hother with rfl | hother
      · exact hlt
      · exact hfirst other hother

theorem getD_putSorted (m : Keyed β) (key other : String) (value fallback : β) :
    getD (putSorted m key value) other fallback =
      if key = other then value else getD m other fallback := by
  simp only [getD, get?_putSorted]
  split <;> rfl

theorem get?_erase (m : Keyed β) (key other : String) :
    get? (erase m key) other = if key = other then none else get? m other := by
  induction m with
  | nil => simp [erase]
  | cons entry rest ih =>
    obtain ⟨k, v⟩ := entry
    rw [erase] at ih ⊢
    by_cases hk : k = key
    · subst hk
      rw [List.filter_cons_of_neg (by simp), ih]
      by_cases ho : k = other <;> simp [get?, ho]
    · rw [List.filter_cons_of_pos (by simpa using hk), get?, get?, ih]
      by_cases ho : k = other
      · simp [ho, Ne.symm (ho ▸ hk)]
      · simp [ho]

theorem get?_map {γ : Type} (m : Keyed β) (f : β → γ) (key : String) :
    get? (m.map fun entry => (entry.1, f entry.2)) key = (get? m key).map f := by
  induction m with
  | nil => rfl
  | cons entry rest ih =>
    obtain ⟨k, v⟩ := entry
    by_cases hk : k = key <;> simp [get?, hk, ih]

theorem mem_keys {m : Keyed β} {key : String} : key ∈ m.keys ↔ ∃ value, m.get? key = some value := by
  induction m with
  | nil => simp [keys]
  | cons entry rest ih =>
    obtain ⟨k, v⟩ := entry
    rw [keys] at ih ⊢
    by_cases hk : k = key
    · simp [get?, hk]
    · simp [get?, hk, ih, Ne.symm hk]

end Keyed

end DocSync
