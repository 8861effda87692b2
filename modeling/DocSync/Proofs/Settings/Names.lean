import DocSync.Settings.Basic

/-!
When two jobs of accepted settings have one name. The slot and the channel of a job are spelled from its index;
the spelling forgets case and punctuation, and what does not fit in a name is cut off.
-/

namespace DocSync

namespace SlotName

/-- The characters of a text as names spell them, before the name is cut. -/
def spelled (text : String) : List Char :=
  (text.toList.flatMap lower).map fun c => if isAllowed c then c else '_'

/-- How much of an index's spelling a name has room for, after the database and the underscore. -/
def room (database : String) : Nat := most - (spelled database).length - 1

/-- Whether two indices are spelled alike as far as a name has room for them. -/
def SpelledAlike (database a b : String) : Prop :=
  (spelled a).take (room database) = (spelled b).take (room database)

instance (database a b : String) : Decidable (SpelledAlike database a b) :=
  inferInstanceAs (Decidable (_ = _))

/-- Text of lower-case letters, digits and underscores, which a name takes over as it is. -/
def IsPlain (text : String) : Prop := ∀ c ∈ text.toList, c.isLower ∨ c.isDigit ∨ c = '_'

instance (text : String) : Decidable (IsPlain text) :=
  decidable_of_iff (text.toList.all fun c => c.isLower || (c.isDigit || c == '_')) (by simp [IsPlain])

theorem spelled_append (a b : String) : spelled (a ++ b) = spelled a ++ spelled b := by
  simp [spelled, List.flatMap_append]

theorem ofIndex_eq (database index : String) :
    ofIndex database index = String.ofList ((spelled database ++ '_' :: spelled index).take most) := by
  have joined : spelled (database ++ "_" ++ index) = spelled database ++ '_' :: spelled index := by
    rw [spelled_append, spelled_append, List.append_assoc]
    rfl
  rw [← joined]
  rfl

/-- Two indices of one database have one name exactly where they are spelled alike in the room that is left. -/
theorem ofIndex_eq_iff (database a b : String) :
    ofIndex database a = ofIndex database b ↔ SpelledAlike database a b := by
  rw [ofIndex_eq, ofIndex_eq, String.ofList_inj, List.take_append, List.take_append,
    List.append_cancel_left_eq, SpelledAlike, room]
  -- no room, not even for the underscore, or the underscore and then the spellings
  cases most - (spelled database).length <;> simp

theorem code_plain {c : Char} (h : c.isLower ∨ c.isDigit ∨ c = '_') :
    c.toNat < 65 ∨ 90 < c.toNat ∧ c.toNat < 128 := by
  rcases h with h | h | rfl
  · have bounds : (decide (c.val ≥ 'a'.val) && decide (c.val ≤ 'z'.val)) = true := h
    simp only [Bool.and_eq_true, decide_eq_true_eq, ge_iff_le, UInt32.le_iff_toNat_le] at bounds
    exact .inr ⟨Nat.lt_of_lt_of_le (by decide) bounds.1, Nat.lt_of_le_of_lt bounds.2 (by decide)⟩
  · have bounds : (decide (c.val ≥ '0'.val) && decide (c.val ≤ '9'.val)) = true := h
    simp only [Bool.and_eq_true, decide_eq_true_eq, ge_iff_le, UInt32.le_iff_toNat_le] at bounds
    exact .inl (Nat.lt_of_le_of_lt bounds.2 (by decide))
  · exact .inr (by decide)

theorem lower_plain {c : Char} (h : c.isLower ∨ c.isDigit ∨ c = '_') : lower c = [c] := by
  have code := code_plain h
  have same : c.toLower = c := by
    refine dif_neg (show ¬ (c.val ≥ 'A'.val ∧ c.val ≤ 'Z'.val) from fun upper => ?_)
    have first : 65 ≤ c.toNat := UInt32.le_iff_toNat_le.mp upper.1
    have last : c.toNat ≤ 90 := UInt32.le_iff_toNat_le.mp upper.2
    omega
  have kelvin : c ≠ '\u212a' := by
    rintro rfl
    revert code
    decide
  have dotted : c ≠ '\u0130' := by
    rintro rfl
    revert code
    decide
  simp [lower, kelvin, dotted, same]

theorem isAllowed_plain {c : Char} (h : c.isLower ∨ c.isDigit ∨ c = '_') : isAllowed c = true := by
  have parts : isAllowed c = ((c.isUpper || c.isLower || c.isDigit) || c == '_') := rfl
  rw [parts]
  rcases h with h | h | rfl
  · simp [h]
  · simp [h]
  · rfl

theorem spelled_plain {text : String} (h : IsPlain text) : spelled text = text.toList := by
  have each : ∀ cs : List Char, (∀ c ∈ cs, c.isLower ∨ c.isDigit ∨ c = '_') →
      (cs.flatMap lower).map (fun c => if isAllowed c then c else '_') = cs := by
    intro cs hcs
    induction cs with
    | nil => rfl
    | cons c cs ih =>
      have plain := hcs c List.mem_cons_self
      rw [List.flatMap_cons, List.map_append, lower_plain plain, ih fun d hd => hcs d (List.mem_cons_of_mem _ hd)]
      simp [isAllowed_plain plain]
  exact each _ h

/-- Plain indices with room for all of them have different names. -/
theorem ofIndex_injective_plain {database a b : String} (ha : IsPlain a) (hb : IsPlain b)
    (fitsA : a.length ≤ room database) (fitsB : b.length ≤ room database)
    (same : ofIndex database a = ofIndex database b) : a = b := by
  have alike := (ofIndex_eq_iff database a b).mp same
  rw [SpelledAlike, spelled_plain ha, spelled_plain hb, List.take_of_length_le (by rwa [String.length_toList]),
    List.take_of_length_le (by rwa [String.length_toList])] at alike
  exact String.toList_inj.mp alike

end SlotName

open SlotName

namespace JobSettings

/-- Whether two jobs replicate through one slot of a database: by the slots they are given, where they are given
any, and by the spellings of their indices. -/
def SharesSlot (database : String) (a b : JobSettings) : Prop :=
  match a.slotName, b.slotName with
  | some given, some other => given = other
  | some given, none => given = ofIndex database b.index
  | none, some other => ofIndex database a.index = other
  | none, none => SpelledAlike database a.index b.index

/-- A job that is given no slot, and whose index stands in its slot's and its channel's names as it is. -/
def IsPlain (database : String) (job : JobSettings) : Prop :=
  job.slotName = none ∧ SlotName.IsPlain job.index ∧ job.index.length ≤ room database ∧
    job.index.length ≤ room "replicator"

end JobSettings

namespace Settings

theorem repeatedIndex?_eq_none {seen : List String} {jobs : List JobSettings} :
    repeatedIndex? seen jobs = none ↔
      (∀ job ∈ jobs, job.index ∉ seen) ∧ jobs.Pairwise fun a b => a.index ≠ b.index := by
  induction jobs generalizing seen with
  | nil => simp [repeatedIndex?]
  | cons job rest ih =>
    rw [repeatedIndex?]
    by_cases known : job.index ∈ seen
    · simp [known]
    · rw [if_neg (by simpa using known), ih]
      simp only [List.mem_cons, not_or, List.pairwise_cons, forall_eq_or_imp]
      constructor
      · rintro ⟨fresh, apart⟩
        exact ⟨⟨known, fun b hb => (fresh b hb).2⟩, fun b hb => Ne.symm (fresh b hb).1, apart⟩
      · rintro ⟨⟨-, unseen⟩, first, apart⟩
        exact ⟨fun b hb => ⟨Ne.symm (first b hb), unseen b hb⟩, apart⟩

theorem validate_eq_ok {s : Settings} :
    s.validate = .ok () ↔
      s.jobs ≠ [] ∧ s.batchSize ≠ 0 ∧ s.maxChanges ≠ 0 ∧ s.jobs.Pairwise fun a b => a.index ≠ b.index := by
  have once := @repeatedIndex?_eq_none [] s.jobs
  simp only [List.not_mem_nil, not_false_eq_true, implies_true, true_and] at once
  rw [← once, validate]
  by_cases empty : s.jobs = []
  · simp [empty]
  · rw [if_neg (by simpa using empty)]
    by_cases pages : s.batchSize = 0 ∨ s.maxChanges = 0
    · simp only [if_pos pages, reduceCtorEq, false_iff]
      omega
    · rw [if_neg pages]
      cases repeatedIndex? [] s.jobs <;> simp [empty, not_or.mp pages]

/-- Jobs of accepted settings have different indices, but each pair may share its slot or its channel: the slot
exactly where the slots given, or else the spellings of the indices, are alike, and the channel exactly where the
spellings are. Plain jobs share neither. -/
theorem jobs_share_names_iff {s : Settings} (accepted : s.validate = .ok ()) (database : String) :
    s.jobs.Pairwise fun a b =>
      a.index ≠ b.index ∧
      ((s.options a database).slotName = (s.options b database).slotName ↔ a.SharesSlot database b) ∧
      (channel a = channel b ↔ SpelledAlike "replicator" a.index b.index) ∧
      (a.IsPlain database → b.IsPlain database →
        (s.options a database).slotName ≠ (s.options b database).slotName ∧ channel a ≠ channel b) := by
  have apart := (validate_eq_ok.mp accepted).2.2.2
  apply apart.imp
  intro a b differ
  refine ⟨differ, ?slot, ofIndex_eq_iff _ _ _, ?plain⟩
  case slot =>
    rw [JobSettings.SharesSlot]
    cases ha : a.slotName <;> cases hb : b.slotName <;> simp [options, ha, hb, ofIndex_eq_iff]
  case plain =>
    rintro ⟨noneA, plainA, slotA, channelA⟩ ⟨noneB, plainB, slotB, channelB⟩
    constructor
    · intro same
      simp only [options, noneA, noneB, Option.getD_none] at same
      exact differ (ofIndex_injective_plain plainA plainB slotA slotB same)
    · intro same
      exact differ (ofIndex_injective_plain plainA plainB channelA channelB same)

/-- Settings of jobs that are told apart by their indices alone. -/
def ofIndices (indices : List String) : Settings where
  sourceUrl := some "postgresql://localhost/library"
  schema := "public"
  sink := .database "postgresql://localhost/documents"
  checkpointPath := defaultCheckpointPath
  bufferPath := some "queue.db"
  pollInterval := 1000
  batchSize := 1000
  maxChanges := 10000
  retry := .standard
  listen := true
  jobs := indices.map fun index => ⟨index, .file "book.json", none⟩

theorem jobs_of_library_share_nothing :
    (ofIndices ["books_v2", "authors"]).validate = .ok () ∧
      ((ofIndices ["books_v2", "authors"]).jobs.map fun job =>
        ((ofIndices ["books_v2", "authors"]).options job "library").slotName).Nodup ∧
      ((ofIndices ["books_v2", "authors"]).jobs.map channel).Nodup := by
  have accepted : (ofIndices ["books_v2", "authors"]).validate = .ok () := rfl
  have apart := jobs_share_names_iff accepted "library"
  obtain ⟨-, -, -, plain⟩ := List.rel_of_pairwise_cons apart List.mem_cons_self
  have books : JobSettings.IsPlain "library" ⟨"books_v2", .file "book.json", none⟩ :=
    ⟨rfl, by decide, by decide, by decide⟩
  have authors : JobSettings.IsPlain "library" ⟨"authors", .file "book.json", none⟩ :=
    ⟨rfl, by decide, by decide, by decide⟩
  obtain ⟨slots, channels⟩ := plain books authors
  exact ⟨accepted, by simpa [ofIndices] using slots, by simpa [ofIndices] using channels⟩

/-- Two indices that differ in a dash and an underscore are accepted beside each other, and their jobs have one
slot and one channel. -/
theorem dashed_index_shares_names :
    (¬ ∀ s : Settings, s.validate = .ok () → ∀ database : String, s.jobs.Pairwise fun a b =>
        (s.options a database).slotName ≠ (s.options b database).slotName) ∧
      ¬ ∀ s : Settings, s.validate = .ok () → s.jobs.Pairwise fun a b => channel a ≠ channel b := by
  constructor
  · intro apart
    have slots := apart (ofIndices ["books-v2", "books_v2"]) rfl "library"
    exact List.rel_of_pairwise_cons slots List.mem_cons_self (by decide +kernel)
  · intro apart
    have channels := apart (ofIndices ["books-v2", "books_v2"]) rfl
    exact List.rel_of_pairwise_cons channels List.mem_cons_self (by decide +kernel)

end Settings

end DocSync
