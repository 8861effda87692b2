import DocSync.Proofs.Simulation.Rest

/-!
What a job can tell of databases, sinks and checkpoint stores: the database without the slots of others, the
documents of its index, and its checkpoint.  What is the same for a job stays so when the same is done to both,
and when something is done that is another's.
-/

namespace DocSync

/-! ### The database -/

namespace Database

/-- Databases that are the same for who has the slot. -/
structure SameFor (slot : String) (db db' : Database) : Prop where
  rest : db' = { db with slots := db'.slots }
  slot : db'.slots.get? slot = db.slots.get? slot

variable {slot : String} {db db' db₁ db₂ db₃ : Database}

theorem SameFor.refl (slot : String) (db : Database) : SameFor slot db db := ⟨rfl, rfl⟩

theorem SameFor.symm (h : SameFor slot db db') : SameFor slot db' db := by
  refine ⟨?_, h.slot.symm⟩
  rw [h.rest]

theorem SameFor.trans (h : SameFor slot db₁ db₂) (h' : SameFor slot db₂ db₃) : SameFor slot db₁ db₃ := by
  refine ⟨?_, h'.slot.trans h.slot⟩
  rw [h'.rest, h.rest]

theorem sameFor_putSlot (db : Database) {other : String} (found : Slot) (hother : other ≠ slot) :
    SameFor slot db { db with slots := db.slots.put other found } := by
  refine ⟨rfl, ?_⟩
  rw [Keyed.get?_put, if_neg hother]

theorem openSlot_sameFor {other : String} (hother : other ≠ slot) : SameFor slot db (db.openSlot other) := by
  unfold openSlot
  split
  · exact .refl slot db
  · exact sameFor_putSlot db _ hother

theorem SameFor.openSlot (h : SameFor slot db db') : SameFor slot (db.openSlot slot) (db'.openSlot slot) := by
  have hcontains : db'.slots.contains slot = db.slots.contains slot := by
    rw [Keyed.contains, Keyed.contains, h.slot]
  unfold Database.openSlot
  rw [hcontains]
  split
  · exact h
  · refine ⟨?_, ?_⟩
    · rw [h.rest]
    · rw [Keyed.get?_put, Keyed.get?_put, if_pos rfl, if_pos rfl, h.rest]

theorem SameFor.pull (h : SameFor slot db db') (window : TxWindow) (most offset : Nat) :
    db'.pull slot window most offset = db.pull slot window most offset := by
  have hlog : db'.log = db.log := by rw [h.rest]
  rw [Database.pull, Database.pull, h.slot, hlog]

theorem reclaim_sameFor {other : String} {upTo : Nat} (hother : other ≠ slot)
    (h : db.reclaim other upTo = .ok db') : SameFor slot db db' := by
  unfold reclaim at h
  split at h
  · contradiction
  · obtain rfl := Except.ok.inj h
    exact sameFor_putSlot db _ hother

/-- Both release the log to their slot, or neither does. -/
theorem SameFor.reclaim (h : SameFor slot db db') (upTo : Nat) :
    (∃ e, db.reclaim slot upTo = .error e ∧ db'.reclaim slot upTo = .error e) ∨
      ∃ db₁ db₁', db.reclaim slot upTo = .ok db₁ ∧ db'.reclaim slot upTo = .ok db₁' ∧
        SameFor slot db₁ db₁' := by
  unfold Database.reclaim
  rw [h.slot]
  cases db.slots.get? slot with
  | none => exact .inl ⟨_, rfl, rfl⟩
  | some found =>
    refine .inr ⟨_, _, rfl, rfl, ?_, ?_⟩
    · rw [h.rest]
    · rw [Keyed.get?_put, Keyed.get?_put, if_pos rfl, if_pos rfl]

theorem commit_slots (db : Database) (slots : Keyed Slot) (queries : List Query) :
    { db with slots := slots }.commit queries =
      (db.commit queries).map fun (rows, logged, after) => (rows, logged, { after with slots := slots }) := by
  unfold commit
  dsimp only
  cases applyAll db.schema (db.lastTxid + 1) queries db.tables with
  | error e => rfl
  | ok applied =>
    show (if applied.records.isEmpty then _ else _) =
      Except.map _ (if applied.records.isEmpty then _ else _)
    split <;> rfl

/-- Both commit and log the same, or neither does. -/
theorem SameFor.commit (h : SameFor slot db db') (queries : List Query) :
    (∃ e, db.commit queries = .error e ∧ db'.commit queries = .error e) ∨
      ∃ rows logged db₁ db₁', db.commit queries = .ok (rows, logged, db₁) ∧
        db'.commit queries = .ok (rows, logged, db₁') ∧ SameFor slot db₁ db₁' := by
  have hcommit := commit_slots db db'.slots queries
  rw [← h.rest] at hcommit
  cases hdb : db.commit queries with
  | error e => exact .inl ⟨e, rfl, by rw [hcommit, hdb]; rfl⟩
  | ok committed =>
    obtain ⟨rows, logged, db₁⟩ := committed
    have hslots : db₁.slots = db.slots := (Extends.of_commit hdb).slots
    refine .inr ⟨rows, logged, db₁, _, rfl, by rw [hcommit, hdb]; rfl, rfl, ?_⟩
    rw [hslots]
    exact h.slot

end Database

/-! ### Sinks -/

namespace MemorySink

/-- Sinks that are the same for who writes to the index. -/
structure SameFor (index : String) (sink sink' : MemorySink) : Prop extends SameNature sink sink' where
  stored : sink'.stored index = sink.stored index

variable {index : String} {sink sink' sink₁ sink₂ sink₃ : MemorySink}

theorem SameFor.refl (index : String) (sink : MemorySink) : SameFor index sink sink := ⟨.refl sink, rfl⟩

theorem SameFor.symm (h : SameFor index sink sink') : SameFor index sink' sink :=
  ⟨⟨h.rejected.symm, h.looksUp.symm, h.enumerates.symm⟩, h.stored.symm⟩

theorem SameFor.trans (h : SameFor index sink₁ sink₂) (h' : SameFor index sink₂ sink₃) :
    SameFor index sink₁ sink₃ :=
  ⟨h.toSameNature.trans h'.toSameNature, h'.stored.trans h.stored⟩

theorem stored_put (sink : MemorySink) (other : String) (documents : Keyed Document) :
    stored { sink with indices := sink.indices.put other documents } index =
      if other = index then documents else sink.stored index := by
  rw [stored, stored, Keyed.getD_put]

theorem upsert_sameFor {d : Document} (hindex : d.index ≠ index) : SameFor index sink (sink.upsert d).2 := by
  unfold upsert unlessFailing
  split
  · split
    · exact .refl index sink
    · refine ⟨⟨rfl, rfl, rfl⟩, ?_⟩
      exact (stored_put sink d.index _).trans (if_neg hindex)
  · exact ⟨⟨rfl, rfl, rfl⟩, rfl⟩

theorem delete_sameFor {other : String} (hother : other ≠ index) (identity : String) :
    SameFor index sink (sink.delete other identity).2 := by
  unfold delete unlessFailing
  split
  · split
    · refine ⟨⟨rfl, rfl, rfl⟩, ?_⟩
      exact (stored_put sink other _).trans (if_neg hother)
    · exact .refl index sink
  · exact ⟨⟨rfl, rfl, rfl⟩, rfl⟩

theorem refresh_sameFor : SameFor index sink sink.refresh.2 := by
  have halike := alike_refresh sink
  exact ⟨halike.toSameNature, halike.stored index⟩

theorem SameFor.upsert (h : SameFor index sink sink') (hfailures : sink.failures = 0)
    (hfailures' : sink'.failures = 0) {d : Document} (hindex : d.index = index) :
    (sink'.upsert d).1 = (sink.upsert d).1 ∧ SameFor index (sink.upsert d).2 (sink'.upsert d).2 := by
  have hrejected : sink'.rejected.contains d.identity = sink.rejected.contains d.identity := by rw [h.rejected]
  unfold MemorySink.upsert unlessFailing
  rw [if_pos hfailures, if_pos hfailures', hrejected]
  split
  · exact ⟨rfl, h⟩
  · refine ⟨rfl, ⟨h.rejected, h.looksUp, h.enumerates⟩, ?_⟩
    refine (stored_put sink' d.index _).trans (Eq.trans ?_ (stored_put sink d.index _).symm)
    rw [if_pos hindex, if_pos hindex, hindex, h.stored]

theorem SameFor.delete (h : SameFor index sink sink') (hfailures : sink.failures = 0)
    (hfailures' : sink'.failures = 0) (identity : String) :
    (sink'.delete index identity).1 = (sink.delete index identity).1 ∧
      SameFor index (sink.delete index identity).2 (sink'.delete index identity).2 := by
  unfold MemorySink.delete unlessFailing
  rw [if_pos hfailures, if_pos hfailures', h.stored]
  split
  · refine ⟨rfl, ⟨h.rejected, h.looksUp, h.enumerates⟩, ?_⟩
    refine (stored_put sink' index _).trans (Eq.trans ?_ (stored_put sink index _).symm)
    rw [if_pos rfl, if_pos rfl]
  · exact ⟨rfl, h⟩

theorem SameFor.refresh (h : SameFor index sink sink') (hfailures : sink.failures = 0)
    (hfailures' : sink'.failures = 0) :
    sink'.refresh.1 = sink.refresh.1 ∧ SameFor index sink.refresh.2 sink'.refresh.2 := by
  refine ⟨?_, (refresh_sameFor.symm.trans h).trans refresh_sameFor⟩
  rw [MemorySink.refresh, MemorySink.refresh, unlessFailing, unlessFailing, if_pos hfailures,
    if_pos hfailures']

theorem SameFor.findByMeta (h : SameFor index sink sink') (table : String) (key : List (String × Json)) :
    sink'.findByMeta index table key = sink.findByMeta index table key := by
  unfold MemorySink.findByMeta MemorySink.documents
  rw [h.looksUp, h.stored]

theorem SameFor.identities (h : SameFor index sink sink') : sink'.identities index = sink.identities index := by
  unfold MemorySink.identities
  rw [h.enumerates, h.stored]

theorem upsert_failures (h : sink.failures = 0) (d : Document) : (sink.upsert d).2.failures = 0 := by
  unfold upsert unlessFailing
  rw [if_pos h]
  split <;> exact h

theorem delete_failures (h : sink.failures = 0) (other identity : String) :
    (sink.delete other identity).2.failures = 0 := by
  unfold delete unlessFailing
  rw [if_pos h]
  split <;> exact h

theorem refresh_failures (h : sink.failures = 0) : sink.refresh.2.failures = 0 := by
  unfold refresh unlessFailing
  rw [if_pos h]
  exact h

end MemorySink

namespace World

variable {w w' w₁ w₂ w₃ : World}

/-! ### Checkpoint stores -/

/-- Worlds whose store is the same for who has the checkpoint of the index. -/
structure SameStore (store index : String) (w w' : World) : Prop where
  mark : w'.mark store index = w.mark store index
  below : w'.isBelowFile store = w.isBelowFile store
  directory : w'.directory = w.directory
  sourceUrl : w'.sourceUrl = w.sourceUrl

section

variable {store index : String}

theorem SameStore.refl (store index : String) (w : World) : SameStore store index w w := ⟨rfl, rfl, rfl, rfl⟩

theorem SameStore.symm (h : SameStore store index w w') : SameStore store index w' w :=
  ⟨h.mark.symm, h.below.symm, h.directory.symm, h.sourceUrl.symm⟩

theorem SameStore.trans (h : SameStore store index w₁ w₂) (h' : SameStore store index w₂ w₃) :
    SameStore store index w₁ w₃ :=
  ⟨h'.mark.trans h.mark, h'.below.trans h.below, h'.directory.trans h.directory,
    h'.sourceUrl.trans h.sourceUrl⟩

/-- What is saved where saving is not made to fail. -/
theorem saveMark_calm (h : w.faults.count .save = 0) (store index : String) (txmin : Nat) :
    (w.saveMark store index txmin).1 = (w.mark store index).bind fun before =>
      if isFile store && w.isBelowFile store then
        .error (pathFailure "Failed to create directory" (parentPath (w.filePath store)))
      else .ok (max txmin (before.getD 0)) := by
  have hstrike : w.strike .save = (none, w) := by simp [strike, Faults.strike, h]
  simp only [saveMark, hstrike, mark]
  cases hfile : isFile store with
  | false => rfl
  | true =>
    cases hread : w.checkpointsIn store w.sourceUrl with
    | error e => rfl
    | ok file =>
      simp only [storeCheckpoints, if_true, Except.map, Except.bind, Bool.true_and]
      cases w.isBelowFile store <;> rfl

theorem isBelowFile_putFile (w : World) (store : String) (file : StoredFile) :
    (w.putFile store file).isBelowFile store = w.isBelowFile store := by
  simp [isBelowFile, putFile, Keyed.any_keys_put]

theorem isBelowFile_saveMark (w : World) (store index : String) (txmin : Nat) :
    (w.saveMark store index txmin).2.isBelowFile store = w.isBelowFile store := by
  simp only [saveMark]
  split
  · rename_i w₁ hstrike
    exact congrArg (·.2.isBelowFile store) hstrike.symm
  rename_i w₁ hstrike
  have hw₁ : w₁.isBelowFile store = w.isBelowFile store := congrArg (·.2.isBelowFile store) hstrike.symm
  rw [← hw₁]
  split
  · split
    · rfl
    · split
      · rename_i w₂ hstored
        unfold storeCheckpoints at hstored
        split at hstored
        · contradiction
        · rw [← Except.ok.inj hstored, isBelowFile_putFile]
      · rfl
  · rfl

/-- Saving a checkpoint leaves those of the other indices. -/
theorem mark_saveMark (w : World) (store index other : String) (txmin : Nat) :
    (w.saveMark store index txmin).2.mark store other =
      if index = other then
        match (w.saveMark store index txmin).1 with
        | .ok saved => .ok (some saved)
        | .error _ => w.mark store index
      else w.mark store other := by
  have hkept : w.mark store other = if index = other then w.mark store index else w.mark store other := by
    split
    · rename_i heq
      rw [heq]
    · rfl
  obtain ⟨faults, hstruck⟩ : ∃ faults, (w.strike .save).2 = { w with faults := faults } := ⟨_, rfl⟩
  rcases hstrike : w.strike .save with ⟨_ | failure, w₁⟩
  · obtain rfl : w₁ = { w with faults := faults } := by rw [← hstruck, hstrike]
    simp only [saveMark, hstrike]
    cases hfile : isFile store with
    | false =>
      simp only [mark, hfile, Bool.false_eq_true, if_false, raiseMark, Keyed.getD_put, if_true, Keyed.get?_put]
      split <;> rfl
    | true =>
      have hmarks (name : String) : w.mark store name =
          (w.checkpointsIn store w.sourceUrl).map fun file => file.marks.get? name := if_pos hfile
      have hread : checkpointsIn { w with faults := faults } store w.sourceUrl =
          w.checkpointsIn store w.sourceUrl := rfl
      cases hfound : w.checkpointsIn store w.sourceUrl with
      | error e =>
        simp only [hread, hfound, if_true]
        exact hkept
      | ok file =>
        simp only [hread, hfound, if_true, storeCheckpoints]
        cases isBelowFile { w with faults := faults } store with
        | true => exact hkept
        | false =>
          have hput : (putFile { w with faults := faults } store
              (.readable (file.advance index txmin).2)).mark store other =
                .ok ((file.advance index txmin).2.marks.get? other) := by
            rw [mark, if_pos hfile, checkpointsIn_putFile]
            rfl
          refine hput.trans ?_
          rw [hmarks index, hmarks other, hfound]
          show Except.ok ((file.marks.put index _).get? other) = _
          rw [Keyed.get?_put]
          split <;> rfl
  · simp only [saveMark, hstrike]
    have hw₁ : w₁.mark store other = w.mark store other := congrArg (·.2.mark store other) hstrike.symm
    rw [hw₁]
    exact hkept

theorem SameStore.saveMark (h : SameStore store index w w') (hcalm : w.faults.count .save = 0)
    (hcalm' : w'.faults.count .save = 0) (txmin : Nat) :
    (w'.saveMark store index txmin).1 = (w.saveMark store index txmin).1 ∧
      SameStore store index (w.saveMark store index txmin).2 (w'.saveMark store index txmin).2 := by
  have hanswer : (w'.saveMark store index txmin).1 = (w.saveMark store index txmin).1 := by
    have hpath : w'.filePath store = w.filePath store := by rw [filePath, filePath, h.directory]
    rw [saveMark_calm hcalm, saveMark_calm hcalm', h.mark, h.below, hpath]
  refine ⟨hanswer, ?_, ?_, ?_, ?_⟩
  · rw [mark_saveMark, mark_saveMark, if_pos rfl, if_pos rfl, hanswer, h.mark]
  · rw [isBelowFile_saveMark, isBelowFile_saveMark, h.below]
  · obtain ⟨_, _, _, hsaved⟩ := saveMark_eq w store index txmin
    obtain ⟨_, _, _, hsaved'⟩ := saveMark_eq w' store index txmin
    rw [hsaved, hsaved']
    exact h.directory
  · obtain ⟨_, _, _, hsaved⟩ := saveMark_eq w store index txmin
    obtain ⟨_, _, _, hsaved'⟩ := saveMark_eq w' store index txmin
    rw [hsaved, hsaved']
    exact h.sourceUrl

theorem saveMark_sameStore {other : String} (hother : other ≠ index) (txmin : Nat) :
    SameStore store index w (w.saveMark store other txmin).2 := by
  obtain ⟨_, _, _, hsaved⟩ := saveMark_eq w store other txmin
  refine ⟨?_, isBelowFile_saveMark w store other txmin, ?_, ?_⟩
  · rw [mark_saveMark, if_neg hother]
  · rw [hsaved]
  · rw [hsaved]

end

end World

end DocSync
