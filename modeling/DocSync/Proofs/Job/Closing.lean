import DocSync.Proofs.Job.Opening
import DocSync.Proofs.Simulation.Views

/-!
How a cycle closes amid outages of its sink.  It saves the checkpoint, releases the log of its slot up to
there and acknowledges what it drained.  Wherever it fails on the way, the checkpoint does not pass what was
read, and the slot is not released past the checkpoint.
-/

namespace DocSync

theorem World.answer_reclaim_eq (wiring : Wiring) (s : Site) (slot : String) (upTo : Nat) :
    ∃ faults db, (db = s.1.database ∨ s.1.database.reclaim slot upTo = .ok db) ∧
      (answer wiring (.source (.reclaim slot upTo)) s).2 =
        ({ s.1 with faults := faults, database := db }, s.2) := by
  change ∃ faults db, _ ∧ ((answerSource wiring (.reclaim slot upTo) s.1).2, s.2) = _
  obtain ⟨faults, hfaults⟩ := struck_eq wiring.failing .reclaim s.1
  simp only [answerSource]
  split <;> rename_i hstruck <;> rw [hstruck] at hfaults <;> subst hfaults
  · exact ⟨faults, _, .inl rfl, rfl⟩
  · split
    · rename_i hreclaim
      exact ⟨faults, _, .inr hreclaim, rfl⟩
    · exact ⟨faults, _, .inl rfl, rfl⟩

/-- Whatever is called, the database moves as it may. -/
theorem World.answer_reaches (wiring : Wiring) (call : Call) (s : Site) :
    Database.Reaches s.1.database (answer wiring call s).2.1.database := by
  by_cases hquiet : call.IsQuiet
  · exact (answer_advances wiring call hquiet s).database.reaches
  cases call with
  | source call =>
    cases call with
    | openSlot name =>
      obtain ⟨faults, db, hdb, hanswer⟩ := answer_openSlot_eq wiring s name
      rw [hanswer]
      rcases hdb with rfl | rfl
      · exact .refl
      · exact .single (.openSlot _ _)
    | pull => exact absurd trivial hquiet
    | reclaim slot upTo => exact (answer_reclaim wiring s slot upTo).1
  | store call =>
    cases call with
    | load => exact absurd trivial hquiet
    | save index txid =>
      change Database.Reaches _ (s.1.saveMark wiring.store index txid).2.database
      rw [saveMark_database]
  | _ => exact absurd trivial hquiet

theorem Program.Runs.reaches {α : Type} {wiring : Wiring} {p : Routine α} {s s' : Site} {value : α}
    (h : Routine.Runs Site.Others wiring p s value s') :
    Database.Reaches s.1.database s'.1.database := by
  induction h with
  | done => exact .refl
  | ask hothers _ ih =>
    exact (hothers.1.advances.database.reaches.trans (World.answer_reaches wiring _ _)).trans ih

namespace Site

variable {wiring : Wiring} {index slot : String} {mark upTo : Nat} {s s' s₁ s₂ s₃ : Site}

/-- The checkpoint is at a transaction, and the slot is released no further. -/
structure Stands (wiring : Wiring) (index slot : String) (mark : Nat) (s : Site) : Prop where
  marked : s.1.mark wiring.store index = .ok (some mark)
  slot : ∃ found, s.1.database.slots.get? slot = some found ∧ found.reclaimedUpTo ≤ mark

/-- Neither the checkpoint nor what the slot is released up to lies past a transaction. -/
structure Behind (wiring : Wiring) (index slot : String) (upTo : Nat) (s : Site) : Prop where
  marked : ∃ before, s.1.mark wiring.store index = .ok before ∧ before.getD 0 ≤ upTo
  slot : ∃ found, s.1.database.slots.get? slot = some found ∧ found.reclaimedUpTo ≤ upTo

/-- Neither the checkpoint nor what the slot, if there is one, is released up to lies past the last
transaction. -/
structure Timely (wiring : Wiring) (index slot : String) (s : Site) : Prop where
  marked : ∃ before, s.1.mark wiring.store index = .ok before ∧ before.getD 0 ≤ s.1.database.lastTxid
  slot : ∀ found, s.1.database.slots.get? slot = some found →
    found.reclaimedUpTo ≤ s.1.database.lastTxid

theorem Stands.timely (h : s.Stands wiring index slot mark) (hlast : mark ≤ s.1.database.lastTxid) :
    s.Timely wiring index slot := by
  obtain ⟨found, hfound, hreleased⟩ := h.slot
  refine ⟨⟨some mark, h.marked, hlast⟩, fun other hother => ?_⟩
  obtain rfl := Option.some.inj (hfound.symm.trans hother)
  exact Nat.le_trans hreleased hlast

theorem Stands.meanwhile (h : s.Stands wiring index slot mark) (hmeanwhile : s.Meanwhile wiring s') :
    s'.Stands wiring index slot mark := by
  obtain ⟨found, hfound, hreleased⟩ := h.slot
  exact ⟨(hmeanwhile.marks.mark _ _).trans h.marked, found, hmeanwhile.kept _ _ hfound, hreleased⟩

theorem Stands.behind (h : s.Stands wiring index slot mark) (hle : mark ≤ upTo) :
    s.Behind wiring index slot upTo := by
  obtain ⟨found, hfound, hreleased⟩ := h.slot
  exact ⟨⟨some mark, h.marked, hle⟩, found, hfound, Nat.le_trans hreleased hle⟩

/-- The checkpoint and the slots are as they were. -/
structure Unmoved (wiring : Wiring) (index : String) (s s' : Site) : Prop where
  mark : s'.1.mark wiring.store index = s.1.mark wiring.store index
  slots : s'.1.database.slots = s.1.database.slots

theorem Unmoved.trans (h : s₁.Unmoved wiring index s₂) (h' : s₂.Unmoved wiring index s₃) :
    s₁.Unmoved wiring index s₃ :=
  ⟨h'.mark.trans h.mark, h'.slots.trans h.slots⟩

theorem unmoved_of_sameElse (h : s.SameElse s') : s.Unmoved wiring index s' := by
  refine ⟨?_, h.database ▸ rfl⟩
  rw [h.world]
  rfl

theorem unmoved_of_advances (h : World.Advances s.1 s'.1) : s.Unmoved wiring index s' :=
  ⟨h.marks.mark _ _, h.database.slots⟩

theorem Stands.unmoved (h : s.Stands wiring index slot mark) (hunmoved : s.Unmoved wiring index s') :
    s'.Stands wiring index slot mark :=
  ⟨hunmoved.mark.trans h.marked, hunmoved.slots ▸ h.slot⟩

theorem Behind.unmoved (h : s.Behind wiring index slot upTo) (hunmoved : s.Unmoved wiring index s') :
    s'.Behind wiring index slot upTo :=
  ⟨hunmoved.mark ▸ h.marked, hunmoved.slots ▸ h.slot⟩

/-- A release up to the checkpoint does not pass it. -/
theorem Stands.reclaim (h : s.Stands wiring index slot mark) :
    (World.answer wiring (.source (.reclaim slot mark)) s).2.Stands wiring index slot mark := by
  obtain ⟨faults, db, hdb, hanswer⟩ := World.answer_reclaim_eq wiring s slot mark
  obtain ⟨found, hfound, hreleased⟩ := h.slot
  rw [hanswer]
  refine ⟨h.marked, ?_⟩
  rcases hdb with rfl | hreclaim
  · exact ⟨found, hfound, hreleased⟩
  · obtain ⟨old, hold, rfl⟩ := Database.reclaim_eq_ok hreclaim
    obtain rfl := Option.some.inj (hfound.symm.trans hold)
    refine ⟨{ found with reclaimedUpTo := max found.reclaimedUpTo mark }, ?_,
      Nat.max_le.mpr ⟨hreleased, le_rfl⟩⟩
    exact (Keyed.get?_put _ _ _ _).trans (if_pos rfl)

end Site

namespace Job

open Working Stateful

variable {wiring : Wiring} {job job' job₁ job₂ job₃ : Job} {s s' s₁ s₂ s₃ : Site}

/-- A step on the side that leaves the slot of the job and a fed buffer. -/
structure Closing (wiring : Wiring) (job job' : Job) (s s' : Site) : Prop where
  aside : Aside wiring job job' s s'
  slot : job'.slot = job.slot
  fed : s.1.IsFed wiring.buffer → s'.1.IsFed wiring.buffer

theorem Closing.trans (h : Closing wiring job₁ job₂ s₁ s₂) (h' : Closing wiring job₂ job₃ s₂ s₃) :
    Closing wiring job₁ job₃ s₁ s₃ :=
  ⟨h.aside.trans h'.aside, h'.slot.trans h.slot, h'.fed ∘ h.fed⟩

theorem Closing.enter (job : Job) (s : Site) (phase : Phase) :
    Closing wiring job { job with phase := phase } s s :=
  ⟨.enter job s phase, rfl, id⟩

/-- Saving ends in failure with the checkpoint and the slots as they were, or with the checkpoint where it
is wanted and the slot released no further. -/
theorem persist_closes (hwrites : (s.1.buffer wiring.buffer).writes = []) {slot : String} {upTo : Nat}
    {result : Except SyncError Unit}
    (h : Runs (Site.Outages wiring.sink) wiring (persist slot upTo) job s result job' s') :
    Closing wiring job job' s s' ∧
      ((∃ e, result = .error e) ∧ s.Unmoved wiring job.options.index s' ∨
        (s.Behind wiring job.options.index slot upTo → s'.Stands wiring job.options.index slot upTo)) := by
  have haside := persist_aside hwrites h
  have hasks : Stateful.Asks Call.IsPrompt (persist slot upTo) :=
    persist_asks (fun _ _ => ⟨trivial, fun _ => nofun⟩) (fun _ _ => ⟨trivial, fun _ => nofun⟩) _ _
  have hfed := Program.Runs.isFed (hasks job) (h.mono fun h => h.others)
  rw [persist, runs_get_bind] at h
  rcases runs_bind.mp h with ⟨saved, job₁, s₂, hsaves, hrest⟩ | ⟨e, hsaves, rfl⟩
  · obtain ⟨hsaves, rfl⟩ := runs_orFatal_ok.mp hsaves
    obtain ⟨s₁, hothers, hanswer, hs₂⟩ := Program.runs_request.mp (Attempt.runs_mapError_ok.mp hsaves)
    obtain ⟨hreleases, rfl⟩ := runs_transported.mp hrest
    refine ⟨⟨haside, rfl, hfed⟩, .inr fun hbehind => ?_⟩
    obtain ⟨before, hmark, hraised⟩ := World.saveMark_mark hanswer.symm
    -- what is saved is the end of the window, since the checkpoint was not past it
    have hstands : s₂.Stands wiring job'.options.index slot upTo := by
      obtain ⟨⟨old, hold, hle⟩, hslot⟩ :=
        hbehind.unmoved (Site.unmoved_of_advances hothers.others.1.advances)
      obtain rfl := Except.ok.inj (hmark.symm.trans hold)
      rw [hs₂]
      refine ⟨?_, ?_⟩
      · rw [Nat.max_eq_left hle] at hraised
        exact hraised
      · change ∃ found, (s₁.1.saveMark wiring.store job'.options.index upTo).2.database.slots.get? slot =
          some found ∧ _
        rw [World.saveMark_database]
        exact hslot
    obtain ⟨_, hmapped, -⟩ := hreleases
    obtain ⟨_, hcall, -⟩ := Attempt.runs_mapError.mp hmapped
    obtain ⟨s₃, hothers', -, rfl⟩ := Program.runs_request.mp hcall
    exact (hstands.unmoved (Site.unmoved_of_advances hothers'.others.1.advances)).reclaim
  · obtain ⟨hsaves, rfl⟩ := runs_orFatal.mp hsaves
    refine ⟨⟨haside, rfl, hfed⟩, .inl ⟨⟨e, rfl⟩, ?_⟩⟩
    obtain ⟨r, hmapped, hr⟩ := hsaves
    obtain ⟨r', hcall, rfl⟩ := Attempt.runs_mapError.mp hmapped
    obtain ⟨s₁, hothers, hanswer, rfl⟩ := Program.runs_request.mp hcall
    have hbefore : s.Unmoved wiring job'.options.index s₁ :=
      Site.unmoved_of_advances hothers.others.1.advances
    cases r' with
    | ok saved => contradiction
    | error failure =>
      refine hbefore.trans ⟨?_, ?_⟩
      · have hsaved : (s₁.1.saveMark wiring.store job'.options.index upTo).1 = .error failure :=
          hanswer.symm
        change (s₁.1.saveMark wiring.store job'.options.index upTo).2.mark _ _ = _
        rw [World.mark_saveMark, if_pos rfl, hsaved]
      · exact congrArg Database.slots (World.saveMark_database _ _ _ _)

theorem ack_closes (hwrites : (s.1.buffer wiring.buffer).writes = []) {result : Except SyncError Unit}
    (h : Runs (Site.Outages wiring.sink) wiring ack job s result job' s') :
    Closing wiring job job' s s' ∧ ∀ index, s.Unmoved wiring index s' := by
  have haside := ack_aside hwrites h
  have hothers := h.mono fun h => h.others
  have hfed := Program.Runs.isFed (ack_asks ⟨trivial, fun _ => nofun⟩ job) hothers
  have hadvances := World.advances_of_runs (ack_asks trivial job) hothers
  obtain ⟨-, rfl⟩ := runs_transported.mp h
  exact ⟨⟨haside, rfl, hfed⟩, fun _ => Site.unmoved_of_advances hadvances⟩

/-- The end of a cycle that has nothing to save. -/
theorem acks_closes (hwrites : (s.1.buffer wiring.buffer).writes = []) {stats : CycleStats}
    {result : Except SyncError CycleStats}
    (h : Runs (Site.Outages wiring.sink) wiring (do ack; enter .idle; return stats) job s result job' s') :
    Closing wiring job job' s s' ∧ (∀ index, s.Unmoved wiring index s') ∧
      ∀ value, result = .ok value → value = stats := by
  rcases runs_bind.mp h with ⟨_, job₁, s₁, hack, hrest⟩ | ⟨e, hack, rfl⟩
  · obtain ⟨hclosing, hunmoved⟩ := ack_closes hwrites hack
    rw [runs_enter_bind] at hrest
    obtain ⟨rfl, rfl, rfl⟩ := runs_pure.mp hrest
    exact ⟨hclosing.trans (.enter job₁ s' .idle), hunmoved, fun _ hvalue => (Except.ok.inj hvalue).symm⟩
  · obtain ⟨hclosing, hunmoved⟩ := ack_closes hwrites hack
    exact ⟨hclosing, hunmoved, fun _ hvalue => by contradiction⟩

/-- The end of a cycle that saves. -/
theorem saves_closes (hwrites : (s.1.buffer wiring.buffer).writes = []) {slot : String} {upTo : Nat}
    {stats : CycleStats} {result : Except SyncError CycleStats}
    (h : Runs (Site.Outages wiring.sink) wiring
      (do persist slot upTo; ack; enter .idle; return stats) job s result job' s') :
    Closing wiring job job' s s' ∧
      ((∃ e, result = .error e) ∧ s.Unmoved wiring job.options.index s' ∨
        (s.Behind wiring job.options.index slot upTo → s'.Stands wiring job.options.index slot upTo)) ∧
      ∀ value, result = .ok value → value = stats := by
  rcases runs_bind.mp h with ⟨_, job₁, s₁, hpersist, hrest⟩ | ⟨e, hpersist, rfl⟩
  · obtain ⟨hclosing, ⟨⟨e, he⟩, -⟩ | hends⟩ := persist_closes hwrites hpersist
    · contradiction
    obtain ⟨hacked, hunmoved, hvalue⟩ := acks_closes (hclosing.aside.writes hwrites) hrest
    exact ⟨hclosing.trans hacked, .inr fun hbehind => (hends hbehind).unmoved (hunmoved _), hvalue⟩
  · obtain ⟨hclosing, hends⟩ := persist_closes hwrites hpersist
    refine ⟨hclosing, hends.imp_left fun h => ⟨⟨e, rfl⟩, h.2⟩, fun _ hvalue => by contradiction⟩

end Job

end DocSync
