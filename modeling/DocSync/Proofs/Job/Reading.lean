import DocSync.Proofs.Simulation.World
import Mathlib

/-!
What a receive cycle reads.  The window of a cycle runs from the stored checkpoint to the last
transaction, and the pages of a pull together give what the slot has of it.  Main statement: which
changes a cycle that moves the checkpoint may pass over.
-/

namespace DocSync

open World

/-- A wiring that lets the records of the log pass as they are. -/
def Wiring.Faithful (wiring : Wiring) : Prop := wiring.ignored = [] ∧ wiring.textKeys = false

theorem pageThrough_faithful {wiring : Wiring} (h : wiring.Faithful) (records : List ChangeRecord) :
    pageThrough wiring records = .unfiltered records := by
  simp [pageThrough, h.1, h.2, ChangePage.unfiltered]

namespace Job

variable {wiring : Wiring} {job job' : Job} {s s' : Site}

/-- The pages of a pull are together what the slot has of the window after the offset, whoever commits
meanwhile. -/
theorem pullPages_runs (hwiring : wiring.Faithful) {name : String} {window : TxWindow}
    {most pages offset : Nat} {records : List ChangeRecord}
    (hwindow : window.txmax ≤ s.1.database.lastTxid)
    (h : Attempt.Runs Site.Others wiring (pullPages name window most pages offset) s (.ok records)
      s') :
    ∃ slot, s.1.database.slots.get? name = some slot ∧
      records = (Database.Slot.within slot window s.1.database.log).drop offset ∧
      Advances s.1 s'.1 := by
  induction pages generalizing offset records s with
  | zero => exact (Program.not_runs_spent h).elim
  | succ pages ih =>
    rw [pullPages, Attempt.runs_bind_ok] at h
    obtain ⟨page, s₂, hpull, hrest⟩ := h
    obtain ⟨s₁, hothers, hpage, hs₂⟩ :=
      Program.runs_request.mp (Attempt.runs_mapError_ok.mp hpull)
    have hbefore : Advances s.1 s₁.1 := hothers.1.advances
    have hpulled : Advances s.1 s₂.1 := hbefore.trans
      (hs₂ ▸ answer_advances wiring (.source (.pull name window most offset)) trivial s₁)
    obtain ⟨slot, hslot, rfl⟩ := answer_pull hpage.symm
    rw [hbefore.database.slots] at hslot
    rw [hbefore.database.reaches.within hwindow, pageThrough_faithful hwiring] at hrest
    generalize hlogged : Database.Slot.within slot window s.1.database.log = logged at hrest
    refine ⟨slot, hslot, ?_⟩
    rw [hlogged]
    split at hrest
    · rename_i hlast
      change ((logged.drop offset).take most).length < most at hlast
      obtain ⟨hrecords, rfl⟩ := Attempt.runs_pure.mp hrest
      refine ⟨(Except.ok.inj hrecords).trans (List.take_of_length_le ?_), hpulled⟩
      simp only [List.length_take] at hlast
      omega
    · rename_i hlast
      change ¬ ((logged.drop offset).take most).length < most at hlast
      have hfull : ((logged.drop offset).take most).length = most := by
        simp only [List.length_take] at hlast ⊢
        omega
      obtain ⟨others, s₃, hothers, hdone⟩ := Attempt.runs_bind_ok.mp hrest
      obtain ⟨hrecords, rfl⟩ := Attempt.runs_pure.mp hdone
      have hlater := Nat.le_trans hwindow hpulled.database.reaches.log.1
      obtain ⟨slot', hslot', hrest', hrested⟩ := ih hlater hothers
      rw [hpulled.database.slots, hslot] at hslot'
      obtain rfl := Option.some.inj hslot'
      rw [hpulled.database.reaches.within hwindow, hlogged] at hrest'
      refine ⟨(Except.ok.inj hrecords).trans ?_, hpulled.trans hrested⟩
      simp only [ChangePage.unfiltered] at hrest' ⊢
      rw [hrest', hfull, ← List.drop_drop]
      exact List.take_append_drop most _

/-- How a slot is found by a job that opens it: as it was, or released up to the last transaction. -/
structure Opened (name : String) (db db' : Database) : Prop where
  reaches : Database.Reaches db db'
  existing : ∀ slot, db.slots.get? name = some slot → db'.slots.get? name = some slot
  new : db.slots.get? name = none →
    ∀ slot, db'.slots.get? name = some slot → db.lastTxid ≤ slot.reclaimedUpTo

theorem Opened.extends {name : String} {db₁ db₂ db₃ : Database} (h : Opened name db₁ db₂)
    (h' : Database.Extends db₂ db₃) : Opened name db₁ db₃ := by
  refine ⟨h.reaches.trans h'.reaches, ?_, ?_⟩
  · intro slot hslot
    rw [h'.slots]
    exact h.existing slot hslot
  · intro hnone slot hslot
    rw [h'.slots] at hslot
    exact h.new hnone slot hslot

theorem openSlot_runs {name : String}
    (h : Stateful.Runs Site.Others wiring openSlot job s (.ok name) job' s') :
    name = job.slot.getD job.options.slotName ∧ Opened name s.1.database s'.1.database ∧
      KeepsMarks s.1 s'.1 ∧ job'.options = job.options ∧ job'.plan = job.plan := by
  rw [openSlot, Stateful.runs_get_bind] at h
  split at h
  · rename_i slot hremembered
    obtain ⟨hslot, rfl, rfl⟩ := Stateful.runs_pure.mp h
    refine ⟨by simp [hremembered, Except.ok.inj hslot], ⟨.refl, fun _ h => h, ?_⟩, .refl _, rfl, rfl⟩
    intro hnone slot hslot
    simp [hnone] at hslot
  · rename_i hnone
    obtain ⟨slot, job₁, s₂, hopen, h⟩ := Stateful.runs_bind_ok.mp h
    obtain ⟨hopen, rfl⟩ := Working.runs_orFatal_ok.mp hopen
    obtain ⟨s₁, hothers, hanswer, hs₂⟩ :=
      Program.runs_request.mp (Attempt.runs_mapError_ok.mp hopen)
    rw [Stateful.runs_set_bind] at h
    obtain ⟨hslot, rfl, rfl⟩ := Stateful.runs_pure.mp h
    obtain ⟨rfl, hdatabase, hmarks⟩ := answer_openSlot (Except.ok.inj hslot ▸ hanswer.symm)
    rw [← hs₂] at hdatabase hmarks
    have hbefore : Advances s.1 s₁.1 := hothers.1.advances
    refine ⟨by simp [hnone], ⟨?_, ?_, ?_⟩, hbefore.marks.trans hmarks, rfl, rfl⟩
    · rw [hdatabase]
      exact hbefore.database.reaches.tail (.openSlot _ _)
    · intro found hfound
      rw [← hbefore.database.slots] at hfound
      simp [hdatabase, Database.openSlot, Keyed.contains, hfound]
    · intro hnone found hfound
      rw [← hbefore.database.slots] at hnone
      simp only [hdatabase, Database.openSlot, Keyed.contains, hnone, Option.isSome_none,
        Bool.false_eq_true, if_false, Keyed.get?_put, if_true, Option.some.injEq] at hfound
      exact hfound ▸ hbefore.database.reaches.log.1

/-- What a receive cycle has read: a window that starts at the checkpoint, and all that the slot has
of it. -/
structure HasRead (wiring : Wiring) (job : Job) (s s' : Site) (reading : Reading) : Prop where
  name : reading.slot = job.slot.getD job.options.slotName
  opened : Opened reading.slot s.1.database s'.1.database
  marks : KeepsMarks s.1 s'.1
  txmin : ∃ before, s.1.mark wiring.store job.options.index = .ok before ∧
    reading.window.txmin = before.getD 0
  pulled : reading.window.isEmpty = false →
    reading.window.txmax ≤ s'.1.database.lastTxid ∧
      ∃ slot, s'.1.database.slots.get? reading.slot = some slot ∧
        reading.pulled = Database.Slot.within slot reading.window s'.1.database.log

theorem pullWindow_runs (hwiring : wiring.Faithful) {name : String} {window : TxWindow} {pages : Nat}
    {records : List ChangeRecord} (hwindow : window.txmax ≤ s.1.database.lastTxid)
    (h : Stateful.Runs Site.Others wiring (pullWindow pages name window) job s (.ok records) job'
      s') :
    (∃ slot, s'.1.database.slots.get? name = some slot ∧
      records = Database.Slot.within slot window s'.1.database.log) ∧
      Advances s.1 s'.1 ∧ job' = job := by
  rw [pullWindow, Stateful.runs_get_bind] at h
  obtain ⟨hpull, rfl⟩ := Working.runs_transported_ok.mp h
  obtain ⟨slot, hslot, hrecords, hadvances⟩ := pullPages_runs hwiring hwindow hpull
  refine ⟨⟨slot, ?_, ?_⟩, hadvances, rfl⟩
  · rw [hadvances.database.slots]
    exact hslot
  · rw [hrecords, hadvances.database.reaches.within hwindow, List.drop_zero]

theorem checkpoint_runs {before : Option Nat}
    (h : Stateful.Runs Site.Others wiring checkpoint job s (.ok before) job' s') :
    s.1.mark wiring.store job.options.index = .ok before ∧ Advances s.1 s'.1 ∧ job' = job := by
  rw [checkpoint, Stateful.runs_get_bind] at h
  obtain ⟨hload, rfl⟩ := Working.runs_orFatal_ok.mp h
  obtain ⟨s₁, hothers, hloaded, rfl⟩ := Program.runs_request.mp hload
  refine ⟨?_, ?_, rfl⟩
  · rw [← hothers.1.advances.marks.mark]
    exact answer_load hloaded.symm
  · exact hothers.1.advances.trans
      (answer_advances wiring (.store (.load job'.options.index)) trivial s₁)

theorem currentTxmax_runs {txmax : Nat}
    (h : Stateful.Runs Site.Others wiring currentTxmax job s (.ok txmax) job' s') :
    txmax ≤ s'.1.database.lastTxid ∧ Advances s.1 s'.1 ∧ job' = job := by
  obtain ⟨htxid, rfl⟩ := Working.runs_transported_ok.mp h
  obtain ⟨s₁, hothers, htxmax, rfl⟩ :=
    Program.runs_request.mp (Attempt.runs_mapError_ok.mp htxid)
  have hadvances := answer_advances wiring (.session .transactionId) trivial s₁
  refine ⟨?_, hothers.1.advances.trans hadvances, rfl⟩
  rw [answer_transactionId htxmax.symm]
  exact hadvances.database.reaches.log.1

theorem drain_runs {buffered : List ChangeRecord}
    (h : Stateful.Runs Site.Others wiring drain job s (.ok buffered) job' s') :
    Advances s.1 s'.1 ∧ job' = job := by
  obtain ⟨hdrain, rfl⟩ := Working.runs_transported_ok.mp h
  obtain ⟨s₁, hothers, -, rfl⟩ := Program.runs_request.mp hdrain
  exact ⟨hothers.1.advances.trans
    (answer_advances wiring (.buffer .drain) trivial s₁), rfl⟩

/-- The steps of a receive cycle that has read its changes: it opens its slot, loads the checkpoint, reads
the last transaction, drains the buffer, and pulls the window unless that is empty. -/
theorem readChanges_steps {others : Site → Site → Prop} {pages : Nat} {reading : Reading}
    (h : Stateful.Runs others wiring (readChanges pages) job s (.ok reading) job' s') :
    ∃ before txmax job₁ s₁ job₂ s₂ job₃ s₃ job₄ s₄,
      Stateful.Runs others wiring openSlot job s (.ok reading.slot) job₁ s₁ ∧
      Stateful.Runs others wiring checkpoint job₁ s₁ (.ok before) job₂ s₂ ∧
      Stateful.Runs others wiring currentTxmax job₂ s₂ (.ok txmax) job₃ s₃ ∧
      Stateful.Runs others wiring drain { job₃ with phase := .windowOpen } s₃ (.ok reading.buffered)
        job₄ s₄ ∧
      reading.window = ⟨before.getD 0, max txmax (before.getD 0)⟩ ∧
      ((reading.window.isEmpty = true ∧ reading.pulled = [] ∧ s' = s₄ ∧
          ∃ phase, job' = { job₄ with phase := phase }) ∨
        reading.window.isEmpty = false ∧
          Stateful.Runs others wiring (pullWindow pages reading.slot reading.window)
            { job₄ with phase := .applying } s₄ (.ok reading.pulled) job' s') := by
  obtain ⟨name, job₁, s₁, hopen, h₁⟩ := Stateful.runs_bind_ok.mp h
  obtain ⟨before, job₂, s₂, hload, h₂⟩ := Stateful.runs_bind_ok.mp h₁
  obtain ⟨txmax, job₃, s₃, htxid, h₃⟩ := Stateful.runs_bind_ok.mp h₂
  dsimp only at h₃
  rw [Working.runs_enter_bind] at h₃
  obtain ⟨buffered, job₄, s₄, hdrain, h₄⟩ := Stateful.runs_bind_ok.mp h₃
  refine ⟨before, txmax, job₁, s₁, job₂, s₂, job₃, s₃, job₄, s₄, ?_⟩
  split at h₄
  · rename_i hnothing
    obtain ⟨hreading, rfl, rfl⟩ := Stateful.runs_pure.mp h₄
    obtain rfl := Except.ok.inj hreading
    have hnone : buffered = [] := by simpa using (Bool.and_eq_true_iff.mp hnothing).2
    exact ⟨hopen, hload, htxid, hnone ▸ hdrain, rfl,
      .inl ⟨(Bool.and_eq_true_iff.mp hnothing).1, rfl, rfl, _, rfl⟩⟩
  rw [Working.runs_enter_bind] at h₄
  split at h₄
  · rename_i hempty
    obtain ⟨hreading, rfl, rfl⟩ := Stateful.runs_pure.mp h₄
    obtain rfl := Except.ok.inj hreading
    exact ⟨hopen, hload, htxid, hdrain, rfl, .inl ⟨hempty, rfl, rfl, _, rfl⟩⟩
  · rename_i hnonempty
    obtain ⟨pulled, job₅, s₅, hpull, h₅⟩ := Stateful.runs_bind_ok.mp h₄
    obtain ⟨hreading, rfl, rfl⟩ := Stateful.runs_pure.mp h₅
    obtain rfl := Except.ok.inj hreading
    exact ⟨hopen, hload, htxid, hdrain, rfl, .inr ⟨Bool.not_eq_true _ ▸ hnonempty, hpull⟩⟩

theorem readChanges_runs (hwiring : wiring.Faithful) {pages : Nat} {reading : Reading}
    (h : Stateful.Runs Site.Others wiring (readChanges pages) job s (.ok reading) job' s') :
    HasRead wiring job s s' reading ∧ job'.options = job.options ∧ job'.plan = job.plan := by
  obtain ⟨before, txmax, job₁, s₁, job₂, s₂, job₃, s₃, job₄, s₄, hopen, hload, htxid, hdrain, hwindow,
    hends⟩ := readChanges_steps h
  obtain ⟨hname, hopened, hmarks, hoptions, hplan⟩ := openSlot_runs hopen
  obtain ⟨hbefore, hs₂, rfl⟩ := checkpoint_runs hload
  rw [hmarks.mark, hoptions] at hbefore
  obtain ⟨htxmax, hs₃, rfl⟩ := currentTxmax_runs htxid
  obtain ⟨hs₄, rfl⟩ := drain_runs hdrain
  have hs : Advances s₁.1 s₄.1 := (hs₂.trans hs₃).trans hs₄
  have htxmin : reading.window.txmin = before.getD 0 := by rw [hwindow]
  rcases hends with ⟨hempty, -, rfl, phase, rfl⟩ | ⟨hnonempty, hpull⟩
  · refine ⟨⟨hname, hopened.extends hs.database, hmarks.trans hs.marks, ⟨before, hbefore, htxmin⟩, ?_⟩,
      hoptions, hplan⟩
    simp [hempty]
  · have hend : reading.window.txmax ≤ s₄.1.database.lastTxid := by
      have hlater := Nat.le_trans htxmax hs₄.database.reaches.log.1
      have hlt : reading.window.txmin < reading.window.txmax := by
        simpa [TxWindow.isEmpty] using hnonempty
      rw [hwindow] at hlt ⊢
      dsimp only at hlt ⊢
      omega
    obtain ⟨hpulled, hs₅, rfl⟩ := pullWindow_runs hwiring hend hpull
    refine ⟨⟨hname, hopened.extends (hs.trans hs₅).database, hmarks.trans (hs.trans hs₅).marks,
      ⟨before, hbefore, htxmin⟩, fun _ => ⟨?_, hpulled⟩⟩, hoptions, hplan⟩
    exact Nat.le_trans hend hs₅.database.reaches.log.1

/-- What was saved before the log is released is the later of the old checkpoint and the end of the
window. -/
theorem persist_runs {slot : String} {txmax : Nat}
    (h : Stateful.Runs Site.Others wiring (persist slot txmax) job s (.ok ()) job' s') :
    (∃ before, s.1.mark wiring.store job.options.index = .ok before ∧
      s'.1.mark wiring.store job.options.index = .ok (some (max txmax (before.getD 0)))) ∧
      Database.Reaches s.1.database s'.1.database ∧ job' = job := by
  rw [persist, Stateful.runs_get_bind] at h
  obtain ⟨saved, job₁, s₂, hsave, hreclaim⟩ := Stateful.runs_bind_ok.mp h
  obtain ⟨hsaved, rfl⟩ := Working.runs_orFatal_ok.mp hsave
  obtain ⟨s₁, hothers, hanswer, hs₂⟩ :=
    Program.runs_request.mp (Attempt.runs_mapError_ok.mp hsaved)
  have hbefore : Advances s.1 s₁.1 := hothers.1.advances
  obtain ⟨before, hmark, hraised⟩ := saveMark_mark hanswer.symm
  have hdatabase : s₂.1.database = s₁.1.database := by
    rw [hs₂]
    exact saveMark_database _ _ _ _
  obtain ⟨hreleased, rfl⟩ := Working.runs_transported_ok.mp hreclaim
  obtain ⟨s₃, hothers', -, rfl⟩ :=
    Program.runs_request.mp (Attempt.runs_mapError_ok.mp hreleased)
  obtain ⟨hreaches, hmarks⟩ := answer_reclaim wiring s₃ slot txmax
  have hafter : Advances s₂.1 s₃.1 := hothers'.1.advances
  refine ⟨⟨before, ?_, ?_⟩, ?_, rfl⟩
  · rw [← hbefore.marks.mark]
    exact hmark
  · rw [(hafter.marks.trans hmarks).mark, hs₂]
    exact hraised
  · refine (hbefore.database.reaches.trans ?_).trans (hafter.database.reaches.trans hreaches)
    rw [hdatabase]

theorem ack_runs (h : Stateful.Runs Site.Others wiring ack job s (.ok ()) job' s') :
    Advances s.1 s'.1 := by
  obtain ⟨hack, -⟩ := Working.runs_transported_ok.mp h
  obtain ⟨s₁, hothers, -, rfl⟩ := Program.runs_request.mp hack
  exact hothers.1.advances.trans (answer_advances wiring (.buffer .ack) trivial s₁)

/-- Whatever applies advances the world. -/
theorem advances_of_applies {α : Type} {a : Working α} {result : Except SyncError α}
    (ha : Stateful.Applies a) (h : Stateful.Runs Site.Others wiring a job s result job' s') :
    Advances s.1 s'.1 ∧ job'.options = job.options := by
  refine ⟨advances_of_runs ((ha.asks job).mono fun _ h => h.isQuiet) h, ?_⟩
  rw [(ha.keeps h).2]

/-- Applying moves the checkpoint to the end of the window, where the window has anything. -/
theorem applyReading_runs {pages : Nat} {reading : Reading} {stats : CycleStats}
    (h : Stateful.Runs Site.Others wiring (applyReading pages reading) job s (.ok stats) job' s') :
    Database.Reaches s.1.database s'.1.database ∧
      if reading.window.isEmpty then
        s'.1.mark wiring.store job.options.index = s.1.mark wiring.store job.options.index
      else ∃ before, s.1.mark wiring.store job.options.index = .ok before ∧
        s'.1.mark wiring.store job.options.index =
          .ok (some (max reading.window.txmax (before.getD 0))) := by
  unfold applyReading at h
  dsimp only at h
  split at h
  · rename_i hnothing
    have hempty : reading.window.isEmpty = true := (Bool.and_eq_true_iff.mp hnothing).1
    rw [Working.runs_enter_bind] at h
    obtain ⟨-, -, rfl⟩ := Stateful.runs_pure.mp h
    simp only [hempty, if_true, and_true]
    exact .refl
  obtain ⟨stats', job₁, s₁, happly, h₁⟩ := Stateful.runs_bind_ok.mp h
  obtain ⟨hs₁, hoptions⟩ := advances_of_applies (applyRecords_applies _ _ _) happly
  rw [Working.runs_enter_bind] at h₁
  split at h₁
  · rename_i hnonempty
    obtain ⟨_, job₂, s₂, hpersist, h₂⟩ := Stateful.runs_bind_ok.mp h₁
    obtain ⟨⟨before, hbefore, hafter⟩, hs₂, -⟩ := persist_runs hpersist
    obtain ⟨_, job₃, s₃, hack, h₃⟩ := Stateful.runs_bind_ok.mp h₂
    have hs₃ := ack_runs hack
    rw [Working.runs_enter_bind] at h₃
    obtain ⟨-, -, rfl⟩ := Stateful.runs_pure.mp h₃
    rw [Bool.not_eq_true'] at hnonempty
    simp only [hnonempty, Bool.false_eq_true, if_false]
    dsimp only at hbefore hafter
    rw [hs₁.marks.mark, hoptions] at hbefore
    rw [hoptions] at hafter
    exact ⟨(hs₁.database.reaches.trans hs₂).trans hs₃.database.reaches, before, hbefore,
      (hs₃.marks.mark _ _).trans hafter⟩
  · rename_i hempty
    obtain ⟨_, job₃, s₃, hack, h₃⟩ := Stateful.runs_bind_ok.mp h₁
    have hs₃ := ack_runs hack
    rw [Working.runs_enter_bind] at h₃
    obtain ⟨-, -, rfl⟩ := Stateful.runs_pure.mp h₃
    simp only [Bool.not_eq_true', Bool.not_eq_false] at hempty
    simp only [hempty, if_true]
    exact ⟨hs₁.database.reaches.trans hs₃.database.reaches, (hs₁.marks.trans hs₃.marks).mark _ _⟩

/-- A cycle that moves the checkpoint reads every committed change on its tables in between, if and only
if each of them was pushed to the buffer or lies past what was released to the job's slot.  A slot that
the cycle itself had to create was released up to the last transaction, whatever the checkpoint says. -/
theorem reads_every_change_iff (hwiring : wiring.Faithful) (hreached : s.1.database.Reached)
    {pages after : Nat} {stats : CycleStats} {before : Option Nat}
    (h : Stateful.Runs Site.Others wiring (receiveOnce pages) job s (.ok stats) job' s')
    (hbefore : s.1.mark wiring.store job.options.index = .ok before)
    (hafter : s'.1.mark wiring.store job.options.index = .ok (some after))
    (hmoved : before.getD 0 < after) :
    ∃ reading mid job₁ slot,
      Stateful.Runs Site.Others wiring (readChanges pages) job s (.ok reading) job₁ mid ∧
      Stateful.Runs Site.Others wiring (applyReading pages reading) job₁ mid (.ok stats) job'
        s' ∧
      reading.slot = job.slot.getD job.options.slotName ∧
      mid.1.database.slots.get? reading.slot = some slot ∧
      (∀ old, s.1.database.slots.get? reading.slot = some old → slot = old) ∧
      (s.1.database.slots.get? reading.slot = none →
        s.1.database.lastTxid ≤ slot.reclaimedUpTo) ∧
      ((∀ r ∈ s'.1.database.log, job.plan.containsTable r.table →
          before.getD 0 < r.txid → r.txid ≤ after → r ∈ reading.records) ↔
        ∀ r ∈ s'.1.database.log, job.plan.containsTable r.table →
          before.getD 0 < r.txid → r.txid ≤ after →
            r ∈ reading.buffered ∨ slot.reclaimedUpTo < r.txid) := by
  obtain ⟨reading, job₁, mid, hread, happly⟩ := Stateful.runs_bind_ok.mp h
  obtain ⟨⟨hname, hopened, hmarks, ⟨stored, hstored, htxmin⟩, hpulled⟩, hoptions, -⟩ :=
    readChanges_runs hwiring hread
  obtain ⟨hreaches, hsaved⟩ := applyReading_runs happly
  rw [hbefore] at hstored
  obtain rfl := Except.ok.inj hstored
  simp only [hoptions, hmarks.mark, hbefore, hafter, Except.ok.injEq] at hsaved
  -- an empty window would have left the checkpoint where it was
  have hnonempty : reading.window.isEmpty = false := by
    by_contra hempty
    rw [Bool.not_eq_false] at hempty
    simp only [hempty, if_true] at hsaved
    simp [← hsaved] at hmoved
  simp only [hnonempty, Bool.false_eq_true, if_false, exists_eq_left', Option.some.injEq] at hsaved
  have htxmax : reading.window.txmax = after := by omega
  obtain ⟨hend, slot, hslot, hrecords⟩ := hpulled hnonempty
  refine ⟨reading, mid, job₁, slot, hread, happly, hname, hslot, ?_, ?_, ?_⟩
  · intro old hold
    exact Option.some.inj (hslot.symm.trans (hopened.existing old hold))
  · exact fun hnone => hopened.new hnone slot hslot
  -- what the slot has of the window is what was not released to it
  have hmem : ∀ r ∈ s'.1.database.log, before.getD 0 < r.txid → r.txid ≤ after →
      (r ∈ reading.records ↔ r ∈ reading.buffered ∨ slot.reclaimedUpTo < r.txid) := by
    intro r hr hlow hhigh
    have hlogged : r ∈ mid.1.database.log := (hreaches.mem_log (by omega)).mp hr
    have hwindow : reading.window.contains r.txid = true := by
      simp [TxWindow.contains, htxmin, htxmax, hlow, hhigh]
    rw [Reading.records, List.mem_append, hrecords, Database.Slot.within,
      (hreached.trans hopened.reaches).retained_eq hslot]
    simp [hlogged, hwindow, or_comm]
  constructor
  · exact fun hall r hr htable hlow hhigh =>
      (hmem r hr hlow hhigh).mp (hall r hr htable hlow hhigh)
  · exact fun hall r hr htable hlow hhigh =>
      (hmem r hr hlow hhigh).mpr (hall r hr htable hlow hhigh)

/-! A catalogue of books, and a job that has completed a cycle on it while it was empty. -/

def bookSchema : Schema := .ofTables [⟨"book", [⟨"isbn", "text"⟩], ["isbn"], []⟩]

def bookJob (slot : String) : Job :=
  .ofPlan ⟨⟨"book", none, ["isbn"], [], ["isbn"], ["isbn"], none⟩, []⟩
    ⟨"books", slot, 10, 10, 0, .none⟩

def bookWiring : Wiring := ⟨"", "main", "marks", [], false, false, false⟩

def bookSite (db : Database) : Site :=
  ({ World.empty bookSchema bookSchema "" "" with
    database := db
    stores := [("marks", [("books", 0)])] }, [])

/-- The database after one transaction, where slots were opened before it. -/
def booksAfter (slots : List String) (queries : List Query) : Database :=
  match (slots.foldl Database.openSlot (.empty bookSchema)).commit queries with
  | .ok (_, _, db) => db
  | .error _ => .empty bookSchema

theorem booksAfter_reached (slots : List String) (queries : List Query) :
    (booksAfter slots queries).Reached := by
  have hopened : ∀ (slots : List String) (db : Database), db.Reached →
      (slots.foldl Database.openSlot db).Reached := by
    intro slots
    induction slots with
    | nil => exact fun _ h => h
    | cons slot rest ih => exact fun db h => ih _ (h.trans (.single (.openSlot db slot)))
  have hempty : (Database.empty bookSchema).Reached := ⟨bookSchema, .refl⟩
  unfold booksAfter
  split
  · rename_i hcommit
    exact (hopened slots _ hempty).trans (.single (.commit hcommit))
  · exact hempty

/-- A book comes and goes while the slot is open. -/
def fleetingBook : Database :=
  booksAfter ["first"]
    [.insert "book" [("isbn", .string "a")], .delete "book" [("isbn", .string "a")]]

/-- The cycle of a job whose slot was open reads both changes. -/
theorem reads_every_change_of_open_slot :
    ∃ s' job' stats reading job₁ mid,
      Stateful.Runs Site.Others bookWiring (receiveOnce 1) (bookJob "first") (bookSite fleetingBook)
        (.ok stats) job' s' ∧
      Stateful.Runs Site.Others bookWiring (readChanges 1) (bookJob "first") (bookSite fleetingBook)
        (.ok reading) job₁ mid ∧
      s'.1.mark "marks" "books" = .ok (some 1) ∧
      ∀ r ∈ s'.1.database.log, (bookJob "first").plan.containsTable r.table →
        0 < r.txid → r.txid ≤ 1 → r ∈ reading.records := by
  obtain ⟨stats, job', hran⟩ : ∃ stats job', (runRoutine bookWiring
      ((receiveOnce 1).run.run (bookJob "first")) (bookSite fleetingBook)).1 =
        some (.ok stats, job') := ⟨_, _, by cbv⟩
  have hafter : (runRoutine bookWiring ((receiveOnce 1).run.run (bookJob "first"))
      (bookSite fleetingBook)).2.1.mark "marks" "books" = .ok (some 1) := by cbv
  have hreached : fleetingBook.Reached := booksAfter_reached _ _
  obtain ⟨reading, mid, job₁, slot, hread, -, hname, hslot, hold, -, hiff⟩ :=
    reads_every_change_iff ⟨rfl, rfl⟩ hreached (Stateful.Runs.of_run Site.Others.refl hran)
      (by cbv : (bookSite fleetingBook).1.mark "marks" "books" = .ok (some 0)) hafter (by decide)
  have hreleased : slot = ⟨0, 0⟩ := hold ⟨0, 0⟩ (hname ▸ by cbv)
  refine ⟨_, job', stats, reading, job₁, mid, .of_run Site.Others.refl hran, hread, hafter, hiff.mpr ?_⟩
  intro r _ _ hpositive _
  exact .inr (hreleased ▸ hpositive)

/-- A book comes before the slot is opened. -/
def earlyBook : Database := booksAfter [] [.insert "book" [("isbn", .string "a")]]

/-- The cycle of a job whose slot is new coalesces no record, and moves the checkpoint past the
transaction that inserted the book. -/
theorem passes_over_change_before_slot :
    ∃ s' job' stats,
      Stateful.Runs Site.Others bookWiring (receiveOnce 1) (bookJob "second") (bookSite earlyBook)
        (.ok stats) job' s' ∧
      (bookSite earlyBook).1.mark "marks" "books" = .ok (some 0) ∧
      s'.1.mark "marks" "books" = .ok (some 1) ∧
      stats.changes = 0 ∧
      ∃ r ∈ s'.1.database.log, (bookJob "second").plan.containsTable r.table ∧
        0 < r.txid ∧ r.txid ≤ 1 := by
  have hran : (runRoutine bookWiring ((receiveOnce 1).run.run (bookJob "second"))
      (bookSite earlyBook)).1 =
        some (.ok ⟨0, 0, 0, 0, 0, [], some ⟨0, 1⟩⟩,
          { bookJob "second" with slot := some "second" }) := by cbv
  have hlog : (runRoutine bookWiring ((receiveOnce 1).run.run (bookJob "second"))
      (bookSite earlyBook)).2.1.database.log = [⟨"book", .insert, [("isbn", .string "a")], none,
        some [("isbn", .string "a")], 1, 0⟩] := by cbv
  refine ⟨_, _, _, .of_run Site.Others.refl hran, by cbv, by cbv, rfl, ?_⟩
  rw [hlog]
  exact ⟨_, List.mem_singleton_self _, by decide, by decide, by decide⟩

end Job

end DocSync
