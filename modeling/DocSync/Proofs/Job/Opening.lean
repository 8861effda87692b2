import DocSync.Proofs.Change.Current
import DocSync.Proofs.Job.Aside
import DocSync.Proofs.Simulation.Feeding

/-!
How a cycle opens while others commit.  It opens its slot, reads the checkpoint and the last transaction,
drains the buffer and pulls its window; until then nothing that it keeps is lost.  Main statement: what a
receive cycle reads tells what the transactions of its window did, also where transactions land between the
read of the last transaction and the drain.
-/

namespace DocSync

/-- The calls with which a cycle reads before it writes anything. -/
def Call.Opens : Call → Prop
  | .session .transactionId => True
  | .source (.openSlot _) => True
  | .source (.pull ..) => True
  | .buffer .drain => True
  | .store (.load _) => True
  | _ => False

theorem Call.Opens.isPrompt {call : Call} (h : call.Opens) : call.IsPrompt := by
  constructor
  · cases call with
    | session call => cases call <;> trivial
    | _ => trivial
  · rintro milliseconds rfl
    exact h.elim

theorem Call.Opens.not_writes {call : Call} (h : call.Opens) : ¬ call.Writes := by
  cases call with
  | sink => exact h.elim
  | _ => exact id

namespace Database

variable (db : Database) {name other : String} {slot : Slot}

theorem get?_openSlot_of_some (name : String) (h : db.slots.get? other = some slot) :
    (db.openSlot name).slots.get? other = some slot := by
  unfold openSlot
  by_cases hold : db.slots.contains name
  · rw [if_pos hold]
    exact h
  · rw [if_neg hold, Keyed.get?_put, if_neg]
    · exact h
    · rintro rfl
      simp [Keyed.contains, h] at hold

theorem reclaimedUpTo_of_openSlot (hnone : db.slots.get? other = none)
    (h : (db.openSlot name).slots.get? other = some slot) : slot.reclaimedUpTo = db.lastTxid := by
  simp only [openSlot] at h
  split at h
  · rw [hnone] at h
    contradiction
  · rw [Keyed.get?_put] at h
    split at h
    · exact Option.some.inj h ▸ rfl
    · rw [hnone] at h
      contradiction

end Database

theorem World.answer_openSlot_eq (wiring : Wiring) (s : Site) (name : String) :
    ∃ faults db, (db = s.1.database ∨ db = s.1.database.openSlot name) ∧
      (answer wiring (.source (.openSlot name)) s).2 =
        ({ s.1 with faults := faults, database := db }, s.2) := by
  change ∃ faults db, _ ∧ ((answerSource wiring (.openSlot name) s.1).2, s.2) = _
  obtain ⟨faults, hfaults⟩ := struck_eq wiring.failing .openSlot s.1
  simp only [answerSource]
  split <;> rename_i hstruck <;> rw [hstruck] at hfaults <;> subst hfaults
  · exact ⟨faults, _, .inl rfl, rfl⟩
  · exact ⟨faults, _, .inr rfl, rfl⟩

/-- What others and an opening leave: what is stored and the checkpoints as they were, the slots as they
were where there was one, and a buffer that is fed. -/
structure Site.Meanwhile (wiring : Wiring) (s s' : Site) : Prop where
  reaches : Database.Reaches s.1.database s'.1.database
  kept : ∀ name slot, s.1.database.slots.get? name = some slot →
    s'.1.database.slots.get? name = some slot
  opened : ∀ name, s.1.database.slots.get? name = none → ∀ slot,
    s'.1.database.slots.get? name = some slot → slot.reclaimedUpTo ≤ s'.1.database.lastTxid
  marks : World.KeepsMarks s.1 s'.1
  sink : (s.1.sink wiring.sink).Alike (s'.1.sink wiring.sink)
  frames : s'.2 = s.2
  fed : s'.1.IsFed wiring.buffer

namespace Site.Meanwhile

variable {wiring : Wiring} {s s' s₁ s₂ s₃ : Site}

theorem of_advances (hadvances : World.Advances s.1 s'.1)
    (hsink : (s.1.sink wiring.sink).Alike (s'.1.sink wiring.sink)) (hframes : s'.2 = s.2)
    (hfed : s'.1.IsFed wiring.buffer) : s.Meanwhile wiring s' := by
  have hslots := hadvances.database.slots
  refine ⟨hadvances.database.reaches, fun name slot h => hslots ▸ h, fun name hnone slot h => ?_,
    hadvances.marks, hsink, hframes, hfed⟩
  rw [hslots, hnone] at h
  contradiction

theorem refl (h : s.1.IsFed wiring.buffer) : s.Meanwhile wiring s :=
  .of_advances (.refl _) (.refl _) rfl h

theorem trans (h : s₁.Meanwhile wiring s₂) (h' : s₂.Meanwhile wiring s₃) : s₁.Meanwhile wiring s₃ := by
  refine ⟨h.reaches.trans h'.reaches, fun name slot hslot => h'.kept _ _ (h.kept _ _ hslot), ?_,
    h.marks.trans h'.marks, h.sink.trans h'.sink, h'.frames.trans h.frames, h'.fed⟩
  intro name hnone slot hslot
  cases hbetween : s₂.1.database.slots.get? name with
  | none => exact h'.opened name hbetween slot hslot
  | some found =>
    obtain rfl := Option.some.inj (hslot.symm.trans (h'.kept _ _ hbetween))
    exact Nat.le_trans (h.opened name hnone slot hbetween) h'.reaches.log.1

theorem others (hfed : s.1.IsFed wiring.buffer) (h : s.Others s') : s.Meanwhile wiring s' :=
  .of_advances h.1.advances (h.1.sink_alike _) h.2 (hfed.others h.1)

/-- A slot that is opened is new only where there was none, and then it is released up to the last
transaction. -/
theorem openSlot (hfed : s.1.IsFed wiring.buffer) (name : String) :
    s.Meanwhile wiring (World.answer wiring (.source (.openSlot name)) s).2 := by
  obtain ⟨faults, db, hdb, hanswer⟩ := World.answer_openSlot_eq wiring s name
  rw [hanswer]
  rcases hdb with rfl | rfl
  · exact .of_advances ⟨.refl _, rfl, rfl, rfl, rfl⟩ (.refl _) rfl (hfed.of_same rfl rfl rfl)
  · refine ⟨.single (.openSlot _ _), fun other slot => s.1.database.get?_openSlot_of_some name,
      fun other hnone slot hslot => ?_, ⟨rfl, rfl, rfl, rfl⟩, .refl _, rfl, hfed.of_same rfl rfl ?_⟩
    · rw [s.1.database.reclaimedUpTo_of_openSlot hnone hslot]
      exact (Database.Moves.openSlot s.1.database name).log.1
    · simp only [Database.openSlot]
      split <;> rfl

theorem answer (hfed : s.1.IsFed wiring.buffer) {call : Call} (hcall : call.Opens) :
    s.Meanwhile wiring (World.answer wiring call s).2 := by
  by_cases hopen : ∃ name, call = .source (.openSlot name)
  · obtain ⟨name, rfl⟩ := hopen
    exact .openSlot hfed name
  have hquiet : call.IsQuiet := by
    cases call with
    | source call =>
      cases call with
      | openSlot name => exact absurd ⟨name, rfl⟩ hopen
      | pull => trivial
      | reclaim => exact hcall.elim
    | store call =>
      cases call with
      | load => trivial
      | save => exact hcall.elim
    | _ => trivial
  exact .of_advances (World.answer_advances wiring call hquiet s)
    (World.answer_sink_alike wiring call hcall.not_writes s _)
    (World.answer_rests hcall.isPrompt.1 hfed.quiet).frames (hfed.answer hcall.isPrompt)

theorem of_runs {α : Type} {p : Routine α} {value : α} (hfed : s.1.IsFed wiring.buffer)
    (hasks : p.Asks Call.Opens) (h : Routine.Runs Site.Others wiring p s value s') :
    s.Meanwhile wiring s' := by
  let Keeps (s t : Site) : Prop := s.1.IsFed wiring.buffer → s.Meanwhile wiring t
  refine (Program.Runs.keeps ?_ ?_ ?_ ?_ hasks h : Keeps s s') hfed
  · exact fun _ => .refl
  · exact fun h h' hfed => (h hfed).trans (h' (h hfed).fed)
  · exact fun hothers hfed => .others hfed hothers
  · exact fun s hcall hfed => .answer hfed hcall

end Site.Meanwhile

namespace Job

open Working Stateful

variable {α : Type} {wiring : Wiring} {job job' job₀ : Job} {s s' s₀ : Site}

/-- Of a job that opens, only the slot and the phase change, and the slot becomes its own. -/
structure Opening (wiring : Wiring) (job job' : Job) (s s' : Site) : Prop where
  job : ∃ slot phase, job' = { job with slot := slot, phase := phase } ∧
    (slot = job.slot ∨ slot = some job.options.slotName)
  site : s.Meanwhile wiring s'

theorem Opening.refl (job : Job) (hfed : s.1.IsFed wiring.buffer) : Opening wiring job job s s :=
  ⟨⟨_, _, rfl, .inl rfl⟩, .refl hfed⟩

/-- Whatever others commit and whichever calls fail, the routine only opens. -/
abbrev Opens (wiring : Wiring) (job₀ : Job) (s₀ : Site) (a : Working α) : Prop :=
  Upholds Site.Others wiring (fun job s => Opening wiring job₀ job s₀ s) (fun _ => True) a

theorem opens_attempt {a : Attempt SyncError α} (hasks : a.Asks Call.Opens) :
    Opens wiring job₀ s₀ (attempt a) := by
  constructor
  intro job job' s s' result hopening hruns
  obtain ⟨hran, rfl⟩ := runs_attempt.mp hruns
  exact ⟨⟨hopening.job, hopening.site.trans (.of_runs hopening.site.fed hasks hran)⟩, fun _ _ => trivial⟩

theorem opens_enter (phase : Phase) : Opens wiring job₀ s₀ (enter phase) := by
  constructor
  intro job job' s s' result hopening hruns
  obtain ⟨-, rfl, rfl⟩ := runs_enter.mp hruns
  obtain ⟨slot, _, rfl, hslot⟩ := hopening.job
  exact ⟨⟨⟨slot, phase, rfl, hslot⟩, hopening.site⟩, fun _ _ => trivial⟩

theorem opens_openSlot : Opens wiring job₀ s₀ openSlot := by
  constructor
  intro job job' s s' result hopening hruns
  have hsite := hopening.site.trans
    (.of_runs hopening.site.fed (openSlot_asks (fun _ => trivial) job) hruns)
  refine ⟨⟨?_, hsite⟩, fun _ _ => trivial⟩
  obtain ⟨slot, phase, rfl, hslot⟩ := hopening.job
  rw [openSlot, runs_get_bind] at hruns
  split at hruns
  · obtain ⟨-, rfl, -⟩ := runs_pure.mp hruns
    exact ⟨slot, phase, rfl, hslot⟩
  rcases runs_bind.mp hruns with ⟨name, job₁, s₁, hopen, hrest⟩ | ⟨e, hopen, -⟩
  · obtain ⟨hcall, rfl⟩ := runs_orFatal_ok.mp hopen
    obtain ⟨_, -, hanswer, -⟩ := Program.runs_request.mp (Attempt.runs_mapError_ok.mp hcall)
    obtain ⟨rfl, -, -⟩ := World.answer_openSlot hanswer.symm
    rw [runs_set_bind] at hrest
    obtain ⟨-, rfl, -⟩ := runs_pure.mp hrest
    exact ⟨_, _, rfl, .inr rfl⟩
  · obtain ⟨-, rfl⟩ := runs_orFatal.mp hopen
    exact ⟨slot, phase, rfl, hslot⟩

theorem opens_checkpoint : Opens wiring job₀ s₀ checkpoint :=
  upholds_get_bind fun _ _ _ => opens_attempt (Attempt.asks_mapError ⟨trivial, fun _ => trivial⟩)

theorem opens_currentTxmax : Opens wiring job₀ s₀ currentTxmax :=
  opens_attempt (Attempt.asks_mapError (Attempt.asks_mapError ⟨trivial, fun _ => trivial⟩))

theorem opens_drain : Opens wiring job₀ s₀ drain :=
  opens_attempt (Attempt.asks_mapError ⟨trivial, fun _ => trivial⟩)

theorem opens_pullWindow (pages : Nat) (slot : String) (window : TxWindow) :
    Opens wiring job₀ s₀ (pullWindow pages slot window) :=
  upholds_get_bind fun _ _ _ =>
    opens_attempt (Attempt.asks_mapError (pullPages_asks (fun _ => trivial) _ _))

theorem opens_readChanges (pages : Nat) : Opens wiring job₀ s₀ (readChanges pages) := by
  refine opens_openSlot.bind fun slot _ => opens_checkpoint.bind fun before _ => ?_
  refine opens_currentTxmax.bind fun txmax _ => (opens_enter _).bind fun _ _ => ?_
  refine opens_drain.bind fun buffered _ => ?_
  split
  · exact upholds_pure trivial
  refine (opens_enter _).bind fun _ _ => ?_
  split
  · have hnone : Opens wiring job₀ s₀ (pure ([] : List ChangeRecord)) := upholds_pure trivial
    exact hnone.bind fun _ _ => upholds_pure trivial
  · exact (opens_pullWindow _ _ _).bind fun _ _ => upholds_pure trivial

/-! ### What is read -/

/-- Who has just opened a slot, or opened it before and it is still there, finds it. -/
theorem exists_slot_of_openSlot {name : String} (hslot : ∀ name, job.slot = some name →
      ∃ slot, s.1.database.slots.get? name = some slot)
    (h : Runs Site.Others wiring openSlot job s (.ok name) job' s') :
    ∃ slot, s'.1.database.slots.get? name = some slot := by
  rw [openSlot, runs_get_bind] at h
  split at h
  · rename_i slot hremembered
    obtain ⟨hname, rfl, rfl⟩ := runs_pure.mp h
    exact Except.ok.inj hname ▸ hslot slot hremembered
  · obtain ⟨slot, job₁, s₂, hopen, hrest⟩ := runs_bind_ok.mp h
    obtain ⟨hcall, rfl⟩ := runs_orFatal_ok.mp hopen
    obtain ⟨s₁, -, hanswer, rfl⟩ := Program.runs_request.mp (Attempt.runs_mapError_ok.mp hcall)
    rw [runs_set_bind] at hrest
    obtain ⟨hname, rfl, rfl⟩ := runs_pure.mp hrest
    obtain ⟨hsame, hdatabase, -⟩ := World.answer_openSlot hanswer.symm
    rw [Except.ok.inj hname, hsame, hdatabase, Database.openSlot]
    by_cases hold : s₁.1.database.slots.contains job₁.options.slotName
    · rw [if_pos hold]
      exact Option.isSome_iff_exists.mp hold
    · rw [if_neg hold]
      exact ⟨_, by rw [Keyed.get?_put, if_pos rfl]⟩

/-- What a drain of a fed buffer hands out is a run of the log up to its end. -/
theorem drain_gives {records : List ChangeRecord} (hfed : s.1.IsFed wiring.buffer)
    (h : Runs Site.Others wiring drain job s (.ok records) job' s') :
    ∃ since copies, since <:+ s'.1.database.log ∧ records = since.flatMap (List.replicate copies) := by
  obtain ⟨hdrain, -⟩ := runs_transported_ok.mp h
  obtain ⟨s₁, hothers, hanswer, rfl⟩ := Program.runs_request.mp hdrain
  obtain ⟨since, hsince, hrecords⟩ := (hfed.others hothers.1).drain.2 records hanswer.symm
  exact ⟨since, _, hsince, hrecords⟩

/-- The last transaction is one that was there when it was asked for, or a later one. -/
theorem lastTxid_le_currentTxmax {txmax : Nat}
    (h : Runs Site.Others wiring currentTxmax job s (.ok txmax) job' s') : s.1.database.lastTxid ≤ txmax := by
  obtain ⟨hread, -⟩ := runs_transported_ok.mp h
  obtain ⟨s₁, hothers, hanswer, -⟩ := Program.runs_request.mp (Attempt.runs_mapError_ok.mp hread)
  rw [World.answer_transactionId hanswer.symm]
  exact hothers.1.advances.database.reaches.log.1

/-- What a receive cycle has read of a window that its slot still covers. -/
structure Tells (job : Job) (mark : Nat) (db db' : Database) (reading : Reading) : Prop where
  slot : reading.slot = job.slot.getD job.options.slotName
  txmin : reading.window.txmin = mark
  mark_le : mark ≤ reading.window.txmax
  txmax : db.lastTxid ≤ reading.window.txmax ∧ reading.window.txmax ≤ db'.lastTxid
  told : ∀ plan : Plan, plan.Told db'.log reading.window reading.records

/-- A receive cycle reads all that the transactions of its window did, whatever is committed while it
reads. -/
theorem readChanges_tells (hwiring : wiring.Faithful) (hreached : s.1.database.Reached)
    (hfed : s.1.IsFed wiring.buffer) {mark : Nat}
    (hmark : s.1.mark wiring.store job.options.index = .ok (some mark))
    (hlast : mark ≤ s.1.database.lastTxid) {slot : Slot}
    (hslot : s.1.database.slots.get? (job.slot.getD job.options.slotName) = some slot)
    (hreleased : slot.reclaimedUpTo ≤ mark) {pages : Nat} {reading : Reading}
    (h : Runs Site.Others wiring (readChanges pages) job s (.ok reading) job' s') :
    Tells job mark s.1.database s'.1.database reading := by
  obtain ⟨hread, -, -⟩ := readChanges_runs hwiring h
  have hname := hread.name
  obtain ⟨before, txmax, job₁, s₁, job₂, s₂, job₃, s₃, job₄, s₄, hopen, hload, htxid, hdrain, hwindow,
    hends⟩ := readChanges_steps h
  have hopened := (opens_openSlot.holds (.refl job hfed) hopen).1
  have hloaded := (opens_checkpoint.holds hopened hload).1
  have hcurrent := (opens_currentTxmax.holds hloaded htxid).1
  obtain ⟨htxmax, -, -⟩ := currentTxmax_runs htxid
  obtain ⟨hs₄, -⟩ := drain_runs hdrain
  obtain ⟨since, copies, ⟨older, hsince⟩, hbuffered⟩ := drain_gives hcurrent.site.fed hdrain
  have hafter : Database.Reaches s₄.1.database s'.1.database := by
    rcases hends with ⟨-, -, rfl, -⟩ | ⟨-, hpull⟩
    · exact .refl
    · have hquiet : Stateful.Asks Call.IsQuiet (pullWindow pages reading.slot reading.window) :=
        pullWindow_asks (fun _ _ _ _ => trivial) _ _ _
      exact (World.advances_of_runs (hquiet _) hpull).database.reaches
  obtain ⟨hle, later, hlog, hlater⟩ := hafter.log
  -- the window starts at the checkpoint and ends no later than the drain
  have htxmin : reading.window.txmin = mark := by
    obtain ⟨found, hfound, htxmin⟩ := hread.txmin
    rw [hmark] at hfound
    rw [htxmin, ← Except.ok.inj hfound, Option.getD_some]
  have hbefore : before.getD 0 = mark := by rw [← htxmin, hwindow]
  rw [hbefore] at hwindow
  have hdrained : reading.window.txmax ≤ s₄.1.database.lastTxid := by
    have hs : s.1.database.lastTxid ≤ s₄.1.database.lastTxid :=
      Nat.le_trans hcurrent.site.reaches.log.1 hs₄.database.reaches.log.1
    rw [hwindow]
    exact Nat.max_le.mpr ⟨Nat.le_trans htxmax hs₄.database.reaches.log.1, Nat.le_trans hlast hs⟩
  -- the slot has all of the window
  have hpulled : reading.pulled =
      s'.1.database.log.filter fun r => reading.window.contains r.txid := by
    by_cases hempty : reading.window.isEmpty = true
    · rcases hends with ⟨-, hnone, -⟩ | ⟨hnonempty, -⟩
      · rw [hnone, eq_comm, List.filter_eq_nil_iff]
        intro r _ hr
        obtain ⟨hlow, hhigh⟩ := TxWindow.contains_iff.mp hr
        have hends : reading.window.txmax ≤ reading.window.txmin := by
          simpa [TxWindow.isEmpty] using hempty
        omega
      · rw [hnonempty] at hempty
        contradiction
    · obtain ⟨-, found, hfound, hpulled⟩ := hread.pulled (by simpa using hempty)
      have hsame := hread.opened.existing slot (hname ▸ hslot)
      obtain rfl := Option.some.inj (hfound.symm.trans hsame)
      rw [hpulled, Database.Slot.within,
        (hreached.trans hread.opened.reaches).retained_eq hfound, List.filter_filter]
      refine List.filter_congr fun r _ => ?_
      rw [Bool.and_eq_left_iff_imp]
      intro hr
      have hlow := (TxWindow.contains_iff.mp hr).1
      rw [decide_eq_true_eq]
      omega
  refine ⟨hname, htxmin, ?_, ⟨?_, Nat.le_trans hdrained hle⟩, fun plan => ?_⟩
  · rw [hwindow]
    exact Nat.le_max_right _ _
  · rw [hwindow]
    exact Nat.le_trans (Nat.le_trans hloaded.site.reaches.log.1 (lastTxid_le_currentTxmax htxid))
      (Nat.le_max_left _ _)
  · rw [Reading.records, hpulled, hbuffered]
    exact Plan.told_of_parts copies (by rw [hlog, ← hsince]) fun r hr =>
      Nat.lt_of_le_of_lt hdrained (hlater r hr)

/-! ### The opening of a resync -/

/-- What a resync does before it writes: it opens its slot, drains the buffer and reads the last
transaction. -/
def beginResync : Working (String × Nat) := do
  let slot ← openSlot
  let _ ← drain
  let txmax ← currentTxmax
  return (slot, txmax)

/-- What it does then. -/
def finishResync (pages : Nat) : String × Nat → Working CycleStats
  | (slot, txmax) => do
    enter .applying
    let stats ← rederive pages
    enter .reclaiming
    persist slot txmax
    ack
    enter .idle
    return stats

theorem fullResync_eq (pages : Nat) : fullResync pages = beginResync >>= finishResync pages := by
  simp only [fullResync, beginResync, finishResync, bind_assoc, pure_bind]

theorem opens_beginResync : Opens wiring job₀ s₀ beginResync :=
  opens_openSlot.bind fun _ _ => opens_drain.bind fun _ _ =>
    opens_currentTxmax.bind fun _ _ => upholds_pure trivial

theorem beginResync_aside (hwrites : (s.1.buffer wiring.buffer).writes = []) {opened : String × Nat}
    (h : Runs (Site.Outages wiring.sink) wiring beginResync job s (.ok opened) job' s') :
    Aside wiring job job' s s' := by
  obtain ⟨slot, job₁, s₁, hslot, h₁⟩ := runs_bind_ok.mp h
  obtain ⟨records, job₂, s₂, hdrain, h₂⟩ := runs_bind_ok.mp h₁
  obtain ⟨txmax, job₃, s₃, htxmax, h₃⟩ := runs_bind_ok.mp h₂
  obtain ⟨-, rfl, rfl⟩ := runs_pure.mp h₃
  have hopened := openSlot_aside hwrites hslot
  have hdrained := hopened.trans (drain_aside (hopened.writes hwrites) hdrain)
  exact hdrained.trans (currentTxmax_eq (hdrained.writes hwrites) htxmax).2

/-- The transaction that a resync reads is the last one at some time after it began, and its slot is released
no further. -/
theorem beginResync_runs (hfed : s.1.IsFed wiring.buffer)
    (hkept : ∀ name, job.slot = some name → ∃ slot, s.1.database.slots.get? name = some slot)
    (hreleased : ∀ slot, s.1.database.slots.get? (job.slot.getD job.options.slotName) = some slot →
      slot.reclaimedUpTo ≤ s.1.database.lastTxid)
    {name : String} {txmax : Nat}
    (h : Runs Site.Others wiring beginResync job s (.ok (name, txmax)) job' s') :
    name = job.slot.getD job.options.slotName ∧ s.1.database.lastTxid ≤ txmax ∧
      txmax ≤ s'.1.database.lastTxid ∧
      ∃ slot, s'.1.database.slots.get? name = some slot ∧ slot.reclaimedUpTo ≤ txmax := by
  obtain ⟨_, job₁, s₁, hopen, h₁⟩ := runs_bind_ok.mp h
  obtain ⟨records, job₂, s₂, hdrain, h₂⟩ := runs_bind_ok.mp h₁
  obtain ⟨_, job₃, s₃, htxid, h₃⟩ := runs_bind_ok.mp h₂
  obtain ⟨hpair, rfl, rfl⟩ := runs_pure.mp h₃
  obtain ⟨rfl, rfl⟩ := Prod.mk.inj (Except.ok.inj hpair)
  obtain ⟨hname, -, -, -, -⟩ := openSlot_runs hopen
  have hopened := (opens_openSlot.holds (.refl job hfed) hopen).1.site
  obtain ⟨slot, hfound⟩ := exists_slot_of_openSlot hkept hopen
  obtain ⟨hs₂, -⟩ := drain_runs hdrain
  obtain ⟨hlast, hs₃, -⟩ := currentTxmax_runs htxid
  have htxmax : s₁.1.database.lastTxid ≤ txmax :=
    Nat.le_trans hs₂.database.reaches.log.1 (lastTxid_le_currentTxmax htxid)
  refine ⟨hname, Nat.le_trans hopened.reaches.log.1 htxmax, hlast, slot, ?_, Nat.le_trans ?_ htxmax⟩
  · rw [hs₃.database.slots, hs₂.database.slots]
    exact hfound
  · cases hold : s.1.database.slots.get? name with
    | none => exact hopened.opened name hold slot hfound
    | some found =>
      obtain rfl := Option.some.inj (hfound.symm.trans (hopened.kept _ _ hold))
      exact Nat.le_trans (hreleased slot (hname ▸ hold)) hopened.reaches.log.1

end Job

end DocSync
