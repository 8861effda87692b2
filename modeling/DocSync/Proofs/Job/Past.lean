import DocSync.Proofs.Job.Parts
import DocSync.Proofs.Job.Resync

/-!
What earlier cycles of a job leave.  Whatever others commit and whichever calls fail, a cycle writes
documents of the job's index only, and lists of each the digest that the sink stores; so the ledger is
sound after any number of cycles, whether they succeeded or failed.
-/

namespace DocSync.Job

open Working Stateful

/-- A job of a plan with a sound ledger, over a sink that refuses nothing. -/
structure Tended (plan : Plan) (opts : SyncOptions) (name : String) (job : Job) (w : World) : Prop where
  plan : job.plan = plan
  options : job.options = opts
  index : job.writer.index = opts.index
  rejected : (w.sink name).rejected = []
  sound : job.writer.Sound (fun _ => True) (w.sink name)

/-- Whatever others commit and whichever calls fail, the routine leaves the job tended, and its value is
as it should be. -/
abbrev Tends {α : Type} (plan : Plan) (opts : SyncOptions) (wiring : Wiring) (ends : α → Prop)
    (a : Working α) : Prop :=
  Upholds Site.Others wiring (fun job s => Tended plan opts wiring.sink job s.1) ends a

variable {plan : Plan} {opts : SyncOptions} {wiring : Wiring} {α : Type} {name : String}
  {job job' : Job} {w w' : World}

theorem Tended.alike (h : Tended plan opts name job w) (halike : (w.sink name).Alike (w'.sink name)) :
    Tended plan opts name job w' :=
  ⟨h.plan, h.options, h.index, halike.rejected.trans h.rejected, h.sound.alike halike⟩

/-- The slot and the phase of a job do not matter. -/
theorem Tended.with (h : Tended plan opts name job w) (slot : Option String) (phase : Phase) :
    Tended plan opts name { job with slot := slot, phase := phase } w :=
  ⟨h.plan, h.options, h.index, h.rejected, h.sound⟩

theorem Tended.wrote (h : Tended plan opts name job w) {identity : String} {d : Option Document}
    {writer : Writer}
    (hwrote : Writer.Wrote identity d job.writer writer (w.sink name) (w'.sink name)) :
    Tended plan opts name { job with writer := writer } w' :=
  ⟨h.plan, h.options, hwrote.index.trans h.index, hwrote.nature.rejected.trans h.rejected,
    h.sound.wrote (fun _ _ => trivial) hwrote⟩

/-! ### Single steps -/

theorem tends_attempt {a : Attempt SyncError α} (hasks : a.Asks fun call => ¬ call.Writes) :
    Tends plan opts wiring (fun _ => True) (attempt a) := by
  constructor
  intro job job' s s' result htended hruns
  obtain ⟨hran, rfl⟩ := runs_attempt.mp hruns
  have halike := Program.Runs.sink_alike (Site.others_spares wiring.sink) hasks hran
  exact ⟨htended.alike halike, fun _ _ => trivial⟩

theorem tends_transported {a : Attempt Failure α} (hasks : a.Asks fun call => ¬ call.Writes) :
    Tends plan opts wiring (fun _ => True) (transported a) :=
  tends_attempt (Attempt.asks_mapError hasks)

theorem tends_orFatal {a : Attempt Failure α} (hasks : a.Asks fun call => ¬ call.Writes) :
    Tends plan opts wiring (fun _ => True) (orFatal a) :=
  tends_attempt (Attempt.asks_mapError hasks)

theorem tends_enter (phase : Phase) : Tends plan opts wiring (fun _ => True) (enter phase) := by
  constructor
  intro job job' s s' result htended hruns
  obtain ⟨-, rfl, rfl⟩ := runs_enter.mp hruns
  exact ⟨htended.with job.slot phase, fun _ _ => trivial⟩

theorem tends_upsert {d : Document} (hindex : d.index = opts.index) :
    Tends plan opts wiring (fun _ => True) (writing (Writer.upsert d)) := by
  constructor
  intro job job' s s' result htended hruns
  obtain ⟨writer, hwriter, rfl⟩ := runs_writing.mp hruns
  refine ⟨?_, fun _ _ => trivial⟩
  rcases Writer.upsert_cases (Site.others_spares _) (hindex.trans htended.index.symm)
    htended.rejected hwriter with ⟨-, rfl, rfl⟩ | hwrote | ⟨-, rfl, halike⟩
  · exact htended
  · exact htended.wrote hwrote
  · exact htended.alike halike

theorem tends_delete (identity : String) :
    Tends plan opts wiring (fun _ => True) (writing (Writer.delete identity)) := by
  constructor
  intro job job' s s' result htended hruns
  obtain ⟨writer, hwriter, rfl⟩ := runs_writing.mp hruns
  refine ⟨?_, fun _ _ => trivial⟩
  rcases Writer.delete_cases (Site.others_spares _) hwriter with
    hwrote | ⟨-, rfl, halike⟩
  · exact htended.wrote hwrote
  · exact htended.alike halike

theorem tends_reconcile (seen : List String) :
    Tends plan opts wiring (fun _ => True) (writing (Writer.reconcile seen)) := by
  constructor
  intro job job' s s' result htended hruns
  refine ⟨?_, fun _ _ => trivial⟩
  obtain ⟨writer, hwriter, rfl⟩ := runs_writing.mp hruns
  have hknown (w : Writer) : w.known.Asks fun call => ¬ call.Writes :=
    (Attempt.asks_mapError (Writer.send_asks (fun _ => id) w (Writer.ask_asks id))).bind fun _ =>
      Attempt.asks_pure _
  rcases runs_bind.mp hwriter with ⟨known, writer₁, s₁, hlisted, hdeletes⟩ | ⟨e, hlisted, -⟩
  · obtain ⟨hran, rfl⟩ := Writing.runs_reading.mp hlisted
    have hbefore := htended.alike
      (Program.Runs.sink_alike (Site.others_spares wiring.sink) (hknown _) hran)
    -- whatever is wanted: a delete keeps the ledger sound
    let nothing : String → Option String := fun _ => none
    have hnothing (identities : List String) : ∀ identity ∈ identities, nothing identity = none :=
      fun _ _ => rfl
    obtain ⟨htoward, -⟩ := Writer.deleteAll_runs (fun _ => True) (Site.others_spares _)
      (hnothing _) hdeletes
    exact ⟨hbefore.plan, hbefore.options, htoward.index.trans hbefore.index,
      htoward.nature.rejected.trans hbefore.rejected, htoward.sound hbefore.sound⟩
  · obtain ⟨hran, rfl⟩ := Writing.runs_reading.mp hlisted
    exact htended.alike (Program.Runs.sink_alike (Site.others_spares wiring.sink) (hknown _) hran)

theorem tends_openSlot : Tends plan opts wiring (fun _ => True) openSlot := by
  constructor
  intro job job' s s' result htended hruns
  have hasks : Stateful.Asks (fun call => ¬ call.Writes) openSlot := openSlot_asks fun _ => id
  have halike := Program.Runs.sink_alike (Site.others_spares wiring.sink) (hasks job) hruns
  obtain ⟨slot, phase, rfl⟩ := openSlot_same hruns
  exact ⟨(htended.alike halike).with slot phase, fun _ _ => trivial⟩

theorem tends_refresh (writer : Writer) :
    Tends plan opts wiring (fun _ => True) (attempt writer.refresh) :=
  tends_attempt (Attempt.asks_mapError (Writer.send_asks (fun _ => id) writer (Writer.ask_asks id)))

theorem tends_persist (slot : String) (txmax : Nat) :
    Tends plan opts wiring (fun _ => True) (persist slot txmax) := by
  refine upholds_get_bind fun job _ _ => ?_
  have hsave : (Checkpoints.save job.options.index txmax).Asks fun call => ¬ call.Writes :=
    ⟨id, fun _ => trivial⟩
  have hreclaim : (Source.reclaim slot txmax).Asks fun call => ¬ call.Writes :=
    ⟨id, fun _ => trivial⟩
  refine (tends_orFatal (Attempt.asks_mapError hsave)).bind fun _ _ => ?_
  exact tends_transported (Attempt.asks_mapError hreclaim)

theorem tends_parts : Parts opts (fun _ => True) (fun {_} => Tends plan opts wiring) where
  pure h := upholds_pure h
  bind ha hf := ha.bind hf
  get_bind h := upholds_get_bind fun job _ htended => h job htended.options htended.index
  enter := tends_enter
  spent :=
    have hspent : (ExceptT.mk .spent : Attempt SyncError (CycleStats × List String)).Asks
        fun call => ¬ call.Writes := trivial
    tends_attempt hspent
  fetchRoots plan filter :=
    tends_transported ((fetchRoots_asks plan filter).mono fun _ => Call.IsFetch.not_writes)
  nextPage scan plan := tends_transported ((nextPage_asks scan plan).mono fun _ => Call.IsFetch.not_writes)
  resolve plan writer records _ :=
    tends_attempt ((resolve_asks plan writer records).mono fun _ => Call.IsLookup.not_writes)
  upsert _ := tends_upsert
  delete := tends_delete
  reconcile := tends_reconcile
  refresh := tends_refresh
  openSlot := tends_openSlot
  checkpoint := upholds_get_bind fun _ _ _ => tends_orFatal ⟨id, fun _ => trivial⟩
  currentTxmax := tends_transported (Attempt.asks_mapError ⟨id, fun _ => trivial⟩)
  drain := tends_transported ⟨id, fun _ => trivial⟩
  pullWindow _ _ _ _ :=
    upholds_get_bind fun _ _ _ => tends_transported (pullPages_asks (fun _ => id) _ _)
  persist slot txmax _ := tends_persist slot txmax
  ack := tends_transported ⟨id, fun _ => trivial⟩

/-! ### Any number of cycles -/

/-- A job and a world with what earlier cycles left: the job started from its plan, over a sink that
refuses nothing; since then it ran cycles, whatever others committed and whichever calls failed, over
any wiring to its sink; and whatever else came to pass, nobody else wrote to its index. -/
inductive Past (plan : Plan) (opts : SyncOptions) (name : String) : Job → World → Prop
  | start {w : World} : (w.sink name).rejected = [] → Past plan opts name (.ofPlan plan opts) w
  | cycle {job job' : Job} {w w' : World} {wiring : Wiring} {frames frames' : Frames}
      {kind : CycleKind} {pages : Nat} {result : Except SyncError CycleStats} :
      Past plan opts name job w → wiring.sink = name →
      Runs Site.Others wiring (kind.cycle pages) job (w, frames) result job' (w', frames') →
      Past plan opts name job' w'
  | meanwhile {job : Job} {w w' : World} :
      Past plan opts name job w → (w'.sink name).rejected = (w.sink name).rejected →
      (w'.sink name).stored opts.index = (w.sink name).stored opts.index →
      Past plan opts name job w'

theorem Past.tended (h : Past plan opts name job w) : Tended plan opts name job w := by
  induction h with
  | start hrejected => exact ⟨rfl, rfl, rfl, hrejected, fun _ _ hdigest => by contradiction⟩
  | cycle _ hsink hruns ih =>
    subst hsink
    exact ((tends_parts.cycle _ _).holds ih hruns).1
  | meanwhile _ hrejected hstored ih =>
    refine ⟨ih.plan, ih.options, ih.index, hrejected.trans ih.rejected,
      fun identity digest hdigest => ?_⟩
    rw [MemorySink.storedAt, ih.index, hstored, ← ih.index]
    exact ih.sound identity digest hdigest

end DocSync.Job
