import DocSync.Proofs.Job.Aside
import DocSync.Proofs.Job.Rederive

/-!
Full resyncs amid outages of the sink.  A resync that succeeds leaves what is wanted stored under every
identity and the checkpoint at the last transaction; after it, another resync writes nothing, and a
receive cycle finds an empty window.
-/

namespace DocSync

namespace Job

open Working

variable {docs : Document → Prop} {want : String → Option String} {kinds : List ValueKind}
  {wiring : Wiring} {job job' : Job} {s s' : Site}

/-! ### What a resync leaves -/

/-- A job that can re-derive every root, and the documents of its roots are wanted, and nothing else. -/
structure Poised (docs : Document → Prop) (want : String → Option String) (wiring : Wiring)
    (kinds : List ValueKind) (job : Job) (s : Site) : Prop where
  ready : Ready docs wiring.sink job s
  readable : Readable wiring job.plan kinds s
  enumerates : (s.1.sink wiring.sink).enumerates = true
  writes : (s.1.buffer wiring.buffer).writes = []
  wanted : ∀ d ∈ job.documents (job.scannedTrees s.1.database), docs d ∧ want d.identity = some d.text
  nothing : ∀ identity, identity ∉
    (job.documents (job.scannedTrees s.1.database)).map Document.identity → want identity = none

/-- The same job later, while the database rests. -/
theorem Poised.later (h : Poised docs want wiring kinds job s) (hplan : job'.plan = job.plan)
    (hoptions : job'.options = job.options) (hrests : s.Rests wiring s')
    (henumerates : (s'.1.sink wiring.sink).enumerates = (s.1.sink wiring.sink).enumerates)
    (hready : Ready docs wiring.sink job' s') : Poised docs want wiring kinds job' s' := by
  have htrees : job'.documents (job'.scannedTrees s'.1.database) =
      job.documents (job.scannedTrees s.1.database) := by
    simp only [documents, scannedTrees, hplan, hoptions, Plan.scannedTrees_congr hrests.tables]
  refine ⟨hready, ⟨h.readable.wiring, ?_, ?_, ?_, ?_⟩, henumerates.trans h.enumerates,
    hrests.writes.trans h.writes, ?_, ?_⟩
  · rw [hrests.frames]
    exact h.readable.pending
  · rw [hplan, hrests.schema]
    exact h.readable.fits
  · rw [hplan]
    intro row hrow
    rw [PlanNode.rowsIn, hrests.tables] at hrow
    exact h.readable.keyed.keyed row hrow
  · rw [hplan, PlanNode.rowsIn, hrests.tables]
    exact h.readable.keyed.distinct
  · rw [htrees]
    exact h.wanted
  · rw [htrees]
    exact h.nothing

theorem Aside.ready (h : Aside wiring job job' s s') (hready : Ready docs wiring.sink job s) :
    Ready docs wiring.sink job' s' := by
  obtain ⟨slot, phase, rfl⟩ := h.job
  exact ⟨hready.index, h.sink.rejected.trans hready.rejected, hready.sound.alike h.sink⟩

theorem Aside.poised (h : Aside wiring job job' s s') (hpoised : Poised docs want wiring kinds job s) :
    Poised docs want wiring kinds job' s' := by
  have hready := h.ready hpoised.ready
  have hrests := h.rests
  have henumerates := h.sink.enumerates
  obtain ⟨slot, phase, rfl⟩ := h.job
  exact hpoised.later rfl rfl hrests henumerates hready

theorem Toward.poised (h : Toward docs want wiring.sink job job' s s')
    (hpoised : Poised docs want wiring kinds job s) : Poised docs want wiring kinds job' s' :=
  hpoised.later h.plan h.options (.of_sameElse h.rest) h.writer.nature.enumerates
    (h.ready hpoised.ready)

theorem Aside.meets (h : Aside wiring job job' s s') {identity : String}
    (hmeets : job.writer.Meets want (s.1.sink wiring.sink) identity) :
    job'.writer.Meets want (s'.1.sink wiring.sink) identity := by
  have hsink := h.sink
  obtain ⟨slot, phase, rfl⟩ := h.job
  exact ⟨(congrArg _ (hsink.storedAt _ identity)).trans hmeets.stored, hmeets.listed⟩

/-- Everything that is wanted is stored. -/
structure Stored (docs : Document → Prop) (want : String → Option String) (wiring : Wiring)
    (kinds : List ValueKind) (job : Job) (s : Site) : Prop extends
    Poised docs want wiring kinds job s where
  meets : ∀ identity, job.writer.Meets want (s.1.sink wiring.sink) identity

/-- Everything that is wanted is stored, and the checkpoint is at the last transaction. -/
structure Resynced (docs : Document → Prop) (want : String → Option String) (wiring : Wiring)
    (kinds : List ValueKind) (job : Job) (s : Site) : Prop extends
    Stored docs want wiring kinds job s where
  marked : ∃ mark, s.1.mark wiring.store job.options.index = .ok (some mark) ∧
    s.1.database.lastTxid ≤ mark

/-- A resync that succeeds leaves everything that is wanted stored, and the checkpoint at the last
transaction. -/
theorem Poised.fullResync_runs (happart : Document.Apart docs)
    (hpoised : Poised docs want wiring kinds job s) {pages : Nat} {stats : CycleStats}
    (h : Stateful.Runs (Site.Outages wiring.sink) wiring (fullResync pages) job s (.ok stats) job'
      s') :
    Resynced docs want wiring kinds job' s' ∧ job'.plan = job.plan ∧ job'.options = job.options ∧
      s.Rests wiring s' := by
  rw [fullResync] at h
  obtain ⟨slot, job₁, s₁, hslot, h⟩ := Stateful.runs_bind_ok.mp h
  obtain ⟨_, job₂, s₂, hdrain, h⟩ := Stateful.runs_bind_ok.mp h
  obtain ⟨txmax, job₃, s₃, htxmax, h⟩ := Stateful.runs_bind_ok.mp h
  rw [runs_enter_bind] at h
  obtain ⟨stats₁, job₄, s₄, hrederive, h⟩ := Stateful.runs_bind_ok.mp h
  rw [runs_enter_bind] at h
  obtain ⟨_, job₅, s₅, hpersist, h⟩ := Stateful.runs_bind_ok.mp h
  obtain ⟨_, job₆, s₆, hack, h⟩ := Stateful.runs_bind_ok.mp h
  rw [runs_enter_bind] at h
  obtain ⟨-, rfl, rfl⟩ := Stateful.runs_pure.mp h
  -- before the writes
  have hopened := openSlot_aside hpoised.writes hslot
  have hdrained := hopened.trans (drain_aside (hopened.writes hpoised.writes) hdrain)
  obtain ⟨rfl, hread⟩ := currentTxmax_eq (hdrained.writes hpoised.writes) htxmax
  have hbefore := (hdrained.trans hread).trans (.enter job₃ s₃ .applying)
  have hpoised₃ := hbefore.poised hpoised
  -- the writes
  obtain ⟨htoward, hmeets⟩ := rederive_runs happart hpoised₃.ready hpoised₃.readable
    hpoised₃.enumerates hpoised₃.wanted hpoised₃.nothing hrederive
  have hpoised₄ := htoward.poised hpoised₃
  -- after the writes
  have hpersisted := (Aside.enter job₄ s₄ .reclaiming).trans (persist_aside hpoised₄.writes hpersist)
  have hacked := hpersisted.trans (ack_aside (hpersisted.writes hpoised₄.writes) hack)
  have hafter := hacked.trans (.enter job₆ _ .idle)
  have hrests := (hbefore.rests.trans (.of_sameElse htoward.rest)).trans hafter.rests
  obtain ⟨⟨before, -, hmark⟩, -, rfl⟩ := persist_runs (hpersist.mono fun h => h.others)
  have hmarks := (ack_runs (hack.mono fun h => h.others)).marks
  obtain ⟨-, rfl⟩ := runs_transported_ok.mp hack
  have hplan : job₄.plan = job.plan := htoward.plan.trans hbefore.plan
  have hoptions : job₄.options = job.options := htoward.options.trans hbefore.options
  refine ⟨⟨⟨hafter.poised hpoised₄, fun identity => hafter.meets (hmeets stats₁ rfl identity)⟩,
    max s₂.1.database.lastTxid (before.getD 0), ?_, ?_⟩, hplan, hoptions, hrests⟩
  · rw [hmarks.mark]
    exact hmark
  · rw [hrests.lastTxid, hdrained.rests.lastTxid]
    exact Nat.le_max_left _ _

/-! ### A resync of what is resynced -/

/-- The last write of a wanted document is in the ledger. -/
theorem Ready.ledger_of_meets (hready : Ready docs wiring.sink job s)
    {d : Document} (hwant : want d.identity = some d.text)
    (hmeets : job.writer.Meets want (s.1.sink wiring.sink) d.identity) :
    job.writer.ledger.get? d.identity = some d.digest := by
  obtain ⟨digest, hdigest⟩ := Option.isSome_iff_exists.mp (hmeets.listed (by rw [hwant]; rfl))
  obtain ⟨old, hold, rfl, -⟩ := hready.sound _ _ hdigest
  have htext := hmeets.stored
  rw [hold, hwant, Option.map_some, Option.some_inj] at htext
  rw [hdigest, Document.digest, Document.digest, htext]

/-- A document that was the last one written is not written again. -/
theorem upsert_settled {writer : Writer} {d : Document}
    (h : writer.ledger.get? d.identity = some d.digest) :
    (Writer.upsert d).run.run writer = .done (.ok .unchanged, writer) := by
  change (if writer.ledger.get? d.identity = some d.digest then
    (pure .unchanged : Writing WriteOutcome) else _).run.run writer = _
  rw [if_pos h]
  rfl

theorem writeTree_settled {tree : RowTree}
    (hsettled : ∀ d ∈ job.documents [tree], job.writer.ledger.get? d.identity = some d.digest)
    (stats : CycleStats) (seen : List String) :
    ∃ result, (writeTree stats seen tree).run.run job = .done (.ok result, job) := by
  rw [writeTree, Stateful.run_get_bind]
  cases hcompile : job.plan.compile job.options.index tree with
  | error e => exact ⟨(stats.skip e.message, seen), rfl⟩
  | ok d =>
    have hledger := hsettled d (mem_documents.mpr ⟨tree, List.mem_singleton_self _, hcompile⟩)
    refine ⟨(stats.record .unchanged, seen ++ [d.identity]), ?_⟩
    change (((Writer.upsert d).run.run job.writer).bind _).bind _ = _
    rw [upsert_settled hledger]
    rfl

theorem writeTrees_settled {trees : List RowTree}
    (hsettled : ∀ d ∈ job.documents trees, job.writer.ledger.get? d.identity = some d.digest)
    (stats : CycleStats) (seen : List String) :
    ∃ result, (writeTrees trees stats seen).run.run job = .done (.ok result, job) := by
  induction trees generalizing stats seen with
  | nil => exact ⟨(stats, seen), rfl⟩
  | cons tree rest ih =>
    have hsplit : job.documents (tree :: rest) = job.documents [tree] ++ job.documents rest :=
      documents_append [tree] rest
    rw [hsplit] at hsettled
    obtain ⟨⟨stats₁, seen₁⟩, hfirst⟩ :=
      writeTree_settled (fun d hd => hsettled d (List.mem_append_left _ hd)) stats seen
    obtain ⟨result, hothers⟩ :=
      ih (fun d hd => hsettled d (List.mem_append_right _ hd)) stats₁ seen₁
    refine ⟨result, ?_⟩
    change ((writeTree stats seen tree).run.run job).bind _ = _
    rw [hfirst]
    exact hothers

/-- A scan of documents that were the last ones written writes nothing. -/
theorem scanPages_makes (hread : Readable wiring job.plan kinds s) {scan : RootScan}
    {left : List Row} (hscan : scan.At s.1.database job.plan left) {size : Nat}
    (hsize : scan.batch = size)
    (hsettled : ∀ d ∈ job.documents
      ((chunks size left).flatMap (Fetch.attached s.1.database job.plan)),
      job.writer.ledger.get? d.identity = some d.digest)
    (pages : Nat) (stats : CycleStats) (seen : List String) :
    Stateful.Makes (Site.Outages wiring.sink) wiring (fun call => ¬ call.Writes)
      (scanPages scan pages stats seen) job s := by
  induction pages generalizing s scan left stats seen with
  | zero => trivial
  | succ pages ih =>
    have hfetch : Stateful.Asks (fun call => ¬ call.Writes)
        (transported (scan.nextPage job.plan)) :=
      asks_transported ((nextPage_asks _ _).mono fun _ => Call.IsFetch.not_writes)
    rw [scanPages, Stateful.makes_get_bind]
    refine (hfetch.makes job s).bind fun paged job₁ s₁ hpage => ?_
    obtain ⟨page, next⟩ := paged
    obtain ⟨_, hresult, rfl, halike, hbatch, hnext⟩ := nextPage_runs hread hscan hpage
    have hpositive := hsize ▸ hscan.batch
    rw [hsize] at hresult hbatch hnext
    obtain ⟨rfl, rfl⟩ := Prod.mk.inj (Except.ok.inj hresult)
    have hdatabase := halike.toSameElse.database
    by_cases hleft : left = []
    · rw [if_pos hleft]
      trivial
    rw [if_neg hleft]
    rw [chunks_eq hpositive hleft, List.flatMap_cons, documents_append] at hsettled
    obtain ⟨⟨stats₁, seen₁⟩, hwrites⟩ :=
      writeTrees_settled (fun d hd => hsettled d (List.mem_append_left _ hd)) stats seen
    have hscan' := hnext hleft
    rw [← hdatabase] at hscan'
    have hsettled' := fun d hd => hsettled d (List.mem_append_right _ hd)
    rw [← hdatabase] at hsettled'
    have hothers := ih (hread.sameElse halike.toSameElse) hscan' hbatch hsettled' stats₁ seen₁
    change Program.Makes _ _ _ (((writeTrees _ stats seen).run.run job₁).bind _) s₁
    rw [hwrites]
    exact hothers

theorem Stored.settled (h : Stored docs want wiring kinds job s) :
    ∀ d ∈ job.documents (job.scannedTrees s.1.database),
      job.writer.ledger.get? d.identity = some d.digest :=
  fun d hd => h.ready.ledger_of_meets (h.wanted d hd).2 (h.meets d.identity)

theorem Aside.stored (h : Aside wiring job job' s s') (hstored : Stored docs want wiring kinds job s) :
    Stored docs want wiring kinds job' s' :=
  ⟨h.poised hstored.toPoised, fun identity => h.meets (hstored.meets identity)⟩

/-- The sink lists no document but those of the roots, so that there is none to delete. -/
theorem reconcile_makes {writer : Writer} {identities : List String}
    (henumerates : (s.1.sink wiring.sink).enumerates = true)
    (hmeets : ∀ identity, writer.Meets want (s.1.sink wiring.sink) identity)
    (hnothing : ∀ identity, identity ∉ identities → want identity = none) :
    Stateful.Makes (Site.Outages wiring.sink) wiring (fun call => ¬ call.Writes)
      (Writer.reconcile identities) writer s := by
  have hknown (w : Writer) : w.known.Asks fun call => ¬ call.Writes :=
    (Attempt.asks_mapError (Writer.send_asks (fun _ => id) w (Writer.ask_asks id))).bind fun _ =>
      Attempt.asks_pure _
  refine ((Writing.asks_reading hknown).makes writer s).bind fun known writer₁ s₁ hruns => ?_
  obtain ⟨hruns, rfl⟩ := Writing.runs_reading.mp hruns
  obtain ⟨hlisted, -⟩ := Writer.known_runs (Site.outages_spares _) henumerates hruns
  obtain rfl := Except.ok.inj hlisted
  have hnone : (((s.1.sink wiring.sink).stored writer₁.index).keys.filter
      fun identity => !identities.contains identity) = [] := by
    refine List.filter_eq_nil_iff.mpr fun identity hidentity => ?_
    obtain ⟨d, hd⟩ := Keyed.mem_keys.mp hidentity
    have hwanted : want identity = some d.text := by
      rw [← (hmeets identity).stored, MemorySink.storedAt, hd]
      rfl
    by_contra hunseen
    rw [hnothing identity (by simpa using hunseen)] at hwanted
    contradiction
  rw [hnone]
  trivial

theorem rederive_makes (happart : Document.Apart docs)
    (h : Stored docs want wiring kinds job s) (pages : Nat) :
    Stateful.Makes (Site.Outages wiring.sink) wiring (fun call => ¬ call.Writes) (rederive pages) job
      s := by
  have hstart := RootScan.at_start s.1.database job.plan job.options.batchSize
  have hscan : Stateful.Makes (Site.Outages wiring.sink) wiring (fun call => ¬ call.Writes)
      (scanAll pages .empty) job s :=
    scanPages_makes h.readable hstart rfl h.settled pages .empty []
  refine hscan.bind fun scanned job₁ s₁ hruns => ?_
  obtain ⟨stats, seen⟩ := scanned
  obtain ⟨htoward, hdone⟩ := scanAll_runs happart h.ready h.readable h.wanted hruns
  obtain ⟨rfl, -⟩ := hdone stats seen rfl
  have henumerates := htoward.writer.nature.enumerates.trans h.enumerates
  have hreconcile := reconcile_makes henumerates
    (fun identity => htoward.writer.stays (h.meets identity)) h.nothing
  have hwriting : Stateful.Makes (Site.Outages wiring.sink) wiring (fun call => ¬ call.Writes)
      (writing (Writer.reconcile ((job.documents (job.scannedTrees s.1.database)).map
        Document.identity))) job₁ s₁ :=
    Program.Makes.bind hreconcile fun _ _ _ => trivial
  refine hwriting.bind fun deleted job₂ s₂ _ => ?_
  have hrefresh : Stateful.Asks (fun call => ¬ call.Writes)
      (attempt job₂.writer.refresh) :=
    asks_attempt (Attempt.asks_mapError (Writer.send_asks (fun _ => id) _ (Writer.ask_asks id)))
  exact (hrefresh.makes job₂ s₂).bind fun _ _ _ _ => trivial

/-- A resync of what is resynced neither upserts nor deletes. -/
theorem Stored.fullResync_makes (happart : Document.Apart docs)
    (h : Stored docs want wiring kinds job s) (pages : Nat) :
    Stateful.Makes (Site.Outages wiring.sink) wiring (fun call => ¬ call.Writes) (fullResync pages)
      job s := by
  refine ((openSlot_asks fun _ => id).makes job s).bind fun slot job₁ s₁ hslot => ?_
  have hopened := openSlot_aside h.writes hslot
  refine ((drain_asks id).makes job₁ s₁).bind fun _ job₂ s₂ hdrain => ?_
  have hdrained := hopened.trans (drain_aside (hopened.writes h.writes) hdrain)
  refine ((currentTxmax_asks id).makes job₂ s₂).bind fun txmax job₃ s₃ htxmax => ?_
  obtain ⟨-, hread⟩ := currentTxmax_eq (hdrained.writes h.writes) htxmax
  have hbefore := (hdrained.trans hread).trans (.enter job₃ s₃ .applying)
  have hrederive := rederive_makes happart (hbefore.stored h) pages
  refine hrederive.bind (fun stats job₄ s₄ _ => ?_)
  refine ((persist_asks (fun _ _ => id) (fun _ _ => id) slot txmax).makes _ s₄).bind
    fun _ job₅ s₅ _ => ?_
  exact ((ack_asks id).makes job₅ s₅).bind fun _ _ _ _ => trivial

/-! ### A receive cycle after a resync -/

/-- The window of a receive cycle that follows a resync is empty. -/
theorem Resynced.window_isEmpty (h : Resynced docs want wiring kinds job s) {reading : Reading}
    (hread : ReadsAside wiring job s reading) : reading.window.isEmpty = true := by
  obtain ⟨mark, hmark, hlast⟩ := h.marked
  obtain ⟨before, hbefore, hwindow⟩ := hread.window
  obtain rfl := Except.ok.inj (hmark.symm.trans hbefore)
  rw [hwindow, TxWindow.isEmpty, Option.getD_some, Nat.max_eq_right hlast]
  simp

/-- A receive cycle that follows a resync asks nothing of the sink where nothing is buffered. -/
theorem Resynced.receiveOnce_makes (h : Resynced docs want wiring kinds job s)
    (hnothing : (s.1.backlog wiring.buffer).drained = []) (pages : Nat) :
    Stateful.Makes (Site.Outages wiring.sink) wiring (fun call => ∀ c, call ≠ .sink c)
      (receiveOnce pages) job s := by
  have hasks : Stateful.Asks (fun call => ∀ c, call ≠ .sink c) (readChanges pages) :=
    readChanges_asks (by simp) (by simp) (by simp) (by simp) (by simp) pages
  refine (hasks.makes job s).bind fun reading job₁ s₁ hruns => ?_
  obtain ⟨-, -, hread⟩ := readChanges_aside h.writes hruns
  have hempty : reading.isEmpty = true := by
    rw [Reading.isEmpty, h.window_isEmpty hread, hread.buffered, hnothing]
    rfl
  rw [applyReading, if_pos hempty]
  trivial

end Job

end DocSync
