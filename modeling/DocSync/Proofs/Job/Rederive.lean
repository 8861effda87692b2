import DocSync.Proofs.Document.Scan
import DocSync.Proofs.Job.Matching
import DocSync.Proofs.Sink.Writing

/-!
Re-deriving every root amid outages of the sink.  Whatever a scan writes is wanted, so that the index
moves towards what is wanted; when a scan and the reconciling after it succeed, every identity has what
is wanted.
-/

namespace DocSync

namespace Job

open Working

/-- The documents of trees, without those that do not compile. -/
def documents (job : Job) (trees : List RowTree) : List Document :=
  trees.filterMap fun tree => (job.plan.compile job.options.index tree).toOption

variable {docs : Document → Prop} {want : String → Option String} {name : String}
  {job job' job₁ job₂ job₃ : Job} {s s' s₁ s₂ s₃ : Site}

theorem mem_documents {trees : List RowTree} {d : Document} :
    d ∈ job.documents trees ↔ ∃ tree ∈ trees, job.plan.compile job.options.index tree = .ok d := by
  rw [documents, List.mem_filterMap]
  refine exists_congr fun tree => and_congr_right fun _ => ?_
  cases job.plan.compile job.options.index tree <;> simp [Except.toOption]

theorem documents_append (trees trees' : List RowTree) :
    job.documents (trees ++ trees') = job.documents trees ++ job.documents trees' :=
  List.filterMap_append

/-- A job with a sound ledger, whose writer writes its index in a sink that refuses nothing. -/
structure Ready (docs : Document → Prop) (name : String) (job : Job) (s : Site) : Prop where
  index : job.writer.index = job.options.index
  rejected : (s.1.sink name).rejected = []
  sound : job.writer.Sound docs (s.1.sink name)

/-- What a job leaves that writes towards the wanted texts: nothing but its ledger and its sink
changes. -/
structure Toward (docs : Document → Prop) (want : String → Option String) (name : String)
    (job job' : Job) (s s' : Site) : Prop where
  same : job' = { job with writer := job'.writer }
  rest : s.SameElse s'
  writer : job.writer.Toward docs want job'.writer (s.1.sink name) (s'.1.sink name)

theorem Toward.of_alike (h : s.Alike name s') : Toward docs want name job job s s' :=
  ⟨rfl, h.toSameElse, .of_alike h.sink⟩

theorem Toward.refl (job : Job) (s : Site) : Toward docs want name job job s s :=
  .of_alike (.refl s)

theorem Toward.trans (h : Toward docs want name job₁ job₂ s₁ s₂)
    (h' : Toward docs want name job₂ job₃ s₂ s₃) : Toward docs want name job₁ job₃ s₁ s₃ := by
  refine ⟨?_, h.rest.trans h'.rest, h.writer.trans h'.writer⟩
  rw [h'.same, h.same]

theorem Toward.options (h : Toward docs want name job job' s s') : job'.options = job.options := by
  rw [h.same]

theorem Toward.plan (h : Toward docs want name job job' s s') : job'.plan = job.plan := by
  rw [h.same]

theorem Toward.documents (h : Toward docs want name job job' s s') (trees : List RowTree) :
    job'.documents trees = job.documents trees := by
  rw [Job.documents, Job.documents, h.plan, h.options]

theorem Toward.ready (h : Toward docs want name job job' s s') (hready : Ready docs name job s) :
    Ready docs name job' s' :=
  ⟨h.writer.index.trans (hready.index.trans (congrArg _ h.options.symm)),
    h.writer.nature.rejected.trans hready.rejected, h.writer.sound hready.sound⟩

variable {wiring : Wiring}

/-- A routine of the writer leaves everything but the sink and the ledger. -/
theorem writing_runs {α : Type} {a : Writing α} {result : Except SyncError α}
    (hasks : Stateful.Asks Call.IsWriting a)
    (h : Stateful.Runs (Site.Outages wiring.sink) wiring (writing a) job s result job' s') :
    ∃ writer, Stateful.Runs (Site.Outages wiring.sink) wiring a job.writer s result writer s' ∧
      job' = { job with writer := writer } ∧ s.SameElse s' := by
  obtain ⟨writer, hwriter, hjob⟩ := runs_writing.mp h
  exact ⟨writer, hwriter, hjob, Program.Runs.sameElse (hasks job.writer) hwriter⟩

theorem upsert_runs (happart : Document.Apart docs) (hready : Ready docs wiring.sink job s)
    {d : Document} (hd : docs d) (hindex : d.index = job.options.index)
    (hwant : want d.identity = some d.text) {result : Except SyncError WriteOutcome}
    (h : Stateful.Runs (Site.Outages wiring.sink) wiring (writing (Writer.upsert d)) job s result
      job' s') :
    Toward docs want wiring.sink job job' s s' ∧ ∀ outcome, result = .ok outcome →
      job'.writer.Meets want (s'.1.sink wiring.sink) d.identity := by
  obtain ⟨writer, hwriter, rfl, hrest⟩ := writing_runs (Writer.upsert_asks d) h
  obtain ⟨htoward, hmeets⟩ := Writer.upsert_runs (Site.outages_spares _) happart hd
    (hindex.trans hready.index.symm) hwant hready.rejected hready.sound hwriter
  exact ⟨⟨rfl, hrest, htoward⟩, hmeets⟩

/-- A document that is wanted is written, or the write fails. -/
theorem writeTree_runs (happart : Document.Apart docs) (hready : Ready docs wiring.sink job s)
    {tree : RowTree}
    (hwant : ∀ d ∈ job.documents [tree], docs d ∧ want d.identity = some d.text)
    {stats : CycleStats} {seen : List String} {result : Except SyncError (CycleStats × List String)}
    (h : Stateful.Runs (Site.Outages wiring.sink) wiring (writeTree stats seen tree) job s result
      job' s') :
    Toward docs want wiring.sink job job' s s' ∧ ∀ stats' seen', result = .ok (stats', seen') →
      seen' = seen ++ (job.documents [tree]).map Document.identity ∧
      ∀ d ∈ job.documents [tree],
        job'.writer.Meets want (s'.1.sink wiring.sink) d.identity := by
  rw [writeTree, Stateful.runs_get_bind] at h
  cases hcompile : job.plan.compile job.options.index tree with
  | error e =>
    have hnone : job.documents [tree] = [] := by simp [documents, hcompile, Except.toOption]
    rw [hcompile] at h
    obtain ⟨rfl, rfl, rfl⟩ := Stateful.runs_pure.mp h
    refine ⟨.refl _ _, fun stats' seen' hresult => ?_⟩
    obtain ⟨-, rfl⟩ := Prod.mk.inj (Except.ok.inj hresult)
    simp [hnone]
  | ok d =>
    have hsome : job.documents [tree] = [d] := by simp [documents, hcompile, Except.toOption]
    rw [hsome] at hwant ⊢
    obtain ⟨hd, hwanted⟩ := hwant d (List.mem_singleton_self d)
    have hindex := (Plan.compile_eq_ok hcompile).1
    rw [hcompile] at h
    rcases Stateful.runs_bind.mp h with ⟨outcome, job₁, s₁, hupsert, hrest⟩ | ⟨e, hupsert, rfl⟩
    · obtain ⟨htoward, hmeets⟩ := upsert_runs happart hready hd hindex hwanted hupsert
      obtain ⟨rfl, rfl, rfl⟩ := Stateful.runs_pure.mp hrest
      refine ⟨htoward, fun stats' seen' hresult => ?_⟩
      obtain ⟨-, rfl⟩ := Prod.mk.inj (Except.ok.inj hresult)
      refine ⟨rfl, fun d' hd' => ?_⟩
      rw [List.mem_singleton.mp hd']
      exact hmeets outcome rfl
    · obtain ⟨htoward, -⟩ := upsert_runs happart hready hd hindex hwanted hupsert
      exact ⟨htoward, fun _ _ hresult => by contradiction⟩

theorem writeTrees_runs (happart : Document.Apart docs) (hready : Ready docs wiring.sink job s)
    {trees : List RowTree}
    (hwant : ∀ d ∈ job.documents trees, docs d ∧ want d.identity = some d.text)
    {stats : CycleStats} {seen : List String} {result : Except SyncError (CycleStats × List String)}
    (h : Stateful.Runs (Site.Outages wiring.sink) wiring (writeTrees trees stats seen) job s result
      job' s') :
    Toward docs want wiring.sink job job' s s' ∧ ∀ stats' seen', result = .ok (stats', seen') →
      seen' = seen ++ (job.documents trees).map Document.identity ∧
      ∀ d ∈ job.documents trees,
        job'.writer.Meets want (s'.1.sink wiring.sink) d.identity := by
  induction trees generalizing job s stats seen with
  | nil =>
    obtain ⟨rfl, rfl, rfl⟩ := Stateful.runs_pure.mp h
    refine ⟨.refl _ _, fun stats' seen' hresult => ?_⟩
    obtain ⟨-, rfl⟩ := Prod.mk.inj (Except.ok.inj hresult)
    simp [documents]
  | cons tree rest ih =>
    have hsplit : job.documents (tree :: rest) = job.documents [tree] ++ job.documents rest :=
      documents_append [tree] rest
    rw [hsplit] at hwant ⊢
    have hfirst := fun d hd => hwant d (List.mem_append_left _ hd)
    rw [writeTrees] at h
    rcases Stateful.runs_bind.mp h with
      ⟨⟨stats₁, seen₁⟩, job₁, s₁, hwrite, hwrites⟩ | ⟨e, hwrite, rfl⟩
    · obtain ⟨htoward, hdone⟩ := writeTree_runs happart hready hfirst hwrite
      obtain ⟨rfl, hmeets⟩ := hdone stats₁ seen₁ rfl
      have hothers : ∀ d ∈ job₁.documents rest, docs d ∧ want d.identity = some d.text := by
        rw [htoward.documents]
        exact fun d hd => hwant d (List.mem_append_right _ hd)
      obtain ⟨htoward', hdone'⟩ := ih (htoward.ready hready) hothers hwrites
      rw [htoward.documents] at hdone'
      refine ⟨htoward.trans htoward', fun stats' seen' hresult => ?_⟩
      obtain ⟨rfl, hmeets'⟩ := hdone' stats' seen' hresult
      refine ⟨by rw [List.map_append, List.append_assoc], fun d hd => ?_⟩
      rcases List.mem_append.mp hd with hd | hd
      · exact htoward'.writer.stays (hmeets d hd)
      · exact hmeets' d hd
    · obtain ⟨htoward, -⟩ := writeTree_runs happart hready hfirst hwrite
      exact ⟨htoward, fun _ _ hresult => by contradiction⟩

/-- What the fetches of a scan read from. -/
structure Readable (wiring : Wiring) (plan : Plan) (kinds : List ValueKind) (s : Site) : Prop where
  wiring : wiring.Plain
  pending : s.2.pending = []
  fits : plan.Fits s.1.database.schema
  keyed : plan.node.KeyedIn s.1.database kinds

theorem Readable.sameElse {plan : Plan} {kinds : List ValueKind} (h : Readable wiring plan kinds s)
    (hsame : s.SameElse s') : Readable wiring plan kinds s' := by
  refine ⟨h.wiring, ?_, ?_, ?_⟩
  · rw [hsame.frames]
    exact h.pending
  · rw [hsame.database]
    exact h.fits
  · rw [hsame.database]
    exact h.keyed

/-- A page is fetched amid outages as it is alone. -/
theorem nextPage_runs {plan : Plan} {kinds : List ValueKind} (hread : Readable wiring plan kinds s)
    {scan : RootScan} {left : List Row} (hscan : scan.At s.1.database plan left)
    {result : Except SyncError (Option (List RowTree) × RootScan)}
    (h : Stateful.Runs (Site.Outages wiring.sink) wiring (transported (scan.nextPage plan)) job s
      result job' s') :
    ∃ next, result = .ok (if left = [] then none
        else some (Fetch.attached s.1.database plan (left.take scan.batch)), next) ∧
      job' = job ∧ s.Alike wiring.sink s' ∧ next.batch = scan.batch ∧
      (left ≠ [] → next.At s.1.database plan (left.drop scan.batch)) := by
  obtain ⟨next, hgives, hbatch, hnext⟩ := hscan.nextPage_gives hread.wiring hread.fits hread.keyed
  obtain ⟨⟨r, hpage, rfl⟩, rfl⟩ := runs_transported.mp h
  obtain ⟨rfl, halike⟩ := hgives.of_outages ((nextPage_asks _ _).mono fun _ h => h.isLookup) hpage
    hread.pending
  exact ⟨next, rfl, rfl, halike, hbatch, hnext⟩

/-- A scan writes the documents of the trees it has still to fetch, or fails on the way. -/
theorem scanPages_runs (happart : Document.Apart docs) (hready : Ready docs wiring.sink job s)
    {kinds : List ValueKind} (hread : Readable wiring job.plan kinds s) {scan : RootScan}
    {left : List Row} (hscan : scan.At s.1.database job.plan left) {size : Nat}
    (hsize : scan.batch = size)
    (hwant : ∀ d ∈ job.documents
      ((chunks size left).flatMap (Fetch.attached s.1.database job.plan)),
      docs d ∧ want d.identity = some d.text)
    {pages : Nat} {stats : CycleStats} {seen : List String}
    {result : Except SyncError (CycleStats × List String)}
    (h : Stateful.Runs (Site.Outages wiring.sink) wiring (scanPages scan pages stats seen) job s
      result job' s') :
    Toward docs want wiring.sink job job' s s' ∧ ∀ stats' seen', result = .ok (stats', seen') →
      seen' = seen ++ (job.documents ((chunks size left).flatMap
        (Fetch.attached s.1.database job.plan))).map Document.identity ∧
      ∀ d ∈ job.documents ((chunks size left).flatMap (Fetch.attached s.1.database job.plan)),
        job'.writer.Meets want (s'.1.sink wiring.sink) d.identity := by
  induction pages generalizing job s scan left stats seen with
  | zero => exact absurd (runs_attempt.mp h).1 Program.not_runs_spent
  | succ pages ih =>
    rw [scanPages, Stateful.runs_get_bind] at h
    rcases Stateful.runs_bind.mp h with ⟨⟨page, next⟩, job₁, s₁, hpage, hrest⟩ | ⟨e, hpage, rfl⟩
    · obtain ⟨_, hresult, rfl, halike, hbatch, hnext⟩ := nextPage_runs hread hscan hpage
      have hpositive := hsize ▸ hscan.batch
      rw [hsize] at hresult hbatch hnext
      obtain ⟨rfl, rfl⟩ := Prod.mk.inj (Except.ok.inj hresult)
      have hfetched : Toward docs want wiring.sink job₁ job₁ s s₁ := .of_alike halike
      by_cases hleft : left = []
      · subst hleft
        rw [if_pos rfl] at hrest
        obtain ⟨rfl, rfl, rfl⟩ := Stateful.runs_pure.mp hrest
        refine ⟨hfetched, fun stats' seen' hresult => ?_⟩
        obtain ⟨-, rfl⟩ := Prod.mk.inj (Except.ok.inj hresult)
        simp [chunks_nil, documents]
      rw [if_neg hleft] at hrest
      rw [chunks_eq hpositive hleft, List.flatMap_cons, documents_append] at hwant ⊢
      have hfirst := fun d hd => hwant d (List.mem_append_left _ hd)
      rcases Stateful.runs_bind.mp hrest with
        ⟨⟨stats₁, seen₁⟩, job₂, s₂, hwrite, hscans⟩ | ⟨e, hwrite, rfl⟩
      · obtain ⟨htoward, hdone⟩ := writeTrees_runs happart (hfetched.ready hready) hfirst hwrite
        obtain ⟨rfl, hmeets⟩ := hdone stats₁ seen₁ rfl
        have hsofar := hfetched.trans htoward
        have hdatabase := hsofar.rest.database
        have hread' := hsofar.plan ▸ hread.sameElse hsofar.rest
        have hscan' := hnext hleft
        rw [← hdatabase, ← hsofar.plan] at hscan'
        have hwant' := fun d hd => hwant d (List.mem_append_right _ hd)
        rw [← hdatabase, ← hsofar.plan, ← hsofar.documents] at hwant'
        obtain ⟨htoward', hdone'⟩ := ih (hsofar.ready hready) hread' hscan' hbatch hwant' hscans
        rw [hdatabase, hsofar.plan, hsofar.documents] at hdone'
        refine ⟨hsofar.trans htoward', fun stats' seen' hresult => ?_⟩
        obtain ⟨rfl, hmeets'⟩ := hdone' stats' seen' hresult
        refine ⟨by rw [List.map_append, List.append_assoc], fun d hd => ?_⟩
        rcases List.mem_append.mp hd with hd | hd
        · exact htoward'.writer.stays (hmeets d hd)
        · exact hmeets' d hd
      · obtain ⟨htoward, -⟩ := writeTrees_runs happart (hfetched.ready hready) hfirst hwrite
        exact ⟨hfetched.trans htoward, fun _ _ hresult => by contradiction⟩
    · obtain ⟨_, hresult, -⟩ := nextPage_runs hread hscan hpage
      contradiction

/-- A refresh changes nothing that is stored. -/
theorem refresh_runs {writer : Writer} {result : Except SyncError Unit}
    (h : Attempt.Runs (Site.Outages wiring.sink) wiring writer.refresh s result s') :
    s.Alike wiring.sink s' := by
  have hwrites : writer.refresh.Asks fun call => ¬ call.Writes :=
    Attempt.asks_mapError (Writer.send_asks (fun _ => id) writer (Writer.ask_asks id))
  exact ⟨Program.Runs.sameElse writer.refresh_asks_writing h,
    Program.Runs.sink_alike (Site.outages_spares _) hwrites h⟩

/-- The trees that a job's scan fetches. -/
def scannedTrees (job : Job) (db : Database) : List RowTree :=
  job.plan.scannedTrees db (max job.options.batchSize 1)

/-- A scan writes the document of every root, or fails on the way. -/
theorem scanAll_runs (happart : Document.Apart docs) (hready : Ready docs wiring.sink job s)
    {kinds : List ValueKind} (hread : Readable wiring job.plan kinds s)
    (hwant : ∀ d ∈ job.documents (job.scannedTrees s.1.database),
      docs d ∧ want d.identity = some d.text)
    {pages : Nat} {stats : CycleStats} {result : Except SyncError (CycleStats × List String)}
    (h : Stateful.Runs (Site.Outages wiring.sink) wiring (scanAll pages stats) job s result job'
      s') :
    Toward docs want wiring.sink job job' s s' ∧ ∀ stats' seen, result = .ok (stats', seen) →
      seen = (job.documents (job.scannedTrees s.1.database)).map Document.identity ∧
      ∀ d ∈ job.documents (job.scannedTrees s.1.database),
        job'.writer.Meets want (s'.1.sink wiring.sink) d.identity := by
  rw [scanAll, Stateful.runs_get_bind] at h
  have hstart := RootScan.at_start s.1.database job.plan job.options.batchSize
  obtain ⟨htoward, hdone⟩ := scanPages_runs happart hready hread hstart rfl hwant h
  exact ⟨htoward, fun stats' seen hresult => hdone stats' seen hresult⟩

/-- Re-deriving gives every identity what is wanted, where nothing but the documents of the roots is
wanted, or fails on the way. -/
theorem rederive_runs (happart : Document.Apart docs) (hready : Ready docs wiring.sink job s)
    {kinds : List ValueKind} (hread : Readable wiring job.plan kinds s)
    (henumerates : (s.1.sink wiring.sink).enumerates = true)
    (hwant : ∀ d ∈ job.documents (job.scannedTrees s.1.database),
      docs d ∧ want d.identity = some d.text)
    (hnothing : ∀ identity, identity ∉
      (job.documents (job.scannedTrees s.1.database)).map Document.identity → want identity = none)
    {pages : Nat} {result : Except SyncError CycleStats}
    (h : Stateful.Runs (Site.Outages wiring.sink) wiring (rederive pages) job s result job' s') :
    Toward docs want wiring.sink job job' s s' ∧ ∀ stats, result = .ok stats → ∀ identity,
      job'.writer.Meets want (s'.1.sink wiring.sink) identity := by
  rw [rederive] at h
  rcases Stateful.runs_bind.mp h with ⟨⟨stats₁, seen⟩, job₁, s₁, hscan, hrest⟩ | ⟨e, hscan, rfl⟩
  · obtain ⟨htoward, hdone⟩ := scanAll_runs happart hready hread hwant hscan
    obtain ⟨rfl, hmeets⟩ := hdone stats₁ seen rfl
    have henumerates₁ := htoward.writer.nature.enumerates.trans henumerates
    rcases Stateful.runs_bind.mp hrest with
      ⟨deleted, job₂, s₂, hreconcile, hrest⟩ | ⟨e, hreconcile, rfl⟩
    · obtain ⟨writer, hwriter, rfl, hsame⟩ := writing_runs (Writer.reconcile_asks _) hreconcile
      obtain ⟨htoward', hdone'⟩ := Writer.reconcile_runs docs (Site.outages_spares _) hnothing
        henumerates₁ hwriter
      have hreconciled : Toward docs want wiring.sink job₁ { job₁ with writer := writer } s₁ s₂ :=
        ⟨rfl, hsame, htoward'⟩
      have hsofar := htoward.trans hreconciled
      have hall : ∀ identity, writer.Meets want (s₂.1.sink wiring.sink) identity := by
        intro identity
        by_cases hseen : identity ∈
            (job.documents (job.scannedTrees s.1.database)).map Document.identity
        · obtain ⟨d, hd, rfl⟩ := List.mem_map.mp hseen
          exact htoward'.stays (hmeets d hd)
        · exact hdone' deleted rfl identity hseen
      rw [Stateful.runs_get_bind] at hrest
      rcases Stateful.runs_bind.mp hrest with ⟨_, job₃, s₃, hrefresh, hend⟩ | ⟨e, hrefresh, rfl⟩
      · obtain ⟨hrefreshed, rfl⟩ := runs_attempt.mp hrefresh
        have halike := refresh_runs hrefreshed
        obtain ⟨rfl, rfl, rfl⟩ := Stateful.runs_pure.mp hend
        have hkept : Writer.Toward docs want writer writer _ _ := .of_alike halike.sink
        exact ⟨hsofar.trans (.of_alike halike), fun _ _ identity => hkept.stays (hall identity)⟩
      · obtain ⟨hrefreshed, rfl⟩ := runs_attempt.mp hrefresh
        exact ⟨hsofar.trans (.of_alike (refresh_runs hrefreshed)), fun _ hresult => by contradiction⟩
    · obtain ⟨writer, hwriter, rfl, hsame⟩ := writing_runs (Writer.reconcile_asks _) hreconcile
      obtain ⟨htoward', -⟩ := Writer.reconcile_runs docs (Site.outages_spares _) hnothing
        henumerates₁ hwriter
      have hreconciled : Toward docs want wiring.sink job₁ { job₁ with writer := writer } s₁ s' :=
        ⟨rfl, hsame, htoward'⟩
      exact ⟨htoward.trans hreconciled, fun _ hresult => by contradiction⟩
  · obtain ⟨htoward, -⟩ := scanAll_runs happart hready hread hwant hscan
    exact ⟨htoward, fun _ hresult => by contradiction⟩

end Job

end DocSync
