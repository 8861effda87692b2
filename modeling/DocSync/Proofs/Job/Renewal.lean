import DocSync.Proofs.Change.Current
import DocSync.Proofs.Job.Redelivery
import DocSync.Proofs.Job.Settling

/-!
Applying records amid outages of the sink, whatever comes of it.  Each write is one of what a resync would
store, so that a cycle that fails on the way leaves under every identity what was there, or what is wanted
there.  When all writes succeed, what the resolution names has what is wanted, and when nothing could be
looked up every root has.
-/

namespace DocSync

namespace Job

open Working Stateful

variable {α β : Type} {docs : Document → Prop} {want : String → Option String} {wiring : Wiring}
  {kind : ValueKind} {column : String} {job job' : Job} {s s' : Site}

/-- From here on the routine writes towards the wanted texts, whatever comes of it, and where it succeeds
it ends as given. -/
def Attains (docs : Document → Prop) (want : String → Option String) (wiring : Wiring)
    (ends : α → Job → Site → Prop) (a : Working α) (job : Job) (s : Site) : Prop :=
  ∀ result job' s', Runs (Site.Outages wiring.sink) wiring a job s result job' s' →
    Toward docs want wiring.sink job job' s s' ∧ ∀ value, result = .ok value → ends value job' s'

section

variable {ends : α → Job → Site → Prop}

theorem attains_pure {value : α} (h : ends value job s) :
    Attains docs want wiring ends (pure value) job s := by
  intro result job' s' hruns
  obtain ⟨rfl, rfl, rfl⟩ := runs_pure.mp hruns
  exact ⟨.refl _ _, fun _ hvalue => Except.ok.inj hvalue ▸ h⟩

theorem Attains.bind {begins : β → Job → Site → Prop} {a : Working β} {f : β → Working α}
    (ha : Attains docs want wiring begins a job s)
    (hf : ∀ b job₁ s₁, Toward docs want wiring.sink job job₁ s s₁ → begins b job₁ s₁ →
      Attains docs want wiring ends (f b) job₁ s₁) :
    Attains docs want wiring ends (a >>= f) job s := by
  intro result job' s' hruns
  rcases runs_bind.mp hruns with ⟨b, job₁, s₁, hfirst, hrest⟩ | ⟨e, hfirst, rfl⟩
  · obtain ⟨htoward, hbegins⟩ := ha _ _ _ hfirst
    obtain ⟨htoward', hends⟩ := hf b job₁ s₁ htoward (hbegins b rfl) _ _ _ hrest
    exact ⟨htoward.trans htoward', hends⟩
  · exact ⟨(ha _ _ _ hfirst).1, fun _ hvalue => by contradiction⟩

theorem attains_get_bind {f : Job → Working α} (h : Attains docs want wiring ends (f job) job s) :
    Attains docs want wiring ends (get >>= f) job s :=
  fun result job' s' hruns => h result job' s' (runs_get_bind.mp hruns)

theorem Attains.mono {wider : α → Job → Site → Prop} {a : Working α}
    (ha : Attains docs want wiring ends a job s)
    (hwider : ∀ value job' s', ends value job' s' → wider value job' s') :
    Attains docs want wiring wider a job s := by
  intro result job' s' hruns
  obtain ⟨htoward, hends⟩ := ha result job' s' hruns
  exact ⟨htoward, fun value hvalue => hwider value job' s' (hends value hvalue)⟩

end

/-- Under each of the identities there stands what is wanted. -/
def Met (want : String → Option String) (name : String) (identities : String → Prop) (job : Job)
    (s : Site) : Prop :=
  ∀ identity, identities identity → job.writer.Meets want (s.1.sink name) identity

theorem Toward.met {identities : String → Prop} {name : String}
    (h : Toward docs want name job job' s s') (hmet : Met want name identities job s) :
    Met want name identities job' s' :=
  fun identity hidentity => h.writer.stays (hmet identity hidentity)

/-- A document, or none, that is wanted under an identity. -/
def Wanted (docs : Document → Prop) (want : String → Option String) (identity : String)
    (found : Option Document) : Prop :=
  found.map Document.text = want identity ∧ ∀ d, found = some d → docs d

/-- A job that reads what it can compare, writes to a sink that refuses nothing, and wants what its roots
derive. -/
structure Renewable (docs : Document → Prop) (want : String → Option String) (wiring : Wiring)
    (kind : ValueKind) (column : String) (job : Job) (s : Site) : Prop where
  apart : Document.Apart docs
  legible : Legible wiring kind column job s
  ready : Ready docs wiring.sink job s
  allows : Allows (Wanted docs want) job s.1.database

theorem Renewable.toward (h : Renewable docs want wiring kind column job s)
    (htoward : Toward docs want wiring.sink job job' s s') :
    Renewable docs want wiring kind column job' s' := by
  have hdatabase := htoward.rest.database
  have hread := h.legible.toReadable.sameElse htoward.rest
  refine ⟨h.apart, ⟨htoward.plan ▸ hread, htoward.plan ▸ h.legible.key, ?_⟩,
    htoward.ready h.ready, ?_, ?_⟩
  · rw [htoward.plan, hdatabase]
    exact h.legible.comparable
  · rw [htoward.plan, htoward.options, hdatabase]
    exact h.allows.root
  · rw [htoward.plan, hdatabase]
    exact h.allows.nothing

/-! ### Answers -/

/-- Operations of different identities name the roots that a job reads. -/
theorem Legible.namesRoots (h : Legible wiring kind column job s) {ops : List RootOp}
    (hops : ∀ op ∈ ops, op.Seeks kind) (hdistinct : (ops.map RootOp.identity).Nodup) :
    NamesRoots job.plan.node s.1.database ops := by
  have hmatches {op : RootOp} (hop : op ∈ ops) {row : Row}
      (hrow : row ∈ job.plan.node.rowsIn s.1.database) :
      op.Matches job.plan.node row ↔ job.plan.node.identityOf row = op.identity :=
    keyMatches_iff_matches.symm.trans (h.keyMatches_iff (hops op hop) hrow)
  refine ⟨hdistinct, fun op hop => ⟨?_, (hops op hop).present⟩, h.derivable.distinct,
    fun op hop row hrow other hother hmatch hmatch' => ?_, fun op hop row hrow heq => ?_⟩
  · obtain ⟨v, hkey, -⟩ := (hops op hop).identifies
    rw [hkey, h.key]
    rfl
  · exact List.inj_on_of_nodup_map h.derivable.distinct hrow hother
      (((hmatches hop hrow).mp hmatch).trans ((hmatches hop hother).mp hmatch').symm)
  · exact (hmatches hop hrow).mpr heq.symm

/-- The document that an operation is answered with has its identity, and is wanted; without one nothing
is. -/
theorem Renewable.answers (h : Renewable docs want wiring kind column job s) {part : List RootOp}
    (hops : ∀ op ∈ part, op.Seeks kind) (hdistinct : (part.map RootOp.identity).Nodup) :
    ∀ pair ∈ job.answers s.1.database part, Wanted docs want pair.1.identity pair.2 ∧
      ∀ d, pair.2 = some d → d.index = job.options.index ∧ d.identity = pair.1.identity := by
  obtain ⟨t, hnode⟩ := h.legible.fits.node
  have hnames := h.legible.namesRoots hops hdistinct
  have hfound {row : Row} : row ∈ job.rowsFound s.1.database part ↔
      row ∈ job.plan.node.rowsIn s.1.database ∧
        ∃ op ∈ part, Filter.tupleMatches job.plan.node.primaryKey row op.key := by
    rw [rowsFound, PlanNode.mem_rowsWhere hnode.keyFetched, Filter.accepts, List.any_map,
      List.any_eq_true]
    rfl
  have htrees : job.foundBy s.1.database part =
      (job.rowsFound s.1.database part).map (job.plan.treeIn s.1.database) :=
    Fetch.attached_eq (Plan.fits_iff_joined.mp h.legible.fits) h.legible.comparable.kindedIn
      fun row hrow => (hfound.mp hrow).1
  have hfetched (entry : List Json × Document) : entry ∈ job.fetchedBy s.1.database part ↔
      ∃ row ∈ job.plan.node.rowsIn s.1.database,
        (∃ op ∈ part, Filter.tupleMatches job.plan.node.primaryKey row op.key) ∧
          entry.1 = row.tuple job.plan.node.primaryKey ∧
            job.plan.compile job.options.index (job.plan.treeIn s.1.database row) = .ok entry.2 := by
    simp only [mem_fetchedBy, htrees, List.mem_map, exists_exists_and_eq_and, Plan.treeIn_row]
    simp only [hfound, and_assoc]
  have hanswers := answers_matchOps h.legible h.allows hops hdistinct hfetched
  rintro ⟨op, found⟩ hpair
  have hanswer := hanswers _ hpair
  cases found with
  | none => exact ⟨hanswer, fun d hd => by contradiction⟩
  | some d =>
    have hop : op ∈ part := map_fst_matchOps part _ ▸ List.mem_map_of_mem hpair
    obtain ⟨entry, hentry, rfl, hmatches⟩ := mem_matchOps hpair
    obtain ⟨row, hrow, -, hkey, hcompile⟩ := (hfetched entry).mp hentry
    rw [hkey, h.legible.keyMatches_iff (hops op hop) hrow] at hmatches
    have hidentity : entry.2.identity = op.identity := by
      rw [(Plan.compile_eq_ok hcompile).2, Plan.treeIn_row, hmatches]
    refine ⟨hidentity ▸ hanswer.2, ?_⟩
    rintro _ ⟨⟩
    exact ⟨hanswer.1, hidentity⟩

/-! ### Applying operations -/

theorem delete_attains {identity : String} (hwant : want identity = none) :
    Attains docs want wiring (fun _ => Met want wiring.sink (· = identity))
      (writing (Writer.delete identity)) job s := by
  intro result job' s' hruns
  obtain ⟨writer, hwriter, rfl, hrest⟩ := writing_runs (Writer.delete_asks identity) hruns
  obtain ⟨htoward, hmeets⟩ := Writer.delete_runs docs (Site.outages_spares _) hwant hwriter
  refine ⟨⟨rfl, hrest, htoward⟩, fun outcome hresult other hother => ?_⟩
  rw [hother]
  exact hmeets outcome hresult

theorem upsert_attains (h : Renewable docs want wiring kind column job s) {d : Document} {identity : String}
    (hd : docs d) (hindex : d.index = job.options.index) (hidentity : d.identity = identity)
    (hwant : want identity = some d.text) :
    Attains docs want wiring (fun _ => Met want wiring.sink (· = identity))
      (writing (Writer.upsert d)) job s := by
  subst hidentity
  intro result job' s' hruns
  obtain ⟨htoward, hmeets⟩ := upsert_runs h.apart h.ready hd hindex hwant hruns
  refine ⟨htoward, fun outcome hresult other hother => ?_⟩
  rw [hother]
  exact hmeets outcome hresult

/-- Settling answers that are wanted meets what is wanted for each operation. -/
theorem settle_attains (h : Renewable docs want wiring kind column job s)
    {pairs : List (RootOp × Option Document)}
    (hpairs : ∀ pair ∈ pairs, Wanted docs want pair.1.identity pair.2 ∧
      ∀ d, pair.2 = some d → d.index = job.options.index ∧ d.identity = pair.1.identity)
    (stats : CycleStats) :
    Attains docs want wiring
      (fun _ => Met want wiring.sink (· ∈ pairs.map fun pair => pair.1.identity))
      (settle pairs stats) job s := by
  induction pairs generalizing job s stats with
  | nil => exact attains_pure fun _ hidentity => absurd hidentity List.not_mem_nil
  | cons pair rest ih =>
    obtain ⟨⟨hwanted, hown⟩, hrest⟩ := List.forall_mem_cons.mp hpairs
    obtain ⟨op, found⟩ := pair
    have hothers (outcome : WriteOutcome) (job₁ : Job) (s₁ : Site)
        (htoward : Toward docs want wiring.sink job job₁ s s₁)
        (hmet : Met want wiring.sink (· = op.identity) job₁ s₁) :
        Attains docs want wiring
          (fun _ => Met want wiring.sink (· ∈ ((op, found) :: rest).map fun pair => pair.1.identity))
          (settle rest (stats.record outcome)) job₁ s₁ := by
      rw [← htoward.options] at hrest
      intro result job' s' hruns
      obtain ⟨htoward', hmet'⟩ := ih (h.toward htoward) hrest _ result job' s' hruns
      refine ⟨htoward', fun stats' hresult identity hidentity => ?_⟩
      rcases List.mem_cons.mp hidentity with rfl | hidentity
      · exact htoward'.met hmet _ rfl
      · exact hmet' stats' hresult identity hidentity
    cases found with
    | none => exact (delete_attains hwanted.1.symm).bind hothers
    | some d =>
      obtain ⟨hindex, hidentity⟩ := hown d rfl
      exact (upsert_attains h (hwanted.2 d rfl) hindex hidentity hwanted.1.symm).bind hothers

/-- Applying a chunk meets what is wanted for each of its operations. -/
theorem applyChunk_attains (h : Renewable docs want wiring kind column job s) {part : List RootOp}
    (hne : part ≠ []) (hops : ∀ op ∈ part, op.Seeks kind)
    (hdistinct : (part.map RootOp.identity).Nodup) (stats : CycleStats) :
    Attains docs want wiring (fun _ => Met want wiring.sink (· ∈ part.map RootOp.identity))
      (applyChunk part stats) job s := by
  obtain ⟨t, hnode⟩ := h.legible.fits.node
  have hnames := h.legible.namesRoots hops hdistinct
  have hfetches : Fetches wiring job.plan s :=
    ⟨h.legible.wiring, h.legible.pending,
      (Plan.fits_iff_joined.mp h.legible.fits).mono fun _ _ => trivial⟩
  have hfetch : Attains docs want wiring
      (fun trees job' _ => trees = job.foundBy s.1.database part ∧ job' = job)
      (fetchKeys (part.map RootOp.key)) job s := by
    intro result job' s' hruns
    obtain ⟨rfl, rfl, halike⟩ := fetchKeys_runs hfetches hne hruns
    exact ⟨.of_alike halike, fun _ hresult => ⟨(Except.ok.inj hresult).symm, rfl⟩⟩
  refine hfetch.bind fun trees job₁ s₁ htoward ⟨htrees, hjob⟩ => attains_get_bind ?_
  subst htrees hjob
  dsimp only
  rw [show (compileTrees job₁ (job₁.foundBy s.1.database part) stats).2 =
    job₁.fetchedBy s.1.database part from snd_compileTrees _ _ _ _, hnames.nothing_left hnode,
    if_pos List.isEmpty_nil]
  refine (settle_attains (h.toward htoward) (h.answers hops hdistinct) _).mono fun _ _ _ hmet => ?_
  have hidentities : (job₁.answers s.1.database part).map (fun pair => pair.1.identity) =
      part.map RootOp.identity :=
    List.map_map.symm.trans (congrArg (List.map RootOp.identity) (map_fst_matchOps part _))
  rwa [hidentities] at hmet

theorem applyChunks_attains (h : Renewable docs want wiring kind column job s)
    {parts : List (List RootOp)}
    (hparts : ∀ part ∈ parts, part ≠ [] ∧ (∀ op ∈ part, op.Seeks kind) ∧
      (part.map RootOp.identity).Nodup) (stats : CycleStats) :
    Attains docs want wiring
      (fun _ => Met want wiring.sink fun identity => ∃ part ∈ parts, identity ∈ part.map RootOp.identity)
      (applyChunks parts stats) job s := by
  induction parts generalizing job s stats with
  | nil => exact attains_pure fun _ ⟨_, hpart, _⟩ => absurd hpart List.not_mem_nil
  | cons part rest ih =>
    obtain ⟨⟨hne, hops, hdistinct⟩, hrest⟩ := List.forall_mem_cons.mp hparts
    refine (applyChunk_attains h hne hops hdistinct stats).bind fun stats₁ job₁ s₁ htoward hmet => ?_
    intro result job' s' hruns
    obtain ⟨htoward', hmet'⟩ := ih (h.toward htoward) hrest stats₁ result job' s' hruns
    refine ⟨htoward', fun stats' hresult identity ⟨other, hother, hidentity⟩ => ?_⟩
    rcases List.mem_cons.mp hother with rfl | hother
    · exact htoward'.met hmet identity hidentity
    · exact hmet' stats' hresult identity ⟨other, hother, hidentity⟩

/-- Applying operations meets what is wanted under their identities. -/
theorem applyOps_attains (h : Renewable docs want wiring kind column job s) {resolution : Resolution}
    (hops : ∀ op ∈ resolution.ops, op.Seeks kind)
    (hdistinct : (resolution.ops.map RootOp.identity).Nodup) (stats : CycleStats) :
    Attains docs want wiring (fun _ => Met want wiring.sink resolution.Names)
      (applyOps resolution.ops stats) job s := by
  have hwhole : (resolution.ops.filter fun op => !op.key.any Json.isNull) = resolution.ops :=
    List.filter_eq_self.mpr fun op hop => by simp [(hops op hop).present]
  refine attains_get_bind ?_
  rw [hwhole]
  have hparts := applyChunks_attains h (fun part (hpart : part ∈ job.parts resolution.ops) => by
    have hsublist := sublist_of_mem_parts hpart
    exact ⟨ne_nil_of_mem_chunks job.batch_pos hpart, fun op hop => hops op (hsublist.subset hop),
      hdistinct.sublist (hsublist.map _)⟩) stats
  refine hparts.mono fun _ _ _ hmet identity ⟨op, hop, hidentity⟩ => ?_
  obtain ⟨part, hpart, hop⟩ := exists_part_of_mem job hop
  exact hmet identity ⟨part, hpart, hidentity ▸ List.mem_map_of_mem hop⟩

/-! ### Applying records -/

/-- A scan meets what is wanted under the identity of each root. -/
theorem scanAll_attains (h : Renewable docs want wiring kind column job s) (pages : Nat)
    (stats : CycleStats) :
    Attains docs want wiring (fun _ => Met want wiring.sink fun identity =>
      ∃ row ∈ job.plan.node.rowsIn s.1.database, job.plan.node.identityOf row = identity)
      (scanAll pages stats) job s := by
  have hscanned : job.scannedTrees s.1.database =
      (job.plan.rootRows s.1.database).map (job.plan.treeIn s.1.database) :=
    Plan.scannedTrees_eq h.legible.fits h.legible.comparable job.batch_pos
  have hdocuments {d : Document} : d ∈ job.documents (job.scannedTrees s.1.database) ↔
      ∃ row ∈ job.plan.node.rowsIn s.1.database,
        job.plan.compile job.options.index (job.plan.treeIn s.1.database row) = .ok d := by
    simp only [mem_documents, hscanned, List.mem_map, exists_exists_and_eq_and, Plan.mem_rootRows]
  intro result job' s' hruns
  obtain ⟨htoward, hdone⟩ := scanAll_runs h.apart h.ready h.legible.toReadable (fun d hd => by
    obtain ⟨row, hrow, hcompile⟩ := hdocuments.mp hd
    obtain ⟨hwant, hdocs⟩ := h.allows.root row hrow d hcompile
    exact ⟨hdocs d rfl, hwant.symm⟩) hruns
  refine ⟨htoward, fun (stats', seen) hresult identity ⟨row, hrow, hidentity⟩ => ?_⟩
  obtain ⟨d, hcompile⟩ := h.legible.exists_compile hrow
  have hmeets := (hdone stats' seen hresult).2 d (hdocuments.mpr ⟨row, hrow, hcompile⟩)
  rwa [(Plan.compile_eq_ok hcompile).2, Plan.treeIn_row, hidentity] at hmeets

/-- Applying records meets what is wanted under every identity that their resolution names, and under that
of every root when the sink looked nothing up. -/
theorem applyRecords_attains (h : Renewable docs want wiring kind column job s)
    {records : List ChangeRecord} {resolution : Resolution}
    (hresolves : Attempt.Gives wiring s.1 (resolve job.plan job.writer (coalesce job.plan records))
      (.ok resolution))
    (hops : ∀ op ∈ resolution.ops, op.Seeks kind)
    (hdistinct : (resolution.ops.map RootOp.identity).Nodup) (pages : Nat) (stats : CycleStats) :
    Attains docs want wiring (fun _ => Met want wiring.sink fun identity =>
      resolution.Names identity ∨ resolution.rederiveAll = true ∧
        ∃ row ∈ job.plan.node.rowsIn s.1.database, job.plan.node.identityOf row = identity)
      (applyRecords pages records stats) job s := by
  have hresolve : Attains docs want wiring (fun found _ _ => found = resolution)
      (attempt (resolve job.plan job.writer (coalesce job.plan records))) job s := by
    intro result job' s' hruns
    obtain ⟨hran, rfl⟩ := runs_attempt.mp hruns
    obtain ⟨rfl, halike⟩ := hresolves.of_outages (resolve_asks _ _ _) hran h.legible.pending
    exact ⟨.of_alike halike, fun _ hvalue => (Except.ok.inj hvalue).symm⟩
  refine attains_get_bind (hresolve.bind fun _ job₁ s₁ htoward₁ hfound => ?_)
  subst hfound
  refine (applyOps_attains (h.toward htoward₁) hops hdistinct _).bind
    fun stats₂ job₂ s₂ htoward₂ hnamed => ?_
  have hsofar := htoward₁.trans htoward₂
  have hends {identities : String → Prop} {job₃ : Job} {s₃ : Site} (stats' : CycleStats)
      (hmet : Met want wiring.sink identities job₃ s₃) :
      Attains docs want wiring (fun _ => Met want wiring.sink identities) (do
        if stats'.mutations > 0 then attempt (← get).writer.refresh
        return stats') job₃ s₃ := by
    dsimp only
    split
    · have hrefresh : Attains docs want wiring (fun _ _ _ => True)
          (do attempt (← get).writer.refresh) job₃ s₃ := by
        refine attains_get_bind fun result job' s' hruns => ?_
        obtain ⟨hran, rfl⟩ := runs_attempt.mp hruns
        exact ⟨.of_alike (refresh_runs hran), fun _ _ => trivial⟩
      exact hrefresh.bind fun _ _ _ htoward _ => attains_pure (htoward.met hmet)
    · exact attains_pure hmet
  dsimp only
  split
  · have hscan := scanAll_attains (h.toward hsofar) pages stats₂
    rw [hsofar.plan, hsofar.rest.database] at hscan
    have hscanned : Attains docs want wiring (fun _ => Met want wiring.sink fun identity =>
        ∃ row ∈ job.plan.node.rowsIn s.1.database, job.plan.node.identityOf row = identity)
        (Prod.fst <$> scanAll pages stats₂) job₂ s₂ :=
      hscan.bind fun _ _ _ _ hmet => attains_pure hmet
    refine hscanned.bind fun stats₃ job₃ s₃ htoward₃ hroots => hends stats₃ fun identity => ?_
    rintro (hnames | ⟨-, hroot⟩)
    · exact htoward₃.met hnamed identity hnames
    · exact hroots identity hroot
  · rename_i hlookup
    refine hends stats₂ fun identity => ?_
    rintro (hnames | ⟨hall, -⟩)
    · exact hnamed identity hnames
    · exact absurd hall hlookup

end Job

end DocSync
