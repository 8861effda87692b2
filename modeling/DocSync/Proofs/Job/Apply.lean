import DocSync.Proofs.Change.Operations
import DocSync.Proofs.Job.Matching
import DocSync.Proofs.Job.Rederive

/-!
Applying records amid outages of the sink.  Every operation finds the root of its identity, or none
where there is no such root, so that an upsert writes the document of a root and a delete hits nothing
that a root has.  Whatever may stand under an identity, it stays so, as long as what the root derives may
stand there too.
-/

namespace DocSync

namespace CycleStats

@[simp] theorem window_skip (stats : CycleStats) (reason : String) :
    (stats.skip reason).window = stats.window := rfl

@[simp] theorem window_record (stats : CycleStats) (outcome : WriteOutcome) :
    (stats.record outcome).window = stats.window := by
  cases outcome <;> rfl

end CycleStats

/-- The operation has the identity of its key, which is no null. -/
structure RootOp.Seeks (kind : ValueKind) (op : RootOp) : Prop where
  identifies : op.Identifies kind
  present : op.key.any Json.isNull = false

namespace Job

open Working Stateful

variable {α : Type} {wiring : Wiring} {kind : ValueKind} {column : String}
  {fine : String → Option Document → Prop} {job₀ job job' : Job} {s₀ s s' : Site}

/-- What a job reads: roots whose keys are one column of one kind, and trees that are the same in every
fetch. -/
structure Legible (wiring : Wiring) (kind : ValueKind) (column : String) (job : Job) (s : Site) :
    Prop extends Readable wiring job.plan [kind] s where
  key : job.plan.node.primaryKey = [column]
  comparable : job.plan.ComparableIn s.1.database

namespace Legible

variable (h : Legible wiring kind column job₀ s₀) {row : Row} {op : RootOp}

include h

theorem has (hrow : row ∈ job₀.plan.node.rowsIn s₀.1.database) : kind.Has (row.value column) := by
  have hkeyed := h.keyed.keyed row hrow
  rw [h.key] at hkeyed
  exact (List.forall₂_cons.mp hkeyed).1

theorem identityOf_eq (row : Row) :
    job₀.plan.node.identityOf row = Identity.part (row.value column) := by
  rw [PlanNode.identityOf, h.key]
  exact Identity.ofKey_singleton _

/-- An operation finds the root of its identity, and no other. -/
theorem tupleMatches_iff (hop : op.Seeks kind)
    (hrow : row ∈ job₀.plan.node.rowsIn s₀.1.database) :
    Filter.tupleMatches job₀.plan.node.primaryKey row op.key ↔
      job₀.plan.node.identityOf row = op.identity := by
  obtain ⟨v, hkey, hmatches⟩ := hop.identifies.sqlMatches_iff hop.present (h.has hrow)
  rw [h.identityOf_eq, ← hmatches, h.key, hkey]
  simp [Filter.tupleMatches]

/-- A fetched root is taken by the operation of its identity, and by no other. -/
theorem keyMatches_iff (hop : op.Seeks kind)
    (hrow : row ∈ job₀.plan.node.rowsIn s₀.1.database) :
    keyMatches (row.tuple job₀.plan.node.primaryKey) op.key ↔
      job₀.plan.node.identityOf row = op.identity := by
  obtain ⟨v, hkey, hmatches⟩ := hop.identifies.sqlMatches_iff hop.present (h.has hrow)
  rw [h.identityOf_eq, ← hmatches, h.key, hkey]
  simp [keyMatches, Row.tuple]

theorem exists_compile (hrow : row ∈ job₀.plan.node.rowsIn s₀.1.database) :
    ∃ d, job₀.plan.compile job₀.options.index (job₀.plan.treeIn s₀.1.database row) = .ok d := by
  refine Plan.exists_compile _ ?_
  rw [Plan.treeIn_row, h.key]
  simp [Row.tuple, (h.has hrow).isNull]

end Legible

/-- Under each identity there may stand what a resync derives for it: the document of the root, and
nothing where there is no root. -/
structure Allows (fine : String → Option Document → Prop) (job : Job) (db : Database) : Prop where
  root : ∀ row ∈ job.plan.node.rowsIn db, ∀ d,
    job.plan.compile job.options.index (job.plan.treeIn db row) = .ok d → fine d.identity (some d)
  nothing : ∀ identity, (∀ row ∈ job.plan.node.rowsIn db, job.plan.node.identityOf row ≠ identity) →
    fine identity none

/-- Since a job and a site were as given, nothing but the ledger and the sink changed, and what stands
in the index may stand there. -/
structure Steady (fine : String → Option Document → Prop) (wiring : Wiring) (job₀ : Job) (s₀ : Site)
    (job : Job) (s : Site) : Prop where
  same : job = { job₀ with writer := job.writer }
  index : job.writer.index = job₀.options.index
  rejected : (s.1.sink wiring.sink).rejected = []
  rest : s₀.SameElse s
  holds : ∀ identity,
    fine identity ((s.1.sink wiring.sink).storedAt job₀.options.index identity)

namespace Steady

variable (h : Steady fine wiring job₀ s₀ job s)

include h

theorem plan : job.plan = job₀.plan := by
  rw [h.same]

theorem options : job.options = job₀.options := by
  rw [h.same]

theorem alike (halike : s.Alike wiring.sink s') : Steady fine wiring job₀ s₀ job s' := by
  refine ⟨h.same, h.index, halike.sink.rejected.trans h.rejected,
    h.rest.trans halike.toSameElse, fun identity => ?_⟩
  rw [halike.sink.storedAt]
  exact h.holds identity

theorem wrote {identity : String} {d : Option Document} {writer : Writer} (hsame : s.SameElse s')
    (hwrote : Writer.Wrote identity d job.writer writer (s.1.sink wiring.sink)
      (s'.1.sink wiring.sink)) (hfine : fine identity d) :
    Steady fine wiring job₀ s₀ { job with writer := writer } s' := by
  refine ⟨?_, hwrote.index.trans h.index, hwrote.nature.rejected.trans h.rejected,
    h.rest.trans hsame, fun other => ?_⟩
  · rw [h.same]
  · rw [← h.index, hwrote.stored]
    split
    · rename_i hidentity
      exact hidentity ▸ hfine
    · rw [h.index]
      exact h.holds other

end Steady

/-- Amid outages the routine keeps the index steady, and its value is as it should be. -/
abbrev Steadies (fine : String → Option Document → Prop) (wiring : Wiring) (job₀ : Job) (s₀ : Site)
    (ends : α → Prop) (a : Working α) : Prop :=
  Upholds (Site.Outages wiring.sink) wiring (Steady fine wiring job₀ s₀) ends a

/-! ### Single steps -/

/-- What only looks up gives the same at every site that differs in its sinks only, if it does not depend on
them. -/
theorem steadies_attempt (hpending : s₀.2.pending = []) {a : Attempt SyncError α} {ends : α → Prop}
    (hasks : a.Asks Call.IsLookup)
    (hgives : ∀ w : World, w.database = s₀.1.database →
      ∃ value, Attempt.Gives wiring w a (.ok value) ∧ ends value) :
    Steadies fine wiring job₀ s₀ ends (attempt a) := by
  constructor
  intro job job' s s' result hsteady hruns
  obtain ⟨hran, rfl⟩ := runs_attempt.mp hruns
  obtain ⟨value, hgives, hends⟩ := hgives s.1 hsteady.rest.database
  obtain ⟨rfl, halike⟩ := hgives.of_outages hasks hran (hsteady.rest.frames ▸ hpending)
  refine ⟨hsteady.alike halike, ?_⟩
  rintro _ ⟨⟩
  exact hends

theorem steadies_transported (hpending : s₀.2.pending = []) {a : Attempt Failure α} {ends : α → Prop}
    (hasks : a.Asks Call.IsLookup)
    (hgives : ∀ w : World, w.database = s₀.1.database →
      ∃ value, Attempt.Gives wiring w a (.ok value) ∧ ends value) :
    Steadies fine wiring job₀ s₀ ends (transported a) := by
  refine steadies_attempt hpending (Attempt.asks_mapError hasks) fun w hw => ?_
  obtain ⟨value, hvalue, hends⟩ := hgives w hw
  exact ⟨value, hvalue.mapError _, hends⟩

theorem steadies_refresh :
    Steadies fine wiring job₀ s₀ (fun _ => True) (do attempt (← get).writer.refresh) := by
  refine upholds_get_bind fun job s _ => ⟨?_⟩
  intro job₁ job' s₁ s' result hsteady hruns
  obtain ⟨hran, rfl⟩ := runs_attempt.mp hruns
  exact ⟨hsteady.alike (refresh_runs hran), fun _ _ => trivial⟩

theorem steadies_upsert {d : Document} (hindex : d.index = job₀.options.index)
    (hfine : fine d.identity (some d)) :
    Steadies fine wiring job₀ s₀ (fun _ => True) (writing (Writer.upsert d)) := by
  constructor
  intro job job' s s' result hsteady hruns
  refine ⟨?_, fun _ _ => trivial⟩
  obtain ⟨writer, hwriter, rfl, hsame⟩ := writing_runs (Writer.upsert_asks d) hruns
  rcases Writer.upsert_cases (Site.outages_spares _) (hindex.trans hsteady.index.symm)
    hsteady.rejected hwriter with ⟨-, rfl, rfl⟩ | hwrote | ⟨-, rfl, halike⟩
  · exact hsteady
  · exact hsteady.wrote hsame hwrote hfine
  · exact hsteady.alike ⟨hsame, halike⟩

theorem steadies_delete {identity : String} (hfine : fine identity none) :
    Steadies fine wiring job₀ s₀ (fun _ => True) (writing (Writer.delete identity)) := by
  constructor
  intro job job' s s' result hsteady hruns
  refine ⟨?_, fun _ _ => trivial⟩
  obtain ⟨writer, hwriter, rfl, hsame⟩ := writing_runs (Writer.delete_asks identity) hruns
  rcases Writer.delete_cases (Site.outages_spares _) hwriter with
    hwrote | ⟨-, rfl, halike⟩
  · exact hsteady.wrote hsame hwrote hfine
  · exact hsteady.alike ⟨hsame, halike⟩

/-! ### What operations find -/

/-- The trees of the roots that one of the keys finds. -/
def Finds (job : Job) (db : Database) (keys : List (List Json)) (trees : List RowTree) : Prop :=
  ∀ tree, tree ∈ trees ↔ ∃ row ∈ job.plan.node.rowsIn db,
    (∃ key ∈ keys, Filter.tupleMatches job.plan.node.primaryKey row key) ∧
      job.plan.treeIn db row = tree

theorem steadies_fetchKeys (h : Legible wiring kind column job₀ s₀) (keys : List (List Json)) :
    Steadies fine wiring job₀ s₀ (Finds job₀ s₀.1.database keys) (fetchKeys keys) := by
  refine upholds_get_bind fun job s hsteady => ?_
  rw [hsteady.plan]
  refine steadies_transported h.pending ((fetchRoots_asks _ _).mono fun _ h => h.isLookup)
    fun w hw => ?_
  cases keys with
  | nil => exact ⟨[], Attempt.gives_pure _, by simp [Finds]⟩
  | cons key rest =>
    obtain ⟨t, hnode⟩ := h.fits.node
    have hfits : job₀.plan.Fits w.database.schema := hw ▸ h.fits
    have hcomparable : job₀.plan.ComparableIn w.database := hw ▸ h.comparable
    refine ⟨_, fetchRoots_gives_trees h.wiring hfits hcomparable hnode.keyFetched (by simp),
      fun tree => ?_⟩
    simp only [List.mem_map, PlanNode.mem_rowsWhere hnode.keyFetched, Filter.accepts,
      List.any_eq_true, hw, and_assoc]

/-- What an operation is answered with may stand under its identity. -/
def Answers (fine : String → Option Document → Prop) (index : String) :
    RootOp × Option Document → Prop
  | (_, some d) => d.index = index ∧ fine d.identity (some d)
  | (op, none) => fine op.identity none

theorem Allows.answers_some (hallows : Allows fine job₀ s₀.1.database) {row : Row}
    (hrow : row ∈ job₀.plan.node.rowsIn s₀.1.database) {d : Document}
    (hcompile : job₀.plan.compile job₀.options.index (job₀.plan.treeIn s₀.1.database row) = .ok d)
    (op : RootOp) : Answers fine job₀.options.index (op, some d) :=
  ⟨(Plan.compile_eq_ok hcompile).1, hallows.root row hrow d hcompile⟩

theorem window_compileTrees (job : Job) (trees : List RowTree) (stats : CycleStats) :
    (compileTrees job trees stats).1.window = stats.window := by
  induction trees generalizing stats with
  | nil => rfl
  | cons tree rest ih =>
    rw [compileTrees]
    split
    · exact ih _
    · exact ih stats

/-- Operations of a chunk that look for roots of different identities each get the document of their own
root, and nothing where there is none. -/
theorem answers_matchOps (h : Legible wiring kind column job₀ s₀)
    (hallows : Allows fine job₀ s₀.1.database) {ops : List RootOp}
    (hops : ∀ op ∈ ops, op.Seeks kind) (hdistinct : (ops.map RootOp.identity).Nodup)
    {fetched : List (List Json × Document)}
    (hfetched : ∀ entry, entry ∈ fetched ↔ ∃ row ∈ job₀.plan.node.rowsIn s₀.1.database,
      (∃ op ∈ ops, Filter.tupleMatches job₀.plan.node.primaryKey row op.key) ∧
      entry.1 = row.tuple job₀.plan.node.primaryKey ∧
      job₀.plan.compile job₀.options.index (job₀.plan.treeIn s₀.1.database row) = .ok entry.2) :
    ∀ pair ∈ (matchOps ops fetched).1, Answers fine job₀.options.index pair := by
  rintro ⟨op, found⟩ hpair
  have hop : op ∈ ops := map_fst_matchOps ops fetched ▸ List.mem_map_of_mem hpair
  cases found with
  | some d =>
    obtain ⟨entry, hentry, rfl, -⟩ := mem_matchOps hpair
    obtain ⟨row, hrow, -, -, hcompile⟩ := (hfetched entry).mp hentry
    exact hallows.answers_some hrow hcompile op
  | none =>
    refine hallows.nothing _ fun row hrow hidentity => ?_
    -- a root of this identity would have been fetched, and nobody else would have taken it
    have hapart : ops.Pairwise fun a b => ∀ entry ∈ fetched,
        keyMatches entry.1 a.key = true → keyMatches entry.1 b.key = false := by
      refine (List.pairwise_map.mp hdistinct).imp_of_mem fun {a b} ha hb hne entry hentry hmatches => ?_
      obtain ⟨other, hother, -, hkey, -⟩ := (hfetched entry).mp hentry
      rw [hkey, h.keyMatches_iff (hops a ha) hother] at hmatches
      rw [hkey, ← Bool.not_eq_true, h.keyMatches_iff (hops b hb) hother, hmatches]
      exact hne
    obtain ⟨d, hcompile⟩ := h.exists_compile hrow
    have hmatches := (h.tupleMatches_iff (hops op hop) hrow).mpr hidentity
    have hentry := (hfetched (row.tuple job₀.plan.node.primaryKey, d)).mpr
      ⟨row, hrow, ⟨op, hop, hmatches⟩, rfl, hcompile⟩
    have hleft := not_keyMatches_of_mem_matchOps hapart hpair _ hentry
    rw [(h.keyMatches_iff (hops op hop) hrow).mpr hidentity] at hleft
    contradiction

theorem steadies_fetchOne (h : Legible wiring kind column job₀ s₀)
    (hallows : Allows fine job₀ s₀.1.database) {op : RootOp} (hop : op.Seeks kind)
    (stats : CycleStats) :
    Steadies fine wiring job₀ s₀ (fun found =>
      Answers fine job₀.options.index (op, found.1) ∧ found.2.window = stats.window)
      (fetchOne op stats) := by
  refine upholds_get_bind fun job s hsteady => ?_
  refine (steadies_fetchKeys h [op.key]).bind fun trees htrees => ?_
  split
  · refine upholds_pure ⟨hallows.nothing _ fun row hrow hidentity => ?_, rfl⟩
    have hmatches := (h.tupleMatches_iff hop hrow).mpr hidentity
    have hfound := (htrees _).mpr ⟨row, hrow, ⟨_, List.mem_singleton_self _, hmatches⟩, rfl⟩
    exact absurd hfound List.not_mem_nil
  · obtain ⟨row, hrow, -, rfl⟩ := (htrees _).mp List.mem_cons_self
    obtain ⟨d, hcompile⟩ := h.exists_compile hrow
    rw [hsteady.plan, hsteady.options, hcompile]
    exact upholds_pure ⟨hallows.answers_some hrow hcompile op, rfl⟩

theorem steadies_fetchUnmatched (h : Legible wiring kind column job₀ s₀)
    (hallows : Allows fine job₀ s₀.1.database) {pairs : List (RootOp × Option Document)}
    (hpairs : ∀ pair ∈ pairs, pair.1.Seeks kind ∧ Answers fine job₀.options.index pair)
    (stats : CycleStats) :
    Steadies fine wiring job₀ s₀ (fun found =>
      (∀ pair ∈ found.1, Answers fine job₀.options.index pair) ∧ found.2.window = stats.window)
      (fetchUnmatched pairs stats) := by
  induction pairs generalizing stats with
  | nil => exact upholds_pure ⟨by simp, rfl⟩
  | cons first rest ih =>
    obtain ⟨⟨hop, hfirst⟩, hrest⟩ := List.forall_mem_cons.mp hpairs
    obtain ⟨op, found⟩ := first
    cases found with
    | some d =>
      refine (ih hrest stats).bind fun (others, stats') ⟨hothers, hwindow⟩ => upholds_pure ?_
      exact ⟨List.forall_mem_cons.mpr ⟨hfirst, hothers⟩, hwindow⟩
    | none =>
      refine (steadies_fetchOne h hallows hop stats).bind fun (found, stats₁) ⟨hfound, hwindow₁⟩ => ?_
      refine (ih hrest stats₁).bind fun (others, stats') ⟨hothers, hwindow⟩ => upholds_pure ?_
      exact ⟨List.forall_mem_cons.mpr ⟨hfound, hothers⟩, hwindow.trans hwindow₁⟩

/-! ### Applying operations -/

theorem steadies_settle {pairs : List (RootOp × Option Document)}
    (hpairs : ∀ pair ∈ pairs, Answers fine job₀.options.index pair) (stats : CycleStats) :
    Steadies fine wiring job₀ s₀ (fun stats' => stats'.window = stats.window)
      (settle pairs stats) := by
  induction pairs generalizing stats with
  | nil => exact upholds_pure rfl
  | cons first rest ih =>
    obtain ⟨hfirst, hrest⟩ := List.forall_mem_cons.mp hpairs
    have hothers (outcome : WriteOutcome) : Steadies fine wiring job₀ s₀
        (fun stats' => stats'.window = stats.window) (settle rest (stats.record outcome)) :=
      (ih hrest _).mono fun stats' hwindow => hwindow.trans (CycleStats.window_record _ _)
    obtain ⟨op, found⟩ := first
    cases found with
    | some d => exact (steadies_upsert hfirst.1 hfirst.2).bind fun outcome _ => hothers outcome
    | none =>
      have hdelete : fine op.identity none := hfirst
      exact (steadies_delete hdelete).bind fun outcome _ => hothers outcome

theorem steadies_applyChunk (h : Legible wiring kind column job₀ s₀)
    (hallows : Allows fine job₀ s₀.1.database) {ops : List RootOp}
    (hops : ∀ op ∈ ops, op.Seeks kind) (hdistinct : (ops.map RootOp.identity).Nodup)
    (stats : CycleStats) :
    Steadies fine wiring job₀ s₀ (fun stats' => stats'.window = stats.window)
      (applyChunk ops stats) := by
  refine (steadies_fetchKeys h _).bind fun trees htrees => upholds_get_bind fun job s hsteady => ?_
  have hanswers : ∀ pair ∈ (matchOps ops (compileTrees job trees stats).2).1,
      Answers fine job₀.options.index pair := by
    refine answers_matchOps h hallows hops hdistinct fun entry => ?_
    rw [mem_compileTrees, hsteady.plan, hsteady.options]
    constructor
    · rintro ⟨_, htree, hkey, hcompile⟩
      obtain ⟨row, hrow, ⟨key, hkeys, hmatches⟩, rfl⟩ := (htrees _).mp htree
      obtain ⟨op, hop, rfl⟩ := List.mem_map.mp hkeys
      exact ⟨row, hrow, ⟨op, hop, hmatches⟩, by rw [hkey, Plan.treeIn_row], hcompile⟩
    · rintro ⟨row, hrow, ⟨op, hop, hmatches⟩, hkey, hcompile⟩
      refine ⟨_, (htrees _).mpr ⟨row, hrow, ⟨_, List.mem_map_of_mem hop, hmatches⟩, rfl⟩, ?_,
        hcompile⟩
      rw [hkey, Plan.treeIn_row]
  have hseek : ∀ pair ∈ (matchOps ops (compileTrees job trees stats).2).1, pair.1.Seeks kind :=
    fun pair hpair => hops pair.1 (map_fst_matchOps ops _ ▸ List.mem_map_of_mem hpair)
  have hwindow := window_compileTrees job trees stats
  dsimp only
  split
  · exact (steadies_settle hanswers _).mono fun _ hsettled => hsettled.trans hwindow
  · have hunmatched := steadies_fetchUnmatched h hallows
      (fun pair hpair => ⟨hseek pair hpair, hanswers pair hpair⟩) (compileTrees job trees stats).1
    refine hunmatched.bind fun (pairs, stats₁) ⟨hpairs, hwindow₁⟩ => ?_
    exact (steadies_settle hpairs _).mono fun _ hsettled =>
      hsettled.trans (hwindow₁.trans hwindow)

theorem steadies_applyChunks (h : Legible wiring kind column job₀ s₀)
    (hallows : Allows fine job₀ s₀.1.database) {parts : List (List RootOp)}
    (hparts : ∀ ops ∈ parts, (∀ op ∈ ops, op.Seeks kind) ∧ (ops.map RootOp.identity).Nodup)
    (stats : CycleStats) :
    Steadies fine wiring job₀ s₀ (fun stats' => stats'.window = stats.window)
      (applyChunks parts stats) := by
  induction parts generalizing stats with
  | nil => exact upholds_pure rfl
  | cons ops rest ih =>
    obtain ⟨⟨hops, hdistinct⟩, hrest⟩ := List.forall_mem_cons.mp hparts
    refine (steadies_applyChunk h hallows hops hdistinct stats).bind fun stats₁ hwindow => ?_
    exact (ih hrest stats₁).mono fun _ happlied => happlied.trans hwindow

theorem steadies_applyOps (h : Legible wiring kind column job₀ s₀)
    (hallows : Allows fine job₀ s₀.1.database) {r : Resolution} (hr : r.Identifies kind)
    (stats : CycleStats) :
    Steadies fine wiring job₀ s₀ (fun stats' => stats'.window = stats.window)
      (applyOps r.ops stats) := by
  refine upholds_get_bind fun job s _ => steadies_applyChunks h hallows (fun part hpart => ?_) stats
  have hpositive : 0 < max job.options.batchSize 1 :=
    Nat.lt_of_lt_of_le Nat.zero_lt_one (Nat.le_max_right _ _)
  have hsublist : part.Sublist (r.ops.filter fun op => !op.key.any Json.isNull) := by
    have hflatten := List.sublist_flatten_of_mem hpart
    rwa [flatten_chunks hpositive] at hflatten
  refine ⟨fun op hop => ?_, ?_⟩
  · obtain ⟨hmem, hpresent⟩ := List.mem_filter.mp (hsublist.subset hop)
    exact ⟨hr.ops op hmem, by simpa using hpresent⟩
  · exact hr.distinct.sublist ((hsublist.trans List.filter_sublist).map _)

/-! ### Scans -/

theorem steadies_writeTrees (h : Legible wiring kind column job₀ s₀)
    (hallows : Allows fine job₀ s₀.1.database) {rows : List Row}
    (hrows : ∀ row ∈ rows, row ∈ job₀.plan.node.rowsIn s₀.1.database) (stats : CycleStats)
    (seen : List String) :
    Steadies fine wiring job₀ s₀ (fun written => written.1.window = stats.window)
      (writeTrees (rows.map (job₀.plan.treeIn s₀.1.database)) stats seen) := by
  induction rows generalizing stats seen with
  | nil => exact upholds_pure rfl
  | cons row rest ih =>
    obtain ⟨hrow, hrest⟩ := List.forall_mem_cons.mp hrows
    have hwrite : Steadies fine wiring job₀ s₀ (fun written => written.1.window = stats.window)
        (writeTree stats seen (job₀.plan.treeIn s₀.1.database row)) := by
      refine upholds_get_bind fun job s hsteady => ?_
      obtain ⟨d, hcompile⟩ := h.exists_compile hrow
      obtain ⟨hindex, hfine⟩ := hallows.answers_some hrow hcompile ⟨d.identity, []⟩
      rw [hsteady.plan, hsteady.options, hcompile]
      exact (steadies_upsert hindex hfine).bind fun outcome _ =>
        upholds_pure (CycleStats.window_record stats outcome)
    refine hwrite.bind fun (stats₁, seen₁) hwindow => ?_
    exact (ih hrest stats₁ seen₁).mono fun _ hwritten => hwritten.trans hwindow

theorem steadies_scanPages (h : Legible wiring kind column job₀ s₀)
    (hallows : Allows fine job₀ s₀.1.database) {scan : RootScan} {left : List Row}
    (hscan : scan.At s₀.1.database job₀.plan left)
    (hleft : ∀ row ∈ left, row ∈ job₀.plan.node.rowsIn s₀.1.database) (pages : Nat)
    (stats : CycleStats) (seen : List String) :
    Steadies fine wiring job₀ s₀ (fun written => written.1.window = stats.window)
      (scanPages scan pages stats seen) := by
  induction pages generalizing scan left stats seen with
  | zero =>
    constructor
    intro job job' s s' result _ hruns
    exact absurd (runs_attempt.mp hruns).1 Program.not_runs_spent
  | succ pages ih =>
    refine upholds_get_bind fun job s hsteady => ?_
    rw [hsteady.plan]
    have hpage : Steadies fine wiring job₀ s₀ (fun page : Option (List RowTree) × RootScan =>
        page.1 = (if left = [] then none
          else some (Fetch.attached s₀.1.database job₀.plan (left.take scan.batch))) ∧
        (left ≠ [] → page.2.At s₀.1.database job₀.plan (left.drop scan.batch)))
        (transported (scan.nextPage job₀.plan)) := by
      refine steadies_transported h.pending ((nextPage_asks _ _).mono fun _ h => h.isLookup)
        fun w hw => ?_
      have hfits : job₀.plan.Fits w.database.schema := hw ▸ h.fits
      have hkeyed : job₀.plan.node.KeyedIn w.database [kind] := hw ▸ h.keyed
      obtain ⟨next, hgives, -, hnext⟩ := (hw ▸ hscan).nextPage_gives h.wiring hfits hkeyed
      rw [hw] at hgives hnext
      exact ⟨_, hgives, rfl, hnext⟩
    refine hpage.bind fun (page, next) ⟨hpage, hnext⟩ => ?_
    dsimp only at hpage hnext ⊢
    by_cases hdone : left = []
    · rw [hpage, if_pos hdone]
      exact upholds_pure rfl
    have hfirst : ∀ row ∈ left.take scan.batch, row ∈ job₀.plan.node.rowsIn s₀.1.database :=
      fun row hrow => hleft row (List.mem_of_mem_take hrow)
    have hrest : ∀ row ∈ left.drop scan.batch, row ∈ job₀.plan.node.rowsIn s₀.1.database :=
      fun row hrow => hleft row (List.mem_of_mem_drop hrow)
    rw [hpage, if_neg hdone, Fetch.attached_eq (Plan.fits_iff_joined.mp h.fits) h.comparable.kindedIn hfirst]
    refine (steadies_writeTrees h hallows hfirst stats seen).bind fun (stats₁, seen₁) hwindow => ?_
    exact (ih (hnext hdone) hrest stats₁ seen₁).mono fun _ hwritten => hwritten.trans hwindow

/-! ### Applying records -/

/-- Records that say nothing wrong about the keys of roots keep the index steady, whatever else they say. -/
theorem steadies_applyRecords (h : Legible wiring kind column job₀ s₀)
    (hallows : Allows fine job₀ s₀.1.database) {records : List ChangeRecord}
    (hrecords : ∀ r ∈ records, r.table = job₀.plan.node.table → r.KeyAdmits column kind)
    (pages : Nat) (stats : CycleStats) :
    Steadies fine wiring job₀ s₀ (fun stats' => stats'.window = stats.window)
      (applyRecords pages records stats) := by
  refine upholds_get_bind fun job s hsteady => ?_
  rw [hsteady.plan]
  have hresolve : Steadies fine wiring job₀ s₀ (Resolution.Identifies kind)
      (attempt (resolve job₀.plan job.writer (coalesce job₀.plan records))) := by
    refine steadies_attempt h.pending (resolve_asks _ _ _) fun w hw => ?_
    have hfits : job₀.plan.Fits w.database.schema := hw ▸ h.fits
    have hadmits : ∀ row ∈ job₀.plan.node.rowsIn w.database, kind.Admits (row.value column) := by
      rw [hw]
      exact fun row hrow _ => h.has hrow
    exact resolve_gives_identifying h.wiring hfits h.key hadmits job.writer hrecords
  refine hresolve.bind fun resolution hresolution => ?_
  refine (steadies_applyOps h hallows hresolution _).bind fun stats₁ hwindow₁ => ?_
  have hends (stats' : CycleStats) (hwindow : stats'.window = stats.window) :
      Steadies fine wiring job₀ s₀ (fun stats' => stats'.window = stats.window) (do
        if stats'.mutations > 0 then attempt (← get).writer.refresh
        return stats') := by
    dsimp only
    split
    · exact steadies_refresh.bind fun _ _ => upholds_pure hwindow
    · exact upholds_pure hwindow
  dsimp only
  split
  · have hscan : Steadies fine wiring job₀ s₀ (fun stats' => stats'.window = stats.window)
        (Prod.fst <$> scanAll pages stats₁) := by
      have hstart (job : Job) := RootScan.at_start s₀.1.database job₀.plan job.options.batchSize
      have hscanned : Steadies fine wiring job₀ s₀ (fun written => written.1.window = stats₁.window)
          (scanAll pages stats₁) :=
        upholds_get_bind fun job s _ => steadies_scanPages h hallows (hstart job)
          (fun row hrow => Plan.mem_rootRows.mp hrow) pages stats₁ []
      exact hscanned.bind fun written hwindow => upholds_pure (hwindow.trans hwindow₁)
    exact hscan.bind hends
  · exact hends stats₁ hwindow₁

end Job

end DocSync
