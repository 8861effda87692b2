import DocSync.Proofs.Job.Closing
import DocSync.Proofs.Job.Renewal

/-!
What a cycle catches up with.  The records that it reads resolve to operations which follow every one of
them, so that what they do not name was not touched, and what they name is written anew.  A cycle that fails
leaves the index as current as it was; one that succeeds leaves it current up to the end of its window.
-/

namespace DocSync

open ValueKind (HasAll)

variable {kindOf : String → ValueKind} {plan : Plan} {wiring : Wiring} {records : List ChangeRecord}

/-! ### What records resolve to -/

namespace Resolution

variable {kind : ValueKind} {r : Resolution} {op : RootOp} {v : Json}

/-- Every operation finds exactly the root of its identity, and no two have one identity. -/
structure Seeks (kind : ValueKind) (r : Resolution) : Prop where
  ops : ∀ op ∈ r.ops, op.Seeks kind
  distinct : (r.ops.map RootOp.identity).Nodup

theorem Seeks.identifies (h : r.Seeks kind) : r.Identifies kind :=
  ⟨fun op hop => (h.ops op hop).identifies, h.distinct⟩

theorem Seeks.push (h : r.Seeks kind) (hop : op.Seeks kind) : (r.push op).Seeks kind := by
  refine ⟨fun other hother => ?_, (h.identifies.push hop.identifies).distinct⟩
  rcases List.mem_append.mp hother with hother | hother
  · exact h.ops other (List.mem_filter.mp hother).1
  · exact List.mem_singleton.mp hother ▸ hop

theorem Seeks.pushKey (h : r.Seeks kind) (hv : kind.Has v) : (r.pushKey [v]).Seeks kind :=
  h.push ⟨RootOp.identifies_ofKey hv.admits, by simp [hv.isNull]⟩

theorem Seeks.pushFound (h : r.Seeks kind) (found : Option (List String)) :
    (r.pushFound 1 found).Seeks kind := by
  cases found with
  | none => exact ⟨h.ops, h.distinct⟩
  | some identities =>
    change (identities.foldl (fun r identity => r.push ⟨identity, Identity.toKey identity 1⟩) r).Seeks kind
    refine List.foldlRecOn identities _ h fun r hr identity _ => hr.push ?_
    exact ⟨RootOp.identifies_toKey identity, rfl⟩

end Resolution

/-- A record of the root table whose keys have the kind adds operations that find roots. -/
theorem Resolve.seeks_resolveRoot {kind : ValueKind} {column : String} {root : PlanNode}
    (hroot : root.primaryKey = [column]) {s : ChangeRecord}
    (hkeys : ∀ key ∈ s.key :: s.oldKey.toList, kind.Has (key.value column)) {found : Resolution}
    (hfound : found.Seeks kind) : (resolveRoot root s found).Seeks kind := by
  have hkey := hkeys s.key List.mem_cons_self
  rw [resolveRoot, hroot]
  cases hold : s.oldKey with
  | none => exact hfound.pushKey hkey
  | some old =>
    have hleft := hkeys old (List.mem_cons_of_mem _ (by simp [hold]))
    dsimp only
    split
    · exact (hfound.pushKey hleft).pushKey hkey
    · exact hfound.pushKey hkey

namespace Plan.Orderly

variable {w : World} (h : plan.Orderly kindOf w.database)

include h

theorem resolve_gives_seeking (hwiring : wiring.Plain) (writer : Writer)
    (hrecords : ∀ r ∈ records, r ∈ w.database.log) :
    ∃ resolution, Attempt.Gives wiring w (resolve plan writer (coalesce plan records)) (.ok resolution) ∧
      resolution.Seeks (kindOf plan.node.table) := by
  obtain ⟨column, hcolumn⟩ := h.single plan.node (.root plan)
  have hhas {key : Row} (hkey : HasAll [kindOf plan.node.table] (key.tuple plan.node.primaryKey)) :
      (kindOf plan.node.table).Has (key.value column) := by
    rw [hcolumn] at hkey
    exact (List.forall₂_cons.mp hkey).1
  refine Resolve.resolveFrom_gives_keeping hwiring h.fits writer (fun r found hr => ?_)
    (fun row hrow r hr => ?_) (fun s hs htable r hr => ?_) ⟨by simp, List.nodup_nil⟩
  · rw [hcolumn]
    exact hr.pushFound found
  · have hkey := hhas (h.hasAll_key (.root plan) hrow)
    rw [hcolumn]
    exact hr.pushKey hkey
  · exact Resolve.seeks_resolveRoot hcolumn
      (fun key hkey => hhas (h.hasAll_key_of_mem_coalesce (.root plan) hrecords hs htable key hkey)) hr

/-- What is read of a log resolves to operations that find their roots, and these follow every record that
coalescing keeps. -/
theorem exists_resolution (hwiring : wiring.Plain) (writer : Writer)
    (hrecords : ∀ r ∈ records, r ∈ w.database.log) :
    ∃ resolution, Attempt.Gives wiring w (resolve plan writer (coalesce plan records)) (.ok resolution) ∧
      resolution.Seeks (kindOf plan.node.table) ∧
      ∀ s ∈ coalesce plan records, resolution.Follows wiring w plan writer s := by
  obtain ⟨resolution, hresolves, hseeks⟩ := h.resolve_gives_seeking hwiring writer hrecords
  obtain ⟨followed, hfollowed, -, hfollows⟩ := Resolve.resolveFrom_gives_following hwiring h.fits
    h.comparableIn h.plain writer (coalesce plan records) ⟨[], false⟩
  obtain rfl := Except.ok.inj (hfollowed.unique hresolves)
  exact ⟨followed, hresolves, hseeks, hfollows⟩

end Plan.Orderly

/-! ### What stands in an index -/

/-- Under every identity of the index there stands what is current up to a transaction. -/
def Plan.CurrentIn (kindOf : String → ValueKind) (plan : Plan) (index : String) (db : Database) (txid : Nat)
    (sink : MemorySink) : Prop :=
  ∀ identity, plan.Current kindOf index db txid identity (sink.storedAt index identity)

/-- Commits keep what stands in an index as current as it was. -/
theorem Plan.CurrentIn.reaches {index : String} {db db' : Database} {txid : Nat}
    {sink sink' : MemorySink} (h : plan.CurrentIn kindOf index db txid sink)
    (horderly : plan.Orderly kindOf db) (horderly' : plan.Orderly kindOf db')
    (hreaches : Database.Reaches db db') (hle : txid ≤ db.lastTxid) (halike : sink.Alike sink') :
    plan.CurrentIn kindOf index db' txid sink' := by
  intro identity
  rw [halike.storedAt]
  exact (h identity).reaches horderly horderly' hreaches hle

namespace Job

open Working Stateful

variable {docs : Document → Prop} {kind : ValueKind} {column : String} {job job' : Job} {s s' : Site}
  {upTo txid : Nat} {identity : String} {found : Option Document}

/-- A job that reads an orderly database can compare what it reads. -/
theorem exists_legible (h : job.plan.Orderly kindOf s.1.database) (hwiring : wiring.Plain)
    (hpending : s.2.pending = []) :
    ∃ column, Legible wiring (kindOf job.plan.node.table) column job s := by
  obtain ⟨column, hcolumn⟩ := h.single job.plan.node (.root _)
  obtain ⟨kinds, hkeyed⟩ := h.comparableIn.keyed
  exact ⟨column, ⟨hwiring, hpending, h.fits, fun row hrow => h.hasAll_key (.root _) hrow, hkeyed.distinct⟩,
    hcolumn, h.comparableIn⟩

/-- What a resync stores is what the job derives. -/
theorem Legible.derives_iff (h : Legible wiring kind column job s) :
    job.plan.Derives job.options.index s.1.database identity found ↔
      found.map Document.text = Document.textAt (job.derived s.1.database) identity := by
  have hnodup := h.derivable.nodup_derived
  have hidentities := h.derivable.map_identity_derived
  constructor
  · intro hderives
    cases found with
    | none =>
      refine (Document.textAt_eq_none fun hmem => ?_).symm
      obtain ⟨row, hrow, hidentity⟩ := List.mem_map.mp (hidentities.mem_iff.mp hmem)
      exact hderives row hrow hidentity
    | some d =>
      obtain ⟨row, hrow, hidentity, derived, hcompiled, htext⟩ := hderives
      refine ((Document.textAt_eq_some_iff hnodup).mpr
        ⟨derived, h.mem_derived_iff.mpr ⟨row, hrow, hcompiled⟩, ?_, htext.symm⟩).symm
      rw [(Plan.compile_eq_ok hcompiled).2, Plan.treeIn_row, hidentity]
  · intro htext
    cases found with
    | none =>
      intro row hrow hidentity
      have hmem : identity ∈ (job.derived s.1.database).map Document.identity :=
        hidentities.mem_iff.mpr (List.mem_map.mpr ⟨row, hrow, hidentity⟩)
      obtain ⟨d, hd, rfl⟩ := List.mem_map.mp hmem
      rw [Document.textAt_of_mem hnodup hd] at htext
      contradiction
    | some d =>
      obtain ⟨derived, hmem, hidentity, hsame⟩ := (Document.textAt_eq_some_iff hnodup).mp htext.symm
      obtain ⟨row, hrow, hcompiled⟩ := h.mem_derived_iff.mp hmem
      refine ⟨row, hrow, ?_, derived, hcompiled, hsame.symm⟩
      rw [← hidentity, (Plan.compile_eq_ok hcompiled).2, Plan.treeIn_row]

/-- The job wants what it derives. -/
theorem Legible.renewable (h : Legible wiring kind column job s) (happart : Document.Apart docs)
    (hready : Ready docs wiring.sink job s) (hdocs : ∀ d ∈ job.derived s.1.database, docs d) :
    Renewable docs (Document.textAt (job.derived s.1.database)) wiring kind column job s := by
  have hallows := h.allows Document.text
  refine ⟨happart, h, hready, fun row hrow d hcompile => ⟨hallows.root row hrow d hcompile, ?_⟩,
    fun identity hnone => ⟨hallows.nothing identity hnone, fun _ hd => by contradiction⟩⟩
  rintro _ ⟨⟩
  exact hdocs d (h.mem_derived_iff.mpr ⟨row, hrow, hcompile⟩)

section

variable (h : Renewable docs (Document.textAt (job.derived s.1.database)) wiring kind column job s)
  (horderly : job.plan.Orderly kindOf s.1.database)

include h horderly

/-- What is wanted is current up to any transaction. -/
theorem Renewable.current_of_meets
    (htoward : Toward docs (Document.textAt (job.derived s.1.database)) wiring.sink job job' s s')
    (hmeets : job'.writer.Meets (Document.textAt (job.derived s.1.database)) (s'.1.sink wiring.sink)
      identity) (txid : Nat) :
    job.plan.Current kindOf job.options.index s.1.database txid identity
      ((s'.1.sink wiring.sink).storedAt job.options.index identity) := by
  have hindex : job'.writer.index = job.options.index :=
    htoward.writer.index.trans h.ready.index
  have hstored := hmeets.stored
  rw [hindex] at hstored
  exact horderly.current_of_derives (h.legible.derives_iff.mpr hstored) txid

/-- Writes towards what a resync stores leave the index as current as it was. -/
theorem Renewable.currentIn_of_toward
    (htoward : Toward docs (Document.textAt (job.derived s.1.database)) wiring.sink job job' s s')
    (hcurrent : job.plan.CurrentIn kindOf job.options.index s.1.database txid (s.1.sink wiring.sink)) :
    job.plan.CurrentIn kindOf job.options.index s.1.database txid (s'.1.sink wiring.sink) := by
  intro identity
  rcases htoward.writer.settled identity with ⟨hsame, -⟩ | hmeets
  · rw [h.ready.index] at hsame
    rw [hsame]
    exact hcurrent identity
  · exact h.current_of_meets horderly htoward hmeets txid

/-- Applying the records of a window leaves the index current up to its end, or fails and leaves it as
current as it was. -/
theorem Renewable.applyRecords_catches (hkind : kind = kindOf job.plan.node.table)
    (halone : job.plan.RootAlone) {window : TxWindow}
    (htold : job.plan.Told s.1.database.log window records)
    (hcurrent : job.plan.CurrentIn kindOf job.options.index s.1.database window.txmin
      (s.1.sink wiring.sink)) {pages : Nat} {stats : CycleStats} {result : Except SyncError CycleStats}
    (hruns : Runs (Site.Outages wiring.sink) wiring (applyRecords pages records stats) job s result job'
      s') :
    Toward docs (Document.textAt (job.derived s.1.database)) wiring.sink job job' s s' ∧
      ∀ stats', result = .ok stats' → job.plan.CurrentIn kindOf job.options.index s.1.database window.txmax
        (s'.1.sink wiring.sink) := by
  subst hkind
  obtain ⟨resolution, hresolves, hseeks, hfollows⟩ :=
    horderly.exists_resolution h.legible.wiring job.writer htold.logged
  obtain ⟨htoward, hmet⟩ := applyRecords_attains h hresolves hseeks.ops hseeks.distinct pages
    stats result job' s' hruns
  refine ⟨htoward, fun stats' hstats identity => ?_⟩
  by_cases hwritten : resolution.Names identity ∨ resolution.rederiveAll = true ∧
      ∃ row ∈ job.plan.node.rowsIn s.1.database, job.plan.node.identityOf row = identity
  · exact h.current_of_meets horderly htoward (hmet stats' hstats identity hwritten) _
  rcases htoward.writer.settled identity with ⟨hsame, -⟩ | hmeets
  · rw [h.ready.index] at hsame
    rw [hsame]
    have hunnamed := horderly.current_of_unnamed htold hfollows
      (fun hnames => hwritten (.inl hnames)) halone
      (fun hall row hrow hidentity => hwritten (.inr ⟨hall, row, hrow, hidentity⟩))
    rw [h.ready.index] at hunnamed
    exact hunnamed (hcurrent identity)
  · exact h.current_of_meets horderly htoward hmeets _

end

end Job

end DocSync
