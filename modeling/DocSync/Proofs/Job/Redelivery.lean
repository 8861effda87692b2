import DocSync.Proofs.Job.Apply
import DocSync.Proofs.Job.Exact
import DocSync.Proofs.Relation.Unique
import Mathlib

/-!
Redelivery is harmless.  Where the index already holds what a resync would store, a receive cycle that
succeeds leaves it so, whatever records are delivered, once more or never before: they only say which
roots to look at.
-/

namespace DocSync

namespace Job

open Working Stateful

variable {β : Type} {view : Document → β} {wiring : Wiring} {kind : ValueKind} {column : String}
  {fine : String → Option Document → Prop} {job job' : Job} {s s' : Site}

/-- The index holds what a resync of the job would store, as far as `view` shows it. -/
def Converged (view : Document → β) (job : Job) (db : Database) (sink : MemorySink) : Prop :=
  ∀ identity, (sink.storedAt job.options.index identity).map view =
    ((job.derived db).find? fun d => d.identity = identity).map view

theorem Aside.legible (h : Aside wiring job job' s s')
    (hlegible : Legible wiring kind column job s) : Legible wiring kind column job' s' := by
  have htables := h.rests.tables
  refine ⟨⟨hlegible.wiring, ?_, ?_, ?_, ?_⟩, ?_, ?_⟩
  · rw [h.rests.frames]
    exact hlegible.pending
  · rw [h.plan, h.rests.schema]
    exact hlegible.fits
  · rw [h.plan, PlanNode.rowsIn, htables]
    exact hlegible.keyed.keyed
  · rw [h.plan, PlanNode.rowsIn, htables]
    exact hlegible.keyed.distinct
  · rw [h.plan]
    exact hlegible.key
  · rw [h.plan]
    exact hlegible.comparable.congr htables

/-- What a resync derives does not change aside from the writes. -/
theorem Aside.derived (h : Aside wiring job job' s s') :
    job'.derived s'.1.database = job.derived s.1.database := by
  simp only [Job.derived, documents, scannedTrees, h.plan, h.options,
    Plan.scannedTrees_congr h.rests.tables]

theorem Legible.derivable (h : Legible wiring kind column job s) :
    Derivable [kind] job s.1.database := by
  refine ⟨h.fits, h.keyed.keyed, h.keyed.nodup.map_on fun a ha b hb hsame => ?_⟩
  rw [h.identityOf_eq, h.identityOf_eq] at hsame
  refine h.keyed.eq_of_tuple_eq ha hb ?_
  rw [h.key]
  exact congrArg (fun v => [v]) ((h.has ha).part_inj (h.has hb) hsame)

/-- A resync derives the documents of the root rows' own trees. -/
theorem Legible.mem_derived_iff (h : Legible wiring kind column job s) {d : Document} :
    d ∈ job.derived s.1.database ↔ ∃ row ∈ job.plan.node.rowsIn s.1.database,
      job.plan.compile job.options.index (job.plan.treeIn s.1.database row) = .ok d := by
  have hbatch : 0 < max job.options.batchSize 1 :=
    Nat.lt_of_lt_of_le Nat.zero_lt_one (Nat.le_max_right _ _)
  rw [derived, mem_documents, scannedTrees, Plan.scannedTrees_eq h.fits h.comparable hbatch]
  simp only [List.mem_map, exists_exists_and_eq_and, Plan.mem_rootRows]

/-- Of what a resync derives, every root has the document of its own tree under its identity. -/
theorem Legible.allows (h : Legible wiring kind column job s) (view : Document → β) :
    Allows (fun identity found => found.map view =
      ((job.derived s.1.database).find? fun d => d.identity = identity).map view) job
      s.1.database := by
  constructor
  · intro row hrow d hcompile
    have hd := h.mem_derived_iff.mpr ⟨row, hrow, hcompile⟩
    rw [(Document.find?_identity_eq_some_iff h.derivable.nodup_derived).mpr ⟨hd, rfl⟩]
  · intro identity hnone
    have habsent : ∀ d ∈ job.derived s.1.database, ¬ d.identity = identity := by
      intro d hd hidentity
      have hmem := h.derivable.map_identity_derived.mem_iff.mp (List.mem_map_of_mem hd)
      obtain ⟨row, hrow, hsame⟩ := List.mem_map.mp hmem
      exact hnone row hrow (hsame.trans hidentity)
    rw [List.find?_eq_none.mpr fun d hd => by simpa using habsent d hd]

/-- Applying keeps the index steady, and so do the steps after it. -/
theorem applyReading_keeps (h : Legible wiring kind column job s)
    (hallows : Allows fine job s.1.database) (hsteady : Steady fine wiring job s job s)
    (hwrites : (s.1.buffer wiring.buffer).writes = []) {reading : Reading}
    (hrecords : ∀ r ∈ reading.records, r.table = job.plan.node.table → r.KeyAdmits column kind)
    {pages : Nat} {stats : CycleStats}
    (hruns : Runs (Site.Outages wiring.sink) wiring (applyReading pages reading) job s (.ok stats)
      job' s') :
    stats.window = some reading.window ∧
      ∀ identity, fine identity ((s'.1.sink wiring.sink).storedAt job.options.index identity) := by
  unfold applyReading at hruns
  dsimp only at hruns
  split at hruns
  · rw [runs_enter_bind] at hruns
    obtain ⟨hstats, -, rfl⟩ := runs_pure.mp hruns
    obtain rfl := Except.ok.inj hstats
    exact ⟨rfl, hsteady.holds⟩
  obtain ⟨stats', job₁, s₁, happly, h₁⟩ := runs_bind_ok.mp hruns
  obtain ⟨hsteady₁, hwindow⟩ :=
    (steadies_applyRecords h hallows hrecords pages _).holds hsteady happly
  have hrests : s.Rests wiring s₁ := .of_sameElse hsteady₁.rest
  have hwrites₁ := hrests.writes.trans hwrites
  rw [runs_enter_bind] at h₁
  have hentered : Aside wiring job₁ { job₁ with phase := .reclaiming } s₁ s₁ :=
    .enter job₁ s₁ .reclaiming
  have hends {job₂ : Job} {s₂ : Site} (haside : Aside wiring job₁ job₂ s₁ s₂)
      (hrest : Runs (Site.Outages wiring.sink) wiring
        (do ack; enter .idle; return stats') job₂ s₂ (.ok stats) job' s') :
      stats.window = some reading.window ∧
        ∀ identity, fine identity ((s'.1.sink wiring.sink).storedAt job.options.index identity) := by
    obtain ⟨_, job₃, s₃, hack, h₃⟩ := runs_bind_ok.mp hrest
    have hacked := haside.trans (ack_aside (haside.writes hwrites₁) hack)
    rw [runs_enter_bind] at h₃
    obtain ⟨hstats, -, rfl⟩ := runs_pure.mp h₃
    obtain rfl := Except.ok.inj hstats
    refine ⟨hwindow stats rfl, fun identity => ?_⟩
    rw [hacked.sink.storedAt]
    exact hsteady₁.holds identity
  split at h₁
  · obtain ⟨_, job₂, s₂, hpersist, h₂⟩ := runs_bind_ok.mp h₁
    exact hends (hentered.trans (persist_aside hwrites₁ hpersist)) h₂
  · exact hends hentered h₁

/-- A sink that holds what a resync of the job stores, and nothing else. -/
def filledSink (job : Job) (db : Database) : MemorySink :=
  { MemorySink.empty true true with
    indices := [(job.options.index, (job.derived db).map fun d => (d.identity, d))] }

theorem converged_filledSink (view : Document → β) (job : Job) (db : Database) :
    job.Converged view db (filledSink job db) := by
  intro identity
  have hget (ds : List Document) :
      Keyed.get? (ds.map fun d => (d.identity, d)) identity =
        ds.find? fun d => d.identity = identity := by
    induction ds with
    | nil => rfl
    | cons d rest ih =>
      rw [List.map_cons, Keyed.get?, List.find?_cons, ih]
      by_cases hidentity : d.identity = identity <;> simp [hidentity]
  have hstored : (filledSink job db).stored job.options.index =
      (job.derived db).map fun d => (d.identity, d) := by
    simp [filledSink, MemorySink.stored, Keyed.getD, Keyed.get?]
  rw [MemorySink.storedAt, hstored, hget]

/-! Notices about the shop: an update that is stale and invents an old key, a delete of a product that is
still there, a delete of a category that never was, and the update once more. -/

def staleUpdate : ChangeRecord :=
  ⟨"category", .update, [("id", .ofNat 1)], some [("id", .ofNat 5)],
    some [("id", .ofNat 1), ("name", .string "bottom")], 1, 0⟩

def staleNotices : List ChangeRecord :=
  [staleUpdate, ⟨"product", .delete, [("id", .ofNat 7)], none, none, 1, 1⟩,
    ⟨"category", .delete, [("id", .ofNat 8)], none, none, 1, 2⟩, staleUpdate]

def noticeWiring : Wiring := ⟨"notices", "main", "marks", [], false, false, false⟩

def noticeSite : Site :=
  ({ shop with
    sinks := [("main", filledSink shopJob shopDatabase)]
    buffers := [("notices", ⟨.memory ⟨staleNotices, 0⟩, 0, []⟩)]
    stores := [("marks", [("categories", 2)])] }, [])

theorem shopDatabase_reached : shopDatabase.Reached := by
  have hempty : (Database.empty shopSchema).Reached := ⟨shopSchema, .refl⟩
  unfold shopDatabase
  split
  · rename_i hcommit
    obtain ⟨⟨_, _, db₁⟩, hfirst, hsecond⟩ := Except.bind_eq_ok hcommit
    exact (hempty.trans (.single (.commit hfirst))).trans (.single (.commit hsecond))
  · exact hempty

theorem shopPlan_kindedIn : shopPlan.KindedIn shopDatabase := by
  refine @Plan.KindedIn.mk _ _ _ [.integer] (by decide +kernel) ?_ ?_
  · intro child hchild
    simp only [List.mem_cons, List.not_mem_nil, or_false] at hchild
    rcases hchild with rfl | rfl
    · exact @Plan.KindedIn.mk _ _ _ [.integer] (by decide +kernel) (by simp) (by simp)
    · exact @Plan.KindedIn.mk _ _ _ [.integer] (by decide +kernel) (by simp) (by simp)
  · intro child hchild join hjoin
    simp only [List.mem_cons, List.not_mem_nil, or_false] at hchild
    rcases hchild with rfl | rfl
    · obtain rfl := Option.some.inj hjoin
      exact ⟨[.integer], by decide +kernel, by decide +kernel⟩
    · obtain rfl := Option.some.inj hjoin
      exact ⟨[.integer], by decide +kernel, by decide +kernel⟩

def namesakeBook : Database :=
  booksAfter ["first"]
    [.insert "book" [("isbn", .string "[\"a\"]")],
      .insert "book" [("isbn", .array [.string "a"])],
      .delete "book" [("isbn", .array [.string "a"])]]

def namesakeSite : Site :=
  ({ (bookSite namesakeBook).1 with
    sinks := [("main", filledSink (bookJob "first") namesakeBook)] }, [])

end Job

end DocSync
