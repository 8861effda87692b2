import DocSync.Proofs.Change.Resolve
import DocSync.Proofs.Job.Past
import Mathlib

/-!
Full resyncs are exact.  Whatever earlier cycles left, a resync that succeeds leaves in the index the
document of every root row, and no other; after it there is nothing left to do: another resync writes
nothing, and a receive cycle finds an empty window.
-/

namespace DocSync

open ValueKind (HasAll)

namespace Document

/-- The text of the document that has an identity. -/
def textAt (ds : List Document) (identity : String) : Option String :=
  (ds.find? fun d => d.identity = identity).map text

variable {ds : List Document} {d : Document} {identity : String}

theorem find?_identity_eq_some_iff (hnodup : (ds.map Document.identity).Nodup) :
    ds.find? (fun d => d.identity = identity) = some d ↔ d ∈ ds ∧ d.identity = identity := by
  constructor
  · intro h
    exact ⟨List.mem_of_find?_eq_some h, by simpa using List.find?_some h⟩
  · rintro ⟨hd, rfl⟩
    cases hfound : ds.find? fun other => other.identity = d.identity with
    | none => simpa using List.find?_eq_none.mp hfound d hd
    | some other =>
      have hsame : other.identity = d.identity := by simpa using List.find?_some hfound
      have hother := List.mem_of_find?_eq_some hfound
      rw [List.inj_on_of_nodup_map hnodup hother hd hsame]

theorem textAt_eq_some_iff (hnodup : (ds.map Document.identity).Nodup) {t : String} :
    textAt ds identity = some t ↔ ∃ d ∈ ds, d.identity = identity ∧ d.text = t := by
  simp only [textAt, Option.map_eq_some_iff, find?_identity_eq_some_iff hnodup, and_assoc]

theorem textAt_of_mem (hnodup : (ds.map Document.identity).Nodup) (hd : d ∈ ds) :
    textAt ds d.identity = some d.text :=
  (textAt_eq_some_iff hnodup).mpr ⟨d, hd, rfl, rfl⟩

theorem textAt_eq_none (h : identity ∉ ds.map Document.identity) : textAt ds identity = none := by
  rw [textAt, List.find?_eq_none.mpr fun d hd => ?_, Option.map_none]
  simp only [decide_eq_true_eq]
  exact fun hsame => h (List.mem_map.mpr ⟨d, hd, hsame⟩)

end Document

/-- An index holds the texts of the documents, each under its identity, and nothing else. -/
def MemorySink.HoldsExactly (sink : MemorySink) (index : String) (ds : List Document) : Prop :=
  ∀ identity t, (sink.storedAt index identity).map Document.text = some t ↔
    ∃ d ∈ ds, d.identity = identity ∧ d.text = t

namespace Job

open Working Stateful

variable {job job' : Job} {wiring : Wiring} {s s' : Site} {kinds : List ValueKind}

/-- The documents of all roots, as a scan of the job derives them. -/
def derived (job : Job) (db : Database) : List Document := job.documents (job.scannedTrees db)

/-- The documents whose digests a resync compares: those stored, and those that it derives. -/
def Compares (job : Job) (db : Database) (sink : MemorySink) (d : Document) : Prop :=
  (∃ identity, sink.storedAt job.options.index identity = some d) ∨ d ∈ job.derived db

/-- Where no key of a root has a null, every tree compiles, to a document of its own. -/
theorem forall₂_documents {trees : List RowTree}
    (hkeys : ∀ tree ∈ trees, (tree.row.tuple job.plan.node.primaryKey).any Json.isNull = false) :
    List.Forall₂ (fun tree d => job.plan.compile job.options.index tree = .ok d) trees
      (job.documents trees) := by
  induction trees with
  | nil => exact .nil
  | cons tree rest ih =>
    obtain ⟨hfirst, hrest⟩ := List.forall_mem_cons.mp hkeys
    obtain ⟨d, hd⟩ := Plan.exists_compile job.options.index hfirst
    have hdocuments : job.documents (tree :: rest) = d :: job.documents rest := by
      simp [documents, hd, Except.toOption]
    rw [hdocuments]
    exact .cons hd (ih hrest)

/-- Compiled documents have the identities of the rows of their trees. -/
theorem map_identity_of_forall₂ {trees : List RowTree} {ds : List Document}
    (h : List.Forall₂ (fun tree d => job.plan.compile job.options.index tree = .ok d) trees ds) :
    ds.map Document.identity = (trees.map RowTree.row).map job.plan.node.identityOf := by
  induction h with
  | nil => rfl
  | cons hfirst _ ih =>
    rw [List.map_cons, List.map_cons, List.map_cons, ih, (Plan.compile_eq_ok hfirst).2]

/-- What the roots of a job are derived from: keys without nulls, which give identities of their own. -/
structure Derivable (kinds : List ValueKind) (job : Job) (db : Database) : Prop where
  fits : job.plan.Fits db.schema
  keyed : ∀ row ∈ job.plan.node.rowsIn db, HasAll kinds (row.tuple job.plan.node.primaryKey)
  distinct : ((job.plan.node.rowsIn db).map job.plan.node.identityOf).Nodup

namespace Derivable

variable {db : Database} (h : Derivable kinds job db)

include h

theorem keyedIn : job.plan.node.KeyedIn db kinds :=
  ⟨h.keyed, .of_map Identity.ofKey (by rw [List.map_map]; exact h.distinct)⟩

/-- Every root row has a tree of its own among those that a scan fetches. -/
theorem forall₂_trees : List.Forall₂ (fun row tree => tree.row = row ∧ tree.ReadFrom db job.plan)
    (job.plan.rootRows db) (job.scannedTrees db) :=
  Plan.forall₂_scannedTrees h.fits (Nat.lt_of_lt_of_le Nat.zero_lt_one (Nat.le_max_right _ _))

theorem forall₂_derived : List.Forall₂ (fun tree d => job.plan.compile job.options.index tree = .ok d)
    (job.scannedTrees db) (job.derived db) := by
  refine forall₂_documents fun tree htree => ?_
  have hrow : tree.row ∈ job.plan.node.rowsIn db := by
    rw [← Plan.mem_rootRows, ← RowTree.map_row_eq h.forall₂_trees]
    exact List.mem_map_of_mem htree
  refine List.any_eq_false.mpr fun v hv => ?_
  obtain ⟨kind, hkind⟩ := ValueKind.exists_has_of_mem (h.keyed _ hrow) hv
  simp [hkind.isNull]

/-- The documents have the identities of the root rows. -/
theorem map_identity_derived : ((job.derived db).map Document.identity).Perm
    ((job.plan.node.rowsIn db).map job.plan.node.identityOf) := by
  rw [map_identity_of_forall₂ h.forall₂_derived, RowTree.map_row_eq h.forall₂_trees]
  exact (PlanNode.rowsWhere_all_perm _).map _

theorem nodup_derived : ((job.derived db).map Document.identity).Nodup :=
  h.map_identity_derived.nodup_iff.mpr h.distinct

end Derivable

/-- What a job of a plan finds before it resyncs: roots that it can derive, from a database which nobody
is writing to, a sink that lists identities, and a session that has nothing open. -/
structure Resyncable (wiring : Wiring) (kinds : List ValueKind) (job : Job) (s : Site) : Prop
    extends Derivable kinds job s.1.database where
  plain : wiring.Plain
  enumerates : (s.1.sink wiring.sink).enumerates = true
  pending : s.2.pending = []
  writes : (s.1.buffer wiring.buffer).writes = []

namespace Resyncable

variable (h : Resyncable wiring kinds job s)

include h

/-- A job that earlier cycles left can re-derive every root. -/
theorem poised {plan : Plan} {opts : SyncOptions} (hpast : Past plan opts wiring.sink job s.1) :
    Poised (job.Compares s.1.database (s.1.sink wiring.sink))
      (Document.textAt (job.derived s.1.database)) wiring kinds job s := by
  have htended := hpast.tended
  have hindex : job.writer.index = job.options.index := by rw [htended.index, htended.options]
  refine ⟨⟨hindex, htended.rejected, fun identity digest hdigest => ?_⟩,
    ⟨h.plain, h.pending, h.fits, h.keyedIn⟩, h.enumerates, h.writes, fun d hd => ?_,
    fun identity hidentity => Document.textAt_eq_none hidentity⟩
  · obtain ⟨d, hstored, hd, -⟩ := htended.sound identity digest hdigest
    exact ⟨d, hstored, hd, .inl ⟨identity, hindex ▸ hstored⟩⟩
  · exact ⟨.inr hd, Document.textAt_of_mem h.nodup_derived hd⟩

end Resyncable

/-- The index holds a document for every root row, and nothing else. -/
structure InStep (job : Job) (db : Database) (sink : MemorySink) : Prop where
  /-- The root rows, in the order of their keys. -/
  rows : (job.plan.rootRows db).Perm (job.plan.node.rowsIn db)
  trees : List.Forall₂ (fun row tree => tree.row = row ∧ tree.ReadFrom db job.plan)
    (job.plan.rootRows db) (job.scannedTrees db)
  /-- Where joined columns can be compared, a tree does not depend on the page it was fetched in. -/
  alone : job.plan.ComparableIn db →
    job.scannedTrees db = (job.plan.rootRows db).map (job.plan.treeIn db)
  documents : List.Forall₂ (fun tree d => job.plan.compile job.options.index tree = .ok d)
    (job.scannedTrees db) (job.derived db)
  holds : sink.HoldsExactly job.options.index (job.derived db)

/-- An index that holds exactly what a resync derives is in step. -/
theorem Derivable.inStep {db : Database} {sink : MemorySink} (h : Derivable kinds job db)
    (hholds : sink.HoldsExactly job.options.index (job.derived db)) : InStep job db sink :=
  ⟨PlanNode.rowsWhere_all_perm _, h.forall₂_trees,
    fun hcomparable => Plan.scannedTrees_eq h.fits hcomparable
      (Nat.lt_of_lt_of_le Nat.zero_lt_one (Nat.le_max_right _ _)),
    h.forall₂_derived, hholds⟩

/-- An index in step has the text of every document that a resync derives. -/
theorem InStep.stored {db : Database} {sink : MemorySink} (h : InStep job db sink) :
    ∀ d ∈ job.derived db, (sink.storedAt job.options.index d.identity).map Document.text = some d.text :=
  fun d hd => (h.holds d.identity d.text).mpr ⟨d, hd, rfl, rfl⟩

/-- There is nothing left to do: a resync would write nothing, a receive cycle reads an empty window, and
it does not turn to the sink unless there is something in the buffer. -/
structure Settled (wiring : Wiring) (job : Job) (s : Site) : Prop where
  silent : ∀ pages, Makes (Site.Outages wiring.sink) wiring (fun call => ¬ call.Writes)
    (fullResync pages) job s
  window : ∀ {pages : Nat} {reading : Reading} {job' : Job} {s' : Site},
    Runs (Site.Outages wiring.sink) wiring (readChanges pages) job s (.ok reading) job' s' →
      reading.window.isEmpty = true
  idle : (s.1.backlog wiring.buffer).drained = [] → ∀ pages,
    Makes (Site.Outages wiring.sink) wiring (fun call => ∀ c, call ≠ .sink c) (receiveOnce pages) job s

theorem Resynced.settled {docs : Document → Prop} {want : String → Option String}
    (happart : Document.Apart docs) (h : Resynced docs want wiring kinds job s) :
    Settled wiring job s where
  silent pages := h.fullResync_makes happart pages
  window hruns := h.window_isEmpty (readChanges_aside h.writes hruns).2.2
  idle hnothing pages := h.receiveOnce_makes hnothing pages

/-- The index holds what is wanted, where the texts of documents are wanted. -/
theorem Stored.holdsExactly {docs : Document → Prop} {ds : List Document}
    (hnodup : (ds.map Document.identity).Nodup)
    (h : Stored docs (Document.textAt ds) wiring kinds job s) :
    (s.1.sink wiring.sink).HoldsExactly job.options.index ds := by
  intro identity t
  rw [← h.ready.index, (h.meets identity).stored]
  exact Document.textAt_eq_some_iff hnodup

def shopOptions : SyncOptions := ⟨"categories", "shop", 1, 10, 0, .none⟩

def shopJob : Job := .ofPlan shopPlan shopOptions

def shopWiring : Wiring := ⟨"", "main", "marks", [], false, false, false⟩

def goneCategory : Document := ⟨"9", "categories", [("id", .ofNat 9)]⟩

def shopSite : Site :=
  ({ shop with
    sinks := [("main", { MemorySink.empty true true with
      indices := [("categories", [("9", goneCategory)])] })]
    stores := [("marks", [])] }, [])

theorem shop_apart :
    Document.Apart (shopJob.Compares shopDatabase (shopSite.1.sink "main")) := by
  have hmem {d : Document} (h : shopJob.Compares shopDatabase (shopSite.1.sink "main") d) :
      d ∈ goneCategory :: shopJob.derived shopDatabase := by
    rcases h with ⟨identity, hstored⟩ | hderived
    · have hgone : (identity, d) ∈ [("9", goneCategory)] := Keyed.mem_of_get? hstored
      obtain ⟨-, rfl⟩ := Prod.mk.inj (List.mem_singleton.mp hgone)
      exact List.mem_cons_self
    · exact List.mem_cons_of_mem _ hderived
  have hdigests : ∀ d ∈ goneCategory :: shopJob.derived shopDatabase,
      ∀ d' ∈ goneCategory :: shopJob.derived shopDatabase, d.digest = d'.digest →
        d.text = d'.text := by decide +kernel
  exact fun d d' hd hd' => hdigests d (hmem hd) d' (hmem hd')

def libraryShelf : Table := ⟨"shelf", [⟨"id", "integer"⟩, ⟨"code", "text"⟩], ["id"], []⟩

def libraryBook : Table :=
  ⟨"book", [⟨"isbn", "text"⟩, ⟨"shelf_code", "text"⟩], ["isbn"],
    [⟨["shelf_code"], "shelf", ["code"]⟩]⟩

def librarySchema : Schema := .ofTables [libraryShelf, libraryBook]

theorem librarySchema_wellFormed : librarySchema.WellFormed :=
  Schema.wellFormed_of_entries (by decide)

def shelfRow (id : Nat) (code : Json) : StoredRow := ⟨[("id", .ofNat id), ("code", code)], 1⟩

def library : Database :=
  { Database.empty librarySchema with
    tables :=
      [("shelf", (List.range 500).map (fun i => shelfRow i (.ofNat i)) ++
          [shelfRow 500 (.string "0")]),
        ("book", [⟨[("isbn", .string "a"), ("shelf_code", .ofNat 0)], 1⟩])] }

def libraryNode : Node := ⟨"shelf", [], [], none, [⟨"book", [], [], none, []⟩]⟩

def shelfJoin : Join := ⟨.oneToMany, ["code"], ["shelf_code"]⟩

def bookNode : PlanNode :=
  ⟨"book", none, ["isbn", "shelf_code"], [], ["isbn", "shelf_code"], ["isbn"], some shelfJoin⟩

def libraryPlan : Plan :=
  ⟨⟨"shelf", none, ["id", "code"], [], ["id", "code"], ["id"], none⟩, [⟨bookNode, []⟩]⟩

/-- The number of a shelf by its code. -/
def shelfNumber : List Json → Nat
  | [.number (.integer i)] => if i < (1 <<< 63 : Nat) then i.toNat else 500
  | _ => 500

theorem shelfNumber_eq_of_keyText_eq {key key' : List Json}
    (h : Fetch.keyText key = Fetch.keyText key') : shelfNumber key = shelfNumber key' := by
  have hinteger {key key' : List Json} (h : Fetch.keyText key = Fetch.keyText key')
      (hne : shelfNumber key ≠ 500) : key' = key := by
    unfold shelfNumber at hne
    split at hne
    · rename_i i
      split at hne
      · rename_i hi
        have hkind : ValueKind.integer.Has (.number (.integer i)) := ⟨i, rfl, hi⟩
        have htexts := Json.map_render_eq_of_keyText_eq h
        have hlength := congrArg List.length htexts
        rw [List.length_map, List.length_map] at hlength
        obtain ⟨v, rfl⟩ := List.length_eq_one_iff.mp hlength.symm
        rw [hkind.eq_of_render_eq (List.cons.inj htexts).1]
      · exact absurd rfl hne
    · exact absurd rfl hne
  by_cases hkey : shelfNumber key = 500
  · by_cases hkey' : shelfNumber key' = 500
    · rw [hkey, hkey']
    · rw [hinteger h.symm hkey']
  · rw [hinteger h hkey]

/-- The codes of the shelves, in the order in which a scan visits them. -/
def shelfCodes : List (List Json) := (libraryPlan.rootRows library).map (·.tuple ["code"])

theorem distinctKeys_shelfCodes : Fetch.distinctKeys shelfCodes = shelfCodes := by
  have hnumbers : shelfCodes.map shelfNumber = List.range 501 := by decide +kernel
  have hnulls : shelfCodes.all (fun key => !key.any Json.isNull) = true := by decide +kernel
  have hnodup : (shelfCodes.map shelfNumber).Nodup := by
    rw [hnumbers]
    exact List.nodup_range
  refine Fetch.distinctKeys_eq ?_ fun key hkey => by simpa using List.all_eq_true.mp hnulls key hkey
  refine List.pairwise_map.mpr ((List.pairwise_map.mp hnodup).imp fun hne htext => ?_)
  exact hne (shelfNumber_eq_of_keyText_eq htext)

end Job

end DocSync
