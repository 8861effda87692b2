import DocSync.Proofs.Document.Fetch
import DocSync.Proofs.Json.Kinds
import Mathlib.Data.List.Nodup
import Mathlib.Data.List.Sort

/-!
Fetching as a plain nested join.  Where the keys of each table and the two sides of each join hold
values of one kind, the trees that a fetch attaches in batches are those that each row gets on its own:
at every node the rows joined to it, each once, in the order of their keys.
-/

namespace DocSync

open ValueKind (HasAll Admits AdmitsAll)

/-- The rows of a node have keys of the given kinds, no two the same. -/
structure PlanNode.KeyedIn (db : Database) (node : PlanNode) (kinds : List ValueKind) : Prop where
  keyed : ∀ row ∈ node.rowsIn db, HasAll kinds (row.tuple node.primaryKey)
  distinct : ((node.rowsIn db).map (·.tuple node.primaryKey)).Nodup

/-- Both sides of a join hold values of the same kinds, or null. -/
def Join.ComparableIn (db : Database) (join : Join) (parent child : PlanNode) : Prop :=
  ∃ kinds : List ValueKind,
    (∀ row ∈ parent.rowsIn db, List.Forall₂ Admits kinds (row.tuple join.parent)) ∧
      ∀ row ∈ child.rowsIn db, List.Forall₂ Admits kinds (row.tuple join.child)

/-- At every node of the plan, the keys of rows and the columns of joins can be compared. -/
inductive Plan.ComparableIn (db : Database) : Plan → Prop
  | mk {node : PlanNode} {children : List Plan} {kinds : List ValueKind} : node.KeyedIn db kinds →
      (∀ child ∈ children, ComparableIn db child) →
      (∀ child ∈ children, ∀ join, child.node.join = some join →
        join.ComparableIn db node child.node) →
      ComparableIn db ⟨node, children⟩

/-- At every node of the plan the key columns hold values of one kind each, or null, and so do the
columns on both sides of a join. -/
inductive Plan.KindedIn (db : Database) : Plan → Prop
  | mk {node : PlanNode} {children : List Plan} {kinds : List ValueKind} :
      (∀ row ∈ node.rowsIn db, List.Forall₂ Admits kinds (row.tuple node.primaryKey)) →
      (∀ child ∈ children, KindedIn db child) →
      (∀ child ∈ children, ∀ join, child.node.join = some join →
        join.ComparableIn db node child.node) →
      KindedIn db ⟨node, children⟩

variable {db : Database} {kinds : List ValueKind}

theorem Plan.KindedIn.keys {plan : Plan} (h : plan.KindedIn db) : ∃ kinds : List ValueKind,
    ∀ row ∈ plan.node.rowsIn db, AdmitsAll kinds (row.tuple plan.node.primaryKey) := by
  obtain ⟨hkeys, -, -⟩ := h
  exact ⟨_, hkeys⟩

theorem Plan.ComparableIn.kindedIn {plan : Plan} (h : plan.ComparableIn db) : plan.KindedIn db := by
  induction h with
  | mk hkeyed _ hjoins ih => exact .mk (fun row hrow => (hkeyed.keyed row hrow).admits) ih hjoins

/-! ### Tuples of one kind -/

theorem ValueKind.keyText_eq_iff {as bs : List Json} (ha : HasAll kinds as) (hb : HasAll kinds bs) :
    Fetch.keyText as = Fetch.keyText bs ↔ as = bs := by
  refine ⟨fun h => ?_, fun h => h ▸ rfl⟩
  have htexts := Json.map_render_eq_of_keyText_eq h
  clear h
  induction ha generalizing bs with
  | nil =>
    cases hb
    rfl
  | cons ha _ ih =>
    obtain ⟨⟩ | ⟨hb, hrest⟩ := hb
    obtain ⟨hfirst, hothers⟩ := List.cons.inj htexts
    rw [ha.eq_of_render_eq hfirst, ih hrest hothers]

/-- Where the columns admit the kinds of a tuple, a row matches the tuple when it holds it. -/
theorem Filter.tupleMatches_iff {columns : List String} {row : Row} {values : List Json}
    (hrow : List.Forall₂ Admits kinds (row.tuple columns)) (hvalues : HasAll kinds values) :
    tupleMatches columns row values ↔ row.tuple columns = values := by
  induction columns generalizing kinds values with
  | nil =>
    cases hrow
    cases hvalues
    simp [tupleMatches, Row.tuple]
  | cons c rest ih =>
    obtain ⟨⟩ | ⟨hfirst, hothers⟩ := hrow
    obtain ⟨⟩ | ⟨hvalue, hvalues⟩ := hvalues
    have hrest := ih hothers hvalues
    have hmatch := hfirst.sqlMatches_iff hvalue
    rw [tupleMatches, List.zip_cons_cons, List.all_cons, Bool.and_eq_true, Row.tuple, List.map_cons,
      List.cons.injEq]
    exact and_congr hmatch hrest

/-- No row matches a tuple of its length that has a null. -/
theorem Filter.not_tupleMatches_of_null {columns : List String} {row : Row} {values : List Json}
    (hlength : columns.length = values.length) (hnull : values.any Json.isNull = true) :
    ¬ tupleMatches columns row values := by
  induction columns generalizing values with
  | nil =>
    obtain rfl : values = [] := List.eq_nil_of_length_eq_zero hlength.symm
    simp at hnull
  | cons c rest ih =>
    cases values with
    | nil => simp at hlength
    | cons v values =>
      rw [tupleMatches, List.zip_cons_cons, List.all_cons, Bool.and_eq_true]
      rw [List.any_cons, Bool.or_eq_true] at hnull
      rintro ⟨hfirst, hrest⟩
      rcases hnull with hnull | hnull
      · simp [Json.sqlMatches, hnull] at hfirst
      · exact ih (by simpa using hlength) hnull hrest

/-! ### Rows in key order -/

/-- One row does not come after another in the order of their keys. -/
def Row.NotAfter (primaryKey : List String) (a b : Row) : Prop :=
  Json.compareTuples (a.tuple primaryKey) (b.tuple primaryKey) ≠ .gt

namespace Fetch

variable {primaryKey : List String} {rows : List Row}

theorem keyOrder_total (primaryKey : List String) (rows : List Row) :
    ∀ a ∈ rows, ∀ b ∈ rows, (Json.compareTuples (a.tuple primaryKey) (b.tuple primaryKey) != .gt) = true ∨
      (Json.compareTuples (b.tuple primaryKey) (a.tuple primaryKey) != .gt) = true := by
  intro a _ b _
  simp only [bne_iff_ne]
  exact Json.compareTuples_le_total _ _

theorem keyOrder_trans (hrows : ∀ row ∈ rows, AdmitsAll kinds (row.tuple primaryKey)) :
    ∀ a ∈ rows, ∀ b ∈ rows, ∀ c ∈ rows,
      (Json.compareTuples (a.tuple primaryKey) (b.tuple primaryKey) != .gt) = true →
      (Json.compareTuples (b.tuple primaryKey) (c.tuple primaryKey) != .gt) = true →
      (Json.compareTuples (a.tuple primaryKey) (c.tuple primaryKey) != .gt) = true := by
  intro a ha b hb c hc
  simp only [bne_iff_ne]
  exact ValueKind.compareTuples_le_trans (hrows a ha) (hrows b hb) (hrows c hc)

/-- Rows that are sorted by key are in the order of their keys. -/
theorem inKeyOrder_pairwise (hrows : ∀ row ∈ rows, AdmitsAll kinds (row.tuple primaryKey)) :
    (inKeyOrder primaryKey rows).Pairwise (Row.NotAfter primaryKey) :=
  (sortStable_pairwise (keyOrder_total _ _) (keyOrder_trans hrows)).imp fun hle => by
    simpa [Row.NotAfter] using hle

theorem filter_inKeyOrder (hrows : ∀ row ∈ rows, AdmitsAll kinds (row.tuple primaryKey))
    (p : Row → Bool) : (inKeyOrder primaryKey rows).filter p = inKeyOrder primaryKey (rows.filter p) :=
  filter_sortStable (keyOrder_total _ _) (keyOrder_trans hrows) p

theorem inKeyOrder_of_pairwise (h : rows.Pairwise (Row.NotAfter primaryKey)) :
    inKeyOrder primaryKey rows = rows :=
  sortStable_of_pairwise (h.imp fun hle => by simpa [Row.NotAfter] using hle)

end Fetch

namespace PlanNode

variable {node : PlanNode} {rows : List Row}

theorem KeyedIn.nodup (h : node.KeyedIn db kinds) : (node.rowsIn db).Nodup := h.distinct.of_map _

theorem KeyedIn.eq_of_tuple_eq (h : node.KeyedIn db kinds) {a b : Row} (ha : a ∈ node.rowsIn db)
    (hb : b ∈ node.rowsIn db) (heq : a.tuple node.primaryKey = b.tuple node.primaryKey) : a = b :=
  List.inj_on_of_nodup_map h.distinct ha hb heq

/-- A select in key order reads the accepted rows, sorts them and cuts them to what the node fetches. -/
theorem rowsWhere_eq {schema : Schema} {t : Table} (hfits : node.Fits schema t) (filter : Filter) :
    node.rowsWhere db filter node.primaryKey =
      (Fetch.inKeyOrder node.primaryKey
        ((Database.visibleRows db.tables node.table).filter filter.accepts)).map
          (Database.project node.fetchColumns) := by
  have hempty : node.primaryKey.isEmpty = false := by simpa using hfits.keyed
  simp only [rowsWhere, Database.chosenRows, hempty, Bool.false_eq_true, if_false, Fetch.inKeyOrder]

theorem Fits.tuple_key {schema : Schema} {t : Table} (hfits : node.Fits schema t) (row : Row) :
    (Database.project node.fetchColumns row).tuple node.primaryKey = row.tuple node.primaryKey :=
  Row.tuple_project hfits.keyFetched

theorem Fits.admits_visible {schema : Schema} {t : Table} (hfits : node.Fits schema t)
    (hkeys : ∀ row ∈ node.rowsIn db, AdmitsAll kinds (row.tuple node.primaryKey)) :
    ∀ row ∈ Database.visibleRows db.tables node.table, AdmitsAll kinds (row.tuple node.primaryKey) := by
  intro row hrow
  rw [← hfits.tuple_key row]
  exact hkeys _ (List.mem_map_of_mem hrow)

/-- What a select in key order reads is in key order. -/
theorem Fits.rowsWhere_pairwise {schema : Schema} {t : Table} (hfits : node.Fits schema t)
    (hkeys : ∀ row ∈ node.rowsIn db, AdmitsAll kinds (row.tuple node.primaryKey)) (filter : Filter) :
    (node.rowsWhere db filter node.primaryKey).Pairwise (Row.NotAfter node.primaryKey) := by
  have hvisible : ∀ row ∈ (Database.visibleRows db.tables node.table).filter filter.accepts,
      AdmitsAll kinds (row.tuple node.primaryKey) :=
    fun row hrow => hfits.admits_visible hkeys row (List.mem_filter.mp hrow).1
  rw [rowsWhere_eq hfits, List.pairwise_map]
  exact (Fetch.inKeyOrder_pairwise hvisible).imp fun hle => by
    rwa [Row.NotAfter, hfits.tuple_key, hfits.tuple_key]

theorem KeyedIn.rowsWhere_pairwise {schema : Schema} {t : Table} (hfits : node.Fits schema t)
    (h : node.KeyedIn db kinds) (filter : Filter) :
    (node.rowsWhere db filter node.primaryKey).Pairwise (Row.NotAfter node.primaryKey) :=
  hfits.rowsWhere_pairwise (fun row hrow => (h.keyed row hrow).admits) filter

/-- Lists of the same rows in key order are the same. -/
theorem KeyedIn.eq_of_pairwise (h : node.KeyedIn db kinds) {rows' : List Row}
    (hrows : ∀ row ∈ rows, row ∈ node.rowsIn db) (hmem : ∀ row, row ∈ rows ↔ row ∈ rows')
    (hnodup : rows.Nodup) (hnodup' : rows'.Nodup)
    (hsorted : rows.Pairwise (Row.NotAfter node.primaryKey))
    (hsorted' : rows'.Pairwise (Row.NotAfter node.primaryKey)) : rows = rows' := by
  have hperm : rows.Perm rows' := (List.perm_ext_iff_of_nodup hnodup hnodup').mpr hmem
  refine hperm.eq_of_pairwise (fun a b ha hb hab hba => ?_) hsorted hsorted'
  have ha := hrows a ha
  have hb := hrows b ((hmem b).mpr hb)
  exact h.eq_of_tuple_eq ha hb
    (ValueKind.compareTuples_le_antisymm (h.keyed a ha).admits (h.keyed b hb).admits hab hba)

theorem nodup_rowsWhere (h : node.KeyedIn db kinds) {columns : List String} {tuples : List (List Json)}
    (hcolumns : ∀ c ∈ columns, c ∈ node.fetchColumns) (orderBy : List String) :
    (node.rowsWhere db (.among columns tuples) orderBy).Nodup :=
  (rowsWhere_perm hcolumns orderBy).nodup_iff.mpr (h.nodup.filter _)

end PlanNode

/-- The rows of a child node that hang from a row, in the order of their keys. -/
def PlanNode.joinedRows (db : Database) (child : PlanNode) (join : Join) (above : Row) : List Row :=
  child.rowsWhere db (.key join.child (above.tuple join.parent)) child.primaryKey

namespace Fetch

/-! ### Distinct keys -/

theorem mem_keys_of_mem {m : Keyed (List Json)} {entry : String × List Json} (h : entry ∈ m) :
    m.contains entry.1 = true := by
  induction m with
  | nil => simp at h
  | cons first rest ih =>
    obtain ⟨k, v⟩ := first
    by_cases hk : k = entry.1
    · simp [Keyed.contains, Keyed.get?, hk]
    · rcases List.mem_cons.mp h with rfl | h
      · exact absurd rfl hk
      · simpa [Keyed.contains, Keyed.get?, hk] using ih h

/-- Distinct keys have distinct texts. -/
theorem distinctKeys_pairwise (keys : List (List Json)) :
    (distinctKeys keys).Pairwise fun a b => keyText a ≠ keyText b := by
  have hfold : ∀ (keys : List (List Json)) (kept : Keyed (List Json)),
      (∀ entry ∈ kept, entry.1 = keyText entry.2) →
      kept.Pairwise (fun a b => keyText a.2 ≠ keyText b.2) →
      (keptKeys keys kept).Pairwise fun a b => keyText a.2 ≠ keyText b.2 := by
    intro keys
    induction keys with
    | nil => exact fun _ _ h => h
    | cons key rest ih =>
      intro kept htexts hpairwise
      rw [keptKeys, List.foldl_cons, ← keptKeys]
      dsimp only
      split
      · exact ih kept htexts hpairwise
      · rename_i hnew
        refine ih _ (fun entry hentry => ?_) ?_
        · rcases List.mem_append.mp hentry with hentry | hentry
          · exact htexts entry hentry
          · rw [List.mem_singleton.mp hentry]
        · refine List.pairwise_append.mpr ⟨hpairwise, List.pairwise_singleton _ _, ?_⟩
          intro entry hentry other hother heq
          rw [List.mem_singleton.mp hother] at heq
          refine hnew ?_
          rw [← heq, ← htexts entry hentry]
          exact mem_keys_of_mem hentry
  rw [distinctKeys, Keyed.values, List.pairwise_map]
  exact hfold _ [] (by simp) List.Pairwise.nil

theorem nodup_distinctKeys (keys : List (List Json)) : (distinctKeys keys).Nodup :=
  (distinctKeys_pairwise keys).imp fun hne heq => hne (congrArg keyText heq)

/-! ### Rows found in batches -/

section

variable {parent child : PlanNode} {join : Join} {parents : List Row}

/-- A row of the child node matches a key of a parent row when it hangs from that row. -/
theorem tupleMatches_iff_joins (hfits : join.Fits parent child)
    (hjoin : join.ComparableIn db parent child) {above row : Row} (habove : above ∈ parent.rowsIn db)
    (hrow : row ∈ child.rowsIn db) :
    Filter.tupleMatches join.child row (above.tuple join.parent) ↔ join.Joins above row := by
  obtain ⟨kinds, hparent, hchild⟩ := hjoin
  cases hnull : (above.tuple join.parent).any Json.isNull with
  | true =>
    have hlength : join.child.length = (above.tuple join.parent).length := by
      rw [Row.length_tuple, hfits.length]
    refine iff_of_false (Filter.not_tupleMatches_of_null hlength hnull) fun hjoins => ?_
    rw [← any_isNull_of_keyText_eq hjoins.text, hjoins.present] at hnull
    contradiction
  | false =>
    have habove := ValueKind.hasAll_of_admits (hparent above habove) hnull
    rw [Filter.tupleMatches_iff (hchild row hrow) habove]
    constructor
    · intro heq
      exact ⟨congrArg keyText heq, heq ▸ hnull⟩
    · intro hjoins
      have hrow := ValueKind.hasAll_of_admits (hchild row hrow) hjoins.present
      exact (ValueKind.keyText_eq_iff hrow habove).mp hjoins.text

/-- A row that one query of a batch reads holds a key of the query. -/
theorem accepts_chunk_iff {row : Row} {chunk : List (List Json)}
    (hrow : AdmitsAll kinds (row.tuple join.child)) (hchunk : ∀ key ∈ chunk, HasAll kinds key) :
    (Filter.among join.child chunk).accepts row = true ↔ row.tuple join.child ∈ chunk := by
  simp only [Filter.accepts, List.any_eq_true]
  constructor
  · rintro ⟨key, hkey, hmatches⟩
    rwa [(Filter.tupleMatches_iff hrow (hchunk key hkey)).mp hmatches]
  · intro hmem
    exact ⟨_, hmem, (Filter.tupleMatches_iff hrow (hchunk _ hmem)).mpr rfl⟩

/-- Of the rows that a query reads, those with the text of a key are the ones that a query for this key alone
reads, where the key is among those asked for. -/
theorem filter_chunk_of_mem {schema : Schema} {t : Table} (hchild : child.Fits schema t)
    (hfetched : ∀ c ∈ join.child, c ∈ child.fetchColumns)
    (hkeys : ∀ row ∈ child.rowsIn db, AdmitsAll kinds (row.tuple child.primaryKey))
    {joinKinds : List ValueKind} (hrows : ∀ row ∈ child.rowsIn db, AdmitsAll joinKinds (row.tuple join.child))
    {chunk : List (List Json)} (hchunk : ∀ key ∈ chunk, HasAll joinKinds key) {key : List Json}
    (hmem : key ∈ chunk) :
    (child.rowsWhere db (.among join.child chunk) child.primaryKey).filter
        (fun row => keyText (row.tuple join.child) = keyText key) =
      child.rowsWhere db (.key join.child key) child.primaryKey := by
  have hvisible := hchild.admits_visible hkeys
  rw [PlanNode.rowsWhere_eq hchild, PlanNode.rowsWhere_eq hchild, List.filter_map,
    filter_inKeyOrder fun row hrow => hvisible row (List.mem_filter.mp hrow).1, List.filter_filter]
  refine congrArg (fun rows => (inKeyOrder _ rows).map _) (List.filter_congr fun row hrow => ?_)
  have hproject : Row.tuple (Database.project child.fetchColumns row) join.child = row.tuple join.child :=
    Row.tuple_project hfetched
  have hrow : AdmitsAll joinKinds (row.tuple join.child) := hproject ▸ hrows _ (List.mem_map_of_mem hrow)
  have hkey := hchunk key hmem
  rw [Bool.eq_iff_iff, Bool.and_eq_true, accepts_chunk_iff hrow hchunk, Function.comp_apply, hproject,
    decide_eq_true_iff, Filter.key, accepts_chunk_iff hrow (by simpa using hkey), List.mem_singleton]
  constructor
  · rintro ⟨htext, hmem⟩
    exact (ValueKind.keyText_eq_iff (hchunk _ hmem) hkey).mp htext
  · intro heq
    rw [heq]
    exact ⟨rfl, hmem⟩

/-- No other query reads a row with the text of the key. -/
theorem filter_chunk_of_not_mem (hfetched : ∀ c ∈ join.child, c ∈ child.fetchColumns)
    {joinKinds : List ValueKind} (hrows : ∀ row ∈ child.rowsIn db, AdmitsAll joinKinds (row.tuple join.child))
    {chunk : List (List Json)} (hchunk : ∀ key ∈ chunk, HasAll joinKinds key) {key : List Json}
    (hkey : AdmitsAll joinKinds key) (hmem : key ∉ chunk) (orderBy : List String) :
    (child.rowsWhere db (.among join.child chunk) orderBy).filter
        (fun row => keyText (row.tuple join.child) = keyText key) = [] := by
  refine List.filter_eq_nil_iff.mpr fun row hrow htext => ?_
  obtain ⟨hin, haccepts⟩ := (PlanNode.mem_rowsWhere hfetched).mp hrow
  have hheld := (accepts_chunk_iff (hrows row hin) hchunk).mp haccepts
  have htext : keyText (row.tuple join.child) = keyText key := by simpa using htext
  have hnull : key.any Json.isNull = false := by
    rw [← any_isNull_of_keyText_eq htext]
    exact (hchunk _ hheld).any_isNull
  have heq := (ValueKind.keyText_eq_iff (hchunk _ hheld) (ValueKind.hasAll_of_admits hkey hnull)).mp htext
  exact hmem (heq ▸ hheld)

/-- Where one chunk only has an item, the others add nothing. -/
theorem flatMap_eq_of_mem_one {α β : Type} {pieces : List (List α)} (hnodup : pieces.flatten.Nodup) {item : α}
    (hmem : item ∈ pieces.flatten) {f : List α → List β} {out : List β}
    (hin : ∀ piece ∈ pieces, item ∈ piece → f piece = out)
    (hout : ∀ piece ∈ pieces, item ∉ piece → f piece = []) : pieces.flatMap f = out := by
  induction pieces with
  | nil => simp at hmem
  | cons piece rest ih =>
    rw [List.flatten_cons] at hnodup hmem
    obtain ⟨-, hrest, hdisjoint⟩ := List.nodup_append'.mp hnodup
    obtain ⟨hinFirst, hinRest⟩ := List.forall_mem_cons.mp hin
    obtain ⟨houtFirst, houtRest⟩ := List.forall_mem_cons.mp hout
    rw [List.flatMap_cons]
    rcases List.mem_append.mp hmem with hfirst | hlater
    · have hothers : rest.flatMap f = [] := List.flatMap_eq_nil_iff.mpr fun other hother =>
        houtRest other hother fun hitem => hdisjoint hfirst (List.mem_flatten_of_mem hother hitem)
      rw [hinFirst hfirst, hothers, List.append_nil]
    · rw [houtFirst fun hitem => hdisjoint hitem hlater, ih hrest hlater hinRest houtRest, List.nil_append]

/-- Of the rows found for all parents, those with the text of one parent are the ones that hang from it. -/
theorem filter_foundRows {schema : Schema} {t : Table} {allowed : String → Prop}
    (hchild : child.Fits schema t) (hspans : join.Spans allowed parent child)
    (hjoin : join.ComparableIn db parent child)
    (hkeys : ∀ row ∈ child.rowsIn db, AdmitsAll kinds (row.tuple child.primaryKey))
    (hparents : ∀ row ∈ parents, row ∈ parent.rowsIn db) {above : Row} (habove : above ∈ parents) :
    (foundRows db child join parents).filter
        (fun row => keyText (row.tuple join.child) = keyText (above.tuple join.parent)) =
      child.joinedRows db join above := by
  obtain ⟨joinKinds, hparentKinds, hchildKinds⟩ := hjoin
  have hfetched : ∀ c ∈ join.child, c ∈ child.fetchColumns := fun c hc => (hspans.child c hc).1
  have hdistinct : ∀ key ∈ distinctKeys (parents.map (·.tuple join.parent)), HasAll joinKinds key := by
    intro key hkey
    obtain ⟨hmem, hnull⟩ := mem_distinctKeys hkey
    obtain ⟨other, hother, rfl⟩ := List.mem_map.mp hmem
    exact ValueKind.hasAll_of_admits (hparentKinds other (hparents other hother)) hnull
  have hflat := flatten_chunks (show 0 < keyChunk by decide)
    (distinctKeys (parents.map (·.tuple join.parent)))
  have hchunks : ∀ chunk ∈ chunks keyChunk (distinctKeys (parents.map (·.tuple join.parent))),
      ∀ key ∈ chunk, HasAll joinKinds key := fun chunk hchunk key hkey =>
    hdistinct key (hflat ▸ List.mem_flatten_of_mem hchunk hkey)
  have hadmits := hparentKinds above (hparents above habove)
  rw [foundRows, List.filter_flatMap]
  cases hnull : (above.tuple join.parent).any Json.isNull with
  | false =>
    have hkey := ValueKind.hasAll_of_admits hadmits hnull
    obtain ⟨key, hmem, htext⟩ :=
      exists_mem_distinctKeys (List.mem_map_of_mem (f := (·.tuple join.parent)) habove) hnull
    obtain rfl := (ValueKind.keyText_eq_iff (hdistinct key hmem) hkey).mp htext
    have hnodup : (chunks keyChunk (distinctKeys (parents.map (·.tuple join.parent)))).flatten.Nodup := by
      rw [hflat]
      exact nodup_distinctKeys _
    refine flatMap_eq_of_mem_one hnodup (hflat.symm ▸ hmem) ?_ ?_
    · exact fun chunk hchunk hin => filter_chunk_of_mem hchild hfetched hkeys hchildKinds (hchunks chunk hchunk) hin
    · exact fun chunk hchunk hout =>
        filter_chunk_of_not_mem hfetched hchildKinds (hchunks chunk hchunk) hadmits hout _
  | true =>
    have hmissing : above.tuple join.parent ∉ distinctKeys (parents.map (·.tuple join.parent)) := fun hmem =>
      absurd (mem_distinctKeys hmem).2 (by simp [hnull])
    have hnone : child.joinedRows db join above = [] := by
      refine List.eq_nil_iff_forall_not_mem.mpr fun row hrow => ?_
      obtain ⟨-, haccepts⟩ := (PlanNode.mem_rowsWhere hfetched).mp hrow
      refine Filter.not_tupleMatches_of_null ?_ hnull (by simpa [Filter.accepts] using haccepts)
      rw [Row.length_tuple, hspans.length]
    rw [hnone]
    refine List.flatMap_eq_nil_iff.mpr fun chunk hchunk => ?_
    refine filter_chunk_of_not_mem hfetched hchildKinds (hchunks chunk hchunk) hadmits (fun hmem => ?_) _
    exact hmissing (hflat ▸ List.mem_flatten_of_mem hchunk hmem)

theorem mem_rowsIn_of_mem_foundRows (hfetched : ∀ c ∈ join.child, c ∈ child.fetchColumns) {row : Row}
    (hrow : row ∈ foundRows db child join parents) : row ∈ child.rowsIn db := by
  obtain ⟨chunk, -, hrow⟩ := List.mem_flatMap.mp hrow
  exact ((PlanNode.mem_rowsWhere hfetched).mp hrow).1

end

end Fetch

/-! ### Trees of single rows -/

namespace Plan

mutual

/-- The tree that a row of a node gets on its own. -/
def treeIn (db : Database) : Plan → Row → RowTree
  | ⟨_, children⟩, row => ⟨row, slotsIn db children row⟩

/-- The trees under a row, slot by slot. -/
def slotsIn (db : Database) : List Plan → Row → List (List RowTree)
  | [], _ => []
  | child :: rest, row =>
    (match child.node.join with
      | none => []
      | some join => (child.node.joinedRows db join row).map (treeIn db child))
      :: slotsIn db rest row

end

theorem treeIn_row (db : Database) (plan : Plan) (row : Row) : (plan.treeIn db row).row = row := by
  obtain ⟨node, children⟩ := plan
  rw [treeIn]

end Plan

namespace PlanNode

variable {parent child : PlanNode} {join : Join}

theorem mem_joinedRows (hfits : join.Fits parent child) (hjoin : join.ComparableIn db parent child)
    {above row : Row} (habove : above ∈ parent.rowsIn db) :
    row ∈ child.joinedRows db join above ↔ row ∈ child.rowsIn db ∧ join.Joins above row := by
  rw [joinedRows, Filter.key, mem_rowsWhere fun c hc => (hfits.child c hc).1]
  refine and_congr_right fun hrow => ?_
  rw [← Fetch.tupleMatches_iff_joins hfits hjoin habove hrow]
  simp [Filter.accepts]

end PlanNode

namespace Fetch

theorem consSlot_map (rows : List Row) (slot : Row → List RowTree)
    (slots : Row → List (List RowTree)) :
    consSlot (rows.map slot) (rows.map slots) = rows.map fun row => slot row :: slots row := by
  rw [consSlot, List.zipWith_map, List.zipWith_self]

variable {allowed : String → Prop}

theorem attached_eq_of_slots {plan : Plan} {rows : List Row}
    (h : attachedSlots db plan.children rows = rows.map (Plan.slotsIn db plan.children)) :
    attached db plan rows = rows.map (plan.treeIn db) := by
  obtain ⟨node, children⟩ := plan
  rw [attached, h, List.zipWith_map_right, List.zipWith_self]
  refine List.map_congr_left fun row _ => ?_
  rw [Plan.treeIn]

mutual

/-- In batches every row gets the tree that it gets on its own. -/
theorem attached_eq : ∀ {plan : Plan}, plan.Joined db.schema allowed → plan.KindedIn db →
    ∀ {rows : List Row}, (∀ row ∈ rows, row ∈ plan.node.rowsIn db) →
      attached db plan rows = rows.map (plan.treeIn db)
  | ⟨node, children⟩, hplan, hkinds, rows, hrows => by
    obtain ⟨-, hkinded, hjoins⟩ := hkinds
    exact attached_eq_of_slots (attachedSlots_eq (fun child hchild => hplan.child hchild)
      (fun child hchild => ⟨hkinded child hchild, hjoins child hchild⟩) hrows)

theorem attachedSlots_eq {parent : PlanNode} : ∀ {children : List Plan},
    (∀ child ∈ children, child.Joined db.schema allowed ∧
      ∃ join, child.node.join = some join ∧ join.Spans allowed parent child.node) →
    (∀ child ∈ children, child.KindedIn db ∧
      ∀ join, child.node.join = some join → join.ComparableIn db parent child.node) →
    ∀ {rows : List Row}, (∀ row ∈ rows, row ∈ parent.rowsIn db) →
      attachedSlots db children rows = rows.map (Plan.slotsIn db children)
  | [], _, _, rows, _ => by
    rw [attachedSlots]
    refine List.map_congr_left fun row _ => ?_
    rw [Plan.slotsIn]
  | child :: rest, h, hkinds, rows, hrows => by
    obtain ⟨⟨hchild, join, hjoin, hspans⟩, hothers⟩ := List.forall_mem_cons.mp h
    obtain ⟨⟨hkinded, hjoins⟩, hrest⟩ := List.forall_mem_cons.mp hkinds
    obtain ⟨t, hnode⟩ := hchild.node
    obtain ⟨kinds, hkeys⟩ := hkinded.keys
    have hfound : ∀ row ∈ foundRows db child.node join rows, row ∈ child.node.rowsIn db :=
      fun row hrow => mem_rowsIn_of_mem_foundRows (fun c hc => (hspans.child c hc).1) hrow
    have hsorted : ∀ row ∈ inKeyOrder child.node.primaryKey (foundRows db child.node join rows),
        row ∈ child.node.rowsIn db := fun row hrow => hfound row (mem_sortStable.mp hrow)
    have htrees := attached_eq hchild hkinded hsorted
    rw [attachedSlots, hjoin]
    dsimp only
    rw [attachedSlots_eq hothers hrest hrows, htrees, consSlot_map]
    refine List.map_congr_left fun row hrow => ?_
    -- the trees of the level whose rows have the text of this row's key
    have hslot : (inKeyOrder child.node.primaryKey (foundRows db child.node join rows)).filter
        (fun found => keyText (found.tuple join.child) = keyText (row.tuple join.parent)) =
          child.node.joinedRows db join row := by
      rw [filter_inKeyOrder fun row hrow => hkeys row (hfound row hrow),
        filter_foundRows hnode hspans (hjoins join hjoin) hkeys hrows hrow]
      exact inKeyOrder_of_pairwise (hnode.rowsWhere_pairwise hkeys _)
    rw [Plan.slotsIn, hjoin, getD_groupByKey, List.filter_map]
    dsimp only
    rw [← hslot]
    refine congrArg (fun rows => List.map _ rows :: _) (List.filter_congr fun found _ => ?_)
    rw [Function.comp_apply, Plan.treeIn_row]

end

end Fetch

/-- A fetch of roots gives, in the order of their keys, each root that the filter accepts with the tree
that it has on its own. -/
theorem fetchRoots_gives_trees {wiring : Wiring} {w : World} (hwiring : wiring.Plain) {plan : Plan}
    (hfits : plan.Fits w.database.schema) (hplan : plan.ComparableIn w.database)
    {columns : List String} {tuples : List (List Json)}
    (hcolumns : ∀ c ∈ columns, c ∈ plan.node.fetchColumns) (hne : tuples ≠ []) :
    Attempt.Gives wiring w (fetchRoots plan (.among columns tuples))
      (.ok ((plan.node.rowsWhere w.database (.among columns tuples) plan.node.primaryKey).map
        (plan.treeIn w.database))) := by
  have hfilter : (Filter.among columns tuples).isEmpty = false := by simpa [Filter.isEmpty] using hne
  rw [← Fetch.attached_eq (Plan.fits_iff_joined.mp hfits) hplan.kindedIn fun row hrow => ((PlanNode.mem_rowsWhere hcolumns).mp hrow).1]
  exact Fetch.fetchRoots_gives hwiring (Plan.fits_iff_joined.mp hfits) hfilter

end DocSync
