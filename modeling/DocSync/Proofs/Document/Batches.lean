import DocSync.Proofs.Relation.Unique
import Mathlib.Tactic.Tauto

/-!
Batched fetching is a plain join.  A fetch asks for the distinct keys of a whole level at once, five hundred at a
time, sorts what it gets, goes on with the level below, and hands the trees out by the text of their keys.  What
comes out is described row by row: under each row, at each slot, the rows of the child's table whose joined
columns hold the row's values.
-/

namespace DocSync

open ValueKind (HasAll Admits AdmitsAll)

/-- Whether a child row belongs under a parent row: the joined columns hold the same values, and no null. -/
def Join.pairs (join : Join) (above row : Row) : Bool :=
  ((row.tuple join.child).zip (above.tuple join.parent)).all fun (value, key) =>
    !value.isNull && value.same key

/-- The rows are those of the table of a node that are picked, each once, in the order of their keys, and cut to
what the node fetches. -/
structure PlanNode.Lists (db : Database) (node : PlanNode) (picks : Row → Bool) (rows : List Row) : Prop where
  each : rows.Perm
    (((Database.visibleRows db.tables node.table).filter picks).map (Database.project node.fetchColumns))
  ordered : rows.Pairwise (Row.NotAfter node.primaryKey)

mutual

/-- Below the row of the tree, down to the leaves of the plan, stand the rows that belong there. -/
inductive RowTree.Joined (db : Database) : Plan → RowTree → Prop
  | mk {node : PlanNode} {children : List Plan} {row : Row} {slots : List (List RowTree)} :
      RowTree.SlotsJoined db children row slots → RowTree.Joined db ⟨node, children⟩ ⟨row, slots⟩

/-- Each slot lists the rows of its child's table that belong under the row, with the trees below them. -/
inductive RowTree.SlotsJoined (db : Database) : List Plan → Row → List (List RowTree) → Prop
  | nil (row : Row) : RowTree.SlotsJoined db [] row []
  | cons {child : Plan} {rest : List Plan} {join : Join} {row : Row} {slot : List RowTree}
      {slots : List (List RowTree)} : child.node.join = some join →
      child.node.Lists db (join.pairs row) (slot.map RowTree.row) →
      (∀ tree ∈ slot, RowTree.Joined db child tree) →
      RowTree.SlotsJoined db rest row slots →
      RowTree.SlotsJoined db (child :: rest) row (slot :: slots)

end

variable {db : Database} {kinds : List ValueKind} {allowed : String → Prop}

/-! ### Joined values -/

theorem ValueKind.Admits.same_iff {kind : ValueKind} {value key : Json} (hvalue : kind.Admits value) :
    (!value.isNull && value.same key) = true ↔ value.isNull = false ∧ value = key := by
  rw [Bool.and_eq_true, Bool.not_eq_true']
  refine and_congr_right fun hnull => ⟨fun hsame => ((hvalue hnull).eq_of_same (.inl hsame)).symm, ?_⟩
  rintro rfl
  cases kind with
  | text =>
    obtain ⟨s, rfl⟩ := hvalue hnull
    simp [Json.same]
  | integer =>
    obtain ⟨i, rfl, -⟩ := hvalue hnull
    simp [Json.same, Number.same]

/-- Columns of one kind are paired when the tuples are equal and without nulls. -/
theorem Join.pairs_iff {join : Join} {above row : Row} (hrow : AdmitsAll kinds (row.tuple join.child))
    (hlength : join.parent.length = join.child.length) :
    join.pairs above row = true ↔
      (row.tuple join.child).any Json.isNull = false ∧ row.tuple join.child = above.tuple join.parent := by
  have htuples : ∀ {kinds : List ValueKind} {values keys : List Json}, AdmitsAll kinds values →
      values.length = keys.length →
      ((values.zip keys).all (fun (value, key) => !value.isNull && value.same key) = true ↔
        values.any Json.isNull = false ∧ values = keys) := by
    intro kinds values keys h
    induction h generalizing keys with
    | nil =>
      intro hkeys
      obtain rfl := List.eq_nil_of_length_eq_zero hkeys.symm
      simp
    | @cons kind value kinds values hvalue _ ih =>
      intro hkeys
      cases keys with
      | nil => simp at hkeys
      | cons key keys =>
        rw [List.zip_cons_cons, List.all_cons, Bool.and_eq_true, hvalue.same_iff,
          ih (by simpa using hkeys), List.any_cons, Bool.or_eq_false_iff, List.cons.injEq]
        tauto
  exact htuples hrow (by rw [Row.length_tuple, Row.length_tuple, hlength])

/-! ### The rows of one query -/

namespace PlanNode

variable {schema : Schema} {t : Table} {node : PlanNode}

theorem Lists.subset {picks : Row → Bool} {rows : List Row} (h : node.Lists db picks rows) :
    ∀ row ∈ rows, row ∈ node.rowsIn db := by
  intro row hrow
  obtain ⟨visible, hvisible, rfl⟩ := List.mem_map.mp (h.each.mem_iff.mp hrow)
  exact List.mem_map_of_mem (List.mem_filter.mp hvisible).1

/-- A select in key order lists the rows that its filter accepts. -/
theorem Fits.lists_rowsWhere (hfits : node.Fits schema t)
    (hkeys : ∀ row ∈ node.rowsIn db, AdmitsAll kinds (row.tuple node.primaryKey)) (filter : Filter) :
    node.Lists db filter.accepts (node.rowsWhere db filter node.primaryKey) where
  each := (Database.chosenRows_perm _ _ _ _ _).map _
  ordered := hfits.rowsWhere_pairwise hkeys filter

/-- A query for the key of one parent lists the rows that belong under this parent. -/
theorem Fits.lists_joinedRows {parent : PlanNode} {join : Join} (hfits : node.Fits schema t)
    (hkeys : ∀ row ∈ node.rowsIn db, AdmitsAll kinds (row.tuple node.primaryKey))
    (hspans : join.Spans allowed parent node) (hjoin : join.ComparableIn db parent node) {above : Row}
    (habove : above ∈ parent.rowsIn db) :
    node.Lists db (join.pairs above) (node.joinedRows db join above) := by
  obtain ⟨joinKinds, hparent, hchild⟩ := hjoin
  have hsame : ∀ row ∈ Database.visibleRows db.tables node.table,
      (Filter.key join.child (above.tuple join.parent)).accepts row = join.pairs above row := by
    intro row hrow
    have hproject : Row.tuple (Database.project node.fetchColumns row) join.child = row.tuple join.child :=
      Row.tuple_project fun c hc => (hspans.child c hc).1
    have hadmits : AdmitsAll joinKinds (row.tuple join.child) :=
      hproject ▸ hchild _ (List.mem_map_of_mem hrow)
    rw [Bool.eq_iff_iff, Join.pairs_iff hadmits hspans.length]
    cases hnull : (above.tuple join.parent).any Json.isNull with
    | false =>
      have hkey := ValueKind.hasAll_of_admits (hparent above habove) hnull
      rw [Filter.key, Fetch.accepts_chunk_iff hadmits (by simpa using hkey), List.mem_singleton]
      exact ⟨fun heq => ⟨heq ▸ hnull, heq⟩, And.right⟩
    | true =>
      have hlength : join.child.length = (above.tuple join.parent).length := by
        rw [Row.length_tuple, hspans.length]
      constructor
      · intro haccepts
        exact absurd (by simpa [Filter.key, Filter.accepts] using haccepts)
          (Filter.not_tupleMatches_of_null hlength hnull)
      · rintro ⟨hpresent, heq⟩
        rw [heq, hnull] at hpresent
        contradiction
  obtain ⟨heach, hordered⟩ :=
    hfits.lists_rowsWhere hkeys (Filter.key join.child (above.tuple join.parent))
  rw [List.filter_congr hsame] at heach
  exact ⟨heach, hordered⟩

end PlanNode

/-! ### Trees -/

namespace Plan

theorem map_row_treeIn (plan : Plan) (rows : List Row) :
    (rows.map (plan.treeIn db)).map RowTree.row = rows := by
  rw [List.map_map]
  exact (List.map_congr_left fun row _ => plan.treeIn_row db row).trans (List.map_id _)

mutual

/-- The tree that a row gets by a query for its key at every slot holds the rows that belong there. -/
theorem treeIn_joined : ∀ {plan : Plan}, plan.Joined db.schema allowed → plan.KindedIn db →
    ∀ {row : Row}, row ∈ plan.node.rowsIn db → (plan.treeIn db row).Joined db plan
  | ⟨node, children⟩, hplan, hkinds, row, hrow => by
    obtain ⟨-, hkinded, hjoins⟩ := hkinds
    rw [treeIn]
    exact .mk (slotsIn_joined (fun child hchild => hplan.child hchild)
      (fun child hchild => ⟨hkinded child hchild, hjoins child hchild⟩) hrow)

theorem slotsIn_joined {parent : PlanNode} : ∀ {children : List Plan},
    (∀ child ∈ children, child.Joined db.schema allowed ∧
      ∃ join, child.node.join = some join ∧ join.Spans allowed parent child.node) →
    (∀ child ∈ children, child.KindedIn db ∧
      ∀ join, child.node.join = some join → join.ComparableIn db parent child.node) →
    ∀ {row : Row}, row ∈ parent.rowsIn db → RowTree.SlotsJoined db children row (slotsIn db children row)
  | [], _, _, row, _ => by
    rw [slotsIn]
    exact .nil row
  | child :: rest, h, hkinds, row, hrow => by
    obtain ⟨⟨hchild, join, hjoin, hspans⟩, hothers⟩ := List.forall_mem_cons.mp h
    obtain ⟨⟨hkinded, hjoins⟩, hrest⟩ := List.forall_mem_cons.mp hkinds
    obtain ⟨t, hnode⟩ := hchild.node
    obtain ⟨kinds, hkeys⟩ := hkinded.keys
    have hlists := hnode.lists_joinedRows hkeys hspans (hjoins join hjoin) hrow
    rw [slotsIn, hjoin]
    refine .cons hjoin ((map_row_treeIn child _).symm ▸ hlists) (fun tree htree => ?_)
      (slotsIn_joined hothers hrest hrow)
    obtain ⟨found, hfound, rfl⟩ := List.mem_map.mp htree
    exact treeIn_joined hchild hkinded (hlists.subset found hfound)

end

end Plan

/-- Whatever filter roots are fetched by, and however many rows and keys each level has, a fetch gives the root
rows that the filter accepts, each once and in the order of their keys, and below each of them, slot by slot
and level by level, the rows that are joined to it. -/
theorem fetchRoots_joins {wiring : Wiring} {w : World} (hwiring : wiring.Plain)
    (hschema : w.database.schema.Linked) {node : Node} {plan : Plan}
    (hplan : Plan.build node w.database.schema = .ok plan) (hkinds : plan.KindedIn w.database)
    (filter : Filter) :
    ∃ trees, Attempt.Gives wiring w (fetchRoots plan filter) (.ok trees) ∧
      plan.node.Lists w.database filter.accepts (trees.map RowTree.row) ∧
      ∀ tree ∈ trees, tree.Joined w.database plan := by
  have hjoined : plan.Joined w.database.schema fun _ => True :=
    (Plan.build_joined hschema (fun _ _ _ _ _ => trivial) hplan).1
  obtain ⟨t, hnode⟩ := hjoined.node
  obtain ⟨kinds, hkeys⟩ := hkinds.keys
  have hlists := hnode.lists_rowsWhere hkeys filter
  cases hfilter : filter.isEmpty with
  | true =>
    -- nothing is asked, and no row is accepted
    refine ⟨[], ?_, ⟨?_, .nil⟩, by simp⟩
    · rw [fetchRoots, hfilter]
      exact Attempt.gives_pure _
    · cases filter with
      | all => simp [Filter.isEmpty] at hfilter
      | among columns tuples =>
        obtain rfl : tuples = [] := by simpa [Filter.isEmpty] using hfilter
        simp [Filter.accepts]
  | false =>
    have hgives := Fetch.fetchRoots_gives hwiring hjoined hfilter
    rw [Fetch.attached_eq hjoined hkinds hlists.subset] at hgives
    refine ⟨_, hgives, (Plan.map_row_treeIn plan _).symm ▸ hlists, fun tree htree => ?_⟩
    obtain ⟨row, hrow, rfl⟩ := List.mem_map.mp htree
    exact Plan.treeIn_joined hjoined hkinds (hlists.subset row hrow)

def bookTable : Table :=
  ⟨"book", [⟨"isbn", "text"⟩, ⟨"press_id", "integer"⟩], ["isbn"], [⟨["press_id"], "press", ["id"]⟩]⟩

def pressTable : Table := ⟨"press", [⟨"id", "integer"⟩, ⟨"name", "text"⟩], ["id"], []⟩

def pressSchema : Schema := Schema.ofTables [bookTable, pressTable]

theorem pressSchema_linked : pressSchema.Linked := by
  have hwell : ∀ entry ∈ pressSchema.tables, entry.2.name = entry.1 ∧ entry.2.WellFormed pressSchema := by
    decide +kernel
  exact (Schema.wellFormed_of_entries hwell).linked

def pressPlan : Plan :=
  ⟨⟨"book", none, ["isbn", "press_id"], [], ["isbn", "press_id"], ["isbn"], none⟩,
    [⟨⟨"press", none, ["id", "name"], [], ["id", "name"], ["id"], some ⟨.manyToOne, ["press_id"], ["id"]⟩⟩, []⟩]⟩

/-- Two books of one press, and a book of none. -/
def pressDatabase : Database :=
  match (Database.empty pressSchema).commit
      [.insert "press" [("id", .ofNat 1), ("name", .string "Ace")],
        .insert "book" [("isbn", .string "b"), ("press_id", .ofNat 1)],
        .insert "book" [("isbn", .string "c")],
        .insert "book" [("isbn", .string "a"), ("press_id", .ofNat 1)]] with
  | .ok (_, _, db) => db
  | .error _ => .empty pressSchema

theorem pressPlan_kindedIn : pressPlan.KindedIn pressDatabase := by
  refine @Plan.KindedIn.mk _ _ _ [.text] (by decide +kernel) ?_ ?_
  · intro child hchild
    obtain rfl := List.mem_singleton.mp hchild
    exact @Plan.KindedIn.mk _ _ _ [.integer] (by decide +kernel) (by simp) (by simp)
  · intro child hchild join hjoin
    obtain rfl := List.mem_singleton.mp hchild
    obtain rfl := Option.some.inj hjoin
    exact ⟨[.integer], by decide +kernel, by decide +kernel⟩

def pressWorld : World := { World.empty pressSchema pressSchema "" "" with database := pressDatabase }

def pressNode : Node := ⟨"book", [], [], none, [⟨"press", [], [], none, []⟩]⟩

theorem fetchRoots_joins_presses :
    Plan.build pressNode pressWorld.database.schema = .ok pressPlan ∧
      ∃ trees, Attempt.Gives (.ofSink "main") pressWorld (fetchRoots pressPlan .all) (.ok trees) ∧
        pressPlan.node.Lists pressDatabase Filter.all.accepts (trees.map RowTree.row) ∧
        ∀ tree ∈ trees, tree.Joined pressDatabase pressPlan := by
  have hplan : Plan.build pressNode pressWorld.database.schema = .ok pressPlan := by rfl
  have hlinked : pressWorld.database.schema.Linked := pressSchema_linked
  exact ⟨hplan, fetchRoots_joins (Wiring.plain_ofSink "main") hlinked hplan pressPlan_kindedIn .all⟩

end DocSync
