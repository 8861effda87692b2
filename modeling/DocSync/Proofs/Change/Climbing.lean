import DocSync.Proofs.Change.Resolve
import DocSync.Proofs.Relation.Unique

/-!
Walking up and fetching down.  A record of a nested row is followed up the joins to the roots above it;
a fetch of a root follows the same joins down to the rows below it.  Where columns hold values of one
kind, the roots that are reached are those whose trees have the row at the node that the walk starts
from, each once.
-/

namespace DocSync

open Attempt
open ValueKind (HasAll Admits AdmitsAll)

/-! ### Places in a plan -/

/-- The node of a plan at an address, which counts children on the way down, with the nodes above it. -/
def Plan.lineTo : List PlanNode → List Nat → Plan → Option (List PlanNode)
  | above, [], plan => some (plan.node :: above)
  | above, i :: rest, plan => plan.children[i]?.bind (lineTo (plan.node :: above) rest)

/-- The rows that a tree has at an address. -/
def RowTree.rowsAt : List Nat → RowTree → List Row
  | [], tree => [tree.row]
  | i :: rest, tree => (tree.children.getD i []).flatMap (rowsAt rest)

variable {db : Database} {schema : Schema} {node parent : PlanNode} {plan : Plan} {row top : Row}
  {above path : List PlanNode} {address : List Nat}

namespace Plan

/-- A line ends at the node of the plan and what is above it. -/
theorem exists_append_of_lineTo (h : plan.lineTo above address = some path) :
    ∃ front, path = front ++ plan.node :: above := by
  induction address generalizing plan above with
  | nil => exact ⟨[], (Option.some.inj h).symm⟩
  | cons i rest ih =>
    obtain ⟨child, -, hline⟩ := Option.bind_eq_some_iff.mp h
    obtain ⟨front, rfl⟩ := ih hline
    exact ⟨front ++ [child.node], by simp⟩

/-- What children inherit holds of the plan below every address. -/
theorem exists_of_lineTo {P : Plan → Prop} (hinherit : ∀ plan, P plan → ∀ child ∈ plan.children, P child)
    (hplan : P plan) (h : plan.lineTo above address = some (node :: path)) :
    ∃ below : Plan, P below ∧ below.node = node := by
  induction address generalizing plan above with
  | nil => exact ⟨plan, hplan, (List.cons.inj (Option.some.inj h)).1⟩
  | cons i rest ih =>
    obtain ⟨child, hchild, hline⟩ := Option.bind_eq_some_iff.mp h
    exact ih (hinherit plan hplan child (List.mem_of_getElem? hchild)) hline

mutual

/-- The paths of a table are the lines to the nodes that read it. -/
theorem mem_pathsFrom_iff {table : String} : ∀ {plan : Plan} {above path : List PlanNode},
    path ∈ plan.pathsFrom table above ↔ ∃ address node rest,
      plan.lineTo above address = some path ∧ path = node :: rest ∧ node.table = table
  | ⟨node, children⟩, above, path => by
    rw [pathsFrom, List.mem_append, mem_pathsOfChildren_iff]
    constructor
    · rintro (hpath | ⟨i, child, rest, node', above', hchild, hline, rfl, htable⟩)
      · split at hpath
        · rename_i htable
          exact ⟨[], node, above, congrArg some (List.mem_singleton.mp hpath).symm,
            List.mem_singleton.mp hpath, by simpa using htable⟩
        · simp at hpath
      · exact ⟨i :: rest, node', above', by simpa [lineTo, hchild] using hline, rfl, htable⟩
    · rintro ⟨address, node', above', hline, rfl, htable⟩
      cases address with
      | nil =>
        obtain ⟨rfl, rfl⟩ := List.cons.inj (Option.some.inj hline)
        have hreads : (node.table == table) = true := beq_iff_eq.mpr htable
        exact .inl (by simp [hreads])
      | cons i rest =>
        obtain ⟨child, hchild, hline⟩ := Option.bind_eq_some_iff.mp hline
        exact .inr ⟨i, child, rest, node', above', hchild, hline, rfl, htable⟩

theorem mem_pathsOfChildren_iff {table : String} : ∀ {children : List Plan}
    {above path : List PlanNode},
    path ∈ pathsOfChildren table above children ↔
      ∃ (i : Nat) (child : Plan) (address : List Nat) (node : PlanNode) (rest : List PlanNode),
      children[i]? = some child ∧ child.lineTo above address = some path ∧
        path = node :: rest ∧ node.table = table
  | [], above, path => by simp [pathsOfChildren]
  | first :: others, above, path => by
    rw [pathsOfChildren, List.mem_append, mem_pathsFrom_iff, mem_pathsOfChildren_iff]
    constructor
    · rintro (⟨address, node, rest, h⟩ | ⟨i, child, address, node, rest, hchild, h⟩)
      · exact ⟨0, first, address, node, rest, rfl, h⟩
      · exact ⟨i + 1, child, address, node, rest, hchild, h⟩
    · rintro ⟨i, child, address, node, rest, hchild, h⟩
      cases i with
      | zero =>
        obtain rfl : first = child := by simpa using hchild
        exact .inl ⟨address, node, rest, h⟩
      | succ i => exact .inr ⟨i, child, address, node, rest, hchild, h⟩

end

theorem getElem?_slotsIn (db : Database) (children : List Plan) (row : Row) (i : Nat) :
    (slotsIn db children row)[i]? = children[i]?.map fun child =>
      match child.node.join with
      | none => []
      | some join => (child.node.joinedRows db join row).map (treeIn db child) := by
  induction children generalizing i with
  | nil => simp [slotsIn]
  | cons first others ih =>
    rw [slotsIn]
    cases i with
    | zero => rfl
    | succ i => simpa using ih i

/-- The rows below a row at an address through a child are those below the rows that hang from it. -/
theorem mem_rowsAt_cons {child : Plan} {join : Join} {i : Nat} {rest : List Nat} {found : Row}
    (hchild : plan.children[i]? = some child) (hjoin : child.node.join = some join) :
    found ∈ (plan.treeIn db row).rowsAt (i :: rest) ↔
      ∃ below ∈ child.node.joinedRows db join row, found ∈ (child.treeIn db below).rowsAt rest := by
  obtain ⟨node, children⟩ := plan
  have hslot : (slotsIn db children row).getD i [] =
      (child.node.joinedRows db join row).map (child.treeIn db) := by
    rw [List.getD_eq_getElem?_getD, getElem?_slotsIn, hchild, Option.map_some, hjoin]
    rfl
  rw [treeIn, RowTree.rowsAt, hslot]
  simp

end Plan

/-! ### Lines of rows -/

@[simp] theorem lineage_nil_iff : Lineage db node row [] top ↔ row = top := by
  constructor
  · rintro ⟨⟩
    rfl
  · rintro rfl
    exact .top node row

theorem lineage_cons_iff : Lineage db node row (parent :: path) top ↔
    ∃ join, node.join = some join ∧ ∃ above ∈ parent.rowsIn db, join.Joins above row ∧
      Lineage db parent above path top := by
  constructor
  · rintro (_ | ⟨hjoin, hjoins, habove, hrest⟩)
    exact ⟨_, hjoin, _, habove, hjoins, hrest⟩
  · rintro ⟨join, hjoin, above, habove, hjoins, hrest⟩
    exact .up hjoin hjoins habove hrest

/-- From a row a line leads up to a top exactly if it passes a row of the plan's node whose tree has
the row at the address where the line starts. -/
theorem lineage_iff_mem_rowsAt (hfits : plan.Fits db.schema) (hkinds : plan.KindedIn db)
    (hline : plan.lineTo above address = some (node :: path)) {found : Row}
    (hfound : found ∈ node.rowsIn db) :
    Lineage db node found path top ↔ ∃ row ∈ plan.node.rowsIn db,
      found ∈ (plan.treeIn db row).rowsAt address ∧ Lineage db plan.node row above top := by
  induction address generalizing plan above with
  | nil =>
    obtain ⟨rfl, rfl⟩ := List.cons.inj (Option.some.inj hline)
    simp only [RowTree.rowsAt, Plan.treeIn_row, List.mem_singleton]
    constructor
    · exact fun h => ⟨found, hfound, rfl, h⟩
    · rintro ⟨row, -, rfl, h⟩
      exact h
  | cons i rest ih =>
    obtain ⟨child, hchild, hline⟩ := Option.bind_eq_some_iff.mp hline
    have hmem := List.mem_of_getElem? hchild
    obtain ⟨hchildFits, join, hjoin, hjoinFits⟩ := hfits.child hmem
    have hjoined : child.KindedIn db ∧ join.ComparableIn db plan.node child.node := by
      obtain ⟨-, hchildren, hjoins⟩ := hkinds
      exact ⟨hchildren child hmem, hjoins child hmem join hjoin⟩
    rw [ih hchildFits hjoined.1 hline]
    simp only [lineage_cons_iff, Plan.mem_rowsAt_cons hchild hjoin]
    constructor
    · rintro ⟨below, hbelow, hat, join', hjoin', row, hrow, hjoins, hrest⟩
      obtain rfl := Option.some.inj (hjoin.symm.trans hjoin')
      have hhangs := (PlanNode.mem_joinedRows hjoinFits hjoined.2 hrow).mpr ⟨hbelow, hjoins⟩
      exact ⟨row, hrow, ⟨below, hhangs, hat⟩, hrest⟩
    · rintro ⟨row, hrow, ⟨below, hhangs, hat⟩, hrest⟩
      obtain ⟨hbelow, hjoins⟩ := (PlanNode.mem_joinedRows hjoinFits hjoined.2 hrow).mp hhangs
      exact ⟨below, hbelow, hat, join, hjoin, row, hrow, hjoins, hrest⟩

/-! ### Climbing -/

/-- A path up whose joins and keys can be compared at every step. -/
inductive PlanNode.Ascends (db : Database) : PlanNode → List PlanNode → Prop
  | top (node : PlanNode) : Ascends db node []
  | up {node parent : PlanNode} {t : Table} {kinds : List ValueKind} {join : Join}
      {path : List PlanNode} : node.join = some join → join.Fits parent node →
      join.ComparableIn db parent node → parent.Fits db.schema t → parent.KeyedIn db kinds →
      Ascends db parent path → Ascends db node (parent :: path)

/-- A line of a plan that can be compared leads up a path that can. -/
theorem Plan.ascends_of_lineTo (hfits : plan.Fits db.schema) (hplan : plan.ComparableIn db)
    (habove : plan.node.Ascends db above) (hline : plan.lineTo above address = some (node :: path)) :
    node.Ascends db path := by
  induction address generalizing plan above with
  | nil =>
    obtain ⟨rfl, rfl⟩ := List.cons.inj (Option.some.inj hline)
    exact habove
  | cons i rest ih =>
    obtain ⟨child, hchild, hline⟩ := Option.bind_eq_some_iff.mp hline
    have hmem := List.mem_of_getElem? hchild
    obtain ⟨t, hnode⟩ := hfits.node
    obtain ⟨hchildFits, join, hjoin, hjoinFits⟩ := hfits.child hmem
    obtain ⟨hkeyed, hchildren, hjoins⟩ := hplan
    exact ih hchildFits (hchildren child hmem)
      (.up hjoin hjoinFits (hjoins child hmem join hjoin) hnode hkeyed habove) hline

namespace Fetch

/-- Rows of a node select the parent rows that one of them hangs from. -/
theorem accepts_distinctKeys_iff {join : Join} (hjoin : join.ComparableIn db parent node) {rows : List Row}
    (hrows : ∀ row ∈ rows, row ∈ node.rowsIn db) {above : Row} (habove : above ∈ parent.rowsIn db) :
    (Filter.among join.parent (distinctKeys (rows.map (·.tuple join.child)))).accepts above ↔
      ∃ row ∈ rows, join.Joins above row := by
  obtain ⟨kinds, hparent, hchild⟩ := hjoin
  have hadmits := hparent above habove
  have hhas : ∀ row ∈ rows, (row.tuple join.child).any Json.isNull = false →
      HasAll kinds (row.tuple join.child) :=
    fun row hrow hnull => ValueKind.hasAll_of_admits (hchild row (hrows row hrow)) hnull
  simp only [Filter.accepts, List.any_eq_true]
  constructor
  · rintro ⟨key, hkey, hmatches⟩
    obtain ⟨hsource, hpresent⟩ := mem_distinctKeys hkey
    obtain ⟨row, hrow, rfl⟩ := List.mem_map.mp hsource
    have heq := (Filter.tupleMatches_iff hadmits (hhas row hrow hpresent)).mp hmatches
    exact ⟨row, hrow, congrArg keyText heq.symm, hpresent⟩
  · rintro ⟨row, hrow, hjoins⟩
    have hrowHas := hhas row hrow hjoins.present
    obtain ⟨key, hkey, htext⟩ := exists_mem_distinctKeys
      (List.mem_map_of_mem (f := (·.tuple join.child)) hrow) hjoins.present
    obtain ⟨hsource, hpresent⟩ := mem_distinctKeys hkey
    obtain ⟨other, hother, rfl⟩ := List.mem_map.mp hsource
    have hotherHas := hhas other hother hpresent
    refine ⟨_, hkey, (Filter.tupleMatches_iff hadmits hotherHas).mpr ?_⟩
    have hnull : (above.tuple join.parent).any Json.isNull = false := by
      rw [← any_isNull_of_keyText_eq hjoins.text, hjoins.present]
    have haboveHas := ValueKind.hasAll_of_admits hadmits hnull
    exact (ValueKind.keyText_eq_iff haboveHas hotherHas).mp (hjoins.text.symm.trans htext.symm)

end Fetch

/-- One row of a node has its key, and a select by it reads this row alone. -/
theorem PlanNode.KeyedIn.rowsWhere_key {kinds : List ValueKind} (h : node.KeyedIn db kinds) {t : Table}
    (hfits : node.Fits schema t) (hrow : row ∈ node.rowsIn db) (orderBy : List String) :
    node.rowsWhere db (.key node.primaryKey (row.tuple node.primaryKey)) orderBy = [row] := by
  have hmem (other : Row) : other ∈ node.rowsWhere db
      (.key node.primaryKey (row.tuple node.primaryKey)) orderBy ↔ other = row := by
    rw [Filter.key, mem_rowsWhere hfits.keyFetched]
    simp only [Filter.accepts, List.any_cons, List.any_nil, Bool.or_false]
    constructor
    · rintro ⟨hother, hmatches⟩
      exact h.eq_of_tuple_eq hother hrow
        ((Filter.tupleMatches_iff (h.keyed other hother).admits (h.keyed row hrow)).mp hmatches)
    · rintro rfl
      exact ⟨hrow, (Filter.tupleMatches_iff (h.keyed _ hrow).admits (h.keyed _ hrow)).mpr rfl⟩
  have hnodup : (node.rowsWhere db
      (.key node.primaryKey (row.tuple node.primaryKey)) orderBy).Nodup :=
    nodup_rowsWhere h hfits.keyFetched orderBy
  exact List.perm_singleton.mp ((List.perm_ext_iff_of_nodup hnodup (List.nodup_singleton row)).mpr
    fun other => (hmem other).trans List.mem_singleton.symm)

namespace Resolve

variable {wiring : Wiring} {w : World} {root : PlanNode}

/-- Climbing reads of a row what joins it with the row above, or at the top its key. -/
theorem climb_congr {row same : Row} {path : List PlanNode}
    (hkey : path = [] → row.tuple root.primaryKey = same.tuple root.primaryKey)
    (hjoin : path ≠ [] → ∃ join, node.join = some join ∧
      row.tuple join.child = same.tuple join.child) :
    climb root node [row] path = climb root node [same] path := by
  cases path with
  | nil => rw [climb, climb, List.map_singleton, List.map_singleton, hkey rfl]
  | cons parent above =>
    obtain ⟨join, hsome, htuple⟩ := hjoin (List.cons_ne_nil _ _)
    simp only [climb, hsome, List.map_singleton, htuple]

/-- Climbing from rows of a node reaches the tops of their lines, each once. -/
theorem climb_gives_tops (hwiring : wiring.Plain) (root : PlanNode)
    (h : node.Ascends w.database path) {rows : List Row}
    (hrows : ∀ row ∈ rows, row ∈ node.rowsIn w.database) (hnodup : rows.Nodup) :
    ∃ tops : List Row,
      Gives wiring w (climb root node rows path) (.ok (tops.map (·.tuple root.primaryKey))) ∧
      tops.Nodup ∧ ∀ top, top ∈ tops ↔ ∃ row ∈ rows, Lineage w.database node row path top := by
  induction h generalizing rows with
  | top node => exact ⟨rows, gives_pure _, hnodup, by simp⟩
  | @up node parent t kinds join path hjoin hfits hcomparable hparent hkeyed _ ih =>
    have haccepts {above : Row} (habove : above ∈ parent.rowsIn w.database) :=
      Fetch.accepts_distinctKeys_iff hcomparable hrows habove
    generalize htuples : Fetch.distinctKeys (rows.map (·.tuple join.child)) = tuples at haccepts
    have hfetched : ∀ c ∈ join.parent, c ∈ parent.fetchColumns := fun c hc => (hfits.parent c hc).1
    have hmem {above : Row} :
        above ∈ parent.rowsWhere w.database (.among join.parent tuples) [] ↔
          above ∈ parent.rowsIn w.database ∧ ∃ row ∈ rows, join.Joins above row := by
      rw [PlanNode.mem_rowsWhere hfetched]
      exact and_congr_right fun habove => haccepts habove
    obtain ⟨tops, hclimb, htops, hiff⟩ :=
      ih (fun row hrow => (hmem.mp hrow).1) (PlanNode.nodup_rowsWhere hkeyed hfetched [])
    have hlines (top : Row) : top ∈ tops ↔
        ∃ row ∈ rows, Lineage w.database node row (parent :: path) top := by
      rw [hiff]
      simp only [lineage_cons_iff, hmem]
      constructor
      · rintro ⟨above, ⟨habove, row, hrow, hjoins⟩, hrest⟩
        exact ⟨row, hrow, join, hjoin, above, habove, hjoins, hrest⟩
      · rintro ⟨row, hrow, join', hjoin', above, habove, hjoins, hrest⟩
        obtain rfl := Option.some.inj (hjoin.symm.trans hjoin')
        exact ⟨above, ⟨habove, row, hrow, hjoins⟩, hrest⟩
    refine ⟨tops, ?_, htops, hlines⟩
    rw [climb, hjoin]
    dsimp only
    rw [htuples]
    split
    · -- with no key to ask for no row hangs from any, so that there is no top
      rename_i hempty
      obtain rfl := List.isEmpty_iff.mp hempty
      have hnone : tops = [] := by
        refine List.eq_nil_iff_forall_not_mem.mpr fun top htop => ?_
        obtain ⟨row, hrow, hline⟩ := (hlines top).mp htop
        obtain ⟨join', hjoin', above, habove, hjoins, -⟩ := lineage_cons_iff.mp hline
        obtain rfl := Option.some.inj (hjoin.symm.trans hjoin')
        simpa [Filter.accepts] using (haccepts habove).mpr ⟨row, hrow, hjoins⟩
      rw [hnone]
      exact gives_pure _
    · have hread : Gives wiring w (executeTransported
          ⟨parent.table, parent.fetchColumns, .among join.parent tuples, [], none, none⟩)
          (.ok (parent.rowsWhere w.database (.among join.parent tuples) [])) :=
        .mapError _ (gives_execute hwiring (hparent.select_eq _ _ _ _))
      exact hread.bind hclimb

end Resolve

/-! ### Records of rows -/

/-- A record of a stored row: it has the key of the row, and what values it has are those of the row. -/
structure ChangeRecord.Tells (r : ChangeRecord) (t : Table) (stored : StoredRow) : Prop where
  key : r.key.tuple t.primaryKey = stored.key t
  values : ∀ values, r.values = some values → ∀ c ∈ t.columnNames,
    values.value c = stored.values.value c

namespace Resolve

variable {wiring : Wiring} {w : World} {root : PlanNode}

/-- The changed row has the columns of the row that the record tells of. -/
theorem changedRow_gives_row (hwiring : wiring.Plain) {t : Table} (hnode : node.Fits w.database.schema t)
    (hplain : ∀ c ∈ node.primaryKey, c ∉ Table.systemColumns) {kinds : List ValueKind}
    (hkeyed : node.KeyedIn w.database kinds) {stored : StoredRow}
    (hstored : stored ∈ w.database.tables.getD node.table []) {r : ChangeRecord}
    (hr : r.Tells t stored) :
    ∃ row, Gives wiring w (changedRow node r) (.ok (some row)) ∧
      ∀ columns : List String, (∀ c ∈ columns, c ∈ node.fetchColumns ∧ c ∉ Table.systemColumns) →
        row.tuple columns =
          Row.tuple (Database.project node.fetchColumns stored.visible) columns := by
  have hin : Database.project node.fetchColumns stored.visible ∈ node.rowsIn w.database :=
    PlanNode.mem_rowsIn.mpr ⟨stored, hstored, rfl⟩
  rw [changedRow]
  cases hvalues : r.values with
  | some values =>
    refine ⟨_, gives_pure _, fun columns hcolumns => Row.tuple_congr fun c hc => ?_⟩
    obtain ⟨hfetched, hc⟩ := hcolumns c hc
    have hcolumn : c ∈ t.columnNames := by
      have hselectable := hnode.selectable c hfetched
      simpa [Table.isSelectable, Table.hasColumn, hc] using hselectable
    rw [hr.values values hvalues c hcolumn, Row.value_project hfetched, StoredRow.value_visible hc]
  | none =>
    have hkey : r.key.tuple node.primaryKey =
        Row.tuple (Database.project node.fetchColumns stored.visible) node.primaryKey := by
      rw [hnode.tuple_project hplain stored, hnode.key]
      exact hr.key
    have hread : Gives wiring w (executeTransported ⟨node.table, node.fetchColumns,
        .key node.primaryKey (r.key.tuple node.primaryKey), [], none, none⟩)
        (.ok [Database.project node.fetchColumns stored.visible]) := by
      rw [← hkeyed.rowsWhere_key hnode hin [], hkey]
      exact .mapError _ (gives_execute hwiring (hnode.select_eq _ _ _ _))
    exact ⟨_, hread.bind (gives_pure _), fun columns _ => rfl⟩

end Resolve

theorem Plan.ComparableIn.child (h : plan.ComparableIn db) {child : Plan} (hchild : child ∈ plan.children) :
    child.ComparableIn db := by
  obtain ⟨-, hchildren, -⟩ := h
  exact hchildren child hchild

theorem Plan.ComparableIn.keyed (h : plan.ComparableIn db) : ∃ kinds, plan.node.KeyedIn db kinds := by
  obtain ⟨hkeyed, -, -⟩ := h
  exact ⟨_, hkeyed⟩

theorem fetchRoots_gives_key {wiring : Wiring} {w : World} (hwiring : wiring.Plain)
    (hfits : plan.Fits w.database.schema) (hplan : plan.ComparableIn w.database) (key : List Json) :
    Gives wiring w (fetchRoots plan (.key plan.node.primaryKey key))
      (.ok ((plan.node.rowsWhere w.database (.key plan.node.primaryKey key)
        plan.node.primaryKey).map (plan.treeIn w.database))) :=
  fetchRoots_gives_trees hwiring hfits hplan hfits.node.choose_spec.keyFetched (List.cons_ne_nil _ _)

/-- Fetching by the key of a root row gives the tree of this row alone. -/
theorem fetchRoots_gives_tree {wiring : Wiring} {w : World} (hwiring : wiring.Plain)
    (hfits : plan.Fits w.database.schema) (hplan : plan.ComparableIn w.database)
    (hrow : row ∈ plan.node.rowsIn w.database) :
    Gives wiring w (fetchRoots plan (.key plan.node.primaryKey (row.tuple plan.node.primaryKey)))
      (.ok [plan.treeIn w.database row]) := by
  obtain ⟨t, hnode⟩ := hfits.node
  obtain ⟨kinds, hkeyed⟩ := hplan.keyed
  have hfetched := fetchRoots_gives_key hwiring hfits hplan (row.tuple plan.node.primaryKey)
  rwa [hkeyed.rowsWhere_key hnode hrow] at hfetched

/-- The trees that are fetched by their keys are those of the root rows. -/
theorem exists_fetched_iff {wiring : Wiring} {w : World} (hwiring : wiring.Plain)
    (hfits : plan.Fits w.database.schema) (hplan : plan.ComparableIn w.database) {key : List Json}
    {holds : RowTree → Prop} :
    (∃ tree, Gives wiring w (fetchRoots plan (.key plan.node.primaryKey key)) (.ok [tree]) ∧
      tree.row.tuple plan.node.primaryKey = key ∧ holds tree) ↔
    ∃ row ∈ plan.node.rowsIn w.database,
      row.tuple plan.node.primaryKey = key ∧ holds (plan.treeIn w.database row) := by
  constructor
  · rintro ⟨tree, hfetched, hkey, hholds⟩
    have htrees := Except.ok.inj
      (hfetched.unique (fetchRoots_gives_key hwiring hfits hplan _))
    obtain ⟨row, hrow, rfl⟩ := List.mem_map.mp (htrees ▸ List.mem_singleton_self tree)
    rw [Filter.key, PlanNode.mem_rowsWhere hfits.node.choose_spec.keyFetched] at hrow
    rw [Plan.treeIn_row] at hkey
    exact ⟨row, hrow.1, hkey, hholds⟩
  · rintro ⟨row, hrow, rfl, hholds⟩
    exact ⟨_, fetchRoots_gives_tree hwiring hfits hplan hrow, by rw [Plan.treeIn_row], hholds⟩

/-- Climbing from a row of a node gives the keys of the roots whose trees have the row at that node. -/
theorem Resolve.climb_gives_roots {wiring : Wiring} {w : World} (hwiring : wiring.Plain)
    (hfits : plan.Fits w.database.schema) (hplan : plan.ComparableIn w.database)
    (hkinds : plan.KindedIn w.database) (hline : plan.lineTo [] address = some (node :: above))
    (hrow : row ∈ node.rowsIn w.database) :
    ∃ tops : List Row,
      Gives wiring w (climb plan.node node [row] above)
        (.ok (tops.map (·.tuple plan.node.primaryKey))) ∧
      tops.Nodup ∧ ∀ top, top ∈ tops ↔
        top ∈ plan.node.rowsIn w.database ∧ row ∈ (plan.treeIn w.database top).rowsAt address := by
  obtain ⟨tops, hclimb, hnodup, htops⟩ := climb_gives_tops hwiring plan.node
    (Plan.ascends_of_lineTo hfits hplan (.top plan.node) hline)
    (fun other hother => List.mem_singleton.mp hother ▸ hrow) (List.nodup_singleton row)
  refine ⟨tops, hclimb, hnodup, fun top => ?_⟩
  rw [htops]
  -- a line to the top is a place in the tree of a root
  simp only [List.mem_singleton, exists_eq_left, lineage_iff_mem_rowsAt hfits hkinds hline hrow,
    lineage_nil_iff]
  constructor
  · rintro ⟨top, htop, hat, rfl⟩
    exact ⟨htop, hat⟩
  · rintro ⟨htop, hat⟩
    exact ⟨top, htop, hat, rfl⟩

/-- Along a line of a plan, climbing starts alike from rows that agree on the columns that are read. -/
theorem Resolve.climb_congr_of_lineTo (hfits : plan.Fits db.schema) (hplan : plan.ComparableIn db)
    (hline : plan.lineTo [] address = some (node :: above))
    (hkey : ∀ c ∈ node.primaryKey, c ∈ node.fetchColumns ∧ c ∉ Table.systemColumns)
    {row same : Row}
    (hcolumns : ∀ columns : List String,
      (∀ c ∈ columns, c ∈ node.fetchColumns ∧ c ∉ Table.systemColumns) →
        row.tuple columns = same.tuple columns) :
    climb plan.node node [row] above = climb plan.node node [same] above := by
  refine climb_congr (fun hnone => ?_) fun hsome => ?_
  · obtain ⟨front, hfront⟩ := Plan.exists_append_of_lineTo hline
    have htop : node = plan.node := by
      rw [hnone] at hfront
      cases front with
      | nil => exact (List.cons.inj hfront).1
      | cons first rest => simp at hfront
    exact htop ▸ hcolumns _ hkey
  · obtain ⟨⟩ | ⟨hjoin, hjoinFits, -, -, -, -⟩ :=
      Plan.ascends_of_lineTo hfits hplan (.top plan.node) hline
    · contradiction
    · exact ⟨_, hjoin, hcolumns _ hjoinFits.child⟩

/-- Walking up from a row of a node gives the keys of the roots whose fetched trees have the row at that
node, each once. -/
theorem walkToRoots_iff_fetched {wiring : Wiring} {w : World} (hwiring : wiring.Plain)
    (hreached : w.database.Reached) (hschema : w.database.schema.Linked) {declared : Node}
    (hbuilt : Plan.build declared w.database.schema = .ok plan) (hplain : plan.Unreserved)
    (hkinds : plan.KindedIn w.database) (hline : plan.lineTo [] address = some (node :: above))
    {t : Table} (ht : w.database.schema.table? node.table = some t) {stored : StoredRow}
    (hstored : stored ∈ w.database.tables.getD node.table []) {r : ChangeRecord}
    (hr : r.Tells t stored) :
    node :: above ∈ plan.pathsOf node.table ∧
      ∃ keys, Gives wiring w (Resolve.walkToRoots plan.node (node :: above) r) (.ok keys) ∧
        keys.Nodup ∧ ∀ key, key ∈ keys ↔ ∃ tree,
          Gives wiring w (fetchRoots plan (.key plan.node.primaryKey key)) (.ok [tree]) ∧
            tree.row.tuple plan.node.primaryKey = key ∧
            Database.project node.fetchColumns stored.visible ∈ tree.rowsAt address := by
  have hjoined : plan.Joined w.database.schema fun _ => True :=
    (Plan.build_joined hschema (fun _ _ _ _ _ => trivial) hbuilt).1
  have hfits := hjoined.fits hplain
  have hplan := hkinds.comparableIn_of_unreserved hreached hfits hplain
  obtain ⟨below, ⟨hbelowFits, hbelow, hbelowPlain⟩, rfl⟩ := Plan.exists_of_lineTo
    (P := fun plan => plan.Fits w.database.schema ∧ plan.ComparableIn w.database ∧ plan.Unreserved)
    (fun plan h child hchild => ⟨(h.1.child hchild).1, h.2.1.child hchild, h.2.2.child hchild⟩)
    ⟨hfits, hplan, hplain⟩ hline
  obtain ⟨t', hnode⟩ := hbelowFits.node
  obtain ⟨kinds, hkeyed⟩ := hbelow.keyed
  obtain ⟨rootKinds, hrootKeyed⟩ := hplan.keyed
  obtain rfl : t = t' := Option.some.inj (ht.symm.trans hnode.table)
  refine ⟨Plan.mem_pathsFrom_iff.mpr ⟨address, below.node, above, hline, rfl, rfl⟩, ?_⟩
  obtain ⟨row, hchanged, hcolumns⟩ :=
    Resolve.changedRow_gives_row hwiring hnode hbelowPlain.key hkeyed hstored hr
  have hin : Database.project below.node.fetchColumns stored.visible ∈
      below.node.rowsIn w.database := PlanNode.mem_rowsIn.mpr ⟨stored, hstored, rfl⟩
  generalize Database.project below.node.fetchColumns stored.visible = found at hcolumns hin ⊢
  obtain ⟨tops, hclimb, hnodup, hmem⟩ :=
    Resolve.climb_gives_roots hwiring hfits hplan hkinds hline hin
  have hsame : Resolve.climb plan.node below.node [row] above =
      Resolve.climb plan.node below.node [found] above :=
    Resolve.climb_congr_of_lineTo hfits hplan hline
      (fun c hc => ⟨hnode.keyFetched c hc, hbelowPlain.key c hc⟩) hcolumns
  have hwalk : Gives wiring w (Resolve.walkToRoots plan.node (below.node :: above) r)
      (.ok (tops.map (·.tuple plan.node.primaryKey))) := by
    rw [Resolve.walkToRoots]
    refine hchanged.bind ?_
    dsimp only
    rwa [hsame]
  refine ⟨_, hwalk, ?_, fun key => ?_⟩
  · refine hnodup.map_on fun a ha b hb heq => ?_
    exact hrootKeyed.eq_of_tuple_eq ((hmem a).mp ha).1 ((hmem b).mp hb).1 heq
  · rw [exists_fetched_iff hwiring hfits hplan, List.mem_map]
    constructor
    · rintro ⟨top, htop, rfl⟩
      obtain ⟨hroot, hat⟩ := (hmem top).mp htop
      exact ⟨top, hroot, rfl, hat⟩
    · rintro ⟨top, hroot, rfl, hat⟩
      exact ⟨top, (hmem top).mpr ⟨hroot, hat⟩, rfl⟩

/-! A room of shelves with books, and the presses that the books are of. -/

def roomSchema : Schema := .ofTables
  [⟨"shelf", [⟨"id", "integer"⟩], ["id"], []⟩,
    ⟨"book", [⟨"isbn", "text"⟩, ⟨"shelf_id", "integer"⟩, ⟨"press_id", "integer"⟩], ["isbn"],
      [⟨["shelf_id"], "shelf", ["id"]⟩, ⟨["press_id"], "press", ["id"]⟩]⟩,
    ⟨"press", [⟨"id", "integer"⟩, ⟨"name", "text"⟩], ["id"], []⟩]

def roomNode : Node :=
  ⟨"shelf", [], [], none, [⟨"book", [], [], none, [⟨"press", [], [], none, []⟩]⟩]⟩

def roomPress : PlanNode :=
  ⟨"press", none, ["id", "name"], [], ["id", "name"], ["id"],
    some ⟨.manyToOne, ["press_id"], ["id"]⟩⟩

def roomBook : PlanNode :=
  ⟨"book", none, ["isbn", "shelf_id", "press_id"], [], ["isbn", "shelf_id", "press_id"], ["isbn"],
    some ⟨.oneToMany, ["id"], ["shelf_id"]⟩⟩

def roomShelf : PlanNode := ⟨"shelf", none, ["id"], [], ["id"], ["id"], none⟩

def roomPlan : Plan := ⟨roomShelf, [⟨roomBook, [⟨roomPress, []⟩]⟩]⟩

/-- Two books of one press on one shelf, one of no press on another, and one of the press on none. -/
def roomDatabase : Database :=
  (Database.empty roomSchema).committed
    [.insert "shelf" [("id", .ofNat 1)], .insert "shelf" [("id", .ofNat 2)],
      .insert "press" [("id", .ofNat 7), ("name", .string "Ace")],
      .insert "book" [("isbn", .string "a"), ("shelf_id", .ofNat 1), ("press_id", .ofNat 7)],
      .insert "book" [("isbn", .string "b"), ("shelf_id", .ofNat 1), ("press_id", .ofNat 7)],
      .insert "book" [("isbn", .string "c"), ("shelf_id", .ofNat 2)],
      .insert "book" [("isbn", .string "d"), ("press_id", .ofNat 7)]]

theorem roomDatabase_reached : roomDatabase.Reached := (Database.Reached.empty _).committed _

theorem roomPlan_kindedIn : roomPlan.KindedIn roomDatabase := by
  have hpress : Plan.KindedIn roomDatabase ⟨roomPress, []⟩ :=
    @Plan.KindedIn.mk _ _ _ [.integer] (by decide +kernel) (by simp) (by simp)
  have hbook : Plan.KindedIn roomDatabase ⟨roomBook, [⟨roomPress, []⟩]⟩ := by
    refine @Plan.KindedIn.mk _ _ _ [.text] (by decide +kernel) (by simpa using hpress) ?_
    intro child hchild join hjoin
    obtain rfl := List.mem_singleton.mp hchild
    obtain rfl := Option.some.inj hjoin
    exact ⟨[.integer], by decide +kernel, by decide +kernel⟩
  refine @Plan.KindedIn.mk _ _ _ [.integer] (by decide +kernel) (by simpa using hbook) ?_
  intro child hchild join hjoin
  obtain rfl := List.mem_singleton.mp hchild
  obtain rfl := Option.some.inj hjoin
  exact ⟨[.integer], by decide +kernel, by decide +kernel⟩

def room : World := { World.empty roomSchema roomSchema "" "" with database := roomDatabase }

/-- The press that several books are of. -/
def sharedPress : StoredRow := ⟨[("id", .ofNat 7), ("name", .string "Ace")], 1⟩

/-- An update of the press, as a log without values has it. -/
def pressUpdate : ChangeRecord := ⟨"press", .update, [("id", .ofNat 7)], none, none, 1, 0⟩

theorem walkToRoots_iff_fetched_of_room :
    roomSchema.Linked ∧ Plan.build roomNode roomSchema = .ok roomPlan ∧ roomPlan.Unreserved ∧
      roomPlan.lineTo [] [0, 0] = some [roomPress, roomBook, roomShelf] ∧
      sharedPress ∈ roomDatabase.tables.getD "press" [] ∧
      ∃ keys, Gives (.ofSink "main") room
          (Resolve.walkToRoots roomShelf [roomPress, roomBook, roomShelf] pressUpdate) (.ok keys) ∧
        keys = [[.ofNat 1]] ∧ ∀ key, key ∈ keys ↔ ∃ tree,
          Gives (.ofSink "main") room (fetchRoots roomPlan (.key ["id"] key)) (.ok [tree]) ∧
            tree.row.tuple ["id"] = key ∧
            Database.project roomPress.fetchColumns sharedPress.visible ∈ tree.rowsAt [0, 0] := by
  have hschema : roomSchema.WellFormed := Schema.wellFormed_of_entries (by decide +kernel)
  have hbuilt : Plan.build roomNode roomSchema = .ok roomPlan := by cbv
  have hline : roomPlan.lineTo [] [0, 0] = some [roomPress, roomBook, roomShelf] := rfl
  have hrows : roomDatabase.tables.getD "press" [] = [sharedPress] := by cbv
  have hstored : sharedPress ∈ roomDatabase.tables.getD "press" [] := by simp [hrows]
  have hr : pressUpdate.Tells ⟨"press", [⟨"id", "integer"⟩, ⟨"name", "text"⟩], ["id"], []⟩ sharedPress :=
    ⟨rfl, by simp [pressUpdate]⟩
  have hplain := (Plan.build_fits hschema hbuilt).1.unreserved hschema
  obtain ⟨-, keys, hwalk, -, hkeys⟩ := walkToRoots_iff_fetched (w := room) (Wiring.plain_ofSink "main")
    roomDatabase_reached hschema.linked hbuilt hplain roomPlan_kindedIn hline (by cbv) hstored hr
  have hrun := hwalk.eq_of_run
    (show (World.runRoutine (.ofSink "main") (Resolve.walkToRoots roomShelf
      [roomPress, roomBook, roomShelf] pressUpdate).run (room, [])).1 = some (.ok [[.ofNat 1]]) by cbv)
  exact ⟨hschema.linked, hbuilt, hplain, hline, hstored, keys, hwalk, Except.ok.inj hrun, hkeys⟩

/-! A table with a column of its own that has the name of a system column. -/

def systemSchema : Schema := .ofTables
  [⟨"parent", [⟨"id", "integer"⟩], ["id"], []⟩,
    ⟨"child", [⟨"id", "integer"⟩, ⟨"xmin", "integer"⟩], ["id"], [⟨["xmin"], "parent", ["id"]⟩]⟩]

def systemNode : Node := ⟨"parent", [], [], none, [⟨"child", [], [], none, []⟩]⟩

def systemChild : PlanNode :=
  ⟨"child", none, ["id", "xmin"], [], ["id", "xmin"], ["id"], some ⟨.oneToMany, ["id"], ["xmin"]⟩⟩

def systemParent : PlanNode := ⟨"parent", none, ["id"], [], ["id"], ["id"], none⟩

def systemPlan : Plan := ⟨systemParent, [⟨systemChild, []⟩]⟩

/-- The transaction has the number of one parent, the child refers to the other. -/
def systemDatabase : Database :=
  (Database.empty systemSchema).committed
    [.insert "parent" [("id", .ofNat 1)], .insert "parent" [("id", .ofNat 5)],
      .insert "child" [("id", .ofNat 7), ("xmin", .ofNat 5)]]

def systemWorld : World :=
  { World.empty systemSchema systemSchema "" "" with database := systemDatabase }

def systemRow : StoredRow := ⟨[("id", .ofNat 7), ("xmin", .ofNat 5)], 1⟩

/-- The insert of the child, as it is logged. -/
def systemInsert : ChangeRecord :=
  ⟨"child", .insert, [("id", .ofNat 7)], none, some systemRow.values, 1, 2⟩

theorem systemDatabase_reached : systemDatabase.Reached := (Database.Reached.empty _).committed _

theorem systemPlan_kindedIn : systemPlan.KindedIn systemDatabase := by
  have hchild : Plan.KindedIn systemDatabase ⟨systemChild, []⟩ :=
    @Plan.KindedIn.mk _ _ _ [.integer] (by decide +kernel) (by simp) (by simp)
  refine @Plan.KindedIn.mk _ _ _ [.integer] (by decide +kernel) (by simpa using hchild) ?_
  intro child hchild join hjoin
  obtain rfl := List.mem_singleton.mp hchild
  obtain rfl := Option.some.inj hjoin
  exact ⟨[.integer], by decide +kernel, by decide +kernel⟩

/-- The walk goes by the value that the row was given, the fetch by the transaction that wrote it: the
walk reaches a root whose tree does not have the row, and misses the one whose tree has it. -/
theorem walkToRoots_misses_system_column :
    systemSchema.Linked ∧ Plan.build systemNode systemSchema = .ok systemPlan ∧
      systemDatabase.Reached ∧ systemPlan.KindedIn systemDatabase ∧
      systemInsert ∈ systemDatabase.log ∧ systemRow ∈ systemDatabase.tables.getD "child" [] ∧
      (∀ t, systemSchema.table? "child" = some t → systemInsert.Tells t systemRow) ∧
      ∃ tree other,
        (World.runRoutine (.ofSink "main") (Resolve.walkToRoots systemParent
          [systemChild, systemParent] systemInsert).run (systemWorld, [])).1 =
            some (.ok [[.ofNat 5]]) ∧
        (World.runRoutine (.ofSink "main") (fetchRoots systemPlan
          (.key ["id"] [.ofNat 5])).run (systemWorld, [])).1 = some (.ok [tree]) ∧
        Database.project systemChild.fetchColumns systemRow.visible ∉ tree.rowsAt [0] ∧
        (World.runRoutine (.ofSink "main") (fetchRoots systemPlan
          (.key ["id"] [.ofNat 1])).run (systemWorld, [])).1 = some (.ok [other]) ∧
        Database.project systemChild.fetchColumns systemRow.visible ∈ other.rowsAt [0] := by
  have hlog : systemDatabase.log[2]? = some systemInsert := by cbv
  have hrows : systemDatabase.tables.getD "child" [] = [systemRow] := by cbv
  refine ⟨Schema.linked_of_entries (by decide +kernel), by cbv, systemDatabase_reached,
    systemPlan_kindedIn, List.mem_of_getElem? hlog, by simp [hrows], fun t ht => ?_,
    ⟨[("id", .ofNat 5)], [[]]⟩, ⟨[("id", .ofNat 1)], [[⟨[("id", .ofNat 7), ("xmin", .ofNat 1)], []⟩]]⟩,
    by cbv, by cbv, ?_, by cbv, ?_⟩
  · obtain rfl : ⟨"child", [⟨"id", "integer"⟩, ⟨"xmin", "integer"⟩], ["id"],
        [⟨["xmin"], "parent", ["id"]⟩]⟩ = t := Option.some.inj ht
    refine ⟨rfl, fun values hvalues c _ => ?_⟩
    rw [← Option.some.inj hvalues]
  · exact List.not_mem_nil
  · have hvisible : Database.project systemChild.fetchColumns systemRow.visible =
        [("id", .ofNat 7), ("xmin", .ofNat 1)] := by cbv
    rw [hvisible]
    exact List.mem_singleton_self _

end DocSync
