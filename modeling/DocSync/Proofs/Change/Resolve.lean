import DocSync.Proofs.Document.Fetch
import Mathlib

/-!
Which roots a change is resolved to.  A row that is embedded in the tree of a root is joined to it by a
line of rows along a path of the plan; a record of a nested table follows such lines up, at every path
of its table.  Main statement: of the roots whose trees embed the changed row, a record of the root
table resolves to those that it names itself, and any other record to all.
-/

namespace DocSync

open Attempt

/-- Rows that hang from each other along a path up, from a row of a node to the one at the top. -/
inductive Lineage (db : Database) : PlanNode → Row → List PlanNode → Row → Prop
  | top (node : PlanNode) (row : Row) : Lineage db node row [] row
  | up {node parent : PlanNode} {join : Join} {row above top : Row} {path : List PlanNode} :
      node.join = some join → join.Joins above row → above ∈ parent.rowsIn db →
      Lineage db parent above path top → Lineage db node row (parent :: path) top

/-- A path up that fits the schema at every step. -/
inductive Climbable (schema : Schema) : PlanNode → List PlanNode → Prop
  | top (node : PlanNode) : Climbable schema node []
  | up {node parent : PlanNode} {t : Table} {join : Join} {path : List PlanNode} :
      node.join = some join → join.Fits parent node → parent.Fits schema t →
      Climbable schema parent path → Climbable schema node (parent :: path)

variable {db : Database} {schema : Schema}

/-! ### Paths and lines -/

namespace Plan

mutual

/-- Every path of a table starts at a node that reads it, and can be climbed. -/
theorem pathsFrom_climbable {table : String} : ∀ {plan : Plan} {above : List PlanNode},
    plan.Fits schema → Climbable schema plan.node above → ∀ path ∈ plan.pathsFrom table above,
      ∃ node rest, path = node :: rest ∧ node.table = table ∧ (∃ t, node.Fits schema t) ∧
        Climbable schema node rest
  | ⟨node, children⟩, above, h, habove, path, hpath => by
    rw [pathsFrom, List.mem_append] at hpath
    rcases hpath with hpath | hpath
    · split at hpath
      · rename_i htable
        obtain rfl := List.mem_singleton.mp hpath
        exact ⟨node, above, rfl, by simpa using htable, h.node, habove⟩
      · simp at hpath
    · exact pathsOfChildren_climbable h.node.choose_spec (fun child hchild => h.child hchild) habove
        path hpath

theorem pathsOfChildren_climbable {table : String} {parent : PlanNode} {t : Table} :
    ∀ {children : List Plan} {above : List PlanNode}, parent.Fits schema t →
      (∀ child ∈ children, child.Fits schema ∧
        ∃ join, child.node.join = some join ∧ join.Fits parent child.node) →
      Climbable schema parent above → ∀ path ∈ pathsOfChildren table (parent :: above) children,
      ∃ node rest, path = node :: rest ∧ node.table = table ∧ (∃ t, node.Fits schema t) ∧
        Climbable schema node rest
  | [], _, _, _, _, path, hpath => by simp [pathsOfChildren] at hpath
  | child :: rest, above, hparent, h, habove, path, hpath => by
    obtain ⟨⟨hchild, join, hjoin, hfits⟩, hothers⟩ := List.forall_mem_cons.mp h
    rw [pathsOfChildren, List.mem_append] at hpath
    rcases hpath with hpath | hpath
    · exact pathsFrom_climbable hchild (.up hjoin hfits hparent habove) path hpath
    · exact pathsOfChildren_climbable hparent hothers habove path hpath

end

theorem mem_pathsOfChildren {table : String} {above : List PlanNode} {children : List Plan}
    {child : Plan} {path : List PlanNode} (hchild : child ∈ children)
    (h : path ∈ child.pathsFrom table above) : path ∈ pathsOfChildren table above children := by
  induction children with
  | nil => simp at hchild
  | cons first rest ih =>
    rw [pathsOfChildren, List.mem_append]
    rcases List.mem_cons.mp hchild with rfl | hchild
    · exact .inl h
    · exact .inr (ih hchild)

end Plan

theorem RowTree.SlotsReadFrom.mem {children : List Plan} {row : Row} {slots : List (List RowTree)}
    (h : RowTree.SlotsReadFrom db children row slots) {child : Plan} {slot : List RowTree}
    (hslot : (child, slot) ∈ children.zip slots) :
    ∃ join, child.node.join = some join ∧
      ∀ tree ∈ slot, join.Joins row tree.row ∧ tree.ReadFrom db child := by
  induction children generalizing slots with
  | nil => simp at hslot
  | cons first rest ih =>
    cases h with
    | cons hjoin hjoins hread hrest =>
      rcases List.mem_cons.mp hslot with heq | hslot
      · obtain ⟨rfl, rfl⟩ := Prod.mk.inj heq
        exact ⟨_, hjoin, fun tree htree => ⟨hjoins tree htree, hread tree htree⟩⟩
      · exact ih hrest hslot

/-- From a row that a tree holds a line leads up along a path of its table, which is no longer than the
path to the tree only at its root. -/
theorem RowTree.Holds.lineage {plan : Plan} {tree : RowTree} {node : PlanNode} {row top : Row}
    (h : tree.Holds plan node row) (hread : tree.ReadFrom db plan) {above : List PlanNode}
    (habove : Lineage db plan.node tree.row above top) :
    ∃ path, node :: path ∈ plan.pathsFrom node.table above ∧ Lineage db node row path top ∧
      (path = above ∧ node = plan.node ∨ above.length < path.length) := by
  induction h generalizing above with
  | root plan tree =>
    refine ⟨above, ?_, habove, .inl ⟨rfl, rfl⟩⟩
    obtain ⟨node, children⟩ := plan
    simp [Plan.pathsFrom]
  | @nested plan child tree subtree slot node row hslot hmem _ ih =>
    obtain ⟨hrow, hslots⟩ := hread
    obtain ⟨join, hjoin, hjoins⟩ := hslots.mem hslot
    obtain ⟨hjoined, hsubtree⟩ := hjoins subtree hmem
    obtain ⟨path, hpath, hline, hlength⟩ := ih hsubtree (.up hjoin hjoined hrow habove)
    refine ⟨path, ?_, hline, .inr ?_⟩
    · rw [Plan.pathsFrom, List.mem_append]
      exact .inr (Plan.mem_pathsOfChildren (List.of_mem_zip hslot).1 hpath)
    · rcases hlength with ⟨rfl, -⟩ | hlength
      · exact Nat.lt_succ_self _
      · exact Nat.lt_of_succ_lt hlength

/-- A line starts the same from every row with the same joined columns. -/
theorem Lineage.congr {node parent : PlanNode} {row row' top : Row} {path : List PlanNode}
    (h : Lineage db node row (parent :: path) top)
    (hrow : ∀ join, node.join = some join → row'.tuple join.child = row.tuple join.child) :
    Lineage db node row' (parent :: path) top := by
  cases h with
  | up hjoin hjoins habove hrest =>
    have htuple := hrow _ hjoin
    exact .up hjoin ⟨htuple ▸ hjoins.text, htuple ▸ hjoins.present⟩ habove hrest

/-! ### Names -/

namespace Resolution

/-- One of the operations is for the root of an identity. -/
def Names (r : Resolution) (identity : String) : Prop := ∃ op ∈ r.ops, op.identity = identity

variable {r : Resolution} {identity : String}

theorem names_push (op : RootOp) :
    (r.push op).Names identity ↔ r.Names identity ∨ op.identity = identity := by
  simp only [Names, push, List.mem_append, List.mem_filter, List.mem_singleton]
  constructor
  · rintro ⟨found, ⟨hfound, -⟩ | rfl, hidentity⟩
    · exact .inl ⟨found, hfound, hidentity⟩
    · exact .inr hidentity
  · rintro (⟨found, hfound, hidentity⟩ | hidentity)
    · by_cases hsame : found.identity = op.identity
      · exact ⟨op, .inr rfl, hsame.symm.trans hidentity⟩
      · exact ⟨found, .inl ⟨hfound, by simpa using hsame⟩, hidentity⟩
    · exact ⟨op, .inr rfl, hidentity⟩

theorem names_foldl_pushKey (keys : List (List Json)) :
    (keys.foldl pushKey r).Names identity ↔
      r.Names identity ∨ ∃ key ∈ keys, Identity.ofKey key = identity := by
  induction keys generalizing r with
  | nil => simp
  | cons key rest ih =>
    rw [List.foldl_cons, ih, pushKey, names_push]
    simp [or_assoc]

/-- One resolution names all that another one does, and re-derives every root if that one does. -/
structure Within (r r' : Resolution) : Prop where
  names : ∀ identity, r.Names identity → r'.Names identity
  all : r.rederiveAll = true → r'.rederiveAll = true

theorem Within.refl (r : Resolution) : r.Within r := ⟨fun _ h => h, fun h => h⟩

theorem Within.trans {r₁ r₂ r₃ : Resolution} (h : r₁.Within r₂) (h' : r₂.Within r₃) : r₁.Within r₃ :=
  ⟨fun identity hr => h'.names identity (h.names identity hr), fun hr => h'.all (h.all hr)⟩

/-- The resolution names what a lookup found, or re-derives every root where it found nothing out. -/
def Covers (r : Resolution) (found : Option (List String)) : Prop :=
  match found with
  | none => r.rederiveAll = true
  | some identities => ∀ identity ∈ identities, r.Names identity

theorem Covers.mono {r r' : Resolution} {found : Option (List String)} (h : r.Covers found)
    (hwithin : r.Within r') : r'.Covers found := by
  cases found with
  | none => exact hwithin.all h
  | some identities => exact fun identity hmem => hwithin.names identity (h identity hmem)

theorem within_push (r : Resolution) (op : RootOp) : r.Within (r.push op) :=
  ⟨fun _ h => (names_push op).mpr (.inl h), fun h => h⟩

theorem within_foldl_pushKey (r : Resolution) (keys : List (List Json)) :
    r.Within (keys.foldl pushKey r) := by
  induction keys generalizing r with
  | nil => exact .refl r
  | cons key rest ih => exact (r.within_push _).trans (ih _)

theorem within_pushFound (r : Resolution) (columns : Nat) (found : Option (List String)) :
    r.Within (r.pushFound columns found) := by
  cases found with
  | none => exact ⟨fun _ h => h, fun _ => rfl⟩
  | some identities =>
    rw [pushFound]
    induction identities generalizing r with
    | nil => exact .refl r
    | cons first rest ih => exact (r.within_push _).trans (ih _)

theorem covers_pushFound (r : Resolution) (columns : Nat) (found : Option (List String)) :
    (r.pushFound columns found).Covers found := by
  cases found with
  | none => rfl
  | some identities =>
    intro identity hmem
    rw [pushFound]
    induction identities generalizing r with
    | nil => simp at hmem
    | cons first rest ih =>
      rw [List.foldl_cons]
      rcases List.mem_cons.mp hmem with rfl | hmem
      · exact (within_pushFound _ columns (some rest)).names _ ((names_push _).mpr (.inr rfl))
      · exact ih _ hmem

end Resolution

/-- A record of a row of the database, whatever it did to the row: its values, where it has any, are
those of the row, and otherwise its key finds the row. -/
structure ChangeRecord.Describes (r : ChangeRecord) (db : Database) (stored : StoredRow) : Prop where
  present : stored ∈ db.tables.getD r.table []
  key : ∀ t, db.schema.table? r.table = some t → r.key = t.keyOf stored.values
  values : r.values = some stored.values ∨ r.values = none ∧
    (db.tables.getD r.table []).find? (·.values.matchesKey r.key) = some stored

theorem ChangeRecord.Describes.isHeld {r : ChangeRecord} {stored : StoredRow} (h : r.Describes db stored)
    (hheld : db.IsHeld) : ∀ row, r.values = some row → row.IsHeld := by
  intro row hrow
  rcases h.values with hvalues | ⟨hnone, -⟩
  · exact Option.some.inj (hvalues.symm.trans hrow) ▸ hheld _ _ h.present
  · simp [hnone] at hrow

/-! ### Resolving -/

/-- The identities that a record of the root table names: that of its key, and that of the key it
left. -/
def ChangeRecord.NamesRoot (r : ChangeRecord) (root : PlanNode) (identity : String) : Prop :=
  Identity.ofKey (r.key.tuple root.primaryKey) = identity ∨
    ∃ old, r.oldKey = some old ∧ r.keyChanged ∧
      Identity.ofKey (old.tuple root.primaryKey) = identity

namespace Resolve

variable {wiring : Wiring} {w : World} {root : PlanNode}

/-- Climbing gives the key of every root above the rows. -/
theorem climb_gives (hwiring : wiring.Plain) (hheld : w.database.IsHeld) (root : PlanNode)
    {node : PlanNode} {path : List PlanNode} (h : Climbable w.database.schema node path)
    {rows : List Row} (hrows : ∀ row ∈ rows, row.IsHeld) :
    ∃ keys, Gives wiring w (climb root node rows path) (.ok keys) ∧
      ∀ row ∈ rows, ∀ top, Lineage w.database node row path top → top.tuple root.primaryKey ∈ keys := by
  induction h generalizing rows with
  | top node =>
    refine ⟨_, gives_pure _, ?_⟩
    rintro row hrow top ⟨⟩
    exact List.mem_map.mpr ⟨row, hrow, rfl⟩
  | @up node parent t join path hjoin hfits hparent _ ih =>
    -- the key of a row with a line is among those that are climbed on
    have hkey : ∀ row ∈ rows, ∀ above, join.Joins above row →
        ∃ key ∈ Fetch.distinctKeys (rows.map (·.tuple join.child)),
          Fetch.keyText key = Fetch.keyText (row.tuple join.child) := by
      intro row hrow above hjoins
      have hmem : row.tuple join.child ∈ rows.map (·.tuple join.child) :=
        List.mem_map.mpr ⟨row, hrow, rfl⟩
      exact Fetch.exists_mem_distinctKeys hmem hjoins.present
    rw [climb, hjoin]
    dsimp only
    split
    · rename_i hempty
      refine ⟨_, gives_pure _, ?_⟩
      intro row hrow top hline
      obtain ⟨⟩ | ⟨hjoin', hjoins, -, -⟩ := hline
      obtain rfl := Option.some.inj (hjoin.symm.trans hjoin')
      obtain ⟨key, hmem, -⟩ := hkey row hrow _ hjoins
      simp [List.isEmpty_iff.mp hempty] at hmem
    · generalize htuples : Fetch.distinctKeys (rows.map (·.tuple join.child)) = tuples at hkey ⊢
      have hread : Gives wiring w (executeTransported
          ⟨parent.table, parent.fetchColumns, .among join.parent tuples, [], none, none⟩)
          (.ok (parent.rowsWhere w.database (.among join.parent tuples) [])) :=
        .mapError _ (gives_execute hwiring (hparent.select_eq _ _ _ _))
      have hmem {row : Row} : row ∈ parent.rowsWhere w.database (.among join.parent tuples) [] ↔
          row ∈ parent.rowsIn w.database ∧ (Filter.among join.parent tuples).accepts row :=
        PlanNode.mem_rowsWhere fun c hc => (hfits.parent c hc).1
      have hparents : ∀ row ∈ parent.rowsWhere w.database (.among join.parent tuples) [],
          row.IsHeld := fun row hrow => PlanNode.isHeld_of_mem_rowsIn hheld (hmem.mp hrow).1
      obtain ⟨keys, hclimb, hkeys⟩ := ih hparents
      refine ⟨keys, hread.bind hclimb, ?_⟩
      intro row hrow top hline
      obtain ⟨⟩ | ⟨hjoin', hjoins, habove, hrest⟩ := hline
      obtain rfl := Option.some.inj (hjoin.symm.trans hjoin')
      obtain ⟨key, hkeyMem, htext⟩ := hkey row hrow _ hjoins
      refine hkeys _ (hmem.mpr ⟨habove, List.any_eq_true.mpr ⟨key, hkeyMem, ?_⟩⟩) top hrest
      obtain ⟨hsource, hpresent⟩ := Fetch.mem_distinctKeys (htuples ▸ hkeyMem)
      obtain ⟨other, hother, rfl⟩ := List.mem_map.mp hsource
      refine Filter.tupleMatches_of_keyText_eq (PlanNode.isHeld_of_mem_rowsIn hheld habove) ?_
        hpresent (hjoins.text.symm.trans htext.symm)
      intro v hv
      obtain ⟨c, -, rfl⟩ := List.mem_map.mp hv
      exact hrows other hother c

/-- A select by the key of a row accepts what the key matches. -/
theorem accepts_key {t : Table} (h : t.WellFormed schema) (values : Row) (stored : StoredRow) :
    (Filter.key t.primaryKey ((t.keyOf values).tuple t.primaryKey)).accepts stored.visible =
      stored.values.matchesKey (t.keyOf values) := by
  have htuple : (t.keyOf values).tuple t.primaryKey = values.tuple t.primaryKey :=
    Row.tuple_project fun c hc => hc
  show List.any [_] _ = _
  rw [htuple, List.any_cons, List.any_nil, Bool.or_false, Filter.tupleMatches_tuple]
  refine Eq.trans ?_ Row.matchesKey_project.symm
  rw [Bool.eq_iff_iff, List.all_eq_true, List.all_eq_true]
  refine forall₂_congr fun c hc => ?_
  rw [StoredRow.value_visible (h.system c (h.key c hc))]

/-- The changed row has the values of the row that the record describes, if it describes one. -/
theorem changedRow_gives (hwiring : wiring.Plain) (hschema : w.database.schema.WellFormed)
    (hheld : w.database.IsHeld) {r : ChangeRecord} (hvalues : ∀ row, r.values = some row → row.IsHeld)
    {node : PlanNode} {t : Table} (hnode : node.Fits w.database.schema t)
    (htable : node.table = r.table) :
    ∃ found, Gives wiring w (changedRow node r) (.ok found) ∧ (∀ row, found = some row → row.IsHeld) ∧
      ∀ stored, r.Describes w.database stored → ∃ row, found = some row ∧ ∀ columns : List String,
        (∀ c ∈ columns, c ∈ node.fetchColumns ∧ c ∉ Table.systemColumns) →
          row.tuple columns = stored.values.tuple columns := by
  rw [changedRow]
  cases hvalues' : r.values with
  | some values =>
    refine ⟨_, gives_pure _, fun row h => hvalues row (hvalues'.trans h), fun stored hr => ?_⟩
    rcases hr.values with heq | ⟨hnone, -⟩
    · obtain rfl := Option.some.inj (hvalues'.symm.trans heq)
      exact ⟨_, rfl, fun _ _ => rfl⟩
    · simp [hvalues'] at hnone
  | none =>
    have hread : Gives wiring w (executeTransported ⟨node.table, node.fetchColumns,
        .key node.primaryKey (r.key.tuple node.primaryKey), [], none, none⟩)
        (.ok (node.rowsWhere w.database
          (.key node.primaryKey (r.key.tuple node.primaryKey)) [])) :=
      .mapError _ (gives_execute hwiring (hnode.select_eq _ _ _ _))
    refine ⟨_, hread.bind (gives_pure _), fun row hrow => ?_, fun stored hr => ?_⟩
    · have hmem := List.mem_of_mem_head? (Option.mem_def.mpr hrow)
      exact PlanNode.isHeld_of_mem_rowsIn hheld
        ((PlanNode.mem_rowsWhere hnode.keyFetched).mp hmem).1
    have hfind := (hr.values.resolve_left (by simp [hvalues'])).2
    have hkey : r.key = t.keyOf stored.values := hr.key t (htable ▸ hnode.table)
    have haccepts : (Filter.key node.primaryKey (r.key.tuple node.primaryKey)).accepts ∘
        StoredRow.visible = fun stored => stored.values.matchesKey r.key := by
      funext other
      rw [hkey, hnode.key]
      exact accepts_key (hschema.table _ _ hnode.table) stored.values other
    have hchosen : (node.rowsWhere w.database
        (.key node.primaryKey (r.key.tuple node.primaryKey)) []) =
          (((w.database.tables.getD r.table []).map StoredRow.visible).filter
            (Filter.key node.primaryKey (r.key.tuple node.primaryKey)).accepts).map
              (Database.project node.fetchColumns) := by
      rw [PlanNode.rowsWhere, htable]
      rfl
    refine ⟨Database.project node.fetchColumns stored.visible, ?_, fun columns hcolumns => ?_⟩
    · rw [hchosen, List.head?_map, List.head?_filter, List.find?_map, haccepts, hfind]
      rfl
    · rw [Row.tuple_project fun c hc => (hcolumns c hc).1]
      exact Row.tuple_congr fun c hc => StoredRow.value_visible (hcolumns c hc).2

/-- What the sink finds for a key of a node. -/
def foundFor (w : World) (wiring : Wiring) (writer : Writer) (node : PlanNode) (key : Row) :
    Option (List String) :=
  (w.sink wiring.sink).findByMeta writer.index node.table
    (node.primaryKey.map fun c => (c, key.value c))

/-- Lookups add what the sink finds to what is named. -/
theorem lookUp_gives (writer : Writer) (root node : PlanNode) (keys : List Row) (found : Resolution) :
    ∃ found', Gives wiring w (lookUp writer root node keys found) (.ok found') ∧
      found.Within found' ∧
      ∀ key ∈ keys, found'.Covers (foundFor w wiring writer node key) := by
  induction keys generalizing found with
  | nil => exact ⟨found, gives_pure _, .refl found, by simp⟩
  | cons key rest ih =>
    obtain ⟨found', hgives, hwithin, hrest⟩ := ih (found.pushFound root.primaryKey.length
      (foundFor w wiring writer node key))
    refine ⟨found', ?_, (found.within_pushFound _ _).trans hwithin, ?_⟩
    · rw [lookUp]
      exact (Writer.findByMeta_gives writer _ _).bind hgives
    · intro other hother
      rcases List.mem_cons.mp hother with rfl | hother
      · exact (found.covers_pushFound _ _).mono hwithin
      · exact hrest other hother

/-- A record of a nested table names what the sink finds for its keys, and every root at the top of a
line from a row that it describes. -/
theorem resolveNested_gives (hwiring : wiring.Plain) (hschema : w.database.schema.WellFormed)
    (hheld : w.database.IsHeld) (writer : Writer) (root : PlanNode) {r : ChangeRecord}
    (hvalues : ∀ row, r.values = some row → row.IsHeld) {paths : List (List PlanNode)}
    (hpaths : ∀ path ∈ paths, ∃ node rest, path = node :: rest ∧ node.table = r.table ∧
      (∃ t, node.Fits w.database.schema t) ∧ Climbable w.database.schema node rest)
    (found : Resolution) :
    ∃ found', Gives wiring w (resolveNested writer root r paths found) (.ok found') ∧
      found.Within found' ∧
      (∀ node rest, node :: rest ∈ paths → ∀ key ∈ r.key :: r.oldKey.toList,
        found'.Covers (foundFor w wiring writer node key)) ∧
      ∀ stored, r.Describes w.database stored →
        ∀ node parent rest top, node :: parent :: rest ∈ paths →
          Lineage w.database node (Database.project node.fetchColumns stored.visible)
            (parent :: rest) top →
          found'.Names (Identity.ofKey (top.tuple root.primaryKey)) := by
  induction paths generalizing found with
  | nil => exact ⟨found, gives_pure _, .refl found, by simp, by simp⟩
  | cons path paths ih =>
    obtain ⟨hpath, hothers⟩ := List.forall_mem_cons.mp hpaths
    obtain ⟨node, rest, rfl, htable, ⟨t, hnode⟩, hclimbable⟩ := hpath
    obtain ⟨looked, hlooked, hwithin, hcovers⟩ :=
      lookUp_gives writer root node (r.key :: r.oldKey.toList) found
    obtain ⟨row?, hrow, hrowHeld, hdescribed⟩ :=
      changedRow_gives hwiring hschema hheld hvalues hnode htable
    obtain ⟨keys, hwalk, hkeys⟩ : ∃ keys,
        Gives wiring w (walkToRoots root (node :: rest) r) (.ok keys) ∧
          ∀ row, row? = some row → ∀ top, Lineage w.database node row rest top →
            top.tuple root.primaryKey ∈ keys := by
      rw [walkToRoots]
      cases row? with
      | none => exact ⟨[], hrow.bind (gives_pure _), by simp⟩
      | some row =>
        have hrows : ∀ found ∈ [row], found.IsHeld := by simpa using hrowHeld row rfl
        obtain ⟨keys, hclimb, hkeys⟩ := climb_gives hwiring hheld root hclimbable hrows
        refine ⟨keys, hrow.bind hclimb, ?_⟩
        rintro _ ⟨⟩
        exact hkeys row (by simp)
    obtain ⟨found', hrest, hrested, hlookups, hlines⟩ :=
      ih hothers (keys.foldl Resolution.pushKey looked)
    have hpushed := looked.within_foldl_pushKey keys
    refine ⟨found', ?_, hwithin.trans (hpushed.trans hrested), ?_, ?_⟩
    · rw [resolveNested]
      exact hlooked.bind (hwalk.bind hrest)
    · intro other above hmem key hkey
      rcases List.mem_cons.mp hmem with heq | hmem
      · obtain ⟨rfl, rfl⟩ := List.cons.inj heq
        exact (hcovers key hkey).mono (hpushed.trans hrested)
      · exact hlookups other above hmem key hkey
    · intro stored hr other parent above top hmem hline
      rcases List.mem_cons.mp hmem with heq | hmem
      · obtain ⟨rfl, rfl⟩ := List.cons.inj heq
        obtain ⟨row, hfound, htuple⟩ := hdescribed stored hr
        -- the changed row starts the same line as the row that is embedded
        have hline' : Lineage w.database other row (parent :: above) top := by
          refine hline.congr fun join hjoin => ?_
          obtain ⟨⟩ | ⟨hjoin', hfits, -, -⟩ := hclimbable
          obtain rfl := Option.some.inj (hjoin.symm.trans hjoin')
          rw [htuple _ hfits.child, Row.tuple_project fun c hc => (hfits.child c hc).1]
          exact (Row.tuple_congr fun c hc => StoredRow.value_visible (hfits.child c hc).2).symm
        refine hrested.names _ ((Resolution.names_foldl_pushKey keys).mpr (.inr ⟨_, ?_, rfl⟩))
        exact hkeys row hfound top hline'
      · exact hlines stored hr other parent above top hmem hline

theorem names_resolveRoot {r : ChangeRecord} {found : Resolution} {identity : String} :
    (resolveRoot root r found).Names identity ↔ found.Names identity ∨ r.NamesRoot root identity := by
  rw [resolveRoot, Resolution.pushKey, Resolution.names_push, ChangeRecord.NamesRoot]
  cases r.oldKey with
  | none => simp
  | some old =>
    by_cases hchanged : r.keyChanged
    · simp [hchanged, Resolution.pushKey, Resolution.names_push, or_assoc, or_comm]
    · simp [hchanged]

end Resolve

def categoryTable : Table :=
  ⟨"category", [⟨"id", "integer"⟩, ⟨"name", "text"⟩, ⟨"parent_id", "integer"⟩], ["id"],
    [⟨["parent_id"], "category", ["id"]⟩]⟩

def productTable : Table :=
  ⟨"product", [⟨"id", "integer"⟩, ⟨"category_id", "integer"⟩], ["id"],
    [⟨["category_id"], "category", ["id"]⟩]⟩

def shopSchema : Schema := .ofTables [categoryTable, productTable]

theorem shopSchema_wellFormed : shopSchema.WellFormed := by
  have hcategory : shopSchema.table? "category" = some categoryTable := by cbv
  have htable : ∀ name t, shopSchema.table? name = some t →
      t.name = name ∧ (t = categoryTable ∨ t = productTable) := by
    intro name t h
    have hmem : (name, t) ∈ [("category", categoryTable), ("product", productTable)] :=
      Keyed.mem_of_get? h
    simp only [List.mem_cons, Prod.mk.injEq, List.not_mem_nil, or_false] at hmem
    rcases hmem with ⟨rfl, rfl⟩ | ⟨rfl, rfl⟩
    · exact ⟨rfl, .inl rfl⟩
    · exact ⟨rfl, .inr rfl⟩
  refine ⟨fun name t h => (htable name t h).1, fun name t h => ?_⟩
  have hreferenced : ∀ k ∈ t.foreignKeys, k.table = "category" ∧ k.referenced = ["id"] := by
    rcases (htable name t h).2 with rfl | rfl <;> decide
  refine ⟨?_, ?_, ?_, ?_, ?_⟩
  · rcases (htable name t h).2 with rfl | rfl <;> decide
  · rcases (htable name t h).2 with rfl | rfl <;> decide
  · intro k hk other hother
    obtain ⟨htarget, hcolumns⟩ := hreferenced k hk
    rw [htarget, hcategory] at hother
    rw [hcolumns, ← Option.some.inj hother]
    decide
  · rcases (htable name t h).2 with rfl | rfl <;> decide
  · rcases (htable name t h).2 with rfl | rfl <;> decide

def shopNode : Node :=
  ⟨"category", [], [], none, [⟨"category", [], [], none, []⟩, ⟨"product", [], [], none, []⟩]⟩

def innerNode : PlanNode :=
  ⟨"category", none, ["id", "name", "parent_id"], [], ["id", "name", "parent_id"], ["id"],
    some ⟨.oneToMany, ["id"], ["parent_id"]⟩⟩

def productNode : PlanNode :=
  ⟨"product", none, ["id", "category_id"], [], ["id", "category_id"], ["id"],
    some ⟨.oneToMany, ["id"], ["category_id"]⟩⟩

def shopPlan : Plan :=
  ⟨⟨"category", none, ["id", "name", "parent_id"], [], ["id", "name", "parent_id"], ["id"], none⟩,
    [⟨innerNode, []⟩, ⟨productNode, []⟩]⟩

theorem build_shopNode : Plan.build shopNode shopSchema = .ok shopPlan := by cbv

def innerCategory : StoredRow :=
  ⟨[("id", .ofNat 2), ("name", .string "twig"), ("parent_id", .ofNat 1)], 2⟩

def soleProduct : StoredRow := ⟨[("id", .ofNat 7), ("category_id", .ofNat 1)], 1⟩

/-- The database after the inserts and the update. -/
def shopDatabase : Database :=
  match (Database.empty shopSchema).commit
      [.insert "category" [("id", .ofNat 1), ("name", .string "top")],
        .insert "category" [("id", .ofNat 2), ("name", .string "leaf"), ("parent_id", .ofNat 1)],
        .insert "product" [("id", .ofNat 7), ("category_id", .ofNat 1)]] >>= fun (_, _, db) =>
      db.commit [.update "category" [("id", .ofNat 2)] [("name", .string "twig")]] with
  | .ok (_, _, db) => db
  | .error _ => .empty shopSchema

def shop : World := { World.empty shopSchema shopSchema "" "" with database := shopDatabase }

def shopWriter : Writer := ⟨"categories", .none, []⟩

/-- The update of the inner category, as it is logged. -/
def innerUpdate : ChangeRecord :=
  ⟨"category", .update, [("id", .ofNat 2)], none, some innerCategory.values, 2, 3⟩

theorem shopDatabase_tables : shopDatabase.tables =
    [("category", [⟨[("id", .ofNat 1), ("name", .string "top"), ("parent_id", .null)], 1⟩,
      innerCategory]), ("product", [soleProduct])] := by cbv

theorem shopDatabase_isHeld : shopDatabase.IsHeld := by
  have hvalues : ∀ entry ∈ shopDatabase.tables, ∀ stored ∈ entry.2, ∀ value ∈ stored.values,
      value.2.IsHeld := by
    simp only [shopDatabase_tables, innerCategory, soleProduct, List.forall_mem_cons, Json.ofNat,
      Json.IsHeld, Number.IsHeld, List.not_mem_nil, false_implies, implies_true, and_self]
  intro table stored hstored c
  rw [Keyed.getD] at hstored
  cases hfound : shopDatabase.tables.get? table with
  | none => simp [hfound] at hstored
  | some rows =>
    rw [Row.value, Keyed.getD]
    cases hvalue : Keyed.get? stored.values c with
    | none => trivial
    | some value =>
      have hrows : stored ∈ rows := by simpa [hfound] using hstored
      exact hvalues _ (Keyed.mem_of_get? hfound) stored hrows _ (Keyed.mem_of_get? hvalue)

/-- The insert of the product, as a log without values has it. -/
def productInsert : ChangeRecord := ⟨"product", .insert, [("id", .ofNat 7)], none, none, 1, 2⟩

theorem productInsert_describes : productInsert.Describes shopDatabase soleProduct := by
  have hrows : shopDatabase.tables.getD productInsert.table [] = [soleProduct] := by cbv
  refine ⟨?_, ?_, .inr ⟨rfl, ?_⟩⟩
  · rw [hrows]
    exact List.mem_singleton_self _
  · intro t ht
    have hproduct : shopDatabase.schema.table? productInsert.table = some productTable := by cbv
    obtain rfl := Option.some.inj (hproduct.symm.trans ht)
    rfl
  · rw [hrows]
    rfl

theorem innerUpdate_describes : innerUpdate.Describes shopDatabase innerCategory := by
  have hrows : shopDatabase.tables.getD "category" [] =
      [⟨[("id", .ofNat 1), ("name", .string "top"), ("parent_id", .null)], 1⟩, innerCategory] := by
    rw [shopDatabase_tables]
    rfl
  refine ⟨?_, ?_, .inl rfl⟩
  · rw [show innerUpdate.table = "category" from rfl, hrows]
    simp
  · intro t ht
    have hcategory : shopDatabase.schema.table? "category" = some categoryTable := by cbv
    obtain rfl := Option.some.inj (hcategory.symm.trans ht)
    rfl

end DocSync
