import DocSync.Document.Compile
import DocSync.Proofs.Node.Arena
import Mathlib

/-!
The shape of documents.  A declared node describes the object that a row tree becomes: its columns under
their output names in the order of the table, then one field per child in the order of declaration, all of
different names.  Main statement: what a plan compiles is the object that its declaration describes,
followed by the reserved field.
-/

namespace DocSync

/-- What the objects of a child's rows become in the object above them. -/
def JoinKind.field (kind : JoinKind) (objects : List Row) : Json :=
  match kind with
  | .oneToMany => .array (objects.map .object)
  | .manyToOne => .object (objects.headD [])

namespace Node

/-- The columns that a node outputs: those that it names or else every one of the table, each once, in
the order of the table. -/
structure Outputs (node : Node) (t : Table) (outputs : List String) : Prop where
  mem : ∀ c, c ∈ outputs ↔ if node.columns = [] then c ∈ t.columnNames else c ∈ node.columns
  order : outputs.Pairwise fun a b => t.position a < t.position b

/-- The names of the fields that a node declares, columns first. -/
def fieldNames (node : Node) (outputs : List String) : List String :=
  outputs.map node.fieldName ++ node.children.map table

mutual

/-- A node describes an object of a row tree. -/
inductive Describes (schema : Schema) : Node → RowTree → Row → Prop
  | mk {node : Node} {tree : RowTree} {t : Table} {outputs : List String} {fields : Row} :
      schema.table? node.table = some t → node.Outputs t outputs →
      DescribesChildren schema t node.children tree.children fields →
      (metaField :: node.fieldNames outputs).Nodup →
      Describes schema node tree (outputs.map (fun c => (node.fieldName c, tree.row.value c)) ++ fields)

/-- The children of a node describe its further fields, each from the rows in its slot; a slot that a tree
lacks has no rows. -/
inductive DescribesChildren (schema : Schema) : Table → List Node → List (List RowTree) → Row → Prop
  | nil {t : Table} {slots : List (List RowTree)} : DescribesChildren schema t [] slots []
  | cons {t below : Table} {child : Node} {rest : List Node} {slots : List (List RowTree)} {join : Join}
      {objects : List Row} {fields : Row} :
      schema.table? child.table = some below → Plan.resolveJoin t below = .ok join →
      DescribesRows schema child (slots.headD []) objects →
      DescribesChildren schema t rest slots.tail fields →
      DescribesChildren schema t (child :: rest) slots ((child.table, join.kind.field objects) :: fields)

/-- A node describes one object of each row, in order. -/
inductive DescribesRows (schema : Schema) : Node → List RowTree → List Row → Prop
  | nil {node : Node} : DescribesRows schema node [] []
  | cons {node : Node} {tree : RowTree} {trees : List RowTree} {object : Row} {objects : List Row} :
      Describes schema node tree object → DescribesRows schema node trees objects →
      DescribesRows schema node (tree :: trees) (object :: objects)

end

variable {schema : Schema} {node : Node} {tree : RowTree} {object : Row}

theorem DescribesChildren.keys {t : Table} : ∀ {nodes : List Node} {slots : List (List RowTree)}
    {fields : Row}, DescribesChildren schema t nodes slots fields → fields.map Prod.fst = nodes.map table
  | _, _, _, .nil => rfl
  | _, _, _, .cons _ _ _ hrest => by rw [List.map_cons, List.map_cons, hrest.keys]

theorem Describes.nodup_keys (h : node.Describes schema tree object) :
    (metaField :: object.map Prod.fst).Nodup := by
  obtain ⟨-, -, hfields, hnames⟩ := h
  rw [fieldNames, ← hfields.keys] at hnames
  rwa [List.map_append, List.map_map]

theorem Outputs.unique {t : Table} {outputs others : List String} (h : node.Outputs t outputs)
    (h' : node.Outputs t others) : outputs = others := by
  have hnodup {columns : List String} (h : node.Outputs t columns) : columns.Nodup := by
    refine h.order.imp ?_
    rintro a b hlt rfl
    exact Nat.lt_irrefl _ hlt
  have hperm : outputs.Perm others := by
    refine (List.perm_ext_iff_of_nodup (hnodup h) (hnodup h')).mpr fun c => ?_
    rw [h.mem, h'.mem]
  refine hperm.eq_of_pairwise ?_ h.order h'.order
  intro a b _ _ hab hba
  exact absurd hab (Nat.lt_asymm hba)

mutual

/-- A node describes no more than one object of a row tree. -/
theorem Describes.unique : ∀ {node : Node} {tree : RowTree} {object other : Row},
    node.Describes schema tree object → node.Describes schema tree other → object = other
  | _, _, _, _, .mk ht houtputs hfields _, .mk ht' houtputs' hfields' _ => by
    obtain rfl := Option.some.inj (ht.symm.trans ht')
    rw [houtputs.unique houtputs', hfields.unique hfields']

theorem DescribesChildren.unique {t : Table} : ∀ {nodes : List Node} {slots : List (List RowTree)}
    {fields others : Row}, DescribesChildren schema t nodes slots fields →
    DescribesChildren schema t nodes slots others → fields = others
  | _, _, _, _, .nil, .nil => rfl
  | _, _, _, _, .cons hbelow hjoin hrows hrest, .cons hbelow' hjoin' hrows' hrest' => by
    obtain rfl := Option.some.inj (hbelow.symm.trans hbelow')
    obtain rfl := Except.ok.inj (hjoin.symm.trans hjoin')
    rw [hrows.unique hrows', hrest.unique hrest']

theorem DescribesRows.unique : ∀ {node : Node} {trees : List RowTree} {objects others : List Row},
    DescribesRows schema node trees objects → DescribesRows schema node trees others → objects = others
  | _, _, _, _, .nil, .nil => rfl
  | _, _, _, _, .cons hfirst hrest, .cons hfirst' hrest' => by
    rw [hfirst.unique hfirst', hrest.unique hrest']

end

end Node

/-- The columns of a table stand in their order, if no two have one name. -/
theorem Table.pairwise_columnNames {t : Table} (h : t.columnNames.Nodup) :
    t.columnNames.Pairwise fun a b => t.position a < t.position b := by
  rw [List.pairwise_iff_getElem]
  intro i j hi hj hlt
  have hposition {k : Nat} (hk : k < t.columnNames.length) : t.position t.columnNames[k] = k := by
    rw [position, List.idxOf_append_of_mem (List.getElem_mem hk), h.idxOf_getElem]
  rw [hposition hi, hposition hj]
  exact hlt

theorem Table.mem_of_isSelectable {t : Table} {c : String} (h : t.isSelectable c) :
    c ∈ t.columnNames ++ systemColumns := by
  simpa [isSelectable, hasColumn] using h

namespace Plan

variable {schema : Schema} {node : Node} {nodes : List Node} {t : Table} {plan : Plan} {plans : List Plan}

theorem repeatedField?_eq_none_iff {written fields : List String} :
    repeatedField? written fields = none ↔ fields.Nodup ∧ ∀ f ∈ fields, f ∉ written := by
  induction fields generalizing written with
  | nil => simp [repeatedField?]
  | cons first rest ih =>
    rw [repeatedField?]
    by_cases hfirst : first ∈ written
    · rw [if_pos (List.contains_iff_mem.mpr hfirst)]
      simp [hfirst]
    · rw [if_neg (by simpa using hfirst), ih, List.nodup_cons, List.forall_mem_cons]
      constructor
      · rintro ⟨hrest, hnew⟩
        exact ⟨⟨fun hmem => hnew first hmem List.mem_cons_self, hrest⟩, hfirst,
          fun f hf hwritten => hnew f hf (List.mem_cons_of_mem _ hwritten)⟩
      · rintro ⟨⟨hnot, hrest⟩, -, hnew⟩
        refine ⟨hrest, fun f hf hmem => ?_⟩
        rcases List.mem_cons.mp hmem with rfl | hmem
        · exact hnot hf
        · exact hnew f hf hmem

/-- The output columns of a plan are those that its declaration asks for. -/
theorem outputs_of_outputColumns {outputs : List String} (h : outputColumns node t = .ok outputs)
    (hnodup : outputs.Nodup) : node.Outputs t outputs := by
  have hselectable := outputColumns_selectable h
  unfold outputColumns at h
  split at h
  · rename_i hall
    obtain rfl := Except.ok.inj h
    have hall : node.columns = [] := List.isEmpty_iff.mp hall
    exact ⟨fun c => by rw [if_pos hall], Table.pairwise_columnNames hnodup⟩
  rename_i hsome
  split at h
  · contradiction
  obtain rfl := Except.ok.inj h
  refine ⟨fun c => ?_, ?_⟩
  · rw [if_neg (by simpa using hsome), mem_inSchemaOrder, mem_distinct]
  -- columns that are sorted by place and differ are at different places, as all of them have one
  have hsorted : (inSchemaOrder t (distinct node.columns)).Pairwise
      fun a b => decide (t.position a ≤ t.position b) = true := by
    apply sortStable_pairwise
    · intro a _ b _
      simpa using Nat.le_total _ _
    · intro a _ b _ c _ hab hbc
      rw [decide_eq_true_eq] at hab hbc ⊢
      exact Nat.le_trans hab hbc
  refine (hsorted.and hnodup).imp_of_mem fun ha _ hab =>
    Nat.lt_of_le_of_ne (of_decide_eq_true hab.1) fun heq => hab.2 ?_
  exact (List.idxOf_inj (Table.mem_of_isSelectable (hselectable _ ha))).mp heq

theorem map_field_of_forall₂
    (h : List.Forall₂ (fun node plan => buildBelow schema (some t) node = .ok plan) nodes plans) :
    plans.map (·.node.field) = nodes.map Node.table := by
  induction h with
  | nil => rfl
  | cons hfirst _ ih =>
    obtain ⟨-, -, -, -, -, -, -, -, -, -, rfl⟩ := buildBelow_eq_ok hfirst
    rw [List.map_cons, List.map_cons, ih]
    rfl

/-- What a built plan comes from: an output of each name, and children that are built below its table. -/
theorem exists_of_buildBelow {upper : Option Table} (h : buildBelow schema upper node = .ok plan) :
    ∃ t, schema.table? node.table = some t ∧ plan.node.primaryKey = t.primaryKey ∧
      plan.node.table = node.table ∧ plan.node.renames = node.renames ∧
      node.Outputs t plan.node.outputColumns ∧
      (metaField :: node.fieldNames plan.node.outputColumns).Nodup ∧
      (∀ p, upper = some p → ∃ join, resolveJoin p t = .ok join ∧ plan.node.join = some join) ∧
      List.Forall₂ (fun node plan => buildBelow schema (some t) node = .ok plan) node.children
        plan.children := by
  obtain ⟨t, outputs, join, children, ht, -, houtputs, hjoin, hchildren, hfields, rfl⟩ := buildBelow_eq_ok h
  have hbuilt := forall₂_of_buildChildren hchildren
  have hnames : fields outputs node.renames children = node.fieldNames outputs := by
    rw [fields, Node.fieldNames, map_field_of_forall₂ hbuilt]
    rfl
  obtain ⟨hnodup, hreserved⟩ := repeatedField?_eq_none_iff.mp hfields
  rw [hnames] at hnodup hreserved
  have houtput : outputs.Nodup := List.Nodup.of_map _ (List.nodup_append.mp hnodup).1
  refine ⟨t, ht, rfl, rfl, rfl, outputs_of_outputColumns houtputs houtput, ?_, ?_, hbuilt⟩
  · exact List.nodup_cons.mpr ⟨fun hmem => hreserved _ hmem List.mem_cons_self, hnodup⟩
  · rintro p rfl
    obtain ⟨⟨⟩, -⟩ | ⟨_, j, ⟨⟩, rfl, hj⟩ := hjoin
    exact ⟨j, hj, rfl⟩

/-- Columns of different output names are all written, in turn. -/
theorem foldl_put_of_nodup {n : PlanNode} {row : Row} (h : (n.outputColumns.map n.fieldName).Nodup) :
    n.outputColumns.foldl (fun source column => Keyed.put source (n.fieldName column) (row.value column)) [] =
      n.outputColumns.map fun c => (n.fieldName c, row.value c) := by
  have hentries : Keyed.ofEntries (n.outputColumns.map fun c => (n.fieldName c, row.value c)) =
      n.outputColumns.map fun c => (n.fieldName c, row.value c) := by
    apply Keyed.ofEntries_of_nodup
    rwa [List.map_map]
  rwa [Keyed.ofEntries, List.foldl_map] at hentries

/-- The field of a child is of the kind of its join. -/
theorem childFields_cons {child : Plan} {rest : List Plan} {join : Join} (h : child.node.join = some join)
    (slots : List (List RowTree)) (written : Row) :
    childFields (child :: rest) slots written = childFields rest slots.tail
      (Keyed.put written child.node.table (join.kind.field ((slots.headD []).map (source child)))) := by
  obtain ⟨kind, parentColumns, childColumns⟩ := join
  rw [childFields, h]
  cases kind with
  | oneToMany => simp [JoinKind.field, PlanNode.field, Function.comp_def]
  | manyToOne => cases slots.headD [] <;> rfl

theorem describesRows_map (h : ∀ tree, node.Describes schema tree (source plan tree))
    (trees : List RowTree) : Node.DescribesRows schema node trees (trees.map (source plan)) := by
  induction trees with
  | nil => exact .nil
  | cons tree rest ih => exact .cons (h tree) ih

mutual

/-- The source of a row is what the declared node describes. -/
theorem describes_source : ∀ {plan : Plan} {upper : Option Table} {node : Node} (tree : RowTree),
    buildBelow schema upper node = .ok plan → node.Describes schema tree (source plan tree)
  | ⟨n, children⟩, upper, node, tree, h => by
    obtain ⟨t, ht, -, -, hrenames, houtputs, hnames, -, hchildren⟩ := exists_of_buildBelow h
    have hfield : n.fieldName = node.fieldName := by
      funext c
      rw [PlanNode.fieldName, Node.fieldName, hrenames]
    have hnodup : (n.outputColumns.map n.fieldName ++ node.children.map Node.table).Nodup :=
      hfield ▸ (List.nodup_cons.mp hnames).2
    rw [source, foldl_put_of_nodup (List.nodup_append.mp hnodup).1]
    obtain ⟨fields, heq, hfields⟩ := exists_childFields hchildren tree.children
      (n.outputColumns.map fun c => (n.fieldName c, tree.row.value c)) (by rwa [List.map_map])
    rw [heq, hfield]
    exact .mk ht houtputs hfields hnames

/-- Fields of children whose names are new are written behind what is there. -/
theorem exists_childFields {t : Table} : ∀ {plans : List Plan} {nodes : List Node}
    (_ : List.Forall₂ (fun node plan => buildBelow schema (some t) node = .ok plan) nodes plans)
    (slots : List (List RowTree)) (written : Row),
    (written.map Prod.fst ++ nodes.map Node.table).Nodup →
      ∃ fields, childFields plans slots written = written ++ fields ∧
        Node.DescribesChildren schema t nodes slots fields
  | [], _, .nil, slots, written, _ => ⟨[], by rw [childFields, List.append_nil], .nil⟩
  | child :: rest, node :: nodes, .cons hfirst hrest, slots, written, hnodup => by
    obtain ⟨below, hbelow, -, htable, -, -, -, hjoin, -⟩ := exists_of_buildBelow hfirst
    obtain ⟨join, hresolved, hjoin⟩ := hjoin t rfl
    have hobjects := describesRows_map (fun tree => describes_source tree hfirst) (slots.headD [])
    obtain ⟨fields, heq, hfields⟩ := exists_childFields hrest slots.tail
      (written ++ [(node.table, join.kind.field ((slots.headD []).map (source child)))])
      (by simpa using hnodup)
    have hnew : node.table ∉ written.map Prod.fst := by
      intro hmem
      exact (List.nodup_append.mp hnodup).2.2 _ hmem _ List.mem_cons_self rfl
    refine ⟨(node.table, join.kind.field ((slots.headD []).map (source child))) :: fields, ?_,
      .cons hbelow hresolved hobjects hfields⟩
    rw [childFields_cons hjoin, htable, Keyed.put_of_not_mem hnew, heq, List.append_assoc]
    rfl

end

theorem compile_of_key {tree : RowTree} (h : ∀ c ∈ plan.node.primaryKey, (tree.row.value c).isNull = false)
    (index : String) : plan.compile index tree = .ok ⟨Identity.ofKey (tree.row.tuple plan.node.primaryKey),
      index, Keyed.put (source plan tree) metaField (recordBelow [] plan tree).toJson⟩ := by
  have hnone : (plan.node.primaryKey.find? fun c => (tree.row.value c).isNull) = none := by
    rw [List.find?_eq_none]
    intro c hc
    rw [h c hc]
    exact Bool.false_ne_true
  rw [compile, hnone]

/-- A root row with its key becomes a document of the one object that the declared node describes, followed
by the reserved field, which is none of the object's.  Its identity is that of the values in the key of the
root's table, whatever the node outputs and under whatever names. -/
theorem compile_describes (h : build node schema = .ok plan) (ht : schema.table? node.table = some t)
    {tree : RowTree} (hkey : ∀ c ∈ t.primaryKey, (tree.row.value c).isNull = false) (index : String) :
    ∃ object members, plan.compile index tree =
        .ok ⟨Identity.ofKey (tree.row.tuple t.primaryKey), index, object ++ [(metaField, .object members)]⟩ ∧
      node.Describes schema tree object ∧ (∀ other, node.Describes schema tree other → other = object) ∧
      metaField ∉ object.map Prod.fst := by
  obtain ⟨t', ht', hprimary, -⟩ := exists_of_buildBelow h
  obtain rfl := Option.some.inj (ht.symm.trans ht')
  have hdescribes := describes_source tree h
  have hreserved := (List.nodup_cons.mp hdescribes.nodup_keys).1
  obtain ⟨members, hmembers⟩ : ∃ members, (recordBelow [] plan tree).toJson = .object members := ⟨_, rfl⟩
  refine ⟨source plan tree, members, ?_, hdescribes, fun other hother => hother.unique hdescribes, hreserved⟩
  rw [compile_of_key (hprimary ▸ hkey), Keyed.put_of_not_mem hreserved, hmembers, hprimary]

/-! An album of no label with two tracks, the first of which has more artists than it shows. -/

def albumTree : RowTree :=
  ⟨[("id", .ofNat 7), ("title", .string "Dawn"), ("label_id", .null)],
    [[], [
      ⟨[("id", .ofNat 2), ("album_id", .ofNat 7), ("artist_id", .ofNat 3), ("title", .string "Lark")],
        [[.leaf [("id", .ofNat 3), ("name", .string "Ida")] 0,
          .leaf [("id", .ofNat 5), ("name", .string "Una")] 0]]⟩,
      ⟨[("id", .ofNat 1), ("album_id", .ofNat 7)], []⟩]]⟩

def albumObject : Row :=
  [("id", .ofNat 7), ("name", .string "Dawn"), ("label", .object []),
    ("track", .array [
      .object [("title", .string "Lark"), ("artist", .object [("id", .ofNat 3), ("name", .string "Ida")])],
      .object [("title", .null), ("artist", .object [])]])]

def albumMembers : Keyed Json :=
  [("artist", .object [("id", .array [.ofNat 3, .ofNat 5])]),
    ("track", .object [("id", .array [.ofNat 1, .ofNat 2])])]

theorem compile_albumTree : albumPlan.compile "albums" albumTree =
    .ok ⟨"7", "albums", albumObject ++ [(metaField, .object albumMembers)]⟩ := by cbv

theorem albumTree_keyed : ∀ c ∈ albumTable.primaryKey, (albumTree.row.value c).isNull = false := by
  simp [albumTable, albumTree, Row.value, Keyed.getD, Keyed.get?, Json.ofNat, Json.isNull]

/-- The title stands behind the key under its other name, the label is an empty object, and the second
track has neither title nor artist. -/
theorem compile_describes_album :
    build albumNode musicSchema = .ok albumPlan ∧ musicSchema.table? "album" = some albumTable ∧
      (∀ c ∈ albumTable.primaryKey, (albumTree.row.value c).isNull = false) ∧
      albumNode.Describes musicSchema albumTree albumObject := by
  obtain ⟨object, members, hcompile, hdescribes, -⟩ :=
    compile_describes build_albumNode table?_album albumTree_keyed "albums"
  refine ⟨build_albumNode, table?_album, albumTree_keyed, ?_⟩
  have hsource := congrArg Document.source (Except.ok.inj (hcompile.symm.trans compile_albumTree))
  rwa [List.append_inj_left' hsource rfl] at hdescribes

end Plan

end DocSync
