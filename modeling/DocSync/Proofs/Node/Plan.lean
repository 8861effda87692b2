import DocSync.Proofs.Keyed
import DocSync.Proofs.Relation.History
import DocSync.Proofs.Sorting

/-!
What a plan is sure of once it is built.  Over a well-formed schema every node reads a table that
exists, fetches its key and the columns of its joins, and joins as many columns as it is joined with.
-/

namespace DocSync

/-- A table whose key is made of its columns, and whose foreign keys pair columns of it with equally many of
another table. -/
structure Table.Linked (schema : Schema) (t : Table) : Prop where
  key : ∀ c ∈ t.primaryKey, c ∈ t.columnNames
  columns : ∀ k ∈ t.foreignKeys, ∀ c ∈ k.columns, c ∈ t.columnNames
  referenced : ∀ k ∈ t.foreignKeys, ∀ other, schema.table? k.table = some other →
    ∀ c ∈ k.referenced, c ∈ other.columnNames
  length : ∀ k ∈ t.foreignKeys, k.columns.length = k.referenced.length

/-- A schema of linked tables, each under its own name. -/
structure Schema.Linked (schema : Schema) : Prop where
  name : ∀ name t, schema.table? name = some t → t.name = name
  table : ∀ name t, schema.table? name = some t → t.Linked schema

/-- A table whose keys are made of its columns, none of which has the name of a system column. -/
structure Table.WellFormed (schema : Schema) (t : Table) : Prop where
  key : ∀ c ∈ t.primaryKey, c ∈ t.columnNames
  columns : ∀ k ∈ t.foreignKeys, ∀ c ∈ k.columns, c ∈ t.columnNames
  referenced : ∀ k ∈ t.foreignKeys, ∀ other, schema.table? k.table = some other →
    ∀ c ∈ k.referenced, c ∈ other.columnNames
  length : ∀ k ∈ t.foreignKeys, k.columns.length = k.referenced.length
  system : ∀ c ∈ t.columnNames, c ∉ Table.systemColumns

/-- A schema of well-formed tables, each under its own name. -/
structure Schema.WellFormed (schema : Schema) : Prop where
  name : ∀ name t, schema.table? name = some t → t.name = name
  table : ∀ name t, schema.table? name = some t → t.WellFormed schema

theorem Schema.WellFormed.linked {schema : Schema} (h : schema.WellFormed) : schema.Linked where
  name := h.name
  table name t ht :=
    have hwell := h.table name t ht
    ⟨hwell.key, hwell.columns, hwell.referenced, hwell.length⟩

instance (schema : Schema) (t : Table) : Decidable (t.WellFormed schema) :=
  decidable_of_iff
    ((∀ c ∈ t.primaryKey, c ∈ t.columnNames) ∧
      (∀ k ∈ t.foreignKeys, ∀ c ∈ k.columns, c ∈ t.columnNames) ∧
      (∀ k ∈ t.foreignKeys, ∀ other ∈ schema.table? k.table,
        ∀ c ∈ k.referenced, c ∈ other.columnNames) ∧
      (∀ k ∈ t.foreignKeys, k.columns.length = k.referenced.length) ∧
      ∀ c ∈ t.columnNames, c ∉ Table.systemColumns)
    ⟨fun ⟨key, columns, referenced, length, system⟩ => ⟨key, columns, referenced, length, system⟩,
      fun h => ⟨h.key, h.columns, h.referenced, h.length, h.system⟩⟩

instance (schema : Schema) (t : Table) : Decidable (t.Linked schema) :=
  decidable_of_iff
    ((∀ c ∈ t.primaryKey, c ∈ t.columnNames) ∧
      (∀ k ∈ t.foreignKeys, ∀ c ∈ k.columns, c ∈ t.columnNames) ∧
      (∀ k ∈ t.foreignKeys, ∀ other ∈ schema.table? k.table,
        ∀ c ∈ k.referenced, c ∈ other.columnNames) ∧
      ∀ k ∈ t.foreignKeys, k.columns.length = k.referenced.length)
    ⟨fun ⟨key, columns, referenced, length⟩ => ⟨key, columns, referenced, length⟩,
      fun h => ⟨h.key, h.columns, h.referenced, h.length⟩⟩

theorem Schema.linked_of_entries {schema : Schema}
    (h : ∀ entry ∈ schema.tables, entry.2.name = entry.1 ∧ entry.2.Linked schema) : schema.Linked :=
  ⟨fun _ _ ht => (h _ (Keyed.mem_of_get? ht)).1, fun _ _ ht => (h _ (Keyed.mem_of_get? ht)).2⟩

theorem Schema.wellFormed_of_entries {schema : Schema}
    (h : ∀ entry ∈ schema.tables, entry.2.name = entry.1 ∧ entry.2.WellFormed schema) :
    schema.WellFormed :=
  ⟨fun _ _ ht => (h _ (Keyed.mem_of_get? ht)).1, fun _ _ ht => (h _ (Keyed.mem_of_get? ht)).2⟩

/-- The node reads a table of the schema, with the key of the table among what it fetches. -/
structure PlanNode.Fits (schema : Schema) (node : PlanNode) (t : Table) : Prop where
  table : schema.table? node.table = some t
  key : node.primaryKey = t.primaryKey
  keyed : node.primaryKey ≠ []
  selectable : ∀ c ∈ node.fetchColumns, t.isSelectable c
  keyFetched : ∀ c ∈ node.primaryKey, c ∈ node.fetchColumns

/-- Both sides of the join are fetched, and are columns of the rows themselves. -/
structure Join.Fits (join : Join) (parent child : PlanNode) : Prop where
  length : join.parent.length = join.child.length
  parent : ∀ c ∈ join.parent, c ∈ parent.fetchColumns ∧ c ∉ Table.systemColumns
  child : ∀ c ∈ join.child, c ∈ child.fetchColumns ∧ c ∉ Table.systemColumns

/-- Both sides of the join are fetched, and their names are among those that are allowed. -/
structure Join.Spans (join : Join) (allowed : String → Prop) (parent child : PlanNode) : Prop where
  length : join.parent.length = join.child.length
  parent : ∀ c ∈ join.parent, c ∈ parent.fetchColumns ∧ allowed c
  child : ∀ c ∈ join.child, c ∈ child.fetchColumns ∧ allowed c

namespace Plan

/-- Every node of the plan fits the schema, and is joined with the node it hangs from on columns that both
fetch, of names that are allowed. -/
inductive Joined (schema : Schema) (allowed : String → Prop) : Plan → Prop
  | mk {node : PlanNode} {children : List Plan} {t : Table} : node.Fits schema t →
      (∀ child ∈ children, Joined schema allowed child) →
      (∀ child ∈ children, ∃ join, child.node.join = some join ∧ join.Spans allowed node child.node) →
      Joined schema allowed ⟨node, children⟩

/-- Every node of the plan fits the schema, and every node below the root is joined with the node it
hangs from. -/
inductive Fits (schema : Schema) : Plan → Prop
  | mk {node : PlanNode} {children : List Plan} {t : Table} : node.Fits schema t →
      (∀ child ∈ children, Fits schema child) →
      (∀ child ∈ children, ∃ join, child.node.join = some join ∧ join.Fits node child.node) →
      Fits schema ⟨node, children⟩

/-- No key column of a node, and no column on either side of a join, has the name of a system column. -/
inductive Unreserved : Plan → Prop
  | mk {node : PlanNode} {children : List Plan} :
      (∀ c ∈ node.primaryKey, c ∉ Table.systemColumns) →
      (∀ child ∈ children, Unreserved child) →
      (∀ child ∈ children, ∀ join, child.node.join = some join →
        ∀ c ∈ join.parent ++ join.child, c ∉ Table.systemColumns) →
      Unreserved ⟨node, children⟩

variable {schema : Schema} {allowed : String → Prop} {plan : Plan}

theorem Joined.node (h : Joined schema allowed plan) : ∃ t, plan.node.Fits schema t := by
  obtain ⟨hnode, -, -⟩ := h
  exact ⟨_, hnode⟩

theorem Joined.child (h : Joined schema allowed plan) {child : Plan} (hchild : child ∈ plan.children) :
    Joined schema allowed child ∧
      ∃ join, child.node.join = some join ∧ join.Spans allowed plan.node child.node := by
  obtain ⟨-, hchildren, hjoins⟩ := h
  exact ⟨hchildren child hchild, hjoins child hchild⟩

theorem Joined.mono {wider : String → Prop} (hwider : ∀ c, allowed c → wider c)
    (h : Joined schema allowed plan) : Joined schema wider plan := by
  induction h with
  | mk hnode _ hjoins ih =>
    refine .mk hnode ih fun child hchild => ?_
    obtain ⟨join, hjoin, hspans⟩ := hjoins child hchild
    exact ⟨join, hjoin, hspans.length, fun c hc => (hspans.parent c hc).imp_right (hwider c),
      fun c hc => (hspans.child c hc).imp_right (hwider c)⟩

theorem fits_iff_joined : Fits schema plan ↔ Joined schema (· ∉ Table.systemColumns) plan := by
  constructor
  · intro h
    induction h with
    | mk hnode _ hjoins ih =>
      refine .mk hnode ih fun child hchild => ?_
      obtain ⟨join, hjoin, hfits⟩ := hjoins child hchild
      exact ⟨join, hjoin, hfits.length, hfits.parent, hfits.child⟩
  · intro h
    induction h with
    | mk hnode _ hjoins ih =>
      refine .mk hnode ih fun child hchild => ?_
      obtain ⟨join, hjoin, hspans⟩ := hjoins child hchild
      exact ⟨join, hjoin, hspans.length, hspans.parent, hspans.child⟩

theorem Joined.fits (h : Joined schema allowed plan) (hplan : plan.Unreserved) : Fits schema plan := by
  induction h with
  | mk hnode _ hjoins ih =>
    obtain ⟨-, hchildren, hcolumns⟩ := hplan
    refine .mk hnode (fun child hchild => ih child hchild (hchildren child hchild)) fun child hchild => ?_
    obtain ⟨join, hjoin, hspans⟩ := hjoins child hchild
    have hplain := hcolumns child hchild join hjoin
    exact ⟨join, hjoin, hspans.length,
      fun c hc => ⟨(hspans.parent c hc).1, hplain c (List.mem_append_left _ hc)⟩,
      fun c hc => ⟨(hspans.child c hc).1, hplain c (List.mem_append_right _ hc)⟩⟩

theorem Unreserved.key (h : plan.Unreserved) : ∀ c ∈ plan.node.primaryKey, c ∉ Table.systemColumns := by
  obtain ⟨hkey, -, -⟩ := h
  exact hkey

theorem Unreserved.child (h : plan.Unreserved) {child : Plan} (hchild : child ∈ plan.children) :
    child.Unreserved := by
  obtain ⟨-, hchildren, -⟩ := h
  exact hchildren child hchild

theorem Fits.node (h : Fits schema plan) : ∃ t, plan.node.Fits schema t := by
  obtain ⟨hnode, -, -⟩ := h
  exact ⟨_, hnode⟩

theorem Fits.child (h : Fits schema plan) {child : Plan} (hchild : child ∈ plan.children) :
    Fits schema child ∧ ∃ join, child.node.join = some join ∧ join.Fits plan.node child.node := by
  obtain ⟨-, hchildren, hjoins⟩ := h
  exact ⟨hchildren child hchild, hjoins child hchild⟩

/-- Over a well-formed schema no column has the name of a system column. -/
theorem Fits.unreserved (hschema : schema.WellFormed) (h : Fits schema plan) : plan.Unreserved := by
  induction h with
  | mk hnode _ hjoins ih =>
    refine .mk (fun c hc => ?_) ih fun child hchild join hjoin c hc => ?_
    · have hwell := hschema.table _ _ hnode.table
      exact hwell.system c (hwell.key c (hnode.key ▸ hc))
    · obtain ⟨join', hjoin', hfits⟩ := hjoins child hchild
      obtain rfl := Option.some.inj (hjoin.symm.trans hjoin')
      rcases List.mem_append.mp hc with hc | hc
      · exact (hfits.parent c hc).2
      · exact (hfits.child c hc).2

theorem resolveJoin_linked (hschema : schema.Linked) {parent t : Table}
    (hparent : schema.table? parent.name = some parent) (ht : schema.table? t.name = some t)
    {join : Join} (h : resolveJoin parent t = .ok join) :
    join.parent.length = join.child.length ∧ (∀ c ∈ join.parent, c ∈ parent.columnNames) ∧
      ∀ c ∈ join.child, c ∈ t.columnNames := by
  have hkey {t other : Table} (ht : schema.table? t.name = some t) {key : ForeignKey}
      {rest : List ForeignKey} (hkeys : t.foreignKeysTo other.name = key :: rest) :
      key ∈ t.foreignKeys ∧ key.table = other.name := by
    have hmem : key ∈ t.foreignKeysTo other.name := hkeys ▸ List.mem_cons_self
    obtain ⟨hmem, hname⟩ := List.mem_filter.mp hmem
    exact ⟨hmem, by simpa using hname⟩
  unfold resolveJoin at h
  split at h
  · rename_i key rest hkeys
    obtain ⟨hmem, hname⟩ := hkey ht hkeys
    have hwell := hschema.table _ _ ht
    obtain rfl := Except.ok.inj h
    exact ⟨(hwell.length key hmem).symm, hwell.referenced key hmem parent (hname ▸ hparent),
      hwell.columns key hmem⟩
  · split at h
    · rename_i key rest hkeys
      obtain ⟨hmem, hname⟩ := hkey hparent hkeys
      have hwell := hschema.table _ _ hparent
      obtain rfl := Except.ok.inj h
      exact ⟨hwell.length key hmem, hwell.columns key hmem,
        hwell.referenced key hmem t (hname ▸ ht)⟩
    · contradiction

/-- The output columns of a node are columns that can be selected. -/
theorem outputColumns_selectable {node : Node} {t : Table} {outputs : List String}
    (h : outputColumns node t = .ok outputs) : ∀ c ∈ outputs, t.isSelectable c := by
  unfold outputColumns at h
  split at h
  · obtain rfl := Except.ok.inj h
    intro c hc
    simp [Table.isSelectable, Table.hasColumn, hc]
  · split at h
    · contradiction
    · rename_i hnone
      obtain rfl := Except.ok.inj h
      intro c hc
      simpa using List.find?_eq_none.mp hnone c (by simpa using hc)

/-- How a node is joined with the table of the node above it: not at all at the root. -/
def JoinedBelow (allowed : String → Prop) (parent : Option Table) (node : PlanNode) : Prop :=
  match parent with
  | none => node.join = none
  | some parent => ∃ join, node.join = some join ∧ join.parent.length = join.child.length ∧
      (∀ c ∈ join.parent, c ∈ parent.columnNames) ∧
      ∀ c ∈ join.child, c ∈ node.fetchColumns ∧ allowed c

theorem mem_joinColumns {join : Option Join} {children : List Plan} {c : String} :
    c ∈ joinColumns join children ↔ (∃ j, join = some j ∧ c ∈ j.child) ∨
      ∃ child ∈ children, ∃ j, child.node.join = some j ∧ c ∈ j.parent := by
  unfold joinColumns
  rw [List.mem_append, List.mem_flatMap]
  refine or_congr ?_ (exists_congr fun child => and_congr_right fun _ => ?_)
  · cases join <;> simp
  · cases child.node.join <;> simp

/-- What a node that is built consists of. -/
theorem buildBelow_eq_ok {parent : Option Table} {node : Node}
    (h : buildBelow schema parent node = .ok plan) :
    ∃ t outputs join children, schema.table? node.table = some t ∧ t.primaryKey ≠ [] ∧
      outputColumns node t = .ok outputs ∧
      (parent = none ∧ join = none ∨
        ∃ p j, parent = some p ∧ join = some j ∧ resolveJoin p t = .ok j) ∧
      buildChildren schema t node.children = .ok children ∧
      repeatedField? [metaField] (fields outputs node.renames children) = none ∧
      plan = ⟨⟨node.table, node.label, outputs, node.renames,
        inSchemaOrder t (distinct (outputs ++ t.primaryKey ++ joinColumns join children)),
        t.primaryKey, join⟩, children⟩ := by
  obtain ⟨name, columns, renames, label, childNodes⟩ := node
  rw [buildBelow] at h
  split at h
  · rename_i t ht
    dsimp only at h
    split at h
    · contradiction
    rename_i hkeyed
    obtain ⟨outputs, houtputs, h₁⟩ := Except.bind_eq_ok h
    obtain ⟨-, -, h₂⟩ := Except.bind_eq_ok h₁
    have hne : t.primaryKey ≠ [] := by simpa using hkeyed
    split at h₂
    · rename_i p
      obtain ⟨join, hjoin, h₃⟩ := Except.bind_eq_ok h₂
      cases hj : resolveJoin p t with
      | error e => simp [hj, Except.map] at hjoin
      | ok j =>
        obtain rfl : some j = join := by simpa [hj, Except.map] using hjoin
        obtain ⟨children, hchildren, h₄⟩ := Except.bind_eq_ok h₃
        split at h₄
        · contradiction
        rename_i hfields
        exact ⟨t, outputs, _, children, ht, hne, houtputs, .inr ⟨p, j, rfl, rfl, hj⟩, hchildren,
          Option.eq_none_iff_forall_ne_some.mpr hfields, (Except.ok.inj h₄).symm⟩
    · obtain ⟨join, hjoin, h₃⟩ := Except.bind_eq_ok h₂
      obtain rfl := Except.ok.inj hjoin
      obtain ⟨children, hchildren, h₄⟩ := Except.bind_eq_ok h₃
      split at h₄
      · contradiction
      rename_i hfields
      exact ⟨t, outputs, _, children, ht, hne, houtputs, .inl ⟨rfl, rfl⟩, hchildren,
        Option.eq_none_iff_forall_ne_some.mpr hfields, (Except.ok.inj h₄).symm⟩
  · contradiction

/-- Children are built from the declared ones in turn, below the table of their parent. -/
theorem forall₂_of_buildChildren {t : Table} : ∀ {nodes : List Node} {plans : List Plan},
    buildChildren schema t nodes = .ok plans →
      List.Forall₂ (fun node plan => buildBelow schema (some t) node = .ok plan) nodes plans
  | [], plans, h => by
    obtain rfl := Except.ok.inj h
    exact .nil
  | node :: rest, plans, h => by
    rw [buildChildren] at h
    obtain ⟨first, hfirst, h⟩ := Except.bind_eq_ok h
    obtain ⟨others, hothers, h⟩ := Except.bind_eq_ok h
    obtain rfl := Except.ok.inj h
    exact .cons hfirst (forall₂_of_buildChildren hothers)

mutual

theorem buildBelow_joined (hschema : schema.Linked)
    (hallowed : ∀ name t, schema.table? name = some t → ∀ c ∈ t.columnNames, allowed c) {parent : Option Table}
    (hparent : ∀ t, parent = some t → schema.table? t.name = some t) :
    ∀ {node : Node} {plan : Plan}, buildBelow schema parent node = .ok plan →
      Joined schema allowed plan ∧ JoinedBelow allowed parent plan.node
  | ⟨name, columns, renames, label, childNodes⟩, plan, h => by
    obtain ⟨t, outputs, join, children, ht, hkeyed, houtputs, hjoin, hchildren, -, rfl⟩ :=
      buildBelow_eq_ok h
    have hname : schema.table? t.name = some t := (hschema.name _ _ ht).symm ▸ ht
    have hwell := hschema.table _ _ ht
    have hbelow := buildChildren_joined hschema hallowed hname (forall₂_of_buildChildren hchildren)
    have hown : ∀ j, join = some j → ∀ c ∈ j.child, c ∈ t.columnNames := by
      rintro j rfl
      obtain ⟨-, ⟨⟩⟩ | ⟨p, _, rfl, ⟨⟩, hj⟩ := hjoin
      exact (resolveJoin_linked hschema (hparent p rfl) hname hj).2.2
    have hchild : ∀ child ∈ children, ∀ j, child.node.join = some j →
        ∀ c ∈ j.parent, c ∈ t.columnNames := by
      intro child hmem j hj
      obtain ⟨-, j', hj', -, hcolumns, -⟩ := hbelow child hmem
      exact Option.some.inj (hj ▸ hj') ▸ hcolumns
    have hjoined : ∀ c ∈ joinColumns join children, c ∈ t.columnNames := by
      intro c hc
      rcases mem_joinColumns.mp hc with ⟨j, hj, hc⟩ | ⟨child, hmem, j, hj, hc⟩
      · exact hown j hj c hc
      · exact hchild child hmem j hj c hc
    have hselectable : ∀ c ∈ t.columnNames, t.isSelectable c := by
      intro c hc
      simp [Table.isSelectable, Table.hasColumn, hc]
    constructor
    · refine .mk (t := t) ⟨ht, rfl, hkeyed, ?_, ?_⟩ (fun child hmem => (hbelow child hmem).1) ?_
      · intro c hc
        simp only [mem_inSchemaOrder, mem_distinct, List.mem_append] at hc
        rcases hc with (hc | hc) | hc
        · exact outputColumns_selectable houtputs c hc
        · exact hselectable c (hwell.key c hc)
        · exact hselectable c (hjoined c hc)
      · intro c hc
        simp only [mem_inSchemaOrder, mem_distinct, List.mem_append]
        exact .inl (.inr hc)
      · intro child hmem
        obtain ⟨-, j, hj, hlength, -, hcolumns⟩ := hbelow child hmem
        refine ⟨j, hj, hlength, fun c hc => ⟨?_, hallowed _ t ht c (hchild child hmem j hj c hc)⟩,
          hcolumns⟩
        simp only [mem_inSchemaOrder, mem_distinct, List.mem_append]
        exact .inr (mem_joinColumns.mpr (.inr ⟨child, hmem, j, hj, hc⟩))
    · obtain ⟨rfl, rfl⟩ | ⟨p, j, rfl, rfl, hj⟩ := hjoin
      · rfl
      · obtain ⟨hlength, hparents, -⟩ := resolveJoin_linked hschema (hparent p rfl) hname hj
        refine ⟨j, rfl, hlength, hparents, fun c hc => ⟨?_, hallowed _ t ht c (hown j rfl c hc)⟩⟩
        simp only [mem_inSchemaOrder, mem_distinct, List.mem_append]
        exact .inr (mem_joinColumns.mpr (.inl ⟨j, rfl, hc⟩))

theorem buildChildren_joined (hschema : schema.Linked)
    (hallowed : ∀ name t, schema.table? name = some t → ∀ c ∈ t.columnNames, allowed c) {parent : Table}
    (hparent : schema.table? parent.name = some parent) :
    ∀ {nodes : List Node} {plans : List Plan},
      List.Forall₂ (fun node plan => buildBelow schema (some parent) node = .ok plan) nodes plans →
      ∀ plan ∈ plans, Joined schema allowed plan ∧ JoinedBelow allowed (some parent) plan.node
  | [], _, .nil => by simp
  | node :: rest, _, .cons hfirst hrest => by
    intro plan hplan
    rcases List.mem_cons.mp hplan with rfl | hplan
    · exact buildBelow_joined hschema hallowed (fun t ht => Option.some.inj ht ▸ hparent) hfirst
    · exact buildChildren_joined hschema hallowed hparent hrest plan hplan

end

/-- In a plan that is built over a schema of linked tables, nodes are joined on columns that both fetch. -/
theorem build_joined (hschema : schema.Linked)
    (hallowed : ∀ name t, schema.table? name = some t → ∀ c ∈ t.columnNames, allowed c) {node : Node}
    (h : build node schema = .ok plan) : Joined schema allowed plan ∧ plan.node.join = none :=
  buildBelow_joined hschema hallowed (by simp) h

/-- A plan that is built over a well-formed schema fits it, and its root is joined with nothing. -/
theorem build_fits (hschema : schema.WellFormed) {node : Node} (h : build node schema = .ok plan) :
    Fits schema plan ∧ plan.node.join = none :=
  (build_joined hschema.linked (fun name t ht => (hschema.table name t ht).system) h).imp_left
    fits_iff_joined.mpr

end Plan

end DocSync
