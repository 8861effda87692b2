import DocSync.Proofs.Lists
import DocSync.Proofs.Relation.Rows
import DocSync.Proofs.Simulation.Quiet
import Mathlib.Data.List.Forall2

/-!
What a fetch reads.  While nobody else acts, a plan that fits the schema is fetched without failure,
and level by level the fetched trees are made of rows of the database that are joined to the rows they
hang from.
-/

namespace DocSync

theorem flatten_chunks {α : Type} {size : Nat} (hsize : 0 < size) (items : List α) :
    (chunks size items).flatten = items := by
  have hgo : ∀ (fuel : Nat) (items : List α), items.length ≤ fuel →
      (chunks.go size fuel items).flatten = items := by
    intro fuel
    induction fuel with
    | zero =>
      intro items hlength
      obtain rfl := List.eq_nil_of_length_eq_zero (Nat.le_zero.mp hlength)
      rfl
    | succ fuel ih =>
      intro items hlength
      cases items with
      | nil => rfl
      | cons first rest =>
        have hdrop : ((first :: rest).drop size).length ≤ fuel := by
          rw [List.length_drop]
          omega
        rw [chunks.go, List.flatten_cons, ih _ hdrop]
        · exact List.take_append_drop size _
        · simp
  exact hgo items.length items le_rfl

namespace Fetch

/-! ### Keys and groups -/

/-- The entries that a list of keys leaves, one for each text: later keys of a text give way. -/
def keptKeys (keys : List (List Json)) (kept : Keyed (List Json)) : Keyed (List Json) :=
  keys.foldl (fun kept key =>
    let text := keyText key
    if kept.contains text then kept else kept ++ [(text, key)]) kept

theorem get?_append_singleton (m : Keyed (List Json)) (text : String) (key : List Json)
    (other : String) (h : m.contains text = false) :
    Keyed.get? (m ++ [(text, key)]) other =
      if text = other then some key else Keyed.get? m other := by
  rw [Keyed.get?_append]
  split
  · rename_i hother
    have hnone : m.get? other = none := by simpa [Keyed.contains, hother] using h
    rw [hnone, Option.none_or]
    exact if_pos hother
  · rename_i hother
    simp [Keyed.get?, hother]

theorem get?_keptKeys (keys : List (List Json)) (kept : Keyed (List Json)) (text : String) :
    (keptKeys keys kept).get? text =
      ((kept.get? text).or (keys.find? fun key => keyText key = text)) := by
  induction keys generalizing kept with
  | nil => simp [keptKeys]
  | cons key rest ih =>
    rw [keptKeys, List.foldl_cons, ← keptKeys, ih]
    dsimp only
    split
    · rename_i hkept
      by_cases htext : keyText key = text
      · rw [htext, Keyed.contains, Option.isSome_iff_exists] at hkept
        obtain ⟨found, hfound⟩ := hkept
        simp [hfound]
      · simp [htext]
    · rename_i hkept
      rw [get?_append_singleton _ _ _ _ (by simpa using hkept)]
      by_cases htext : keyText key = text
      · have hnone : kept.get? text = none := by
          simpa [Keyed.contains, htext] using hkept
        simp [htext, hnone]
      · simp [htext]

theorem mem_values_keptKeys {keys : List (List Json)} {kept : Keyed (List Json)} {key : List Json}
    (h : key ∈ (keptKeys keys kept).values) : key ∈ kept.values ∨ key ∈ keys := by
  induction keys generalizing kept with
  | nil => exact .inl h
  | cons first rest ih =>
    rw [keptKeys, List.foldl_cons, ← keptKeys] at h
    dsimp only at h
    split at h
    · exact (ih h).imp_right (List.mem_cons_of_mem _)
    · rcases ih h with h | h
      · rw [Keyed.values, List.map_append, List.mem_append] at h
        refine h.imp_right fun h => ?_
        obtain rfl : key = first := by simpa using h
        exact List.mem_cons_self
      · exact .inr (List.mem_cons_of_mem _ h)

/-- Distinct keys are keys without nulls. -/
theorem mem_distinctKeys {keys : List (List Json)} {key : List Json} (h : key ∈ distinctKeys keys) :
    key ∈ keys ∧ key.any Json.isNull = false := by
  have hmem : key ∈ keys.filter fun key => !key.any Json.isNull :=
    (mem_values_keptKeys h).resolve_left (by simp [Keyed.values])
  simpa using List.mem_filter.mp hmem

/-- Every key without nulls has a distinct key of its text. -/
theorem exists_mem_distinctKeys {keys : List (List Json)} {key : List Json} (h : key ∈ keys)
    (hnull : key.any Json.isNull = false) :
    ∃ found ∈ distinctKeys keys, keyText found = keyText key := by
  have hmem : key ∈ keys.filter fun key => !key.any Json.isNull := by
    rw [List.mem_filter, hnull]
    exact ⟨h, rfl⟩
  obtain ⟨found, hfound⟩ := Option.isSome_iff_exists.mp
    (List.find?_isSome (p := fun k => keyText k = keyText key).mpr ⟨key, hmem, by simp⟩)
  have hkept : (keptKeys (keys.filter fun key => !key.any Json.isNull) []).get? (keyText key) =
      some found := by
    rw [get?_keptKeys, hfound]
    rfl
  refine ⟨found, ?_, by simpa using List.find?_some hfound⟩
  exact List.mem_map.mpr ⟨_, Keyed.mem_of_get? hkept, rfl⟩

/-- A group is made of the trees whose columns have its text. -/
theorem getD_groupByKey (columns : List String) (trees : List RowTree) (text : String) :
    (groupByKey columns trees).getD text [] =
      trees.filter fun tree => keyText (tree.row.tuple columns) = text := by
  have hfold : ∀ (trees : List RowTree) (groups : Keyed (List RowTree)),
      (trees.foldl (fun groups tree =>
        let text := keyText (tree.row.tuple columns)
        groups.put text (groups.getD text [] ++ [tree])) groups).getD text [] =
        groups.getD text [] ++ trees.filter fun tree => keyText (tree.row.tuple columns) = text := by
    intro trees
    induction trees with
    | nil => simp
    | cons tree rest ih =>
      intro groups
      rw [List.foldl_cons, ih, Keyed.getD_put]
      by_cases htext : keyText (tree.row.tuple columns) = text <;> simp [htext]
  exact hfold trees []

/-! ### What attaching gives -/

/-- The rows of a child node found for the keys of its parent's rows. -/
def foundRows (db : Database) (child : PlanNode) (join : Join) (parents : List Row) : List Row :=
  (chunks keyChunk (distinctKeys (parents.map (·.tuple join.parent)))).flatMap fun keys =>
    child.rowsWhere db (.among join.child keys) child.primaryKey

mutual

/-- The trees that rows of a node get from a database. -/
def attached (db : Database) : Plan → List Row → List RowTree
  | ⟨_, children⟩, rows => List.zipWith RowTree.mk rows (attachedSlots db children rows)

/-- The slots that rows get from a database for the children of their node. -/
def attachedSlots (db : Database) : List Plan → List Row → List (List (List RowTree))
  | [], rows => rows.map fun _ => []
  | child :: rest, rows =>
    match child.node.join with
    | none => consSlot (rows.map fun _ => []) (attachedSlots db rest rows)
    | some join =>
      let trees := attached db child
        (inKeyOrder child.node.primaryKey (foundRows db child.node join rows))
      let groups := groupByKey join.child trees
      consSlot (rows.map fun row => groups.getD (keyText (row.tuple join.parent)) [])
        (attachedSlots db rest rows)

end

open Attempt

section

variable {wiring : Wiring} {w : World} {allowed : String → Prop}

theorem readRows_gives (hwiring : wiring.Plain) {node : PlanNode} {t : Table}
    (h : node.Fits w.database.schema t) (filter : Filter) (orderBy : List String) :
    Gives wiring w (readRows ⟨node.table, node.fetchColumns, filter, orderBy, none, none⟩)
      (.ok (node.rowsWhere w.database filter orderBy)) :=
  Gives.mapError _ (gives_execute hwiring (h.select_eq filter orderBy none none))

theorem childRows_gives (hwiring : wiring.Plain) {node : PlanNode} {t : Table}
    (h : node.Fits w.database.schema t) (join : Join) (keys : List (List (List Json))) :
    Gives wiring w (childRows node join keys) (.ok (keys.flatMap fun keys =>
      node.rowsWhere w.database (.among join.child keys) node.primaryKey)) := by
  induction keys with
  | nil => exact gives_pure _
  | cons first rest ih =>
    rw [childRows]
    exact (readRows_gives hwiring h _ _).bind (ih.bind (gives_pure _))

mutual

theorem attach_gives (hwiring : wiring.Plain) : ∀ {plan : Plan}, plan.Joined w.database.schema allowed →
    ∀ rows, Gives wiring w (attach plan rows) (.ok (attached w.database plan rows))
  | ⟨node, children⟩, h, rows => by
    rw [attach, attached]
    split
    · rename_i hempty
      obtain rfl : rows = [] := by simpa using hempty
      exact gives_pure _
    · have hslots := attachSlots_gives hwiring (fun child hchild => (h.child hchild).1) rows
      exact hslots.bind (gives_pure _)

theorem attachSlots_gives (hwiring : wiring.Plain) : ∀ {children : List Plan},
    (∀ child ∈ children, child.Joined w.database.schema allowed) → ∀ rows,
      Gives wiring w (attachSlots children rows) (.ok (attachedSlots w.database children rows))
  | [], _, rows => by
    rw [attachSlots, attachedSlots]
    exact gives_pure _
  | child :: rest, h, rows => by
    obtain ⟨hchild, hothers⟩ := List.forall_mem_cons.mp h
    have hrest := attachSlots_gives hwiring hothers rows
    rw [attachSlots, attachedSlots]
    cases child.node.join with
    | none => exact hrest.bind (gives_pure _)
    | some join =>
      obtain ⟨t, hnode⟩ := hchild.node
      have htrees := attach_gives hwiring hchild
      exact (childRows_gives hwiring hnode join _).bind ((htrees _).bind (hrest.bind (gives_pure _)))

end

/-- A fetch of roots gives the roots that the filter accepts, with their trees. -/
theorem fetchRoots_gives (hwiring : wiring.Plain) {plan : Plan}
    (h : plan.Joined w.database.schema allowed) {filter : Filter} (hfilter : filter.isEmpty = false) :
    Gives wiring w (fetchRoots plan filter) (.ok (attached w.database plan
      (plan.node.rowsWhere w.database filter plan.node.primaryKey))) := by
  obtain ⟨t, hnode⟩ := h.node
  rw [fetchRoots, hfilter]
  have hrows := readRows_gives hwiring hnode filter plan.node.primaryKey
  exact (hrows.bind (attach_gives hwiring h _)).transaction hwiring

end

/-! ### What attached trees are made of -/

/-- Rows found for a parent's keys are rows of the child node, with no null in the joined columns. -/
theorem of_mem_foundRows {db : Database} {parent child : PlanNode} {join : Join}
    (h : join.Fits parent child) {parents : List Row} {row : Row}
    (hrow : row ∈ foundRows db child join parents) :
    row ∈ child.rowsIn db ∧ (row.tuple join.child).any Json.isNull = false := by
  obtain ⟨keys, hkeys, hrow⟩ := List.mem_flatMap.mp hrow
  obtain ⟨hrow, haccepts⟩ := (PlanNode.mem_rowsWhere fun c hc => (h.child c hc).1).mp hrow
  obtain ⟨key, hkey, hmatches⟩ := List.any_eq_true.mp haccepts
  have hmem : key ∈ distinctKeys (parents.map (·.tuple join.parent)) := by
    have hflat := List.mem_flatten_of_mem hkeys hkey
    rwa [flatten_chunks (by decide)] at hflat
  obtain ⟨parent, -, rfl⟩ := List.mem_map.mp (mem_distinctKeys hmem).1
  refine ⟨hrow, Filter.any_isNull_of_tupleMatches ?_ hmatches⟩
  rw [Row.length_tuple, h.length]

end Fetch

mutual

/-- The tree is made of rows that the nodes of a plan read from a database. -/
inductive RowTree.ReadFrom (db : Database) : Plan → RowTree → Prop
  | mk {node : PlanNode} {children : List Plan} {row : Row} {slots : List (List RowTree)} :
      row ∈ node.rowsIn db → RowTree.SlotsReadFrom db children row slots →
      RowTree.ReadFrom db ⟨node, children⟩ ⟨row, slots⟩

/-- The slots under a row hold trees of rows that are joined to it. -/
inductive RowTree.SlotsReadFrom (db : Database) : List Plan → Row → List (List RowTree) → Prop
  | nil (row : Row) : RowTree.SlotsReadFrom db [] row []
  | cons {child : Plan} {rest : List Plan} {join : Join} {row : Row} {slot : List RowTree}
      {slots : List (List RowTree)} : child.node.join = some join →
      (∀ tree ∈ slot, join.Joins row tree.row) →
      (∀ tree ∈ slot, RowTree.ReadFrom db child tree) →
      RowTree.SlotsReadFrom db rest row slots →
      RowTree.SlotsReadFrom db (child :: rest) row (slot :: slots)

end

/-- A row at a node of the plan, somewhere in the tree. -/
inductive RowTree.Holds : Plan → RowTree → PlanNode → Row → Prop
  | root (plan : Plan) (tree : RowTree) : RowTree.Holds plan tree plan.node tree.row
  | nested {plan child : Plan} {tree subtree : RowTree} {slot : List RowTree} {node : PlanNode}
      {row : Row} : (child, slot) ∈ plan.children.zip tree.children → subtree ∈ slot →
      RowTree.Holds child subtree node row → RowTree.Holds plan tree node row

namespace Fetch

open List (Forall₂)

variable {db : Database}

theorem forall₂_zipWith_mk {R : Row → List (List RowTree) → Prop} {S : Row → RowTree → Prop}
    {rows : List Row} {slots : List (List (List RowTree))} (h : Forall₂ R rows slots)
    (hmk : ∀ row slots, row ∈ rows → R row slots → S row ⟨row, slots⟩) :
    Forall₂ S rows (List.zipWith RowTree.mk rows slots) := by
  induction h with
  | nil => exact .nil
  | cons hfirst _ ih =>
    rw [List.zipWith_cons_cons]
    refine .cons (hmk _ _ List.mem_cons_self hfirst) (ih ?_)
    exact fun row slots hrow => hmk row slots (List.mem_cons_of_mem _ hrow)

theorem forall₂_consSlot {R : Row → List (List RowTree) → Prop}
    {S : Row → List (List RowTree) → Prop} {rows : List Row} {slot : Row → List RowTree}
    {slots : List (List (List RowTree))} (h : Forall₂ R rows slots)
    (hcons : ∀ row slots, row ∈ rows → R row slots → S row (slot row :: slots)) :
    Forall₂ S rows (consSlot (rows.map slot) slots) := by
  induction h with
  | nil => exact .nil
  | cons hfirst _ ih =>
    refine .cons (hcons _ _ List.mem_cons_self hfirst) (ih ?_)
    exact fun row slots hrow => hcons row slots (List.mem_cons_of_mem _ hrow)

mutual

theorem attached_readFrom : ∀ {plan : Plan}, plan.Fits db.schema → ∀ {rows : List Row},
    (∀ row ∈ rows, row ∈ plan.node.rowsIn db) →
      Forall₂ (fun row tree => tree.row = row ∧ tree.ReadFrom db plan) rows (attached db plan rows)
  | ⟨node, children⟩, h, rows, hrows => by
    have hslots := attachedSlots_readFrom (fun child hchild => h.child hchild) rows
    rw [attached]
    exact forall₂_zipWith_mk hslots fun row slots hrow hread => ⟨rfl, .mk (hrows row hrow) hread⟩

theorem attachedSlots_readFrom {parent : PlanNode} : ∀ {children : List Plan},
    (∀ child ∈ children, child.Fits db.schema ∧
      ∃ join, child.node.join = some join ∧ join.Fits parent child.node) → ∀ rows : List Row,
      Forall₂ (RowTree.SlotsReadFrom db children) rows (attachedSlots db children rows)
  | [], _, rows => by
    rw [attachedSlots]
    exact List.forall₂_map_right_iff.mpr (List.forall₂_same.mpr fun row _ => .nil row)
  | child :: rest, h, rows => by
    obtain ⟨⟨hchild, join, hjoin, hfits⟩, hothers⟩ := List.forall_mem_cons.mp h
    have hrest := attachedSlots_readFrom hothers rows
    have hfound : ∀ row ∈ inKeyOrder child.node.primaryKey (foundRows db child.node join rows),
        row ∈ child.node.rowsIn db ∧ (row.tuple join.child).any Json.isNull = false :=
      fun row hrow => of_mem_foundRows hfits (mem_sortStable.mp hrow)
    have htrees := attached_readFrom hchild fun row hrow => (hfound row hrow).1
    rw [attachedSlots, hjoin]
    refine forall₂_consSlot hrest fun row slots _ hslots => ?_
    -- a tree of the slot stands over the row that it was attached to
    have hslot : ∀ tree ∈ (groupByKey join.child (attached db child (inKeyOrder
        child.node.primaryKey (foundRows db child.node join rows)))).getD
          (keyText (row.tuple join.parent)) [], join.Joins row tree.row ∧ tree.ReadFrom db child := by
      intro tree htree
      rw [getD_groupByKey, List.mem_filter] at htree
      obtain ⟨htree, htext⟩ := htree
      obtain ⟨found, hmem, htreeRow, hread⟩ := exists_of_forall₂ htrees htree
      refine ⟨⟨by simpa using htext, ?_⟩, hread⟩
      rw [htreeRow]
      exact (hfound found hmem).2
    exact .cons hjoin (fun tree htree => (hslot tree htree).1) (fun tree htree => (hslot tree htree).2)
      hslots

end

end Fetch

end DocSync
