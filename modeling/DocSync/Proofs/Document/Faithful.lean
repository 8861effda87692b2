import DocSync.Proofs.Change.Coalesce
import DocSync.Proofs.Change.Resolve
import DocSync.Proofs.Document.Joined
import DocSync.Proofs.Document.Listing

/-!
Trees that may be out of date.  A tree that was fetched earlier is faithful to the database of now, up to
a set of dirty names, when every row in it whose name is not dirty is there as it was, and under such a
row no joined row is missing whose name is not dirty.  Changes of dirty rows keep a tree faithful, and a
tree that is faithful up to nothing is the one that its root has.
-/

namespace DocSync

/-- The name of a row of a node. -/
def PlanNode.nameOf (node : PlanNode) (row : Row) : RowName :=
  (node.table, Identity.ofKey (row.tuple node.primaryKey))

/-- A node of the plan, at its root or below. -/
inductive Plan.HasNode : Plan → PlanNode → Prop
  | root (plan : Plan) : HasNode plan plan.node
  | child {plan child : Plan} {node : PlanNode} : child ∈ plan.children → HasNode child node →
      HasNode plan node

/-- Rows in strict order of their keys. -/
def Row.Before (primaryKey : List String) (a b : Row) : Prop :=
  Row.NotAfter primaryKey a b ∧ a ≠ b

/-- Every node is at the end of a path of its table. -/
theorem Plan.HasNode.exists_path {plan : Plan} {node : PlanNode} (h : plan.HasNode node)
    (above : List PlanNode) : ∃ rest, node :: rest ∈ plan.pathsFrom node.table above := by
  induction h generalizing above with
  | root plan =>
    obtain ⟨node, children⟩ := plan
    exact ⟨above, by simp [Plan.pathsFrom]⟩
  | @child plan child node hchild _ ih =>
    obtain ⟨parent, children⟩ := plan
    obtain ⟨rest, hrest⟩ := ih (parent :: above)
    rw [Plan.pathsFrom]
    exact ⟨rest, List.mem_append_right _ (Plan.mem_pathsOfChildren hchild hrest)⟩

theorem RowTree.Holds.hasNode {plan : Plan} {tree : RowTree} {node : PlanNode} {row : Row}
    (h : tree.Holds plan node row) : plan.HasNode node := by
  induction h with
  | root plan tree => exact .root plan
  | nested hslot _ _ ih => exact .child (List.of_mem_zip hslot).1 ih

/-- What a tree holds is its own row, or held below it. -/
theorem RowTree.Holds.cases_below {plan : Plan} {tree : RowTree} {node : PlanNode} {row : Row}
    (h : tree.Holds plan node row) :
    node = plan.node ∧ row = tree.row ∨ tree.HoldsBelow plan node row := by
  cases h with
  | root => exact .inl ⟨rfl, rfl⟩
  | nested hslot hsubtree hrow => exact .inr ⟨_, _, hslot, _, hsubtree, hrow⟩

mutual

/-- The tree tells what the database has, up to rows with dirty names. -/
inductive RowTree.Faithful (db : Database) (dirty : RowName → Prop) : Plan → RowTree → Prop
  | dirty {plan : Plan} {tree : RowTree} : dirty (plan.node.nameOf tree.row) →
      RowTree.Faithful db dirty plan tree
  | clean {node : PlanNode} {children : List Plan} {row : Row} {slots : List (List RowTree)} :
      row ∈ node.rowsIn db → RowTree.SlotsFaithful db dirty children row slots →
      RowTree.Faithful db dirty ⟨node, children⟩ ⟨row, slots⟩

/-- The slots under a row hold trees of the rows joined to it, up to rows with dirty names. -/
inductive RowTree.SlotsFaithful (db : Database) (dirty : RowName → Prop) :
    List Plan → Row → List (List RowTree) → Prop
  | nil (row : Row) : RowTree.SlotsFaithful db dirty [] row []
  | cons {child : Plan} {rest : List Plan} {join : Join} {row : Row} {slot : List RowTree}
      {slots : List (List RowTree)} : child.node.join = some join →
      (∀ tree ∈ slot, RowTree.Faithful db dirty child tree) →
      (∀ tree ∈ slot, dirty (child.node.nameOf tree.row) ∨ join.Joins row tree.row) →
      (∀ found ∈ child.node.rowsIn db, join.Joins row found →
        dirty (child.node.nameOf found) ∨ ∃ tree ∈ slot, tree.row = found) →
      (slot.map RowTree.row).Pairwise (Row.Before child.node.primaryKey) →
      RowTree.SlotsFaithful db dirty rest row slots →
      RowTree.SlotsFaithful db dirty (child :: rest) row (slot :: slots)

end

namespace RowTree

variable {db db' : Database} {dirty dirty' : RowName → Prop}

mutual

/-- The tree that a row has is faithful, whatever is dirty. -/
theorem treeIn_faithful (dirty : RowName → Prop) : ∀ {plan : Plan}, plan.Fits db.schema →
    plan.ComparableIn db → ∀ {row : Row}, row ∈ plan.node.rowsIn db →
      Faithful db dirty plan (plan.treeIn db row)
  | ⟨node, children⟩, hfits, hplan, row, hrow => by
    obtain ⟨-, hcomparable, hjoins⟩ := hplan
    rw [Plan.treeIn]
    exact .clean hrow (slotsIn_faithful dirty (fun child hchild => hfits.child hchild)
      (fun child hchild => ⟨hcomparable child hchild, hjoins child hchild⟩) hrow)

theorem slotsIn_faithful (dirty : RowName → Prop) {parent : PlanNode} : ∀ {children : List Plan},
    (∀ child ∈ children, child.Fits db.schema ∧
      ∃ join, child.node.join = some join ∧ join.Fits parent child.node) →
    (∀ child ∈ children, child.ComparableIn db ∧
      ∀ join, child.node.join = some join → join.ComparableIn db parent child.node) →
    ∀ {row : Row}, row ∈ parent.rowsIn db →
      SlotsFaithful db dirty children row (Plan.slotsIn db children row)
  | [], _, _, row, _ => by
    rw [Plan.slotsIn]
    exact .nil row
  | child :: rest, h, hcomparable, row, hrow => by
    obtain ⟨⟨hchild, join, hjoin, hfits⟩, hothers⟩ := List.forall_mem_cons.mp h
    obtain ⟨⟨hplan, hjoins⟩, hrest⟩ := List.forall_mem_cons.mp hcomparable
    have hmem {found : Row} : found ∈ child.node.joinedRows db join row ↔
        found ∈ child.node.rowsIn db ∧ join.Joins row found :=
      PlanNode.mem_joinedRows hfits (hjoins join hjoin) hrow
    have hrows : ((child.node.joinedRows db join row).map (child.treeIn db)).map RowTree.row =
        child.node.joinedRows db join row := by
      rw [List.map_map]
      exact (List.map_congr_left fun found _ => Plan.treeIn_row db child found).trans (List.map_id _)
    rw [Plan.slotsIn, hjoin]
    refine .cons hjoin ?_ ?_ ?_ ?_ (slotsIn_faithful dirty hothers hrest hrow)
    · intro tree htree
      obtain ⟨found, hfound, rfl⟩ := List.mem_map.mp htree
      exact treeIn_faithful dirty hchild hplan (hmem.mp hfound).1
    · intro tree htree
      obtain ⟨found, hfound, rfl⟩ := List.mem_map.mp htree
      rw [Plan.treeIn_row]
      exact .inr (hmem.mp hfound).2
    · intro found hfound hjoined
      exact .inr ⟨_, List.mem_map_of_mem (hmem.mpr ⟨hfound, hjoined⟩), Plan.treeIn_row db child found⟩
    · obtain ⟨t, hnode⟩ := hchild.node
      obtain ⟨kinds, hkeyed⟩ : ∃ kinds, child.node.KeyedIn db kinds := by
        obtain ⟨hkeyed, -, -⟩ := hplan
        exact ⟨_, hkeyed⟩
      have hnodup : (child.node.joinedRows db join row).Nodup :=
        PlanNode.nodup_rowsWhere hkeyed (fun c hc => (hfits.child c hc).1) _
      rw [hrows]
      exact (hkeyed.rowsWhere_pairwise hnode _).and hnodup

end

/-- A root row whose name is not dirty is there. -/
theorem Faithful.row_mem {plan : Plan} {tree : RowTree} (h : Faithful db dirty plan tree)
    (hname : ¬ dirty (plan.node.nameOf tree.row)) : tree.row ∈ plan.node.rowsIn db := by
  cases h with
  | dirty h => exact absurd h hname
  | clean hrow => exact hrow

theorem SlotsFaithful.mem {children : List Plan} {row : Row} {slots : List (List RowTree)}
    (h : SlotsFaithful db dirty children row slots) {child : Plan} {slot : List RowTree}
    (hslot : (child, slot) ∈ children.zip slots) : ∀ tree ∈ slot, Faithful db dirty child tree := by
  induction children generalizing slots with
  | nil => contradiction
  | cons first rest ih =>
    cases h with
    | cons _ htrees _ _ _ hrest =>
      rcases List.mem_cons.mp hslot with heq | hslot
      · obtain ⟨rfl, rfl⟩ := Prod.mk.inj heq
        exact htrees
      · exact ih hrest hslot

/-- Every row of a tree that is faithful up to nothing is there. -/
theorem Faithful.mem_rowsIn {plan : Plan} {tree : RowTree} {node : PlanNode} {row : Row}
    (hholds : tree.Holds plan node row) (h : Faithful db (fun _ => False) plan tree) :
    row ∈ node.rowsIn db := by
  induction hholds with
  | root plan tree => exact h.row_mem id
  | nested hslot hsubtree _ ih =>
    cases h with
    | dirty h => exact h.elim
    | clean _ hslots => exact ih (hslots.mem hslot _ hsubtree)

mutual

/-- A tree stays faithful while only rows with dirty names change. -/
theorem Faithful.mono (hdirty : ∀ name, dirty name → dirty' name) : ∀ {plan : Plan},
    (∀ node, plan.HasNode node → ∀ row, ¬ dirty' (node.nameOf row) →
      (row ∈ node.rowsIn db ↔ row ∈ node.rowsIn db')) →
    ∀ {tree : RowTree}, Faithful db dirty plan tree → Faithful db' dirty' plan tree
  | _, _, _, .dirty h => .dirty (hdirty _ h)
  | ⟨node, children⟩, hagree, ⟨row, slots⟩, .clean hrow hslots => by
    by_cases hname : dirty' (node.nameOf row)
    · exact .dirty hname
    · refine .clean ((hagree node (.root _) row hname).mp hrow) ?_
      exact SlotsFaithful.mono hdirty
        (fun child hchild other hother => hagree other (.child hchild hother)) hslots

theorem SlotsFaithful.mono (hdirty : ∀ name, dirty name → dirty' name) : ∀ {children : List Plan},
    (∀ child ∈ children, ∀ node, child.HasNode node → ∀ row, ¬ dirty' (node.nameOf row) →
      (row ∈ node.rowsIn db ↔ row ∈ node.rowsIn db')) →
    ∀ {row : Row} {slots : List (List RowTree)}, SlotsFaithful db dirty children row slots →
      SlotsFaithful db' dirty' children row slots
  | [], _, row, _, .nil _ => .nil row
  | child :: rest, hagree, row, _ :: _, .cons hjoin htrees hjoined hfound hsorted hrest => by
    obtain ⟨hchild, hothers⟩ := List.forall_mem_cons.mp hagree
    refine .cons hjoin (fun tree htree => (htrees tree htree).mono hdirty hchild)
      (fun tree htree => (hjoined tree htree).imp_left (hdirty _)) ?_ hsorted
      (hrest.mono hdirty hothers)
    intro found hmem hjoins
    by_cases hname : dirty' (child.node.nameOf found)
    · exact .inl hname
    · have hbefore := (hchild child.node (.root child) found hname).mpr hmem
      exact (hfound found hbefore hjoins).imp_left (hdirty _)

end

mutual

/-- Names may stop being dirty, if no row of the tree has one of them, and no row that hangs now from rows
below the tree's top. -/
theorem Faithful.settle {top : Row} : ∀ {plan : Plan} {above : List PlanNode},
    (∀ node rest, node :: rest ∈ plan.pathsFrom node.table above → ∀ row ∈ node.rowsIn db,
      Lineage db node row rest top → dirty (node.nameOf row) → dirty' (node.nameOf row)) →
    ∀ {tree : RowTree},
      (∀ node row, tree.Holds plan node row → dirty (node.nameOf row) → dirty' (node.nameOf row)) →
      (¬ dirty' (plan.node.nameOf tree.row) → Lineage db plan.node tree.row above top) →
      Faithful db dirty plan tree → Faithful db dirty' plan tree
  | plan, _, _, tree, hheld, _, .dirty h => .dirty (hheld plan.node tree.row (.root plan tree) h)
  | ⟨node, children⟩, above, hbelow, ⟨row, slots⟩, hheld, hlineage, .clean hrow hslots => by
    by_cases hname : dirty' (node.nameOf row)
    · exact .dirty hname
    · refine .clean hrow (SlotsFaithful.settle hrow (hlineage hname)
        (fun child hchild other rest hpath => hbelow other rest ?_) ?_ hslots)
      · rw [Plan.pathsFrom]
        exact List.mem_append_right _ (Plan.mem_pathsOfChildren hchild hpath)
      · exact fun child slot hslot tree htree other found hholds =>
          hheld other found (.nested hslot htree hholds)

theorem SlotsFaithful.settle {top : Row} {parent : PlanNode} {above : List PlanNode} :
    ∀ {children : List Plan} {row : Row}, row ∈ parent.rowsIn db → Lineage db parent row above top →
    (∀ child ∈ children, ∀ node rest, node :: rest ∈ child.pathsFrom node.table (parent :: above) →
      ∀ row ∈ node.rowsIn db, Lineage db node row rest top →
        dirty (node.nameOf row) → dirty' (node.nameOf row)) →
    ∀ {slots : List (List RowTree)},
      (∀ child slot, (child, slot) ∈ children.zip slots → ∀ tree ∈ slot, ∀ node row,
        tree.Holds child node row → dirty (node.nameOf row) → dirty' (node.nameOf row)) →
      SlotsFaithful db dirty children row slots → SlotsFaithful db dirty' children row slots
  | [], row, _, _, _, _, _, .nil _ => .nil row
  | child :: rest, row, hrow, hlineage, hbelow, slot :: slots, hheld,
      .cons hjoin htrees hjoined hfound hsorted hrest => by
    obtain ⟨hchild, hothers⟩ := List.forall_mem_cons.mp hbelow
    have hslot := hheld child slot List.mem_cons_self
    have hroot (tree : RowTree) (htree : tree ∈ slot) := hslot tree htree _ _ (.root child tree)
    refine .cons hjoin (fun tree htree => ?_) (fun tree htree => ?_) (fun found hmem hjoins => ?_)
      hsorted (hrest.settle hrow hlineage hothers fun other others hmem =>
        hheld other others (List.mem_cons_of_mem _ hmem))
    · exact (htrees tree htree).settle hchild (hslot tree htree) fun hname =>
        .up hjoin ((hjoined tree htree).resolve_left (mt (hroot tree htree) hname)) hrow hlineage
    · exact (hjoined tree htree).imp_left (hroot tree htree)
    · refine (hfound found hmem hjoins).imp_left (hchild child.node (parent :: above) ?_ found hmem
        (.up hjoin hjoins hrow hlineage))
      obtain ⟨node, below⟩ := child
      simp [Plan.pathsFrom]

end

/-- Lists of rows of one node in strict key order are the same, when they have the same rows. -/
theorem eq_of_before {node : PlanNode} {kinds : List ValueKind} (hkeyed : node.KeyedIn db kinds)
    {rows rows' : List Row} (hrows : ∀ row ∈ rows, row ∈ node.rowsIn db)
    (hmem : ∀ row, row ∈ rows ↔ row ∈ rows')
    (hsorted : rows.Pairwise (Row.Before node.primaryKey))
    (hsorted' : rows'.Pairwise (Row.Before node.primaryKey)) : rows = rows' :=
  hkeyed.eq_of_pairwise hrows hmem (hsorted.imp And.right) (hsorted'.imp And.right)
    (hsorted.imp And.left) (hsorted'.imp And.left)

mutual

/-- A tree that is faithful up to nothing is the one its root row has. -/
theorem Faithful.eq_treeIn : ∀ {plan : Plan}, plan.Fits db.schema → plan.ComparableIn db →
    ∀ {tree : RowTree}, Faithful db (fun _ => False) plan tree →
      tree.row ∈ plan.node.rowsIn db ∧ tree = plan.treeIn db tree.row
  | _, _, _, _, .dirty h => h.elim
  | ⟨node, children⟩, hfits, hplan, ⟨row, slots⟩, .clean hrow hslots => by
    obtain ⟨-, hcomparable, hjoins⟩ := hplan
    refine ⟨hrow, ?_⟩
    rw [Plan.treeIn, ← SlotsFaithful.eq_slotsIn (fun child hchild => hfits.child hchild)
      (fun child hchild => ⟨hcomparable child hchild, hjoins child hchild⟩) hrow hslots]

theorem SlotsFaithful.eq_slotsIn {parent : PlanNode} : ∀ {children : List Plan},
    (∀ child ∈ children, child.Fits db.schema ∧
      ∃ join, child.node.join = some join ∧ join.Fits parent child.node) →
    (∀ child ∈ children, child.ComparableIn db ∧
      ∀ join, child.node.join = some join → join.ComparableIn db parent child.node) →
    ∀ {row : Row} {slots : List (List RowTree)}, row ∈ parent.rowsIn db →
      SlotsFaithful db (fun _ => False) children row slots → slots = Plan.slotsIn db children row
  | [], _, _, row, _, _, .nil _ => by rw [Plan.slotsIn]
  | child :: rest, h, hcomparable, row, slot :: slots, hrow,
      .cons hjoin' htrees hjoined hfound hsorted hslots => by
    obtain ⟨⟨hchild, join, hjoin, hfits⟩, hothers⟩ := List.forall_mem_cons.mp h
    obtain ⟨⟨hplan, hjoins⟩, hrest⟩ := List.forall_mem_cons.mp hcomparable
    obtain rfl := Option.some.inj (hjoin.symm.trans hjoin')
    obtain ⟨t, hnode⟩ := hchild.node
    have hkeyed : ∃ kinds, child.node.KeyedIn db kinds := by
      obtain ⟨hkeyed, -, -⟩ := hplan
      exact ⟨_, hkeyed⟩
    obtain ⟨kinds, hkeyed⟩ := hkeyed
    have htree : ∀ tree ∈ slot, tree.row ∈ child.node.rowsIn db ∧
        tree = child.treeIn db tree.row :=
      fun tree htree => (htrees tree htree).eq_treeIn hchild hplan
    have hmem {found : Row} : found ∈ child.node.joinedRows db join row ↔
        found ∈ child.node.rowsIn db ∧ join.Joins row found :=
      PlanNode.mem_joinedRows hfits (hjoins join hjoin) hrow
    have hrows : slot.map RowTree.row = child.node.joinedRows db join row := by
      refine eq_of_before hkeyed ?_ (fun found => ?_) hsorted ?_
      · intro found hfound
        obtain ⟨tree, hmem, rfl⟩ := List.mem_map.mp hfound
        exact (htree tree hmem).1
      · rw [hmem, List.mem_map]
        constructor
        · rintro ⟨tree, hslot, rfl⟩
          exact ⟨(htree tree hslot).1, (hjoined tree hslot).resolve_left id⟩
        · rintro ⟨hin, hjoins⟩
          exact (hfound found hin hjoins).resolve_left id
      · have hnodup : (child.node.joinedRows db join row).Nodup :=
          PlanNode.nodup_rowsWhere hkeyed (fun c hc => (hfits.child c hc).1) _
        exact (hkeyed.rowsWhere_pairwise hnode _).and hnodup
    rw [Plan.slotsIn, hjoin, ← SlotsFaithful.eq_slotsIn hothers hrest hrow hslots]
    dsimp only
    rw [← hrows, List.map_map]
    refine congrArg (· :: slots) ?_
    conv => lhs; rw [← List.map_id slot]
    exact List.map_congr_left fun tree hslot => (htree tree hslot).2

end

end RowTree

end DocSync
