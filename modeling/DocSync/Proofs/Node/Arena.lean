import DocSync.Proofs.Lists
import DocSync.Proofs.Node.Plan
import Mathlib.Logic.Function.Iterate

/-!
The arena of a plan.  The nodes of a plan are numbered in pre-order, as the declared ones are; the
numbers that a node holds of its parent and its children lead to the nodes that hold its own, and what is
read of the rows of a node is among the columns that it fetches.
-/

namespace DocSync

namespace Node

mutual

/-- The nodes of a declared tree in pre-order. -/
def preorder : Node → List Node
  | ⟨table, columns, renames, label, children⟩ =>
    ⟨table, columns, renames, label, children⟩ :: preorderOfAll children

def preorderOfAll : List Node → List Node
  | [] => []
  | child :: rest => preorder child ++ preorderOfAll rest

end

theorem preorder_eq (node : Node) : node.preorder = node :: preorderOfAll node.children := by
  obtain ⟨table, columns, renames, label, children⟩ := node
  rw [preorder]

mutual

/-- The tables of a tree are listed as its nodes are met. -/
theorem addTables_eq : ∀ (node : Node) (listed : List String), addTables listed node =
    node.preorder.foldl (fun listed declared =>
      if listed.contains declared.table then listed else listed ++ [declared.table]) listed
  | ⟨table, columns, renames, label, children⟩, listed => by
    rw [addTables, preorder, List.foldl_cons, addTablesOfChildren_eq]

theorem addTablesOfChildren_eq : ∀ (nodes : List Node) (listed : List String),
    addTablesOfChildren listed nodes = (preorderOfAll nodes).foldl (fun listed declared =>
      if listed.contains declared.table then listed else listed ++ [declared.table]) listed
  | [], listed => by rw [addTablesOfChildren, preorderOfAll, List.foldl_nil]
  | child :: rest, listed => by
    rw [addTablesOfChildren, preorderOfAll, List.foldl_append, addTables_eq child,
      addTablesOfChildren_eq rest]

end

theorem tables_eq (node : Node) : node.tables = Plan.distinct (node.preorder.map Node.table) := by
  rw [tables, addTables_eq, Plan.distinct, List.foldl_map]

end Node

/-- A plan node is what a declared node comes to over a schema. -/
structure PlanNode.Realizes (schema : Schema) (declared : Node) (n : PlanNode) : Prop where
  table : n.table = declared.table
  label : n.label = declared.label
  renames : n.renames = declared.renames
  columns : ∃ t, schema.table? declared.table = some t ∧ n.primaryKey = t.primaryKey ∧
    Plan.outputColumns declared t = .ok n.outputColumns

namespace Plan

variable {schema : Schema} {entries : List Entry} {declared : List Node} {node : Node} {nodes : List Node}
  {plan : Plan} {plans : List Plan} {i next parent depth : Nat}

/-! ### Sizes and numbers -/

mutual

theorem length_arenaFrom : ∀ (plan : Plan) (index : Nat) (parent : Option Nat) (depth : Nat),
    (arenaFrom index parent depth plan).length = plan.size
  | ⟨node, children⟩, index, parent, depth => by
    rw [arenaFrom, size, List.length_cons, length_arenaOfChildren, Nat.add_comm]

theorem length_arenaOfChildren : ∀ (plans : List Plan) (next parent depth : Nat),
    (arenaOfChildren next parent depth plans).length = sizeOfAll plans
  | [], next, parent, depth => by rw [arenaOfChildren, sizeOfAll, List.length_nil]
  | child :: rest, next, parent, depth => by
    rw [arenaOfChildren, sizeOfAll, List.length_append, length_arenaFrom child,
      length_arenaOfChildren rest]

end

theorem size_pos (plan : Plan) : 0 < plan.size := by
  obtain ⟨node, children⟩ := plan
  rw [size]
  omega

mutual

/-- A plan has as many nodes as were declared. -/
theorem length_preorder : ∀ {plan : Plan} {upper : Option Table} {node : Node},
    buildBelow schema upper node = .ok plan → node.preorder.length = plan.size
  | ⟨_, _⟩, upper, node, h => by
    obtain ⟨t, outputs, join, children, -, -, -, -, hchildren, -, heq⟩ := buildBelow_eq_ok h
    obtain ⟨rfl, rfl⟩ := Plan.mk.inj heq
    rw [Node.preorder_eq, size, List.length_cons, length_preorderOfAll (forall₂_of_buildChildren hchildren),
      Nat.add_comm]

theorem length_preorderOfAll {t : Table} : ∀ {plans : List Plan} {nodes : List Node},
    List.Forall₂ (fun node plan => buildBelow schema (some t) node = .ok plan) nodes plans →
      (Node.preorderOfAll nodes).length = sizeOfAll plans
  | [], _, .nil => rfl
  | child :: rest, _, .cons hfirst hrest => by
    rw [Node.preorderOfAll, sizeOfAll, List.length_append, length_preorder hfirst,
      length_preorderOfAll hrest]

end

theorem le_of_mem_numbers {c : Nat} (hc : c ∈ numbers next plans) : next ≤ c := by
  induction plans generalizing next with
  | nil => simp [numbers] at hc
  | cons first rest ih =>
    rcases List.mem_cons.mp hc with rfl | hc
    · exact Nat.le_refl _
    · exact Nat.le_trans (Nat.le_add_right _ _) (ih hc)

theorem pairwise_numbers (next : Nat) (plans : List Plan) : (numbers next plans).Pairwise (· < ·) := by
  induction plans generalizing next with
  | nil => exact .nil
  | cons first rest ih =>
    refine .cons (fun c hc => ?_) (ih _)
    have hle := le_of_mem_numbers hc
    have hpos := size_pos first
    omega

/-! ### Stretches of a list -/

section Stretches

variable {α : Type} {whole xs ys : List α} {x : α}

theorem getElem?_of_stretch (h : x :: xs <+: whole.drop i) :
    whole[i]? = some x ∧ xs <+: whole.drop (i + 1) := by
  obtain ⟨rest, hrest⟩ := h
  constructor
  · rw [← Nat.add_zero i, ← List.getElem?_drop, ← hrest]
    rfl
  · rw [← List.drop_drop, ← hrest]
    exact List.prefix_append xs rest

theorem stretch_append (h : xs ++ ys <+: whole.drop i) :
    xs <+: whole.drop i ∧ ys <+: whole.drop (i + xs.length) := by
  obtain ⟨rest, hrest⟩ := h
  constructor
  · exact ⟨ys ++ rest, by rw [← hrest, List.append_assoc]⟩
  · refine ⟨rest, ?_⟩
    rw [← List.drop_drop, ← hrest, List.append_assoc, List.drop_left]

end Stretches

/-! ### What an arena is sure of -/

/-- What is read of the rows of a node: the columns of its source, its key, and the columns that join it
with the node above and with those below. -/
def Entry.Reads (entries : List Entry) (e : Entry) (c : String) : Prop :=
  c ∈ e.node.outputColumns ∨ c ∈ e.node.primaryKey ∨
    (∃ join, e.node.join = some join ∧ c ∈ join.child) ∨
    ∃ number ∈ e.children, ∃ below, entries[number]? = some below ∧
      ∃ join, below.node.join = some join ∧ c ∈ join.parent

/-- The entry with a number stands where it belongs among all entries: it realizes the declared node of
the same number, its numbers lead to its parent and its children, and it fetches what is read. -/
structure Placed (schema : Schema) (entries : List Entry) (declared : List Node) (i : Nat) (e : Entry) :
    Prop where
  node : ∃ d, declared[i]? = some d ∧ e.node.Realizes schema d ∧
    List.Forall₂ (fun number child => declared[number]? = some child) e.children d.children
  top : e.parent = none → i = 0 ∧ e.depth = 0 ∧ e.node.join = none
  nested : ∀ p, e.parent = some p → p < i ∧ (∃ join, e.node.join = some join) ∧
    ∃ above, entries[p]? = some above ∧ e.depth = above.depth + 1 ∧ i ∈ above.children
  sorted : e.children.Pairwise (· < ·)
  children : ∀ number ∈ e.children, ∃ below, entries[number]? = some below ∧ below.parent = some i
  once : e.node.fetchColumns.Nodup
  fetched : ∀ c, e.Reads entries c → c ∈ e.node.fetchColumns

/-- The first entry of each child has its number, and the declared node of that number is the child. -/
theorem heads_of_stretch {t : Table}
    (h : List.Forall₂ (fun node plan => buildBelow schema (some t) node = .ok plan) nodes plans)
    (hentries : arenaOfChildren next parent depth plans <+: entries.drop next)
    (hdeclared : Node.preorderOfAll nodes <+: declared.drop next) :
    List.Forall₂ (fun number child => declared[number]? = some child) (numbers next plans) nodes ∧
      List.Forall₂ (fun number plan => ∃ below, entries[number]? = some below ∧
        below.parent = some parent ∧ below.node = Plan.node plan) (numbers next plans) plans := by
  induction h generalizing next with
  | nil => exact ⟨.nil, .nil⟩
  | @cons node plan nodes plans hfirst _ ih =>
    rw [arenaOfChildren] at hentries
    rw [Node.preorderOfAll] at hdeclared
    obtain ⟨hentry, hentries⟩ := stretch_append hentries
    obtain ⟨hnode, hdeclared⟩ := stretch_append hdeclared
    rw [length_arenaFrom] at hentries
    rw [length_preorder hfirst] at hdeclared
    obtain ⟨hnodes, hplans⟩ := ih hentries hdeclared
    obtain ⟨planNode, children⟩ := plan
    rw [arenaFrom] at hentry
    rw [Node.preorder_eq] at hnode
    exact ⟨.cons (getElem?_of_stretch hnode).1 hnodes,
      .cons ⟨_, (getElem?_of_stretch hentry).1, rfl, rfl⟩ hplans⟩

/-- What is read of the rows of a node is what it outputs, its key and the columns of its joins. -/
theorem mem_needed_of_reads {e : Entry} {c : String}
    (hplans : List.Forall₂ (fun number plan => ∃ below, entries[number]? = some below ∧
      below.parent = some parent ∧ below.node = Plan.node plan) e.children plans)
    (h : e.Reads entries c) :
    c ∈ e.node.outputColumns ++ e.node.primaryKey ++ joinColumns e.node.join plans := by
  rw [List.mem_append, List.mem_append, mem_joinColumns]
  rcases h with hc | hc | ⟨own, hown, hc⟩ | ⟨number, hnumber, below, hbelow, join, hjoin, hc⟩
  · exact .inl (.inl hc)
  · exact .inl (.inr hc)
  · exact .inr (.inl ⟨own, hown, hc⟩)
  · obtain ⟨plan, hplan, found, hfound, -, hsame⟩ := exists_of_forall₂_left hplans hnumber
    obtain rfl := Option.some.inj (hbelow.symm.trans hfound)
    exact .inr (.inr ⟨plan, hplan, join, hsame ▸ hjoin, hc⟩)

mutual

/-- Every entry of a plan stands where it belongs, if the one that the plan hangs from does. -/
theorem placed_of_arenaFrom : ∀ {plan : Plan} {upper : Option Table} {node : Node} {i depth : Nat}
    {parent : Option Nat}, buildBelow schema upper node = .ok plan →
    arenaFrom i parent depth plan <+: entries.drop i → node.preorder <+: declared.drop i →
    (parent = none → i = 0 ∧ depth = 0 ∧ upper = none) →
    (∀ p, parent = some p → p < i ∧ (∃ t, upper = some t) ∧
      ∃ above, entries[p]? = some above ∧ depth = above.depth + 1 ∧ i ∈ above.children) →
    ∀ j e, entries[j]? = some e → i ≤ j → j < i + plan.size → Placed schema entries declared j e
  | ⟨_, _⟩, upper, node, i, depth, parent, h, hentries, hdeclared, htop, hnested, j, e, he, hle, hlt => by
    obtain ⟨t, outputs, join, children, ht, -, houtputs, hjoin, hchildren, -, heq⟩ := buildBelow_eq_ok h
    obtain ⟨rfl, rfl⟩ := Plan.mk.inj heq
    have hbuilt := forall₂_of_buildChildren hchildren
    rw [arenaFrom] at hentries
    rw [Node.preorder_eq] at hdeclared
    obtain ⟨hentry, hentries⟩ := getElem?_of_stretch hentries
    obtain ⟨hnode, hdeclared⟩ := getElem?_of_stretch hdeclared
    -- the first entry is that of the plan's own node, and its children have those behind it
    rcases Nat.eq_or_lt_of_le hle with rfl | hpast
    · obtain rfl := Option.some.inj (hentry.symm.trans he)
      obtain ⟨hnodes, hplans⟩ := heads_of_stretch hbuilt hentries hdeclared
      refine ⟨⟨node, hnode, ⟨rfl, rfl, rfl, t, ht, rfl, houtputs⟩, hnodes⟩, fun hnone => ?_, fun p hp => ?_,
        pairwise_numbers _ _, fun number hnumber => ?_, nodup_inSchemaOrder (nodup_distinct _), ?_⟩
      · obtain ⟨hi, hdepth, hupper⟩ := htop hnone
        obtain ⟨-, rfl⟩ | ⟨p, j, hsome, -⟩ := hjoin
        · exact ⟨hi, hdepth, rfl⟩
        · exact absurd (hupper.symm.trans hsome) (by simp)
      · obtain ⟨hpi, ⟨t', hupper⟩, habove⟩ := hnested p hp
        obtain ⟨hnone, -⟩ | ⟨-, j, -, rfl, -⟩ := hjoin
        · exact absurd (hnone.symm.trans hupper) (by simp)
        · exact ⟨hpi, ⟨j, rfl⟩, habove⟩
      · obtain ⟨plan, -, below, hbelow, hparent, -⟩ := exists_of_forall₂_left hplans hnumber
        exact ⟨below, hbelow, hparent⟩
      · intro c hreads
        rw [mem_inSchemaOrder, mem_distinct]
        exact mem_needed_of_reads hplans hreads
    · rw [size] at hlt
      exact placed_of_arenaOfChildren hbuilt hentries hdeclared hentry rfl (Nat.lt_succ_self _)
        (fun _ hnumber => hnumber) j e he hpast (by omega)

theorem placed_of_arenaOfChildren {t : Table} {parent : Nat} {above : Entry} :
    ∀ {plans : List Plan} {nodes : List Node} {next depth : Nat},
    List.Forall₂ (fun node plan => buildBelow schema (some t) node = .ok plan) nodes plans →
    arenaOfChildren next parent depth plans <+: entries.drop next →
    Node.preorderOfAll nodes <+: declared.drop next → entries[parent]? = some above →
    depth = above.depth + 1 → parent < next → (∀ number ∈ numbers next plans, number ∈ above.children) →
    ∀ j e, entries[j]? = some e → next ≤ j → j < next + sizeOfAll plans →
      Placed schema entries declared j e
  | [], _, next, _, _, _, _, _, _, _, _, j, _, _, hle, hlt => by
    rw [sizeOfAll] at hlt
    omega
  | plan :: rest, _, next, depth, .cons hfirst hrest, hentries, hdeclared, habove, hdepth, hparent, hlisted,
      j, e, he, hle, hlt => by
    rw [arenaOfChildren] at hentries
    rw [Node.preorderOfAll] at hdeclared
    obtain ⟨hentry, hentries⟩ := stretch_append hentries
    obtain ⟨hnode, hdeclared⟩ := stretch_append hdeclared
    rw [length_arenaFrom] at hentries
    rw [length_preorder hfirst] at hdeclared
    rw [sizeOfAll] at hlt
    by_cases hwithin : j < next + plan.size
    · refine placed_of_arenaFrom hfirst hentry hnode (by simp) (fun p hp => ?_) j e he hle hwithin
      obtain rfl := Option.some.inj hp
      exact ⟨hparent, ⟨t, rfl⟩, above, habove, hdepth, hlisted next List.mem_cons_self⟩
    · exact placed_of_arenaOfChildren hrest hentries hdeclared habove hdepth (by omega)
        (fun number hnumber => hlisted number (List.mem_cons_of_mem _ hnumber)) j e he (by omega)
        (by omega)

end

section Built

variable (h : build node schema = .ok plan)

include h

theorem length_arena : plan.arena.length = node.preorder.length := by
  rw [arena, length_arenaFrom, length_preorder h]

theorem placed_of_build {e : Entry} (he : plan.arena[i]? = some e) :
    Placed schema plan.arena node.preorder i e := by
  have hlt : i < plan.arena.length := (List.getElem?_eq_some_iff.mp he).1
  rw [length_arena h, length_preorder h] at hlt
  exact placed_of_arenaFrom h (List.prefix_refl _) (List.prefix_refl _) (fun _ => ⟨rfl, rfl, rfl⟩) (by simp)
    i e he (Nat.zero_le i) (by omega)

theorem map_table_arena : plan.arena.map (·.node.table) = node.preorder.map Node.table := by
  apply List.ext_getElem?
  intro i
  rw [List.getElem?_map, List.getElem?_map]
  cases he : plan.arena[i]? with
  | none =>
    have hle : node.preorder.length ≤ i := length_arena h ▸ List.getElem?_eq_none_iff.mp he
    rw [List.getElem?_eq_none hle]
    rfl
  | some e =>
    obtain ⟨d, hd, hrealizes, -⟩ := (placed_of_build h he).node
    rw [hd, Option.map_some, Option.map_some, hrealizes.table]

end Built

/-- The number of the node above the one with a number; the root stays where it is. -/
def parentOf (p : Plan) (i : Nat) : Nat := ((p.arena[i]?).bind Entry.parent).getD i

theorem iterate_parentOf (h : build node schema = .ok plan) {e : Entry} (he : plan.arena[i]? = some e) :
    plan.parentOf^[e.depth] i = 0 := by
  induction hdepth : e.depth generalizing i e with
  | zero =>
    cases hparent : e.parent with
    | none => exact ((placed_of_build h he).top hparent).1
    | some p =>
      obtain ⟨-, -, above, -, habove, -⟩ := (placed_of_build h he).nested p hparent
      omega
  | succ depth ih =>
    cases hparent : e.parent with
    | none =>
      obtain ⟨-, hzero, -⟩ := (placed_of_build h he).top hparent
      omega
    | some p =>
      obtain ⟨-, -, above, hat, habove, -⟩ := (placed_of_build h he).nested p hparent
      have hstep : plan.parentOf i = p := by
        rw [parentOf, he, Option.bind_some, hparent, Option.getD_some]
      rw [Function.iterate_succ_apply, hstep]
      exact ih hat (by omega)

def albumTable : Table :=
  ⟨"album", [⟨"id", "integer"⟩, ⟨"title", "text"⟩, ⟨"label_id", "integer"⟩], ["id"],
    [⟨["label_id"], "label", ["id"]⟩]⟩

def labelTable : Table := ⟨"label", [⟨"id", "integer"⟩, ⟨"name", "text"⟩], ["id"], []⟩

def trackTable : Table :=
  ⟨"track", [⟨"id", "integer"⟩, ⟨"album_id", "integer"⟩, ⟨"artist_id", "integer"⟩, ⟨"title", "text"⟩],
    ["id"], [⟨["album_id"], "album", ["id"]⟩, ⟨["artist_id"], "artist", ["id"]⟩]⟩

def artistTable : Table := ⟨"artist", [⟨"id", "integer"⟩, ⟨"name", "text"⟩], ["id"], []⟩

def musicSchema : Schema := .ofTables [albumTable, labelTable, trackTable, artistTable]

theorem table?_album : musicSchema.table? "album" = some albumTable := by cbv

def albumNode : Node :=
  ⟨"album", ["title", "id"], [("title", "name")], none,
    [⟨"label", ["name"], [], none, []⟩,
      ⟨"track", ["title"], [], none, [⟨"artist", [], [], none, []⟩]⟩]⟩

def labelPlan : Plan :=
  ⟨⟨"label", none, ["name"], [], ["id", "name"], ["id"], some ⟨.manyToOne, ["label_id"], ["id"]⟩⟩, []⟩

def artistPlan : Plan :=
  ⟨⟨"artist", none, ["id", "name"], [], ["id", "name"], ["id"],
    some ⟨.manyToOne, ["artist_id"], ["id"]⟩⟩, []⟩

def trackPlan : Plan :=
  ⟨⟨"track", none, ["title"], [], ["id", "album_id", "artist_id", "title"], ["id"],
    some ⟨.oneToMany, ["id"], ["album_id"]⟩⟩, [artistPlan]⟩

def albumPlan : Plan :=
  ⟨⟨"album", none, ["id", "title"], [("title", "name")], ["id", "title", "label_id"], ["id"], none⟩,
    [labelPlan, trackPlan]⟩

theorem build_albumNode : build albumNode musicSchema = .ok albumPlan := by cbv

end Plan

end DocSync
