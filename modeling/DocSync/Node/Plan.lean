import DocSync.Node.Declaration
import DocSync.Json.Order
import DocSync.Relation.Schema

/-!
Plans: node trees checked against a schema, with projections, identities and joins resolved.  A plan
is a tree; `Plan.arena` numbers its nodes in pre-order.
-/

namespace DocSync

/-- How the rows of a node relate to its parent's: a foreign key of the child table gives many child
rows, one of the parent table at most one. -/
inductive JoinKind where
  | oneToMany
  | manyToOne
deriving DecidableEq, Repr, Inhabited

/-- `parent[i]` of a parent row equals `child[i]` of a child row. -/
structure Join where
  kind : JoinKind
  parent : List String
  child : List String
deriving DecidableEq, Repr, Inhabited

/-- What a plan knows of one node. -/
structure PlanNode where
  table : String
  label : Option String
  /-- Projected columns in schema order. -/
  outputColumns : List String
  renames : Keyed String
  /-- Every column that is read: projection, identity and joins, in schema order. -/
  fetchColumns : List String
  primaryKey : List String
  join : Option Join
deriving DecidableEq, Repr, Inhabited

namespace PlanNode

/-- The field under which this node's rows appear in the parent's source. -/
def field (n : PlanNode) : String := n.table

/-- The field a column is written under. -/
def fieldName (n : PlanNode) (column : String) : String := n.renames.getD column column

end PlanNode

/-- A checked node tree. -/
structure Plan where
  node : PlanNode
  children : List Plan
deriving Repr, Inhabited

/-- The reserved field that records nested identities. -/
def metaField : String := "_meta"

namespace Plan

/-- Items without repeats, each at its first place. -/
def distinct (items : List String) : List String :=
  items.foldl (fun kept item => if kept.contains item then kept else kept ++ [item]) []

/-- Columns in schema order; columns of one place keep their order. -/
def inSchemaOrder (table : Table) (columns : List String) : List String :=
  sortStable (fun a b => table.position a ≤ table.position b) columns

/-- Requested columns without repeats in schema order, or every column. -/
def outputColumns (node : Node) (table : Table) : Except NodeError (List String) :=
  if node.columns.isEmpty then .ok table.columnNames
  else
    match node.columns.find? (!table.isSelectable ·) with
    | some column => .error (.unknownColumn column node.table)
    | none => .ok (inSchemaOrder table (distinct node.columns))

def checkRenames (node : Node) (table : Table) : Except NodeError Unit :=
  match node.renames.keys.find? (!table.isSelectable ·) with
  | some column => .error (.unknownColumn column node.table)
  | none => .ok ()

/-- The join of a child with its parent: the child's first foreign key to the parent, else the
parent's first one to the child. -/
def resolveJoin (parent child : Table) : Except NodeError Join :=
  match child.foreignKeysTo parent.name with
  | key :: _ => .ok ⟨.oneToMany, key.referenced, key.columns⟩
  | [] =>
    match parent.foreignKeysTo child.name with
    | key :: _ => .ok ⟨.manyToOne, key.columns, key.referenced⟩
    | [] => .error (.unrelated parent.name child.name)

/-- The first field that is written twice; the reserved field counts as written. -/
def repeatedField? (written : List String) : List String → Option String
  | [] => none
  | field :: rest =>
    if written.contains field then some field else repeatedField? (field :: written) rest

/-- The fields of a node's source: columns first, then children. -/
def fields (outputs : List String) (renames : Keyed String) (children : List Plan) : List String :=
  outputs.map (fun c => renames.getD c c) ++ children.map (·.node.field)

/-- The columns that a node's own join and its children's joins read from its rows. -/
def joinColumns (join : Option Join) (children : List Plan) : List String :=
  (match join with
    | some j => j.child
    | none => []) ++
  children.flatMap fun child =>
    match child.node.join with
    | some j => j.parent
    | none => []

mutual

/-- Checks a node below `parent`: its table and key, its columns and renames, its join, its children
in turn, and last that no field is written twice. -/
def buildBelow (schema : Schema) (parent : Option Table) : Node → Except NodeError Plan
  | node@⟨name, _, renames, label, childNodes⟩ => do
    let some table := schema.table? name | throw (.unknownTable name)
    if table.primaryKey.isEmpty then throw (.invalid name (.noPrimaryKey name))
    let outputs ← outputColumns node table
    checkRenames node table
    let join ← match parent with
      | some parent => (resolveJoin parent table).map some
      | none => .ok none
    let children ← buildChildren schema table childNodes
    if let some field := repeatedField? [metaField] (fields outputs renames children) then
      throw (.invalid name (.repeatedField field))
    let needed := outputs ++ table.primaryKey ++ joinColumns join children
    let fetch := inSchemaOrder table (distinct needed)
    return ⟨⟨name, label, outputs, renames, fetch, table.primaryKey, join⟩, children⟩

def buildChildren (schema : Schema) (parent : Table) : List Node → Except NodeError (List Plan)
  | [] => .ok []
  | child :: rest => do
    let plan ← buildBelow schema (some parent) child
    let others ← buildChildren schema parent rest
    return plan :: others

end

/-- Checks a declaration against a schema. -/
def build (node : Node) (schema : Schema) : Except NodeError Plan := buildBelow schema none node

/-- A node of the plan as the arena lists it. -/
structure Entry where
  node : PlanNode
  parent : Option Nat
  children : List Nat
  depth : Nat
deriving Repr, Inhabited

mutual

/-- How many nodes a plan has. -/
def size : Plan → Nat
  | ⟨_, children⟩ => 1 + sizeOfAll children

def sizeOfAll : List Plan → Nat
  | [] => 0
  | child :: rest => size child + sizeOfAll rest

end

/-- The numbers of sibling plans, the first of which is `next`. -/
def numbers (next : Nat) : List Plan → List Nat
  | [] => []
  | child :: rest => next :: numbers (next + child.size) rest

mutual

/-- The nodes of a plan in pre-order, the first of which has number `index`. -/
def arenaFrom (index : Nat) (parent : Option Nat) (depth : Nat) : Plan → List Entry
  | ⟨node, children⟩ =>
    ⟨node, parent, numbers (index + 1) children, depth⟩
      :: arenaOfChildren (index + 1) index (depth + 1) children

def arenaOfChildren (next parent depth : Nat) : List Plan → List Entry
  | [] => []
  | child :: rest =>
    arenaFrom next (some parent) depth child
      ++ arenaOfChildren (next + child.size) parent depth rest

end

/-- The nodes of the plan in pre-order; node 0 is the root. -/
def arena (p : Plan) : List Entry := arenaFrom 0 none 0 p

/-- The numbers of the nodes that read a table. -/
def indicesOf (p : Plan) (table : String) : List Nat :=
  (p.arena.zipIdx.filter (·.1.node.table == table)).map Prod.snd

def containsTable (p : Plan) (table : String) : Bool := p.arena.any (·.node.table == table)

/-- Every table of the plan, root first, without repeats. -/
def tables (p : Plan) : List String := distinct (p.arena.map (·.node.table))

mutual

/-- The nodes that read `table`, each with the path from it up to the root. -/
def pathsFrom (table : String) (above : List PlanNode) : Plan → List (List PlanNode)
  | ⟨node, children⟩ =>
    (if node.table == table then [node :: above] else [])
      ++ pathsOfChildren table (node :: above) children

def pathsOfChildren (table : String) (above : List PlanNode) : List Plan → List (List PlanNode)
  | [] => []
  | child :: rest => pathsFrom table above child ++ pathsOfChildren table above rest

end

/-- The paths up to the root from every node that reads a table, in pre-order. -/
def pathsOf (p : Plan) (table : String) : List (List PlanNode) := pathsFrom table [] p

end Plan

end DocSync
