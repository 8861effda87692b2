import DocSync.Digest.Sha256
import DocSync.Document.Identity
import DocSync.Document.RowTree
import DocSync.Error
import DocSync.Node.Plan

/-!
Documents: what a row tree becomes under a plan.  A source holds the projected columns under their
output names, one field per child, and at the root `_meta`, which lists the keys of the rows below.
-/

namespace DocSync

/-- A document ready for the sink. -/
structure Document where
  identity : String
  index : String
  source : Row
deriving Repr, Inhabited

namespace Document

def toJson (d : Document) : Json :=
  .object [("_id", .string d.identity), ("_index", .string d.index), ("_source", .object d.source)]

/-- The document as compact JSON. -/
def text (d : Document) : String := d.toJson.render

/-- SHA-256 of the document's text. -/
def digest (d : Document) : String := Sha256.hex d.text.toUTF8.toList

/-- The `_meta` member of the source. -/
def meta? (d : Document) : Option (Keyed Json) := (d.source.get? metaField).bind Json.object?

end Document

/-- Key values of nested rows: table, then primary-key column, then the values seen, all in order of
name. -/
abbrev Meta := Keyed (Keyed (List Json))

namespace Meta

/-- Adds the key values of one row; null values are left out, its table is not. -/
def record (found : Meta) (node : PlanNode) (row : Row) : Meta :=
  let columns := node.primaryKey.foldl (fun columns column =>
    let value := row.value column
    if value.isNull then columns
    else columns.putSorted column (columns.getD column [] ++ [value])) (found.getD node.table [])
  found.putSorted node.table columns

/-- Removes a value that equals the one kept before it. -/
def dropRepeats : List Json → List Json
  | [] => []
  | first :: rest => first :: go first rest
where
  go (kept : Json) : List Json → List Json
    | [] => []
    | value :: rest =>
      if Json.compare value kept == .eq then go kept rest else value :: go value rest

/-- Values in order, none twice. -/
def listed (values : List Json) : List Json :=
  dropRepeats (sortStable (fun a b => Json.compare a b != .gt) values)

def toJson (found : Meta) : Json :=
  .object (found.map fun (table, columns) =>
    (table, .object (columns.map fun (column, values) => (column, .array (listed values)))))

end Meta

namespace Plan

mutual

/-- Records the rows below a node: each child row, then the rows below that one, child by child. -/
def recordBelow (found : Meta) : Plan → RowTree → Meta
  | ⟨_, children⟩, tree => recordSlots found children tree.children

def recordSlots (found : Meta) : List Plan → List (List RowTree) → Meta
  | [], _ => found
  | _ :: _, [] => found
  | child :: rest, rows :: slots =>
    recordSlots (rows.foldl (fun found tree =>
      recordBelow (found.record child.node tree.row) child tree) found) rest slots

end

mutual

/-- The source of a row: columns first, then one field per child. -/
def source : Plan → RowTree → Row
  | ⟨node, children⟩, tree =>
    childFields children tree.children
      (node.outputColumns.foldl (fun source column =>
        source.put (node.fieldName column) (tree.row.value column)) [])

/-- A child that the parent refers to is one object, empty without a row; any other is an array. -/
def childFields : List Plan → List (List RowTree) → Row → Row
  | [], _, source => source
  | child :: rest, slots, written =>
    let compiled := (slots.headD []).map fun tree => Json.object (source child tree)
    let value := match child.node.join.map Join.kind with
      | some .manyToOne => compiled.headD (.object [])
      | _ => .array compiled
    childFields rest slots.tail (written.put child.node.field value)

end

/-- Compiles one root row tree; a root row without its key is refused. -/
def compile (plan : Plan) (index : String) (tree : RowTree) : Except SyncError Document :=
  let columns := plan.node.primaryKey
  let key := tree.row.tuple columns
  match columns.find? fun c => (tree.row.value c).isNull with
  | some column => .error (.application plan.node.table (Identity.ofKey key) column)
  | none =>
    let source := (plan.source tree).put metaField (plan.recordBelow [] tree).toJson
    .ok ⟨Identity.ofKey key, index, source⟩

end Plan

end DocSync
