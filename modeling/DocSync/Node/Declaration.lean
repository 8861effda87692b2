import DocSync.Json.Parser
import DocSync.Node.Error

/-!
Node declarations: the user's description of a document as a tree of tables.  Reading one reports the
first defect met in pre-order, with the path of its level.
-/

namespace DocSync

/-- One level of a node tree.  No columns means every column of the table; `renames` maps a column to
the field it is written under; the label only informs. -/
structure Node where
  table : String
  columns : List String
  renames : Keyed String
  label : Option String
  children : List Node
deriving Repr, Inhabited

namespace Node

/-- What a node may carry. -/
def attributes : List String := ["table", "columns", "children", "transform", "label"]

/-- The field a column is written under. -/
def fieldName (n : Node) (column : String) : String := n.renames.getD column column

/-- The value of an attribute; null counts as absent. -/
def attribute? (members : Keyed Json) (name : String) : Option Json :=
  match members.get? name with
  | some .null => none
  | other => other

def readTable (path : String) (members : Keyed Json) : Except NodeError String :=
  match attribute? members "table" with
  | none => .error (.missingTable path)
  | some (.string table) =>
    if table.isEmpty then .error (.invalid path .tableNotText) else .ok table
  | some _ => .error (.invalid path .tableNotText)

def readColumns (path : String) (members : Keyed Json) : Except NodeError (List String) :=
  match attribute? members "columns" with
  | none => .ok []
  | some (.array items) =>
    match items.mapM Json.string? with
    | some columns => .ok columns
    | none => .error (.invalid path .columnNotText)
  | some _ => .error (.invalid path .columnsNotArray)

/-- Adds the renames of one rule body in turn. -/
def readRenames (path : String) (entries : Keyed Json) (renames : Keyed String) :
    Except NodeError (Keyed String) :=
  entries.foldlM (fun renames (column, target) =>
    match target with
    | .string field =>
      if field.isEmpty then .error (.invalid path (.renameTargetNotText column))
      else .ok (renames.putSorted column field)
    | _ => .error (.invalid path (.renameTargetNotText column))) renames

def readTransform (path : String) (members : Keyed Json) : Except NodeError (Keyed String) :=
  match attribute? members "transform" with
  | none => .ok []
  | some (.object rules) =>
    rules.foldlM (fun renames (rule, body) =>
      if rule != "rename" then .error (.invalid path (.unknownRule rule))
      else
        match body with
        | .object entries => readRenames path entries renames
        | _ => .error (.invalid path .renameNotObject)) []
  | some _ => .error (.invalid path .transformNotObject)

def readLabel (path : String) (members : Keyed Json) : Except NodeError (Option String) :=
  match attribute? members "label" with
  | none => .ok none
  | some (.string label) => .ok (some label)
  | some _ => .error (.invalid path .labelNotText)

/-- The first attribute that no node carries. -/
def unknownAttribute? (members : Keyed Json) : Option String :=
  members.keys.find? fun key => !attributes.contains key

mutual

/-- Reads the level at `path`. -/
def ofJsonAt (path : String) : Json → Except NodeError Node
  | .object members => do
    if let some key := unknownAttribute? members then
      throw (.unknownAttribute path key)
    let table ← readTable path members
    let path := path ++ "(" ++ table ++ ")"
    let columns ← readColumns path members
    let renames ← readTransform path members
    let label ← readLabel path members
    let children ← childrenOfMembers path members
    return ⟨table, columns, renames, label, children⟩
  | _ => .error (.invalid path .notAnObject)

/-- Reads the children found under the first `children` member. -/
def childrenOfMembers (path : String) : List (String × Json) → Except NodeError (List Node)
  | [] => .ok []
  | (key, value) :: rest =>
    if key = "children" then
      match value with
      | .null => .ok []
      | .array items => childrenOfJson path 0 items
      | _ => .error (.invalid path .childrenNotArray)
    else childrenOfMembers path rest

/-- Reads the children from number `index` on. -/
def childrenOfJson (path : String) (index : Nat) : List Json → Except NodeError (List Node)
  | [] => .ok []
  | item :: rest => do
    let child ← ofJsonAt (path ++ ".children[" ++ toString index ++ "]") item
    let others ← childrenOfJson path (index + 1) rest
    return child :: others

end

/-- Reads a declaration. -/
def ofJson (value : Json) : Except NodeError Node := ofJsonAt "root" value

/-- Reads a declaration from JSON text. -/
def ofText (text : String) : Except NodeError Node :=
  match Json.parse? text with
  | some value => ofJson value
  | none => .error (.invalid "root" .malformedJson)

mutual

/-- Adds the tables of a tree that are not yet listed, root first. -/
def addTables (listed : List String) : Node → List String
  | ⟨table, _, _, _, children⟩ =>
    addTablesOfChildren (if listed.contains table then listed else listed ++ [table]) children

def addTablesOfChildren (listed : List String) : List Node → List String
  | [] => listed
  | child :: rest => addTablesOfChildren (addTables listed child) rest

end

/-- Every table of the tree, root first, without repeats. -/
def tables (n : Node) : List String := addTables [] n

end Node

end DocSync
