import DocSync.Document.Compile
import DocSync.Relation.Query
import DocSync.Relation.Schema
import DocSync.Change.Record
import DocSync.Service.Session

/-!
Reading tables, statements, rows, records and documents from their JSON forms.  What is missing reads as
empty.
-/

namespace DocSync.Wire

/-- A member of an object, null where there is none. -/
def member (o : Json) (name : String) : Json :=
  match o with
  | .object members => Keyed.getD members name .null
  | _ => .null

def hasMember (o : Json) (name : String) : Bool :=
  match o with
  | .object members => Keyed.contains members name
  | _ => false

def asText (j : Json) : String := j.string?.getD ""

def natOption : Json → Option Nat
  | .number n => n.unsigned?
  | _ => none

def asNat (j : Json) : Nat := (natOption j).getD 0

def asInt : Json → Int
  | .number (.integer i) => i
  | _ => 0

def asBool : Json → Bool
  | .bool b => b
  | _ => false

def asList (j : Json) : List Json := j.array?.getD []

def asTexts (j : Json) : List String := (asList j).map asText

def asRow (j : Json) : Row := j.object?.getD []

def text (o : Json) (name : String) : String := asText (member o name)

def textOr (o : Json) (name standard : String) : String := (member o name).string?.getD standard

def nat (o : Json) (name : String) : Nat := asNat (member o name)

def natOr (o : Json) (name : String) (standard : Nat) : Nat := (natOption (member o name)).getD standard

def list (o : Json) (name : String) : List Json := asList (member o name)

def texts (o : Json) (name : String) : List String := asTexts (member o name)

def row (o : Json) (name : String) : Row := asRow (member o name)

def readColumn (j : Json) : Column :=
  match asTexts j with
  | name :: type :: _ => ⟨name, type⟩
  | _ => ⟨"", ""⟩

def readForeignKey (j : Json) : ForeignKey := ⟨texts j "columns", text j "table", texts j "referenced"⟩

def readTable (j : Json) : Table :=
  ⟨text j "name", (list j "columns").map readColumn, texts j "primary_key",
    (list j "foreign_keys").map readForeignKey⟩

def readSchema (j : Json) : Schema := .ofTables ((asList j).map readTable)

/-- Null stands for every row. -/
def readFilter (j : Json) : Filter :=
  match j with
  | .null => .all
  | _ => .among (texts j "columns") ((list j "tuples").map asList)

def readSelect (j : Json) : Select where
  table := text j "table"
  columns := texts j "columns"
  filter := readFilter (member j "filter")
  orderBy := texts j "order_by"
  after := (member j "after").array?
  limit := natOption (member j "limit")

/-- A statement is an object whose one member says its kind. -/
def readQuery : Json → Query
  | .object ((kind, body) :: _) =>
    match kind with
    | "insert" => .insert (text body "table") (row body "row")
    | "update" => .update (text body "table") (row body "key") (row body "values")
    | "delete" => .delete (text body "table") (row body "key")
    | _ => .select (readSelect body)
  | _ => .select (.everything "")

def readQueries (o : Json) (name : String) : List Query := (list o name).map readQuery

def readRecord (j : Json) : ChangeRecord where
  table := text j "table"
  kind := (ChangeKind.ofName? (text j "kind")).getD .insert
  key := row j "primary_key_values"
  oldKey := (member j "old_primary_key_values").object?
  values := (member j "values").object?
  txid := nat j "transaction_id"
  position := nat j "position"

def readRecords (o : Json) (name : String) : List ChangeRecord := (list o name).map readRecord

def readDocument (j : Json) : Document := ⟨text j "_id", text j "_index", row j "_source"⟩

mutual

/-- A row tree: a row, and the trees of each child slot. -/
def readTree : Json → RowTree
  | .object members => ⟨row (.object members) "row", readSlots members⟩
  | _ => ⟨[], []⟩

def readSlots : List (String × Json) → List (List RowTree)
  | [] => []
  | ("children", .array items) :: _ => readSlotList items
  | _ :: rest => readSlots rest

def readSlotList : List Json → List (List RowTree)
  | [] => []
  | .array items :: rest => readTrees items :: readSlotList rest
  | _ :: rest => [] :: readSlotList rest

def readTrees : List Json → List RowTree
  | [] => []
  | item :: rest => readTree item :: readTrees rest

end

/-- Whether a step of a scoped program is tried. -/
def isTried (members : List (String × Json)) : Bool := Keyed.contains members "try"

mutual

/-- A step of a scoped program; one that says nothing else hangs. -/
def readScopeStep : Json → Scope.Step
  | .object members => readScopeMember (isTried members) members
  | _ => .hang

def readScopeMember (tried : Bool) : List (String × Json) → Scope.Step
  | [] => .hang
  | ("exec", q) :: _ => .execute (readQuery q) tried
  | ("scope", .array body) :: _ => .scope (readScopeSteps body) tried
  | ("fail", .string t) :: _ => .fail t tried
  | _ :: rest => readScopeMember tried rest

def readScopeSteps : List Json → List Scope.Step
  | [] => []
  | step :: rest => readScopeStep step :: readScopeSteps rest

end

end DocSync.Wire
