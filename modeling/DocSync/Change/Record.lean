import DocSync.Json.Parser

/-!
Row changes: what a transaction did to one row, as logs and notifications report it.
-/

namespace DocSync

inductive ChangeKind where
  | insert
  | update
  | delete
deriving DecidableEq, Repr, Inhabited

namespace ChangeKind

def name : ChangeKind → String
  | insert => "insert"
  | update => "update"
  | delete => "delete"

def ofName? : String → Option ChangeKind
  | "insert" => some insert
  | "update" => some update
  | "delete" => some delete
  | _ => none

/-- Reads a kind in any mix of ASCII upper and lower case. -/
def ofAnyCase? (text : String) : Option ChangeKind := ofName? (text.map Char.toLower)

end ChangeKind

/-- One row mutation. -/
structure ChangeRecord where
  table : String
  kind : ChangeKind
  /-- Primary-key columns after the change; before it, for a delete. -/
  key : Row
  /-- Primary-key columns before an update that changed them. -/
  oldKey : Option Row
  /-- The whole row after the change, when the producer has it. -/
  values : Option Row
  txid : Nat
  /-- Commit order within the producing source. -/
  position : Nat
deriving Repr, Inhabited

namespace ChangeRecord

/-- Whether an update moved the row to another primary key. -/
def keyChanged (r : ChangeRecord) : Bool :=
  match r.oldKey with
  | some old => !old.same r.key
  | none => false

/-- A record as an object; members without a value are left out. -/
def toJson (r : ChangeRecord) : Json :=
  let optional (name : String) (row : Option Row) : List (String × Json) :=
    match row with
    | some row => [(name, .object row)]
    | none => []
  .object <|
    [("table", .string r.table), ("kind", .string r.kind.name),
      ("primary_key_values", .object r.key)]
    ++ optional "old_primary_key_values" r.oldKey ++ optional "values" r.values
    ++ [("transaction_id", .ofNat r.txid), ("position", .ofNat r.position)]

/-- A kind is written as its name, or as an object whose one member is the name, of null. -/
def kind? : Json → Option ChangeKind
  | .string name => ChangeKind.ofName? name
  | .object [(name, .null)] => ChangeKind.ofName? name
  | _ => none

/-- An object as a row: a repeated column keeps its first place and takes its last value. -/
def row? (value : Json) : Option Row := value.distinctMembers.object?

/-- An optional row; null counts as absent. -/
def optionalRow? (value : Json) : Option (Option Row) :=
  if value.isNull then some none else (row? value).map some

def word? : Json → Option Nat
  | .number n => n.unsigned?
  | _ => none

/-- The members that a record has, in order. -/
def memberNames : List String :=
  ["table", "kind", "primary_key_values", "old_primary_key_values", "values", "transaction_id",
    "position"]

/-- Reads a record from the values of its members in order; missing rows are null and a missing
position is zero. -/
def ofValues? : List (Option Json) → Option ChangeRecord
  | [table, kind, key, oldKey, values, txid, position] => do
    return {
      table := ← (← table).string?
      kind := ← kind? (← kind)
      key := ← row? (← key)
      oldKey := ← optionalRow? (oldKey.getD .null)
      values := ← optionalRow? (values.getD .null)
      txid := ← word? (← txid)
      position := ← word? (position.getD (.ofNat 0)) }
  | _ => none

/-- Reads a record from JSON text: an object without repeated members of the record, or an array of
the member values in order. -/
def ofText? (text : String) : Option ChangeRecord := do
  ofValues? (← (← Json.parseShaped? (.ofNames memberNames) text).fields? memberNames 6)

end ChangeRecord

end DocSync
