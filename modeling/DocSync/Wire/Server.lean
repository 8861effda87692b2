import DocSync.Server.Peer
import DocSync.Wire.Read

/-!
Reading the replies of a scripted database server, and the JSON form of the statements it saw.
-/

namespace DocSync.Wire

/-- A number as binary64, or nothing where its text says that it is not finite. -/
def readDouble : Json → Option Double
  | .number n => some n.toDouble
  | _ => none

def doubleCell : Option Double → Cell
  | some d => .double d
  | none => .notFinite

/-- A decimal text: a sign, digits, and a point before the last of them. -/
def readDecimal (text : String) : ScaledDecimal :=
  let (negative, body) := match text.toList with
    | '-' :: rest => (true, rest)
    | cs => (false, cs)
  let fraction := (body.dropWhile (· ≠ '.')).drop 1
  ⟨negative, Numeral.natOfDigits (body.filter Char.isDigit), fraction.length⟩

/-- A value of a type by its name. -/
def readCell (type : String) (j : Json) : Cell :=
  if j.isNull then .null
  else
    match type with
    | "bool" => .bool (asBool j)
    | "int2" | "int4" | "int8" => .integer (asInt j)
    | "float8" => doubleCell (readDouble j)
    | "float4" => doubleCell ((readDouble j).bind Double.toSingle?)
    | "text" | "varchar" | "bpchar" | "name" => .text (asText j)
    | "json" | "jsonb" => .json (asText j)
    | "numeric" => if asText j == "NaN" then .notDecimal else .decimal (readDecimal (asText j))
    | "uuid" => .uuid (asText j).toList
    | "timestamp" => .moment (asInt j) false
    | "timestamptz" => .moment (asInt j) true
    | "date" => .date (asInt j)
    | _ => .unreadable

/-- The rows of a reply, whose columns have names and types. -/
def readResultRows (reply : Json) : List ResultRow :=
  let columns := (list reply "columns").map readColumn
  (list reply "rows").map fun cells =>
    (columns.zip (asList cells)).map fun (column, cell) => (column.name, readCell column.type cell)

def readServerReply (j : Json) : ServerReply :=
  if hasMember j "error" then .refuse (text (member j "error") "code")
  else if hasMember j "late_error" then .fail (text (member j "late_error") "code")
  else if hasMember j "close" then .close
  else if hasMember j "notify" then .announce (texts j "notify")
  else .rows (readResultRows j)

def parameter : Parameter → Json
  | .text s => .string s
  | .texts items => .strings items
  | .json value => value

def seenStatement (s : SeenStatement) : Json :=
  .object [("sql", .string s.text), ("params", .array (s.parameters.map parameter))]

end DocSync.Wire
