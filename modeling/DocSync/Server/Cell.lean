import DocSync.Decimal.Scaled
import DocSync.Json.Parser
import DocSync.Text.Calendar

/-!
Values in the rows that a database server returns, and their JSON forms.
-/

namespace DocSync

/-- A value of a result row. -/
inductive Cell where
  | null
  | bool (value : Bool)
  | integer (value : Int)
  /-- A finite number; infinities and what is no number are `notFinite`. -/
  | double (value : Double)
  | notFinite
  | text (value : String)
  /-- A JSON text, which need not be well-formed. -/
  | json (text : String)
  | decimal (value : ScaledDecimal)
  | notDecimal
  /-- An identifier of 32 hexadecimal digits. -/
  | uuid (digits : List Char)
  /-- A point in time in microseconds, with or without a time zone. -/
  | moment (microseconds : Int) (zoned : Bool)
  /-- A day, counted from the start of the year 2000. -/
  | date (days : Int)
  /-- A value of a type that has no text. -/
  | unreadable
deriving Repr, Inhabited

namespace Cell

/-- The digits of an identifier in groups of 8, 4, 4, 4 and 12. -/
def uuidText (digits : List Char) : String :=
  "-".intercalate ([(0, 8), (8, 4), (12, 4), (16, 4), (20, 12)].map fun (start, count) =>
    String.ofList ((digits.drop start).take count |>.map Char.toLower))

/-- The JSON form of a value, nothing where it cannot be read.  Decimals become text so that no digit
is lost; numbers that JSON does not have become null. -/
def toJson? : Cell → Option Json
  | null => some .null
  | bool b => some (.bool b)
  | integer i => some (.ofInt i)
  | double d => some (.number (.double d))
  | notFinite => some .null
  | text s => some (.string s)
  | json s => Json.parse? s
  | decimal d => d.held?.map fun held => .string held.text
  | notDecimal => none
  | uuid digits => some (.string (uuidText digits))
  | moment microseconds zoned =>
    (Calendar.momentText? microseconds).map fun t => .string (if zoned then t ++ "+00:00" else t)
  | date days => (Calendar.dateText? days).map .string
  | unreadable => some .null

def text? : Cell → Option String
  | text s => some s
  | _ => none

def integer? : Cell → Option Int
  | integer i => some i
  | _ => none

def bool? : Cell → Option Bool
  | bool b => some b
  | _ => none

end Cell

/-- A result row: the cells by column name, where names may repeat. -/
abbrev ResultRow := List (String × Cell)

namespace ResultRow

def text? (row : ResultRow) (i : Nat) : Option String := row[i]?.bind fun cell => cell.2.text?

def integer? (row : ResultRow) (i : Nat) : Option Int := row[i]?.bind fun cell => cell.2.integer?

def bool? (row : ResultRow) (i : Nat) : Option Bool := row[i]?.bind fun cell => cell.2.bool?

/-- A column in JSON form, or its name where it cannot be read. -/
def readColumn (column : String × Cell) : Except String (String × Json) :=
  match column.2.toJson? with
  | some value => .ok (column.1, value)
  | none => .error column.1

/-- The JSON form of a row from its columns in turn, which fails with the name of the first one that
cannot be read. -/
def toRow (row : ResultRow) : Except String Row := (row.mapM readColumn).map Keyed.ofEntries

end ResultRow

end DocSync
