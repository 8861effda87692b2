import DocSync.Relation.Query

/-!
SQL text of statements.  Names stand in double quotes and values in single quotes, a quote inside
written twice; the server infers a literal's type from its column.
-/

namespace DocSync.Sql

/-- Writes a quote twice and every other character once. -/
def doubled (quote : Char) (text : List Char) : List Char :=
  text.flatMap fun c => if c = quote then [quote, quote] else [c]

def quoted (quote : Char) (text : String) : String :=
  String.ofList (quote :: doubled quote text.toList ++ [quote])

/-- A name: schema, table, column, trigger or channel. -/
def ident (name : String) : String := quoted '"' name

/-- A text literal. -/
def literal (text : String) : String := quoted '\'' text

/-- A value as an untyped literal. -/
def value : Json → String
  | .null => "NULL"
  | .string s => literal s
  | other => literal other.render

def qualified (schema table : String) : String := ident schema ++ "." ++ ident table

def commaSeparated (items : List String) : String := ", ".intercalate items

/-- One item stands bare, any other number in parentheses. -/
def tuple : List String → String
  | [item] => item
  | items => "(" ++ commaSeparated items ++ ")"

/-- Columns of a projection; the system column is read as a number. -/
def projection : List String → String
  | [] => "*"
  | columns => commaSeparated (columns.map fun c =>
      if c == "xmin" then "xmin::text::bigint AS \"xmin\"" else ident c)

def equation (entry : String × Json) : String := ident entry.1 ++ " = " ++ value entry.2

/-- The condition of a key; an empty key matches nothing. -/
def keyCondition (key : Row) : String :=
  if key.isEmpty then "FALSE" else " AND ".intercalate (key.map equation)

def filterConditions : Filter → List String
  | .all => []
  | .among _ [] => ["FALSE"]
  | .among columns tuples =>
    [tuple (columns.map ident) ++ " IN ("
      ++ commaSeparated (tuples.map fun t => tuple (t.map value)) ++ ")"]

def cursorConditions (orderBy : List String) : Option (List Json) → List String
  | none => []
  | some after =>
    ["(" ++ commaSeparated (orderBy.map ident) ++ ") > ("
      ++ commaSeparated (after.map value) ++ ")"]

def clause (keyword : String) : List String → String → String
  | [], _ => ""
  | items, separator => keyword ++ separator.intercalate items

def select (schema : String) (s : Select) : String :=
  "SELECT " ++ projection s.columns ++ " FROM " ++ qualified schema s.table
    ++ clause " WHERE " (filterConditions s.filter ++ cursorConditions s.orderBy s.after) " AND "
    ++ clause " ORDER BY " (s.orderBy.map ident) ", "
    ++ (match s.limit with
      | some n => " LIMIT " ++ toString n
      | none => "")

/-- The text of a statement on tables of `schema`. -/
def render (schema : String) : Query → String
  | .select s => select schema s
  | .insert table row =>
    "INSERT INTO " ++ qualified schema table ++ " (" ++ commaSeparated (row.keys.map ident)
      ++ ") VALUES (" ++ commaSeparated (row.values.map value) ++ ") RETURNING *"
  | .update table key values =>
    "UPDATE " ++ qualified schema table ++ " SET " ++ commaSeparated (values.map equation)
      ++ " WHERE " ++ keyCondition key ++ " RETURNING *"
  | .delete table key =>
    "DELETE FROM " ++ qualified schema table ++ " WHERE " ++ keyCondition key ++ " RETURNING *"

end DocSync.Sql
