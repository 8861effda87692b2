import DocSync.Json.Order

/-!
The statements that sessions execute, and which rows a filter or a key chooses.
-/

namespace DocSync

/-- A row predicate: every row, or those whose `columns` equal one of `tuples`. -/
inductive Filter where
  | all
  | among (columns : List String) (tuples : List (List Json))
deriving Repr, Inhabited

namespace Filter

/-- The rows whose `columns` hold `values`. -/
def key (columns : List String) (values : List Json) : Filter := among columns [values]

/-- Whether a row holds `values` in `columns`; what is left over on either side is ignored. -/
def tupleMatches (columns : List String) (row : Row) (values : List Json) : Bool :=
  (columns.zip values).all fun (column, expected) => (row.value column).sqlMatches expected

def accepts (f : Filter) (row : Row) : Bool :=
  match f with
  | all => true
  | among columns tuples => tuples.any (tupleMatches columns row)

/-- A filter without tuples can match no row. -/
def isEmpty : Filter → Bool
  | all => false
  | among _ tuples => tuples.isEmpty

end Filter

/-- A projection over one table; `after` keeps the rows whose `orderBy` tuple sorts after it. -/
structure Select where
  table : String
  columns : List String
  filter : Filter
  orderBy : List String
  after : Option (List Json)
  limit : Option Nat
deriving Repr, Inhabited

/-- The whole table, every column, in storage order. -/
def Select.everything (table : String) : Select := ⟨table, [], .all, [], none, none⟩

/-- A statement. -/
inductive Query where
  | select (select : Select)
  | insert (table : String) (row : Row)
  | update (table : String) (key : Row) (values : Row)
  | delete (table : String) (key : Row)
deriving Repr, Inhabited

/-- Whether a row holds the values of a key; an empty key matches every row. -/
def Row.matchesKey (row key : Row) : Bool :=
  key.all fun (column, expected) => (row.value column).sqlMatches expected

end DocSync
