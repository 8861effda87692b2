import DocSync.Keyed

/-!
Tables, their keys, and the snapshots of them that plans are built from.
-/

namespace DocSync

structure Column where
  name : String
  type : String
deriving DecidableEq, Repr, Inhabited

/-- `columns[i]` of the table that has the key equals `referenced[i]` of table `table`. -/
structure ForeignKey where
  columns : List String
  table : String
  referenced : List String
deriving DecidableEq, Repr, Inhabited

/-- A table with its columns in ordinal order. -/
structure Table where
  name : String
  columns : List Column
  primaryKey : List String
  foreignKeys : List ForeignKey
deriving DecidableEq, Repr, Inhabited

namespace Table

/-- Columns that may be asked for by name but are no part of "every column". -/
def systemColumns : List String := ["xmin"]

def columnNames (t : Table) : List String := t.columns.map Column.name

def hasColumn (t : Table) (name : String) : Bool := t.columnNames.contains name

def isSelectable (t : Table) (name : String) : Bool :=
  t.hasColumn name || systemColumns.contains name

/-- Where a column stands: regular columns in order, then system columns, then all others. -/
def position (t : Table) (name : String) : Nat := (t.columnNames ++ systemColumns).idxOf name

/-- The foreign keys to another table, in the order they are declared. -/
def foreignKeysTo (t : Table) (table : String) : List ForeignKey :=
  t.foreignKeys.filter (·.table == table)

end Table

/-- The tables of a database by name. -/
structure Schema where
  tables : Keyed Table
deriving Repr, Inhabited

namespace Schema

def empty : Schema := ⟨[]⟩

/-- A later table replaces an earlier one of its name. -/
def insert (s : Schema) (t : Table) : Schema := ⟨s.tables.put t.name t⟩

def ofTables (tables : List Table) : Schema := tables.foldl insert empty

def table? (s : Schema) (name : String) : Option Table := s.tables.get? name

def tableNames (s : Schema) : List String := s.tables.keys

end Schema

end DocSync
