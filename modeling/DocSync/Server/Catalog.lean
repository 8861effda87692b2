import DocSync.Relation.Schema
import DocSync.Server.Dialogue

/-!
Descriptions of tables, read from the catalog of a database server.
-/

namespace DocSync.ServerCatalog

/-- A statement from its clauses. -/
def clauses (parts : List String) : String := " ".intercalate parts

def columnsText : String :=
  clauses ["SELECT column_name, data_type", "FROM information_schema.columns",
    "WHERE table_schema = $1 AND table_name = $2", "ORDER BY ordinal_position"]

def primaryKeyText : String :=
  clauses ["SELECT a.attname", "FROM pg_index i",
    "JOIN pg_attribute a ON a.attrelid = i.indrelid AND a.attnum = ANY(i.indkey)",
    "JOIN pg_class c ON c.oid = i.indrelid",
    "JOIN pg_namespace n ON n.oid = c.relnamespace",
    "WHERE i.indisprimary", "AND n.nspname = $1", "AND c.relname = $2",
    "ORDER BY array_position(i.indkey, a.attnum)"]

def foreignKeysText : String :=
  clauses ["SELECT con.conname::text, att.attname::text, ref_class.relname::text, ref_att.attname::text",
    "FROM pg_constraint con",
    "JOIN pg_class cls ON cls.oid = con.conrelid",
    "JOIN pg_namespace ns ON ns.oid = cls.relnamespace",
    "JOIN pg_class ref_class ON ref_class.oid = con.confrelid",
    "CROSS JOIN LATERAL unnest(con.conkey, con.confkey)",
    "WITH ORDINALITY AS k(attnum, ref_attnum, ord)",
    "JOIN pg_attribute att ON att.attrelid = con.conrelid AND att.attnum = k.attnum",
    "JOIN pg_attribute ref_att ON ref_att.attrelid = con.confrelid AND ref_att.attnum = k.ref_attnum",
    "WHERE con.contype = 'f'", "AND ns.nspname = $1", "AND cls.relname = $2",
    "ORDER BY con.conname, k.ord"]

/-- The rows of a catalog statement about a table. -/
def look (what text schema table : String) : Dialogue (List ResultRow) :=
  Dialogue.rows ("Failed to get " ++ what ++ " for " ++ schema ++ "." ++ table) text
    [.text schema, .text table]

def column? (row : ResultRow) : Option Column := do
  return ⟨← row.text? 0, ← row.text? 1⟩

/-- One pair of columns of a foreign key, with the name of the key. -/
structure KeyPair where
  key : String
  column : String
  table : String
  referenced : String
deriving DecidableEq, Repr

def keyPair? (row : ResultRow) : Option KeyPair := do
  return ⟨← row.text? 0, ← row.text? 1, ← row.text? 2, ← row.text? 3⟩

/-- Adds a pair in front of keys: to the first where it has the same name, else as a key of its own. -/
def addPair (pair : KeyPair) (keys : List (String × ForeignKey)) : List (String × ForeignKey) :=
  match keys with
  | (name, key) :: rest =>
    if name = pair.key then
      (name, ⟨pair.column :: key.columns, pair.table, pair.referenced :: key.referenced⟩) :: rest
    else (pair.key, ⟨[pair.column], pair.table, [pair.referenced]⟩) :: keys
  | [] => [(pair.key, ⟨[pair.column], pair.table, [pair.referenced]⟩)]

/-- The foreign keys of pairs: neighbours of one name belong together. -/
def foreignKeys (pairs : List KeyPair) : List ForeignKey :=
  (pairs.foldr addPair []).map Prod.snd

/-- Describes a table; one without columns does not exist. -/
def describe (schema table : String) : Dialogue (Option Table) := do
  let readAll {α : Type} (what : String) (read : ResultRow → Option α) (rows : List ResultRow) :=
    Dialogue.expect ("Failed to get " ++ what ++ " for " ++ schema ++ "." ++ table) (rows.mapM read)
  let columns ← readAll "columns" column? (← look "columns" columnsText schema table)
  if columns.isEmpty then return none
  let key ← readAll "primary key" (·.text? 0) (← look "primary key" primaryKeyText schema table)
  let pairs ← readAll "foreign keys" keyPair? (← look "foreign keys" foreignKeysText schema table)
  return some ⟨table, columns, key, foreignKeys pairs⟩

end DocSync.ServerCatalog
