import DocSync.Change.Record
import DocSync.Change.Window
import DocSync.Failure
import DocSync.Relation.Query
import DocSync.Relation.Schema

/-!
A database in memory.  A transaction that writes gets the next transaction id and appends its change
records to a log; slots remember from where and up to where the log was released to them.
-/

namespace DocSync

inductive DatabaseError where
  | noRelation (name : String)
  | noColumn (column relation : String)
  | nullKey (relation : String)
  | duplicateKey (relation : String)
  | selectAsWrite (relation : String)
  | notOpen (action : String)
  | noSlot (name : String)
  | notARow (value : Json)
deriving Repr, Inhabited

namespace DatabaseError

def message : DatabaseError → String
  | noRelation name => "relation \"" ++ name ++ "\" does not exist"
  | noColumn column relation =>
    "column \"" ++ column ++ "\" of relation \"" ++ relation ++ "\" does not exist"
  | nullKey relation => "null value in primary key of relation \"" ++ relation ++ "\""
  | duplicateKey relation =>
    "duplicate key value violates unique constraint on \"" ++ relation ++ "\""
  | selectAsWrite relation => "select on " ++ relation ++ " cannot run as a write"
  | notOpen action => action ++ " without an open transaction"
  | noSlot name => "replication slot \"" ++ name ++ "\" does not exist"
  | notARow value => "expected a JSON object for a row, got " ++ value.render

def toFailure (e : DatabaseError) : Failure := .ofText e.message

end DatabaseError

/-- A row and the transaction that wrote it. -/
structure StoredRow where
  values : Row
  xmin : Nat
deriving Repr, Inhabited

/-- The rows of each table in insertion order. -/
abbrev Tables := Keyed (List StoredRow)

/-- Where a slot's log starts, and up to which transaction it was released. -/
structure Slot where
  start : Nat
  reclaimedUpTo : Nat
deriving DecidableEq, Repr, Inhabited

structure Database where
  schema : Schema
  tables : Tables
  lastTxid : Nat
  nextPosition : Nat
  /-- Committed changes in commit order. -/
  log : List ChangeRecord
  slots : Keyed Slot
deriving Repr, Inhabited

namespace StoredRow

/-- The row as queries see it, with its system column. -/
def visible (r : StoredRow) : Row := r.values.put "xmin" (.ofNat r.xmin)

end StoredRow

namespace Table

/-- The primary-key columns of a row. -/
def keyOf (t : Table) (row : Row) : Row := Keyed.ofEntries (t.primaryKey.map fun c => (c, row.value c))

def checkColumns (t : Table) (row : Row) : Except DatabaseError Unit :=
  match row.keys.find? (!t.hasColumn ·) with
  | some column => .error (.noColumn column t.name)
  | none => .ok ()

/-- A key must have no null and match no row of the table. -/
def checkUnique (t : Table) (rows : List StoredRow) (key : Row) : Except DatabaseError Unit :=
  if key.values.any Json.isNull then .error (.nullKey t.name)
  else if rows.any fun r => r.values.matchesKey key then .error (.duplicateKey t.name)
  else .ok ()

end Table

/-- What a write did: the rows it affected, the change it made, and the rows of its table after it. -/
structure WriteEffect where
  affected : List Row
  record : Option ChangeRecord
  rows : List StoredRow
deriving Repr, Inhabited

namespace Database

def empty (schema : Schema) : Database := ⟨schema, [], 0, 0, [], []⟩

/-- A JSON value as a row. -/
def rowOf : Json → Except DatabaseError Row
  | .object members => .ok members
  | other => .error (.notARow other)

/-- A write that found no row. -/
def noEffect (rows : List StoredRow) : WriteEffect := ⟨[], none, rows⟩

/-- Inserts a row with a value for every column. -/
def insertRow (t : Table) (rows : List StoredRow) (row : Row) (txid : Nat) :
    Except DatabaseError WriteEffect := do
  t.checkColumns row
  let values : Row := Keyed.ofEntries (t.columnNames.map fun c => (c, row.value c))
  let key := t.keyOf values
  t.checkUnique rows key
  return ⟨[values], some ⟨t.name, .insert, key, none, some values, txid, 0⟩,
    rows ++ [⟨values, txid⟩]⟩

/-- Updates the first row that matches a key; its new primary key must be free. -/
def updateRow (t : Table) (rows : List StoredRow) (key changes : Row) (txid : Nat) :
    Except DatabaseError WriteEffect := do
  t.checkColumns changes
  match rows.findIdx? (·.values.matchesKey key) with
  | none => return noEffect rows
  | some i =>
    let old : Row := ((rows[i]?).map StoredRow.values).getD []
    let oldKey := t.keyOf old
    let updated : Row := changes.foldl (fun row (column, value) => row.put column value) old
    let newKey := t.keyOf updated
    if !newKey.same oldKey then t.checkUnique (rows.eraseIdx i) newKey
    let left := if newKey.same oldKey then none else some oldKey
    return ⟨[updated], some ⟨t.name, .update, newKey, left, some updated, txid, 0⟩,
      rows.set i ⟨updated, txid⟩⟩

/-- Deletes the first row that matches a key. -/
def deleteRow (t : Table) (rows : List StoredRow) (key : Row) (txid : Nat) : WriteEffect :=
  match rows.findIdx? (·.values.matchesKey key) with
  | none => noEffect rows
  | some i =>
    let old : Row := ((rows[i]?).map StoredRow.values).getD []
    ⟨[old], some ⟨t.name, .delete, t.keyOf old, none, none, txid, 0⟩, rows.eraseIdx i⟩

/-- The table a write names. -/
def writtenTable? (schema : Schema) (name : String) : Except DatabaseError Table :=
  match schema.table? name with
  | some t => .ok t
  | none => .error (.noRelation name)

/-- The effect of a write on the rows of its table, and that table's name. -/
def effectOf (schema : Schema) (tables : Tables) (query : Query) (txid : Nat) :
    Except DatabaseError (String × WriteEffect) := do
  match query with
  | .select s => throw (.selectAsWrite s.table)
  | .insert name row =>
    let t ← writtenTable? schema name
    return (name, ← insertRow t (tables.getD name []) row txid)
  | .update name key values =>
    let t ← writtenTable? schema name
    return (name, ← updateRow t (tables.getD name []) key values txid)
  | .delete name key =>
    let t ← writtenTable? schema name
    return (name, deleteRow t (tables.getD name []) key txid)

/-- What a run of writes leaves: the tables, the rows affected and the changes made. -/
structure Applied where
  tables : Tables
  affected : List Row
  records : List ChangeRecord
deriving Repr, Inhabited

/-- Applies writes in turn as transaction `txid`; the first that fails fails them all. -/
def applyAll (schema : Schema) (txid : Nat) : List Query → Tables → Except DatabaseError Applied
  | [], tables => .ok ⟨tables, [], []⟩
  | query :: rest, tables => do
    let (name, effect) ← effectOf schema tables query txid
    let applied ← applyAll schema txid rest (tables.put name effect.rows)
    return { applied with
      affected := effect.affected ++ applied.affected
      records := effect.record.toList ++ applied.records }

/-- Numbers records from a log position on. -/
def numbered (position : Nat) : List ChangeRecord → List ChangeRecord
  | [] => []
  | r :: rest => { r with position := position } :: numbered (position + 1) rest

/-- Applies writes as one transaction: the rows affected, the records logged, and the database after
it.  Writes that change nothing take no transaction id. -/
def commit (db : Database) (queries : List Query) :
    Except DatabaseError (List Row × List ChangeRecord × Database) := do
  let applied ← applyAll db.schema (db.lastTxid + 1) queries db.tables
  if applied.records.isEmpty then return (applied.affected, [], db)
  let records := numbered db.nextPosition applied.records
  return (applied.affected, records, { db with
    tables := applied.tables
    lastTxid := db.lastTxid + 1
    nextPosition := db.nextPosition + records.length
    log := db.log ++ records })

/-- The rows of a table as queries see them. -/
def visibleRows (tables : Tables) (table : String) : List Row :=
  (tables.getD table []).map StoredRow.visible

/-- The tables with pending writes applied on top. -/
def overlay (db : Database) (pending : List Query) : Except DatabaseError Tables :=
  (applyAll db.schema (db.lastTxid + 1) pending db.tables).map Applied.tables

/-- The rows a select chooses, in its order, before projection. -/
def chosenRows (rows : List Row) (s : Select) : List Row :=
  let matching := rows.filter s.filter.accepts
  let sorted := if s.orderBy.isEmpty then matching else
    sortStable (fun a b => Json.compareTuples (a.tuple s.orderBy) (b.tuple s.orderBy) != .gt) matching
  let following := match s.after with
    | some cursor => sorted.filter fun row => Json.compareTuples (row.tuple s.orderBy) cursor == .gt
    | none => sorted
  match s.limit with
  | some n => following.take n
  | none => following

/-- A row with the given columns only. -/
def project (columns : List String) (row : Row) : Row :=
  Keyed.ofEntries (columns.map fun c => (c, row.value c))

/-- Evaluates a select on the committed tables with pending writes applied on top. -/
def select (db : Database) (s : Select) (pending : List Query) : Except DatabaseError (List Row) := do
  let some t := db.schema.table? s.table | throw (.noRelation s.table)
  let tables ← db.overlay pending
  let columns := if s.columns.isEmpty then t.columnNames else s.columns
  if let some column := columns.find? (!t.isSelectable ·) then throw (.noColumn column t.name)
  return (chosenRows (visibleRows tables s.table) s).map (project columns)

/-- The committed rows of a table in insertion order, without system columns. -/
def rows (db : Database) (table : String) : List Row :=
  (db.tables.getD table []).map StoredRow.values

/-- Opens a slot; a new one starts at the end of the log. -/
def openSlot (db : Database) (name : String) : Database :=
  if db.slots.contains name then db
  else { db with slots := db.slots.put name ⟨db.nextPosition, db.lastTxid⟩ }

/-- The log entries that a slot still has. -/
def Slot.retained (slot : Slot) (log : List ChangeRecord) : List ChangeRecord :=
  log.filter fun r => r.position ≥ slot.start && r.txid > slot.reclaimedUpTo

/-- How many log entries a slot still has. -/
def retainedChanges (db : Database) (slot : String) : Nat :=
  match db.slots.get? slot with
  | some s => (Slot.retained s db.log).length
  | none => 0

/-- At most `most` entries of a window that a slot has, after the first `offset`. -/
def pull (db : Database) (slot : String) (window : TxWindow) (most offset : Nat) :
    Except DatabaseError (List ChangeRecord) :=
  match db.slots.get? slot with
  | none => .error (.noSlot slot)
  | some s =>
    .ok ((((Slot.retained s db.log).filter fun r => window.contains r.txid).drop offset).take most)

/-- Releases the log up to a transaction; never takes a release back. -/
def reclaim (db : Database) (slot : String) (upTo : Nat) : Except DatabaseError Database :=
  match db.slots.get? slot with
  | none => .error (.noSlot slot)
  | some s =>
    .ok { db with slots := db.slots.put slot { s with reclaimedUpTo := max s.reclaimedUpTo upTo } }

end Database

end DocSync
