import DocSync.Change.Window
import DocSync.Log.Line
import DocSync.Server.Session
import DocSync.Service.Call

/-!
The replication slot of a database server as a change log: its lines are peeked at, which leaves them
where they are, and the slot is advanced past commits that are no longer needed.
-/

namespace DocSync

/-- A reader of slots: the tables it takes records of lie in `schema`, and `tables` describes them. -/
structure SlotReader where
  schema : String
  tables : Schema
deriving Repr, Inhabited

namespace SlotReader

/-- The output plugin that slots are created with. -/
def plugin : String := "test_decoding"

/-- Opens a slot, which is created where it does not exist. -/
def openSlot (name : String) : Dialogue String := do
  let found ← Dialogue.rowOrNone "Failed to look up replication slot"
    "SELECT 1 FROM pg_replication_slots WHERE slot_name = $1" [.text name]
  if found.isNone then
    let _ ← Dialogue.oneRow ("Failed to create replication slot " ++ name)
      "SELECT pg_create_logical_replication_slot($1, $2)::text" [.text name, .text plugin]
  return name

/-- An id that no transaction has reached yet; ids of 32 bits are widened by it. -/
def reference : Dialogue Nat := ServerSession.snapshotId "txid_snapshot_xmax"

/-- The low half of a word. -/
def lowHalf (i : Int) : Nat := (i % epochSize).toNat

/-- The statement that peeks at the change lines of a window. -/
def peekText (window : TxWindow) (most offset : Nat) : String :=
  "SELECT xid::text::bigint, data FROM pg_logical_slot_peek_changes($1, NULL, NULL)"
    ++ " WHERE data LIKE 'table %' AND " ++ window.condition "xid"
    ++ " OFFSET " ++ toString offset ++ " LIMIT " ++ toString most

/-- The record of a line, none where it lies outside the window, outside the schema, or on a table
that is not described. -/
def record? (r : SlotReader) (window : TxWindow) (reference position : Nat) (line : Int × String) :
    Except Failure (Option ChangeRecord) :=
  let txid := Txid.widen (lowHalf line.1) reference
  if window.contains txid then
    match Log.readLine line.2 with
    | .ok (.change change) =>
      .ok (if change.schema = r.schema then
        change.record? (r.tables.table? change.table) txid position else none)
    | .ok _ => .ok none
    | .error e => .error (.ofText e.message)
  else .ok none

/-- The records of lines, the first of which has the position `position`. -/
def records (r : SlotReader) (window : TxWindow) (reference : Nat) :
    Nat → List (Int × String) → Except Failure (List ChangeRecord)
  | _, [] => .ok []
  | position, line :: rest => do
    let record ← r.record? window reference position line
    return record.toList ++ (← records r window reference (position + 1) rest)

def line? (row : ResultRow) : Option (Int × String) := do
  return (← row.integer? 0, ← row.text? 1)

/-- Reads up to `most` lines of a window after the first `offset`. -/
def pull (r : SlotReader) (slot : String) (window : TxWindow) (most offset : Nat) :
    Dialogue ChangePage := do
  if window.isEmpty then return ⟨[], 0⟩
  let reference ← reference
  let context := "Failed to peek changes from slot " ++ slot
  let rows ← Dialogue.rows context (peekText window most offset) [.text slot]
  let lines ← Dialogue.expect context (rows.mapM line?)
  return ⟨← liftExcept (r.records window reference offset lines), lines.length⟩
where
  liftExcept {α : Type} (result : Except Failure α) : Dialogue α := ExceptT.mk (pure result)

/-- The statement that peeks at the commits of a slot, in commit order. -/
def commitsText : String :=
  "SELECT lsn::text, xid::text::bigint, data FROM pg_logical_slot_peek_changes($1, NULL, NULL)"
    ++ " WHERE data LIKE 'COMMIT%'"

/-- A place in the log and the low half of the id of the transaction that commits there. -/
def commit? (row : ResultRow) : Option (String × Int) := do
  return (← row.text? 0, ← row.integer? 1)

/-- The place of the last commit before the first one past `upTo`. -/
def target? (reference upTo : Nat) (commits : List (String × Int)) : Option String :=
  ((commits.takeWhile fun commit => Txid.widen (lowHalf commit.2) reference ≤ upTo).getLast?).map
    Prod.fst

/-- Releases a slot up to a transaction: it advances past the commits before the first one past it, so
that no later one is lost. -/
def reclaim (slot : String) (upTo : Nat) : Dialogue Unit := do
  let reference ← reference
  let context := "Failed to peek commits from slot " ++ slot
  let rows ← Dialogue.rows context commitsText [.text slot]
  match target? reference upTo (← Dialogue.expect context (rows.mapM commit?)) with
  | none => return
  | some place =>
    let _ ← Dialogue.oneRow ("Failed to advance slot " ++ slot ++ " to " ++ place)
      "SELECT end_lsn::text FROM pg_replication_slot_advance($1, $2::text::pg_lsn)"
      [.text slot, .text place]

/-- Answers a request to the change log. -/
def answer (r : SlotReader) : (call : SourceCall) → Exchanging call.Answer
  | .openSlot name => (openSlot name).run
  | .pull slot window most offset => (r.pull slot window most offset).run
  | .reclaim slot upTo => (reclaim slot upTo).run

end SlotReader

end DocSync
