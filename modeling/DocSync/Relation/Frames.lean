import DocSync.Relation.Database

/-!
Sessions on a database in memory.  The writes of an open transaction wait in frames, one per scope; a
session sees its own, and the outermost commit applies them all as one transaction.
-/

namespace DocSync

/-- The pending writes of each open scope, outermost first. -/
abbrev Frames := List (List Query)

namespace Frames

def depth (f : Frames) : Nat := f.length

/-- Every pending write, in the order of execution. -/
def pending (f : Frames) : List Query := f.flatten

/-- Adds a write to the innermost scope. -/
def addToLast : Frames → Query → Frames
  | [], _ => []
  | [frame], query => [frame ++ [query]]
  | frame :: rest, query => frame :: addToLast rest query

def begin (f : Frames) : Frames := f ++ [[]]

/-- Drops the innermost scope with its writes; without a scope there is nothing to drop. -/
def abandon (f : Frames) : Frames := f.dropLast

def rollback (f : Frames) : Except DatabaseError Frames :=
  if f.isEmpty then .error (.notOpen "rollback") else .ok f.dropLast

/-- Appends writes to the innermost scope. -/
def mergeIntoLast (f : Frames) (writes : List Query) : Frames := writes.foldl addToLast f

/-- What a statement did: the rows it gave, the records it logged, the frames and the database after
it. -/
structure Result where
  rows : List Row
  logged : List ChangeRecord
  frames : Frames
  database : Database
deriving Inhabited

/-- Runs a statement.  Outside a transaction a write commits by itself; inside, it is checked on top
of all pending writes and then waits. -/
def execute (f : Frames) (db : Database) (query : Query) : Except DatabaseError Result := do
  match query with
  | .select s => return ⟨← db.select s f.pending, [], f, db⟩
  | _ =>
    if f.isEmpty then
      let (rows, logged, db) ← db.commit [query]
      return ⟨rows, logged, f, db⟩
    let txid := db.lastTxid + 1
    let tables ← db.overlay f.pending
    let (_, effect) ← Database.effectOf db.schema tables query txid
    return ⟨effect.affected, [], f.addToLast query, db⟩

/-- Closes the innermost scope: its writes go to the scope around it, or are committed when it was the
outermost.  The scope is closed also where the commit fails. -/
def commit (f : Frames) (db : Database) :
    Except DatabaseError (List ChangeRecord × Database) × Frames :=
  match f.getLast? with
  | none => (.error (.notOpen "commit"), f)
  | some frame =>
    let left := f.dropLast
    if left.isEmpty then ((db.commit frame).map fun (_, logged, db) => (logged, db), left)
    else (.ok ([], db), mergeIntoLast left frame)

end Frames

end DocSync
