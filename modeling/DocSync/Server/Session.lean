import DocSync.Relation.Sql
import DocSync.Server.Dialogue
import DocSync.Service.Session

/-!
Sessions over a connection to a database server.  The outermost scope is a transaction and every scope
inside it a savepoint; scopes that were abandoned are rolled back before the next statement.
-/

namespace DocSync

/-- A session on the tables of `schema`: how many scopes are open, and how many of them were abandoned
and still wait to be rolled back. -/
structure ServerSession where
  schema : String
  depth : Nat
  abandoned : Nat
deriving DecidableEq, Repr, Inhabited

/-- Work in a session, which keeps its state when it fails. -/
abbrev InSession (α : Type) := ExceptT Failure (StateT ServerSession Exchanging) α

namespace ServerSession

def new (schema : String) : ServerSession := ⟨schema, 0, 0⟩

/-- The savepoint that was set with `depth` scopes open. -/
def savepoint (depth : Nat) : String := "replicator_sp_" ++ toString depth

/-- Opens a scope within `depth` others. -/
def beginText (depth : Nat) : String :=
  if depth = 0 then "BEGIN ISOLATION LEVEL REPEATABLE READ" else "SAVEPOINT " ++ savepoint depth

/-- Ends the innermost of `depth` scopes and keeps its effects. -/
def commitText (depth : Nat) : String :=
  if depth = 1 then "COMMIT" else "RELEASE SAVEPOINT " ++ savepoint (depth - 1)

/-- Ends the innermost of `depth` scopes and takes its effects back. -/
def rollbackText (depth : Nat) : String :=
  if depth = 1 then "ROLLBACK"
  else
    "ROLLBACK TO SAVEPOINT " ++ savepoint (depth - 1) ++ "; RELEASE SAVEPOINT " ++ savepoint (depth - 1)

/-- A conversation that leaves the session as it is. -/
def talk {α : Type} (dialogue : Dialogue α) : InSession α :=
  ExceptT.mk fun s => do return (← dialogue.run, s)

/-- Ends the innermost scope: it counts as closed whatever the server says. -/
def close (verb task : String) (text : Nat → String) : InSession Unit := do
  let s ← get
  if s.depth = 0 then throw (.ofText (verb ++ " without an open transaction"))
  set { s with depth := s.depth - 1 }
  talk (Dialogue.execute ("Failed to " ++ task ++ " transaction scope (" ++ text s.depth ++ ")")
    (text s.depth))

def commit : InSession Unit := close "commit" "commit" commitText

def rollback : InSession Unit := close "rollback" "roll back" rollbackText

/-- Rolls back so many abandoned scopes, until one cannot be. -/
def settleAll : Nat → InSession Unit
  | 0 => return
  | n + 1 => do
    modify fun s => { s with abandoned := n }
    rollback
    settleAll n

/-- Rolls back the scopes that were abandoned. -/
def settle : InSession Unit := do settleAll (← get).abandoned

def begin : InSession Unit := do
  settle
  let text := beginText (← get).depth
  talk (Dialogue.execute ("Failed to open transaction scope (" ++ text ++ ")") text)
  modify fun s => { s with depth := s.depth + 1 }

/-- Notes that the innermost scope was left without an end. -/
def abandon (s : ServerSession) : ServerSession := { s with abandoned := s.abandoned + 1 }

/-- Reads the rows of a statement. -/
def readRows (rows : List ResultRow) : Dialogue (List Row) :=
  match rows.mapM ResultRow.toRow with
  | .ok rows => return rows
  | .error column => throw (.ofText ("Failed to decode column " ++ column))

def execute (query : Query) : InSession (List Row) := do
  settle
  let text := Sql.render (← get).schema query
  talk do readRows (← Dialogue.rows ("Query failed: " ++ text) text [])

/-- A signed 64-bit word as an unsigned one. -/
def unsignedWord (i : Int) : Nat := (i % (1 <<< 64 : Nat)).toNat

/-- The context of a failure to read a snapshot. -/
def snapshotContext : String := "Failed to read transaction snapshot"

/-- A transaction id of the current snapshot by the function that gives it. -/
def snapshotId (function : String) : Dialogue Nat := do
  let row ← Dialogue.oneRow snapshotContext
    ("SELECT " ++ function ++ "(txid_current_snapshot())::text::bigint") []
  return unsignedWord (← Dialogue.expect snapshotContext (row.integer? 0))

/-- The last id below which every transaction has finished. -/
def transactionId : InSession Nat := do
  settle
  return (← talk (snapshotId "txid_snapshot_xmin")) - 1

/-- Answers a request to the session. -/
def answer : (call : SessionCall) → ServerSession → Exchanging (call.Answer × ServerSession)
  | .execute query => (execute query).run.run
  | .transactionId => transactionId.run.run
  | .begin => begin.run.run
  | .commit => commit.run.run
  | .rollback => rollback.run.run
  | .enter => fun s => return ((), s)
  | .leave => fun s => return ((), s)

/-- Runs statements in turn in one scope; gives the rows of each. -/
def executeAll (queries : List Query) :
    ExceptT Failure (Program SessionCall SessionCall.Answer) (List (List Row)) :=
  Scope.transaction (fun call => Program.request call)
    (queries.mapM fun query => ExceptT.mk (Program.request (SessionCall.execute query)))

/-- Runs a scoped program in the session. -/
def runScope {α : Type} (body : ExceptT Failure (Program SessionCall SessionCall.Answer) α) :
    InSession α :=
  ExceptT.mk fun s => Program.interpret answer body.run s

end ServerSession

end DocSync
