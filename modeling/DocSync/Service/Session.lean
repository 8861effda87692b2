import DocSync.Failure
import DocSync.Program
import DocSync.Relation.Query

/-!
Relational sessions and their transaction scopes.
-/

namespace DocSync

/-- Requests to a session.  `enter` and `leave` mark that a scope is guarded: were the program dropped
between them, the session would be told to abandon the scope. -/
inductive SessionCall where
  | execute (query : Query)
  | transactionId
  | begin
  | commit
  | rollback
  | enter
  | leave

@[reducible] def SessionCall.Answer : SessionCall → Type
  | execute _ => Except Failure (List Row)
  | transactionId => Except Failure Nat
  | begin => Except Failure Unit
  | commit => Except Failure Unit
  | rollback => Except Failure Unit
  | enter => Unit
  | leave => Unit

namespace Scope

/-- Runs `body` in a transaction scope: commits when it succeeds and rolls back when it fails, where
a failure to roll back is passed over.  A scope inside another is a savepoint. -/
def transaction {Request : Type} {Answer : Request → Type} {α : Type}
    (ask : (call : SessionCall) → Program Request Answer call.Answer)
    (body : ExceptT Failure (Program Request Answer) α) :
    ExceptT Failure (Program Request Answer) α := ExceptT.mk do
  match ← ask .begin with
  | .error e => return .error e
  | .ok () =>
    ask .enter
    let finished ← match ← body.run with
      | .ok value => do
        match ← ask .commit with
        | .ok () => pure (.ok value)
        | .error e => pure (.error e)
      | .error e => do
        let _ ← ask .rollback
        pure (.error e)
    ask .leave
    return finished

/-- A step of a scoped program: a statement, a nested scope, an error of its own, or a wait that never
ends.  A step that is tried does not end its body when it fails. -/
inductive Step where
  | execute (query : Query) (tried : Bool)
  | scope (body : List Step) (tried : Bool)
  | fail (text : String) (tried : Bool)
  | hang
deriving Inhabited

def Step.tried : Step → Bool
  | execute _ tried => tried
  | scope _ tried => tried
  | fail _ tried => tried
  | hang => false

/-- What happens in a scoped program, in order. -/
inductive Event where
  | rows (rows : List Row)
  | failed (failure : Failure)
  | entered
  | left (depth : Nat)
deriving Repr, Inhabited

/-- What a scoped program asks: its session, that an event be noted (for `left` whoever answers knows
the depth), or never to go on. -/
inductive Call where
  | session (call : SessionCall)
  | rows (rows : List Row)
  | failed (failure : Failure)
  | entered
  | left
  | hang

@[reducible] def Call.Answer : Call → Type
  | session call => call.Answer
  | _ => Unit

/-- A scoped program. -/
abbrev Scoped (α : Type) := ExceptT Failure (Program Call Call.Answer) α

def ask (call : SessionCall) : Program Call Call.Answer call.Answer :=
  Program.request (Call.session call)

/-- Notes a failure, and fails with it unless it is tried. -/
def settle (tried : Bool) : Except Failure Unit → Scoped Unit
  | .ok () => return ()
  | .error e => do
    ExceptT.lift (Program.request (Call.failed e))
    if tried then return () else throw e

mutual

/-- Runs one step. -/
def runStep : Step → Scoped Unit
  | .execute query tried => do
    let result : Except Failure (List Row) ← ExceptT.lift (ask (.execute query))
    match result with
    | .ok rows => ExceptT.lift (Program.request (Call.rows rows))
    | .error e => settle tried (.error e)
  | .scope body tried => do
    ExceptT.lift (Program.request Call.entered)
    let result ← ExceptT.lift (transaction ask (runSteps body)).run
    ExceptT.lift (Program.request Call.left)
    settle tried result
  | .fail text tried => settle tried (.error (.ofText text))
  | .hang => ExceptT.lift (Program.request Call.hang)

/-- Runs steps in turn until one fails. -/
def runSteps : List Step → Scoped Unit
  | [] => return ()
  | step :: rest => do
    runStep step
    runSteps rest

end

/-- Runs a body in a scope. -/
def run (body : List Step) : Scoped Unit := transaction ask (runSteps body)

end Scope

end DocSync
