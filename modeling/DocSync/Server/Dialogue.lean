import DocSync.Failure
import DocSync.Program
import DocSync.Server.Cell

/-!
Conversations with a database server: statements with bound values go out, rows or a refusal come back.
-/

namespace DocSync

/-- A value bound to a statement. -/
inductive Parameter where
  | text (value : String)
  | texts (values : List String)
  | json (value : Json)
deriving Repr, Inhabited

structure Statement where
  text : String
  parameters : List Parameter
deriving Repr, Inhabited

/-- Why a statement gave no rows: the server refused it with a state code, or the connection is gone. -/
inductive ServerFailure where
  | refused (code : String)
  | lost
deriving DecidableEq, Repr

/-- What a listening connection hears next: a payload, its own end, or the stop signal. -/
inductive Heard where
  | payload (text : String)
  | ended
  | stopped
deriving DecidableEq, Repr

/-- Requests over a connection. -/
inductive ServerCall where
  | run (statement : Statement)
  | hear

@[reducible] def ServerCall.Answer : ServerCall → Type
  | run _ => Except ServerFailure (List ResultRow)
  | hear => Heard

/-- A program over a connection. -/
abbrev Exchanging := Program ServerCall ServerCall.Answer

/-- A conversation that may fail. -/
abbrev Dialogue (α : Type) := ExceptT Failure Exchanging α

namespace Dialogue

/-- Runs a statement. -/
def send (text : String) (parameters : List Parameter) :
    Exchanging (Except ServerFailure (List ResultRow)) :=
  Program.request (ServerCall.run ⟨text, parameters⟩)

/-- Fails with a context where there is no value. -/
def expect {α : Type} (context : String) : Option α → Dialogue α
  | some a => return a
  | none => throw (.ofText context)

/-- The rows of a statement. -/
def rows (context text : String) (parameters : List Parameter) : Dialogue (List ResultRow) :=
  ExceptT.mk do
    match ← send text parameters with
    | .ok rows => return .ok rows
    | .error _ => return .error (.ofText context)

/-- The row of a statement that gives exactly one. -/
def oneRow (context text : String) (parameters : List Parameter) : Dialogue ResultRow := do
  match ← rows context text parameters with
  | [row] => return row
  | _ => throw (.ofText context)

/-- The row of a statement that gives at most one. -/
def rowOrNone (context text : String) (parameters : List Parameter) : Dialogue (Option ResultRow) := do
  match ← rows context text parameters with
  | [] => return none
  | [row] => return some row
  | _ => throw (.ofText context)

/-- Runs a statement for its effect. -/
def execute (context text : String) : Dialogue Unit := do
  let _ ← rows context text []

end Dialogue

end DocSync
