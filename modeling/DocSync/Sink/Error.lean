import DocSync.Failure

/-!
Errors of document sinks: a sink may be out of reach, or may refuse one document for good.
-/

namespace DocSync

inductive SinkError where
  | unavailable (reason : String)
  | timeout (reason : String)
  | rejected (identity reason : String)
  | other (failure : Failure)
deriving DecidableEq, Repr, Inhabited

namespace SinkError

def message : SinkError → String
  | unavailable reason => "sink unavailable: " ++ reason
  | timeout reason => "sink request timed out: " ++ reason
  | rejected identity reason => "document " ++ identity ++ " rejected: " ++ reason
  | other failure => "sink error: " ++ failure.message

/-- Whether trying again may help. -/
def isTransient : SinkError → Bool
  | unavailable _ => true
  | timeout _ => true
  | _ => false

/-- The error as a failure; the cause of an unclassified one follows it. -/
def toFailure (e : SinkError) : Failure :=
  match e with
  | other failure => ⟨e.message, failure.outermost :: failure.causes⟩
  | _ => ⟨e.message, []⟩

end SinkError

end DocSync
