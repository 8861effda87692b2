/-!
Failures of a collaborator: a cause and the contexts it passed through.
-/

namespace DocSync

/-- A failure as the texts it carries: the outermost context first, the cause last. -/
structure Failure where
  outermost : String
  causes : List String
deriving DecidableEq, Repr, Inhabited

namespace Failure

def ofText (text : String) : Failure := ⟨text, []⟩

/-- Adds a context around a failure. -/
def within (context : String) (f : Failure) : Failure := ⟨context, f.outermost :: f.causes⟩

/-- The contexts and the cause on one line. -/
def message (f : Failure) : String := ": ".intercalate (f.outermost :: f.causes)

end Failure

/-- Adds a context to the failure of a result. -/
def Except.within (context : String) : Except Failure α → Except Failure α
  | .ok a => .ok a
  | .error f => .error (f.within context)

end DocSync
