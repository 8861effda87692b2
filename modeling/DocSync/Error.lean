import DocSync.Failure
import DocSync.Node.Error

/-!
Errors of sync cycles, by what can be done about them: a structural defect is never retried, a
transport failure may pass, an application error concerns one record, a fatal one stops the job.
-/

namespace DocSync

inductive SyncError where
  | structural (defect : NodeError)
  | transport (failure : Failure)
  /-- A record whose primary-key column `column` is null. -/
  | application (table identity column : String)
  | fatal (failure : Failure)
deriving DecidableEq, Repr, Inhabited

namespace SyncError

def message : SyncError → String
  | structural defect => defect.message
  | transport failure => "transport error: " ++ failure.message
  | application table identity column =>
    "failed to apply " ++ table ++ " record " ++ identity ++ ": primary key column \"" ++ column
      ++ "\" is null"
  | fatal failure => "fatal error: " ++ failure.message

def isTransient : SyncError → Bool
  | transport _ => true
  | _ => false

end SyncError

end DocSync
