import DocSync.Change.Record
import DocSync.Relation.Sql
import DocSync.Server.Dialogue

/-!
Listening for notifications: every payload that is a change record goes to a buffer, any other is
passed over.
-/

namespace DocSync.Listener

/-- How listening ended, and the records heard before. -/
structure Report where
  ended : Except Failure Unit
  records : List ChangeRecord

/-- Adds a payload to the records, where it is one. -/
def note (records : List ChangeRecord) (payload : String) : List ChangeRecord :=
  records ++ (ChangeRecord.ofText? payload).toList

/-- Listens for at most `most` payloads until the stop signal or the end of the connection. -/
def hearOn (records : List ChangeRecord) : Nat → Exchanging Report
  | 0 => .spent
  | most + 1 => do
    match ← Program.request ServerCall.hear with
    | .stopped => return ⟨.ok (), records⟩
    | .ended => return ⟨.error (.ofText "notification connection closed"), records⟩
    | .payload text => hearOn (note records text) most

/-- Listens on a channel. -/
def run (most : Nat) (channel : String) : Exchanging Report := do
  match ← (Dialogue.execute ("Failed to LISTEN on " ++ channel) ("LISTEN " ++ Sql.ident channel)).run with
  | .error e => return ⟨.error e, []⟩
  | .ok () => hearOn [] most

end DocSync.Listener
