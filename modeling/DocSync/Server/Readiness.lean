import DocSync.Server.Dialogue

/-!
What a role may do on the source database, and why it may be too little.
-/

namespace DocSync

structure Readiness where
  walLevel : String
  replication : Bool
  superuser : Bool
  /-- Tables that the role does not own; it cannot put triggers on them. -/
  notOwned : List String
deriving DecidableEq, Repr, Inhabited

namespace Readiness

def walProblem (r : Readiness) : List String :=
  if r.walLevel = "logical" then []
  else ["wal_level is '" ++ r.walLevel ++ "'; logical replication slots need wal_level = logical"]

def replicationProblem (r : Readiness) : List String :=
  if r.replication || r.superuser then [] else ["current role lacks the REPLICATION privilege"]

def ownershipProblem (r : Readiness) : List String :=
  if r.superuser || r.notOwned.isEmpty then []
  else
    ["current role does not own " ++ ", ".intercalate r.notOwned
      ++ "; notify triggers cannot be installed"]

/-- Why the source cannot be used, nothing when it can.  Ownership matters to triggers only. -/
def problems (r : Readiness) (withTriggers : Bool) : List String :=
  r.walProblem ++ r.replicationProblem ++ if withTriggers then r.ownershipProblem else []

/-- The statement that lists the tables which the role does not own. -/
def ownershipText : String :=
  " ".intercalate ["SELECT c.relname::text", "FROM pg_class c",
    "JOIN pg_namespace n ON n.oid = c.relnamespace", "WHERE n.nspname = $1",
    "AND c.relname = ANY($2)", "AND NOT pg_has_role(current_user, c.relowner, 'USAGE')",
    "ORDER BY c.relname"]

/-- Inspects the source for `tables` of a schema. -/
def inspect (schema : String) (tables : List String) : Dialogue Readiness := do
  let levelContext := "Failed to read wal_level"
  let level ← Dialogue.oneRow levelContext "SHOW wal_level" []
  let walLevel ← Dialogue.expect levelContext (level.text? 0)
  let roleContext := "Failed to query user privileges"
  let role ← Dialogue.oneRow roleContext
    "SELECT rolreplication, rolsuper FROM pg_roles WHERE rolname = current_user" []
  let ownerContext := "Failed to check table ownership"
  let others ← Dialogue.rows ownerContext ownershipText [.text schema, .texts tables]
  let notOwned ← Dialogue.expect ownerContext (others.mapM (·.text? 0))
  let replication ← Dialogue.expect roleContext (role.bool? 0)
  return ⟨walLevel, replication, ← Dialogue.expect roleContext (role.bool? 1), notOwned⟩

end Readiness

end DocSync
