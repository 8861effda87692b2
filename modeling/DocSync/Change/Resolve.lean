import DocSync.Change.Coalesce
import DocSync.Document.Fetch
import DocSync.Sink.Writer

/-!
Resolving changes to the roots they touch.  A root record names its root; any other finds its roots
through the sink's `_meta` lookups and by walking up the joins.
-/

namespace DocSync

/-- Re-derive one root: upsert its document if its row exists, delete it otherwise. -/
structure RootOp where
  identity : String
  key : List Json
deriving Repr, Inhabited

/-- The roots to re-derive, one per identity, or every one where the sink cannot look them up. -/
structure Resolution where
  ops : List RootOp
  rederiveAll : Bool
deriving Repr, Inhabited

namespace Resolution

/-- Adds an operation at the end; an earlier one of its identity gives way. -/
def push (r : Resolution) (op : RootOp) : Resolution :=
  { r with ops := r.ops.filter (·.identity ≠ op.identity) ++ [op] }

/-- Adds the operation of a root key. -/
def pushKey (r : Resolution) (key : List Json) : Resolution := r.push ⟨Identity.ofKey key, key⟩

/-- Adds what a lookup found. -/
def pushFound (r : Resolution) (columns : Nat) : Option (List String) → Resolution
  | none => { r with rederiveAll := true }
  | some identities =>
    identities.foldl (fun r identity => r.push ⟨identity, Identity.toKey identity columns⟩) r

end Resolution

namespace Resolve

def executeTransported (select : Select) : Attempt SyncError (List Row) :=
  (Session.execute (.select select)).mapError .transport

/-- The keys of the roots reached from `rows` of a node by following joins up a path to the root. -/
def climb (root : PlanNode) (node : PlanNode) (rows : List Row) :
    List PlanNode → Attempt SyncError (List (List Json))
  | [] => return rows.map (·.tuple root.primaryKey)
  | parent :: above => do
    match node.join with
    | none => return rows.map (·.tuple root.primaryKey)
    | some join =>
      let tuples := Fetch.distinctKeys (rows.map (·.tuple join.child))
      if tuples.isEmpty then return []
      let parents ← executeTransported
        ⟨parent.table, parent.fetchColumns, .among join.parent tuples, [], none, none⟩
      climb root parent parents above

/-- The changed row itself: as the record has it, or as it is now. -/
def changedRow (node : PlanNode) (r : ChangeRecord) : Attempt SyncError (Option Row) :=
  match r.values with
  | some values => return some values
  | none => do
    let rows ← executeTransported
      ⟨node.table, node.fetchColumns, .key node.primaryKey (r.key.tuple node.primaryKey), [], none,
        none⟩
    return rows.head?

/-- The keys of the roots above the changed row, for one path up to the root. -/
def walkToRoots (root : PlanNode) (path : List PlanNode) (r : ChangeRecord) :
    Attempt SyncError (List (List Json)) :=
  match path with
  | [] => return []
  | node :: above => do
    match ← changedRow node r with
    | none => return []
    | some row => climb root node [row] above

/-- Looks up the keys under which the changed row was embedded. -/
def lookUp (writer : Writer) (root node : PlanNode) : List Row → Resolution →
    Attempt SyncError Resolution
  | [], found => return found
  | key :: rest, found => do
    let identities ← writer.findByMeta node.table (node.primaryKey.map fun c => (c, key.value c))
    lookUp writer root node rest (found.pushFound root.primaryKey.length identities)

/-- Resolves a record of a nested table at each node that reads the table. -/
def resolveNested (writer : Writer) (root : PlanNode) (r : ChangeRecord) :
    List (List PlanNode) → Resolution → Attempt SyncError Resolution
  | [], found => return found
  | [] :: rest, found => resolveNested writer root r rest found
  | (node :: above) :: rest, found => do
    let found ← lookUp writer root node (r.key :: r.oldKey.toList) found
    let keys ← walkToRoots root (node :: above) r
    resolveNested writer root r rest (keys.foldl Resolution.pushKey found)

/-- A record of the root table names its root, and the one it left. -/
def resolveRoot (root : PlanNode) (r : ChangeRecord) (found : Resolution) : Resolution :=
  let left := match r.oldKey with
    | some old => if r.keyChanged then found.pushKey (old.tuple root.primaryKey) else found
    | none => found
  left.pushKey (r.key.tuple root.primaryKey)

def resolveFrom (plan : Plan) (writer : Writer) : List ChangeRecord → Resolution →
    Attempt SyncError Resolution
  | [], found => return found
  | r :: rest, found => do
    let found ←
      if r.table = plan.node.table then pure (resolveRoot plan.node r found)
      else resolveNested writer plan.node r (plan.pathsOf r.table) found
    resolveFrom plan writer rest found

end Resolve

/-- Turns coalesced records into root operations. -/
def resolve (plan : Plan) (writer : Writer) (records : List ChangeRecord) :
    Attempt SyncError Resolution :=
  Resolve.resolveFrom plan writer records ⟨[], false⟩

end DocSync
