import DocSync.Server.Dialogue
import DocSync.Service.Call
import DocSync.Sink.IndexName

/-!
A document sink on a database server: every index is a table of documents by identity, created before
its first use together with an index for lookups by containment.
-/

namespace DocSync

/-- The indices whose tables are known to exist. -/
structure TableSink where
  ensured : List String
deriving DecidableEq, Repr, Inhabited

/-- Work in a sink, which keeps its state when it fails. -/
abbrev InTables (α : Type) := ExceptT SinkError (StateT TableSink Exchanging) α

namespace TableSink

def empty : TableSink := ⟨[]⟩

/-- State codes after which a statement may be tried again: a serialization failure, a deadlock, a
shutdown, and a server that starts up. -/
def transientCodes : List String := ["40001", "40P01", "57P01", "57P03"]

/-- Whether trying again may help; codes of class 08 concern the connection. -/
def isTransient : ServerFailure → Bool
  | .lost => true
  | .refused code => code.startsWith "08" || transientCodes.contains code

/-- The sink error of a failed statement about `identity`. -/
def sinkError (identity : String) (e : ServerFailure) : SinkError :=
  if isTransient e then .unavailable "" else .rejected identity "..."

/-- Runs a statement about `identity`. -/
def send (identity text : String) (parameters : List Parameter) : InTables (List ResultRow) :=
  ExceptT.mk fun s => do
    match ← Dialogue.send text parameters with
    | .ok rows => return (.ok rows, s)
    | .error e => return (.error (sinkError identity e), s)

def createTableText (index : String) : String :=
  "CREATE TABLE IF NOT EXISTS \"" ++ index ++ "\" ( id TEXT PRIMARY KEY, data JSONB NOT NULL,"
    ++ " _synced_at TIMESTAMP NOT NULL DEFAULT NOW() )"

def createLookupText (index : String) : String :=
  "CREATE INDEX IF NOT EXISTS \"idx_" ++ index ++ "_data\" ON \"" ++ index
    ++ "\" USING GIN (data jsonb_path_ops)"

/-- Creates what an index needs unless that was done; its name has to be fit for a table. -/
def ensure (index : String) : InTables Unit := do
  if (← get).ensured.contains index then return
  match IndexName.check index with
  | .error text => throw (.other (.ofText text))
  | .ok () =>
    let _ ← send index (createTableText index) []
    let _ ← send index (createLookupText index) []
    modify fun s => ⟨s.ensured ++ [index]⟩

def upsertText (index : String) : String :=
  "INSERT INTO \"" ++ index ++ "\" (id, data) VALUES ($1, $2)"
    ++ " ON CONFLICT (id) DO UPDATE SET data = EXCLUDED.data, _synced_at = NOW()"

def upsert (d : Document) : InTables Unit := do
  ensure d.index
  let _ ← send d.identity (upsertText d.index) [.text d.identity, .json (.object d.source)]

def delete (index identity : String) : InTables Unit := do
  ensure index
  let _ ← send identity ("DELETE FROM \"" ++ index ++ "\" WHERE id = $1") [.text identity]

/-- The pattern that contains every value of a key under a table of `_meta`. -/
def metaPattern (table : String) (key : List (String × Json)) : Json :=
  .object [(metaField, .object [(table, .object (Keyed.ofEntries
    (key.map fun (column, value) => (column, Json.array [value]))))])]

/-- The identities in the first column of rows. -/
def readIdentities (rows : List ResultRow) : List String := rows.filterMap (·.text? 0)

/-- The identities of the documents that list a key under a table. -/
def findByMeta (index table : String) (key : List (String × Json)) : InTables (List String) := do
  ensure index
  return readIdentities (← send index
    ("SELECT id FROM \"" ++ index ++ "\" WHERE data @> $1 ORDER BY id") [.json (metaPattern table key)])

/-- Every identity of an index. -/
def identities (index : String) : InTables (List String) := do
  ensure index
  return readIdentities (← send index ("SELECT id FROM \"" ++ index ++ "\" ORDER BY id") [])

/-- Answers a request to the sink.  Writes are visible at once, so a refresh has nothing to do. -/
def answer : (call : SinkCall) → TableSink → Exchanging (call.Answer × TableSink)
  | .upsert d => (upsert d).run.run
  | .delete index identity => (delete index identity).run.run
  | .refresh _ => fun s => return (.ok (), s)
  | .findByMeta index table key => (some <$> findByMeta index table key).run.run
  | .identities index => (some <$> identities index).run.run

end TableSink

end DocSync
