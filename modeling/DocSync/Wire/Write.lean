import DocSync.Job.Basic
import DocSync.Relation.Database
import DocSync.Settings.Files

/-!
JSON forms of errors, plans, rows, records, outcomes and settings.
-/

namespace DocSync.Wire

def nullable {α : Type} (f : α → Json) : Option α → Json
  | some a => f a
  | none => .null

/-! Errors: a kind, a message, and what can be done about it. -/

def errorJson (kind message : String) (more : List (String × Json)) : Json :=
  .object ([("error", .string kind), ("message", .string message)] ++ more)

def plainError (message : String) : Json := errorJson "Error" message []

def failure (f : Failure) : Json := plainError f.message

/-- A failure without its causes. -/
def outermost (f : Failure) : Json := plainError f.outermost

def databaseError (e : DatabaseError) : Json := plainError e.message

def nodeErrorKind : NodeError → String
  | .missingTable _ => "MissingTable"
  | .unknownAttribute .. => "UnknownAttribute"
  | .unknownColumn .. => "UnknownColumn"
  | .unknownTable _ => "UnknownTable"
  | .unrelated .. => "RelationshipNotFound"
  | .invalid .. => "InvalidNode"

/-- The kind of an error and its class. -/
def syncErrorKind : SyncError → String × String
  | .structural defect => (nodeErrorKind defect, "structural")
  | .transport _ => ("Transport", "transient")
  | .application .. => ("Application", "other")
  | .fatal _ => ("Fatal", "fatal")

def syncError (e : SyncError) : Json :=
  errorJson (syncErrorKind e).1 e.message [("class", .string (syncErrorKind e).2)]

def nodeError (e : NodeError) : Json := syncError (.structural e)

def sinkErrorKind : SinkError → String
  | .unavailable _ => "Unavailable"
  | .timeout _ => "Timeout"
  | .rejected .. => "Rejected"
  | .other _ => "Other"

def sinkError (e : SinkError) : Json :=
  errorJson (sinkErrorKind e) e.message [("transient", .bool e.isTransient)]

/-- The JSON form of a result. -/
def result {ε α : Type} (ok : α → Json) (error : ε → Json) : Except ε α → Json
  | .ok a => ok a
  | .error e => error e

/-! Declarations and plans. -/

def textMap (m : Keyed String) : Json := .object (m.map fun (k, v) => (k, .string v))

mutual

def node : Node → Json
  | ⟨table, columns, renames, label, children⟩ =>
    .object [("table", .string table), ("columns", .strings columns), ("rename", textMap renames),
      ("rename_empty", .bool renames.isEmpty), ("label", nullable .string label),
      ("children", .array (nodes children))]

def nodes : List Node → List Json
  | [] => []
  | n :: rest => node n :: nodes rest

end

def joinKind : JoinKind → String
  | .oneToMany => "one_to_many"
  | .manyToOne => "many_to_one"

def join (j : Join) : Json :=
  .object [("kind", .string (joinKind j.kind)), ("parent", .strings j.parent),
    ("child", .strings j.child)]

def planEntry (e : Plan.Entry) : Json :=
  let n := e.node
  .object [("table", .string n.table), ("label", nullable .string n.label),
    ("field", .string n.field), ("output", .strings n.outputColumns),
    ("output_fields", .strings (n.outputColumns.map n.fieldName)), ("renames", textMap n.renames),
    ("fetch", .strings n.fetchColumns), ("primary_key", .strings n.primaryKey),
    ("parent", nullable .ofNat e.parent), ("join", nullable join n.join),
    ("children", .array (e.children.map .ofNat)), ("depth", .ofNat e.depth)]

def foreignKey (k : ForeignKey) : Json :=
  .object [("columns", .strings k.columns), ("table", .string k.table),
    ("referenced", .strings k.referenced)]

def table (t : Table) : Json :=
  .object [("name", .string t.name),
    ("columns", .array (t.columns.map fun c => .strings [c.name, c.type])),
    ("primary_key", .strings t.primaryKey), ("foreign_keys", .array (t.foreignKeys.map foreignKey))]

/-! Rows, records and documents. -/

def rows (rows : List Row) : Json := .array (rows.map .object)

def records (records : List ChangeRecord) : Json := .array (records.map ChangeRecord.toJson)

def documents (documents : List Document) : Json := .strings (documents.map Document.text)

mutual

def tree : RowTree → Json
  | ⟨row, children⟩ => .object [("row", .object row), ("children", .array (slots children))]

def slots : List (List RowTree) → List Json
  | [] => []
  | slot :: rest => .array (trees slot) :: slots rest

def trees : List RowTree → List Json
  | [] => []
  | t :: rest => tree t :: trees rest

end

def ordering : Ordering → Json
  | .lt => .ofInt (-1)
  | .eq => .ofInt 0
  | .gt => .ofInt 1

/-! Cycles. -/

def stats (s : CycleStats) : List (String × Json) :=
  [("upserted", .ofNat s.upserted), ("unchanged", .ofNat s.unchanged), ("deleted", .ofNat s.deleted),
   ("rejected", .ofNat s.rejected), ("changes", .ofNat s.changes), ("errors", .strings s.errors),
   ("window", nullable (fun w : TxWindow => .string w.text) s.window),
   ("success", .bool s.isSuccess), ("mutations", .ofNat s.mutations)]

def outcome : WriteOutcome → Json
  | .upserted => .string "upserted"
  | .unchanged => .string "unchanged"
  | .deleted => .string "deleted"
  | .rejected reason => .object [("rejected", .string reason)]

def resolution (r : Resolution) : Json :=
  .object [("ops", .array (r.ops.map fun op =>
      .object [("identity", .string op.identity), ("key", .array op.key)])),
    ("rederive_all", .bool r.rederiveAll)]

def scopeEvent : Scope.Event → Json
  | .rows found => rows found
  | .failed e => failure e
  | .entered => .string "enter"
  | .left depth => .object [("leave", .ofNat depth)]

/-! Settings. -/

def sinkSettings : SinkSettings → Json
  | .search url apiKey timeout => .object [("kind", .string "elasticsearch"), ("url", .string url),
      ("api_key", nullable .string apiKey), ("timeout_ms", .ofNat timeout)]
  | .database url => .object [("kind", .string "jsonb"), ("url", .string url)]

def options (o : SyncOptions) : Json :=
  .object [("index", .string o.index), ("slot_name", .string o.slotName),
    ("batch_size", .ofNat o.batchSize), ("max_changes", .ofNat o.maxChanges),
    ("poll_ms", .ofNat o.pollInterval), ("retries", .ofNat o.retry.retries),
    ("delay_ms", .ofNat o.retry.delay)]

def nodeSource : NodeSource → Json
  | .file path => .object [("file", .string path)]
  | .inline declaration => .object [("inline", declaration)]

def nodeSourceError : NodeSourceError → Json
  | .defect e => nodeError e
  | .unread e => outermost e

/-- A job with the node it is for, read from a directory. -/
def job (s : Settings) (d : Directory) (database : String) (j : JobSettings) : Json :=
  .object [("index", .string j.index), ("source", nodeSource j.node),
    ("node", result node nodeSourceError (j.loadNode d)), ("slot_name", nullable .string j.slotName),
    ("channel", .string (Settings.channel j)), ("options", options (s.options j database))]

/-- Settings with the source they are used with. -/
def settings (s : Settings) (d : Directory) (given : Option String) : Json :=
  let resolved := s.resolveSource given
  let database := match resolved with
    | .ok url => Url.databaseName url
    | .error _ => Url.defaultDatabase
  .object [("source_url", nullable .string s.sourceUrl),
    ("resolved", result .string outermost resolved), ("database", .string database),
    ("schema", .string s.schema), ("sink", sinkSettings s.sink),
    ("checkpoint_path", .string s.checkpointPath), ("buffer_path", nullable .string s.bufferPath),
    ("listen", .bool s.listen), ("jobs", .array (s.jobs.map (job s d database)))]

end DocSync.Wire
