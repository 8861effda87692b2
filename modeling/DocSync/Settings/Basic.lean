import DocSync.Job.Basic
import DocSync.Json.Parser
import DocSync.Node.Declaration
import DocSync.Toml.Parser
import DocSync.Url.Parser

/-!
Settings: where changes come from, where documents go, and which jobs there are.
-/

namespace DocSync

/-- Where documents go. -/
inductive SinkSettings where
  | search (url : String) (apiKey : Option String) (timeout : Nat)
  | database (url : String)
deriving DecidableEq, Repr, Inhabited

/-- A node declaration, or the file that holds it. -/
inductive NodeSource where
  | file (path : String)
  | inline (declaration : Json)
deriving Repr, Inhabited

structure JobSettings where
  index : String
  node : NodeSource
  slotName : Option String
deriving Repr, Inhabited

structure Settings where
  sourceUrl : Option String
  /-- The schema of the source's tables. -/
  schema : String
  sink : SinkSettings
  checkpointPath : String
  /-- The file of the change buffer, in memory without one. -/
  bufferPath : Option String
  pollInterval : Nat
  batchSize : Nat
  maxChanges : Nat
  retry : RetryPolicy
  /-- Whether notifications of triggers are listened for. -/
  listen : Bool
  jobs : List JobSettings
deriving Repr, Inhabited

namespace Settings

/-! Reading. -/

/-- The values of named fields: members of an object, or the items of an array in order. -/
def fields? (names : List String) : Json → Option (List (Option Json))
  | .object members => some (names.map (Keyed.get? members))
  | .array items => some ((items.map some).take names.length ++
      List.replicate (names.length - items.length) none)
  | _ => none

/-- Whether every member of an object is one of those named. -/
def hasOnly (names : List String) : Json → Bool
  | .object members => members.all fun (name, _) => names.contains name
  | _ => true

/-- A text, where a value is given. -/
def text? : Option Json → Option (Option String)
  | none => some none
  | some (.string s) => some (some s)
  | some _ => none

/-- A number of at most `most`, or else `standard` where none is given. -/
def number? (most standard : Nat) : Option Json → Option Nat
  | none => some standard
  | some (.number n) => n.unsigned?.filter (· ≤ most)
  | some _ => none

def mostWord : Nat := (1 <<< 64) - 1

def flag? (standard : Bool) : Option Json → Option Bool
  | none => some standard
  | some (.bool b) => some b
  | some _ => none

/-- The sink by its kind; other members are passed over. -/
def sink? (value : Json) : Option SinkSettings := do
  let (kind, body) ← match value with
    | .object members => some ((Keyed.get? members "kind").getD .null, value)
    | .array (kind :: rest) => some (kind, .array rest)
    | _ => none
  let isArrayOver (most : Nat) : Bool :=
    match body with
    | .array items => items.length > most
    | _ => false
  match kind with
  | .string "elasticsearch" =>
    let [some (.string url), apiKey, timeout] ← fields? ["url", "api_key", "timeout_ms"] body | none
    if isArrayOver 3 then none
    return .search url (← text? apiKey) (← number? mostWord 30000 timeout)
  | .string "jsonb" =>
    let [some (.string url)] ← fields? ["url"] body | none
    if isArrayOver 1 then none
    return .database url
  | _ => none

def retry? : Option Json → Option RetryPolicy
  | none => some .standard
  | some value => do
    let [retries, delay] ← fields? ["max_retries", "initial_delay_ms"] value | none
    return ⟨← number? ((1 <<< 32) - 1) RetryPolicy.standard.retries retries,
      ← number? mostWord RetryPolicy.standard.delay delay⟩

def jobNames : List String := ["index", "node", "slot_name"]

def job? (value : Json) : Option JobSettings := do
  let [some (.string index), some node, slotName] ← fields? jobNames value | none
  if !hasOnly jobNames value then none
  let source := match node with
    | .string path => NodeSource.file path
    | other => NodeSource.inline other
  return ⟨index, source, ← text? slotName⟩

def jobs? : Option Json → Option (List JobSettings)
  | none => some []
  | some (.array items) => items.mapM job?
  | some _ => none

def names : List String :=
  ["source_url", "schema", "sink", "checkpoint_path", "buffer_path", "poll_interval_ms", "batch_size",
    "max_changes", "retry", "listen", "jobs"]

def defaultCheckpointPath : String := ".document-replicator/checkpoints.json"

/-- Settings from the members of a document, where no other members may stand. -/
def ofMembers? (members : Keyed Json) : Option Settings := do
  if !hasOnly names (.object members) then none
  let value := members.get?
  return {
    sourceUrl := ← text? (value "source_url")
    schema := (← text? (value "schema")).getD "public"
    sink := ← sink? (← value "sink")
    checkpointPath := (← text? (value "checkpoint_path")).getD defaultCheckpointPath
    bufferPath := ← text? (value "buffer_path")
    pollInterval := ← number? mostWord 1000 (value "poll_interval_ms")
    batchSize := ← number? mostWord 1000 (value "batch_size")
    maxChanges := ← number? mostWord 10000 (value "max_changes")
    retry := ← retry? (value "retry")
    listen := ← flag? true (value "listen")
    jobs := ← jobs? (value "jobs") }

/-- The first index that a job before it has. -/
def repeatedIndex? (seen : List String) : List JobSettings → Option String
  | [] => none
  | job :: rest =>
    if seen.contains job.index then some job.index else repeatedIndex? (job.index :: seen) rest

/-- There must be jobs, of different indices, and pages must not be empty. -/
def validate (s : Settings) : Except Failure Unit :=
  if s.jobs.isEmpty then .error (.ofText "At least one [[jobs]] entry is required")
  else if s.batchSize = 0 ∨ s.maxChanges = 0 then
    .error (.ofText "batch_size and max_changes must be positive")
  else
    match repeatedIndex? [] s.jobs with
    | some index => .error (.ofText ("Index '" ++ index ++ "' is configured by more than one job"))
    | none => .ok ()

/-- Reads and validates settings. -/
def ofText (text : String) : Except Failure Settings :=
  match (Toml.parse? text).bind ofMembers? with
  | none => .error ⟨"Failed to parse settings", ["..."]⟩
  | some s => (s.validate).map fun () => s

/-! Use. -/

/-- The URL of the source: the one given, or else that of the settings. -/
def resolveSource (s : Settings) (given : Option String) : Except Failure String :=
  match given, s.sourceUrl with
  | some url, _ => .ok url
  | none, some url => .ok url
  | none, none => .error (.ofText "No source database URL; set source_url or pass --source")

/-- The options of a job on a database. -/
def options (s : Settings) (job : JobSettings) (database : String) : SyncOptions where
  index := job.index
  slotName := job.slotName.getD (SlotName.ofIndex database job.index)
  batchSize := s.batchSize
  maxChanges := s.maxChanges
  pollInterval := s.pollInterval
  retry := s.retry

/-- The channel that the triggers of a job notify. -/
def channel (job : JobSettings) : String := SlotName.ofIndex "replicator" job.index

end Settings

end DocSync
