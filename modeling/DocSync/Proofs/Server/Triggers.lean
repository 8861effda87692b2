import DocSync.Proofs.Lists
import DocSync.Proofs.Simulation.Quiet
import DocSync.Proofs.Text.Delimited
import DocSync.Server.Triggers
import Mathlib.Logic.Function.Basic

/-!
Triggers of several jobs on one server.  The server knows a trigger by its table and its name, and reads
from the text of a statement which triggers to drop and to create.  The name of a trigger comes from its
table alone, so that a job that installs its triggers takes the tables it shares with earlier jobs away
from them.
-/

namespace DocSync

open Text (after? after?_append delimited delimited_doubled)

/-- A table of a schema. -/
@[ext]
structure TableName where
  schema : String
  table : String
deriving DecidableEq, Repr

/-! ### Commands -/

/-- What a statement asks of the triggers of a server. -/
inductive TriggerCommand where
  /-- Drops a trigger, if it exists. -/
  | drop (trigger : String) (place : TableName)
  /-- Creates a trigger that hands its function a channel. -/
  | create (trigger : String) (place : TableName) (channel : String)
deriving DecidableEq

namespace TriggerCommand

/-- Reads a text in quotes; gives what follows it, too. -/
def quoted? (mark : Char) (cs : List Char) : Option (String × List Char) := do
  let (text, rest) ← delimited mark (← after? [mark] cs)
  return (String.ofList text, rest)

def place? (cs : List Char) : Option (TableName × List Char) := do
  let (schema, cs) ← quoted? '"' cs
  let (table, cs) ← quoted? '"' (← after? ".".toList cs)
  return (⟨schema, table⟩, cs)

def drop? (cs : List Char) : Option (TriggerCommand × List Char) := do
  let (trigger, cs) ← quoted? '"' (← after? "DROP TRIGGER IF EXISTS ".toList cs)
  let (place, cs) ← place? (← after? " ON ".toList cs)
  return (drop trigger place, cs)

def create? (cs : List Char) : Option TriggerCommand := do
  let (trigger, cs) ← quoted? '"' (← after? "CREATE TRIGGER ".toList cs)
  let (place, cs) ← place? (← after? " AFTER INSERT OR UPDATE OR DELETE ON ".toList cs)
  let (_, cs) ← place? (← after? " FOR EACH ROW EXECUTE FUNCTION ".toList cs)
  let (channel, _) ← quoted? '\'' (← after? "(".toList cs)
  return create trigger place channel

/-- The commands of a text: a trigger is dropped, and one may be created after it.  Other statements
leave the triggers as they are. -/
def read (text : String) : List TriggerCommand :=
  match drop? text.toList with
  | some (first, rest) => first :: ((after? ";\n".toList rest).bind create?).toList
  | none => (create? text.toList).toList

theorem quoted?_quoted {mark : Char} (text : String) {rest : List Char}
    (hrest : rest.head? ≠ some mark) :
    quoted? mark ((Sql.quoted mark text).toList ++ rest) = some (text, rest) := by
  have hread : delimited mark (Sql.doubled mark text.toList ++ mark :: rest) = some (text.toList, rest) :=
    delimited_doubled hrest
  simp [quoted?, Sql.quoted, after?, hread]

theorem place?_qualified (schema table : String) {rest : List Char} (hrest : rest.head? ≠ some '"') :
    place? ((Sql.qualified schema table).toList ++ rest) = some (⟨schema, table⟩, rest) := by
  have hschema : quoted? '"' ((Sql.ident schema).toList ++
      (".".toList ++ ((Sql.ident table).toList ++ rest))) =
        some (schema, ".".toList ++ ((Sql.ident table).toList ++ rest)) :=
    quoted?_quoted schema (by simp)
  have htable : quoted? '"' ((Sql.ident table).toList ++ rest) = some (table, rest) :=
    quoted?_quoted table hrest
  rw [Sql.qualified, String.toList_append, String.toList_append, List.append_assoc,
    List.append_assoc, place?, hschema]
  simp only [Option.bind_eq_bind, Option.bind_some, after?_append, htable]
  rfl

theorem drop?_append (trigger schema table : String) {rest : List Char}
    (hrest : rest.head? ≠ some '"') :
    drop? ("DROP TRIGGER IF EXISTS ".toList ++ ((Sql.ident trigger).toList ++
      (" ON ".toList ++ ((Sql.qualified schema table).toList ++ rest)))) =
        some (drop trigger ⟨schema, table⟩, rest) := by
  have htrigger : quoted? '"' ((Sql.ident trigger).toList ++
      (" ON ".toList ++ ((Sql.qualified schema table).toList ++ rest))) =
        some (trigger, " ON ".toList ++ ((Sql.qualified schema table).toList ++ rest)) :=
    quoted?_quoted trigger (by simp)
  simp only [drop?, after?_append, Option.bind_eq_bind, Option.bind_some, htrigger,
    place?_qualified schema table hrest]
  rfl

theorem create?_append (trigger schema table function channel : String) {rest : List Char}
    (hrest : rest.head? ≠ some '\'') :
    create? ("CREATE TRIGGER ".toList ++ ((Sql.ident trigger).toList ++
      (" AFTER INSERT OR UPDATE OR DELETE ON ".toList ++ ((Sql.qualified schema table).toList ++
      (" FOR EACH ROW EXECUTE FUNCTION ".toList ++ ((Sql.qualified schema function).toList ++
      ("(".toList ++ ((Sql.literal channel).toList ++ rest)))))))) =
        some (create trigger ⟨schema, table⟩ channel) := by
  have htrigger (more : List Char) : quoted? '"' ((Sql.ident trigger).toList ++
      (" AFTER INSERT OR UPDATE OR DELETE ON ".toList ++ more)) =
        some (trigger, " AFTER INSERT OR UPDATE OR DELETE ON ".toList ++ more) :=
    quoted?_quoted trigger (by simp)
  have hplace (more : List Char) : place? ((Sql.qualified schema table).toList ++
      (" FOR EACH ROW EXECUTE FUNCTION ".toList ++ more)) =
        some (⟨schema, table⟩, " FOR EACH ROW EXECUTE FUNCTION ".toList ++ more) :=
    place?_qualified schema table (by simp)
  have hfunction (more : List Char) : place? ((Sql.qualified schema function).toList ++
      ("(".toList ++ more)) = some (⟨schema, function⟩, "(".toList ++ more) :=
    place?_qualified schema function (by simp)
  have hchannel : quoted? '\'' ((Sql.literal channel).toList ++ rest) = some (channel, rest) :=
    quoted?_quoted channel hrest
  simp only [create?, after?_append, Option.bind_eq_bind, Option.bind_some, htrigger, hplace,
    hfunction, hchannel]
  rfl

end TriggerCommand

namespace Triggers

open TriggerCommand (create? drop? create drop)

/-- The name of the trigger of a table. -/
def nameOf (table : String) : String := functionName ++ "_" ++ table

/-- The list of arguments of a trigger begins with its channel, and the next character is no quote. -/
theorem exists_arguments (channel : String) (primaryKey : List String) :
    ∃ rest : List Char, rest.head? ≠ some '\'' ∧
      (Sql.commaSeparated ((channel :: primaryKey).map Sql.literal)).toList ++ ")".toList =
        (Sql.literal channel).toList ++ rest := by
  cases primaryKey with
  | nil => exact ⟨")".toList, by simp, by simp [Sql.commaSeparated]⟩
  | cons column columns =>
    refine ⟨", ".toList ++
      ((Sql.commaSeparated ((column :: columns).map Sql.literal)).toList ++ ")".toList), by simp, ?_⟩
    simp [Sql.commaSeparated]

/-- The statement of a table drops its trigger and creates it anew. -/
theorem read_triggerSql (schema table channel : String) (primaryKey : List String) :
    TriggerCommand.read (triggerSql schema table channel primaryKey) =
      [drop (nameOf table) ⟨schema, table⟩, create (nameOf table) ⟨schema, table⟩ channel] := by
  obtain ⟨rest, hrest, harguments⟩ := exists_arguments channel primaryKey
  have htext : (triggerSql schema table channel primaryKey).toList =
      "DROP TRIGGER IF EXISTS ".toList ++ ((Sql.ident (nameOf table)).toList ++
      (" ON ".toList ++ ((Sql.qualified schema table).toList ++ (";\n".toList ++
      ("CREATE TRIGGER ".toList ++ ((Sql.ident (nameOf table)).toList ++
      (" AFTER INSERT OR UPDATE OR DELETE ON ".toList ++ ((Sql.qualified schema table).toList ++
      (" FOR EACH ROW EXECUTE FUNCTION ".toList ++ ((Sql.qualified schema functionName).toList ++
      ("(".toList ++ ((Sql.literal channel).toList ++ rest)))))))))))) := by
    rw [← harguments]
    delta triggerSql nameOf
    simp only [String.toList_append, List.append_assoc]
  rw [TriggerCommand.read, htext, TriggerCommand.drop?_append _ _ _ (by simp)]
  simp only [after?_append, Option.bind_some, TriggerCommand.create?_append _ _ _ _ _ hrest]
  rfl

/-- The statement of the function asks nothing of the triggers. -/
theorem read_functionSql (schema : String) :
    TriggerCommand.read (functionSql schema) = [] := by
  obtain ⟨rest, htext⟩ : ∃ rest, (functionSql schema).toList =
      "CREATE OR REPLACE FUNCTION ".toList ++ rest := by
    have hlines : declarations ++ body ++ ["$$ LANGUAGE plpgsql"] ≠ [] := by simp
    rw [functionSql, List.append_assoc, List.append_assoc, List.singleton_append,
      ← List.append_assoc, String.intercalate_cons_of_ne_nil hlines]
    simp only [String.toList_append, List.append_assoc]
    exact ⟨_, rfl⟩
  have hdrop : drop? (functionSql schema).toList = none := by
    rw [htext]
    simp [drop?, after?]
  have hcreate : create? (functionSql schema).toList = none := by
    rw [htext]
    simp [create?, after?]
  rw [TriggerCommand.read, hdrop, hcreate]
  rfl

end Triggers

/-! ### The server -/

/-- The triggers of a server: the channel that each publishes on, by its table and its own name. -/
abbrev TriggerMap := TableName × String → Option String

namespace TriggerMap

variable {triggers : TriggerMap} {schema : String}

/-- Has a trigger publish on a channel, or be gone. -/
def put (triggers : TriggerMap) (place : TableName) (trigger : String) (channel : Option String) :
    TriggerMap :=
  Function.update triggers (place, trigger) channel

/-- A trigger is dropped where it exists, and created only where none of its name does. -/
def perform (triggers : TriggerMap) : TriggerCommand → Option TriggerMap
  | .drop trigger place => some (triggers.put place trigger none)
  | .create trigger place channel =>
    if triggers (place, trigger) = none then some (triggers.put place trigger (some channel))
    else none

/-- The server refuses a statement as a whole where it refuses one of its commands. -/
def answer : (call : ServerCall) → TriggerMap → call.Answer × TriggerMap
  | .run asked, triggers =>
    match (TriggerCommand.read asked.text).foldlM perform triggers with
    | some changed => (.ok [], changed)
    | none => (.error (.refused "42710"), triggers)
  | .hear, triggers => (.ended, triggers)

/-- What a conversation gives, and the triggers that it leaves. -/
def converse {α : Type} (triggers : TriggerMap) (a : Dialogue α) :
    Option (Except Failure α) × TriggerMap :=
  a.run.run answer triggers

/-- Some trigger of the table publishes on the channel. -/
def Publishes (triggers : TriggerMap) (place : TableName) (channel : String) : Prop :=
  ∃ trigger, triggers (place, trigger) = some channel

theorem converse_bind {α β : Type} {changed : TriggerMap} {a : Dialogue β} {f : β → Dialogue α}
    {value : β} (h : triggers.converse a = (some (.ok value), changed)) :
    triggers.converse (a >>= f) = changed.converse (f value) :=
  Program.run_bind a.run _ h

theorem converse_execute {changed : TriggerMap} {text : String} (context : String)
    (h : (TriggerCommand.read text).foldlM perform triggers = some changed) :
    triggers.converse (Dialogue.execute context text) = (some (.ok ()), changed) := by
  have hanswer : answer (.run ⟨text, []⟩) triggers = (.ok [], changed) := by
    simp only [answer, h]
  have hrows : triggers.converse (Dialogue.rows context text []) = (some (.ok []), changed) :=
    Program.run_request_bind _ hanswer
  exact converse_bind hrows

/-- Conversations held in turn change the triggers in turn. -/
theorem converse_forM {α : Type} {f : α → Dialogue Unit} {change : TriggerMap → α → TriggerMap}
    (h : ∀ triggers : TriggerMap, ∀ item,
      triggers.converse (f item) = (some (.ok ()), change triggers item)) (items : List α) :
    triggers.converse (items.forM f) = (some (.ok ()), items.foldl change triggers) := by
  induction items generalizing triggers with
  | nil => rfl
  | cons first rest ih => exact (converse_bind (h triggers first)).trans ih

/-! ### Installing -/

/-- The triggers after a job installed its own on some tables. -/
def published (triggers : TriggerMap) (schema channel : String) (tables : List String) :
    TriggerMap := fun (place, trigger) =>
  if place.schema = schema ∧ place.table ∈ tables ∧ trigger = Triggers.nameOf place.table then
    some channel
  else triggers (place, trigger)

theorem published_nil (channel : String) : triggers.published schema channel [] = triggers := by
  funext key
  simp [published]

theorem published_cons (channel table : String) (tables : List String) :
    triggers.published schema channel (table :: tables) =
      (triggers.put ⟨schema, table⟩ (Triggers.nameOf table) (some channel)).published
        schema channel tables := by
  funext ⟨place, trigger⟩
  simp only [published, put, Function.update_apply, Prod.mk.injEq, TableName.ext_iff,
    List.mem_cons]
  grind

theorem converse_triggerSql (context table channel : String) (primaryKey : List String) :
    triggers.converse (Dialogue.execute context (Triggers.triggerSql schema table channel primaryKey)) =
      (some (.ok ()), triggers.put ⟨schema, table⟩ (Triggers.nameOf table) (some channel)) := by
  refine converse_execute context ?_
  rw [Triggers.read_triggerSql]
  simp [perform, put]

/-- Installing succeeds, and puts a trigger of the channel on every table of the list. -/
theorem converse_install (channel : String) (tables : List (String × List String)) :
    triggers.converse (Triggers.install schema channel tables) =
      (some (.ok ()), triggers.published schema channel (tables.map Prod.fst)) := by
  have hfunction : triggers.converse (Dialogue.execute "Failed to create notify trigger function"
      (Triggers.functionSql schema)) = (some (.ok ()), triggers) := by
    refine converse_execute _ ?_
    rw [Triggers.read_functionSql]
    rfl
  have hputs : tables.foldl (fun triggers (entry : String × List String) =>
      triggers.put ⟨schema, entry.1⟩ (Triggers.nameOf entry.1) (some channel)) triggers =
        triggers.published schema channel (tables.map Prod.fst) := by
    clear hfunction
    induction tables generalizing triggers with
    | nil => exact (published_nil channel).symm
    | cons first rest ih => rw [List.foldl_cons, ih, List.map_cons, published_cons]
  rw [← hputs]
  refine (converse_bind hfunction).trans (converse_forM (fun triggers entry => ?_) tables)
  exact converse_triggerSql _ _ _ _

end TriggerMap

/-! ### Several jobs -/

/-- What a job has triggers installed for: its channel, and tables with their primary keys. -/
structure Subscription where
  channel : String
  tables : List (String × List String)
deriving DecidableEq, Repr

namespace Subscription

def names (job : Subscription) : List String := job.tables.map Prod.fst

/-- Installs the triggers of jobs one after the other. -/
def installAll (schema : String) (jobs : List Subscription) : Dialogue Unit :=
  jobs.forM fun job => Triggers.install schema job.channel job.tables

end Subscription

namespace TriggerMap

open Subscription

variable {triggers : TriggerMap} {schema : String} {jobs : List Subscription}

/-- The triggers after jobs installed theirs. -/
def subscribed (schema : String) (jobs : List Subscription) (triggers : TriggerMap) : TriggerMap :=
  jobs.foldl (fun triggers job => triggers.published schema job.channel job.names) triggers

theorem converse_installAll :
    triggers.converse (installAll schema jobs) =
      (some (.ok ()), triggers.subscribed schema jobs) := by
  have heach (triggers : TriggerMap) (job : Subscription) :
      triggers.converse (Triggers.install schema job.channel job.tables) =
        (some (.ok ()), triggers.published schema job.channel job.names) :=
    converse_install job.channel job.tables
  rw [installAll, subscribed]
  exact converse_forM heach jobs

/-- Jobs change the triggers that have the name of their table on the tables that they list, and no
others. -/
theorem subscribed_apply_of_forall {place : TableName} {trigger : String}
    (h : ∀ job ∈ jobs, place.schema = schema → place.table ∈ job.names →
      trigger ≠ Triggers.nameOf place.table) :
    triggers.subscribed schema jobs (place, trigger) = triggers (place, trigger) := by
  induction jobs generalizing triggers with
  | nil => rfl
  | cons job rest ih =>
    obtain ⟨hjob, hrest⟩ := List.forall_mem_cons.mp h
    have hsame : triggers.published schema job.channel job.names (place, trigger) =
        triggers (place, trigger) :=
      if_neg fun ⟨hschema, htable, hname⟩ => hjob hschema htable hname
    exact (ih hrest).trans hsame

/-- The trigger of a table publishes for the last job that lists it. -/
theorem subscribed_append_cons {before after : List Subscription} {job : Subscription}
    {table : String} (htable : table ∈ job.names) (hlast : ∀ later ∈ after, table ∉ later.names) :
    triggers.subscribed schema (before ++ job :: after) (⟨schema, table⟩, Triggers.nameOf table) =
      some job.channel := by
  rw [subscribed, List.foldl_append, List.foldl_cons]
  refine (subscribed_apply_of_forall fun later hlater _ hlisted => ?_).trans ?_
  · exact absurd hlisted (hlast later hlater)
  · exact if_pos ⟨rfl, htable, rfl⟩

/-- Two jobs that share the table of books. -/
def sharingJobs : List Subscription :=
  [⟨"replicator_authors", [("author", ["id"]), ("book", ["isbn"])]⟩,
    ⟨"replicator_shelves", [("shelf", ["room", "code"]), ("book", ["isbn"])]⟩]

end TriggerMap

end DocSync
