import DocSync.Proofs.Relation.Explained
import DocSync.Proofs.Simulation.Backlog
import DocSync.Simulation.Work

/-!
Users of the database of a world.  They run transactions of their own and work in sessions, and every record
of a commit goes to the buffers that are fed.  Main statement: in a world that started with empty tables, the
log explains the tables whatever users called, as long as updates keep keys, and a buffer that was fed from
the start has received the log; a call that fails changes no row.
-/

namespace DocSync

theorem Schema.name_of_ofTables {declared : List Table} {name : String} {t : Table}
    (h : (Schema.ofTables declared).table? name = some t) : t.name = name := by
  have hfold : ∀ (declared : List Table) (s : Schema),
      (∀ name t, s.table? name = some t → t.name = name) →
      ∀ name t, (declared.foldl Schema.insert s).table? name = some t → t.name = name := by
    intro declared
    induction declared with
    | nil => exact fun _ h => h
    | cons first rest ih =>
      refine fun s hs => ih (s.insert first) fun name t ht => ?_
      rw [Schema.table?, Schema.insert, Keyed.get?_put] at ht
      split at ht
      · rename_i hname
        exact Option.some.inj ht ▸ hname
      · exact hs name t ht
  exact hfold declared .empty (fun _ _ h => by contradiction) name t h

/-- A call of a user: a transaction, or a call of a session. -/
inductive UserCall where
  | apply (queries : List Query)
  | insert (table : String) (row : Json)
  | update (table : String) (key values : Json)
  | delete (table : String) (key : Json)
  | execute (session : String) (query : Query)
  | begin (session : String)
  | commit (session : String)
  | rollback (session : String)
  | abandon (session : String)

namespace UserCall

/-- The statements of a transaction, which must be about rows; none for a call of a session. -/
def statements : UserCall → Except DatabaseError (List Query)
  | apply queries => .ok queries
  | insert table row => do return [.insert table (← Database.rowOf row)]
  | update table key values => do
    let key ← Database.rowOf key
    return [.update table key (← Database.rowOf values)]
  | delete table key => do return [.delete table (← Database.rowOf key)]
  | _ => .ok []

/-- Runs a transaction; one that fails leaves the world as it was. -/
def transact (w : World) (statements : Except DatabaseError (List Query)) : Except Failure Unit × World :=
  match statements >>= w.commit with
  | .ok w => (.ok (), w)
  | .error e => (.error e.toFailure, w)

/-- The answer to a call, and the world after it. -/
def run (w : World) : UserCall → Except Failure Unit × World
  | execute session query =>
    let answer := w.onSession session (World.execute · query)
    (answer.1.map fun _ => (), answer.2)
  | begin session => w.onSession session fun s => (.ok (), (s.1, s.2.begin))
  | commit session => w.onSession session World.commitScope
  | rollback session => w.onSession session World.rollbackScope
  | abandon session => w.onSession session fun s => (.ok (), (s.1, s.2.abandon))
  | call => transact w call.statements

/-- The statements that a call commits, where it commits any. -/
def writes (w : World) : UserCall → List Query
  | execute session query => if (w.frames session).isEmpty then [query] else []
  | commit session =>
    match w.frames session with
    | [frame] => frame
    | _ => []
  | call => call.statements.toOption.getD []

/-! ### What calls do -/

/-- A call changes nothing but sessions, or it succeeds and commits its statements. -/
def Outcome {α : Type} (w : World) (queries : List Query) (answer : Except Failure α × World) : Prop :=
  (∃ sessions, answer.2 = { w with sessions := sessions }) ∨
    ∃ rows logged db sessions value, w.database.commit queries = .ok (rows, logged, db) ∧
      answer.1 = .ok value ∧ answer.2 = { { w with database := db }.feed logged with sessions := sessions }

theorem outcome_onSession {α : Type} {w : World} {session : String} {queries : List Query}
    {operation : Site → Except Failure α × Site}
    (h : World.StaysOrCommits (w, w.frames session) queries (operation (w, w.frames session))) :
    Outcome w queries (w.onSession session operation) := by
  simp only [World.onSession]
  rcases h with hsame | ⟨rows, logged, db, value, hcommit, hok, hworld⟩
  · rw [hsame]
    exact .inl ⟨_, rfl⟩
  · rw [hworld]
    exact .inr ⟨rows, logged, db, _, value, hcommit, hok, rfl⟩

theorem outcome_transact (w : World) (statements : Except DatabaseError (List Query)) :
    Outcome w (statements.toOption.getD []) (transact w statements) := by
  cases statements with
  | error e => exact .inl ⟨w.sessions, rfl⟩
  | ok queries =>
    simp only [transact, bind, Except.bind, World.commit, Except.toOption, Option.getD_some]
    cases hcommit : w.database.commit queries with
    | error e => exact .inl ⟨w.sessions, rfl⟩
    | ok result => exact .inr ⟨_, _, _, _, (), hcommit, rfl, rfl⟩

theorem outcome_run (w : World) (call : UserCall) : Outcome w (call.writes w) (call.run w) := by
  cases call with
  | apply | insert | update | delete => exact outcome_transact w _
  | execute session query =>
    have houtcome : Outcome w _ (w.onSession session (World.execute · query)) :=
      outcome_onSession (World.execute_staysOrCommits (w, w.frames session) query)
    rcases houtcome with hsame | ⟨rows, logged, db, sessions, value, hcommit, hok, hworld⟩
    · exact .inl hsame
    · exact .inr ⟨rows, logged, db, sessions, (), hcommit, congrArg (Except.map fun _ => ()) hok, hworld⟩
  | commit session => exact outcome_onSession (World.commitScope_staysOrCommits (w, w.frames session))
  | begin | abandon => exact .inl ⟨_, rfl⟩
  | rollback session =>
    simp only [run, World.onSession, World.rollbackScope]
    split <;> exact .inl ⟨_, rfl⟩

/-- A call that fails changes nothing but sessions. -/
theorem run_error {w : World} {call : UserCall} {failure : Failure} (h : (call.run w).1 = .error failure) :
    ∃ sessions, (call.run w).2 = { w with sessions := sessions } := by
  rcases outcome_run w call with hsame | ⟨_, _, _, _, _, _, hok, _⟩
  · exact hsame
  · cases hok.symm.trans h

/-! ### What buffers receive -/

variable {w : World} {name : String} {m : MemoryBuffer}

theorem store_push (other : String) (r : ChangeRecord) (h : (w.buffer name).store = .memory m) :
    ((w.push other r).buffer name).store =
      .memory { m with pending := m.pending ++ List.replicate ([other].count name) r } := by
  by_cases hname : other = name
  · subst hname
    simp only [World.push, h, World.buffer_putBuffer, if_true, MemoryBuffer.push, List.count_singleton_self,
      List.replicate_one]
  · have hother : [other].count name = 0 := by simp [hname]
    rw [hother, List.replicate_zero, List.append_nil]
    simp only [World.push]
    split <;> (rw [World.buffer_putBuffer, if_neg hname]; exact h)

theorem feeds_push (w : World) (other : String) (r : ChangeRecord) : (w.push other r).feeds = w.feeds := by
  simp only [World.push]
  split <;> rfl

/-- A record is pushed to a buffer as often as its name is among the names. -/
theorem store_pushes (names : List String) (r : ChangeRecord) (h : (w.buffer name).store = .memory m) :
    ((names.foldl (fun w other => w.push other r) w).buffer name).store =
      .memory { m with pending := m.pending ++ List.replicate (names.count name) r } := by
  induction names generalizing w m with
  | nil => simpa using h
  | cons first rest ih =>
    rw [List.foldl_cons, ih (store_push first r h), List.append_assoc, List.replicate_append_replicate,
      ← List.count_append]
    rfl

theorem feeds_feed (w : World) (records : List ChangeRecord) : (w.feed records).feeds = w.feeds :=
  World.feed_keeps (P := fun w' => w'.feeds = w.feeds)
    (fun w' other r h => (feeds_push w' other r).trans h) rfl records

/-- A buffer receives the records in order, each as often as it is fed. -/
theorem store_feed (records : List ChangeRecord) (h : (w.buffer name).store = .memory m) :
    ((w.feed records).buffer name).store = .memory
      { m with pending := m.pending ++ records.flatMap (List.replicate (w.feeds.count name)) } := by
  induction records generalizing w m with
  | nil => simpa [World.feed] using h
  | cons r rest ih =>
    refine (ih (store_pushes w.feeds r h)).trans ?_
    have hfeeds : (w.feeds.foldl (fun w other => w.push other r) w).feeds = w.feeds := feeds_feed w [r]
    rw [hfeeds, List.append_assoc]
    rfl

/-! ### Runs -/

/-- A world with empty tables, whose commits feed buffers. -/
def opened (schema : Schema) (declared : List Table) (directory sourceUrl : String) (feeds : List String) :
    World :=
  { World.empty schema (.ofTables declared) directory sourceUrl with feeds := feeds }

/-- The world after calls in turn. -/
def after (w : World) (calls : List UserCall) : World := calls.foldl (fun w call => (call.run w).2) w

/-- Every call commits statements that keep keys. -/
def KeepKeys : World → List UserCall → Prop
  | _, [] => True
  | w, call :: rest =>
    Database.KeepsKeys w.database.schema (w.database.lastTxid + 1) (call.writes w) w.database.tables ∧
      KeepKeys (call.run w).2 rest

instance decidableKeepKeys : (w : World) → (calls : List UserCall) → Decidable (KeepKeys w calls)
  | _, [] => .isTrue trivial
  | w, call :: rest =>
    have : Decidable (KeepKeys (call.run w).2 rest) := decidableKeepKeys (call.run w).2 rest
    inferInstanceAs (Decidable (Database.KeepsKeys _ _ _ _ ∧ _))

/-- A world that users called from its start on. -/
structure Attended (declared : List Table) (feeds : List String) (w : World) : Prop where
  explained : w.database.Explained
  reached : w.database.Reached
  schema : w.database.schema = .ofTables declared
  fed : w.feeds = feeds
  received : ∀ name, feeds.count name = 1 → (w.buffer name).store = .memory ⟨w.database.log, 0⟩

variable {declared : List Table} {feeds : List String}

theorem attended_opened (schema : Schema) (declared : List Table) (directory sourceUrl : String)
    (feeds : List String) : Attended declared feeds (opened schema declared directory sourceUrl feeds) :=
  ⟨Database.explained_empty _, ⟨_, .refl⟩, rfl, rfl, fun _ _ => rfl⟩

theorem Attended.names (h : Attended declared feeds w) (name : String) (t : Table)
    (ht : w.database.schema.table? name = some t) : t.name = name :=
  Schema.name_of_ofTables (h.schema ▸ ht)

theorem Attended.withSessions (h : Attended declared feeds w) (sessions : Keyed Frames) :
    Attended declared feeds { w with sessions := sessions } :=
  ⟨h.explained, h.reached, h.schema, h.fed, h.received⟩

/-- A commit of statements that keep keys leaves the log explaining the tables, and the buffers with the
log. -/
theorem Attended.commit (h : Attended declared feeds w) {queries : List Query} {rows : List Row}
    {logged : List ChangeRecord} {db : Database}
    (hkeeps : Database.KeepsKeys w.database.schema (w.database.lastTxid + 1) queries w.database.tables)
    (hcommit : w.database.commit queries = .ok (rows, logged, db)) :
    Attended declared feeds ({ w with database := db }.feed logged) := by
  have hmoves : Database.Reaches w.database db := .single (.commit hcommit)
  have hfed : ({ w with database := db }.feed logged).database = db :=
    (World.backlog_feed "" { w with database := db } logged).2
  refine ⟨?_, ?_, ?_, (feeds_feed _ logged).trans h.fed, fun name hname => ?_⟩
  · rw [hfed]
    exact h.explained.commit h.reached h.names hkeeps hcommit
  · rw [hfed]
    exact h.reached.trans hmoves
  · rw [hfed]
    exact hmoves.keepsSchema.trans h.schema
  · have hstore := store_feed (w := { w with database := db }) logged (h.received name hname)
    have hcount : List.count name { w with database := db }.feeds = 1 := h.fed ▸ hname
    have honce : logged.flatMap (List.replicate 1) = logged := List.flatMap_singleton' logged
    rw [hfed, Database.log_commit hcommit, hstore, hcount, honce]

theorem Attended.run (h : Attended declared feeds w) (call : UserCall)
    (hkeeps : Database.KeepsKeys w.database.schema (w.database.lastTxid + 1) (call.writes w)
      w.database.tables) : Attended declared feeds (call.run w).2 := by
  rcases outcome_run w call with ⟨sessions, hsame⟩ | ⟨_, _, _, sessions, _, hcommit, -, hworld⟩
  · exact hsame ▸ h.withSessions sessions
  · exact hworld ▸ (h.commit hkeeps hcommit).withSessions sessions

theorem Attended.after (h : Attended declared feeds w) {calls : List UserCall} (hkeeps : KeepKeys w calls) :
    Attended declared feeds (after w calls) := by
  induction calls generalizing w with
  | nil => exact h
  | cons call rest ih => exact ih (h.run call hkeeps.1) hkeeps.2

/-- Whatever users called in a world that started with empty tables, where no update left its key equal as
JSON but such that the old row does not match it or another row does: the log explains the tables, and a
buffer that was fed from the start has received the log.  A call that fails changes nothing but the scopes
of its session.  The condition is exact: an update that breaks it leaves a log that does not explain the
tables. -/
theorem log_explains_tables (schema : Schema) (declared : List Table) (directory sourceUrl : String)
    (feeds : List String) (calls : List UserCall)
    (hkeeps : KeepKeys (opened schema declared directory sourceUrl feeds) calls) :
    let w := after (opened schema declared directory sourceUrl feeds) calls
    w.database.Explained ∧
      (∀ name, feeds.count name = 1 → (w.buffer name).store = .memory ⟨w.database.log, 0⟩) ∧
      (∀ (call : UserCall) (failure : Failure), (call.run w).1 = .error failure →
        ∃ sessions, (call.run w).2 = { w with sessions := sessions }) ∧
      ∀ query, (run w (.apply [query])).1 = .ok () →
        ((run w (.apply [query])).2.database.Explained ↔
          query.KeepsKey w.database.schema w.database.tables) := by
  intro w
  have h : Attended declared feeds w := (attended_opened schema declared directory sourceUrl feeds).after hkeeps
  refine ⟨h.explained, h.received, fun call failure => run_error, fun query hok => ?_⟩
  cases hcommit : w.database.commit [query] with
  | error e => simp [run, transact, statements, bind, Except.bind, World.commit, hcommit, Except.map] at hok
  | ok result =>
    obtain ⟨rows, logged, db⟩ := result
    have hfed : (run w (.apply [query])).2.database = db := by
      simp only [run, transact, statements, bind, Except.bind, World.commit, hcommit, Except.map]
      exact (World.backlog_feed "" { w with database := db } logged).2
    rw [hfed]
    exact h.explained.commit_iff h.reached h.names hcommit

/-! Documents under a key that may be any JSON value. -/

def documents : List Table := [⟨"doc", [⟨"k", "jsonb"⟩, ⟨"title", "text"⟩], ["k"], []⟩]

/-- A document is written in a session, and another one that has its key fails; the document is retitled, it
moves to another key, and it goes. -/
def documentCalls : List UserCall :=
  [.begin "s", .execute "s" (.insert "doc" [("k", .string "1"), ("title", .string "x")]), .commit "s",
    .insert "doc" (.object [("k", .number (.integer 1))]),
    .update "doc" (.object [("k", .number (.integer 1))]) (.object [("title", .string "y")]),
    .update "doc" (.object [("k", .string "1")]) (.object [("k", .string "2")]),
    .delete "doc" (.object [("k", .number (.integer 2))])]

def documentWorld : World := opened .empty documents "" "" ["feed"]

theorem log_explains_documents :
    KeepKeys documentWorld documentCalls ∧
      redone "doc" [] (after documentWorld documentCalls).database.log =
        (after documentWorld documentCalls).database.rows "doc" ∧
      ((after documentWorld documentCalls).buffer "feed").store =
        .memory ⟨(after documentWorld documentCalls).database.log, 0⟩ ∧
      (after documentWorld documentCalls).database.log.length = 4 := by
  have hkeeps : KeepKeys documentWorld documentCalls := by decide +kernel
  have hlength : (after documentWorld documentCalls).database.log.length = 4 := by decide +kernel
  obtain ⟨hexplained, hreceived, -, -⟩ :=
    log_explains_tables .empty documents "" "" ["feed"] documentCalls hkeeps
  exact ⟨hkeeps, hexplained.redone "doc", hreceived "feed" (List.count_singleton_self), hlength⟩

/-- An object as a key, with its members in one order and in the other. -/
def reorderings : List UserCall :=
  let one := ("a", Json.number (.integer 1))
  let two := ("b", Json.number (.integer 2))
  [.insert "doc" (.object [("k", .object [one, two])]),
    .insert "doc" (.object [("k", .object [two, one])]),
    .update "doc" (.object [("k", .object [one, two])]) (.object [("k", .object [two, one])])]

/-- Two documents whose keys differ in the order of members are two rows, and an update gives one of them the
key of the other. -/
theorem reordered_key_clashes : ¬ (after documentWorld reorderings).database.Explained := by
  intro h
  have hdistinct := (h.apart "doc" documents[0] (by decide +kernel)).distinct
  revert hdistinct
  decide +kernel

end UserCall

end DocSync
