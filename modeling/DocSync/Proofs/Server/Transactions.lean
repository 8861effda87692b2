import DocSync.Proofs.Conversation
import DocSync.Text.Split

/-!
A session on a server that accepts every statement.  The server keeps a transaction with its savepoints
as a stack, and reads what to do with it from the texts it is sent.  The open scopes of a session are
that stack, with the scopes that were abandoned and not rolled back yet on top.  Each call of the session
has one lemma that tells what becomes of the scopes below them.
-/

namespace DocSync

/-! ### Commands -/

/-- What a statement asks of the stack of savepoints. -/
inductive ScopeCommand where
  | begin
  | commit
  | rollback
  | savepoint (name : List Char)
  | release (name : List Char)
  | rollbackTo (name : List Char)
  /-- Any other statement. -/
  | statement (text : String)

namespace ScopeCommand

open Text (after? after?_append)

/-- The commands of a text: one, or two where a savepoint is rolled back and released. -/
def read (text : String) : List ScopeCommand :=
  if text = "BEGIN ISOLATION LEVEL REPEATABLE READ" then [begin]
  else if text = "COMMIT" then [commit]
  else if text = "ROLLBACK" then [rollback]
  else
    match after? "SAVEPOINT ".toList text.toList, after? "RELEASE SAVEPOINT ".toList text.toList,
      after? "ROLLBACK TO SAVEPOINT ".toList text.toList with
    | some name, _, _ => [savepoint name]
    | _, some name, _ => [release name]
    | _, _, some rest =>
      let name := rest.takeWhile (· ≠ ';')
      match after? "; RELEASE SAVEPOINT ".toList (rest.drop name.length) with
      | some other => [rollbackTo name, release other]
      | none => [rollbackTo name]
    | none, none, none => [statement text]

theorem read_savepoint (name : String) : read ("SAVEPOINT " ++ name) = [savepoint name.toList] := by
  have hbegin : "SAVEPOINT " ++ name ≠ "BEGIN ISOLATION LEVEL REPEATABLE READ" :=
    mt (congrArg String.toList) (by simp)
  have hcommit : "SAVEPOINT " ++ name ≠ "COMMIT" := mt (congrArg String.toList) (by simp)
  have hrollback : "SAVEPOINT " ++ name ≠ "ROLLBACK" := mt (congrArg String.toList) (by simp)
  rw [read, if_neg hbegin, if_neg hcommit, if_neg hrollback]
  simp [after?]

theorem read_release (name : String) :
    read ("RELEASE SAVEPOINT " ++ name) = [release name.toList] := by
  have hbegin : "RELEASE SAVEPOINT " ++ name ≠ "BEGIN ISOLATION LEVEL REPEATABLE READ" :=
    mt (congrArg String.toList) (by simp)
  have hcommit : "RELEASE SAVEPOINT " ++ name ≠ "COMMIT" := mt (congrArg String.toList) (by simp)
  have hrollback : "RELEASE SAVEPOINT " ++ name ≠ "ROLLBACK" := mt (congrArg String.toList) (by simp)
  rw [read, if_neg hbegin, if_neg hcommit, if_neg hrollback]
  simp [after?]

theorem read_rollbackTo {name : String} (hname : ∀ c ∈ name.toList, c ≠ ';') :
    read ("ROLLBACK TO SAVEPOINT " ++ name ++ "; RELEASE SAVEPOINT " ++ name) =
      [rollbackTo name.toList, release name.toList] := by
  generalize htext : "ROLLBACK TO SAVEPOINT " ++ name ++ "; RELEASE SAVEPOINT " ++ name = text
  -- the literals are kept out of sight of the simplifier, which would take them apart
  have happend (start between : String) : (start ++ name ++ between ++ name).toList =
      start.toList ++ (name.toList ++ (between.toList ++ name.toList)) := by simp
  have hlist : text.toList = "ROLLBACK TO SAVEPOINT ".toList ++
      (name.toList ++ ("; RELEASE SAVEPOINT ".toList ++ name.toList)) := htext ▸ happend _ _
  have hbegin : text ≠ "BEGIN ISOLATION LEVEL REPEATABLE READ" :=
    mt (congrArg String.toList) (by rw [hlist]; simp)
  have hcommit : text ≠ "COMMIT" := mt (congrArg String.toList) (by rw [hlist]; simp)
  have hrollback : text ≠ "ROLLBACK" := mt (congrArg String.toList) (by rw [hlist]; simp)
  have hwhole : (name.toList ++ ("; RELEASE SAVEPOINT ".toList ++ name.toList)).takeWhile (· ≠ ';') =
      name.toList := by
    rw [List.takeWhile_append_of_pos (by simpa using hname)]
    simp
  have hsavepoint : after? "SAVEPOINT ".toList text.toList = none := by
    rw [hlist]
    simp [after?]
  have hrelease : after? "RELEASE SAVEPOINT ".toList text.toList = none := by
    rw [hlist]
    simp [after?]
  have hrest : after? "ROLLBACK TO SAVEPOINT ".toList text.toList =
      some (name.toList ++ ("; RELEASE SAVEPOINT ".toList ++ name.toList)) := by
    rw [hlist, after?_append]
  rw [read, if_neg hbegin, if_neg hcommit, if_neg hrollback, hsavepoint, hrelease, hrest]
  dsimp only
  rw [hwhole, List.drop_left, after?_append]

/-- A statement starts with the word of its kind. -/
theorem render_start (schema : String) (query : Query) : ∃ a b rest,
    (Sql.render schema query).toList = a :: b :: rest ∧
      (a = 'S' ∧ b = 'E' ∨ a = 'I' ∨ a = 'U' ∨ a = 'D') := by
  have hword (word more : String) : ∃ rest, (word ++ more).toList = word.toList ++ rest :=
    ⟨_, String.toList_append⟩
  have hmore {word : List Char} {text : String} (more : String)
      (h : ∃ rest, text.toList = word ++ rest) : ∃ rest, (text ++ more).toList = word ++ rest := by
    obtain ⟨rest, h⟩ := h
    exact ⟨rest ++ more.toList, by rw [String.toList_append, h, List.append_assoc]⟩
  cases query with
  | select s =>
    obtain ⟨rest, hrest⟩ :=
      hmore _ (hmore _ (hmore _ (hmore _ (hmore _ (hword "SELECT " (Sql.projection s.columns))))))
    exact ⟨_, _, _, hrest, .inl ⟨rfl, rfl⟩⟩
  | insert table row =>
    obtain ⟨rest, hrest⟩ :=
      hmore _ (hmore _ (hmore _ (hmore _ (hmore _ (hword "INSERT INTO " (Sql.qualified schema table))))))
    exact ⟨_, _, _, hrest, .inr (.inl rfl)⟩
  | update table key values =>
    obtain ⟨rest, hrest⟩ :=
      hmore _ (hmore _ (hmore _ (hmore _ (hmore _ (hword "UPDATE " (Sql.qualified schema table))))))
    exact ⟨_, _, _, hrest, .inr (.inr (.inl rfl))⟩
  | delete table key =>
    obtain ⟨rest, hrest⟩ :=
      hmore _ (hmore _ (hmore _ (hword "DELETE FROM " (Sql.qualified schema table))))
    exact ⟨_, _, _, hrest, .inr (.inr (.inr rfl))⟩

theorem read_render (schema : String) (query : Query) :
    read (Sql.render schema query) = [statement (Sql.render schema query)] := by
  obtain ⟨a, b, rest, hlist, hstart⟩ := render_start schema query
  generalize Sql.render schema query = text at hlist
  have hbegin : text ≠ "BEGIN ISOLATION LEVEL REPEATABLE READ" := by
    refine mt (congrArg String.toList) ?_
    rw [hlist]
    rcases hstart with ⟨rfl, rfl⟩ | rfl | rfl | rfl <;> simp
  have hcommit : text ≠ "COMMIT" := by
    refine mt (congrArg String.toList) ?_
    rw [hlist]
    rcases hstart with ⟨rfl, rfl⟩ | rfl | rfl | rfl <;> simp
  have hrollback : text ≠ "ROLLBACK" := by
    refine mt (congrArg String.toList) ?_
    rw [hlist]
    rcases hstart with ⟨rfl, rfl⟩ | rfl | rfl | rfl <;> simp
  rw [read, if_neg hbegin, if_neg hcommit, if_neg hrollback]
  simp only [hlist]
  rcases hstart with ⟨rfl, rfl⟩ | rfl | rfl | rfl <;> simp [after?]

end ScopeCommand

/-! ### The server -/

/-- An open scope of a server: its savepoint, none for the transaction itself, and the statements that
ran in it since. -/
structure Level where
  name : Option (List Char)
  statements : List String

/-- A server that accepts every statement: the statements it committed, and its open scopes, the
innermost first. -/
structure Backend where
  committed : List String
  levels : List Level

namespace Backend

open ScopeCommand

/-- Releases a savepoint: its statements, and those of all scopes inside it, join the scope around it. -/
def released (name : List Char) (levels : List Level) : List Level :=
  match levels.dropWhile (·.name ≠ some name) with
  | level :: outer :: rest =>
    ⟨outer.name, outer.statements ++ level.statements ++
      (levels.takeWhile (·.name ≠ some name)).reverse.flatMap Level.statements⟩ :: rest
  | _ => levels

/-- Rolls back to a savepoint, which stays set. -/
def rolledBack (name : List Char) (levels : List Level) : List Level :=
  match levels.dropWhile (·.name ≠ some name) with
  | level :: rest => ⟨level.name, []⟩ :: rest
  | [] => levels

def perform (b : Backend) : ScopeCommand → Backend
  | .begin =>
    match b.levels with
    | [] => { b with levels := [⟨none, []⟩] }
    | _ => b
  | .commit => ⟨b.committed ++ b.levels.reverse.flatMap Level.statements, []⟩
  | .rollback => { b with levels := [] }
  | .savepoint name =>
    match b.levels with
    | [] => b
    | levels => { b with levels := ⟨some name, []⟩ :: levels }
  | .release name => { b with levels := released name b.levels }
  | .rollbackTo name => { b with levels := rolledBack name b.levels }
  | .statement text =>
    match b.levels with
    | [] => { b with committed := b.committed ++ [text] }
    | level :: rest => { b with levels := ⟨level.name, level.statements ++ [text]⟩ :: rest }

def run (b : Backend) (text : String) : Backend := (read text).foldl perform b

/-- How the server may answer: every statement is accepted, with any rows. -/
def Replies : (call : ServerCall) → Backend → call.Answer → Backend → Prop
  | .run asked, b, answer, b' => (∃ rows, answer = .ok rows) ∧ b' = b.run asked.text
  | .hear, b, _, b' => b' = b

/-! ### The texts of a session -/

/-- The name of the scope that was opened within `depth` others. -/
def scopeName : Nat → Option (List Char)
  | 0 => none
  | depth + 1 => some (ServerSession.savepoint (depth + 1)).toList

/-- The scopes have the names that a session gives them. -/
def Named : List Level → Prop
  | [] => True
  | level :: rest => level.name = scopeName rest.length ∧ Named rest

theorem savepoint_plain (depth : Nat) : ∀ c ∈ (ServerSession.savepoint depth).toList, c ≠ ';' := by
  intro c hc
  rw [ServerSession.savepoint, String.toList_append, List.mem_append] at hc
  rcases hc with hc | hc
  · rintro rfl
    simp at hc
  · rintro rfl
    rw [Nat.toString_eq_repr, Nat.toList_repr] at hc
    have hdigit := Nat.isDigit_of_mem_toDigits (by omega) (by omega) hc
    contradiction

variable {committed : List String} {level outer : Level} {rest : List Level}

theorem run_begin (committed : List String) (levels : List Level) :
    (Backend.mk committed levels).run (ServerSession.beginText levels.length) =
      ⟨committed, ⟨scopeName levels.length, []⟩ :: levels⟩ := by
  cases levels with
  | nil => rfl
  | cons level rest =>
    rw [run, ServerSession.beginText, if_neg (by simp), read_savepoint]
    rfl

/-- Ending the outermost scope commits its statements. -/
theorem run_commit_outermost (committed : List String) (level : Level) :
    (Backend.mk committed [level]).run (ServerSession.commitText 1) =
      ⟨committed ++ level.statements, []⟩ := by
  have hread : read (ServerSession.commitText 1) = [commit] := rfl
  simp [run, hread, perform]

/-- Ending an inner scope hands its statements to the one around it. -/
theorem run_commit (hnamed : Named (level :: outer :: rest)) :
    (Backend.mk committed (level :: outer :: rest)).run
        (ServerSession.commitText (rest.length + 2)) =
      ⟨committed, ⟨outer.name, outer.statements ++ level.statements⟩ :: rest⟩ := by
  rw [run, ServerSession.commitText, if_neg (by omega), read_release]
  simp [perform, released, hnamed.1, scopeName]

/-- Rolling back the innermost scope closes it without its statements. -/
theorem run_rollback (hnamed : Named (level :: rest)) :
    (Backend.mk committed (level :: rest)).run (ServerSession.rollbackText (rest.length + 1)) =
      ⟨committed, rest⟩ := by
  cases rest with
  | nil => rfl
  | cons outer rest =>
    rw [run, ServerSession.rollbackText, if_neg (by simp), List.length_cons, Nat.add_sub_cancel,
      read_rollbackTo (savepoint_plain _)]
    simp [perform, released, rolledBack, hnamed.1, scopeName]

theorem run_statement (schema : String) (query : Query) :
    (Backend.mk committed (level :: rest)).run (Sql.render schema query) =
      ⟨committed, ⟨level.name, level.statements ++ [Sql.render schema query]⟩ :: rest⟩ := by
  rw [run, read_render]
  rfl

end Backend

/-! ### The session -/

/-- A session with the server it is connected to. -/
abbrev Connection := ServerSession × Backend

namespace ServerSession

open Backend (Named scopeName)

/-- The conversations of work in a session. -/
def Talks {α : Type} (a : InSession α) (x : Connection) (result : Except Failure α)
    (x' : Connection) : Prop :=
  Threaded.Talks Backend.Replies a x.1 x.2 result x'.1 x'.2

variable {α : Type} {x x' : Connection}

theorem rows_talks {context text : String} {parameters : List Parameter} {b b' : Backend}
    {result : Except Failure (List ResultRow)}
    (h : (Dialogue.rows context text parameters).run.Talks Backend.Replies b result b') :
    (∃ rows, result = .ok rows) ∧ b' = b.run text := by
  obtain ⟨answer, b₁, hsend, hrest⟩ := Program.talks_bind.mp h
  obtain ⟨⟨rows, rfl⟩, rfl⟩ := Program.talks_request.mp hsend
  obtain ⟨rfl, rfl⟩ := Program.talks_done.mp hrest
  exact ⟨⟨rows, rfl⟩, rfl⟩

theorem execute_talks {context text : String} {b b' : Backend} {result : Except Failure Unit}
    (h : (Dialogue.execute context text).run.Talks Backend.Replies b result b') :
    result = .ok () ∧ b' = b.run text := by
  obtain ⟨answer, b₁, hrows, hrest⟩ := Program.talks_bind.mp h
  obtain ⟨⟨rows, rfl⟩, rfl⟩ := rows_talks hrows
  exact Program.talks_done.mp hrest

/-- Ending a scope sends its text and counts it as closed. -/
theorem close_talks {verb task : String} {text : Nat → String} {result : Except Failure Unit}
    (hdepth : x.1.depth ≠ 0) (h : Talks (close verb task text) x result x') :
    result = .ok () ∧ x' = ({ x.1 with depth := x.1.depth - 1 }, x.2.run (text x.1.depth)) := by
  rw [Talks, close, Threaded.talks_get_bind, if_neg hdepth] at h
  have hsent : Talks (talk (Dialogue.execute
      ("Failed to " ++ task ++ " transaction scope (" ++ text x.1.depth ++ ")") (text x.1.depth)))
      ({ x.1 with depth := x.1.depth - 1 }, x.2) result x' := Threaded.talks_set_bind.mp h
  obtain ⟨hexecute, hsession⟩ := talks_talk.mp hsent
  obtain ⟨rfl, hserver⟩ := execute_talks hexecute
  exact ⟨rfl, Prod.ext hsession hserver⟩

/-- The open scopes of a session below those that were abandoned and still wait to be rolled back, with
what the server has committed. -/
structure Stands (schema : String) (committed : List String) (levels : List Level)
    (x : Connection) : Prop where
  schema : x.1.schema = schema
  committed : x.2.committed = committed
  waiting : ∃ doomed, x.2.levels = doomed ++ levels ∧ doomed.length = x.1.abandoned
  named : Named x.2.levels
  depth : x.1.depth = x.2.levels.length

variable {schema : String} {committed : List String} {level outer : Level} {levels rest : List Level}

/-- Where nothing waits, the open scopes are all of the server's. -/
theorem Stands.levels_eq (h : Stands schema committed levels x) (hnone : x.1.abandoned = 0) :
    x.2 = ⟨committed, levels⟩ := by
  obtain ⟨doomed, hlevels, hlength⟩ := h.waiting
  rw [hnone, List.length_eq_zero_iff] at hlength
  rw [hlength, List.nil_append] at hlevels
  rw [← h.committed, ← hlevels]

/-- Rolling back takes the innermost scope off, be it one that waits or not. -/
theorem rollback_talks {result : Except Failure Unit}
    (h : Stands schema committed (level :: rest) x) (htalks : Talks rollback x result x') :
    result = .ok () ∧ Stands schema committed rest x' ∧ x'.1.abandoned = x.1.abandoned := by
  obtain ⟨⟨_, depth, abandoned⟩, ⟨_, stack⟩⟩ := x
  obtain ⟨rfl, rfl, ⟨doomed, hstack, rfl⟩, hnamed, hdepth⟩ := h
  dsimp only at hstack hnamed hdepth
  subst hstack hdepth
  have hopen : (doomed ++ level :: rest).length ≠ 0 := by simp
  obtain ⟨rfl, rfl⟩ := close_talks hopen htalks
  refine ⟨rfl, ?_, rfl⟩
  cases doomed with
  | nil =>
    dsimp only [List.nil_append] at hnamed ⊢
    rw [List.length_cons, Backend.run_rollback hnamed]
    exact ⟨rfl, rfl, ⟨[], rfl, rfl⟩, hnamed.2, rfl⟩
  | cons top doomed =>
    dsimp only [List.cons_append] at hnamed ⊢
    rw [List.length_cons, Backend.run_rollback hnamed]
    exact ⟨rfl, rfl, ⟨doomed ++ [level], by simp, by simp⟩, hnamed.2, rfl⟩

/-- Settling takes off every scope that waits, and nothing else. -/
theorem settle_talks {result : Except Failure Unit} (h : Stands schema committed levels x)
    (htalks : Talks settle x result x') :
    result = .ok () ∧ Stands schema committed levels x' ∧ x'.1.abandoned = 0 := by
  rw [Talks, settle, Threaded.talks_get_bind] at htalks
  obtain ⟨⟨name, depth, abandoned⟩, b⟩ := x
  obtain ⟨s', b'⟩ := x'
  dsimp only at htalks
  induction abandoned generalizing name depth b with
  | zero =>
    obtain ⟨rfl, rfl, rfl⟩ := Threaded.talks_pure.mp htalks
    exact ⟨rfl, h, rfl⟩
  | succ n ih =>
    rw [settleAll, Threaded.talks_modify_bind] at htalks
    obtain ⟨doomed, hlevels, hlength⟩ := h.waiting
    obtain ⟨doomed, last, rfl⟩ := List.eq_nil_or_concat doomed |>.resolve_left (by rintro rfl; simp at hlength)
    -- once the innermost scope is about to go, one fewer waits above the scope that was abandoned first
    have hone : Stands schema committed (last :: levels) (⟨name, depth, n⟩, b) := by
      refine ⟨h.schema, h.committed, ⟨doomed, by simpa using hlevels, ?_⟩, h.named, h.depth⟩
      simpa using hlength
    rcases Threaded.talks_bind.mp htalks with ⟨u, s₁, b₁, hrollback, hrest⟩ | ⟨e, hrollback, -⟩
    · have hrolled : Talks rollback (⟨name, depth, n⟩, b) (.ok u) (s₁, b₁) := hrollback
      obtain ⟨-, hstands, hwaiting⟩ := rollback_talks hone hrolled
      obtain ⟨name₁, depth₁, abandoned₁⟩ := s₁
      obtain rfl : abandoned₁ = n := hwaiting
      exact ih _ _ _ hstands hrest
    · have hrolled : Talks rollback (⟨name, depth, n⟩, b) (.error e) (s', b') := hrollback
      obtain ⟨hresult, -⟩ := rollback_talks hone hrolled
      contradiction

/-- A settled session goes on as one where nothing waits. -/
theorem settled_talks {a : PUnit → InSession α} {result : Except Failure α}
    (h : Stands schema committed levels x) (htalks : Talks (settle >>= a) x result x') :
    ∃ x₁, Stands schema committed levels x₁ ∧ x₁.1.abandoned = 0 ∧ Talks (a ⟨⟩) x₁ result x' := by
  rcases Threaded.talks_bind.mp htalks with ⟨u, s₁, b₁, hsettle, hrest⟩ | ⟨e, hsettle, -⟩
  · have hsettled : Talks settle x (.ok u) (s₁, b₁) := hsettle
    obtain ⟨-, hstands, hnone⟩ := settle_talks h hsettled
    exact ⟨(s₁, b₁), hstands, hnone, hrest⟩
  · obtain ⟨hresult, -⟩ := settle_talks h hsettle
    contradiction

/-- Beginning settles, and opens a scope on top. -/
theorem begin_talks {result : Except Failure Unit} (h : Stands schema committed levels x)
    (htalks : Talks begin x result x') :
    result = .ok () ∧
      Stands schema committed (⟨scopeName levels.length, []⟩ :: levels) x' ∧ x'.1.abandoned = 0 := by
  obtain ⟨x₁, hstands, hnone, hrest⟩ := settled_talks h htalks
  have hserver := hstands.levels_eq hnone
  obtain ⟨⟨name, depth, abandoned⟩, b⟩ := x₁
  obtain ⟨s', b'⟩ := x'
  obtain rfl : b = ⟨committed, levels⟩ := hserver
  obtain rfl : depth = levels.length := hstands.depth
  rw [Talks, Threaded.talks_get_bind] at hrest
  rcases Threaded.talks_bind.mp hrest with ⟨u, s₁, b₁, htalk, hdone⟩ | ⟨e, htalk, -⟩
  · have hsent : Talks _ (⟨name, levels.length, abandoned⟩, ⟨committed, levels⟩) (.ok u) (s₁, b₁) :=
      htalk
    obtain ⟨hexecute, rfl⟩ := talks_talk.mp hsent
    obtain ⟨-, rfl⟩ := execute_talks hexecute
    obtain ⟨hresult, rfl⟩ := Program.talks_done.mp hdone
    obtain ⟨rfl, rfl⟩ := Prod.mk.inj hresult
    dsimp only
    rw [Backend.run_begin]
    exact ⟨rfl, ⟨hstands.schema, rfl, ⟨[], rfl, hnone.symm⟩, ⟨rfl, hstands.named⟩, rfl⟩, hnone⟩
  · have hsent : Talks _ (⟨name, levels.length, abandoned⟩, ⟨committed, levels⟩) (.error e) (s', b') :=
      htalk
    obtain ⟨hexecute, -⟩ := talks_talk.mp hsent
    obtain ⟨hresult, -⟩ := execute_talks hexecute
    contradiction

/-- Reading the rows of a statement asks nothing. -/
theorem readRows_talks {rows : List ResultRow} {b b' : Backend} {result : Except Failure (List Row)}
    (h : (readRows rows).run.Talks Backend.Replies b result b') : b' = b := by
  unfold readRows at h
  split at h
  · exact (Program.talks_done.mp h).2
  · exact (Program.talks_done.mp h).2

/-- A statement settles, and runs in the innermost scope. -/
theorem statement_talks {query : Query} {result : Except Failure (List Row)}
    (h : Stands schema committed (level :: rest) x) (htalks : Talks (execute query) x result x') :
    Stands schema committed
      (⟨level.name, level.statements ++ [Sql.render schema query]⟩ :: rest) x' ∧
      x'.1.abandoned = 0 := by
  obtain ⟨x₁, hstands, hnone, hrest⟩ := settled_talks h htalks
  have hserver := hstands.levels_eq hnone
  have hnamed := hstands.named
  obtain ⟨⟨name, depth, abandoned⟩, b⟩ := x₁
  obtain ⟨s', b'⟩ := x'
  obtain rfl : b = ⟨committed, level :: rest⟩ := hserver
  obtain rfl : name = schema := hstands.schema
  rw [Talks, Threaded.talks_get_bind] at hrest
  have hsent : Talks (talk do readRows (← Dialogue.rows
      ("Query failed: " ++ Sql.render name query) (Sql.render name query) []))
      (⟨name, depth, abandoned⟩, ⟨committed, level :: rest⟩) result (s', b') := hrest
  obtain ⟨hdialogue, rfl⟩ := talks_talk.mp hsent
  obtain ⟨answer, b₁, hrows, hread⟩ := Program.talks_bind.mp hdialogue
  obtain ⟨⟨rows, rfl⟩, rfl⟩ := rows_talks hrows
  have hsame : b' = (Backend.mk committed (level :: rest)).run (Sql.render name query) :=
    readRows_talks hread
  rw [Backend.run_statement] at hsame
  subst hsame
  exact ⟨⟨rfl, rfl, ⟨[], rfl, hnone.symm⟩, ⟨hnamed.1, hnamed.2⟩, hstands.depth⟩, hnone⟩

/-- Committing the innermost scope hands its statements to the one around it, where nothing waits. -/
theorem commit_talks {result : Except Failure Unit}
    (h : Stands schema committed (level :: outer :: rest) x) (hnone : x.1.abandoned = 0)
    (htalks : Talks commit x result x') :
    result = .ok () ∧
      Stands schema committed (⟨outer.name, outer.statements ++ level.statements⟩ :: rest) x' ∧
      x'.1.abandoned = 0 := by
  have hserver := h.levels_eq hnone
  have hnamed := h.named
  obtain ⟨⟨name, depth, abandoned⟩, b⟩ := x
  obtain rfl : b = ⟨committed, level :: outer :: rest⟩ := hserver
  obtain rfl : depth = rest.length + 2 := h.depth
  obtain ⟨rfl, rfl⟩ := close_talks (Nat.succ_ne_zero _) htalks
  refine ⟨rfl, ?_, hnone⟩
  dsimp only
  rw [Backend.run_commit hnamed]
  exact ⟨h.schema, rfl, ⟨[], rfl, hnone.symm⟩, hnamed.2, rfl⟩

/-- Committing the outermost scope commits its statements, where nothing waits. -/
theorem commit_outermost_talks {result : Except Failure Unit}
    (h : Stands schema committed [level] x) (hnone : x.1.abandoned = 0)
    (htalks : Talks commit x result x') :
    result = .ok () ∧ Stands schema (committed ++ level.statements) [] x' ∧ x'.1.abandoned = 0 := by
  have hserver := h.levels_eq hnone
  obtain ⟨⟨name, depth, abandoned⟩, b⟩ := x
  obtain rfl : b = ⟨committed, [level]⟩ := hserver
  obtain rfl : depth = 1 := h.depth
  obtain ⟨rfl, rfl⟩ := close_talks (Nat.succ_ne_zero _) htalks
  refine ⟨rfl, ?_, hnone⟩
  dsimp only
  rw [Backend.run_commit_outermost]
  exact ⟨h.schema, rfl, ⟨[], rfl, hnone.symm⟩, trivial, rfl⟩

/-- An abandoned scope waits on top of the others. -/
theorem Stands.abandon (h : Stands schema committed (level :: rest) x) :
    Stands schema committed rest (x.1.abandon, x.2) := by
  obtain ⟨hschema, hcommitted, ⟨doomed, hlevels, hlength⟩, hnamed, hdepth⟩ := h
  refine ⟨hschema, hcommitted, ⟨doomed ++ [level], by simp [hlevels], ?_⟩, hnamed, hdepth⟩
  simp [ServerSession.abandon, hlength]

end ServerSession

end DocSync
