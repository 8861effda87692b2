import DocSync.Proofs.Relation.Frames
import Mathlib.Data.List.Basic

/-!
The pending writes of a session.  While nobody else commits, whatever the session did to its scopes, the
writes that wait in them can be applied to the committed tables, and every one of them gives the rows it
gave when it was executed.  Main statement: the session reads what it would read had they been committed.
-/

namespace DocSync

namespace Database

variable {schema : Schema} {txid : Nat} {tables mid after : Tables} {queries more : List Query}
  {rows : List (List Row)}

/-- Writes are applied in turn, each with the rows that it affects. -/
inductive Yields (schema : Schema) (txid : Nat) :
    Tables → List Query → List (List Row) → Tables → Prop
  | nil (tables : Tables) : Yields schema txid tables [] [] tables
  | cons {tables after : Tables} {query : Query} {queries : List Query} {rows : List (List Row)}
      {name : String} {effect : WriteEffect} :
      effectOf schema tables query txid = .ok (name, effect) →
      Yields schema txid (tables.put name effect.rows) queries rows after →
      Yields schema txid tables (query :: queries) (effect.affected :: rows) after

theorem Yields.length (h : Yields schema txid tables queries rows after) :
    rows.length = queries.length := by
  induction h with
  | nil => rfl
  | cons _ _ ih => simp [ih]

theorem Yields.append {others : List (List Row)} (h : Yields schema txid tables queries rows mid)
    (h' : Yields schema txid mid more others after) :
    Yields schema txid tables (queries ++ more) (rows ++ others) after := by
  induction h with
  | nil => exact h'
  | cons heffect _ ih => exact .cons heffect (ih h')

/-- The first writes give the same rows without those after them. -/
theorem Yields.take (h : Yields schema txid tables (queries ++ more) rows after) :
    ∃ mid, Yields schema txid tables queries (rows.take queries.length) mid := by
  induction queries generalizing tables rows with
  | nil => exact ⟨tables, .nil tables⟩
  | cons query queries ih =>
    cases h with
    | cons heffect h =>
      obtain ⟨mid, hmid⟩ := ih h
      exact ⟨mid, .cons heffect hmid⟩

/-- Writes that can be applied in turn are applied together, and affect the rows of each of them. -/
theorem Yields.applyAll (h : Yields schema txid tables queries rows after) :
    ∃ records, applyAll schema txid queries tables = .ok ⟨after, rows.flatten, records⟩ := by
  induction h with
  | nil tables => exact ⟨[], rfl⟩
  | @cons tables after query queries rows name effect heffect _ ih =>
    obtain ⟨records, hrest⟩ := ih
    refine ⟨effect.record.toList ++ records, ?_⟩
    simp only [Database.applyAll, heffect, bind, Except.bind, hrest, List.flatten_cons, pure, Except.pure]

/-- Writes that leave no record leave every table as it was. -/
theorem Wrote.tables_eq (h : Wrote schema txid tables [] after) (name : String) :
    after.getD name [] = tables.getD name [] := by
  generalize hnone : ([] : List ChangeRecord) = records at h
  induction h with
  | nil => rfl
  | @cons tables after records written t effect _ heffect _ ih =>
    obtain ⟨hrecord, hrecords⟩ := List.append_eq_nil_iff.mp hnone.symm
    rw [ih hrecords.symm, Keyed.getD_put]
    split
    · rename_i hname
      cases heffect with
      | nothing => rw [← hname]; rfl
      | _ => simp at hrecord
    · rfl

/-- Writes that can be applied can be committed: each gives its rows, and the tables then read as the
overlay of the writes does. -/
theorem Yields.commit {db : Database}
    (h : Yields db.schema (db.lastTxid + 1) db.tables queries rows after) :
    ∃ logged db', db.commit queries = .ok (rows.flatten, logged, db') ∧ db'.schema = db.schema ∧
      ∀ name, db'.tables.getD name [] = after.getD name [] := by
  obtain ⟨records, happlied⟩ := h.applyAll
  have hwrote := applyAll_wrote happlied
  simp only [Database.commit, happlied, bind, Except.bind]
  split
  · rename_i hnone
    obtain rfl := List.isEmpty_iff.mp hnone
    exact ⟨[], db, rfl, rfl, fun name => (hwrote.tables_eq name).symm⟩
  · exact ⟨_, _, rfl, rfl, fun _ => rfl⟩

end Database

/-- A session at work on a database. -/
structure Sitting where
  frames : Frames
  database : Database
  /-- The rows that each pending write gave when it was executed, in order. -/
  given : List (List Row)

namespace Sitting

open Database (Yields)

/-- What happens while a session is at work: its own calls, and others who open slots or release the log
to them. -/
inductive Event where
  | execute (query : Query)
  | begin
  | commit
  | rollback
  | abandon
  | others (slots : Keyed Slot)

def start (db : Database) : Sitting := ⟨[], db, []⟩

/-- What is left when scopes are closed: the writes that are no longer pending were the last ones. -/
def closed (s : Sitting) (frames : Frames) (db : Database) : Sitting :=
  ⟨frames, db, s.given.take frames.pending.length⟩

/-- The answer to a call, and the session after it. -/
def call (s : Sitting) : Event → Except DatabaseError (List Row) × Sitting
  | .execute query =>
    match s.frames.execute s.database query with
    | .ok result =>
      -- a select and a write outside of every scope leave nothing pending behind
      (.ok result.rows,
        { s with given := s.given ++ [result.rows] }.closed result.frames result.database)
    | .error e => (.error e, s)
  | .begin => (.ok [], { s with frames := s.frames.begin })
  | .commit =>
    match s.frames.commit s.database with
    | (.ok (_, db), frames) => (.ok [], s.closed frames db)
    | (.error e, frames) => (.error e, s.closed frames s.database)
  | .rollback =>
    match s.frames.rollback with
    | .ok frames => (.ok [], s.closed frames s.database)
    | .error e => (.error e, s)
  | .abandon => (.ok [], s.closed s.frames.abandon s.database)
  | .others slots => (.ok [], { s with database := { s.database with slots := slots } })

/-- A session after a series of events. -/
def after (db : Database) (events : List Event) : Sitting :=
  events.foldl (fun s event => (s.call event).2) (start db)

/-- The pending writes can be applied, and give the rows they gave. -/
def Holds (s : Sitting) : Prop :=
  ∃ tables, Yields s.database.schema (s.database.lastTxid + 1) s.database.tables s.frames.pending
    s.given tables

variable {s : Sitting}

theorem holds_start (db : Database) : (start db).Holds := ⟨db.tables, .nil db.tables⟩

theorem pending_append (base : Frames) (frame : List Query) :
    Frames.pending (base ++ [frame]) = base.pending ++ frame := by
  simp [Frames.pending]

/-- Without its last scope a session still holds. -/
theorem Holds.dropLast (h : s.Holds) : (s.closed s.frames.dropLast s.database).Holds := by
  obtain ⟨tables, h⟩ := h
  rcases List.eq_nil_or_concat' s.frames with hnil | ⟨base, frame, hframes⟩
  · rw [hnil]
    exact ⟨_, .nil _⟩
  · rw [hframes, pending_append] at h
    rw [hframes, List.dropLast_concat]
    exact h.take

/-- A statement that is accepted in a scope keeps the session: a write joins the pending ones with the
rows that it gives on top of them. -/
theorem Holds.execute {base : Frames} {frame : List Query} {query : Query} {result : Frames.Result}
    (h : s.Holds) (hframes : s.frames = base ++ [frame])
    (hresult : s.frames.execute s.database query = .ok result) :
    ({ s with given := s.given ++ [result.rows] }.closed result.frames result.database).Holds := by
  obtain ⟨tables, h⟩ := h
  obtain ⟨-, hjoined, hdatabase⟩ := Frames.execute_append (hframes ▸ hresult)
  have hpending : Frames.pending result.frames =
      s.frames.pending ++ [query].filter Query.writes := by
    rw [hjoined, hframes, pending_append, pending_append, List.append_assoc]
  rw [Holds, closed, hdatabase, hpending]
  by_cases hwrites : query.writes
  · have hopen : s.frames.isEmpty = false := by simp [hframes]
    obtain ⟨records, happlied⟩ := h.applyAll
    have hoverlay : s.database.overlay s.frames.pending = .ok tables := by
      rw [Database.overlay, happlied]
      rfl
    have heffect : ∃ name effect, Database.effectOf s.database.schema tables query
        (s.database.lastTxid + 1) = .ok (name, effect) ∧ result.rows = effect.affected := by
      cases query with
      | select => simp [Query.writes] at hwrites
      | insert | update | delete =>
        simp only [Frames.execute, hopen, Bool.false_eq_true, if_false, hoverlay] at hresult
        obtain ⟨_, htables, hresult⟩ := Except.bind_eq_ok hresult
        obtain rfl := Except.ok.inj htables
        obtain ⟨⟨name, effect⟩, heffect, hresult⟩ := Except.bind_eq_ok hresult
        exact ⟨name, effect, heffect, (Except.ok.inj hresult ▸ rfl)⟩
    obtain ⟨name, effect, heffect, hrows⟩ := heffect
    rw [List.filter_cons_of_pos hwrites, List.filter_nil, hrows]
    have hjoin := h.append (.cons heffect (.nil _))
    rw [List.take_of_length_le (Nat.le_of_eq hjoin.length)]
    exact ⟨_, hjoin⟩
  · rw [List.filter_cons_of_neg hwrites, List.filter_nil, List.append_nil,
      ← h.length, List.take_left]
    exact ⟨tables, h⟩

/-- Every event keeps the session. -/
theorem Holds.call (h : s.Holds) (event : Event) : (s.call event).2.Holds := by
  have hnone (frames : Frames) (db : Database) (given : List (List Row))
      (hpending : frames.pending = []) : (closed ⟨s.frames, s.database, given⟩ frames db).Holds := by
    rw [Holds, closed, hpending]
    exact ⟨db.tables, .nil _⟩
  cases event with
  | execute query =>
    simp only [Sitting.call]
    split
    · rename_i result hresult
      rcases List.eq_nil_or_concat' s.frames with hnil | ⟨base, frame, hframes⟩
      · refine hnone _ _ _ ?_
        rw [hnil] at hresult
        rw [show result.frames = [] from ?_]
        · rfl
        · cases query with
          | select =>
            obtain ⟨_, -, hresult⟩ := Except.bind_eq_ok hresult
            exact (Except.ok.inj hresult ▸ rfl)
          | insert | update | delete =>
            simp only [Frames.execute, List.isEmpty_nil, if_true] at hresult
            obtain ⟨_, -, hresult⟩ := Except.bind_eq_ok hresult
            exact (Except.ok.inj hresult ▸ rfl)
      · exact h.execute hframes hresult
    · exact h
  | begin =>
    obtain ⟨tables, h⟩ := h
    refine ⟨tables, ?_⟩
    have hpending : Frames.pending s.frames.begin = s.frames.pending := by
      rw [Frames.begin, pending_append, List.append_nil]
    exact hpending ▸ h
  | commit =>
    rcases List.eq_nil_or_concat' s.frames with hnil | ⟨base, frame, hframes⟩
    · simp only [Sitting.call, Frames.commit, hnil, List.getLast?_nil]
      exact hnone _ _ _ rfl
    · simp only [Sitting.call, Frames.commit, hframes, List.getLast?_concat, List.dropLast_concat]
      rcases List.eq_nil_or_concat' base with rfl | ⟨outer, inner, rfl⟩
      · -- the outermost scope: nothing is pending after it, whatever the commit answers
        cases s.database.commit frame <;> exact hnone _ _ _ rfl
      · obtain ⟨tables, h⟩ := h
        have hpending : Frames.pending (Frames.mergeIntoLast (outer ++ [inner]) frame) =
            s.frames.pending := by
          rw [hframes, Frames.mergeIntoLast_append, pending_append, pending_append, pending_append,
            List.append_assoc]
        have hopen : (outer ++ [inner]).isEmpty = false := by simp
        simp only [hopen, Bool.false_eq_true, if_false]
        rw [Holds, closed, hpending, ← h.length, List.take_length]
        exact ⟨tables, h⟩
  | rollback =>
    simp only [Sitting.call, Frames.rollback]
    split
    · rename_i frames hframes
      split at hframes
      · contradiction
      · exact Except.ok.inj hframes ▸ h.dropLast
    · exact h
  | abandon => exact h.dropLast
  | others slots => exact h

theorem holds_after (db : Database) (events : List Event) : (after db events).Holds := by
  have hrun : ∀ (events : List Event) (s : Sitting), s.Holds →
      (events.foldl (fun s event => (s.call event).2) s).Holds := by
    intro events
    induction events with
    | nil => exact fun _ h => h
    | cons event rest ih => exact fun s h => ih (s.call event).2 (h.call event)
  exact hrun events (start db) (holds_start db)

/-- A select reads pending writes as it would read them committed. -/
theorem select_eq_of_commit {db db' : Database} {pending : List Query} {tables : Tables}
    (hoverlay : db.overlay pending = .ok tables) (hschema : db'.schema = db.schema)
    (htables : ∀ name, db'.tables.getD name [] = tables.getD name []) (select : Select) :
    db.select select pending = db'.select select [] := by
  have hcommitted : db'.overlay [] = .ok db'.tables := rfl
  simp only [Database.select, hoverlay, hcommitted, hschema, Database.visibleRows]
  simp only [bind, Except.bind, htables]

theorem call_select (s : Sitting) (select : Select) :
    (s.call (.execute (.select select))).1 = s.database.select select s.frames.pending := by
  simp only [Sitting.call, Frames.execute, bind, Except.bind]
  cases s.database.select select s.frames.pending <;> rfl

/-- While nobody else commits, the pending writes of a session apply to the committed tables without
error, each giving the rows it gave when it was executed; its selects read what the same selects would
read had the writes been committed at that moment; and closing the outermost scope commits them. -/
theorem pending_as_committed (db : Database) (events : List Event) :
    let s := after db events
    ∃ tables logged db',
      Yields s.database.schema (s.database.lastTxid + 1) s.database.tables s.frames.pending s.given
        tables ∧
      s.database.commit s.frames.pending = .ok (s.given.flatten, logged, db') ∧
      (∀ select, (s.call (.execute (.select select))).1 =
        ((start db').call (.execute (.select select))).1) ∧
      (s.frames.length = 1 → s.frames.commit s.database = (.ok (logged, db'), [])) := by
  intro s
  obtain ⟨tables, hyields⟩ : s.Holds := holds_after db events
  obtain ⟨logged, db', hcommit, hschema, htables⟩ := hyields.commit
  obtain ⟨records, happlied⟩ := hyields.applyAll
  have hoverlay : s.database.overlay s.frames.pending = .ok tables := by
    rw [Database.overlay, happlied]
    rfl
  refine ⟨tables, logged, db', hyields, hcommit, fun select => ?_, fun hlength => ?_⟩
  · rw [call_select, call_select]
    exact select_eq_of_commit hoverlay hschema htables select
  · obtain ⟨frame, hframes⟩ := List.length_eq_one_iff.mp hlength
    rw [hframes] at hcommit ⊢
    simp only [Frames.pending, List.flatten_singleton] at hcommit
    simp [Frames.commit, hcommit, Except.map]

end Sitting

end DocSync
