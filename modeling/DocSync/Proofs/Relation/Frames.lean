import DocSync.Proofs.Relation.History
import DocSync.Relation.Frames
import Mathlib.Data.List.Induction

/-!
Frames of pending writes.  Inside a scope a statement only adds to the innermost frame; what the outermost
scope commits is applied at once.
-/

namespace DocSync

/-- Whether a statement writes. -/
def Query.writes : Query → Bool
  | .select _ => false
  | _ => true

namespace Frames

theorem addToLast_append (base : Frames) (frame : List Query) (query : Query) :
    addToLast (base ++ [frame]) query = base ++ [frame ++ [query]] := by
  induction base with
  | nil => rfl
  | cons first base ih =>
    cases base with
    | nil => rfl
    | cons second base =>
      rw [List.cons_append] at ih ⊢
      rw [List.cons_append, addToLast, ih]
      · rfl
      · simp

theorem mergeIntoLast_append (base : Frames) (frame writes : List Query) :
    mergeIntoLast (base ++ [frame]) writes = base ++ [frame ++ writes] := by
  induction writes generalizing frame with
  | nil => simp [mergeIntoLast]
  | cons query writes ih =>
    rw [mergeIntoLast, List.foldl_cons, addToLast_append]
    change mergeIntoLast (base ++ [frame ++ [query]]) writes = _
    rw [ih, List.append_assoc]
    rfl

/-- A statement that is accepted in a scope joins its frame if it writes. -/
theorem execute_append {base : Frames} {frame : List Query} {db : Database} {query : Query}
    {result : Result} (h : execute (base ++ [frame]) db query = .ok result) :
    result.logged = [] ∧ result.frames = base ++ [frame ++ [query].filter Query.writes] ∧
      result.database = db := by
  have hopen : (base ++ [frame]).isEmpty = false := by simp
  cases query with
  | select s =>
    obtain ⟨rows, -, h⟩ := Except.bind_eq_ok h
    obtain rfl := Except.ok.inj h
    exact ⟨rfl, by simp [Query.writes], rfl⟩
  | insert | update | delete =>
    simp only [execute, hopen, Bool.false_eq_true, if_false] at h
    obtain ⟨tables, -, h⟩ := Except.bind_eq_ok h
    obtain ⟨effect, -, h⟩ := Except.bind_eq_ok h
    obtain rfl := Except.ok.inj h
    exact ⟨rfl, addToLast_append base frame _, rfl⟩

/-- Scopes that are abandoned leave the frames below them. -/
theorem repeat_abandon (base inner : Frames) :
    Nat.repeat abandon inner.length (base ++ inner) = base := by
  induction inner using List.reverseRecOn with
  | nil => simp [Nat.repeat]
  | append_singleton inner frame ih =>
    have hcomm : ∀ (n : Nat) (f : Frames), Nat.repeat abandon (n + 1) f = Nat.repeat abandon n f.abandon := by
      intro n
      induction n with
      | zero => exact fun _ => rfl
      | succ n ih => exact fun f => congrArg abandon (ih f)
    rw [List.length_append, List.length_singleton, hcomm, abandon, ← List.append_assoc, List.dropLast_concat, ih]

end Frames

namespace Database

variable {db db' : Database} {queries : List Query}

/-- Writes are applied in turn as one transaction: under the next transaction id, with the changes logged under
this id; where no row is affected nothing changes, and no id is taken. -/
def AppliedAtOnce (db : Database) (queries : List Query) (db' : Database) : Prop :=
  ∃ applied, applyAll db.schema (db.lastTxid + 1) queries db.tables = .ok applied ∧
    (applied.affected = [] → db' = db) ∧
    (applied.affected ≠ [] → ∃ logged, logged ≠ [] ∧ (∀ r ∈ logged, r.txid = db.lastTxid + 1) ∧
      db' = { db with
        tables := applied.tables
        lastTxid := db.lastTxid + 1
        nextPosition := db.nextPosition + logged.length
        log := db.log ++ logged })

theorem Effect.affected_eq_nil {t : Table} {rows : List StoredRow} {txid : Nat} {effect : WriteEffect}
    (h : Effect t rows txid effect) : effect.affected = [] ↔ effect.record = none := by
  cases h <;> simp [noEffect]

theorem applyAll_affected_eq_nil {schema : Schema} {txid : Nat} {tables : Tables} {applied : Applied}
    (h : applyAll schema txid queries tables = .ok applied) : applied.affected = [] ↔ applied.records = [] := by
  induction queries generalizing tables applied with
  | nil =>
    obtain rfl := Except.ok.inj h
    simp
  | cons query rest ih =>
    obtain ⟨⟨name, effect⟩, heffect, h⟩ := Except.bind_eq_ok h
    obtain ⟨others, hothers, h⟩ := Except.bind_eq_ok h
    obtain ⟨t, -, heffect⟩ := effectOf_effect heffect
    obtain rfl := Except.ok.inj h
    simp [heffect.affected_eq_nil, ih hothers]

theorem appliedAtOnce_of_commit {rows : List Row} {logged : List ChangeRecord}
    (h : db.commit queries = .ok (rows, logged, db')) : db.AppliedAtOnce queries db' := by
  obtain ⟨applied, happlied, h⟩ := Except.bind_eq_ok h
  have hnone := applyAll_affected_eq_nil happlied
  refine ⟨applied, happlied, ?_, ?_⟩
  · intro haffected
    have hrecords : applied.records.isEmpty = true := by simpa using hnone.mp haffected
    rw [if_pos hrecords] at h
    exact (Prod.mk.inj (Prod.mk.inj (Except.ok.inj h)).2).2.symm
  · intro haffected
    have hrecords : applied.records ≠ [] := fun hrecords => haffected (hnone.mpr hrecords)
    rw [if_neg (by simpa using hrecords)] at h
    obtain ⟨-, hlogged, hdb⟩ := by simpa using Except.ok.inj h
    refine ⟨numbered db.nextPosition applied.records, ?_, ?_, ?_⟩
    · intro hempty
      have hlength := congrArg List.length hempty
      rw [length_numbered] at hlength
      exact hrecords (List.eq_nil_of_length_eq_zero hlength)
    · intro r hr
      obtain ⟨r₀, hr₀, _, -, rfl⟩ := mem_numbered hr
      exact (applyAll_wrote happlied).records_txid r₀ hr₀
    · exact hdb.symm

end Database

end DocSync
