import DocSync.Proofs.Except
import DocSync.Relation.Database
import Mathlib.Logic.Relation

/-!
Histories of a database in memory.  A database moves by commits, by opening slots and by releasing
log to them.  Main statement: in every database that is reached so, a slot still has exactly the log
entries past the transaction up to which the log was released to it.
-/

namespace DocSync

namespace Database

/-! ### What writes do -/

/-- A row with changes put over it. -/
def changed (old changes : Row) : Row :=
  changes.foldl (fun row (column, value) => row.put column value) old

/-- The effects that a write may have on the rows of a table. -/
inductive Effect (t : Table) (rows : List StoredRow) (txid : Nat) : WriteEffect → Prop
  | nothing : Effect t rows txid (noEffect rows)
  | insert (values : Row) : t.checkUnique rows (t.keyOf values) = .ok () →
      Effect t rows txid ⟨[values],
        some ⟨t.name, .insert, t.keyOf values, none, some values, txid, 0⟩,
        rows ++ [⟨values, txid⟩]⟩
  | update (i : Nat) (old : StoredRow) (updated : Row) : rows[i]? = some old →
      (t.keyOf updated).same (t.keyOf old.values) →
      Effect t rows txid ⟨[updated],
        some ⟨t.name, .update, t.keyOf updated, none, some updated, txid, 0⟩,
        rows.set i ⟨updated, txid⟩⟩
  | move (i : Nat) (old : StoredRow) (updated : Row) : rows[i]? = some old →
      ¬ (t.keyOf updated).same (t.keyOf old.values) →
      t.checkUnique (rows.eraseIdx i) (t.keyOf updated) = .ok () →
      Effect t rows txid ⟨[updated],
        some ⟨t.name, .update, t.keyOf updated, some (t.keyOf old.values), some updated, txid, 0⟩,
        rows.set i ⟨updated, txid⟩⟩
  | delete (i : Nat) (old : StoredRow) : rows[i]? = some old →
      Effect t rows txid ⟨[old.values],
        some ⟨t.name, .delete, t.keyOf old.values, none, none, txid, 0⟩, rows.eraseIdx i⟩

section

variable {schema : Schema} {t : Table} {tables : Tables} {rows : List StoredRow} {txid : Nat}
  {effect : WriteEffect} {name : String}

/-- What an insert that succeeds does. -/
theorem insertRow_eq_ok {row : Row} (h : insertRow t rows row txid = .ok effect) :
    ∃ values, t.checkUnique rows (t.keyOf values) = .ok () ∧ effect = ⟨[values],
      some ⟨t.name, .insert, t.keyOf values, none, some values, txid, 0⟩, rows ++ [⟨values, txid⟩]⟩ := by
  obtain ⟨_, -, h⟩ := Except.bind_eq_ok h
  obtain ⟨_, hunique, h⟩ := Except.bind_eq_ok h
  exact ⟨_, hunique, (Except.ok.inj h).symm⟩

/-- What an update that succeeds does: nothing, or the changes of the first row that matches. -/
theorem updateRow_eq_ok {key changes : Row} (h : updateRow t rows key changes txid = .ok effect) :
    rows.findIdx? (·.values.matchesKey key) = none ∧ effect = noEffect rows ∨
    ∃ i old updated, rows.findIdx? (·.values.matchesKey key) = some i ∧
      rows[i]? = some old ∧ updated = changed old.values changes ∧
      ((t.keyOf updated).same (t.keyOf old.values) ∧
          effect = ⟨[updated], some ⟨t.name, .update, t.keyOf updated, none, some updated, txid, 0⟩,
            rows.set i ⟨updated, txid⟩⟩ ∨
        ¬ (t.keyOf updated).same (t.keyOf old.values) ∧
          t.checkUnique (rows.eraseIdx i) (t.keyOf updated) = .ok () ∧
          effect = ⟨[updated],
            some ⟨t.name, .update, t.keyOf updated, some (t.keyOf old.values), some updated, txid, 0⟩,
            rows.set i ⟨updated, txid⟩⟩) := by
  unfold updateRow at h
  obtain ⟨_, -, h⟩ := Except.bind_eq_ok h
  split at h
  · rename_i hfind
    exact .inl ⟨hfind, (Except.ok.inj h).symm⟩
  · rename_i i hfind
    obtain ⟨hi, -, -⟩ := List.findIdx?_eq_some_iff_getElem.mp hfind
    have hold : rows[i]? = some rows[i] := List.getElem?_eq_getElem hi
    refine .inr ⟨i, rows[i], _, hfind, hold, rfl, ?_⟩
    simp only [hold, Option.map_some, Option.getD_some] at h
    by_cases hsame : (t.keyOf (changed rows[i].values changes)).same (t.keyOf rows[i].values)
    · refine .inl ⟨hsame, ?_⟩
      simp only [changed] at hsame
      simp only [hsame] at h
      exact (Except.ok.inj h).symm
    · refine .inr ⟨hsame, ?_⟩
      simp only [changed] at hsame
      simp only [hsame, Bool.not_false, if_true] at h
      obtain ⟨_, hunique, h⟩ := Except.bind_eq_ok h
      exact ⟨hunique, (Except.ok.inj h).symm⟩

/-- What a delete does: nothing, or it takes the first row that matches. -/
theorem deleteRow_cases (t : Table) (rows : List StoredRow) (key : Row) (txid : Nat) :
    rows.findIdx? (·.values.matchesKey key) = none ∧ deleteRow t rows key txid = noEffect rows ∨
    ∃ i old, rows.findIdx? (·.values.matchesKey key) = some i ∧ rows[i]? = some old ∧
      deleteRow t rows key txid = ⟨[old.values],
        some ⟨t.name, .delete, t.keyOf old.values, none, none, txid, 0⟩, rows.eraseIdx i⟩ := by
  unfold deleteRow
  split
  · rename_i hfind
    exact .inl ⟨hfind, rfl⟩
  · rename_i i hfind
    obtain ⟨hi, -, -⟩ := List.findIdx?_eq_some_iff_getElem.mp hfind
    have hold : rows[i]? = some rows[i] := List.getElem?_eq_getElem hi
    exact .inr ⟨i, rows[i], hfind, hold, by simp only [hold, Option.map_some, Option.getD_some]⟩

theorem insertRow_effect {row : Row} (h : insertRow t rows row txid = .ok effect) :
    Effect t rows txid effect := by
  obtain ⟨values, hunique, rfl⟩ := insertRow_eq_ok h
  exact .insert values hunique

theorem updateRow_effect {key changes : Row} (h : updateRow t rows key changes txid = .ok effect) :
    Effect t rows txid effect := by
  rcases updateRow_eq_ok h with
    ⟨-, rfl⟩ | ⟨i, old, updated, -, hold, -, ⟨hsame, rfl⟩ | ⟨hmoved, hunique, rfl⟩⟩
  · exact .nothing
  · exact .update i old updated hold hsame
  · exact .move i old updated hold hmoved hunique

theorem deleteRow_effect (t : Table) (rows : List StoredRow) (key : Row) (txid : Nat) :
    Effect t rows txid (deleteRow t rows key txid) := by
  rcases deleteRow_cases t rows key txid with ⟨-, heffect⟩ | ⟨i, old, -, hold, heffect⟩
  · exact heffect ▸ .nothing
  · exact heffect ▸ .delete i old hold

theorem writtenTable?_eq_ok (h : writtenTable? schema name = .ok t) : schema.table? name = some t := by
  unfold writtenTable? at h
  split at h
  · rename_i found
    exact Except.ok.inj h ▸ found
  · contradiction

theorem effectOf_effect {query : Query} (h : effectOf schema tables query txid = .ok (name, effect)) :
    ∃ t, schema.table? name = some t ∧ Effect t (tables.getD name []) txid effect := by
  unfold effectOf at h
  cases query with
  | select s => contradiction
  | insert written row =>
    obtain ⟨t, ht, h⟩ := Except.bind_eq_ok h
    obtain ⟨effect', heffect, h⟩ := Except.bind_eq_ok h
    obtain ⟨rfl, rfl⟩ := Prod.mk.inj (Except.ok.inj h)
    exact ⟨t, writtenTable?_eq_ok ht, insertRow_effect heffect⟩
  | update written key values =>
    obtain ⟨t, ht, h⟩ := Except.bind_eq_ok h
    obtain ⟨effect', heffect, h⟩ := Except.bind_eq_ok h
    obtain ⟨rfl, rfl⟩ := Prod.mk.inj (Except.ok.inj h)
    exact ⟨t, writtenTable?_eq_ok ht, updateRow_effect heffect⟩
  | delete written key =>
    obtain ⟨t, ht, h⟩ := Except.bind_eq_ok h
    obtain ⟨rfl, rfl⟩ := Prod.mk.inj (Except.ok.inj h)
    exact ⟨t, writtenTable?_eq_ok ht, deleteRow_effect t _ key txid⟩

end

/-- Writes of one transaction in turn: the tables before, the records made, the tables after. -/
inductive Wrote (schema : Schema) (txid : Nat) : Tables → List ChangeRecord → Tables → Prop
  | nil (tables : Tables) : Wrote schema txid tables [] tables
  | cons {tables tables' : Tables} {records : List ChangeRecord} {name : String} {t : Table}
      {effect : WriteEffect} : schema.table? name = some t →
      Effect t (tables.getD name []) txid effect →
      Wrote schema txid (tables.put name effect.rows) records tables' →
      Wrote schema txid tables (effect.record.toList ++ records) tables'

theorem applyAll_wrote {schema : Schema} {txid : Nat} {queries : List Query} {tables : Tables}
    {applied : Applied} (h : applyAll schema txid queries tables = .ok applied) :
    Wrote schema txid tables applied.records applied.tables := by
  induction queries generalizing tables applied with
  | nil => exact Except.ok.inj h ▸ .nil tables
  | cons query rest ih =>
    obtain ⟨⟨name, effect⟩, heffect, h⟩ := Except.bind_eq_ok h
    obtain ⟨after, hafter, h⟩ := Except.bind_eq_ok h
    obtain ⟨t, ht, heffect⟩ := effectOf_effect heffect
    exact Except.ok.inj h ▸ .cons ht heffect (ih hafter)

/-- What a commit does: nothing, or the writes of the next transaction, which are logged. -/
theorem commit_cases {db db' : Database} {queries : List Query} {rows : List Row}
    {logged : List ChangeRecord} (h : db.commit queries = .ok (rows, logged, db')) :
    (logged = [] ∧ db' = db) ∨
      ∃ records tables, Wrote db.schema (db.lastTxid + 1) db.tables records tables ∧
        logged = numbered db.nextPosition records ∧
        db' = { db with
          tables := tables
          lastTxid := db.lastTxid + 1
          nextPosition := db.nextPosition + logged.length
          log := db.log ++ logged } := by
  obtain ⟨applied, happlied, h⟩ := Except.bind_eq_ok h
  split at h
  · obtain ⟨-, rfl, rfl⟩ := by simpa using Except.ok.inj h
    exact .inl ⟨rfl, rfl⟩
  · obtain ⟨-, rfl, rfl⟩ := by simpa using Except.ok.inj h
    exact .inr ⟨_, _, applyAll_wrote happlied, rfl, rfl⟩

theorem log_commit {db db' : Database} {queries : List Query} {rows : List Row}
    {logged : List ChangeRecord} (h : db.commit queries = .ok (rows, logged, db')) :
    db'.log = db.log ++ logged := by
  rcases commit_cases h with ⟨rfl, rfl⟩ | ⟨records, tables, -, -, rfl⟩
  · exact (List.append_nil _).symm
  · rfl

/-! ### The log -/

theorem length_numbered (position : Nat) (records : List ChangeRecord) :
    (numbered position records).length = records.length := by
  induction records generalizing position with
  | nil => rfl
  | cons r rest ih => simp [numbered, ih]

theorem mem_numbered {position : Nat} {records : List ChangeRecord} {r : ChangeRecord}
    (h : r ∈ numbered position records) :
    ∃ r₀ ∈ records, ∃ i < records.length, r = { r₀ with position := position + i } := by
  induction records generalizing position with
  | nil => simp [numbered] at h
  | cons first rest ih =>
    rcases List.mem_cons.mp h with rfl | h
    · exact ⟨first, by simp, 0, by simp, rfl⟩
    · obtain ⟨r₀, hr₀, i, hi, rfl⟩ := ih h
      exact ⟨r₀, by simp [hr₀], i + 1, by simpa using hi, by simp [Nat.add_assoc, Nat.add_comm 1]⟩

theorem Effect.record_txid {t : Table} {rows : List StoredRow} {txid : Nat} {effect : WriteEffect}
    {r : ChangeRecord} (h : Effect t rows txid effect) (hr : effect.record = some r) :
    r.txid = txid := by
  cases h <;> cases hr <;> rfl

theorem Wrote.records_txid {schema : Schema} {txid : Nat} {tables tables' : Tables}
    {records : List ChangeRecord} (h : Wrote schema txid tables records tables') :
    ∀ r ∈ records, r.txid = txid := by
  induction h with
  | nil => simp
  | cons _ heffect _ ih =>
    intro r hr
    rcases List.mem_append.mp hr with hr | hr
    · exact heffect.record_txid (by simpa using hr)
    · exact ih r hr

/-- What a database goes through: commits, new slots and releases of the log. -/
inductive Moves : Database → Database → Prop
  | commit {db db' : Database} {queries : List Query} {rows : List Row}
      {logged : List ChangeRecord} : db.commit queries = .ok (rows, logged, db') → Moves db db'
  | openSlot (db : Database) (name : String) : Moves db (db.openSlot name)
  | reclaim {db db' : Database} {slot : String} {upTo : Nat} : db.reclaim slot upTo = .ok db' →
      Moves db db'

/-- A database reaches another one in any number of moves. -/
abbrev Reaches : Database → Database → Prop := Relation.ReflTransGen Moves

/-- A database that was empty once. -/
def Reached (db : Database) : Prop := ∃ schema, Reaches (.empty schema) db

/-- The log belongs to the transactions and positions given out so far, and what lies before the start
of a slot was released to it. -/
structure LogKept (db : Database) : Prop where
  txid_le : ∀ r ∈ db.log, r.txid ≤ db.lastTxid
  position_lt : ∀ r ∈ db.log, r.position < db.nextPosition
  start_le : ∀ name slot, db.slots.get? name = some slot → slot.start ≤ db.nextPosition
  released : ∀ name slot, db.slots.get? name = some slot →
    ∀ r ∈ db.log, slot.reclaimedUpTo < r.txid → slot.start ≤ r.position

theorem LogKept.empty (schema : Schema) : LogKept (.empty schema) := by
  constructor <;> simp [Database.empty]

theorem LogKept.commit {db db' : Database} {queries : List Query} {rows : List Row}
    {logged : List ChangeRecord} (h : LogKept db) (hc : db.commit queries = .ok (rows, logged, db')) :
    LogKept db' := by
  rcases commit_cases hc with ⟨-, rfl⟩ | ⟨records, tables, hwrote, hlogged, rfl⟩
  · exact h
  have hnew : ∀ r ∈ logged, r.txid = db.lastTxid + 1 ∧ db.nextPosition ≤ r.position ∧
      r.position < db.nextPosition + logged.length := by
    intro r hr
    rw [hlogged] at hr
    obtain ⟨r₀, hr₀, i, hi, rfl⟩ := mem_numbered hr
    refine ⟨hwrote.records_txid r₀ hr₀, Nat.le_add_right _ _, ?_⟩
    rw [hlogged, length_numbered]
    exact Nat.add_lt_add_left hi _
  constructor
  · intro r hr
    rcases List.mem_append.mp hr with hr | hr
    · exact Nat.le_succ_of_le (h.txid_le r hr)
    · exact Nat.le_of_eq (hnew r hr).1
  · intro r hr
    rcases List.mem_append.mp hr with hr | hr
    · exact Nat.lt_add_right _ (h.position_lt r hr)
    · exact (hnew r hr).2.2
  · intro name slot hslot
    exact Nat.le_add_right_of_le (h.start_le name slot hslot)
  · intro name slot hslot r hr hreleased
    rcases List.mem_append.mp hr with hr | hr
    · exact h.released name slot hslot r hr hreleased
    · exact Nat.le_trans (h.start_le name slot hslot) (hnew r hr).2.1

theorem LogKept.openSlot {db : Database} (h : LogKept db) (name : String) :
    LogKept (db.openSlot name) := by
  unfold Database.openSlot
  split
  · exact h
  refine ⟨h.txid_le, h.position_lt, ?_, ?_⟩
  · intro other slot hslot
    rw [Keyed.get?_put] at hslot
    split at hslot
    · obtain rfl := Option.some.inj hslot
      exact Nat.le_refl _
    · exact h.start_le other slot hslot
  · intro other slot hslot r hr hreleased
    rw [Keyed.get?_put] at hslot
    split at hslot
    · obtain rfl := Option.some.inj hslot
      exact absurd (h.txid_le r hr) (Nat.not_le.mpr hreleased)
    · exact h.released other slot hslot r hr hreleased

/-- What a release does: it raises the mark of one slot. -/
theorem reclaim_eq_ok {db db' : Database} {name : String} {upTo : Nat}
    (h : db.reclaim name upTo = .ok db') :
    ∃ slot, db.slots.get? name = some slot ∧ db' = { db with
      slots := db.slots.put name { slot with reclaimedUpTo := max slot.reclaimedUpTo upTo } } := by
  unfold Database.reclaim at h
  split at h
  · contradiction
  · rename_i slot hslot
    exact ⟨slot, hslot, (Except.ok.inj h).symm⟩

theorem LogKept.reclaim {db db' : Database} {name : String} {upTo : Nat} (h : LogKept db)
    (hc : db.reclaim name upTo = .ok db') : LogKept db' := by
  obtain ⟨slot, hslot, rfl⟩ := reclaim_eq_ok hc
  refine ⟨h.txid_le, h.position_lt, ?_, ?_⟩
  · intro other found hfound
    rw [Keyed.get?_put] at hfound
    split at hfound
    · obtain rfl := Option.some.inj hfound
      exact h.start_le name slot hslot
    · exact h.start_le other found hfound
  · intro other found hfound r hr hreleased
    rw [Keyed.get?_put] at hfound
    split at hfound
    · obtain rfl := Option.some.inj hfound
      exact h.released name slot hslot r hr (Nat.lt_of_le_of_lt (Nat.le_max_left _ _) hreleased)
    · exact h.released other found hfound r hr hreleased

theorem LogKept.moves {db db' : Database} (h : LogKept db) (hm : Moves db db') : LogKept db' := by
  cases hm with
  | commit hc => exact h.commit hc
  | openSlot name => exact h.openSlot name
  | reclaim hc => exact h.reclaim hc

theorem Reached.logKept {db : Database} (h : Reached db) : LogKept db := by
  obtain ⟨schema, hreaches⟩ := h
  induction hreaches with
  | refl => exact .empty schema
  | tail _ hm ih => exact ih.moves hm

theorem Reached.trans {db db' : Database} (h : Reached db) (hr : Reaches db db') : Reached db' := by
  obtain ⟨schema, hreaches⟩ := h
  exact ⟨schema, hreaches.trans hr⟩

/-- The database after a commit; one that fails leaves it as it was. -/
def committed (db : Database) (queries : List Query) : Database :=
  match db.commit queries with
  | .ok (_, _, db') => db'
  | .error _ => db

theorem schema_committed (db : Database) (queries : List Query) :
    (db.committed queries).schema = db.schema := by
  unfold committed
  split
  · rename_i hcommit
    rcases commit_cases hcommit with ⟨-, rfl⟩ | ⟨records, tables, -, -, rfl⟩ <;> rfl
  · rfl

theorem Reached.empty (schema : Schema) : Reached (.empty schema) := ⟨schema, .refl⟩

theorem Reached.committed {db : Database} (h : Reached db) (queries : List Query) :
    Reached (db.committed queries) := by
  unfold Database.committed
  split
  · rename_i hcommit
    exact h.trans (.single (.commit hcommit))
  · exact h

/-- A slot has exactly the log past the transaction up to which it was released. -/
theorem Reached.retained_eq {db : Database} (h : Reached db) {name : String} {slot : Slot}
    (hslot : db.slots.get? name = some slot) :
    Slot.retained slot db.log = db.log.filter fun r => r.txid > slot.reclaimedUpTo := by
  refine List.filter_congr fun r hr => ?_
  by_cases hreleased : slot.reclaimedUpTo < r.txid
  · simp [hreleased, h.logKept.released name slot hslot r hr hreleased]
  · simp [hreleased]

/-! ### What later databases keep -/

/-- What commits leave: the slots as they were, and the log with later transactions behind it. -/
structure Extends (db db' : Database) : Prop where
  reaches : Reaches db db'
  slots : db'.slots = db.slots

theorem Extends.refl (db : Database) : Extends db db := ⟨.refl, rfl⟩

theorem Extends.trans {db₁ db₂ db₃ : Database} (h : Extends db₁ db₂) (h' : Extends db₂ db₃) :
    Extends db₁ db₃ :=
  ⟨h.reaches.trans h'.reaches, h'.slots.trans h.slots⟩

theorem Extends.of_commit {db db' : Database} {queries : List Query} {rows : List Row}
    {logged : List ChangeRecord} (h : db.commit queries = .ok (rows, logged, db')) :
    Extends db db' := by
  refine ⟨.single (.commit h), ?_⟩
  rcases commit_cases h with ⟨-, rfl⟩ | ⟨records, tables, -, -, rfl⟩ <;> rfl

/-- The later log of a database: what it had, and records of later transactions. -/
theorem Moves.log {db db' : Database} (h : Moves db db') :
    db.lastTxid ≤ db'.lastTxid ∧
      ∃ more, db'.log = db.log ++ more ∧ ∀ r ∈ more, db.lastTxid < r.txid := by
  cases h with
  | commit hc =>
    rcases commit_cases hc with ⟨-, rfl⟩ | ⟨records, tables, hwrote, hlogged, rfl⟩
    · exact ⟨Nat.le_refl _, [], by simp⟩
    · refine ⟨Nat.le_succ _, _, rfl, fun r hr => ?_⟩
      rw [hlogged] at hr
      obtain ⟨r₀, hr₀, i, -, rfl⟩ := mem_numbered hr
      exact hwrote.records_txid r₀ hr₀ ▸ Nat.lt_succ_self _
  | openSlot name =>
    unfold Database.openSlot
    split <;> exact ⟨Nat.le_refl _, [], by simp⟩
  | reclaim hc =>
    obtain ⟨slot, -, rfl⟩ := reclaim_eq_ok hc
    exact ⟨Nat.le_refl _, [], by simp⟩

theorem Reaches.log {db db' : Database} (h : Reaches db db') :
    db.lastTxid ≤ db'.lastTxid ∧
      ∃ more, db'.log = db.log ++ more ∧ ∀ r ∈ more, db.lastTxid < r.txid := by
  induction h with
  | refl => exact ⟨Nat.le_refl _, [], by simp⟩
  | tail _ hm ih =>
    obtain ⟨hle, more, hlog, hmore⟩ := ih
    obtain ⟨hle', later, hlog', hlater⟩ := hm.log
    refine ⟨Nat.le_trans hle hle', more ++ later, by rw [hlog', hlog, List.append_assoc], ?_⟩
    intro r hr
    rcases List.mem_append.mp hr with hr | hr
    · exact hmore r hr
    · exact Nat.lt_of_le_of_lt hle (hlater r hr)

/-- A record of an earlier transaction is not logged later. -/
theorem Reaches.mem_log {db db' : Database} (h : Reaches db db') {r : ChangeRecord}
    (hr : r.txid ≤ db.lastTxid) : r ∈ db'.log ↔ r ∈ db.log := by
  obtain ⟨-, more, hlog, hmore⟩ := h.log
  rw [hlog, List.mem_append]
  refine ⟨fun hmem => hmem.resolve_right fun hlater => ?_, .inl⟩
  exact absurd hr (Nat.not_le.mpr (hmore r hlater))

/-- The log is in the order of its transactions. -/
theorem Reached.txids {db : Database} (h : Reached db) :
    db.log.Pairwise fun r s => r.txid ≤ s.txid := by
  obtain ⟨schema, hreaches⟩ := h
  induction hreaches with
  | refl => exact .nil
  | @tail before _ hbefore hm ih =>
    cases hm with
    | openSlot name =>
      unfold Database.openSlot
      split <;> exact ih
    | reclaim hc =>
      obtain ⟨slot, -, rfl⟩ := reclaim_eq_ok hc
      exact ih
    | commit hc =>
      rcases commit_cases hc with ⟨-, rfl⟩ | ⟨records, tables, hwrote, rfl, rfl⟩
      · exact ih
      have hkept := Reached.logKept ⟨schema, hbefore⟩
      have hnew : ∀ r ∈ numbered before.nextPosition records, r.txid = before.lastTxid + 1 := by
        intro r hr
        obtain ⟨r₀, hr₀, _, -, rfl⟩ := mem_numbered hr
        exact hwrote.records_txid r₀ hr₀
      refine List.pairwise_append.mpr ⟨ih, ?_, fun r hr s hs => ?_⟩
      · exact List.pairwise_of_forall_mem_list fun r hr s hs =>
          Nat.le_of_eq ((hnew r hr).trans (hnew s hs).symm)
      · rw [hnew s hs]
        exact Nat.le_succ_of_le (hkept.txid_le r hr)

/-! ### When a slot was opened -/

/-- The transaction id at which a slot was opened: that of the last entry before its log, zero where
there was none. -/
def openedAt (db : Database) (slot : Slot) : Nat :=
  (((db.log.filter fun r => r.position < slot.start).getLast?).map ChangeRecord.txid).getD 0

/-- The last transaction is the one whose change was logged last. -/
theorem Reached.lastTxid_eq {db : Database} (h : Reached db) :
    ((db.log.getLast?).map ChangeRecord.txid).getD 0 = db.lastTxid := by
  obtain ⟨schema, hreaches⟩ := h
  induction hreaches with
  | refl => rfl
  | @tail db _ _ hm ih =>
    cases hm with
    | openSlot name =>
      unfold openSlot
      split <;> exact ih
    | reclaim hc =>
      obtain ⟨slot, -, rfl⟩ := reclaim_eq_ok hc
      exact ih
    | commit hc =>
      obtain ⟨applied, happlied, hc⟩ := Except.bind_eq_ok hc
      split at hc
      · obtain ⟨-, -, rfl⟩ := by simpa using Except.ok.inj hc
        exact ih
      · rename_i hrecords
        obtain ⟨-, -, rfl⟩ := by simpa using Except.ok.inj hc
        cases hlast : (numbered db.nextPosition applied.records).getLast? with
        | none =>
          have hnone := length_numbered db.nextPosition applied.records
          rw [List.getLast?_eq_none_iff.mp hlast] at hnone
          simp [List.eq_nil_of_length_eq_zero hnone.symm] at hrecords
        | some r =>
          obtain ⟨r₀, hr₀, i, -, rfl⟩ := mem_numbered (List.mem_of_getLast? hlast)
          simp [List.getLast?_append, hlast, (applyAll_wrote happlied).records_txid r₀ hr₀]

/-- A slot that is new was opened at the last transaction, and the log is released to it up to there. -/
theorem Reached.openedAt_openSlot {db : Database} (h : Reached db) {name : String} {slot : Slot}
    (hnew : db.slots.get? name = none) (hslot : (db.openSlot name).slots.get? name = some slot) :
    slot.reclaimedUpTo = db.lastTxid ∧ openedAt (db.openSlot name) slot = db.lastTxid := by
  simp only [openSlot, Keyed.contains, hnew, Option.isSome_none, Bool.false_eq_true, if_false,
    Keyed.get?_put, if_true, Option.some.injEq] at hslot
  subst hslot
  refine ⟨rfl, ?_⟩
  have hall : db.log.filter (fun r => decide (r.position < db.nextPosition)) = db.log :=
    List.filter_eq_self.mpr fun r hr => by simpa using h.logKept.position_lt r hr
  simp only [openedAt, openSlot, Keyed.contains, hnew, Option.isSome_none, Bool.false_eq_true,
    if_false, hall]
  exact h.lastTxid_eq

/-- The later log of a database has new positions. -/
theorem Moves.position {db db' : Database} (h : Moves db db') :
    db.nextPosition ≤ db'.nextPosition ∧
      ∃ more, db'.log = db.log ++ more ∧ ∀ r ∈ more, db.nextPosition ≤ r.position := by
  cases h with
  | commit hc =>
    rcases commit_cases hc with ⟨-, rfl⟩ | ⟨records, tables, -, hlogged, rfl⟩
    · exact ⟨Nat.le_refl _, [], by simp⟩
    · refine ⟨Nat.le_add_right _ _, _, rfl, fun r hr => ?_⟩
      rw [hlogged] at hr
      obtain ⟨r₀, -, i, -, rfl⟩ := mem_numbered hr
      exact Nat.le_add_right _ _
  | openSlot name =>
    unfold Database.openSlot
    split <;> exact ⟨Nat.le_refl _, [], by simp⟩
  | reclaim hc =>
    obtain ⟨slot, -, rfl⟩ := reclaim_eq_ok hc
    exact ⟨Nat.le_refl _, [], by simp⟩

/-- When a slot was opened does not change any more. -/
theorem Reaches.openedAt {db db' : Database} (h : Reaches db db') {slot : Slot}
    (hstart : slot.start ≤ db.nextPosition) : openedAt db' slot = openedAt db slot := by
  have hlater : slot.start ≤ db'.nextPosition ∧ Database.openedAt db' slot = db.openedAt slot := by
    induction h with
    | refl => exact ⟨hstart, rfl⟩
    | tail _ hm ih =>
      obtain ⟨hstarted, hsame⟩ := ih
      obtain ⟨hle, more, hlog, hmore⟩ := hm.position
      refine ⟨Nat.le_trans hstarted hle, hsame ▸ ?_⟩
      have hnone : more.filter (fun r => decide (r.position < slot.start)) = [] :=
        List.filter_eq_nil_iff.mpr fun r hr => by simpa using Nat.le_trans hstarted (hmore r hr)
      rw [Database.openedAt, Database.openedAt, hlog, List.filter_append, hnone, List.append_nil]
  exact hlater.2

/-- What a slot has of a window. -/
def Slot.within (slot : Slot) (window : TxWindow) (log : List ChangeRecord) : List ChangeRecord :=
  (Slot.retained slot log).filter fun r => window.contains r.txid

/-- What a slot has of a window that ends at a past transaction does not change any more. -/
theorem Reaches.within {db db' : Database} (h : Reaches db db') {slot : Slot}
    {window : TxWindow} (hw : window.txmax ≤ db.lastTxid) :
    Slot.within slot window db'.log = Slot.within slot window db.log := by
  obtain ⟨-, more, hlog, hmore⟩ := h.log
  have hnone : Slot.within slot window more = [] := by
    refine List.filter_eq_nil_iff.mpr fun r hr => ?_
    have hlater := hmore r (List.mem_filter.mp hr).1
    simp only [TxWindow.contains, Bool.and_eq_true, decide_eq_true_eq, not_and]
    omega
  have happend : Slot.within slot window (db.log ++ more) =
      Slot.within slot window db.log ++ Slot.within slot window more := by
    simp [Slot.within, Slot.retained]
  rw [hlog, happend, hnone, List.append_nil]

end Database

end DocSync
