import DocSync.Proofs.Relation.Replay

/-!
A log that explains its tables.  Keys have no null, no row matches the key of another, and the records of a
table, redone from nothing, give its rows in order.  Main statement: a commit keeps this, as long as an update
that leaves its key equal as JSON leaves a key that the updated row alone matches.
-/

namespace DocSync

/-- A list with other items in place of the first that is chosen. -/
def putFirst {α : Type} (chosen : α → Bool) (items : List α) : List α → List α
  | [] => []
  | first :: rest => if chosen first then items ++ rest else first :: putFirst chosen items rest

theorem putFirst_around {α : Type} {chosen : α → Bool} {items before after : List α} {item : α}
    (hbefore : ∀ other ∈ before, ¬ chosen other) (hitem : chosen item) :
    putFirst chosen items (before ++ item :: after) = before ++ (items ++ after) := by
  induction before with
  | nil => simp [putFirst, hitem]
  | cons first before ih =>
    obtain ⟨hfirst, hbefore⟩ := List.forall_mem_cons.mp hbefore
    simp [putFirst, hfirst, ih hbefore]

theorem putFirst_eq_self {α : Type} {chosen : α → Bool} {items list : List α}
    (h : ∀ item ∈ list, ¬ chosen item) : putFirst chosen items list = list := by
  induction list with
  | nil => rfl
  | cons first rest ih =>
    obtain ⟨hfirst, hrest⟩ := List.forall_mem_cons.mp h
    simp [putFirst, hfirst, ih hrest]

namespace ChangeRecord

/-- What a record makes of the rows of its table: an insert appends its values, an update puts them in place
of the row with the old key, or with the key where that stayed, and a delete removes the row with the key. -/
def redo (rows : List Row) (r : ChangeRecord) : List Row :=
  match r.kind with
  | .insert => rows ++ r.values.toList
  | .update => putFirst (·.matchesKey (r.oldKey.getD r.key)) r.values.toList rows
  | .delete => putFirst (·.matchesKey r.key) [] rows

end ChangeRecord

/-- The rows of a table with the records of that table redone on them. -/
def redone (name : String) (rows : List Row) (records : List ChangeRecord) : List Row :=
  (records.filter (·.table == name)).foldl ChangeRecord.redo rows

theorem redone_append (name : String) (rows : List Row) (records others : List ChangeRecord) :
    redone name rows (records ++ others) = redone name (redone name rows records) others := by
  rw [redone, List.filter_append, List.foldl_append]
  rfl

theorem redone_cons (name : String) (rows : List Row) (r : ChangeRecord) (records : List ChangeRecord) :
    redone name rows (r :: records) =
      redone name (if r.table = name then ChangeRecord.redo rows r else rows) records := by
  by_cases h : r.table = name <;> simp [redone, h]

theorem redone_numbered (name : String) (rows : List Row) (position : Nat) (records : List ChangeRecord) :
    redone name rows (Database.numbered position records) = redone name rows records := by
  induction records generalizing rows position with
  | nil => rfl
  | cons r rest ih =>
    rw [Database.numbered, redone_cons, redone_cons, ih]
    rfl

/-! ### Rows of one table -/

namespace Table

variable {t : Table} {rows before after : List StoredRow} {row other : StoredRow} {txid : Nat}

/-- A row matches the key of another. -/
def Clash (t : Table) (a b : StoredRow) : Prop := a.values.matchesKey (t.keyOf b.values)

instance (t : Table) (a b : StoredRow) : Decidable (t.Clash a b) :=
  inferInstanceAs (Decidable (a.values.matchesKey (t.keyOf b.values) = true))

theorem clash_iff {a b : StoredRow} :
    t.Clash a b ↔ ∀ c ∈ t.primaryKey, (a.values.value c).sqlMatches (b.values.value c) :=
  Iff.trans (Eq.congr_left (@Row.matchesKey_project a.values b.values t.primaryKey)) List.all_eq_true

theorem clash_comm {a b : StoredRow} : t.Clash a b ↔ t.Clash b a := by
  simp only [clash_iff, Json.sqlMatches_comm]

/-- No key has a null, and no row matches the key of another. -/
structure Apart (t : Table) (rows : List StoredRow) : Prop where
  present : ∀ stored ∈ rows, ∀ c ∈ t.primaryKey, (stored.values.value c).isNull = false
  distinct : rows.Pairwise fun a b => ¬ t.Clash a b

theorem Apart.nil (t : Table) : t.Apart [] := ⟨by simp, .nil⟩

theorem apart_around : t.Apart (before ++ row :: after) ↔ t.Apart (before ++ after) ∧
    (∀ c ∈ t.primaryKey, (row.values.value c).isNull = false) ∧
      ∀ stored ∈ before ++ after, ¬ t.Clash stored row := by
  have hperm : (before ++ row :: after).Perm (row :: (before ++ after)) := List.perm_middle
  have hsymm : ∀ {a b : StoredRow}, ¬ t.Clash a b → ¬ t.Clash b a := fun h h' => h (clash_comm.mp h')
  constructor
  · rintro ⟨hpresent, hdistinct⟩
    obtain ⟨hrow, hrest⟩ := List.pairwise_cons.mp (hperm.pairwise hdistinct hsymm)
    have hothers := fun stored hstored => hpresent stored
      (hperm.mem_iff.mpr (List.mem_cons_of_mem row hstored))
    exact ⟨⟨hothers, hrest⟩, hpresent row (by simp), fun stored hstored => hsymm (hrow stored hstored)⟩
  · rintro ⟨⟨hpresent, hdistinct⟩, hrow, hfree⟩
    have hcons := List.pairwise_cons.mpr ⟨fun stored hstored => hsymm (hfree stored hstored), hdistinct⟩
    refine ⟨fun stored hstored => ?_, hperm.symm.pairwise hcons hsymm⟩
    rcases List.mem_cons.mp (hperm.mem_iff.mp hstored) with rfl | hstored
    · exact hrow
    · exact hpresent stored hstored

/-- A row matches its own key, and none before it does. -/
theorem Apart.first (h : t.Apart (before ++ row :: after)) : row.values.matchesKey (t.keyOf row.values) ∧
    ∀ stored ∈ before, ¬ stored.values.matchesKey (t.keyOf row.values) := by
  obtain ⟨-, hpresent, hfree⟩ := apart_around.mp h
  refine ⟨clash_iff.mpr fun c hc => Json.sqlMatches_self (hpresent c hc), fun stored hstored => ?_⟩
  exact hfree stored (List.mem_append_left after hstored)

/-- An effect leaves keys apart, and its record tells what became of the rows. -/
structure Explains (t : Table) (rows : List StoredRow) (effect : WriteEffect) : Prop where
  apart : t.Apart effect.rows
  redo : effect.record.toList.foldl ChangeRecord.redo (rows.map StoredRow.values) =
    effect.rows.map StoredRow.values

theorem explains_nothing (h : t.Apart rows) : t.Explains rows (Database.noEffect rows) := ⟨h, rfl⟩

theorem explains_insert {values : Row} {affected : List Row} {key : Row} (h : t.Apart rows)
    (hunique : t.checkUnique rows (t.keyOf values) = .ok ()) :
    t.Explains rows ⟨affected, some ⟨t.name, .insert, key, none, some values, txid, 0⟩,
      rows ++ [⟨values, txid⟩]⟩ := by
  obtain ⟨hpresent, hfree⟩ := Table.checkUnique_eq_ok hunique
  refine ⟨apart_around.mpr ⟨?_, hpresent, ?_⟩, by simp [ChangeRecord.redo]⟩
  · rwa [List.append_nil]
  · rwa [List.append_nil]

/-- A row gives way to another one whose key is free, where the record names it by a key that it is the
first to match. -/
theorem explains_replace {old : StoredRow} {updated key : Row} {oldKey : Option Row} {affected : List Row}
    (h : t.Apart (before ++ old :: after)) (hmatch : old.values.matchesKey (oldKey.getD key))
    (hbefore : ∀ stored ∈ before, ¬ stored.values.matchesKey (oldKey.getD key))
    (hpresent : ∀ c ∈ t.primaryKey, (updated.value c).isNull = false)
    (hfree : ∀ stored ∈ before ++ after, ¬ stored.values.matchesKey (t.keyOf updated)) :
    t.Explains (before ++ old :: after)
      ⟨affected, some ⟨t.name, .update, key, oldKey, some updated, txid, 0⟩,
        before ++ ⟨updated, txid⟩ :: after⟩ := by
  refine ⟨apart_around.mpr ⟨(apart_around.mp h).1, hpresent, hfree⟩, ?_⟩
  have hput : putFirst (·.matchesKey (oldKey.getD key)) [updated]
      (before.map StoredRow.values ++ old.values :: after.map StoredRow.values) =
        before.map StoredRow.values ++ ([updated] ++ after.map StoredRow.values) :=
    putFirst_around (List.forall_mem_map.mpr hbefore) hmatch
  simpa [ChangeRecord.redo] using hput

/-- A record that names the new key of an updated row tells what became of it only where the old row, and no
other one, matched that key. -/
theorem Explains.alone {old : StoredRow} {updated : Row} {affected : List Row}
    (hexplains : t.Explains (before ++ old :: after)
      ⟨affected, some ⟨t.name, .update, t.keyOf updated, none, some updated, txid, 0⟩,
        before ++ ⟨updated, txid⟩ :: after⟩)
    (h : t.Apart (before ++ old :: after)) :
    old.values.matchesKey (t.keyOf updated) ∧
      ∀ stored ∈ before ++ after, ¬ stored.values.matchesKey (t.keyOf updated) := by
  obtain ⟨-, -, hfree⟩ := apart_around.mp hexplains.apart
  refine ⟨Decidable.byContradiction fun hother => ?_, hfree⟩
  -- No row matches the key then, so redoing the record changes nothing, not even the updated row.
  have hnone : ∀ values ∈ (before ++ old :: after).map StoredRow.values,
      ¬ values.matchesKey (t.keyOf updated) := by
    refine List.forall_mem_map.mpr fun stored hstored => ?_
    rcases List.mem_cons.mp (List.perm_middle.mem_iff.mp hstored) with rfl | hstored
    · exact hother
    · exact hfree stored hstored
  have hredo := hexplains.redo
  simp only [Option.toList_some, List.foldl_cons, List.foldl_nil, ChangeRecord.redo, Option.getD_none,
    putFirst_eq_self hnone] at hredo
  have hvalues : old.values = updated := by simpa using hredo
  exact hother (hvalues ▸ h.first.1)

theorem explains_delete {old : StoredRow} {affected : List Row} (h : t.Apart (before ++ old :: after)) :
    t.Explains (before ++ old :: after)
      ⟨affected, some ⟨t.name, .delete, t.keyOf old.values, none, none, txid, 0⟩, before ++ after⟩ := by
  obtain ⟨hmatch, hbefore⟩ := h.first
  refine ⟨(apart_around.mp h).1, ?_⟩
  have hput : putFirst (·.matchesKey (t.keyOf old.values)) []
      (before.map StoredRow.values ++ old.values :: after.map StoredRow.values) =
        before.map StoredRow.values ++ ([] ++ after.map StoredRow.values) :=
    putFirst_around (List.forall_mem_map.mpr hbefore) hmatch
  simpa [ChangeRecord.redo] using hput

end Table

/-! ### Transactions -/

/-- An update that leaves the key of its row equal as JSON leaves a key that this row matched before, and that
no other row matches. -/
def Query.KeepsKey (schema : Schema) (tables : Tables) : Query → Prop
  | .update name key changes => ∀ t ∈ schema.table? name,
      ∀ i ∈ (tables.getD name []).findIdx? (·.values.matchesKey key), ∀ old ∈ (tables.getD name [])[i]?,
      (t.keyOf (Database.changed old.values changes)).same (t.keyOf old.values) →
        old.values.matchesKey (t.keyOf (Database.changed old.values changes)) ∧
        ∀ stored ∈ (tables.getD name []).eraseIdx i,
          ¬ stored.values.matchesKey (t.keyOf (Database.changed old.values changes))
  | _ => True

instance (schema : Schema) (tables : Tables) (query : Query) : Decidable (query.KeepsKey schema tables) :=
  match query with
  | .update _ _ _ => by dsimp only [Query.KeepsKey]; infer_instance
  | .select _ | .insert _ _ | .delete _ _ => .isTrue trivial

namespace Database

variable {schema : Schema} {txid : Nat} {tables : Tables} {name : String} {query : Query}
  {queries : List Query} {effect : WriteEffect} {db db' : Database}

/-- Every statement of a transaction keeps keys, on the tables that those before it leave. -/
def KeepsKeys (schema : Schema) (txid : Nat) : List Query → Tables → Prop
  | [], _ => True
  | query :: rest, tables => query.KeepsKey schema tables ∧
      match effectOf schema tables query txid with
      | .ok (name, effect) => KeepsKeys schema txid rest (tables.put name effect.rows)
      | .error _ => True

instance decidableKeepsKeys (schema : Schema) (txid : Nat) : (queries : List Query) → (tables : Tables) →
    Decidable (KeepsKeys schema txid queries tables)
  | [], _ => .isTrue trivial
  | query :: rest, tables =>
    have : Decidable (match effectOf schema tables query txid with
        | .ok (name, effect) => KeepsKeys schema txid rest (tables.put name effect.rows)
        | .error _ => True) :=
      match effectOf schema tables query txid with
      | .ok (name, effect) => decidableKeepsKeys schema txid rest (tables.put name effect.rows)
      | .error _ => .isTrue trivial
    inferInstanceAs (Decidable (_ ∧ _))

/-- Every table of a schema keeps its keys apart. -/
def TablesApart (schema : Schema) (tables : Tables) : Prop :=
  ∀ name t, schema.table? name = some t → t.Apart (tables.getD name [])

/-- What a statement does is told by its record. -/
theorem explains_of_effectOf (h : effectOf schema tables query txid = .ok (name, effect))
    (hkeeps : query.KeepsKey schema tables) (hapart : TablesApart schema tables) :
    ∃ t, schema.table? name = some t ∧ t.Explains (tables.getD name []) effect := by
  unfold effectOf at h
  cases query with
  | select s => contradiction
  | insert written row =>
    obtain ⟨t, ht, h⟩ := Except.bind_eq_ok h
    obtain ⟨effect', heffect, h⟩ := Except.bind_eq_ok h
    obtain ⟨rfl, rfl⟩ := Prod.mk.inj (Except.ok.inj h)
    have ht := writtenTable?_eq_ok ht
    obtain ⟨values, hunique, rfl⟩ := insertRow_eq_ok heffect
    exact ⟨t, ht, Table.explains_insert (hapart written t ht) hunique⟩
  | update written key changes =>
    obtain ⟨t, ht, h⟩ := Except.bind_eq_ok h
    obtain ⟨effect', heffect, h⟩ := Except.bind_eq_ok h
    obtain ⟨rfl, rfl⟩ := Prod.mk.inj (Except.ok.inj h)
    have ht := writtenTable?_eq_ok ht
    have hrows := hapart written t ht
    refine ⟨t, ht, ?_⟩
    rcases updateRow_eq_ok heffect with ⟨-, rfl⟩ | ⟨i, old, updated, hfind, hold, hupdated, hcases⟩
    · exact Table.explains_nothing hrows
    obtain ⟨before, after, hsplit, herase, hset⟩ := exists_around hold
    rw [hsplit] at hrows
    rcases hcases with ⟨hsame, rfl⟩ | ⟨-, hunique, rfl⟩
    · obtain ⟨hmatch, hfree⟩ := hkeeps t ht i hfind old hold (hupdated ▸ hsame)
      rw [← hupdated] at hmatch
      rw [← hupdated, herase] at hfree
      rw [hset, hsplit]
      refine Table.explains_replace hrows hmatch (fun stored hstored => ?_) (fun c hc => ?_) hfree
      · exact hfree stored (List.mem_append_left after hstored)
      · rw [Json.isNull_eq_of_same (Table.same_value hsame hc)]
        exact (Table.apart_around.mp hrows).2.1 c hc
    · obtain ⟨hpresent, hfree⟩ := Table.checkUnique_eq_ok hunique
      rw [herase] at hfree
      rw [hset, hsplit]
      exact Table.explains_replace hrows hrows.first.1 hrows.first.2 hpresent hfree
  | delete written key =>
    obtain ⟨t, ht, h⟩ := Except.bind_eq_ok h
    obtain ⟨rfl, rfl⟩ := Prod.mk.inj (Except.ok.inj h)
    have ht := writtenTable?_eq_ok ht
    have hrows := hapart written t ht
    refine ⟨t, ht, ?_⟩
    rcases deleteRow_cases t (tables.getD written []) key txid with
      ⟨-, heffect⟩ | ⟨i, old, -, hold, heffect⟩
    · exact heffect ▸ Table.explains_nothing hrows
    · obtain ⟨before, after, hsplit, herase, -⟩ := exists_around hold
      rw [heffect, herase, hsplit]
      exact Table.explains_delete (hsplit ▸ hrows)

/-- Only a statement that keeps keys does what its record tells. -/
theorem keepsKey_of_explains (h : effectOf schema tables query txid = .ok (name, effect))
    (hapart : TablesApart schema tables)
    (hexplains : ∀ t, schema.table? name = some t → t.Explains (tables.getD name []) effect) :
    query.KeepsKey schema tables := by
  cases query with
  | select | insert | delete => trivial
  | update written key changes =>
    obtain ⟨t', ht', h⟩ := Except.bind_eq_ok h
    obtain ⟨effect', heffect, h⟩ := Except.bind_eq_ok h
    obtain ⟨rfl, rfl⟩ := Prod.mk.inj (Except.ok.inj h)
    intro t ht i hfind old hold hsame
    obtain rfl := Option.some.inj ((writtenTable?_eq_ok ht').symm.trans ht)
    rcases updateRow_eq_ok heffect with ⟨hnone, -⟩ | ⟨i', old', _, hfind', hold', rfl, hcases⟩
    · cases hnone.symm.trans hfind
    obtain rfl := Option.some.inj (hfind'.symm.trans hfind)
    obtain rfl := Option.some.inj (hold'.symm.trans hold)
    rcases hcases with ⟨-, rfl⟩ | ⟨hmoved, -, -⟩
    · obtain ⟨before, after, hsplit, herase, hset⟩ := exists_around hold
      have hexplains := hexplains t' ht
      rw [hset, hsplit] at hexplains
      rw [herase]
      exact hexplains.alone (hsplit ▸ hapart written t' ht)
    · exact absurd hsame hmoved

/-- The record of a statement is redone on the table that the statement names. -/
theorem redone_record {written : String} {rows : List Row}
    (h : effectOf schema tables query txid = .ok (written, effect))
    (hnames : ∀ name t, schema.table? name = some t → t.name = name) :
    redone name rows effect.record.toList =
      if written = name then effect.record.toList.foldl ChangeRecord.redo rows else rows := by
  obtain ⟨t, ht, heffect⟩ := effectOf_effect h
  have htable : ∀ r ∈ effect.record.toList, r.table = written := fun r hr =>
    (heffect.record_table (Option.mem_toList.mp hr)).trans (hnames written t ht)
  split
  · rename_i hname
    subst hname
    rw [redone, List.filter_eq_self.mpr (by simpa using htable)]
  · rename_i hne
    rw [redone, List.filter_eq_nil_iff.mpr, List.foldl_nil]
    intro r hr
    rw [htable r hr]
    simpa using hne

/-- The records of a transaction tell what became of every table. -/
theorem explained_of_applyAll {applied : Applied} (h : applyAll schema txid queries tables = .ok applied)
    (hnames : ∀ name t, schema.table? name = some t → t.name = name)
    (hkeeps : KeepsKeys schema txid queries tables) (hapart : TablesApart schema tables) :
    TablesApart schema applied.tables ∧ ∀ name,
      redone name ((tables.getD name []).map StoredRow.values) applied.records =
        (applied.tables.getD name []).map StoredRow.values := by
  induction queries generalizing tables applied with
  | nil =>
    obtain rfl := Except.ok.inj h
    exact ⟨hapart, fun _ => rfl⟩
  | cons query rest ih =>
    obtain ⟨⟨written, effect⟩, heffect, h⟩ := Except.bind_eq_ok h
    obtain ⟨later, hlater, h⟩ := Except.bind_eq_ok h
    obtain rfl := Except.ok.inj h
    obtain ⟨hkept, hrest⟩ := hkeeps
    simp only [heffect] at hrest
    obtain ⟨t, ht, hexplains⟩ := explains_of_effectOf heffect hkept hapart
    have hput : TablesApart schema (tables.put written effect.rows) := by
      intro name other hother
      rw [Keyed.getD_put]
      split
      · rename_i hname
        subst hname
        obtain rfl := Option.some.inj (ht.symm.trans hother)
        exact hexplains.apart
      · exact hapart name other hother
    obtain ⟨hafter, hredone⟩ := ih hlater hrest hput
    refine ⟨hafter, fun name => ?_⟩
    rw [redone_append, ← hredone, Keyed.getD_put, redone_record heffect hnames]
    congr 1
    split
    · rename_i hname
      rw [← hname, hexplains.redo]
    · rfl

/-! ### The log -/

theorem positions_numbered (position : Nat) (records : List ChangeRecord) :
    (numbered position records).map ChangeRecord.position = List.range' position records.length := by
  induction records generalizing position with
  | nil => rfl
  | cons r rest ih => rw [numbered, List.map_cons, ih, List.length_cons, List.range'_succ]

/-- The log of a database explains its tables. -/
structure Explained (db : Database) : Prop where
  apart : TablesApart db.schema db.tables
  redone : ∀ name, redone name [] db.log = db.rows name
  positions : db.log.map ChangeRecord.position = List.range db.log.length
  nextPosition : db.nextPosition = db.log.length
  txids : db.log.Pairwise fun r s => r.txid ≤ s.txid
  lastTxid : ((db.log.getLast?).map ChangeRecord.txid).getD 0 = db.lastTxid

theorem explained_empty (schema : Schema) : (empty schema).Explained :=
  ⟨fun _ t _ => .nil t, fun _ => rfl, rfl, rfl, .nil, rfl⟩

/-- A commit keeps the log explaining the tables. -/
theorem Explained.commit (h : db.Explained) (hreached : db.Reached) {rows : List Row}
    {logged : List ChangeRecord} (hnames : ∀ name t, db.schema.table? name = some t → t.name = name)
    (hkeeps : KeepsKeys db.schema (db.lastTxid + 1) queries db.tables)
    (hc : db.commit queries = .ok (rows, logged, db')) : db'.Explained := by
  have hlast := (hreached.trans (.single (.commit hc))).lastTxid_eq
  obtain ⟨applied, happlied, hc⟩ := Except.bind_eq_ok hc
  split at hc
  · obtain ⟨-, -, rfl⟩ := by simpa using Except.ok.inj hc
    exact h
  · obtain ⟨-, -, rfl⟩ := by simpa using Except.ok.inj hc
    obtain ⟨hapart, hredone⟩ := explained_of_applyAll happlied hnames hkeeps h.apart
    have htxid := (applyAll_wrote happlied).records_txid
    have hnew : ∀ r ∈ numbered db.nextPosition applied.records, r.txid = db.lastTxid + 1 := by
      intro r hr
      obtain ⟨r₀, hr₀, _, -, rfl⟩ := mem_numbered hr
      exact htxid r₀ hr₀
    refine ⟨hapart, fun name => ?_, ?_, ?_, ?_, hlast⟩
    · rw [redone_append, redone_numbered, h.redone]
      exact hredone name
    · have hrange := List.range'_append_1 (s := 0) (m := db.log.length) (n := applied.records.length)
      rw [Nat.zero_add] at hrange
      rw [List.map_append, h.positions, positions_numbered, List.length_append, length_numbered,
        h.nextPosition, List.range_eq_range', List.range_eq_range', hrange]
    · rw [h.nextPosition, List.length_append]
    · refine List.pairwise_append.mpr ⟨h.txids, ?_, fun r hr s hs => ?_⟩
      · exact List.pairwise_of_forall_mem_list fun r hr s hs => by rw [hnew r hr, hnew s hs]
      · rw [hnew s hs]
        exact Nat.le_succ_of_le (hreached.logKept.txid_le r hr)

/-- A commit of one statement keeps the log explaining the tables just where the statement keeps keys. -/
theorem Explained.commit_iff (h : db.Explained) (hreached : db.Reached) {rows : List Row}
    {logged : List ChangeRecord} (hnames : ∀ name t, db.schema.table? name = some t → t.name = name)
    (hc : db.commit [query] = .ok (rows, logged, db')) :
    db'.Explained ↔ query.KeepsKey db.schema db.tables := by
  constructor
  · intro h'
    obtain ⟨applied, happlied, hc⟩ := Except.bind_eq_ok hc
    obtain ⟨⟨written, effect⟩, heffect, happlied⟩ := Except.bind_eq_ok happlied
    obtain rfl := Except.ok.inj happlied
    refine keepsKey_of_explains heffect h.apart fun t ht => ?_
    simp only [List.append_nil] at hc
    split at hc
    · rename_i hnone
      obtain ⟨_, _, heffect'⟩ := effectOf_effect heffect
      cases heffect' with
      | nothing => exact Table.explains_nothing (h.apart written t ht)
      | insert | update | move | delete => simp at hnone
    · obtain ⟨-, -, rfl⟩ := by simpa using Except.ok.inj hc
      have hredone := h'.redone written
      rw [redone_append, redone_numbered, h.redone, redone_record heffect hnames, if_pos rfl] at hredone
      have hrows : (db.tables.put written effect.rows).getD written [] = effect.rows := by
        rw [Keyed.getD_put, if_pos rfl]
      exact ⟨hrows ▸ h'.apart written t ht, hredone.trans (congrArg (List.map StoredRow.values) hrows)⟩
  · intro hkeeps
    have hkept : KeepsKeys db.schema (db.lastTxid + 1) [query] db.tables := by
      refine ⟨hkeeps, ?_⟩
      split <;> trivial
    exact h.commit hreached hnames hkept hc

end Database

end DocSync
