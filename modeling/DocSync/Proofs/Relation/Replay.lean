import DocSync.Proofs.Json.Kinds
import DocSync.Proofs.Lists
import DocSync.Proofs.Relation.Rows
import Mathlib.Data.List.Induction

/-!
The rows of a table as its log tells them.  A row is stored exactly when some record wrote it and no
later record is about its key.  Main statement: this holds in every database that is reached, for a
table whose key columns each hold values of one kind; its rows then have keys without nulls, no two the
same.
-/

namespace DocSync

/-- The values of a row's key. -/
def StoredRow.key (stored : StoredRow) (t : Table) : List Json := stored.values.tuple t.primaryKey

namespace ChangeRecord

/-- The record is about a key: the row of the key came, changed or went. -/
def Concerns (t : Table) (key : List Json) (r : ChangeRecord) : Prop :=
  r.table = t.name ∧ (r.key.tuple t.primaryKey = key ∨
    ∃ old, r.oldKey = some old ∧ old.tuple t.primaryKey = key)

/-- The record left a row as it is stored. -/
def Writes (t : Table) (stored : StoredRow) (r : ChangeRecord) : Prop :=
  r.table = t.name ∧ r.values = some stored.values ∧ r.txid = stored.xmin

/-- What one record makes of the rows there are. -/
def replay (t : Table) (r : ChangeRecord) (live : StoredRow → Prop) (stored : StoredRow) : Prop :=
  r.Writes t stored ∨ live stored ∧ ¬ r.Concerns t (stored.key t)

end ChangeRecord

/-- The rows of a table that its log leaves. -/
def Live (t : Table) (log : List ChangeRecord) : StoredRow → Prop :=
  log.foldl (fun live r => r.replay t live) fun _ => False

/-- In every record of the table the values of the key columns are null or of the given kinds. -/
def KeyKinds (t : Table) (kinds : List ValueKind) (log : List ChangeRecord) : Prop :=
  ∀ r ∈ log, r.table = t.name → ∀ values, r.values = some values →
    List.Forall₂ ValueKind.Admits kinds (values.tuple t.primaryKey)

variable {t : Table} {kinds : List ValueKind} {log records : List ChangeRecord} {r : ChangeRecord}
  {stored : StoredRow}

theorem live_concat : Live t (log ++ [r]) stored ↔
    r.Writes t stored ∨ Live t log stored ∧ ¬ r.Concerns t (stored.key t) := by
  rw [Live, List.foldl_append]
  rfl

/-- A row is live when some record wrote it and none after that is about its key. -/
theorem live_iff : Live t log stored ↔ ∃ before r after, log = before ++ r :: after ∧
    r.Writes t stored ∧ ∀ s ∈ after, ¬ s.Concerns t (stored.key t) := by
  induction log using List.reverseRecOn with
  | nil => simp [Live]
  | append_singleton log last ih =>
    rw [live_concat, ih]
    constructor
    · rintro (hwrites | ⟨⟨before, r, after, rfl, hwrites, hafter⟩, hlast⟩)
      · exact ⟨log, last, [], rfl, hwrites, by simp⟩
      · refine ⟨before, r, after ++ [last], by simp, hwrites, ?_⟩
        intro s hs
        rcases List.mem_append.mp hs with hs | hs
        · exact hafter s hs
        · rw [List.mem_singleton.mp hs]
          exact hlast
    · rintro ⟨before, r, after, hlog, hwrites, hafter⟩
      rcases List.eq_nil_or_concat' after with rfl | ⟨after, other, rfl⟩
      · obtain ⟨-, hr⟩ := List.append_inj' hlog rfl
        exact .inl (List.singleton_inj.mp hr ▸ hwrites)
      · rw [← List.cons_append, ← List.append_assoc] at hlog
        obtain ⟨rfl, hlast⟩ := List.append_inj' hlog rfl
        obtain rfl := List.singleton_inj.mp hlast
        exact .inr ⟨⟨before, r, after, rfl, hwrites, fun s hs => hafter s (by simp [hs])⟩,
          hafter last (by simp)⟩

/-- Records that are not about a row's key leave it as it was. -/
theorem live_append_iff (h : ∀ r ∈ records, ¬ r.Concerns t (stored.key t) ∧ ¬ r.Writes t stored) :
    Live t (log ++ records) stored ↔ Live t log stored := by
  induction records using List.reverseRecOn with
  | nil => rw [List.append_nil]
  | append_singleton records r ih =>
    obtain ⟨hconcerns, hwrites⟩ := h r (by simp)
    have hrest := ih fun r hr => h r (List.mem_append_left _ hr)
    rw [← List.append_assoc, live_concat, hrest]
    simp [hconcerns, hwrites]

/-- Where records stand in the log makes no difference to what they leave. -/
theorem live_append_numbered (position : Nat) : Live t (log ++ Database.numbered position records) =
    Live t (log ++ records) := by
  have hfold : ∀ (records : List ChangeRecord) (position : Nat) (live : StoredRow → Prop),
      (Database.numbered position records).foldl (fun live r => r.replay t live) live =
        records.foldl (fun live r => r.replay t live) live := by
    intro records
    induction records with
    | nil => exact fun _ _ => rfl
    | cons r rest ih => exact fun position live => ih (position + 1) (r.replay t live)
  rw [Live, Live, List.foldl_append, List.foldl_append, hfold]

theorem KeyKinds.of_append_left (h : KeyKinds t kinds (log ++ records)) : KeyKinds t kinds log :=
  fun r hr => h r (List.mem_append_left _ hr)

theorem KeyKinds.of_numbered {position : Nat}
    (h : KeyKinds t kinds (log ++ Database.numbered position records)) :
    KeyKinds t kinds (log ++ records) := by
  have hmem : ∀ (records : List ChangeRecord) (position : Nat), ∀ r ∈ records,
      ∃ i, { r with position := i } ∈ Database.numbered position records := by
    intro records
    induction records with
    | nil => simp
    | cons first rest ih =>
      intro position r hr
      rcases List.mem_cons.mp hr with rfl | hr
      · exact ⟨position, List.mem_cons_self⟩
      · obtain ⟨i, hi⟩ := ih (position + 1) r hr
        exact ⟨i, List.mem_cons_of_mem _ hi⟩
  intro r hr
  rcases List.mem_append.mp hr with hr | hr
  · exact h r (List.mem_append_left _ hr)
  · obtain ⟨i, hi⟩ := hmem records position r hr
    exact h { r with position := i } (List.mem_append_right _ hi)

/-! ### Keys -/

theorem Table.tuple_keyOf (t : Table) (row : Row) :
    (t.keyOf row).tuple t.primaryKey = row.tuple t.primaryKey :=
  Row.tuple_project fun _ hc => hc

/-- A key that passes the check has no null, and no row matches it. -/
theorem Table.checkUnique_eq_ok {rows : List StoredRow} {row : Row}
    (h : t.checkUnique rows (t.keyOf row) = .ok ()) :
    (∀ c ∈ t.primaryKey, (row.value c).isNull = false) ∧
      ∀ stored ∈ rows, ¬ stored.values.matchesKey (t.keyOf row) := by
  unfold Table.checkUnique at h
  split at h
  · contradiction
  rename_i hnull
  split at h
  · contradiction
  rename_i hmatches
  refine ⟨fun c hc => ?_, fun stored hstored hmatch => ?_⟩
  · by_contra hc'
    refine hnull (List.any_eq_true.mpr ⟨row.value c, ?_, by simpa using hc'⟩)
    exact List.mem_map.mpr ⟨(c, row.value c), Keyed.mem_ofEntries.mpr ⟨hc, rfl⟩, rfl⟩
  · exact hmatches (List.any_eq_true.mpr ⟨stored, hstored, hmatch⟩)

theorem Table.tuple_present {row : Row} (h : ∀ c ∈ t.primaryKey, (row.value c).isNull = false) :
    (row.tuple t.primaryKey).any Json.isNull = false := by
  rw [List.any_eq_false]
  rintro v hv
  obtain ⟨c, hc, rfl⟩ := List.mem_map.mp hv
  simp [h c hc]

/-- A key that passes the check has no null, and is the key of no row. -/
theorem Table.of_checkUnique {rows : List StoredRow} {row : Row}
    (h : t.checkUnique rows (t.keyOf row) = .ok ()) :
    (row.tuple t.primaryKey).any Json.isNull = false ∧
      ∀ stored ∈ rows, stored.key t ≠ row.tuple t.primaryKey := by
  obtain ⟨hpresent, hfree⟩ := Table.checkUnique_eq_ok h
  refine ⟨Table.tuple_present hpresent, fun stored hstored hkey => hfree stored hstored ?_⟩
  refine Eq.trans Row.matchesKey_project (List.all_eq_true.mpr fun c hc => ?_)
  have hvalue : stored.values.value c = row.value c := List.map_inj_left.mp hkey c hc
  rw [hvalue]
  exact Json.sqlMatches_self (hpresent c hc)

/-- A value of a kind is the same as itself only. -/
theorem ValueKind.Has.eq_of_same {kind : ValueKind} {a b : Json} (ha : kind.Has a)
    (h : a.same b = true ∨ b.same a = true) : b = a := by
  cases kind with
  | text =>
    obtain ⟨s, rfl⟩ := ha
    cases b with
    | string s' => rcases h with h | h <;> simp_all [Json.same]
    | _ => simp [Json.same] at h
  | integer =>
    obtain ⟨i, rfl, -⟩ := ha
    cases b with
    | number n =>
      cases n with
      | integer j => rcases h with h | h <;> simp_all [Json.same, Number.same]
      | double => simp [Json.same, Number.same] at h
    | _ => simp [Json.same] at h

theorem Json.isNull_eq_of_same {a b : Json} (h : a.same b = true) : a.isNull = b.isNull := by
  cases a <;> cases b <;> first | rfl | simp [Json.same] at h

theorem Json.exists_of_membersIn {members other : Row} (h : Json.membersIn members other = true) {c : String}
    {v : Json} (hmem : (c, v) ∈ members) : ∃ found, other.get? c = some found ∧ v.same found = true := by
  induction members with
  | nil => contradiction
  | cons first rest ih =>
    obtain ⟨key, value⟩ := first
    rw [Json.membersIn, Bool.and_eq_true] at h
    rcases List.mem_cons.mp hmem with heq | hmem
    · obtain ⟨rfl, rfl⟩ := Prod.mk.inj heq
      cases hfound : Keyed.get? other c with
      | none => simp [hfound] at h
      | some found => exact ⟨found, rfl, by simpa [hfound] using h.1⟩
    · exact ih h.2 hmem

/-- Rows that are the same agree on a column that holds a value of a kind in both. -/
theorem Row.value_eq_of_same {row row' : Row} (h : row.same row') {kind : ValueKind} {c : String}
    (hhas : kind.Has (row.value c)) : row'.value c = row.value c := by
  rw [Row.same, Json.same, Bool.and_eq_true] at h
  obtain ⟨v, hv⟩ : ∃ v, Keyed.get? row c = some v := by
    refine Option.ne_none_iff_exists'.mp fun hnone => ?_
    rw [Row.value, Keyed.getD, hnone] at hhas
    exact absurd hhas.isNull (by simp [Json.isNull])
  obtain ⟨found, hfound, hsame⟩ := Json.exists_of_membersIn h.2 (Keyed.mem_of_get? hv)
  have hvalue : row.value c = v := by rw [Row.value, Keyed.getD, hv]; rfl
  rw [hvalue] at hhas ⊢
  rw [Row.value, Keyed.getD, hfound]
  exact hhas.eq_of_same (.inl hsame)

theorem Table.same_value {row row' : Row} (h : (t.keyOf row).same (t.keyOf row')) {c : String}
    (hc : c ∈ t.primaryKey) : (row.value c).same (row'.value c) = true := by
  rw [Row.same, Json.same, Bool.and_eq_true] at h
  obtain ⟨found, hfound, hsame⟩ := Json.exists_of_membersIn h.2
    (Keyed.mem_ofEntries.mpr ⟨hc, rfl⟩ : (c, row.value c) ∈ t.keyOf row)
  rw [Table.keyOf, Keyed.get?_ofEntries, if_pos hc] at hfound
  exact Option.some.inj hfound ▸ hsame

/-- Keys that are the same have the same values, where those of one are of some kind. -/
theorem Table.tuple_eq_of_same {row row' : Row} (h : (t.keyOf row).same (t.keyOf row'))
    (hkinds : ValueKind.HasAll kinds (row'.tuple t.primaryKey)) :
    row.tuple t.primaryKey = row'.tuple t.primaryKey := by
  refine Row.tuple_congr fun c hc => ?_
  obtain ⟨kind, hkind⟩ :=
    ValueKind.exists_has_of_mem hkinds (List.mem_map.mpr ⟨c, hc, rfl⟩)
  exact hkind.eq_of_same (.inr (Table.same_value h hc))

/-! ### Tables -/

/-- The rows of a table are those its log leaves; every key in them and in the log is of the given
kinds, and no two rows have the same. -/
structure Table.Kept (t : Table) (kinds : List ValueKind) (log : List ChangeRecord)
    (rows : List StoredRow) : Prop where
  live : ∀ stored, stored ∈ rows ↔ Live t log stored
  distinct : (rows.map (·.key t)).Nodup
  keyed : ∀ stored ∈ rows, ValueKind.HasAll kinds (stored.key t)
  written : ∀ r ∈ log, r.table = t.name → ∀ values, r.values = some values →
    r.key = t.keyOf values
  named : ∀ r ∈ log, r.table = t.name → ∀ key, r.Concerns t key → ValueKind.HasAll kinds key

section

variable {rows : List StoredRow} {values old : Row} {txid position : Nat} {kind : ChangeKind}

theorem writes_iff {key : Row} {oldKey : Option Row} :
    ChangeRecord.Writes t stored ⟨t.name, kind, key, oldKey, some values, txid, position⟩ ↔
      stored = ⟨values, txid⟩ := by
  obtain ⟨storedValues, xmin⟩ := stored
  simp [ChangeRecord.Writes, eq_comm]

theorem concerns_iff {key : List Json} {after : Option Row} :
    ChangeRecord.Concerns t key ⟨t.name, kind, t.keyOf values, none, after, txid, position⟩ ↔
      values.tuple t.primaryKey = key := by
  simp [ChangeRecord.Concerns, Table.tuple_keyOf]

theorem concerns_move_iff {key : List Json} {after : Option Row} :
    ChangeRecord.Concerns t key
        ⟨t.name, kind, t.keyOf values, some (t.keyOf old), after, txid, position⟩ ↔
      values.tuple t.primaryKey = key ∨ old.tuple t.primaryKey = key := by
  simp [ChangeRecord.Concerns, Table.tuple_keyOf]

variable {effect : WriteEffect}

/-- What a record adds to a table that is kept: the log is longer by it, and its keys are of the
kinds. -/
theorem Table.Kept.logged (h : t.Kept kinds log rows)
    (hwritten : ∀ values, r.values = some values → r.key = t.keyOf values)
    (hnamed : ∀ key, r.Concerns t key → ValueKind.HasAll kinds key) {rows' : List StoredRow}
    (hlive : ∀ stored, stored ∈ rows' ↔
      r.Writes t stored ∨ stored ∈ rows ∧ ¬ r.Concerns t (stored.key t))
    (hdistinct : (rows'.map (·.key t)).Nodup)
    (hkeyed : ∀ stored ∈ rows', ValueKind.HasAll kinds (stored.key t)) :
    t.Kept kinds (log ++ [r]) rows' := by
  refine ⟨fun stored => ?_, hdistinct, hkeyed, ?_, ?_⟩
  · rw [live_concat, hlive, h.live]
  · intro s hs
    rcases List.mem_append.mp hs with hs | hs
    · exact h.written s hs
    · rw [List.mem_singleton.mp hs]
      exact fun _ => hwritten
  · intro s hs
    rcases List.mem_append.mp hs with hs | hs
    · exact h.named s hs
    · rw [List.mem_singleton.mp hs]
      exact fun _ => hnamed

theorem Table.Kept.insert (h : t.Kept kinds log rows)
    (hunique : t.checkUnique rows (t.keyOf values) = .ok ())
    (hadmits : List.Forall₂ ValueKind.Admits kinds (values.tuple t.primaryKey)) :
    t.Kept kinds
      (log ++ [⟨t.name, .insert, t.keyOf values, none, some values, txid, position⟩])
      (rows ++ [⟨values, txid⟩]) := by
  obtain ⟨hnull, hfresh⟩ := Table.of_checkUnique hunique
  have hhas := ValueKind.hasAll_of_admits hadmits hnull
  refine h.logged ?_ ?_ ?_ ?_ ?_
  · rintro _ ⟨⟩
    rfl
  · intro key hkey
    exact concerns_iff.mp hkey ▸ hhas
  · intro stored
    rw [writes_iff, concerns_iff, List.mem_append, List.mem_singleton, or_comm]
    refine or_congr_right ⟨fun hstored => ⟨hstored, ?_⟩, And.left⟩
    exact fun heq => hfresh stored hstored heq.symm
  · rw [List.map_append, List.nodup_append]
    refine ⟨h.distinct, List.nodup_singleton _, ?_⟩
    intro key hkey other hother
    obtain ⟨stored, hstored, rfl⟩ := List.mem_map.mp hkey
    rw [List.mem_singleton.mp hother]
    exact hfresh stored hstored
  · intro stored hstored
    rcases List.mem_append.mp hstored with hstored | hstored
    · exact h.keyed stored hstored
    · rw [List.mem_singleton.mp hstored]
      exact hhas

/-- A row among others: its key is none of theirs. -/
theorem Table.Kept.around {before after : List StoredRow} {row : StoredRow}
    (h : t.Kept kinds log (before ++ row :: after)) : ValueKind.HasAll kinds (row.key t) ∧
      (∀ stored ∈ before ++ after, ValueKind.HasAll kinds (stored.key t)) ∧
      (∀ stored ∈ before ++ after, row.key t ≠ stored.key t) ∧
      ((before ++ after).map (·.key t)).Nodup := by
  have hdistinct := h.distinct
  rw [List.map_append, List.map_cons, List.nodup_middle, ← List.map_append] at hdistinct
  obtain ⟨hrow, hrest⟩ := List.nodup_cons.mp hdistinct
  refine ⟨h.keyed row (by simp), fun stored hstored => h.keyed stored ?_, ?_, hrest⟩
  · rcases List.mem_append.mp hstored with hstored | hstored <;> simp [hstored]
  · intro stored hstored heq
    exact hrow (heq ▸ List.mem_map_of_mem hstored)

/-- A table keeps when one row gives way to another whose key is no other's. -/
theorem Table.Kept.replace {before after : List StoredRow} {row s : StoredRow}
    (h : t.Kept kinds log (before ++ row :: after)) (hkey : ValueKind.HasAll kinds (s.key t))
    (hfresh : ∀ stored ∈ before ++ after, s.key t ≠ stored.key t)
    (hwritten : ∀ values, r.values = some values → r.key = t.keyOf values)
    (hwrites : ∀ stored, r.Writes t stored ↔ stored = s)
    (hconcerns : ∀ key, r.Concerns t key ↔ s.key t = key ∨ row.key t = key) :
    t.Kept kinds (log ++ [r]) (before ++ s :: after) := by
  obtain ⟨hrow, hkeyed, hothers, hrest⟩ := h.around
  have hmem {item stored : StoredRow} :
      stored ∈ before ++ item :: after ↔ stored = item ∨ stored ∈ before ++ after := by
    rw [List.mem_append, List.mem_cons, List.mem_append]
    exact or_left_comm
  refine h.logged hwritten ?_ ?_ ?_ ?_
  · intro key hk
    rcases (hconcerns key).mp hk with rfl | rfl
    · exact hkey
    · exact hrow
  · intro stored
    rw [hwrites, hconcerns, hmem, hmem]
    refine or_congr_right ⟨fun hstored => ⟨.inr hstored, ?_⟩, ?_⟩
    · rintro (heq | heq)
      · exact hfresh stored hstored heq
      · exact hothers stored hstored heq
    · rintro ⟨rfl | hstored, hne⟩
      · exact absurd (.inr rfl) hne
      · exact hstored
  · rw [List.map_append, List.map_cons, List.nodup_middle, ← List.map_append]
    refine List.nodup_cons.mpr ⟨fun hmem => ?_, hrest⟩
    obtain ⟨stored, hstored, heq⟩ := List.mem_map.mp hmem
    exact hfresh stored hstored heq.symm
  · intro stored hstored
    rcases hmem.mp hstored with rfl | hstored
    · exact hkey
    · exact hkeyed stored hstored

theorem Table.Kept.delete {before after : List StoredRow} {row : StoredRow}
    (h : t.Kept kinds log (before ++ row :: after)) : t.Kept kinds
      (log ++ [⟨t.name, .delete, t.keyOf row.values, none, none, txid, position⟩])
      (before ++ after) := by
  obtain ⟨hrow, hkeyed, hothers, hrest⟩ := h.around
  refine h.logged ?_ ?_ ?_ hrest hkeyed
  · rintro _ ⟨⟩
  · intro key hk
    exact concerns_iff.mp hk ▸ hrow
  · intro stored
    rw [concerns_iff]
    constructor
    · intro hstored
      refine .inr ⟨?_, hothers stored hstored⟩
      rcases List.mem_append.mp hstored with hstored | hstored <;> simp [hstored]
    · rintro (hwrites | ⟨hstored, hne⟩)
      · exact absurd hwrites.2.1 (by simp)
      · rcases List.mem_append.mp hstored with hstored | hstored
        · exact List.mem_append_left _ hstored
        · rcases List.mem_cons.mp hstored with rfl | hstored
          · exact absurd rfl hne
          · exact List.mem_append_right _ hstored

/-- A write keeps a table. -/
theorem Table.Kept.write (h : t.Kept kinds log rows) (heffect : Database.Effect t rows txid effect)
    (hkinds : KeyKinds t kinds (log ++ effect.record.toList)) :
    t.Kept kinds (log ++ effect.record.toList) effect.rows := by
  have hadmits : ∀ r, effect.record = some r → r.table = t.name → ∀ values,
      r.values = some values →
      List.Forall₂ ValueKind.Admits kinds (values.tuple t.primaryKey) := by
    intro r hr
    exact hkinds r (List.mem_append_right _ (by simp [hr]))
  cases heffect with
  | nothing =>
    rw [show (Database.noEffect rows).record.toList = [] from rfl, List.append_nil]
    exact h
  | insert values hunique => exact h.insert hunique (hadmits _ rfl rfl values rfl)
  | update i old updated hold hsame =>
    obtain ⟨before, after, rfl, -, hset⟩ := exists_around hold
    obtain ⟨hrow, -, hothers, -⟩ := h.around
    have hkey : updated.tuple t.primaryKey = old.key t := Table.tuple_eq_of_same hsame hrow
    rw [hset]
    refine h.replace (s := ⟨updated, txid⟩) ?_ ?_ ?_ (fun _ => writes_iff) ?_
    · exact (congrArg (ValueKind.HasAll kinds) hkey).mpr hrow
    · exact fun stored hstored heq => hothers stored hstored (hkey.symm.trans heq)
    · rintro _ ⟨⟩
      rfl
    · intro key
      rw [concerns_iff, ← hkey]
      exact (or_self_iff).symm
  | move i old updated hold _ hunique =>
    obtain ⟨before, after, rfl, herase, hset⟩ := exists_around hold
    rw [herase] at hunique
    obtain ⟨hnull, hfresh⟩ := Table.of_checkUnique hunique
    rw [hset]
    refine h.replace (s := ⟨updated, txid⟩) ?_ ?_ ?_ (fun _ => writes_iff)
      (fun _ => concerns_move_iff)
    · exact ValueKind.hasAll_of_admits (hadmits _ rfl rfl updated rfl) hnull
    · exact fun stored hstored heq => hfresh stored hstored heq.symm
    · rintro _ ⟨⟩
      rfl
  | delete i old hold =>
    obtain ⟨before, after, rfl, herase, -⟩ := exists_around hold
    rw [herase]
    exact h.delete

end

/-- Records of another table leave a table as it was. -/
theorem Table.Kept.pass {rows : List StoredRow} (h : t.Kept kinds log rows)
    (hother : ∀ r ∈ records, r.table ≠ t.name) : t.Kept kinds (log ++ records) rows := by
  refine ⟨fun stored => ?_, h.distinct, h.keyed, ?_, ?_⟩
  · rw [h.live, live_append_iff]
    exact fun r hr => ⟨fun hc => hother r hr hc.1, fun hw => hother r hr hw.1⟩
  · intro r hr htable
    rcases List.mem_append.mp hr with hr | hr
    · exact h.written r hr htable
    · exact absurd htable (hother r hr)
  · intro r hr htable
    rcases List.mem_append.mp hr with hr | hr
    · exact h.named r hr htable
    · exact absurd htable (hother r hr)

namespace Database

variable {db db' : Database} {tables tables' : Tables} {schema : Schema}

theorem Effect.record_table {rows : List StoredRow} {txid : Nat} {effect : WriteEffect}
    (h : Effect t rows txid effect) (hr : effect.record = some r) : r.table = t.name := by
  cases h <;> cases hr <;> rfl

/-- The writes of a transaction keep a table. -/
theorem Wrote.kept {txid : Nat} (h : Wrote schema txid tables records tables')
    (hnames : ∀ name t, schema.table? name = some t → t.name = name)
    (ht : schema.table? t.name = some t) (hkept : t.Kept kinds log (tables.getD t.name []))
    (hkinds : KeyKinds t kinds (log ++ records)) :
    t.Kept kinds (log ++ records) (tables'.getD t.name []) := by
  induction h generalizing log with
  | nil =>
    rw [List.append_nil]
    exact hkept
  | @cons tables tables' records name other effect hother heffect _ ih =>
    rw [← List.append_assoc] at hkinds ⊢
    refine ih ?_ hkinds
    have hname := hnames name other hother
    rw [Keyed.getD_put]
    split
    · rename_i hsame
      subst hsame
      obtain rfl := Option.some.inj (ht.symm.trans hother)
      exact hkept.write heffect hkinds.of_append_left
    · rename_i hne
      refine hkept.pass fun r hr heq => hne ?_
      rw [← hname, ← heffect.record_table (by simpa using hr), heq]

theorem Moves.keepsSchema (h : Moves db db') : db'.schema = db.schema := by
  cases h with
  | commit hc => rcases commit_cases hc with ⟨-, rfl⟩ | ⟨_, _, -, -, rfl⟩ <;> rfl
  | openSlot name =>
    unfold Database.openSlot
    split <;> rfl
  | reclaim hc =>
    obtain ⟨_, -, rfl⟩ := reclaim_eq_ok hc
    rfl

theorem Reaches.keepsSchema (h : Reaches db db') : db'.schema = db.schema := by
  induction h with
  | refl => rfl
  | tail _ hm ih => exact hm.keepsSchema.trans ih

/-- In a database that is reached the log tells the rows of a table, and their keys differ. -/
theorem Reached.kept (h : db.Reached)
    (hnames : ∀ name t, db.schema.table? name = some t → t.name = name)
    (ht : db.schema.table? t.name = some t) (hkinds : KeyKinds t kinds db.log) :
    t.Kept kinds db.log (db.tables.getD t.name []) := by
  obtain ⟨schema, hreaches⟩ := h
  induction hreaches with
  | refl =>
    constructor <;> simp [Database.empty, Live, Keyed.getD]
  | @tail db db' _ hm ih =>
    have hschema := hm.keepsSchema
    rw [hschema] at hnames ht
    cases hm with
    | commit hc =>
      rcases commit_cases hc with ⟨-, rfl⟩ | ⟨records, tables, hwrote, rfl, rfl⟩
      · exact ih hnames ht hkinds
      have hkept := ih hnames ht hkinds.of_append_left
      have hwritten := hwrote.kept hnames ht hkept hkinds.of_numbered
      refine ⟨fun stored => ?_, hwritten.distinct, hwritten.keyed, ?_, ?_⟩
      · rw [hwritten.live, live_append_numbered]
      · intro r hr
        rcases List.mem_append.mp hr with hr | hr
        · exact hkept.written r hr
        · obtain ⟨r₀, hr₀, _, -, rfl⟩ := mem_numbered hr
          exact hwritten.written r₀ (List.mem_append_right _ hr₀)
      · intro r hr
        rcases List.mem_append.mp hr with hr | hr
        · exact hkept.named r hr
        · obtain ⟨r₀, hr₀, _, -, rfl⟩ := mem_numbered hr
          exact hwritten.named r₀ (List.mem_append_right _ hr₀)
    | openSlot name =>
      unfold Database.openSlot at hkinds ⊢
      split at hkinds
      · rename_i hfound
        rw [if_pos hfound]
        exact ih hnames ht hkinds
      · rename_i hfound
        rw [if_neg hfound]
        exact ih hnames ht hkinds
    | reclaim hc =>
      obtain ⟨_, -, rfl⟩ := reclaim_eq_ok hc
      exact ih hnames ht hkinds

end Database

end DocSync
