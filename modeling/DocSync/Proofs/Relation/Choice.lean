import DocSync.Proofs.Lists
import DocSync.Proofs.Relation.Explained
import DocSync.Relation.Sql

/-!
Which rows a write takes.  A server takes every row of which the condition written for the key is true; the
database in memory takes the first row that matches the key.  Main statement: a write in memory has the effect
that the statement has on a server just where the condition is true of at most one row and, as an empty key is
written as a condition that is never true, where an empty key meets an empty table.
-/

namespace DocSync

/-! ### Conditions -/

namespace Sql

/-- The conditions that keys are written as. -/
inductive Condition where
  | never
  | equals (column : String) (value : Json)
  | both (left right : Condition)

/-- Truth of two conditions together, where `none` is neither true nor false. -/
def conj : Option Bool → Option Bool → Option Bool
  | some false, _ | _, some false => some false
  | some true, some true => some true
  | _, _ => none

namespace Condition

def text : Condition → String
  | never => "FALSE"
  | equals column value => equation (column, value)
  | both left right => left.text ++ " AND " ++ right.text

/-- Truth of a condition of a row.  A value equals an untyped literal where the two match, and nothing can be said
of null. -/
def truth (row : Row) : Condition → Option Bool
  | never => some false
  | equals column value =>
    if (row.value column).isNull || value.isNull then none else some ((row.value column).sqlMatches value)
  | both left right => conj (left.truth row) (right.truth row)

/-- Whether a statement takes a row: its condition must be true, not merely other than false. -/
def accepts (c : Condition) (row : Row) : Bool := c.truth row == some true

/-- The condition of a key. -/
def ofKey : Row → Condition
  | [] => never
  | [(column, value)] => equals column value
  | (column, value) :: rest => both (equals column value) (ofKey rest)

theorem ofKey_cons_cons (entry next : String × Json) (rest : Row) :
    ofKey (entry :: next :: rest) = both (equals entry.1 entry.2) (ofKey (next :: rest)) := rfl

theorem text_ofKey (key : Row) : (ofKey key).text = keyCondition key := by
  cases key with
  | nil => rfl
  | cons entry rest =>
    show (ofKey (entry :: rest)).text = " AND ".intercalate ((entry :: rest).map equation)
    induction rest generalizing entry with
    | nil => rfl
    | cons next rest ih =>
      rw [ofKey_cons_cons, text, ih, text, List.map_cons, List.map_cons, List.map_cons,
        String.intercalate_cons_cons]

@[simp] theorem accepts_never (row : Row) : never.accepts row = false := rfl

@[simp] theorem accepts_equals (column : String) (value : Json) (row : Row) :
    (equals column value).accepts row = (row.value column).sqlMatches value := by
  cases hnull : (row.value column).isNull || value.isNull <;>
    simp [accepts, truth, Json.sqlMatches, hnull]

theorem conj_eq_true {a b : Option Bool} : conj a b = some true ↔ a = some true ∧ b = some true := by
  rcases a with _ | _ | _ <;> rcases b with _ | _ | _ <;> simp [conj]

@[simp] theorem accepts_both (left right : Condition) (row : Row) :
    (both left right).accepts row = (left.accepts row && right.accepts row) := by
  rw [Bool.eq_iff_iff, Bool.and_eq_true]
  simp only [accepts, truth, beq_iff_eq, conj_eq_true]

/-- The condition of a key is true of the rows that match the key, unless the key is empty. -/
theorem accepts_ofKey {key : Row} (hkey : key ≠ []) (row : Row) :
    (ofKey key).accepts row = row.matchesKey key := by
  induction key with
  | nil => contradiction
  | cons entry rest ih =>
    cases rest with
    | nil => simp [ofKey, Row.matchesKey]
    | cons next rest => simp [ofKey_cons_cons, ih, Row.matchesKey]

end Condition

end Sql

open Sql (Condition)

/-! ### Writes -/

namespace Query

/-- The key by which an update or a delete names its rows. -/
def key? : Query → Option Row
  | update _ key _ | delete _ key => some key
  | select _ | insert _ _ => none

/-- The text of an update or a delete has the condition of its key. -/
theorem exists_render_eq {query : Query} {key : Row} (h : query.key? = some key) (schema : String) :
    ∃ command, Sql.render schema query =
      command ++ " WHERE " ++ (Condition.ofKey key).text ++ " RETURNING *" := by
  cases query with
  | select | insert => contradiction
  | update table _ values =>
    cases h
    exact ⟨_, by rw [Condition.text_ofKey]; rfl⟩
  | delete table _ =>
    cases h
    exact ⟨_, by rw [Condition.text_ofKey]; rfl⟩

/-- What an update or a delete answers with for a row that it takes, and what it leaves of the row. -/
def outcome (txid : Nat) : Query → StoredRow → Row × List StoredRow
  | update _ _ changes, row =>
    (Database.changed row.values changes, [⟨Database.changed row.values changes, txid⟩])
  | _, row => (row.values, [])

/-- What a statement answers with and leaves of a table, when it takes the rows with a flag. -/
def written (query : Query) (txid : Nat) (flagged : List (StoredRow × Bool)) : List Row × List StoredRow :=
  (flagged.flatMap fun (row, taken) => if taken then [(query.outcome txid row).1] else [],
    flagged.flatMap fun (row, taken) => if taken then (query.outcome txid row).2 else [row])

end Query

/-- The rows of a table, a flag on each that is chosen. -/
def everyMatch (chosen : StoredRow → Bool) (rows : List StoredRow) : List (StoredRow × Bool) :=
  rows.map fun row => (row, chosen row)

/-- The rows of a table, a flag on the first that is chosen. -/
def firstMatch (chosen : StoredRow → Bool) : List StoredRow → List (StoredRow × Bool)
  | [] => []
  | row :: rest => if chosen row then (row, true) :: everyMatch (fun _ => false) rest
    else (row, false) :: firstMatch chosen rest

section

variable {chosen : StoredRow → Bool} {rows before after : List StoredRow} {row : StoredRow}

theorem everyMatch_of_none (h : ∀ row ∈ rows, ¬ chosen row) :
    everyMatch chosen rows = everyMatch (fun _ => false) rows :=
  List.map_congr_left fun row hrow => by simp [h row hrow]

/-- Where no more than one row is chosen, the first is every one. -/
theorem firstMatch_eq_everyMatch (h : rows.countP chosen ≤ 1) :
    firstMatch chosen rows = everyMatch chosen rows := by
  induction rows with
  | nil => rfl
  | cons row rest ih =>
    by_cases hrow : chosen row
    · rw [List.countP_cons_of_pos hrow] at h
      have hrest : ∀ other ∈ rest, ¬ chosen other := List.countP_eq_zero.mp (by omega)
      rw [firstMatch, if_pos hrow, ← everyMatch_of_none hrest, everyMatch, everyMatch, List.map_cons, hrow]
    · rw [List.countP_cons_of_neg hrow] at h
      simp [firstMatch, hrow, ih h, everyMatch]

theorem firstMatch_of_none (h : ∀ row ∈ rows, ¬ chosen row) :
    firstMatch chosen rows = everyMatch (fun _ => false) rows := by
  rw [firstMatch_eq_everyMatch (by rw [List.countP_eq_zero.mpr h]; exact Nat.zero_le 1), everyMatch_of_none h]

theorem firstMatch_around (hbefore : ∀ other ∈ before, ¬ chosen other) (hrow : chosen row) :
    firstMatch chosen (before ++ row :: after) =
      everyMatch (fun _ => false) before ++ (row, true) :: everyMatch (fun _ => false) after := by
  induction before with
  | nil => simp [firstMatch, everyMatch, hrow]
  | cons first before ih =>
    obtain ⟨hfirst, hbefore⟩ := List.forall_mem_cons.mp hbefore
    simp [firstMatch, hfirst, ih hbefore, everyMatch]

theorem countP_everyMatch : (everyMatch chosen rows).countP Prod.snd = rows.countP chosen :=
  List.countP_map

theorem countP_firstMatch : (firstMatch chosen rows).countP Prod.snd = min 1 (rows.countP chosen) := by
  induction rows with
  | nil => rfl
  | cons row rest ih =>
    by_cases hrow : chosen row
    · have hrest : (everyMatch (fun _ => false) rest).countP Prod.snd = 0 := by simp [countP_everyMatch]
      simp [firstMatch, hrow, hrest]
    · simp [firstMatch, hrow, ih]

namespace Query

variable {query : Query} {txid : Nat} {flagged others : List (StoredRow × Bool)}

theorem written_append : query.written txid (flagged ++ others) =
    ((query.written txid flagged).1 ++ (query.written txid others).1,
      (query.written txid flagged).2 ++ (query.written txid others).2) := by
  simp [written]

theorem written_cons_taken : query.written txid ((row, true) :: others) =
    ((query.outcome txid row).1 :: (query.written txid others).1,
      (query.outcome txid row).2 ++ (query.written txid others).2) := rfl

theorem written_nothing : query.written txid (everyMatch (fun _ => false) rows) = ([], rows) := by
  simp [written, everyMatch, List.flatMap_map]

/-- A statement answers with a row for each row that it takes. -/
theorem length_written : (query.written txid flagged).1.length = flagged.countP Prod.snd := by
  induction flagged with
  | nil => rfl
  | cons entry rest ih =>
    obtain ⟨row, _ | _⟩ := entry
    · simpa [written] using ih
    · simpa [written] using ih

theorem written_firstMatch_of_none (h : ∀ row ∈ rows, ¬ chosen row) :
    query.written txid (firstMatch chosen rows) = ([], rows) := by
  rw [firstMatch_of_none h, written_nothing]

theorem written_firstMatch_around (hbefore : ∀ other ∈ before, ¬ chosen other) (hrow : chosen row) :
    query.written txid (firstMatch chosen (before ++ row :: after)) =
      ([(query.outcome txid row).1], before ++ ((query.outcome txid row).2 ++ after)) := by
  rw [firstMatch_around hbefore hrow, written_append, written_cons_taken, written_nothing, written_nothing,
    List.nil_append]

end Query

end

namespace Database

variable {schema : Schema} {tables : Tables} {name : String} {query : Query} {effect : WriteEffect}
  {rows : List StoredRow} {t : Table} {key changes : Row} {txid : Nat}

/-- What a delete in memory answers with and leaves. -/
theorem deleteRow_written :
    ((deleteRow t rows key txid).affected, (deleteRow t rows key txid).rows) =
      (Query.delete name key).written txid (firstMatch (·.values.matchesKey key) rows) := by
  rcases deleteRow_cases t rows key txid with ⟨hnone, heffect⟩ | ⟨i, old, hfind, hold, heffect⟩
  · rw [heffect, Query.written_firstMatch_of_none (by simpa using hnone)]
    rfl
  · obtain ⟨before, after, rfl, hbefore, hmatch, herase, -⟩ := exists_around_findIdx hfind hold
    rw [heffect, herase, Query.written_firstMatch_around hbefore hmatch]
    rfl

/-- What an update in memory answers with and leaves. -/
theorem updateRow_written (h : updateRow t rows key changes txid = .ok effect) :
    (effect.affected, effect.rows) =
      (Query.update name key changes).written txid (firstMatch (·.values.matchesKey key) rows) := by
  rcases updateRow_eq_ok h with ⟨hnone, rfl⟩ | ⟨i, old, updated, hfind, hold, rfl, hcases⟩
  · rw [Query.written_firstMatch_of_none (by simpa using hnone)]
    rfl
  · obtain ⟨before, after, rfl, hbefore, hmatch, -, hset⟩ := exists_around_findIdx hfind hold
    rw [Query.written_firstMatch_around hbefore hmatch]
    rcases hcases with ⟨-, rfl⟩ | ⟨-, -, rfl⟩ <;> rw [hset] <;> rfl

/-- A write in memory takes the first row that matches its key. -/
theorem effectOf_written (h : effectOf schema tables query txid = .ok (name, effect))
    (hkey : query.key? = some key) :
    (effect.affected, effect.rows) =
      query.written txid (firstMatch (·.values.matchesKey key) (tables.getD name [])) := by
  cases query with
  | select | insert => contradiction
  | update written _ changes =>
    cases hkey
    obtain ⟨t, -, h⟩ := Except.bind_eq_ok h
    obtain ⟨effect', heffect, h⟩ := Except.bind_eq_ok h
    obtain ⟨rfl, rfl⟩ := Prod.mk.inj (Except.ok.inj h)
    exact updateRow_written heffect
  | delete written _ =>
    cases hkey
    obtain ⟨t, -, h⟩ := Except.bind_eq_ok h
    obtain ⟨rfl, rfl⟩ := Prod.mk.inj (Except.ok.inj h)
    exact deleteRow_written

/-- The rows of which the condition of a key is true. -/
def acceptedRows (key : Row) (rows : List StoredRow) : List (StoredRow × Bool) :=
  everyMatch ((Condition.ofKey key).accepts ·.values) rows

/-- The first row that matches a key is every row that its condition accepts. -/
theorem firstMatch_eq_acceptedRows (hkey : key ≠ [])
    (h : rows.countP ((Condition.ofKey key).accepts ·.values) ≤ 1) :
    firstMatch (·.values.matchesKey key) rows = acceptedRows key rows := by
  simp only [acceptedRows, Condition.accepts_ofKey hkey] at h ⊢
  exact firstMatch_eq_everyMatch h

/-- The first row that matches a key makes the effect of every row that its condition accepts just where these
are no more than one and, with an empty key, the table is empty. -/
theorem written_acceptedRows_iff :
    query.written txid (firstMatch (·.values.matchesKey key) rows) = query.written txid (acceptedRows key rows) ↔
      if key = [] then rows = [] else rows.countP ((Condition.ofKey key).accepts ·.values) ≤ 1 := by
  constructor
  · intro heq
    -- Each effect answers with one row for each row that it takes, so equal effects take equally many.
    have hcount := congrArg (List.length ∘ Prod.fst) heq
    simp only [Function.comp_apply, Query.length_written, countP_firstMatch, acceptedRows, countP_everyMatch]
      at hcount
    split
    · rename_i hkey
      subst hkey
      cases rows with
      | nil => rfl
      | cons row rest => simp [Row.matchesKey, Condition.ofKey] at hcount
    · rename_i hkey
      simp only [Condition.accepts_ofKey hkey] at hcount ⊢
      omega
  · split
    · rintro rfl
      rfl
    · rename_i hkey
      exact fun h => by rw [firstMatch_eq_acceptedRows hkey h]

/-- **A write in memory takes one row where its statement takes all.**  The statement has the condition of the key.  In
memory the write takes the first row that matches the key.  That is the effect of taking every row of which the
condition is true just where it is true of no more than one row; an empty key, whose condition is never true, has that
effect on a table without rows only. -/
theorem effectOf_eq_accepted_iff (h : effectOf schema tables query txid = .ok (name, effect))
    (hkey : query.key? = some key) :
    (∀ server, ∃ command, Sql.render server query =
        command ++ " WHERE " ++ (Condition.ofKey key).text ++ " RETURNING *") ∧
      (effect.affected, effect.rows) =
        query.written txid (firstMatch (·.values.matchesKey key) (tables.getD name [])) ∧
      ((effect.affected, effect.rows) = query.written txid (acceptedRows key (tables.getD name [])) ↔
        if key = [] then tables.getD name [] = []
        else (tables.getD name []).countP ((Condition.ofKey key).accepts ·.values) ≤ 1) := by
  have hwritten := effectOf_written h hkey
  exact ⟨Query.exists_render_eq hkey, hwritten, hwritten ▸ written_acceptedRows_iff⟩

/-- Benches, named by their room and their code. -/
def benchTable : Table := ⟨"bench", [⟨"room", "text"⟩, ⟨"code", "text"⟩], ["room", "code"], []⟩

def benches : List StoredRow :=
  [⟨[("room", .string "a"), ("code", .string "1")], 1⟩, ⟨[("room", .string "a"), ("code", .string "2")], 2⟩]

/-- What is left of the benches without the second one. -/
def secondRemoved : WriteEffect :=
  ⟨[[("room", .string "a"), ("code", .string "2")]],
    some ⟨"bench", .delete, [("room", .string "a"), ("code", .string "2")], none, none, 3, 0⟩,
    [⟨[("room", .string "a"), ("code", .string "1")], 1⟩]⟩

theorem effectOf_eq_accepted_iff_of_code :
    effectOf (.ofTables [benchTable]) [("bench", benches)] (.delete "bench" [("code", .string "2")]) 3 =
        .ok ("bench", secondRemoved) ∧
      (secondRemoved.affected, secondRemoved.rows) =
        (Query.delete "bench" [("code", .string "2")]).written 3 (acceptedRows [("code", .string "2")] benches) := by
  have heffect : effectOf (.ofTables [benchTable]) [("bench", benches)] (.delete "bench" [("code", .string "2")]) 3 =
      .ok ("bench", secondRemoved) := rfl
  obtain ⟨-, -, hiff⟩ := effectOf_eq_accepted_iff heffect rfl
  exact ⟨heffect, hiff.mpr (by decide)⟩

/-- Of two benches of a room, a delete by the room takes one where its condition is true of both; a delete by an
empty key takes one where its condition is true of neither. -/
theorem deletes_first_bench :
    (∃ effect, effectOf (.ofTables [benchTable]) [("bench", benches)] (.delete "bench" [("room", .string "a")]) 3 =
        .ok ("bench", effect) ∧ effect.rows.length = 1 ∧
      ∀ row ∈ benches, (Condition.ofKey [("room", .string "a")]).accepts row.values) ∧
    (∃ effect, effectOf (.ofTables [benchTable]) [("bench", benches)] (.delete "bench" []) 3 =
        .ok ("bench", effect) ∧ effect.rows.length = 1 ∧
      ∀ row ∈ benches, ¬ (Condition.ofKey []).accepts row.values) := by
  refine ⟨⟨_, rfl, rfl, ?_⟩, ⟨_, rfl, rfl, ?_⟩⟩ <;> decide

/-- The key of a stored row names that row alone, as long as no row matches the key of another. -/
theorem countP_accepts_keyOf {before after : List StoredRow} {row : StoredRow}
    (h : t.Apart (before ++ row :: after)) (hkey : t.keyOf row.values ≠ []) :
    (before ++ row :: after).countP ((Condition.ofKey (t.keyOf row.values)).accepts ·.values) = 1 := by
  obtain ⟨-, -, hfree⟩ := Table.apart_around.mp h
  have hothers : (before ++ after).countP (·.values.matchesKey (t.keyOf row.values)) = 0 :=
    List.countP_eq_zero.mpr hfree
  have hself : row.values.matchesKey (t.keyOf row.values) := h.first.1
  simp only [Condition.accepts_ofKey hkey]
  rw [List.perm_middle.countP_eq, List.countP_cons, hothers, if_pos hself]

/-- A write that names a stored row by its key does what its statement does. -/
theorem effectOf_keyOf (h : effectOf schema tables query txid = .ok (name, effect))
    (ht : schema.table? name = some t) (hapart : TablesApart schema tables) {row : StoredRow}
    (hrow : row ∈ tables.getD name []) (hkey : t.keyOf row.values ≠ [])
    (hquery : query.key? = some (t.keyOf row.values)) :
    (effect.affected, effect.rows) =
      query.written txid (acceptedRows (t.keyOf row.values) (tables.getD name [])) := by
  obtain ⟨before, after, hsplit⟩ := List.append_of_mem hrow
  have hone := countP_accepts_keyOf (hsplit ▸ hapart name t ht) hkey
  rw [effectOf_written h hquery, firstMatch_eq_acceptedRows hkey]
  rw [hsplit, hone]

end Database

end DocSync
