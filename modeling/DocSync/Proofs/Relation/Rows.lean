import DocSync.Proofs.Json.Text
import DocSync.Proofs.Keyed
import DocSync.Proofs.Node.Plan

/-!
Rows as the nodes of a plan read them, and joins between them.  A select of a node that fits the
schema does not fail; rows that are joined by the text of their columns also match as SQL compares
them.
-/

namespace DocSync

namespace Row

variable {row : Row} {columns fetched : List String}

theorem value_put (row : Row) (column other : String) (value : Json) :
    Row.value (row.put column value) other = if column = other then value else row.value other :=
  Keyed.getD_put row column other value .null

theorem value_project {c : String} (hc : c ∈ fetched) :
    Row.value (Database.project fetched row) c = row.value c := by
  simp only [Row.value, Keyed.getD, Database.project, Keyed.get?_ofEntries]
  simp [hc]

theorem tuple_congr {row' : Row} (h : ∀ c ∈ columns, row.value c = row'.value c) :
    row.tuple columns = row'.tuple columns :=
  List.map_congr_left h

theorem tuple_project (h : ∀ c ∈ columns, c ∈ fetched) :
    Row.tuple (Database.project fetched row) columns = row.tuple columns :=
  tuple_congr fun c hc => value_project (h c hc)

theorem length_tuple : (row.tuple columns).length = columns.length := List.length_map _

/-- Every number of the row is one that binary64 has. -/
def IsHeld (row : Row) : Prop := ∀ c, (row.value c).IsHeld

theorem IsHeld.project (h : row.IsHeld) (fetched : List String) :
    Row.IsHeld (Database.project fetched row) := by
  intro c
  by_cases hc : c ∈ fetched
  · rw [value_project hc]
    exact h c
  · simp only [Row.value, Keyed.getD, Database.project, Keyed.get?_ofEntries]
    simp [hc, Json.IsHeld]

end Row

theorem Row.matchesKey_project {row other : Row} {columns : List String} :
    row.matchesKey (Database.project columns other) =
      columns.all fun c => (row.value c).sqlMatches (other.value c) := by
  rw [Bool.eq_iff_iff, Row.matchesKey, List.all_eq_true, List.all_eq_true]
  constructor
  · exact fun h c hc => h (c, other.value c) (Keyed.mem_ofEntries.mpr ⟨hc, rfl⟩)
  · rintro h ⟨c, v⟩ hmem
    obtain ⟨hc, rfl⟩ := Keyed.mem_ofEntries.mp hmem
    exact h c hc

theorem Filter.tupleMatches_tuple {row other : Row} {columns : List String} :
    tupleMatches columns row (other.tuple columns) =
      columns.all fun c => (row.value c).sqlMatches (other.value c) := by
  induction columns with
  | nil => rfl
  | cons c rest ih =>
    rw [List.all_cons, ← ih]
    rfl

theorem StoredRow.value_visible {stored : StoredRow} {c : String} (hc : c ∉ Table.systemColumns) :
    stored.visible.value c = stored.values.value c := by
  have hne : "xmin" ≠ c := by
    rintro rfl
    simp [Table.systemColumns] at hc
  rw [visible, Row.value_put, if_neg hne]

/-- Every number in a table is one that binary64 has. -/
def Database.IsHeld (db : Database) : Prop :=
  ∀ table, ∀ stored ∈ db.tables.getD table [], stored.values.IsHeld

theorem StoredRow.isHeld_visible {stored : StoredRow} (h : stored.values.IsHeld) :
    stored.visible.IsHeld := by
  intro c
  rw [visible, Row.value_put]
  split
  · trivial
  · exact h c

/-! ### What a select gives -/

namespace Database

variable {db : Database} {t : Table}

theorem overlay_nil (db : Database) : db.overlay [] = .ok db.tables := rfl

theorem select_eq {s : Select} (ht : db.schema.table? s.table = some t) (hne : s.columns ≠ [])
    (hcolumns : ∀ c ∈ s.columns, t.isSelectable c) :
    db.select s [] = .ok ((chosenRows (visibleRows db.tables s.table) s).map (project s.columns)) := by
  have hfind : s.columns.find? (!t.isSelectable ·) = none := by
    simpa [List.find?_eq_none] using hcolumns
  have hcons : s.columns.isEmpty = false := by simpa using hne
  simp only [select, ht, overlay_nil, hcons, bind, Except.bind]
  simp [hfind, pure, Except.pure]

theorem chosenRows_perm (rows : List Row) (table : String) (columns : List String) (filter : Filter)
    (orderBy : List String) :
    (chosenRows rows ⟨table, columns, filter, orderBy, none, none⟩).Perm
      (rows.filter filter.accepts) := by
  simp only [chosenRows]
  split
  · exact .refl _
  · exact sortStable_perm _

end Database

namespace PlanNode

variable {schema : Schema} {db : Database} {node : PlanNode} {t : Table}

/-- The rows of the table of a node, as the node fetches them. -/
def rowsIn (node : PlanNode) (db : Database) : List Row :=
  (Database.visibleRows db.tables node.table).map (Database.project node.fetchColumns)

theorem mem_rowsIn {row : Row} :
    row ∈ node.rowsIn db ↔ ∃ stored ∈ db.tables.getD node.table [],
      row = Database.project node.fetchColumns stored.visible := by
  simp [rowsIn, Database.visibleRows, eq_comm]

theorem isHeld_of_mem_rowsIn (hheld : db.IsHeld) {row : Row} (h : row ∈ node.rowsIn db) :
    row.IsHeld := by
  obtain ⟨stored, hstored, rfl⟩ := mem_rowsIn.mp h
  exact (StoredRow.isHeld_visible (hheld _ _ hstored)).project _

/-- The rows of a node that a filter accepts, as one select reads them. -/
def rowsWhere (node : PlanNode) (db : Database) (filter : Filter) (orderBy : List String) : List Row :=
  (Database.chosenRows (Database.visibleRows db.tables node.table)
    ⟨node.table, node.fetchColumns, filter, orderBy, none, none⟩).map
      (Database.project node.fetchColumns)

/-- Filters over fetched columns accept a row as it is stored and as it is fetched. -/
theorem accepts_project {columns : List String} {tuples : List (List Json)} {row : Row}
    (h : ∀ c ∈ columns, c ∈ node.fetchColumns) :
    (Filter.among columns tuples).accepts (Database.project node.fetchColumns row) =
      (Filter.among columns tuples).accepts row := by
  have hmatches (values : List Json) :
      Filter.tupleMatches columns (Database.project node.fetchColumns row) values =
        Filter.tupleMatches columns row values := by
    unfold Filter.tupleMatches
    rw [Bool.eq_iff_iff]
    simp only [List.all_eq_true]
    refine forall₂_congr fun p hp => ?_
    obtain ⟨c, expected⟩ := p
    rw [Row.value_project (h c (List.of_mem_zip hp).1)]
  show tuples.any _ = tuples.any _
  rw [funext hmatches]

/-- A filter over fetched columns reads the fetched rows that it accepts. -/
theorem rowsWhere_perm {columns : List String} {tuples : List (List Json)}
    (h : ∀ c ∈ columns, c ∈ node.fetchColumns) (orderBy : List String) :
    (node.rowsWhere db (.among columns tuples) orderBy).Perm
      ((node.rowsIn db).filter (Filter.among columns tuples).accepts) := by
  refine ((Database.chosenRows_perm _ _ _ _ _).map _).trans (.of_eq ?_)
  rw [rowsIn, List.filter_map]
  congr 1
  exact List.filter_congr fun row _ => (accepts_project h).symm

theorem mem_rowsWhere {columns : List String} {tuples : List (List Json)}
    (h : ∀ c ∈ columns, c ∈ node.fetchColumns) {orderBy : List String} {row : Row} :
    row ∈ node.rowsWhere db (.among columns tuples) orderBy ↔
      row ∈ node.rowsIn db ∧ (Filter.among columns tuples).accepts row := by
  rw [(rowsWhere_perm h orderBy).mem_iff, List.mem_filter]

theorem mem_rowsWhere_all {orderBy : List String} {row : Row} :
    row ∈ node.rowsWhere db .all orderBy ↔ row ∈ node.rowsIn db := by
  refine (((Database.chosenRows_perm _ _ _ _ _).map _).mem_iff).trans ?_
  simp [rowsIn, Filter.accepts]

theorem Fits.fetchColumns_ne_nil (h : node.Fits schema t) : node.fetchColumns ≠ [] := by
  obtain ⟨c, hc⟩ := List.exists_mem_of_ne_nil _ h.keyed
  exact List.ne_nil_of_mem (h.keyFetched c hc)

/-- A select of what a node fetches does not fail. -/
theorem Fits.select_eq (h : node.Fits db.schema t) (filter : Filter) (orderBy : List String)
    (after : Option (List Json)) (limit : Option Nat) :
    db.select ⟨node.table, node.fetchColumns, filter, orderBy, after, limit⟩ [] =
      .ok ((Database.chosenRows (Database.visibleRows db.tables node.table)
        ⟨node.table, node.fetchColumns, filter, orderBy, after, limit⟩).map
          (Database.project node.fetchColumns)) :=
  Database.select_eq h.table h.fetchColumns_ne_nil h.selectable

end PlanNode

/-! ### Joins -/

theorem Json.isNull_eq_of_render_eq {a b : Json} (h : a.render = b.render) : a.isNull = b.isNull := by
  have hkind : a.kind = b.kind := by
    refine kind_eq_of_append_eq (s := []) (t := []) ?_
    rw [h]
  have hnull (v : Json) : v.isNull = (v.kind == Json.null.kind) := by
    cases v with
    | bool value => cases value <;> rfl
    | _ => rfl
  rw [hnull, hnull, hkind]

namespace Fetch

theorem any_isNull_of_keyText_eq {key key' : List Json} (h : keyText key = keyText key') :
    key.any Json.isNull = key'.any Json.isNull := by
  have htexts := Json.map_render_eq_of_keyText_eq h
  clear h
  induction key generalizing key' with
  | nil =>
    obtain rfl : key' = [] := by simpa using htexts.symm
    rfl
  | cons v rest ih =>
    cases key' with
    | nil => simp at htexts
    | cons v' rest' =>
      obtain ⟨hv, hrest⟩ := List.cons.inj htexts
      rw [List.any_cons, List.any_cons, Json.isNull_eq_of_render_eq hv, ih hrest]

end Fetch

/-- A tuple without nulls matches every tuple of its text. -/
theorem Filter.tupleMatches_of_keyText_eq {columns : List String} {row : Row} {values : List Json}
    (hrow : row.IsHeld) (hvalues : ∀ v ∈ values, v.IsHeld) (hnull : values.any Json.isNull = false)
    (h : Fetch.keyText (row.tuple columns) = Fetch.keyText values) :
    tupleMatches columns row values = true := by
  have htexts := Json.map_render_eq_of_keyText_eq h
  clear h
  induction columns generalizing values with
  | nil => rfl
  | cons c rest ih =>
    cases values with
    | nil => rfl
    | cons v values =>
      obtain ⟨hv, hrest⟩ := List.cons.inj htexts
      rw [List.any_cons, Bool.or_eq_false_iff] at hnull
      have hnull' : (row.value c).isNull = false := (Json.isNull_eq_of_render_eq hv).trans hnull.1
      have hfirst := Json.sqlMatches_of_render_eq (hrow c) (hvalues v (by simp)) hnull' hv
      have hothers := ih (fun v hv => hvalues v (by simp [hv])) hnull.2 hrest
      rw [tupleMatches, List.zip_cons_cons, List.all_cons, Bool.and_eq_true]
      exact ⟨hfirst, hothers⟩

/-- Matched tuples of one length have no nulls. -/
theorem Filter.any_isNull_of_tupleMatches {columns : List String} {row : Row} {values : List Json}
    (hlength : columns.length = values.length) (h : tupleMatches columns row values = true) :
    (row.tuple columns).any Json.isNull = false := by
  induction columns generalizing values with
  | nil => rfl
  | cons c rest ih =>
    cases values with
    | nil => simp at hlength
    | cons v values =>
      rw [tupleMatches, List.zip_cons_cons, List.all_cons, Bool.and_eq_true] at h
      have hnull : (row.value c).isNull = false := by
        by_contra hnull
        simp [Json.sqlMatches, hnull] at h
      rw [Row.tuple, List.map_cons, List.any_cons, hnull]
      exact ih (by simpa using hlength) h.2

/-- A child row hangs from a parent row: the joined columns have one text, and no nulls. -/
structure Join.Joins (join : Join) (parent child : Row) : Prop where
  text : Fetch.keyText (child.tuple join.child) = Fetch.keyText (parent.tuple join.parent)
  present : (child.tuple join.child).any Json.isNull = false

end DocSync
