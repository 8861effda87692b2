import DocSync.Proofs.Change.Operations
import DocSync.Proofs.Document.Faithful
import DocSync.Proofs.Relation.Unique

/-!
The rows of a plan and the records that name them.  In an orderly history the columns that a plan compares
held values of one kind each, and no row was moved to a key that was in use before.  Then the name of a row
is as good as its key: a row whose name no later record has is as it was, and the last record that names a
row that is there wrote it.
-/

namespace DocSync

open ValueKind (HasAll AdmitsAll)

/-- Whatever was ever written to columns of a table is null or of the kinds given. -/
def ColumnKinds (table : String) (columns : List String) (kinds : List ValueKind)
    (log : List ChangeRecord) : Prop :=
  ∀ r ∈ log, r.table = table → ∀ values, r.values = some values →
    AdmitsAll kinds (values.tuple columns)

instance (table : String) (columns : List String) (kinds : List ValueKind) (log : List ChangeRecord) :
    Decidable (ColumnKinds table columns kinds log) :=
  inferInstanceAs (Decidable (∀ r ∈ log, r.table = table → ∀ values ∈ r.values,
    AdmitsAll kinds (values.tuple columns)))

namespace Plan

/-- Each key column only ever held values of the kind of its table, and columns that are joined values of
one kind on either side. -/
inductive Kinded (kindOf : String → ValueKind) (log : List ChangeRecord) : Plan → Prop
  | mk {node : PlanNode} {children : List Plan} :
      ColumnKinds node.table node.primaryKey [kindOf node.table] log →
      (∀ child ∈ children, Kinded kindOf log child) →
      (∀ child ∈ children, ∀ join, child.node.join = some join → ∃ kinds,
        ColumnKinds node.table join.parent kinds log ∧
          ColumnKinds child.node.table join.child kinds log) →
      Kinded kindOf log ⟨node, children⟩

/-- No update moved a row of the plan to a key that a row of its table had before. -/
def Fresh (plan : Plan) (log : List ChangeRecord) : Prop :=
  ∀ node, plan.HasNode node → ∀ before r after, log = before ++ r :: after → r.table = node.table →
    r.oldKey.isSome → ∀ s ∈ before, s.table = r.table →
      s.key.tuple node.primaryKey ≠ r.key.tuple node.primaryKey

/-- A database that was reached through an orderly history, and a plan that fits it. -/
structure Orderly (kindOf : String → ValueKind) (plan : Plan) (db : Database) : Prop where
  reached : db.Reached
  named : ∀ name t, db.schema.table? name = some t → t.name = name
  fits : plan.Fits db.schema
  plain : plan.Unreserved
  single : ∀ node, plan.HasNode node → ∃ column, node.primaryKey = [column]
  kinded : plan.Kinded kindOf db.log
  fresh : plan.Fresh db.log

variable {kindOf : String → ValueKind} {plan : Plan} {node : PlanNode} {schema : Schema}
  {log more records : List ChangeRecord} {r s : ChangeRecord} {db db' : Database} {row : Row} {t : Table}

/-! ### Nodes of a plan -/

/-- What a plan hands down to its children holds of a part of it with the given node. -/
theorem HasNode.exists_part {P : Plan → Prop}
    (hinherit : ∀ plan, P plan → ∀ child ∈ plan.children, P child) (h : plan.HasNode node)
    (hplan : P plan) : ∃ part : Plan, P part ∧ part.node = node := by
  induction h with
  | root plan => exact ⟨plan, hplan, rfl⟩
  | child hchild _ ih => exact ih (hinherit _ hplan _ hchild)

theorem Fits.of_hasNode (h : plan.Fits schema) (hnode : plan.HasNode node) :
    ∃ t, node.Fits schema t := by
  obtain ⟨part, hpart, rfl⟩ :=
    hnode.exists_part (fun _ hfits child hchild => (hfits.child hchild).1) h
  exact hpart.node

theorem Unreserved.of_hasNode (h : plan.Unreserved) (hnode : plan.HasNode node) :
    ∀ c ∈ node.primaryKey, c ∉ Table.systemColumns := by
  obtain ⟨part, hpart, rfl⟩ :=
    hnode.exists_part (fun _ hplain child hchild => hplain.child hchild) h
  exact hpart.key

theorem Kinded.of_hasNode (h : plan.Kinded kindOf log) (hnode : plan.HasNode node) :
    ColumnKinds node.table node.primaryKey [kindOf node.table] log := by
  obtain ⟨part, hpart, rfl⟩ := hnode.exists_part
    (P := Kinded kindOf log) (fun _ hkinded child hchild => by
      obtain ⟨-, hchildren, -⟩ := hkinded
      exact hchildren child hchild) h
  obtain ⟨hkey, -, -⟩ := hpart
  exact hkey

mutual

/-- The entries of a plan stand for its nodes. -/
theorem exists_mem_arenaFrom_iff : ∀ {plan : Plan} {index : Nat} {parent : Option Nat} {depth : Nat}
    {node : PlanNode},
    (∃ e ∈ plan.arenaFrom index parent depth, e.node = node) ↔ plan.HasNode node
  | ⟨top, children⟩, index, parent, depth, node => by
    rw [arenaFrom, List.exists_mem_cons_iff]
    constructor
    · rintro (rfl | h)
      · exact .root _
      · obtain ⟨child, hchild, hnode⟩ := exists_mem_arenaOfChildren_iff.mp h
        exact .child hchild hnode
    · rintro (_ | ⟨hchild, hnode⟩)
      · exact .inl rfl
      · exact .inr (exists_mem_arenaOfChildren_iff.mpr ⟨_, hchild, hnode⟩)

theorem exists_mem_arenaOfChildren_iff : ∀ {children : List Plan} {next parent depth : Nat}
    {node : PlanNode},
    (∃ e ∈ arenaOfChildren next parent depth children, e.node = node) ↔
      ∃ child ∈ children, child.HasNode node
  | [], _, _, _, _ => by simp [arenaOfChildren]
  | child :: rest, next, parent, depth, node => by
    have hsplit : (∃ e ∈ arenaOfChildren next parent depth (child :: rest), e.node = node) ↔
        (∃ e ∈ child.arenaFrom next (some parent) depth, e.node = node) ∨
          ∃ e ∈ arenaOfChildren (next + child.size) parent depth rest, e.node = node := by
      simp only [arenaOfChildren, List.mem_append, or_and_right, exists_or]
    rw [hsplit, exists_mem_arenaFrom_iff, exists_mem_arenaOfChildren_iff, List.exists_mem_cons_iff]

end

/-- Nodes of one table have one primary key. -/
theorem Fits.primaryKeyOf? (h : plan.Fits schema) (hnode : plan.HasNode node) :
    plan.primaryKeyOf? node.table = some node.primaryKey := by
  obtain ⟨e, he, rfl⟩ : ∃ e ∈ plan.arena, e.node = node := exists_mem_arenaFrom_iff.mpr hnode
  obtain ⟨found, hfound⟩ := Option.isSome_iff_exists.mp
    (List.find?_isSome (p := fun other : Entry => other.node.table == e.node.table).mpr
      ⟨e, he, beq_self_eq_true _⟩)
  have htable : found.node.table = e.node.table := by simpa using List.find?_some hfound
  obtain ⟨t, ht⟩ := h.of_hasNode hnode
  obtain ⟨t', ht'⟩ :=
    h.of_hasNode (exists_mem_arenaFrom_iff.mp ⟨found, List.mem_of_find?_eq_some hfound, rfl⟩)
  obtain rfl := Option.some.inj (ht'.table.symm.trans (htable ▸ ht.table))
  rw [Plan.primaryKeyOf?, hfound, Option.map_some, ht'.key, ht.key]

end Plan

/-! ### Names -/

namespace ChangeRecord

variable {plan : Plan} {schema : Schema} {node : PlanNode} {row : Row} {r : ChangeRecord} {name : RowName}

/-- A record about a row of the plan is one of a table that some node reads. -/
theorem exists_node_of_rowName? (h : r.rowName? plan = some name) :
    ∃ node, plan.HasNode node ∧ node.table = r.table := by
  obtain ⟨columns, hcolumns, -⟩ := Option.map_eq_some_iff.mp h
  obtain ⟨e, hfind, -⟩ := Option.map_eq_some_iff.mp hcolumns
  exact ⟨e.node, Plan.exists_mem_arenaFrom_iff.mp ⟨e, List.mem_of_find?_eq_some hfind, rfl⟩,
    by simpa using List.find?_some hfind⟩

section

variable (hfits : plan.Fits schema) (hnode : plan.HasNode node)

include hfits hnode

theorem rowName?_eq (htable : r.table = node.table) :
    r.rowName? plan = some (node.table, Identity.ofKey (r.key.tuple node.primaryKey)) := by
  rw [rowName?, htable, hfits.primaryKeyOf? hnode]
  rfl

theorem rowName?_eq_some_iff : r.rowName? plan = some (node.nameOf row) ↔ r.table = node.table ∧
    Identity.ofKey (r.key.tuple node.primaryKey) = Identity.ofKey (row.tuple node.primaryKey) := by
  constructor
  · intro h
    have htable := table_of_rowName? h
    rw [rowName?_eq hfits hnode htable] at h
    exact ⟨htable, (Prod.mk.inj (Option.some.inj h)).2⟩
  · rintro ⟨htable, hkey⟩
    rw [rowName?_eq hfits hnode htable, hkey]
    rfl

theorem leftName?_eq_some_iff : r.leftName? plan = some (node.nameOf row) ↔ r.table = node.table ∧
    ∃ old, r.oldKey = some old ∧
      Identity.ofKey (old.tuple node.primaryKey) = Identity.ofKey (row.tuple node.primaryKey) := by
  constructor
  · intro h
    obtain ⟨columns, hcolumns, h⟩ := Option.bind_eq_some_iff.mp h
    obtain ⟨old, hold, h⟩ := Option.bind_eq_some_iff.mp h
    obtain ⟨htable, hkey⟩ := Prod.mk.inj (Option.some.inj h)
    rw [htable, hfits.primaryKeyOf? hnode] at hcolumns
    obtain rfl := Option.some.inj hcolumns
    exact ⟨htable, old, hold, hkey⟩
  · rintro ⟨htable, old, hold, hkey⟩
    rw [leftName?, htable, hfits.primaryKeyOf? hnode, hold]
    exact congrArg (fun identity => some (node.table, identity)) hkey

/-- A record names a row by its key or by its old key. -/
theorem nameOf_mem_names_iff : node.nameOf row ∈ r.names plan ↔ r.table = node.table ∧
    ∃ key ∈ r.key :: r.oldKey.toList,
      Identity.ofKey (key.tuple node.primaryKey) = Identity.ofKey (row.tuple node.primaryKey) := by
  rw [mem_names, rowName?_eq_some_iff hfits hnode, leftName?_eq_some_iff hfits hnode, ← and_or_left]
  simp only [List.exists_mem_cons_iff, Option.mem_toList]

end

end ChangeRecord

theorem ValueKind.HasAll.has_of_mem {kind : ValueKind} {key : List Json} (h : HasAll [kind] key) {v : Json}
    (hv : v ∈ key) : kind.Has v := by
  obtain ⟨u, _, hu, hnil, rfl⟩ := List.forall₂_cons_left_iff.mp h
  obtain rfl := List.forall₂_nil_left_iff.mp hnil
  exact List.mem_singleton.mp hv ▸ hu

/-- Keys of one value of a kind have different identities. -/
theorem ValueKind.HasAll.eq_of_ofKey {kind : ValueKind} {key key' : List Json} (h : HasAll [kind] key)
    (h' : HasAll [kind] key') (heq : Identity.ofKey key = Identity.ofKey key') : key = key' := by
  obtain ⟨v, _, hv, hnil, rfl⟩ := List.forall₂_cons_left_iff.mp h
  obtain ⟨v', _, hv', hnil', rfl⟩ := List.forall₂_cons_left_iff.mp h'
  obtain rfl := List.forall₂_nil_left_iff.mp hnil
  obtain rfl := List.forall₂_nil_left_iff.mp hnil'
  rw [Identity.ofKey_singleton, Identity.ofKey_singleton] at heq
  rw [hv.part_inj hv' heq]

/-! ### Orderly histories -/

namespace Plan.Orderly

variable {kindOf : String → ValueKind} {plan : Plan} {node : PlanNode} {more records : List ChangeRecord}
  {r s : ChangeRecord} {db db' : Database} {row : Row} {t : Table} {name : RowName}

/-- What is orderly now was so before. -/
theorem earlier (h : plan.Orderly kindOf db') (hreached : db.Reached) (hreaches : Database.Reaches db db') :
    plan.Orderly kindOf db := by
  obtain ⟨-, more, hlog, -⟩ := hreaches.log
  have hschema := hreaches.keepsSchema
  have hsubset {r : ChangeRecord} (hr : r ∈ db.log) : r ∈ db'.log :=
    hlog ▸ List.mem_append_left _ hr
  refine ⟨hreached, hschema ▸ h.named, hschema ▸ h.fits, h.plain, h.single, ?_, ?_⟩
  · have hkinded := h.kinded
    clear h
    induction hkinded with
    | mk hkey _ hjoins ih =>
      refine .mk (fun r hr => hkey r (hsubset hr)) ih fun child hchild join hjoin => ?_
      obtain ⟨kinds, habove, hbelow⟩ := hjoins child hchild join hjoin
      exact ⟨kinds, fun r hr => habove r (hsubset hr), fun r hr => hbelow r (hsubset hr)⟩
  · intro node hnode before r after heq
    exact h.fresh node hnode before r (after ++ more) (by rw [hlog, heq, List.append_assoc]; rfl)

section

variable (h : plan.Orderly kindOf db) (hnode : plan.HasNode node)

include h hnode

theorem exists_kept : ∃ t, node.Fits db.schema t ∧ t.name = node.table ∧
    t.Kept [kindOf node.table] db.log (db.tables.getD node.table []) := by
  obtain ⟨t, hfits⟩ := h.fits.of_hasNode hnode
  have hname := h.named _ _ hfits.table
  refine ⟨t, hfits, hname, ?_⟩
  rw [← hname]
  refine h.reached.kept h.named (hname ▸ hfits.table) ?_
  have hkinds := h.kinded.of_hasNode hnode
  rw [hfits.key, ← hname] at hkinds
  exact hkinds

/-- The key of a row has the kind of its table. -/
theorem hasAll_key (hrow : row ∈ node.rowsIn db) :
    HasAll [kindOf node.table] (row.tuple node.primaryKey) := by
  obtain ⟨t, hfits, -, hkept⟩ := h.exists_kept hnode
  obtain ⟨stored, hstored, rfl⟩ := PlanNode.mem_rowsIn.mp hrow
  rw [hfits.tuple_project (h.plain.of_hasNode hnode)]
  exact hkept.keyed stored hstored

/-- So has every key in a record of the table. -/
theorem hasAll_key_of_mem_log (hr : r ∈ db.log) (htable : r.table = node.table) :
    ∀ key ∈ r.key :: r.oldKey.toList, HasAll [kindOf node.table] (key.tuple node.primaryKey) := by
  obtain ⟨t, hfits, hname, hkept⟩ := h.exists_kept hnode
  have hnamed := hkept.named r hr (htable.trans hname.symm)
  rw [hfits.key]
  intro key hkey
  refine hnamed _ ⟨htable.trans hname.symm, ?_⟩
  rcases List.mem_cons.mp hkey with rfl | hkey
  · exact .inl rfl
  · exact .inr ⟨key, Option.mem_toList.mp hkey, rfl⟩

/-- A record names a row exactly when it concerns its key. -/
theorem nameOf_mem_names_iff (hfits : node.Fits db.schema t) (hr : r ∈ db.log)
    (hkey : HasAll [kindOf node.table] (row.tuple node.primaryKey)) :
    node.nameOf row ∈ r.names plan ↔ r.Concerns t (row.tuple node.primaryKey) := by
  have hname := h.named _ _ hfits.table
  rw [ChangeRecord.nameOf_mem_names_iff h.fits hnode, ChangeRecord.Concerns, hname, ← hfits.key]
  refine and_congr_right fun htable => ?_
  have hkeys := h.hasAll_key_of_mem_log hnode hr htable
  have hiff (key : Row) (hmem : key ∈ r.key :: r.oldKey.toList) :
      Identity.ofKey (key.tuple node.primaryKey) = Identity.ofKey (row.tuple node.primaryKey) ↔
        key.tuple node.primaryKey = row.tuple node.primaryKey :=
    ⟨(hkeys key hmem).eq_of_ofKey hkey, congrArg _⟩
  rw [List.exists_mem_cons_iff, hiff _ List.mem_cons_self]
  refine or_congr_right (exists_congr fun old => ?_)
  rw [Option.mem_toList]
  exact and_congr_right fun hold => hiff old (List.mem_cons_of_mem _ (Option.mem_toList.mpr hold))

/-- The row that a record was logged for was written by the last record that names it. -/
theorem exists_last (hrow : row ∈ node.rowsIn db) : ∃ before w after stored,
    db.log = before ++ w :: after ∧ (∀ s ∈ after, node.nameOf row ∉ s.names plan) ∧
    w.rowName? plan = some (node.nameOf row) ∧ stored ∈ db.tables.getD node.table [] ∧
    row = Database.project node.fetchColumns stored.visible ∧
    w.values = some stored.values ∧ w.key.tuple node.primaryKey = row.tuple node.primaryKey := by
  obtain ⟨t, hfits, hname, hkept⟩ := h.exists_kept hnode
  have hkey := h.hasAll_key hnode hrow
  obtain ⟨stored, hstored, rfl⟩ := PlanNode.mem_rowsIn.mp hrow
  have htuple := hfits.tuple_project (h.plain.of_hasNode hnode) stored
  obtain ⟨before, w, after, hlog, ⟨htable, hvalues, -⟩, hafter⟩ :=
    live_iff.mp ((hkept.live stored).mp hstored)
  have hw : w ∈ db.log := by simp [hlog]
  have hwritten := hkept.written w hw htable stored.values hvalues
  have hsame : w.key.tuple node.primaryKey =
      Row.tuple (Database.project node.fetchColumns stored.visible) node.primaryKey := by
    rw [htuple, hwritten, hfits.key, t.tuple_keyOf]
    rfl
  refine ⟨before, w, after, stored, hlog, fun s hs hnames => ?_, ?_, hstored, rfl, hvalues, hsame⟩
  · refine hafter s hs ?_
    rw [← htuple]
    exact (h.nameOf_mem_names_iff hnode hfits (by simp [hlog, hs]) hkey).mp hnames
  · exact (ChangeRecord.rowName?_eq_some_iff h.fits hnode).mpr ⟨htable.trans hname, by rw [hsame]⟩

end

/-- Rows that no later record names are as they were. -/
theorem mem_rowsIn_iff (h : plan.Orderly kindOf db) (h' : plan.Orderly kindOf db')
    (hschema : db'.schema = db.schema) (hlog : db'.log = db.log ++ more) (hnode : plan.HasNode node)
    (hname : ∀ r ∈ more, node.nameOf row ∉ r.names plan) :
    row ∈ node.rowsIn db ↔ row ∈ node.rowsIn db' := by
  obtain ⟨t, hfits, hname', hkept⟩ := h.exists_kept hnode
  obtain ⟨t', hfits', -, hkept'⟩ := h'.exists_kept hnode
  obtain rfl := Option.some.inj (hfits.table.symm.trans (hschema ▸ hfits'.table))
  rw [PlanNode.mem_rowsIn, PlanNode.mem_rowsIn]
  refine exists_congr fun stored => and_congr_left fun hrow => ?_
  rw [hkept.live, hkept'.live, hlog]
  refine (live_append_iff fun r hr => ?_).symm
  have hmem : r ∈ db'.log := hlog ▸ List.mem_append_right _ hr
  have hconcerns : ¬ r.Concerns t (stored.key t) := by
    rw [← hfits.tuple_project (h.plain.of_hasNode hnode) stored, ← hrow]
    rintro ⟨htable, hkey⟩
    refine hname r hr ((ChangeRecord.nameOf_mem_names_iff h.fits hnode).mpr
      ⟨htable.trans hname', ?_⟩)
    rw [← hfits.key] at hkey
    rcases hkey with hkey | ⟨old, hold, hkey⟩
    · exact ⟨_, List.mem_cons_self, by rw [hkey]⟩
    · exact ⟨old, List.mem_cons_of_mem _ (Option.mem_toList.mpr hold), by rw [hkey]⟩
  refine ⟨hconcerns, fun ⟨htable, hvalues, _⟩ => hconcerns ⟨htable, .inl ?_⟩⟩
  rw [hkept'.written r hmem htable stored.values hvalues, t.tuple_keyOf]
  rfl

/-- What a node reads was once written, whatever columns are looked at. -/
theorem exists_written (h : plan.Orderly kindOf db) (hnode : plan.HasNode node)
    (hrow : row ∈ node.rowsIn db) : ∃ r ∈ db.log, r.table = node.table ∧ ∃ values,
      r.values = some values ∧ ∀ columns : List String,
        (∀ c ∈ columns, c ∈ node.fetchColumns ∧ c ∉ Table.systemColumns) →
          row.tuple columns = values.tuple columns := by
  obtain ⟨before, w, after, stored, hlog, -, hname, -, rfl, hvalues, -⟩ := h.exists_last hnode hrow
  refine ⟨w, by simp [hlog], ChangeRecord.table_of_rowName? hname, _, hvalues, fun columns hcolumns => ?_⟩
  rw [Row.tuple_project fun c hc => (hcolumns c hc).1]
  exact Row.tuple_congr fun c hc => StoredRow.value_visible (hcolumns c hc).2

/-- What a plan reads after an orderly history can be compared. -/
theorem comparableIn (h : plan.Orderly kindOf db) : plan.ComparableIn db := by
  have hnodes : ∀ node, plan.HasNode node → ∀ row ∈ node.rowsIn db, ∃ r ∈ db.log,
      r.table = node.table ∧ ∃ values, r.values = some values ∧ ∀ columns : List String,
        (∀ c ∈ columns, c ∈ node.fetchColumns ∧ c ∉ Table.systemColumns) →
          row.tuple columns = values.tuple columns :=
    fun node hnode row hrow => h.exists_written hnode hrow
  refine Plan.KindedIn.comparableIn_of_unreserved h.reached ?_ h.fits h.plain
  have hfits := h.fits
  have hplain := h.plain
  have hkinded := h.kinded
  clear h
  induction hkinded with
  | @mk node children hkey _ hjoins ih =>
    have hadmits {part : PlanNode} (hpart : Plan.HasNode ⟨node, children⟩ part) {columns : List String}
        {kinds : List ValueKind} (hkinds : ColumnKinds part.table columns kinds db.log)
        (hcolumns : ∀ c ∈ columns, c ∈ part.fetchColumns ∧ c ∉ Table.systemColumns) :
        ∀ row ∈ part.rowsIn db, AdmitsAll kinds (row.tuple columns) := by
      intro row hrow
      obtain ⟨r, hr, htable, values, hvalues, htuple⟩ := hnodes part hpart row hrow
      rw [htuple columns hcolumns]
      exact hkinds r hr htable values hvalues
    obtain ⟨t, hnode⟩ := hfits.node
    refine .mk (hadmits (.root _) hkey fun c hc => ⟨hnode.keyFetched c hc, hplain.key c hc⟩)
      (fun child hchild => ih child hchild (fun part hpart => hnodes part (.child hchild hpart))
        (hfits.child hchild).1 (hplain.child hchild)) fun child hchild join hjoin => ?_
    obtain ⟨-, join', hjoin', hspans⟩ := hfits.child hchild
    obtain rfl := Option.some.inj (hjoin.symm.trans hjoin')
    obtain ⟨kinds, habove, hbelow⟩ := hjoins child hchild join hjoin
    exact ⟨kinds, hadmits (.root _) habove hspans.parent,
      hadmits (.child hchild (.root child)) hbelow hspans.child⟩

/-! ### What coalescing keeps of an orderly history -/

/-- A row was moved to a key once at most. -/
theorem eq_of_moved (h : plan.Orderly kindOf db) (hr : r ∈ db.log) (hs : s ∈ db.log)
    (hname : r.rowName? plan = some name) (hname' : s.rowName? plan = some name)
    (hmoved : r.oldKey.isSome) (hmoved' : s.oldKey.isSome) : s = r := by
  obtain ⟨node, hnode, htable⟩ := ChangeRecord.exists_node_of_rowName? hname
  have htable' : s.table = node.table :=
    (ChangeRecord.table_of_rowName? hname').trans
      ((ChangeRecord.table_of_rowName? hname).symm.trans htable.symm)
  have hkey : s.key.tuple node.primaryKey = r.key.tuple node.primaryKey := by
    refine (h.hasAll_key_of_mem_log hnode hs htable' _ List.mem_cons_self).eq_of_ofKey
      (h.hasAll_key_of_mem_log hnode hr htable.symm _ List.mem_cons_self) ?_
    rw [ChangeRecord.rowName?_eq h.fits hnode htable.symm] at hname
    rw [ChangeRecord.rowName?_eq h.fits hnode htable'] at hname'
    exact (Prod.mk.inj (Option.some.inj (hname'.trans hname.symm))).2
  obtain ⟨before, after, hlog⟩ := List.append_of_mem hr
  have hplace : s ∈ before ++ r :: after := hlog ▸ hs
  rcases List.mem_append.mp hplace with hbefore | hplace
  · exact absurd hkey (h.fresh node hnode before r after hlog htable.symm hmoved s hbefore
      (htable'.trans htable))
  rcases List.mem_cons.mp hplace with rfl | hafter
  · rfl
  · obtain ⟨between, rest, rfl⟩ := List.append_of_mem hafter
    refine absurd hkey.symm (h.fresh node hnode (before ++ r :: between) s rest ?_ htable' hmoved' r
      (by simp) (htable.symm.trans htable'.symm))
    rw [hlog, List.append_assoc]
    rfl

/-- Every row that records name is still named after coalescing. -/
theorem exists_coalesced (h : plan.Orderly kindOf db) (hrecords : ∀ r ∈ records, r ∈ db.log)
    (hr : r ∈ records) (hname : name ∈ r.names plan) : ∃ s ∈ coalesce plan records, name ∈ s.names plan := by
  rcases ChangeRecord.mem_names.mp hname with hrow | hleft
  · obtain ⟨s, hs, hrow⟩ := Coalesce.exists_kept_rowName.mpr ⟨r, hr, hrow⟩
    exact ⟨s, hs, ChangeRecord.mem_names.mpr (.inl hrow)⟩
  obtain ⟨row, hrow, old, hold⟩ := ChangeRecord.exists_of_leftName? hleft
  -- the last record that moved a row to this key is the one that did so first
  have hmoved : Coalesce.latestOldKey (Coalesce.about plan row records) ≠ none := by
    intro hnone
    rw [Coalesce.latestOldKey, List.getLast?_eq_none_iff, List.filterMap_eq_nil_iff] at hnone
    have := hnone r (Coalesce.mem_about.mpr ⟨hr, hrow⟩)
    rw [hold] at this
    contradiction
  obtain ⟨latest, hlatest⟩ := Option.ne_none_iff_exists'.mp hmoved
  obtain ⟨before, last, after, rfl, hlast, hlastOld, hafter⟩ := Coalesce.latestOldKey_about.mp hlatest
  have hsame : last = r := h.eq_of_moved (hrecords r hr) (hrecords last (by simp)) hrow hlast
    (by rw [hold]; rfl) (by rw [hlastOld]; rfl)
  obtain ⟨s, hs, hleft⟩ := Coalesce.exists_kept_leftName.mpr
    ⟨before, last, after, rfl, hsame ▸ hleft, fun s hs hs' => hafter s hs (hs'.trans hlast)⟩
  exact ⟨s, hs, ChangeRecord.mem_names.mpr (.inr hleft)⟩

/-- Coalescing leaves keys of the kinds that the records had. -/
theorem hasAll_key_of_mem_coalesce (h : plan.Orderly kindOf db) (hnode : plan.HasNode node)
    (hrecords : ∀ r ∈ records, r ∈ db.log) (hs : s ∈ coalesce plan records) (htable : s.table = node.table) :
    ∀ key ∈ s.key :: s.oldKey.toList, HasAll [kindOf node.table] (key.tuple node.primaryKey) := by
  obtain ⟨⟨name, _⟩, hmem, rfl⟩ := List.mem_map.mp hs
  obtain ⟨r, hlast, rfl⟩ := Coalesce.mem_kept.mp hmem
  have hr := (Coalesce.mem_about.mp (List.mem_of_getLast? hlast)).1
  intro key hkey
  rcases List.mem_cons.mp hkey with rfl | hkey
  · exact h.hasAll_key_of_mem_log hnode (hrecords r hr) htable _ List.mem_cons_self
  · have hold := Option.mem_toList.mp hkey
    obtain ⟨other, hother, hleft⟩ := List.mem_filterMap.mp (List.mem_of_getLast? hold)
    obtain ⟨hother, hname⟩ := Coalesce.mem_about.mp hother
    refine h.hasAll_key_of_mem_log hnode (hrecords other hother) ?_ key
      (List.mem_cons_of_mem _ (Option.mem_toList.mpr hleft))
    rw [ChangeRecord.table_of_rowName? hname, ← Coalesce.table_of_getLast?_about hlast]
    exact htable

end Plan.Orderly

end DocSync
