import DocSync.Proofs.Document.Joined
import DocSync.Proofs.Relation.Replay

/-!
Primary keys.  Whatever a database went through, no key of a row has a null, and keys of one kind differ
from row to row.  So the keys of a node can be compared as soon as its columns hold one kind each.
-/

namespace DocSync

open ValueKind (HasAll Admits)

namespace Table

variable {t : Table} {kinds : List ValueKind}

/-- No key has a null, and keys of one kind differ. -/
structure Unique (t : Table) (rows : List StoredRow) : Prop where
  present : ∀ stored ∈ rows, (stored.key t).any Json.isNull = false
  distinct : rows.Pairwise fun a b => ∀ kinds, HasAll kinds (a.key t) → a.key t ≠ b.key t

variable {rows before after : List StoredRow} {row other : StoredRow} {txid : Nat}
  {effect : WriteEffect}

theorem Unique.nil (t : Table) : t.Unique [] := ⟨by simp, .nil⟩

theorem unique_around : t.Unique (before ++ row :: after) ↔
    t.Unique (before ++ after) ∧ (row.key t).any Json.isNull = false ∧
      ∀ stored ∈ before ++ after, ∀ kinds, HasAll kinds (row.key t) → row.key t ≠ stored.key t := by
  have hperm : (before ++ row :: after).Perm (row :: (before ++ after)) := List.perm_middle
  have hsymm : ∀ a b : StoredRow, (∀ kinds, HasAll kinds (a.key t) → a.key t ≠ b.key t) →
      ∀ kinds, HasAll kinds (b.key t) → b.key t ≠ a.key t :=
    fun a b h kinds hkinds heq => h kinds (heq ▸ hkinds) heq.symm
  constructor
  · rintro ⟨hpresent, hdistinct⟩
    obtain ⟨hrow, hrest⟩ := List.pairwise_cons.mp (hperm.pairwise hdistinct fun {a b} => hsymm a b)
    have hothers := fun stored hstored => hpresent stored
      (hperm.mem_iff.mpr (List.mem_cons_of_mem row hstored))
    exact ⟨⟨hothers, hrest⟩, hpresent row (by simp), hrow⟩
  · rintro ⟨⟨hpresent, hdistinct⟩, hrow, hfresh⟩
    refine ⟨fun stored hstored => ?_, hperm.symm.pairwise
      (List.pairwise_cons.mpr ⟨hfresh, hdistinct⟩) fun {a b} => hsymm a b⟩
    rcases List.mem_cons.mp (hperm.mem_iff.mp hstored) with rfl | hstored
    · exact hrow
    · exact hpresent stored hstored

/-- One row may give way to another whose key is no other's. -/
theorem Unique.replace (h : t.Unique (before ++ row :: after))
    (hpresent : (other.key t).any Json.isNull = false)
    (hfresh : ∀ stored ∈ before ++ after, ∀ kinds, HasAll kinds (other.key t) →
      other.key t ≠ stored.key t) : t.Unique (before ++ other :: after) :=
  unique_around.mpr ⟨(unique_around.mp h).1, hpresent, hfresh⟩

/-- A write keeps keys apart. -/
theorem Unique.write (h : t.Unique rows) (heffect : Database.Effect t rows txid effect) :
    t.Unique effect.rows := by
  cases heffect with
  | nothing => exact h
  | insert values hunique =>
    obtain ⟨hpresent, hfresh⟩ := Table.of_checkUnique hunique
    refine unique_around.mpr ⟨by rwa [List.append_nil], hpresent, fun stored hstored _ _ heq => ?_⟩
    rw [List.append_nil] at hstored
    exact hfresh stored hstored heq.symm
  | update i old updated hold hsame =>
    obtain ⟨before, after, rfl, -, hset⟩ := exists_around hold
    obtain ⟨-, hpresent, hfresh⟩ := unique_around.mp h
    rw [hset]
    refine h.replace ?_ fun stored hstored kinds hkinds heq => ?_
    · rw [List.any_eq_false] at hpresent ⊢
      intro v hv
      obtain ⟨c, hc, rfl⟩ := List.mem_map.mp hv
      rw [Json.isNull_eq_of_same (same_value hsame hc)]
      exact hpresent _ (List.mem_map.mpr ⟨c, hc, rfl⟩)
    · -- the row had this key before
      have hkept : old.key t = StoredRow.key ⟨updated, txid⟩ t := by
        refine Row.tuple_congr fun c hc => ?_
        obtain ⟨kind, hkind⟩ :=
          ValueKind.exists_has_of_mem hkinds (List.mem_map.mpr ⟨c, hc, rfl⟩)
        exact hkind.eq_of_same (.inl (same_value hsame hc))
      exact hfresh stored hstored kinds (hkept ▸ hkinds) (hkept.trans heq)
  | move i old updated hold _ hunique =>
    obtain ⟨before, after, rfl, herase, hset⟩ := exists_around hold
    rw [herase] at hunique
    obtain ⟨hpresent, hfresh⟩ := Table.of_checkUnique hunique
    rw [hset]
    exact h.replace hpresent fun stored hstored _ _ heq => hfresh stored hstored heq.symm
  | delete i old hold =>
    obtain ⟨before, after, rfl, herase, -⟩ := exists_around hold
    rw [herase]
    exact (unique_around.mp h).1

end Table

namespace Database

variable {schema : Schema} {db db' : Database}

/-- Every table of the schema keeps its keys apart. -/
def KeysApart (schema : Schema) (tables : Tables) : Prop :=
  ∀ name t, schema.table? name = some t → t.Unique (tables.getD name [])

theorem Wrote.keysApart {txid : Nat} {tables tables' : Tables} {records : List ChangeRecord}
    (h : Wrote schema txid tables records tables') (hapart : KeysApart schema tables) :
    KeysApart schema tables' := by
  induction h with
  | nil => exact hapart
  | @cons tables tables' records name t effect ht heffect _ ih =>
    refine ih fun other t' ht' => ?_
    rw [Keyed.getD_put]
    split
    · rename_i hname
      subst hname
      obtain rfl := Option.some.inj (ht.symm.trans ht')
      exact (hapart name t ht).write heffect
    · exact hapart other t' ht'

theorem Reached.keysApart (h : db.Reached) : KeysApart db.schema db.tables := by
  obtain ⟨schema, hreaches⟩ := h
  induction hreaches with
  | refl => exact fun name t _ => .nil t
  | @tail db db' _ hm ih =>
    rw [hm.keepsSchema]
    cases hm with
    | commit hc =>
      rcases commit_cases hc with ⟨-, rfl⟩ | ⟨records, tables, hwrote, -, rfl⟩
      · exact ih
      · exact hwrote.keysApart ih
    | openSlot name =>
      unfold Database.openSlot
      split <;> exact ih
    | reclaim hc =>
      obtain ⟨_, -, rfl⟩ := reclaim_eq_ok hc
      exact ih

end Database

/-- A fetched row has the key of the stored one. -/
theorem PlanNode.Fits.tuple_project {schema : Schema} {node : PlanNode} {t : Table}
    (h : node.Fits schema t) (hkey : ∀ c ∈ node.primaryKey, c ∉ Table.systemColumns)
    (stored : StoredRow) :
    Row.tuple (Database.project node.fetchColumns stored.visible) node.primaryKey = stored.key t := by
  rw [Row.tuple_project h.keyFetched, Row.tuple_congr fun c hc => StoredRow.value_visible (hkey c hc),
    h.key]
  rfl

/-- Where the key columns of a node hold values of one kind each, or null, the keys of its rows can be
compared. -/
theorem Database.Reached.keyedIn_of_plain {db : Database} (h : db.Reached) {node : PlanNode} {t : Table}
    (hfits : node.Fits db.schema t) (hplain : ∀ c ∈ node.primaryKey, c ∉ Table.systemColumns)
    {kinds : List ValueKind}
    (hadmits : ∀ row ∈ node.rowsIn db, List.Forall₂ Admits kinds (row.tuple node.primaryKey)) :
    node.KeyedIn db kinds := by
  have hkey := hfits.tuple_project hplain
  obtain ⟨hpresent, hdistinct⟩ := h.keysApart node.table t hfits.table
  have hkeyed : ∀ stored ∈ db.tables.getD node.table [], HasAll kinds (stored.key t) := by
    intro stored hstored
    refine ValueKind.hasAll_of_admits ?_ (hpresent stored hstored)
    rw [← hkey stored]
    exact hadmits _ (PlanNode.mem_rowsIn.mpr ⟨stored, hstored, rfl⟩)
  refine ⟨fun row hrow => ?_, ?_⟩
  · obtain ⟨stored, hstored, rfl⟩ := PlanNode.mem_rowsIn.mp hrow
    rw [hkey]
    exact hkeyed stored hstored
  · rw [PlanNode.rowsIn, Database.visibleRows, List.map_map, List.map_map]
    refine List.pairwise_map.mpr (hdistinct.imp_of_mem fun {a b} ha _ hne => ?_)
    simp only [Function.comp_apply, hkey]
    exact hne kinds (hkeyed a ha)

theorem Database.Reached.keyedIn {db : Database} (h : db.Reached) (hschema : db.schema.WellFormed)
    {node : PlanNode} {t : Table} (hfits : node.Fits db.schema t) {kinds : List ValueKind}
    (hadmits : ∀ row ∈ node.rowsIn db, List.Forall₂ Admits kinds (row.tuple node.primaryKey)) :
    node.KeyedIn db kinds :=
  have hwell := hschema.table _ _ hfits.table
  h.keyedIn_of_plain hfits (fun c hc => hwell.system c (hwell.key c (hfits.key ▸ hc))) hadmits

/-- What a plan reads of a database that is reached can be compared, where columns hold values of one
kind each. -/
theorem Plan.KindedIn.comparableIn_of_unreserved {db : Database} (hreached : db.Reached) {plan : Plan}
    (h : plan.KindedIn db) (hfits : plan.Fits db.schema) (hplan : plan.Unreserved) :
    plan.ComparableIn db := by
  induction h with
  | mk hadmits _ hjoins ih =>
    obtain ⟨t, hnode⟩ := hfits.node
    exact .mk (hreached.keyedIn_of_plain hnode hplan.key hadmits)
      (fun child hchild => ih child hchild (hfits.child hchild).1 (hplan.child hchild)) hjoins

theorem Plan.KindedIn.comparableIn {db : Database} (hreached : db.Reached)
    (hschema : db.schema.WellFormed) {plan : Plan} (h : plan.KindedIn db) (hfits : plan.Fits db.schema) :
    plan.ComparableIn db :=
  h.comparableIn_of_unreserved hreached hfits (hfits.unreserved hschema)

end DocSync
