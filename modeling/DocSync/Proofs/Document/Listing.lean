import DocSync.Proofs.Document.Fetch
import DocSync.Proofs.Json.Kinds
import DocSync.Sink.Memory
import Mathlib.Data.List.Destutter

/-!
What the `_meta` of a document lists: under each table and key column the values of the rows below the
root, all of them and nothing else.  Main statement: a document lists a key of one column exactly when
some row below the root has it, and so does every document of the same text.
-/

namespace DocSync

/-- A row at a node below the root. -/
def RowTree.HoldsBelow (plan : Plan) (tree : RowTree) (node : PlanNode) (row : Row) : Prop :=
  ∃ child slot, (child, slot) ∈ plan.children.zip tree.children ∧
    ∃ subtree ∈ slot, RowTree.Holds child subtree node row

namespace Meta

/-- The values recorded under a table and a column. -/
def values (found : Meta) (table column : String) : List Json :=
  Keyed.getD (Keyed.getD found table []) column []

/-- The row has the value in a key column of its node. -/
def Keys (node : PlanNode) (row : Row) (table column : String) (v : Json) : Prop :=
  node.table = table ∧ column ∈ node.primaryKey ∧ row.value column = v ∧ v.isNull = false

variable {found : Meta} {table column : String} {v : Json}

theorem mem_values_record {node : PlanNode} {row : Row} :
    v ∈ (found.record node row).values table column ↔
      v ∈ found.values table column ∨ Keys node row table column v := by
  have hfold : ∀ (key : List String) (columns : Keyed (List Json)),
      v ∈ (key.foldl (fun columns column =>
        let value := row.value column
        if value.isNull then columns
        else columns.putSorted column (columns.getD column [] ++ [value])) columns).getD column [] ↔
        v ∈ columns.getD column [] ∨ column ∈ key ∧ row.value column = v ∧ v.isNull = false := by
    intro key
    induction key with
    | nil => simp
    | cons first rest ih =>
      intro columns
      rw [List.foldl_cons, ih]
      dsimp only
      by_cases hnull : (row.value first).isNull = true
      · have hfirst : ¬ (column = first ∧ row.value column = v ∧ v.isNull = false) := by
          rintro ⟨rfl, rfl, hpresent⟩
          rw [hnull] at hpresent
          contradiction
        rw [if_pos hnull, List.mem_cons, or_and_right, or_iff_right hfirst]
      · rw [if_neg hnull, Keyed.getD_putSorted, List.mem_cons]
        by_cases hcolumn : first = column
        · subst hcolumn
          rw [if_pos rfl, List.mem_append, List.mem_singleton]
          constructor
          · rintro ((h | rfl) | ⟨-, h⟩)
            · exact .inl h
            · exact .inr ⟨.inl rfl, rfl, by simpa using hnull⟩
            · exact .inr ⟨.inl rfl, h⟩
          · rintro (h | ⟨-, h⟩)
            · exact .inl (.inl h)
            · exact .inl (.inr h.1.symm)
        · rw [if_neg hcolumn]
          simp [Ne.symm hcolumn]
  rw [record, values, Keyed.getD_putSorted, Keys]
  by_cases htable : node.table = table
  · subst htable
    rw [if_pos rfl, hfold]
    simp [values]
  · rw [if_neg htable]
    simp [htable, values]

end Meta

namespace Plan

open Meta (Keys)

variable {table column : String} {v : Json}

mutual

/-- What is recorded below a row: what was there, and the keys of the rows below it. -/
theorem mem_values_recordBelow : ∀ {plan : Plan} {tree : RowTree} {found : Meta},
    v ∈ (recordBelow found plan tree).values table column ↔ v ∈ found.values table column ∨
      ∃ node row, tree.HoldsBelow plan node row ∧ Keys node row table column v
  | ⟨node, children⟩, tree, found => by
    rw [recordBelow, mem_values_recordSlots]
    refine or_congr_right ?_
    constructor
    · rintro ⟨child, slot, hslot, subtree, hsubtree, node, row, hholds, hkeys⟩
      exact ⟨node, row, ⟨child, slot, hslot, subtree, hsubtree, hholds⟩, hkeys⟩
    · rintro ⟨node, row, ⟨child, slot, hslot, subtree, hsubtree, hholds⟩, hkeys⟩
      exact ⟨child, slot, hslot, subtree, hsubtree, node, row, hholds, hkeys⟩

theorem mem_values_recordSlots : ∀ {children : List Plan} {slots : List (List RowTree)} {found : Meta},
    v ∈ (recordSlots found children slots).values table column ↔ v ∈ found.values table column ∨
      ∃ child slot, (child, slot) ∈ children.zip slots ∧ ∃ subtree ∈ slot,
        ∃ node row, subtree.Holds child node row ∧ Keys node row table column v
  | [], slots, found => by simp [recordSlots]
  | _ :: _, [], found => by simp [recordSlots]
  | child :: rest, slot :: slots, found => by
    have hslot : ∀ (slot : List RowTree) (found : Meta),
        v ∈ (slot.foldl (fun found tree =>
          recordBelow (found.record child.node tree.row) child tree) found).values table column ↔
          v ∈ found.values table column ∨ ∃ subtree ∈ slot,
            ∃ node row, subtree.Holds child node row ∧ Keys node row table column v := by
      intro slot
      induction slot with
      | nil => simp
      | cons tree others ih =>
        intro found
        rw [List.foldl_cons, ih, mem_values_recordBelow, Meta.mem_values_record, or_assoc, or_assoc]
        refine or_congr_right ?_
        have hholds : (∃ node row, tree.Holds child node row ∧ Keys node row table column v) ↔
            Keys child.node tree.row table column v ∨
              ∃ node row, tree.HoldsBelow child node row ∧ Keys node row table column v := by
          constructor
          · rintro ⟨node, row, hholds, hkeys⟩
            cases hholds with
            | root => exact .inl hkeys
            | nested hslot hmem hholds =>
              exact .inr ⟨node, row, ⟨_, _, hslot, _, hmem, hholds⟩, hkeys⟩
          · rintro (hkeys | ⟨node, row, ⟨_, _, hslot, _, hmem, hholds⟩, hkeys⟩)
            · exact ⟨_, _, .root child tree, hkeys⟩
            · exact ⟨node, row, .nested hslot hmem hholds, hkeys⟩
        simp only [List.mem_cons, exists_eq_or_imp, hholds, or_assoc]
    rw [recordSlots, mem_values_recordSlots, hslot, or_assoc]
    refine or_congr_right ?_
    constructor
    · rintro (h | ⟨other, others, hmem, h⟩)
      · exact ⟨child, slot, List.mem_cons_self, h⟩
      · exact ⟨other, others, List.mem_cons_of_mem _ hmem, h⟩
    · rintro ⟨other, others, hmem, h⟩
      rcases List.mem_cons.mp hmem with heq | hmem
      · obtain ⟨rfl, rfl⟩ := Prod.mk.inj heq
        exact .inl h
      · exact .inr ⟨other, others, hmem, h⟩

end

end Plan

namespace Meta

variable {found : Meta} {table column : String} {kind : ValueKind} {items : List Json} {v : Json}

/-- A value is dropped when it compares as equal with the one that is kept. -/
theorem dropRepeats_eq_destutter (items : List Json) :
    dropRepeats items = items.destutter fun kept value => Json.compare value kept ≠ .eq := by
  have hgo : ∀ (items : List Json) (kept : Json), kept :: dropRepeats.go kept items =
      items.destutter' (fun kept value => Json.compare value kept ≠ .eq) kept := by
    intro items
    induction items with
    | nil => exact fun kept => rfl
    | cons first rest ih =>
      intro kept
      rw [dropRepeats.go, List.destutter'_cons]
      by_cases hsame : Json.compare first kept = .eq
      · rw [if_pos (beq_iff_eq.mpr hsame), if_neg (not_not.mpr hsame), ih]
      · rw [if_neg (by simpa using hsame), if_pos hsame, ih]
  cases items with
  | nil => rfl
  | cons first rest => exact hgo rest first

theorem mem_of_mem_dropRepeats (h : v ∈ dropRepeats items) : v ∈ items := by
  rw [dropRepeats_eq_destutter] at h
  exact (List.destutter_sublist _ items).subset h

/-- Whatever is dropped compares as equal with a value that is kept, in whatever order the values come and
though comparing values need not be transitive. -/
theorem exists_mem_dropRepeats (h : v ∈ items) : ∃ kept ∈ dropRepeats items, Json.compare kept v = .eq := by
  have hfrom : ∀ (items : List Json) (first : Json), v ∈ first :: items →
      ∃ kept ∈ items.destutter' (fun kept value => Json.compare value kept ≠ .eq) first,
        Json.compare kept v = .eq := by
    intro items
    induction items with
    | nil =>
      intro first hv
      obtain rfl := List.mem_singleton.mp hv
      exact ⟨v, List.mem_singleton_self v, Json.compare_self v⟩
    | cons second rest ih =>
      intro first hv
      rw [List.destutter'_cons]
      by_cases hsame : Json.compare second first = .eq
      · rw [if_neg (not_not.mpr hsame)]
        rcases List.mem_cons.mp hv with rfl | hv
        · exact ih v List.mem_cons_self
        rcases List.mem_cons.mp hv with rfl | hv
        · refine ⟨first, List.mem_destutter' _ _ first, ?_⟩
          rw [Json.compare_swap, hsame]
          rfl
        · exact ih first (List.mem_cons_of_mem _ hv)
      · rw [if_pos hsame]
        rcases List.mem_cons.mp hv with rfl | hv
        · exact ⟨v, List.mem_cons_self, Json.compare_self v⟩
        · obtain ⟨kept, hkept, heq⟩ := ih second hv
          exact ⟨kept, List.mem_cons_of_mem _ hkept, heq⟩
  rw [dropRepeats_eq_destutter]
  cases items with
  | nil => simp at h
  | cons first rest => exact hfrom rest first h

/-- Dropping repeats keeps every value, among values of one kind. -/
theorem mem_dropRepeats (hkind : ∀ v ∈ items, kind.Has v) : v ∈ dropRepeats items ↔ v ∈ items := by
  refine ⟨mem_of_mem_dropRepeats, fun hv => ?_⟩
  obtain ⟨kept, hkept, heq⟩ := exists_mem_dropRepeats hv
  rwa [((hkind kept (mem_of_mem_dropRepeats hkept)).compare_eq_iff (hkind v hv)).mp heq] at hkept

/-- The values listed under one column. -/
def columnsJson (columns : Keyed (List Json)) : Keyed Json :=
  columns.map fun entry => (entry.1, .array (listed entry.2))

theorem toJson_eq (found : Meta) :
    found.toJson = .object (found.map fun entry => (entry.1, .object (columnsJson entry.2))) := rfl

theorem mem_listed (hkind : ∀ v ∈ items, kind.Has v) : v ∈ listed items ↔ v ∈ items := by
  rw [listed, mem_dropRepeats fun v hv => hkind v (mem_sortStable.mp hv), mem_sortStable]

/-- The values listed under a table and a column, where there are any. -/
def listed? (found : Meta) (table column : String) : Option (List Json) :=
  ((found.get? table).bind fun columns => columns.get? column).map listed

/-- What is listed is what is recorded, and all that is recorded is listed. -/
theorem listed?_eq_some {values : List Json} (h : found.listed? table column = some values) :
    values = listed (found.values table column) := by
  obtain ⟨recorded, hrecorded, rfl⟩ := Option.map_eq_some_iff.mp h
  obtain ⟨columns, htable, hcolumn⟩ := Option.bind_eq_some_iff.mp hrecorded
  simp [Meta.values, Keyed.getD, htable, hcolumn]

theorem listed?_of_mem (h : v ∈ found.values table column) :
    found.listed? table column = some (listed (found.values table column)) := by
  cases hlisted : found.listed? table column with
  | some values => rw [listed?_eq_some hlisted]
  | none =>
    rw [listed?, Option.map_eq_none_iff] at hlisted
    cases htable : found.get? table with
    | none => simp [Meta.values, Keyed.getD, htable] at h
    | some columns =>
      rw [htable, Option.bind_some] at hlisted
      simp [Meta.values, Keyed.getD, htable, hlisted] at h

end Meta

namespace Document

variable {d d' : Document} {table column : String} {kind : ValueKind} {v : Json}

/-- The document's `_meta` lists a value under a table and a column. -/
def Lists (d : Document) (table column : String) (v : Json) : Prop :=
  ∃ found columns values, d.meta? = some found ∧ found.get? table = some (.object columns) ∧
    Keyed.get? columns column = some (.array values) ∧ v ∈ values

/-- The values that the document's `_meta` lists under a table and a column. -/
def listed? (d : Document) (table column : String) : Option (List Json) :=
  (((d.meta?.bind fun found => found.get? table).bind Json.object?).bind fun columns =>
    Keyed.get? columns column).bind Json.array?

theorem lists_iff : d.Lists table column v ↔ ∃ values, d.listed? table column = some values ∧ v ∈ values := by
  have hobject {j : Json} {members : Keyed Json} : j.object? = some members ↔ j = .object members := by
    cases j <;> simp [Json.object?]
  have harray {j : Json} {items : List Json} : j.array? = some items ↔ j = .array items := by
    cases j <;> simp [Json.array?]
  simp only [Lists, listed?, Option.bind_eq_some_iff, hobject, harray]
  constructor
  · rintro ⟨found, columns, values, hmeta, htable, hcolumn, hv⟩
    exact ⟨values, ⟨_, ⟨columns, ⟨_, ⟨found, hmeta, htable⟩, rfl⟩, hcolumn⟩, rfl⟩, hv⟩
  · rintro ⟨values, ⟨_, ⟨columns, ⟨_, ⟨found, hmeta, htable⟩, rfl⟩, hcolumn⟩, rfl⟩, hv⟩
    exact ⟨found, columns, values, hmeta, htable, hcolumn, hv⟩

/-- A lookup of a key finds the document if every column of the key lists a value that compares as equal. -/
theorem lists_of_listed? {key : List (String × Json)} (hne : key ≠ []) (h : ∀ entry ∈ key, ∃ values,
    d.listed? table entry.1 = some values ∧ ∃ v ∈ values, Json.compare v entry.2 = .eq) :
    MemorySink.lists table key d = true := by
  simp only [listed?] at h
  rw [MemorySink.lists]
  cases hcolumns : (d.meta?.bind fun found => found.get? table).bind Json.object? with
  | none =>
    obtain ⟨first, hfirst⟩ := List.exists_mem_of_ne_nil key hne
    obtain ⟨values, hvalues, -⟩ := h first hfirst
    rw [hcolumns] at hvalues
    contradiction
  | some columns =>
    refine List.all_eq_true.mpr fun entry hentry => ?_
    obtain ⟨values, hvalues, v, hv, heq⟩ := h entry hentry
    rw [hcolumns, Option.bind_some] at hvalues
    simp only [hvalues]
    exact List.any_eq_true.mpr ⟨v, hv, beq_iff_eq.mpr heq⟩

/-- A lookup of a listed key finds the document. -/
theorem Lists.lists (h : d.Lists table column v) :
    MemorySink.lists table [(column, v)] d = true := by
  obtain ⟨values, hvalues, hv⟩ := lists_iff.mp h
  refine lists_of_listed? (List.cons_ne_nil _ _) fun entry hentry => ?_
  obtain rfl := List.mem_singleton.mp hentry
  exact ⟨values, hvalues, v, hv, Json.compare_self v⟩

theorem listed?_of_meta {found : Meta} (h : d.source.get? metaField = some found.toJson) :
    d.listed? table column = found.listed? table column := by
  rw [listed?, meta?, h, Meta.toJson_eq, Meta.listed?]
  show ((Keyed.get? (found.map _) table).bind _ |>.bind _).bind _ = _
  rw [Keyed.get?_map found fun columns => Json.object (Meta.columnsJson columns)]
  cases found.get? table with
  | none => rfl
  | some columns =>
    show (Keyed.get? (Meta.columnsJson columns) column).bind _ = _
    rw [Meta.columnsJson, Keyed.get?_map columns fun values => Json.array (Meta.listed values)]
    show _ = (columns.get? column).map _
    cases columns.get? column <;> rfl

theorem exists_get?_of_memberTexts {members members' : Keyed Json} {key : String} {v : Json}
    (h : Json.memberTexts members' = Json.memberTexts members) (hv : members.get? key = some v) :
    ∃ v', members'.get? key = some v' ∧ v'.render = v.render := by
  have htext : (members'.get? key).map Json.render = (members.get? key).map Json.render := by
    rw [← Keyed.get?_map, ← Keyed.get?_map]
    exact congrArg (Keyed.get? · key) h
  rw [hv] at htext
  obtain ⟨v', hv', heq⟩ := Option.map_eq_some_iff.mp htext
  exact ⟨v', hv', heq⟩

/-- Documents of one text have one identity, and sources of the same texts. -/
theorem eq_of_text_eq (h : d'.text = d.text) : d'.identity = d.identity ∧
    Json.memberTexts d'.source = Json.memberTexts d.source := by
  obtain ⟨members, hmembers, htexts⟩ := Json.exists_of_render_object h
  obtain rfl := Json.object.inj hmembers
  simp only [Json.memberTexts, List.map_cons, List.map_nil, List.cons.injEq, Prod.mk.injEq, true_and,
    and_true] at htexts
  obtain ⟨hidentity, -, hsource⟩ := htexts
  rw [Json.render, Json.render] at hidentity
  obtain ⟨source, hobject, hsources⟩ := Json.exists_of_render_object hsource
  obtain rfl := Json.object.inj hobject
  exact ⟨Json.renderString_inj hidentity, hsources⟩

/-- What a document lists, every document of its text lists. -/
theorem Lists.of_text_eq (h : d.Lists table column v) (hv : kind.Has v) (htext : d'.text = d.text) :
    d'.Lists table column v := by
  obtain ⟨found, columns, values, hmeta, htable, hcolumn, hmem⟩ := h
  obtain ⟨member, hmember, hfound⟩ := Option.bind_eq_some_iff.mp hmeta
  obtain rfl : member = .object found := by
    cases member <;> simp [Json.object?] at hfound
    rw [hfound]
  obtain ⟨member', hmember', hrender⟩ := exists_get?_of_memberTexts (eq_of_text_eq htext).2 hmember
  obtain ⟨found', rfl, hfounds⟩ := Json.exists_of_render_object hrender
  obtain ⟨entry, hentry, hrender⟩ := exists_get?_of_memberTexts hfounds htable
  obtain ⟨columns', rfl, hcolumns⟩ := Json.exists_of_render_object hrender
  obtain ⟨entry, hentry', hrender⟩ := exists_get?_of_memberTexts hcolumns hcolumn
  obtain ⟨values', rfl, hvalues⟩ := Json.exists_of_render_array hrender
  refine ⟨found', columns', values', by rw [meta?, hmember']; rfl, hentry, hentry', ?_⟩
  obtain ⟨v', hv', hrender⟩ := List.mem_map.mp (hvalues ▸ List.mem_map_of_mem hmem)
  rw [hv.eq_of_render_eq hrender.symm]
  exact hv'

end Document

namespace Plan

variable {plan : Plan} {index : String} {tree : RowTree} {d : Document} {table column : String} {v : Json}

theorem mem_values_recorded : v ∈ (recordBelow [] plan tree).values table column ↔
    ∃ node row, tree.HoldsBelow plan node row ∧ Meta.Keys node row table column v := by
  rw [mem_values_recordBelow]
  simp [Meta.values, Keyed.getD]

/-- A document lists what is recorded below the root of its tree. -/
theorem compile_listed? (h : plan.compile index tree = .ok d) :
    d.listed? table column = (recordBelow [] plan tree).listed? table column := by
  unfold compile at h
  dsimp only at h
  split at h
  · contradiction
  obtain rfl := Except.ok.inj h
  apply Document.listed?_of_meta
  rw [Keyed.get?_put, if_pos rfl]

/-- A document lists the keys of the rows below its root. -/
theorem compile_lists (h : plan.compile index tree = .ok d) {kind : ValueKind}
    (hkind : ∀ node row, tree.HoldsBelow plan node row → ∀ v, Meta.Keys node row table column v →
      kind.Has v) {node : PlanNode} {row : Row} (hholds : tree.HoldsBelow plan node row)
    (hv : Meta.Keys node row table column v) : d.Lists table column v := by
  have hmem := mem_values_recorded.mpr ⟨node, row, hholds, hv⟩
  have hkinds : ∀ v ∈ (recordBelow [] plan tree).values table column, kind.Has v := by
    intro v hv
    obtain ⟨node, row, hholds, hkeys⟩ := mem_values_recorded.mp hv
    exact hkind node row hholds v hkeys
  refine Document.lists_iff.mpr ⟨_, ?_, (Meta.mem_listed hkinds).mpr hmem⟩
  rw [compile_listed? h, Meta.listed?_of_mem hmem]

end Plan

end DocSync
