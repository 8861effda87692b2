import DocSync.Proofs.Change.Coalesce
import DocSync.Proofs.Change.Resolve
import DocSync.Proofs.Json.Kinds

/-!
What the operations of a resolution ask for.  Where roots have keys of one column that holds one kind of
values, every operation has a key that finds exactly the root of its identity, whatever the records
say of rows and values, as long as their own keys are null or of this kind.
-/

namespace DocSync

open ValueKind (Admits)

theorem Identity.ofKey_singleton (v : Json) : ofKey [v] = part v := by
  rw [ofKey, List.map_singleton, String.intercalate_singleton]

/-- The operation has the identity of its key: one value that is null, of the kind, or a text. -/
def RootOp.Identifies (kind : ValueKind) (op : RootOp) : Prop :=
  ∃ v, op.key = [v] ∧ op.identity = Identity.part v ∧ (kind.Admits v ∨ ∃ text, v = .string text)

variable {kind : ValueKind} {op : RootOp} {u v : Json}

theorem RootOp.identifies_ofKey (h : kind.Admits v) :
    (⟨Identity.ofKey [v], [v]⟩ : RootOp).Identifies kind :=
  ⟨v, rfl, Identity.ofKey_singleton v, .inl h⟩

theorem RootOp.identifies_toKey (identity : String) :
    (⟨identity, Identity.toKey identity 1⟩ : RootOp).Identifies kind :=
  ⟨.string identity, rfl, rfl, .inr ⟨identity, rfl⟩⟩

/-- Without a null, the key matches exactly the key of its identity. -/
theorem RootOp.Identifies.sqlMatches_iff (h : op.Identifies kind)
    (hnull : op.key.any Json.isNull = false) (hu : kind.Has u) :
    ∃ v, op.key = [v] ∧ (u.sqlMatches v ↔ Identity.part u = op.identity) := by
  obtain ⟨v, hkey, hidentity, hv | ⟨text, rfl⟩⟩ := h
  · rw [hkey] at hnull
    have hhas := hv (by simpa using hnull)
    refine ⟨v, hkey, ?_⟩
    rw [hu.sqlMatches_iff hhas, hidentity]
    exact ⟨congrArg _, hu.part_inj hhas⟩
  · exact ⟨_, hkey, by rw [hu.sqlMatches_string_iff, hidentity]; rfl⟩

namespace Resolution

/-- The operations have the identities of their keys, no two the same. -/
structure Identifies (kind : ValueKind) (r : Resolution) : Prop where
  ops : ∀ op ∈ r.ops, op.Identifies kind
  distinct : (r.ops.map RootOp.identity).Nodup

variable {r : Resolution}

theorem Identifies.push (h : r.Identifies kind) (hop : op.Identifies kind) :
    (r.push op).Identifies kind := by
  refine ⟨fun other hother => ?_, ?_⟩
  · rcases List.mem_append.mp hother with hother | hother
    · exact h.ops other (List.mem_filter.mp hother).1
    · exact List.mem_singleton.mp hother ▸ hop
  · change ((r.ops.filter (·.identity ≠ op.identity) ++ [op]).map RootOp.identity).Nodup
    rw [List.map_append, List.map_singleton]
    have hkept := h.distinct.sublist ((List.filter_sublist (p := (·.identity ≠ op.identity))).map
      RootOp.identity)
    refine List.Nodup.append hkept (List.nodup_singleton _) fun identity hidentity hlast => ?_
    obtain ⟨other, hother, rfl⟩ := List.mem_map.mp hidentity
    have hne := (List.mem_filter.mp hother).2
    simp only [ne_eq, decide_not, Bool.not_eq_true', decide_eq_false_iff_not] at hne
    exact hne (List.mem_singleton.mp hlast)

theorem Identifies.pushKey (h : r.Identifies kind) (hv : kind.Admits v) :
    (r.pushKey [v]).Identifies kind :=
  h.push (RootOp.identifies_ofKey hv)

theorem Identifies.pushFound (h : r.Identifies kind) (found : Option (List String)) :
    (r.pushFound 1 found).Identifies kind := by
  cases found with
  | none => exact ⟨h.ops, h.distinct⟩
  | some identities =>
    change (identities.foldl (fun r identity => r.push ⟨identity, Identity.toKey identity 1⟩)
      r).Identifies kind
    induction identities generalizing r with
    | nil => exact h
    | cons first rest ih => exact ih (h.push (RootOp.identifies_toKey first))

end Resolution

/-- The values of a record for a key column, now and before a move, are null or of a kind. -/
def ChangeRecord.KeyAdmits (column : String) (kind : ValueKind) (r : ChangeRecord) : Prop :=
  kind.Admits (r.key.value column) ∧ ∀ old, r.oldKey = some old → kind.Admits (old.value column)

instance (column : String) (kind : ValueKind) (r : ChangeRecord) :
    Decidable (r.KeyAdmits column kind) :=
  inferInstanceAs (Decidable (_ ∧ ∀ old ∈ r.oldKey, kind.Admits (old.value column)))

/-- What coalescing keeps has the keys that records of its table have. -/
theorem ChangeRecord.keyAdmits_of_mem_coalesce {plan : Plan} {records : List ChangeRecord}
    {table column : String}
    (h : ∀ r ∈ records, r.table = table → r.KeyAdmits column kind) {s : ChangeRecord}
    (hs : s ∈ coalesce plan records) (htable : s.table = table) : s.KeyAdmits column kind := by
  obtain ⟨⟨name, _⟩, hmem, rfl⟩ := List.mem_map.mp hs
  obtain ⟨r, hlast, rfl⟩ := Coalesce.mem_kept.mp hmem
  have hr := (Coalesce.mem_about.mp (List.mem_of_getLast? hlast)).1
  refine ⟨(h r hr htable).1, fun old hold => ?_⟩
  obtain ⟨other, hother, hleft⟩ := List.mem_filterMap.mp (List.mem_of_getLast? hold)
  obtain ⟨hother, hname⟩ := Coalesce.mem_about.mp hother
  have hsame : other.table = table := by
    rw [table_of_rowName? hname, ← htable, Coalesce.table_of_getLast?_about hlast]
  exact (h other hother hsame).2 old hleft

/-! ### Paths up to the root -/

namespace Plan

mutual

/-- The paths of a table lead up to where the plan hangs. -/
theorem getLast?_pathsFrom {table : String} : ∀ {plan : Plan} {above : List PlanNode},
    ∀ path ∈ plan.pathsFrom table above, path.getLast? = (plan.node :: above).getLast?
  | ⟨node, children⟩, above, path, hpath => by
    rw [pathsFrom, List.mem_append] at hpath
    rcases hpath with hpath | hpath
    · split at hpath
      · rw [List.mem_singleton.mp hpath]
      · simp at hpath
    · exact getLast?_pathsOfChildren path hpath

theorem getLast?_pathsOfChildren {table : String} {parent : PlanNode} :
    ∀ {children : List Plan} {above : List PlanNode},
      ∀ path ∈ pathsOfChildren table (parent :: above) children,
        path.getLast? = (parent :: above).getLast?
  | [], _, path, hpath => by simp [pathsOfChildren] at hpath
  | child :: rest, above, path, hpath => by
    rw [pathsOfChildren, List.mem_append] at hpath
    rcases hpath with hpath | hpath
    · rw [getLast?_pathsFrom path hpath, List.getLast?_cons_cons]
    · exact getLast?_pathsOfChildren path hpath

end

end Plan

namespace Resolve

open Attempt

variable {wiring : Wiring} {w : World} {root : PlanNode}

/-- Climbing from below the root gives keys of its rows. -/
theorem climb_gives_keys (hwiring : wiring.Plain) {node : PlanNode} {path : List PlanNode}
    (h : Climbable w.database.schema node path) (hpath : path.getLast? = some root)
    (rows : List Row) :
    ∃ keys, Gives wiring w (climb root node rows path) (.ok keys) ∧
      ∀ key ∈ keys, ∃ row ∈ root.rowsIn w.database, key = row.tuple root.primaryKey := by
  induction h generalizing rows with
  | top node => simp at hpath
  | @up node parent t join path hjoin hfits hparent hclimbable ih =>
    rw [climb, hjoin]
    dsimp only
    split
    · exact ⟨[], gives_pure _, by simp⟩
    generalize Fetch.distinctKeys (rows.map (·.tuple join.child)) = tuples
    have hread : Gives wiring w (executeTransported
        ⟨parent.table, parent.fetchColumns, .among join.parent tuples, [], none, none⟩)
        (.ok (parent.rowsWhere w.database (.among join.parent tuples) [])) :=
      .mapError _ (gives_execute hwiring (hparent.select_eq _ _ _ _))
    have hmem {row : Row} (hrow : row ∈ parent.rowsWhere w.database (.among join.parent tuples) []) :
        row ∈ parent.rowsIn w.database :=
      ((PlanNode.mem_rowsWhere fun c hc => (hfits.parent c hc).1).mp hrow).1
    cases path with
    | nil =>
      obtain rfl : parent = root := by simpa using hpath
      refine ⟨_, hread.bind (gives_pure _), fun key hkey => ?_⟩
      obtain ⟨row, hrow, rfl⟩ := List.mem_map.mp hkey
      exact ⟨row, hmem hrow, rfl⟩
    | cons next rest =>
      rw [List.getLast?_cons_cons] at hpath
      obtain ⟨keys, hclimb, hkeys⟩ := ih hpath _
      exact ⟨keys, hread.bind hclimb, hkeys⟩

theorem exists_changedRow_gives (hwiring : wiring.Plain) {node : PlanNode} {t : Table}
    (hnode : node.Fits w.database.schema t) (r : ChangeRecord) :
    ∃ found, Gives wiring w (changedRow node r) (.ok found) := by
  rw [changedRow]
  cases r.values with
  | some values => exact ⟨_, gives_pure _⟩
  | none =>
    have hread : Gives wiring w (executeTransported ⟨node.table, node.fetchColumns,
        .key node.primaryKey (r.key.tuple node.primaryKey), [], none, none⟩)
        (.ok (node.rowsWhere w.database
          (.key node.primaryKey (r.key.tuple node.primaryKey)) [])) :=
      .mapError _ (gives_execute hwiring (hnode.select_eq _ _ _ _))
    exact ⟨_, hread.bind (gives_pure _)⟩

/-- Walking up from below the root gives keys of its rows. -/
theorem walkToRoots_gives_keys (hwiring : wiring.Plain) {node : PlanNode} {path : List PlanNode} {t : Table}
    (hnode : node.Fits w.database.schema t) (h : Climbable w.database.schema node path)
    (hpath : path.getLast? = some root) (r : ChangeRecord) :
    ∃ keys, Gives wiring w (walkToRoots root (node :: path) r) (.ok keys) ∧
      ∀ key ∈ keys, ∃ row ∈ root.rowsIn w.database, key = row.tuple root.primaryKey := by
  obtain ⟨changed, hchanged⟩ := exists_changedRow_gives hwiring hnode r
  rw [walkToRoots]
  cases changed with
  | none => exact ⟨[], hchanged.bind (gives_pure _), by simp⟩
  | some row =>
    obtain ⟨keys, hclimb, hkeys⟩ := climb_gives_keys hwiring h hpath [row]
    exact ⟨keys, hchanged.bind hclimb, hkeys⟩

/-- The paths of a table that is not the root's start below the root. -/
theorem pathsOf_climbable {plan : Plan} {table : String} (hfits : plan.Fits w.database.schema)
    (htable : table ≠ plan.node.table) : ∀ path ∈ plan.pathsOf table, ∃ node above,
      path = node :: above ∧ node.table = table ∧ (∃ t, node.Fits w.database.schema t) ∧
        Climbable w.database.schema node above ∧ above.getLast? = some plan.node := by
  intro path hpath
  obtain ⟨node, above, rfl, hnode, hfitting, hclimbable⟩ :=
    Plan.pathsFrom_climbable hfits (.top _) path hpath
  have hlast := Plan.getLast?_pathsFrom _ hpath
  refine ⟨node, above, rfl, hnode, hfitting, hclimbable, ?_⟩
  cases above with
  | nil =>
    obtain rfl : node = plan.node := by simpa using hlast
    exact absurd hnode.symm htable
  | cons next rest => rwa [List.getLast?_cons_cons] at hlast

section

variable {P : Resolution → Prop}
  (hlookup : ∀ r found, P r → P (r.pushFound root.primaryKey.length found))
  (hrow : ∀ row ∈ root.rowsIn w.database, ∀ r, P r → P (r.pushKey (row.tuple root.primaryKey)))

include hlookup

theorem lookUp_gives_keeping (writer : Writer) (node : PlanNode) (keys : List Row) {found : Resolution}
    (hfound : P found) :
    ∃ found', Gives wiring w (lookUp writer root node keys found) (.ok found') ∧ P found' := by
  induction keys generalizing found with
  | nil => exact ⟨found, gives_pure _, hfound⟩
  | cons key rest ih =>
    obtain ⟨found', hgives, hkept⟩ := ih (hlookup found (foundFor w wiring writer node key) hfound)
    refine ⟨found', ?_, hkept⟩
    rw [lookUp]
    exact (Writer.findByMeta_gives writer _ _).bind hgives

include hrow

/-- A record of a nested table, whatever it says, adds what lookups find and keys of root rows. -/
theorem resolveNested_gives_keeping (hwiring : wiring.Plain) (writer : Writer) (r : ChangeRecord)
    {paths : List (List PlanNode)}
    (hpaths : ∀ path ∈ paths, ∃ node above, path = node :: above ∧ node.table = r.table ∧
      (∃ t, node.Fits w.database.schema t) ∧ Climbable w.database.schema node above ∧
        above.getLast? = some root)
    {found : Resolution} (hfound : P found) :
    ∃ found', Gives wiring w (resolveNested writer root r paths found) (.ok found') ∧ P found' := by
  induction paths generalizing found with
  | nil => exact ⟨found, gives_pure _, hfound⟩
  | cons path paths ih =>
    obtain ⟨hpath, hothers⟩ := List.forall_mem_cons.mp hpaths
    obtain ⟨node, above, rfl, -, ⟨t, hnode⟩, hclimbable, hlast⟩ := hpath
    obtain ⟨looked, hlooked, hkept⟩ :=
      lookUp_gives_keeping hlookup writer node (r.key :: r.oldKey.toList) hfound
    obtain ⟨keys, hwalk, hkeys⟩ := walkToRoots_gives_keys hwiring hnode hclimbable hlast r
    have hpushed : P (keys.foldl Resolution.pushKey looked) := by
      refine List.foldlRecOn keys _ hkept fun found hfound key hkey => ?_
      obtain ⟨row, hmem, rfl⟩ := hkeys key hkey
      exact hrow row hmem found hfound
    obtain ⟨found', hrest, hrested⟩ := ih hothers hpushed
    refine ⟨found', ?_, hrested⟩
    rw [resolveNested]
    exact hlooked.bind (hwalk.bind hrest)

end

/-- Whatever records say, resolving them keeps what lookups, keys of root rows and the records of the root
table keep. -/
theorem resolveFrom_gives_keeping (hwiring : wiring.Plain) {plan : Plan}
    (hfits : plan.Fits w.database.schema) (writer : Writer) {P : Resolution → Prop}
    (hlookup : ∀ r found, P r → P (r.pushFound plan.node.primaryKey.length found))
    (hrow : ∀ row ∈ plan.node.rowsIn w.database, ∀ r, P r →
      P (r.pushKey (row.tuple plan.node.primaryKey)))
    {records : List ChangeRecord}
    (hrecords : ∀ s ∈ records, s.table = plan.node.table → ∀ r, P r → P (resolveRoot plan.node s r))
    {found : Resolution} (hfound : P found) :
    ∃ found', Gives wiring w (resolveFrom plan writer records found) (.ok found') ∧ P found' := by
  induction records generalizing found with
  | nil => exact ⟨found, gives_pure _, hfound⟩
  | cons s rest ih =>
    obtain ⟨hs, hrest⟩ := List.forall_mem_cons.mp hrecords
    rw [resolveFrom]
    by_cases htable : s.table = plan.node.table
    · obtain ⟨found', hgives, hkept⟩ := ih hrest (hs htable found hfound)
      exact ⟨found', by rw [if_pos htable]; exact (gives_pure _).bind hgives, hkept⟩
    · obtain ⟨nested, hnested, hkept⟩ := resolveNested_gives_keeping hlookup hrow hwiring writer s
        (pathsOf_climbable hfits htable) hfound
      obtain ⟨found', hgives, hkept'⟩ := ih hrest hkept
      exact ⟨found', by rw [if_neg htable]; exact hnested.bind hgives, hkept'⟩

variable {column : String}

/-- A record of the root table adds operations for its own key and for the one that it left. -/
theorem identifies_resolveRoot (hroot : root.primaryKey = [column]) {r : ChangeRecord}
    (hr : r.KeyAdmits column kind) {found : Resolution} (hfound : found.Identifies kind) :
    (resolveRoot root r found).Identifies kind := by
  rw [resolveRoot, hroot]
  cases hold : r.oldKey with
  | none => exact hfound.pushKey hr.1
  | some old =>
    dsimp only
    split
    · exact (hfound.pushKey (hr.2 old hold)).pushKey hr.1
    · exact hfound.pushKey hr.1

end Resolve

/-- Whatever records say, they resolve to operations that find exactly the roots of their identities, if
the keys that they give roots are null or of the kind of the key column. -/
theorem resolve_gives_identifying {wiring : Wiring} (hwiring : wiring.Plain) {w : World} {plan : Plan}
    (hfits : plan.Fits w.database.schema) {column : String}
    (hroot : plan.node.primaryKey = [column])
    (hadmits : ∀ row ∈ plan.node.rowsIn w.database, kind.Admits (row.value column))
    (writer : Writer) {records : List ChangeRecord}
    (hrecords : ∀ r ∈ records, r.table = plan.node.table → r.KeyAdmits column kind) :
    ∃ resolution, Attempt.Gives wiring w (resolve plan writer (coalesce plan records))
      (.ok resolution) ∧ resolution.Identifies kind := by
  refine Resolve.resolveFrom_gives_keeping hwiring hfits writer (fun r found hr => ?_)
    (fun row hrow r hr => ?_) (fun s hs htable r hr => ?_) ⟨by simp, List.nodup_nil⟩
  · rw [hroot]
    exact hr.pushFound found
  · rw [hroot]
    exact hr.pushKey (hadmits row hrow)
  · exact Resolve.identifies_resolveRoot hroot (ChangeRecord.keyAdmits_of_mem_coalesce hrecords hs htable) hr

end DocSync
