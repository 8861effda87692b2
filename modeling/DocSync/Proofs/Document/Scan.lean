import DocSync.Proofs.Document.Joined
import DocSync.Proofs.Simulation.Outage

/-!
What a scan visits.  Where the keys of the root rows can be compared and no two are the same, the pages
of a scan cover every root row once, in the order of their keys, whatever the size of a page.
-/

namespace DocSync

open ValueKind (HasAll)

theorem chunks_go_eq {α : Type} {size : Nat} (hsize : 0 < size) :
    ∀ (fuel : Nat) (items : List α), items.length ≤ fuel →
      chunks.go size fuel items = chunks size items := by
  have hgo : ∀ (fuel fuel' : Nat) (items : List α), items.length ≤ fuel → items.length ≤ fuel' →
      chunks.go size fuel items = chunks.go size fuel' items := by
    intro fuel
    induction fuel with
    | zero =>
      intro fuel' items hlength _
      obtain rfl := List.eq_nil_of_length_eq_zero (Nat.le_zero.mp hlength)
      cases fuel' <;> rfl
    | succ fuel ih =>
      intro fuel' items hlength hlength'
      cases items with
      | nil => cases fuel' <;> rfl
      | cons first rest =>
        cases fuel' with
        | zero => simp at hlength'
        | succ fuel' =>
          rw [List.length_cons] at hlength hlength'
          have hdrop : ((first :: rest).drop size).length ≤ rest.length := by
            rw [List.length_drop, List.length_cons]
            omega
          rw [chunks.go, chunks.go, ih fuel' _ (by omega) (by omega)] <;> simp
  exact fun fuel items hlength => hgo fuel items.length items hlength le_rfl

/-- The first piece, and the pieces of the rest. -/
theorem chunks_eq {α : Type} {size : Nat} (hsize : 0 < size) {items : List α} (hne : items ≠ []) :
    chunks size items = items.take size :: chunks size (items.drop size) := by
  cases items with
  | nil => contradiction
  | cons first rest =>
    have hdrop : ((first :: rest).drop size).length ≤ rest.length := by
      rw [List.length_drop, List.length_cons]
      omega
    rw [← chunks_go_eq hsize rest.length _ hdrop, chunks, List.length_cons, chunks.go]
    simp

theorem chunks_nil {α : Type} (size : Nat) : chunks size ([] : List α) = [] := rfl

theorem ne_nil_of_mem_chunks {α : Type} {size : Nat} (hsize : 0 < size) {items part : List α}
    (h : part ∈ chunks size items) : part ≠ [] := by
  have hgo : ∀ (fuel : Nat) (items : List α), ∀ part ∈ chunks.go size fuel items, part ≠ [] := by
    intro fuel
    induction fuel with
    | zero => simp [chunks.go]
    | succ fuel ih =>
      intro items
      cases items with
      | nil => simp [chunks.go]
      | cons first rest =>
        rw [chunks.go]
        · exact List.forall_mem_cons.mpr ⟨by simp [hsize.ne'], ih _⟩
        · simp
  exact hgo _ _ part h

namespace PlanNode

variable {schema : Schema} {db : Database} {node : PlanNode} {kinds : List ValueKind}

theorem rowsWhere_all_perm (orderBy : List String) :
    (node.rowsWhere db .all orderBy).Perm (node.rowsIn db) := by
  have hall : (Database.visibleRows db.tables node.table).filter Filter.all.accepts =
      Database.visibleRows db.tables node.table := List.filter_eq_self.mpr fun _ _ => rfl
  refine ((Database.chosenRows_perm _ _ _ _ _).map _).trans (.of_eq ?_)
  rw [rowsIn, hall]

/-- Rows in key order whose keys differ come one after another. -/
theorem KeyedIn.rowsWhere_all_sorted {t : Table} (hfits : node.Fits schema t)
    (h : node.KeyedIn db kinds) :
    (node.rowsWhere db .all node.primaryKey).Pairwise fun a b =>
      Json.compareTuples (a.tuple node.primaryKey) (b.tuple node.primaryKey) = .lt := by
  have hmem {row : Row} (hrow : row ∈ node.rowsWhere db .all node.primaryKey) :
      row ∈ node.rowsIn db := mem_rowsWhere_all.mp hrow
  have hdistinct : ((node.rowsWhere db .all node.primaryKey).map (·.tuple node.primaryKey)).Nodup :=
    ((rowsWhere_all_perm _).map _).nodup_iff.mpr h.distinct
  have hne := List.pairwise_map.mp hdistinct
  refine ((h.rowsWhere_pairwise hfits .all).and hne).imp_of_mem ?_
  rintro a b ha hb ⟨hle, hne⟩
  cases hcompare : Json.compareTuples (a.tuple node.primaryKey) (b.tuple node.primaryKey) with
  | lt => rfl
  | eq => exact absurd ((ValueKind.compareTuples_eq_iff (h.keyed a (hmem ha)).admits
      (h.keyed b (hmem hb)).admits).mp hcompare) hne
  | gt => exact absurd hcompare hle

/-- A select with a cursor and a limit reads the front of what comes after the cursor. -/
theorem chosenRows_page {t : Table} (hfits : node.Fits schema t) (cursor : Option (List Json))
    (limit : Nat) :
    (Database.chosenRows (Database.visibleRows db.tables node.table)
      ⟨node.table, node.fetchColumns, .all, node.primaryKey, cursor, some limit⟩).map
        (Database.project node.fetchColumns) =
      ((node.rowsWhere db .all node.primaryKey).filter fun row => cursor.all fun values =>
        Json.compareTuples (row.tuple node.primaryKey) values == .gt).take limit := by
  have hkey (row : Row) :
      (Database.project node.fetchColumns row).tuple node.primaryKey = row.tuple node.primaryKey :=
    Row.tuple_project hfits.keyFetched
  rw [rowsWhere, List.filter_map, ← List.map_take]
  refine congrArg (List.map _) (congrArg (List.take limit) ?_)
  cases cursor with
  | none => exact (List.filter_eq_self.mpr fun _ _ => rfl).symm
  | some values => exact List.filter_congr fun row _ => by simp [hkey]

end PlanNode

namespace Fetch

theorem keptKeys_eq {keys : List (List Json)} {kept : Keyed (List Json)}
    (hnodup : (keys.map keyText).Nodup)
    (hnew : ∀ key ∈ keys, kept.contains (keyText key) = false) :
    keptKeys keys kept = kept ++ keys.map fun key => (keyText key, key) := by
  induction keys generalizing kept with
  | nil => simp [keptKeys]
  | cons key rest ih =>
    obtain ⟨hfirst, hrest⟩ := List.nodup_cons.mp hnodup
    obtain ⟨hkey, hothers⟩ := List.forall_mem_cons.mp hnew
    have hnew' : ∀ other ∈ rest,
        Keyed.contains (kept ++ [(keyText key, key)]) (keyText other) = false := by
      intro other hother
      have hne : keyText key ≠ keyText other := fun h => hfirst (h ▸ List.mem_map_of_mem hother)
      rw [Keyed.contains, get?_append_singleton _ _ _ _ hkey, if_neg hne]
      exact hothers other hother
    rw [keptKeys, List.foldl_cons, ← keptKeys]
    dsimp only
    rw [hkey, if_neg Bool.false_ne_true, ih hrest hnew', List.append_assoc]
    rfl

/-- Keys of different texts are all kept. -/
theorem distinctKeys_eq {keys : List (List Json)} (hnodup : (keys.map keyText).Nodup)
    (hnull : ∀ key ∈ keys, key.any Json.isNull = false) : distinctKeys keys = keys := by
  have hall : (keys.filter fun key => !key.any Json.isNull) = keys :=
    List.filter_eq_self.mpr fun key hkey => by simp [hnull key hkey]
  have hkept : keptKeys keys [] = [] ++ keys.map fun key => (keyText key, key) :=
    keptKeys_eq hnodup fun _ _ => rfl
  change (keptKeys (keys.filter fun key => !key.any Json.isNull) []).values = keys
  rw [hall, hkept, List.nil_append, Keyed.values, List.map_map]
  exact List.map_id keys

end Fetch

theorem RowTree.map_row_eq {db : Database} {plan : Plan} {rows : List Row} {trees : List RowTree}
    (h : List.Forall₂ (fun row tree => tree.row = row ∧ tree.ReadFrom db plan) rows trees) :
    trees.map RowTree.row = rows := by
  induction h with
  | nil => rfl
  | cons hfirst _ ih => rw [List.map_cons, hfirst.1, ih]

namespace Fetch

theorem length_attachedSlots (db : Database) (children : List Plan) (rows : List Row) :
    (attachedSlots db children rows).length = rows.length := by
  induction children with
  | nil => rw [attachedSlots, List.length_map]
  | cons child rest ih =>
    rw [attachedSlots]
    split <;> simp [consSlot, ih]

/-- The rows of attached trees are those that the trees were attached to. -/
theorem map_row_attached (db : Database) (plan : Plan) (rows : List Row) :
    (attached db plan rows).map RowTree.row = rows := by
  obtain ⟨node, children⟩ := plan
  have hlength := length_attachedSlots db children rows
  rw [attached, List.map_zipWith]
  exact List.ext_getElem (by simp [hlength]) (by simp)

end Fetch

namespace Fetch

mutual

/-- What is attached depends on the tables alone. -/
theorem attached_congr {db db' : Database} (h : db'.tables = db.tables) :
    ∀ (plan : Plan) (rows : List Row), attached db' plan rows = attached db plan rows
  | ⟨_, children⟩, rows => by rw [attached, attached, attachedSlots_congr h children rows]

theorem attachedSlots_congr {db db' : Database} (h : db'.tables = db.tables) :
    ∀ (children : List Plan) (rows : List Row),
      attachedSlots db' children rows = attachedSlots db children rows
  | [], rows => by rw [attachedSlots, attachedSlots]
  | child :: rest, rows => by
    have hfound (join : Join) :
        foundRows db' child.node join rows = foundRows db child.node join rows := by
      simp only [foundRows, PlanNode.rowsWhere, h]
    rw [attachedSlots, attachedSlots, attachedSlots_congr h rest rows]
    cases child.node.join with
    | none => rfl
    | some join =>
      dsimp only
      rw [hfound join, attached_congr h child]

end

end Fetch

namespace Plan

/-- The rows of the root, in the order of their keys. -/
def rootRows (plan : Plan) (db : Database) : List Row :=
  plan.node.rowsWhere db .all plan.node.primaryKey

/-- The trees that a scan fetches, page by page. -/
def scannedTrees (plan : Plan) (db : Database) (batch : Nat) : List RowTree :=
  (chunks batch (plan.rootRows db)).flatMap (Fetch.attached db plan)

variable {db : Database} {plan : Plan}

theorem mem_rootRows {row : Row} : row ∈ plan.rootRows db ↔ row ∈ plan.node.rowsIn db :=
  PlanNode.mem_rowsWhere_all

/-- What a scan fetches depends on the tables alone. -/
theorem scannedTrees_congr {db' : Database} (h : db'.tables = db.tables) (batch : Nat) :
    plan.scannedTrees db' batch = plan.scannedTrees db batch := by
  have hrows : plan.rootRows db' = plan.rootRows db := by
    simp only [rootRows, PlanNode.rowsWhere, h]
  rw [scannedTrees, scannedTrees, hrows, funext (Fetch.attached_congr h plan)]

/-- Whether the keys and joins of a plan can be compared depends on the tables alone. -/
theorem ComparableIn.congr {db' : Database} (htables : db'.tables = db.tables)
    (h : plan.ComparableIn db) : plan.ComparableIn db' := by
  have hrows (node : PlanNode) : node.rowsIn db' = node.rowsIn db := by
    rw [PlanNode.rowsIn, htables, PlanNode.rowsIn]
  induction h with
  | @mk node children kinds hkeyed _ hjoins ih =>
    refine @ComparableIn.mk _ _ _ kinds ⟨?_, ?_⟩ ih fun child hchild join hjoin => ?_
    · rw [hrows]
      exact hkeyed.keyed
    · rw [hrows]
      exact hkeyed.distinct
    · obtain ⟨joined, hparent, hchildren⟩ := hjoins child hchild join hjoin
      refine ⟨joined, ?_, ?_⟩
      · rw [hrows]
        exact hparent
      · rw [hrows]
        exact hchildren

/-- A scan fetches a tree for every root row, once and in the order of their keys. -/
theorem forall₂_scannedTrees (hfits : plan.Fits db.schema) {batch : Nat} (hbatch : 0 < batch) :
    List.Forall₂ (fun row tree => tree.row = row ∧ tree.ReadFrom db plan) (plan.rootRows db)
      (plan.scannedTrees db batch) := by
  have hpages : ∀ pages : List (List Row),
      (∀ page ∈ pages, ∀ row ∈ page, row ∈ plan.node.rowsIn db) →
      List.Forall₂ (fun row tree => tree.row = row ∧ tree.ReadFrom db plan) pages.flatten
        (pages.flatMap (Fetch.attached db plan)) := by
    intro pages
    induction pages with
    | nil => exact fun _ => .nil
    | cons page rest ih =>
      intro hpages
      obtain ⟨hpage, hrest⟩ := List.forall_mem_cons.mp hpages
      rw [List.flatten_cons, List.flatMap_cons]
      exact List.rel_append (Fetch.attached_readFrom hfits hpage) (ih hrest)
  have htrees := hpages (chunks batch (plan.rootRows db)) fun page hpage row hrow =>
    mem_rootRows.mp (flatten_chunks hbatch (plan.rootRows db) ▸
      List.mem_flatten.mpr ⟨page, hpage, hrow⟩)
  rwa [flatten_chunks hbatch] at htrees

/-- Where the joins of a plan can be compared, a scan fetches for every root row the tree that it has on
its own. -/
theorem scannedTrees_eq (hfits : plan.Fits db.schema) (hplan : plan.ComparableIn db) {batch : Nat}
    (hbatch : 0 < batch) : plan.scannedTrees db batch = (plan.rootRows db).map (plan.treeIn db) := by
  have hpages : ∀ page ∈ chunks batch (plan.rootRows db),
      Fetch.attached db plan page = page.map (plan.treeIn db) := by
    intro page hpage
    refine Fetch.attached_eq (Plan.fits_iff_joined.mp hfits) hplan.kindedIn fun row hrow => mem_rootRows.mp ?_
    rw [← flatten_chunks hbatch (plan.rootRows db)]
    exact List.mem_flatten.mpr ⟨page, hpage, hrow⟩
  rw [scannedTrees, List.flatMap_congr hpages]
  conv_rhs => rw [← flatten_chunks hbatch (plan.rootRows db), List.map_flatten]
  rfl

end Plan

namespace RootScan

/-- A scan that has still to visit the given rows. -/
structure At (db : Database) (plan : Plan) (left : List Row) (scan : RootScan) : Prop where
  batch : 0 < scan.batch
  exhausted : scan.exhausted = true → left = []
  cursor : ∃ visited, plan.rootRows db = visited ++ left ∧
    scan.cursor = visited.getLast?.map (·.tuple plan.node.primaryKey)

theorem at_start (db : Database) (plan : Plan) (batch : Nat) :
    At db plan (plan.rootRows db) (.start batch) :=
  ⟨Nat.lt_of_lt_of_le Nat.zero_lt_one (Nat.le_max_right _ _), by simp [start], [], rfl, rfl⟩

variable {db : Database} {plan : Plan} {left : List Row} {scan : RootScan}

/-- Whether a key comes after the cursor. -/
def isAhead (scan : RootScan) (key : List Json) : Bool :=
  scan.cursor.all fun values => Json.compareTuples key values == .gt

/-- The root rows that come after the cursor. -/
def rowsAhead (scan : RootScan) (plan : Plan) (db : Database) : List Row :=
  (plan.rootRows db).filter fun row => scan.isAhead (row.tuple plan.node.primaryKey)

/-- What comes after the cursor is what is left to visit. -/
theorem At.rowsAhead_eq (h : At db plan left scan) {kinds : List ValueKind} {t : Table}
    (hfits : plan.node.Fits db.schema t) (hkeyed : plan.node.KeyedIn db kinds) :
    scan.rowsAhead plan db = left := by
  have hsorted := hkeyed.rowsWhere_all_sorted hfits
  obtain ⟨visited, hrows, hcursor⟩ := h.cursor
  change (plan.rootRows db).Pairwise _ at hsorted
  rw [hrows] at hsorted
  simp only [rowsAhead, isAhead]
  rw [hrows, hcursor]
  obtain rfl | ⟨front, last, rfl⟩ := List.eq_nil_or_concat' visited
  · simp
  obtain ⟨hvisited, -, hbetween⟩ := List.pairwise_append.mp hsorted
  obtain ⟨-, -, hfront⟩ := List.pairwise_append.mp hvisited
  rw [List.getLast?_append, List.getLast?_singleton, Option.some_or, Option.map_some]
  simp only [Option.all_some]
  rw [List.filter_append]
  have hbefore : ((front ++ [last]).filter fun row => Json.compareTuples
      (row.tuple plan.node.primaryKey) (last.tuple plan.node.primaryKey) == .gt) = [] := by
    refine List.filter_eq_nil_iff.mpr fun row hrow => ?_
    rcases List.mem_append.mp hrow with hrow | hrow
    · simp [hfront row hrow last (List.mem_singleton_self _)]
    · obtain rfl := List.mem_singleton.mp hrow
      simp [Json.compareTuples_self]
  have hafter : (left.filter fun row => Json.compareTuples (row.tuple plan.node.primaryKey)
      (last.tuple plan.node.primaryKey) == .gt) = left := by
    refine List.filter_eq_self.mpr fun row hrow => ?_
    have hlt := hbetween last (by simp) row hrow
    rw [Json.compareTuples_swap, hlt]
    rfl
  rw [hbefore, hafter, List.nil_append]

/-- The rows of the next page: the first that come after the cursor. -/
def pageRows (scan : RootScan) (plan : Plan) (db : Database) : List Row :=
  if scan.exhausted then [] else (scan.rowsAhead plan db).take scan.batch

/-- The scan once the next page is read. -/
def after (scan : RootScan) (plan : Plan) (db : Database) : RootScan :=
  if scan.exhausted then scan
  else
    { scan with
      exhausted := (scan.pageRows plan db).length < scan.batch
      cursor := ((scan.pageRows plan db).getLast?.map (·.tuple plan.node.primaryKey)).or
        scan.cursor }

theorem pageRows_of_exhausted (db : Database) (plan : Plan) (h : scan.exhausted = true) :
    scan.pageRows plan db = [] := if_pos h

theorem after_of_exhausted (db : Database) (plan : Plan) (h : scan.exhausted = true) :
    scan.after plan db = scan := if_pos h

@[simp] theorem batch_after (scan : RootScan) (plan : Plan) (db : Database) :
    (scan.after plan db).batch = scan.batch := by
  unfold after
  split <;> rfl

/-- The page rows that are left to visit are the first of them. -/
theorem At.pageRows_eq (h : At db plan left scan) {kinds : List ValueKind} {t : Table}
    (hfits : plan.node.Fits db.schema t) (hkeyed : plan.node.KeyedIn db kinds) :
    scan.pageRows plan db = left.take scan.batch := by
  unfold pageRows
  split
  · rename_i hexhausted
    rw [h.exhausted hexhausted, List.take_nil]
  · rw [h.rowsAhead_eq hfits hkeyed]

/-- After a page there are the rows left that it does not cover. -/
theorem At.advance (h : At db plan left scan) {kinds : List ValueKind} {t : Table}
    (hfits : plan.node.Fits db.schema t) (hkeyed : plan.node.KeyedIn db kinds) (hleft : left ≠ []) :
    At db plan (left.drop scan.batch) (scan.after plan db) := by
  obtain ⟨visited, hrows, -⟩ := h.cursor
  have hpage := h.pageRows_eq hfits hkeyed
  have hopen : ¬ scan.exhausted = true := fun hexhausted => hleft (h.exhausted hexhausted)
  have hne : left.take scan.batch ≠ [] := by
    simpa [List.take_eq_nil_iff, hleft] using h.batch.ne'
  rw [after, if_neg hopen, hpage]
  refine ⟨h.batch, fun hexhausted => ?_, visited ++ left.take scan.batch, ?_, ?_⟩
  · have hlength : (left.take scan.batch).length < scan.batch := by simpa using hexhausted
    rw [List.length_take] at hlength
    exact List.drop_eq_nil_of_le (by omega)
  · rw [List.append_assoc, List.take_append_drop]
    exact hrows
  · rw [List.getLast?_append, List.getLast?_eq_some_getLast hne]
    rfl

variable {wiring : Wiring} {w : World}

/-- A page has the trees of its rows, and there is none when it has no row. -/
theorem nextPage_gives (hwiring : wiring.Plain) {allowed : String → Prop}
    (hjoined : plan.Joined w.database.schema allowed) (scan : RootScan) :
    Attempt.Gives wiring w (scan.nextPage plan) (.ok (if scan.pageRows plan w.database = [] then none
        else some (Fetch.attached w.database plan (scan.pageRows plan w.database)),
      scan.after plan w.database)) := by
  obtain ⟨t, hnode⟩ := hjoined.node
  unfold nextPage
  by_cases hexhausted : scan.exhausted = true
  · rw [if_pos hexhausted, if_pos (pageRows_of_exhausted _ _ hexhausted),
      after_of_exhausted _ _ hexhausted]
    exact Attempt.gives_pure _
  rw [if_neg hexhausted]
  have hrows : Attempt.Gives wiring w (Fetch.readRows ⟨plan.node.table, plan.node.fetchColumns, .all,
      plan.node.primaryKey, scan.cursor, some scan.batch⟩) (.ok (scan.pageRows plan w.database)) := by
    refine Attempt.Gives.mapError _ (Attempt.gives_execute hwiring ?_)
    rw [hnode.select_eq, PlanNode.chosenRows_page hnode, pageRows, if_neg hexhausted]
    rfl
  have htrees := (hrows.bind (Fetch.attach_gives hwiring hjoined _)).transaction hwiring
  have hmap := Fetch.map_row_attached w.database plan (scan.pageRows plan w.database)
  have hlength : (Fetch.attached w.database plan (scan.pageRows plan w.database)).length =
      (scan.pageRows plan w.database).length := by
    rw [← List.length_map RowTree.row, hmap]
  refine htrees.bind ?_
  rw [after, if_neg hexhausted, hlength]
  cases hlast : (Fetch.attached w.database plan (scan.pageRows plan w.database)).getLast? with
  | none =>
    have hempty : scan.pageRows plan w.database = [] := by
      rw [← hmap, List.getLast?_eq_none_iff.mp hlast, List.map_nil]
    rw [if_pos hempty, hempty]
    exact Attempt.gives_pure _
  | some last =>
    have hrow : (scan.pageRows plan w.database).getLast? = some last.row := by
      rw [← hmap, List.getLast?_map, hlast]
      rfl
    have hne : scan.pageRows plan w.database ≠ [] := fun hempty => by simp [hempty] at hrow
    rw [if_neg hne, hrow]
    exact Attempt.gives_pure _

/-- A page has the trees of the next rows, and there is none when no row is left. -/
theorem At.nextPage_gives (hwiring : wiring.Plain) (hfits : plan.Fits w.database.schema)
    {kinds : List ValueKind} (hkeyed : plan.node.KeyedIn w.database kinds)
    (h : At w.database plan left scan) :
    ∃ next, Attempt.Gives wiring w (scan.nextPage plan) (.ok (if left = [] then none
        else some (Fetch.attached w.database plan (left.take scan.batch)), next)) ∧
      next.batch = scan.batch ∧ (left ≠ [] → At w.database plan (left.drop scan.batch) next) := by
  obtain ⟨t, hnode⟩ := hfits.node
  have hgives := RootScan.nextPage_gives hwiring (Plan.fits_iff_joined.mp hfits) scan
  have hempty : left.take scan.batch = [] ↔ left = [] := by
    simp [List.take_eq_nil_iff, h.batch.ne']
  simp only [h.pageRows_eq hnode hkeyed, hempty] at hgives
  exact ⟨_, hgives, batch_after scan plan w.database, h.advance hnode hkeyed⟩

end RootScan

end DocSync
