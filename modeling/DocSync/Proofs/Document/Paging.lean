import DocSync.Proofs.Document.Scan
import DocSync.Proofs.Relation.Unique
import Mathlib

/-!
A scan while others write.  Between two pages the rows of the root may come, go and change their keys on
both sides of the cursor; the scan goes by keys alone.  What it returned lies before the cursor and what it
will return lies after it, whatever the database holds by then, so that no key comes twice, and a key that
is there all along is passed by no page without being read.
-/

namespace DocSync

open ValueKind (AdmitsAll)

/-- The root rows of the database have keys that can be compared, no two the same. -/
def Plan.RootsKeyed (plan : Plan) (db : Database) : Prop :=
  ∃ t kinds, plan.node.Fits db.schema t ∧ plan.node.KeyedIn db kinds

/-- The keys of root rows. -/
def Plan.keysOf (plan : Plan) (rows : List Row) : List (List Json) :=
  rows.map (·.tuple plan.node.primaryKey)

namespace Fetch

/-- One key comes before another. -/
def KeyBefore (a b : List Json) : Prop := Json.compareTuples a b = .lt

variable {a b c : List Json}

theorem compareTuples_eq_gt_iff : Json.compareTuples a b = .gt ↔ KeyBefore b a := by
  rw [KeyBefore, Json.compareTuples_swap a b]
  cases Json.compareTuples b a <;> decide

theorem not_keyBefore_self (a : List Json) : ¬ KeyBefore a a := by
  rw [KeyBefore, Json.compareTuples_self]
  decide

end Fetch

namespace Plan

variable {plan : Plan} {db : Database} {row : Row}

theorem RootsKeyed.isComparable (h : plan.RootsKeyed db) (hrow : row ∈ plan.rootRows db) :
    ∀ v ∈ row.tuple plan.node.primaryKey, v.IsComparable := by
  obtain ⟨t, kinds, -, hkeyed⟩ := h
  exact ValueKind.isComparable_of_admitsAll (hkeyed.keyed row (mem_rootRows.mp hrow)).admits

theorem RootsKeyed.sorted (h : plan.RootsKeyed db) :
    (plan.keysOf (plan.rootRows db)).Pairwise Fetch.KeyBefore := by
  obtain ⟨t, kinds, hfits, hkeyed⟩ := h
  exact List.pairwise_map.mpr (hkeyed.rowsWhere_all_sorted hfits)

end Plan

namespace RootScan

open Fetch (KeyBefore)

variable {plan : Plan} {db : Database} {scan : RootScan} {row : Row} {key : List Json}

/-- The values of the cursor can be compared. -/
def Comparable (scan : RootScan) : Prop := ∀ values ∈ scan.cursor, ∀ v ∈ values, v.IsComparable

/-- What is ahead comes after the cursor. -/
theorem isAhead_iff : scan.isAhead key ↔ ∀ values ∈ scan.cursor, KeyBefore values key := by
  rw [isAhead]
  cases scan.cursor with
  | none => simp
  | some values => simpa using Fetch.compareTuples_eq_gt_iff

/-! ### One page -/

theorem pageRows_sublist (scan : RootScan) (plan : Plan) (db : Database) :
    (scan.pageRows plan db).Sublist (scan.rowsAhead plan db) := by
  unfold pageRows
  split
  · exact List.nil_sublist _
  · exact List.take_sublist _ _

theorem mem_pageRows (h : row ∈ scan.pageRows plan db) :
    row ∈ plan.rootRows db ∧ scan.isAhead (row.tuple plan.node.primaryKey) :=
  List.mem_filter.mp ((pageRows_sublist scan plan db).subset h)

theorem sorted_rowsAhead (scan : RootScan) (hdb : plan.RootsKeyed db) :
    (plan.keysOf (scan.rowsAhead plan db)).Pairwise KeyBefore :=
  hdb.sorted.sublist (List.filter_sublist.map _)

theorem sorted_pageRows (scan : RootScan) (hdb : plan.RootsKeyed db) :
    (plan.keysOf (scan.pageRows plan db)).Pairwise KeyBefore :=
  (sorted_rowsAhead scan hdb).sublist ((pageRows_sublist scan plan db).map _)

theorem length_pageRows_le (scan : RootScan) (plan : Plan) (db : Database) :
    (scan.pageRows plan db).length ≤ scan.batch := by
  unfold pageRows
  split
  · exact Nat.zero_le _
  · exact List.length_take_le _ _

theorem exhausted_after (hopen : scan.exhausted = false) :
    (scan.after plan db).exhausted = true ↔ (scan.pageRows plan db).length < scan.batch := by
  simp [after, hopen]

/-- After a page the cursor is at the last key of it, and stays where it was when the page is empty. -/
theorem cursor_after (hopen : scan.exhausted = false) :
    (scan.after plan db).cursor = (plan.keysOf (scan.pageRows plan db)).getLast?.or scan.cursor := by
  simp [after, hopen, Plan.keysOf]

theorem Comparable.after (h : scan.Comparable) (hdb : plan.RootsKeyed db) :
    (scan.after plan db).Comparable := by
  cases hopen : scan.exhausted with
  | true => rwa [after_of_exhausted _ _ hopen]
  | false =>
    intro values hvalues
    rw [cursor_after hopen, Option.mem_def, Option.or_eq_some_iff] at hvalues
    rcases hvalues with hlast | ⟨-, hcursor⟩
    · obtain ⟨row, hrow, rfl⟩ := List.mem_map.mp (List.mem_of_getLast? hlast)
      exact hdb.isComparable (mem_pageRows hrow).1
    · exact h values hcursor

/-- The keys of a page were ahead of it. -/
theorem ahead_of_mem_pageRows (hdb : plan.RootsKeyed db)
    (h : key ∈ plan.keysOf (scan.pageRows plan db)) :
    scan.isAhead key ∧ ∀ v ∈ key, v.IsComparable := by
  obtain ⟨row, hrow, rfl⟩ := List.mem_map.mp h
  exact ⟨(mem_pageRows hrow).2, hdb.isComparable (mem_pageRows hrow).1⟩

/-- What is ahead after a page was ahead before it, and comes after every key of the page. -/
theorem ahead_of_after (h : scan.Comparable) (hdb : plan.RootsKeyed db)
    (hkey : ∀ v ∈ key, v.IsComparable) (hahead : (scan.after plan db).isAhead key) :
    scan.isAhead key ∧ ∀ read ∈ plan.keysOf (scan.pageRows plan db), KeyBefore read key := by
  cases hopen : scan.exhausted with
  | true =>
    rw [after_of_exhausted _ _ hopen] at hahead
    rw [pageRows_of_exhausted _ _ hopen]
    exact ⟨hahead, by simp [Plan.keysOf]⟩
  | false =>
    rw [isAhead_iff, cursor_after hopen] at hahead
    rw [isAhead_iff]
    obtain hempty | ⟨front, last, hpage⟩ := List.eq_nil_or_concat' (plan.keysOf (scan.pageRows plan db))
    · rw [hempty] at hahead ⊢
      exact ⟨hahead, by simp⟩
    have hmem : last ∈ plan.keysOf (scan.pageRows plan db) := by simp [hpage]
    obtain ⟨hlastAhead, hlast⟩ := ahead_of_mem_pageRows hdb hmem
    have hlt : KeyBefore last key := hahead last (by simp [hpage])
    refine ⟨fun values hvalues => ?_, fun read hread => ?_⟩
    · have hvalues' := h values hvalues
      have hbefore := isAhead_iff.mp hlastAhead values hvalues
      exact Json.compareTuples_lt_trans hvalues' hlast hkey hbefore hlt
    · have hread' := (ahead_of_mem_pageRows hdb hread).2
      have hsorted := sorted_pageRows scan hdb
      rw [hpage] at hread hsorted
      rcases List.mem_append.mp hread with hfront | hsingle
      · have hbefore := (List.pairwise_append.mp hsorted).2.2 read hfront last (List.mem_singleton_self _)
        exact Json.compareTuples_lt_trans hread' hlast hkey hbefore hlt
      · obtain rfl := List.mem_singleton.mp hsingle
        exact hlt

/-- A row that is ahead is read by the page, or ahead still. -/
theorem read_or_ahead (hbatch : 0 < scan.batch) (hopen : scan.exhausted = false)
    (hdb : plan.RootsKeyed db) (hrow : row ∈ plan.rootRows db)
    (hahead : scan.isAhead (row.tuple plan.node.primaryKey)) :
    row ∈ scan.pageRows plan db ∨ (scan.after plan db).exhausted = false ∧
      (scan.after plan db).isAhead (row.tuple plan.node.primaryKey) := by
  have hpage : scan.pageRows plan db = (scan.rowsAhead plan db).take scan.batch :=
    if_neg (by simp [hopen])
  have hmem : row ∈ scan.rowsAhead plan db := List.mem_filter.mpr ⟨hrow, hahead⟩
  have hsorted := List.pairwise_map.mp (sorted_rowsAhead scan hdb)
  rw [← List.take_append_drop scan.batch (scan.rowsAhead plan db), ← hpage] at hmem hsorted
  rcases List.mem_append.mp hmem with hread | hleft
  · exact .inl hread
  -- a row beyond the page means that the page is full
  have hlength : scan.batch ≤ (scan.pageRows plan db).length := by
    have hpos := List.length_pos_of_mem hleft
    rw [List.length_drop] at hpos
    rw [hpage, List.length_take]
    omega
  have hexhausted : (scan.after plan db).exhausted = false := by
    rw [← Bool.not_eq_true, exhausted_after hopen]
    omega
  refine .inr ⟨hexhausted, isAhead_iff.mpr fun values hvalues => ?_⟩
  have hne : plan.keysOf (scan.pageRows plan db) ≠ [] := by
    rw [Plan.keysOf, ne_eq, ← List.length_eq_zero_iff, List.length_map]
    omega
  rw [cursor_after hopen, List.getLast?_eq_some_getLast hne, Option.some_or] at hvalues
  obtain ⟨read, hread, hlast⟩ := List.mem_map.mp (List.getLast_mem hne)
  obtain rfl := hlast.trans (Option.some.inj hvalues)
  exact (List.pairwise_append.mp hsorted).2.2 read hread row hleft

/-! ### Page after page -/

/-- The rows of the pages that a scan reads one after another, each from a database of its own. -/
def rowsOver (plan : Plan) : RootScan → List Database → List (List Row)
  | _, [] => []
  | scan, db :: rest => scan.pageRows plan db :: rowsOver plan (scan.after plan db) rest

/-- The scan once these pages are read. -/
def afterAll (plan : Plan) : RootScan → List Database → RootScan
  | scan, [] => scan
  | scan, db :: rest => afterAll plan (scan.after plan db) rest

variable {dbs : List Database}

/-- An exhausted scan stays where it is, and reads nothing any more. -/
theorem afterAll_of_exhausted (plan : Plan) (dbs : List Database) (h : scan.exhausted = true) :
    afterAll plan scan dbs = scan ∧ (rowsOver plan scan dbs).flatten = [] := by
  induction dbs with
  | nil => exact ⟨rfl, rfl⟩
  | cons db rest ih =>
    rw [afterAll, rowsOver, after_of_exhausted _ _ h, pageRows_of_exhausted _ _ h]
    exact ih

/-- What the pages have lies ahead of the scan, in the order of the keys. -/
theorem sorted_rowsOver (h : scan.Comparable) (hdbs : ∀ db ∈ dbs, plan.RootsKeyed db) :
    (plan.keysOf (rowsOver plan scan dbs).flatten).Pairwise KeyBefore ∧
      ∀ key ∈ plan.keysOf (rowsOver plan scan dbs).flatten,
        scan.isAhead key ∧ ∀ v ∈ key, v.IsComparable := by
  induction dbs generalizing scan with
  | nil => exact ⟨.nil, by simp [rowsOver, Plan.keysOf]⟩
  | cons db rest ih =>
    obtain ⟨hdb, hrest⟩ := List.forall_mem_cons.mp hdbs
    obtain ⟨hsorted, hahead⟩ := ih (h.after hdb) hrest
    rw [rowsOver, List.flatten_cons, Plan.keysOf, List.map_append, ← Plan.keysOf, ← Plan.keysOf]
    refine ⟨List.pairwise_append.mpr ⟨sorted_pageRows scan hdb, hsorted, fun read hread key hkey => ?_⟩,
      fun key hkey => ?_⟩
    · obtain ⟨hkeyAhead, hkey⟩ := hahead key hkey
      exact (ahead_of_after h hdb hkey hkeyAhead).2 read hread
    · rcases List.mem_append.mp hkey with hread | hlater
      · exact ahead_of_mem_pageRows hdb hread
      · obtain ⟨hkeyAhead, hkey⟩ := hahead key hlater
        exact ⟨(ahead_of_after h hdb hkey hkeyAhead).1, hkey⟩

/-- A key ahead that every page could have read is read before the scan is exhausted. -/
theorem mem_rowsOver (hbatch : 0 < scan.batch) (hopen : scan.exhausted = false)
    (hdbs : ∀ db ∈ dbs, plan.RootsKeyed db) (hahead : scan.isAhead key)
    (hkey : ∀ db ∈ dbs, key ∈ plan.keysOf (plan.rootRows db))
    (hdone : (afterAll plan scan dbs).exhausted = true) :
    key ∈ plan.keysOf (rowsOver plan scan dbs).flatten := by
  induction dbs generalizing scan with
  | nil => simp [afterAll, hopen] at hdone
  | cons db rest ih =>
    obtain ⟨hdb, hrest⟩ := List.forall_mem_cons.mp hdbs
    obtain ⟨hfirst, hothers⟩ := List.forall_mem_cons.mp hkey
    obtain ⟨row, hrow, rfl⟩ := List.mem_map.mp hfirst
    rw [rowsOver, List.flatten_cons, Plan.keysOf, List.map_append]
    rcases read_or_ahead hbatch hopen hdb hrow hahead with hread | ⟨hopen', hahead'⟩
    · exact List.mem_append_left _ (List.mem_map_of_mem hread)
    · exact List.mem_append_right _
        (ih (by simpa using hbatch) hopen' hrest hahead' hothers hdone)

/-- A scan is exhausted by the first page that is not full. -/
theorem exhausted_afterAll (plan : Plan) (hbatch : 0 < scan.batch) (hopen : scan.exhausted = false)
    (dbs : List Database) :
    (afterAll plan scan dbs).exhausted = true ↔
      (rowsOver plan scan dbs).flatten.length < dbs.length * scan.batch := by
  induction dbs generalizing scan with
  | nil => simp [afterAll, rowsOver, hopen]
  | cons db rest ih =>
    have hle := length_pageRows_le scan plan db
    rw [afterAll, rowsOver, List.flatten_cons, List.length_append, List.length_cons, Nat.add_one_mul]
    cases hdone : (scan.after plan db).exhausted with
    | true =>
      obtain ⟨hover, hrows⟩ := afterAll_of_exhausted plan rest hdone
      have hshort := (exhausted_after hopen).mp hdone
      rw [hover, hrows, List.length_nil]
      exact iff_of_true hdone (by omega)
    | false =>
      have hfull : ¬ (scan.pageRows plan db).length < scan.batch := fun hshort =>
        Bool.false_ne_true (hdone.symm.trans ((exhausted_after hopen).mpr hshort))
      rw [ih (by simpa using hbatch) hdone, batch_after]
      omega

/-- A page without rows leaves the scan exhausted. -/
theorem exhausted_of_empty (hbatch : 0 < scan.batch) (h : [] ∈ rowsOver plan scan dbs) :
    (afterAll plan scan dbs).exhausted = true := by
  induction dbs generalizing scan with
  | nil => simp [rowsOver] at h
  | cons db rest ih =>
    rw [afterAll]
    rcases List.mem_cons.mp h with hempty | h
    · have hdone : (scan.after plan db).exhausted = true := by
        cases hopen : scan.exhausted with
        | true => rwa [after_of_exhausted _ _ hopen]
        | false => exact (exhausted_after hopen).mpr (by simpa [← hempty] using hbatch)
      rw [(afterAll_of_exhausted plan rest hdone).1]
      exact hdone
    · exact ih (by simpa using hbatch) h

theorem mem_database_of_mem_rowsOver (h : row ∈ (rowsOver plan scan dbs).flatten) :
    ∃ db ∈ dbs, row ∈ plan.node.rowsIn db := by
  induction dbs generalizing scan with
  | nil => simp [rowsOver] at h
  | cons db rest ih =>
    rw [rowsOver, List.flatten_cons] at h
    rcases List.mem_append.mp h with hread | hlater
    · exact ⟨db, List.mem_cons_self, Plan.mem_rootRows.mp (mem_pageRows hread).1⟩
    · obtain ⟨found, hfound, hrow⟩ := ih hlater
      exact ⟨found, List.mem_cons_of_mem _ hfound, hrow⟩

theorem nodup_rowsOver (h : scan.Comparable) (hdbs : ∀ db ∈ dbs, plan.RootsKeyed db) :
    (plan.keysOf (rowsOver plan scan dbs).flatten).Nodup := by
  obtain ⟨hsorted, -⟩ := sorted_rowsOver h hdbs
  refine hsorted.imp fun {a b} hbefore heq => ?_
  obtain rfl : a = b := heq
  exact Fetch.not_keyBefore_self a hbefore

theorem comparable_start (size : Nat) : (RootScan.start size).Comparable := by
  simp [Comparable, start]

theorem isAhead_start (size : Nat) (key : List Json) : (RootScan.start size).isAhead key := rfl

theorem batch_start_pos (size : Nat) : 0 < (RootScan.start size).batch :=
  Nat.lt_of_lt_of_le Nat.zero_lt_one (Nat.le_max_right _ _)

/-- A scan from its beginning that is exhausted has read every key that no page missed. -/
theorem mem_rowsOver_start {size : Nat} (hdbs : ∀ db ∈ dbs, plan.RootsKeyed db)
    (hkey : ∀ db ∈ dbs, key ∈ plan.keysOf (plan.node.rowsIn db))
    (hdone : (afterAll plan (.start size) dbs).exhausted = true) :
    key ∈ plan.keysOf (rowsOver plan (.start size) dbs).flatten := by
  refine mem_rowsOver (batch_start_pos size) rfl hdbs (isAhead_start size key)
    (fun db hdb => ?_) hdone
  obtain ⟨row, hrow, hvalue⟩ := List.mem_map.mp (hkey db hdb)
  exact List.mem_map.mpr ⟨row, Plan.mem_rootRows.mpr hrow, hvalue⟩

/-- Of a database that stays as it is, a scan reads no row twice. -/
theorem subperm_rowsOver (h : scan.Comparable) (hdbs : ∀ db ∈ dbs, plan.RootsKeyed db)
    (hsame : ∀ other ∈ dbs, other = db) :
    (rowsOver plan scan dbs).flatten.Subperm (plan.node.rowsIn db) := by
  refine List.subperm_of_subset ((nodup_rowsOver h hdbs).of_map _) fun row hrow => ?_
  obtain ⟨found, hfound, hread⟩ := mem_database_of_mem_rowsOver hrow
  exact hsame found hfound ▸ hread

/-- Of a database that stays as it is, an exhausted scan has read everything. -/
theorem perm_rowsOver (size : Nat) (hdbs : ∀ other ∈ dbs, plan.RootsKeyed other)
    (hsame : ∀ other ∈ dbs, other = db) (hdone : (afterAll plan (.start size) dbs).exhausted = true) :
    (rowsOver plan (.start size) dbs).flatten.Perm (plan.node.rowsIn db) := by
  have hsub := subperm_rowsOver (comparable_start size) hdbs hsame
  obtain ⟨first, hfirst⟩ : ∃ first, first ∈ dbs := by
    refine List.exists_mem_of_ne_nil dbs ?_
    rintro rfl
    exact Bool.false_ne_true hdone
  obtain ⟨t, kinds, -, hkeyed⟩ := hsame first hfirst ▸ hdbs first hfirst
  refine hsub.antisymm (List.subperm_of_subset hkeyed.nodup fun row hrow => ?_)
  have hkey : row.tuple plan.node.primaryKey ∈ plan.keysOf (rowsOver plan (.start size) dbs).flatten :=
    mem_rowsOver_start hdbs (fun other hother => List.mem_map_of_mem (hsame other hother ▸ hrow)) hdone
  obtain ⟨read, hread, hvalue⟩ := List.mem_map.mp hkey
  exact hkeyed.eq_of_tuple_eq (hsub.subset hread) hrow hvalue ▸ hread

/-- Pages that a scan gives one after another, each in a world of its own: what others commit between two
pages is part of the world of the second. -/
inductive Pages (wiring : Wiring) (plan : Plan) :
    RootScan → List World → List (Option (List RowTree)) → RootScan → Prop
  | nil (scan : RootScan) : Pages wiring plan scan [] [] scan
  | cons {scan next last : RootScan} {w : World} {worlds : List World} {page : Option (List RowTree)}
      {pages : List (Option (List RowTree))} :
      Attempt.Gives wiring w (scan.nextPage plan) (.ok (page, next)) →
      Pages wiring plan next worlds pages last →
      Pages wiring plan scan (w :: worlds) (page :: pages) last

/-- The pages that the runs of a scan return, one run in each world. -/
def readPages (wiring : Wiring) (plan : Plan) :
    RootScan → List World → Option (List (Option (List RowTree)) × RootScan)
  | scan, [] => some ([], scan)
  | scan, w :: worlds =>
    match (World.runRoutine wiring (scan.nextPage plan).run (w, [])).1 with
    | some (.ok (page, next)) =>
      (readPages wiring plan next worlds).map fun (pages, last) => (page :: pages, last)
    | _ => none

theorem Pages.readPages_eq {wiring : Wiring} {last : RootScan} {worlds : List World}
    {pages : List (Option (List RowTree))} (h : Pages wiring plan scan worlds pages last) :
    readPages wiring plan scan worlds = some (pages, last) := by
  induction h with
  | nil => rfl
  | cons hpage _ ih =>
    rw [readPages, hpage [] rfl]
    dsimp only
    rw [ih, Option.map_some]

/-- The trees that pages returned, in order. -/
def returned (pages : List (Option (List RowTree))) : List RowTree := pages.flatMap (·.getD [])

/-- The key of the root of a tree. -/
def rootKey (plan : Plan) (tree : RowTree) : List Json := tree.row.tuple plan.node.primaryKey

variable {wiring : Wiring} {worlds : List World}

/-- The pages of a scan have the trees of their rows. -/
theorem pages_over (hwiring : wiring.Plain) {allowed : String → Prop}
    (hworlds : ∀ w ∈ worlds, plan.Joined w.database.schema allowed) (scan : RootScan) :
    ∃ pages, Pages wiring plan scan worlds pages (afterAll plan scan (worlds.map (·.database))) ∧
      List.Forall₂ (fun rows page => (page.getD []).map RowTree.row = rows)
        (rowsOver plan scan (worlds.map (·.database))) pages ∧
      List.Forall₂ (fun w page => ∀ tree ∈ page.getD [], tree.row ∈ plan.node.rowsIn w.database)
        worlds pages := by
  induction worlds generalizing scan with
  | nil => exact ⟨[], .nil scan, .nil, .nil⟩
  | cons w rest ih =>
    obtain ⟨hfirst, hrest⟩ := List.forall_mem_cons.mp hworlds
    obtain ⟨pages, hpages, hrows, hstanding⟩ := ih hrest (scan.after plan w.database)
    have hpage := nextPage_gives hwiring hfirst scan
    have hread : ((if scan.pageRows plan w.database = [] then none else
        some (Fetch.attached w.database plan (scan.pageRows plan w.database))).getD []).map
          RowTree.row = scan.pageRows plan w.database := by
      split
      · rename_i hempty
        exact hempty.symm
      · exact Fetch.map_row_attached _ _ _
    refine ⟨_ :: pages, .cons hpage hpages, .cons hread hrows, .cons (fun tree htree => ?_) hstanding⟩
    have hrow := List.mem_map_of_mem htree (f := RowTree.row)
    rw [hread] at hrow
    exact Plan.mem_rootRows.mp (mem_pageRows hrow).1

/-- What holds of the pages of a scan, whatever is written between them. -/
structure Sound (wiring : Wiring) (plan : Plan) (size : Nat) (worlds : List World)
    (pages : List (Option (List RowTree))) (last : RootScan) : Prop where
  increasing : ((returned pages).map (rootKey plan)).Pairwise KeyBefore
  /-- A tree stands over a row as it was when its page was read. -/
  standing : List.Forall₂ (fun w page => ∀ tree ∈ page.getD [], tree.row ∈ plan.node.rowsIn w.database)
    worlds pages
  ended : none ∈ pages → last.exhausted = true
  /-- A key that every page could have read is returned once. -/
  covers : last.exhausted = true → ∀ key,
    (∀ w ∈ worlds, key ∈ plan.keysOf (plan.node.rowsIn w.database)) →
      ∃! place : Nat, ((returned pages).map (rootKey plan))[place]? = some key
  /-- Where nobody writes, the pages have the whole table once there are more than it fills. -/
  whole : ∀ db, (∀ w ∈ worlds, w.database = db) →
    (last.exhausted = true ↔ (plan.node.rowsIn db).length < worlds.length * size) ∧
      (last.exhausted = true → ((returned pages).map RowTree.row).Perm (plan.node.rowsIn db))
  silent : last.exhausted = true → ∀ w, Attempt.Gives wiring w (last.nextPage plan) (.ok (none, last))

theorem map_row_returned {rows : List (List Row)} {pages : List (Option (List RowTree))}
    (h : List.Forall₂ (fun rows page => (page.getD []).map RowTree.row = rows) rows pages) :
    (returned pages).map RowTree.row = rows.flatten := by
  induction h with
  | nil => rfl
  | cons hfirst _ ih =>
    rw [returned, List.flatMap_cons, List.map_append, hfirst, List.flatten_cons]
    exact congrArg _ ih

/-- Whatever is committed between the pages of a scan, its roots come in the order of their keys, each as
its page found it, and when it ends, every key that was there all along has come once. -/
theorem pages_sound {wiring : Wiring} (hwiring : wiring.Plain) {schema : Schema}
    (hschema : schema.Linked) {declared : Node} {plan : Plan}
    (hbuilt : Plan.build declared schema = .ok plan)
    (hplain : ∀ c ∈ plan.node.primaryKey, c ∉ Table.systemColumns) {worlds : List World}
    (hworlds : ∀ w ∈ worlds, w.database.Reached ∧ w.database.schema = schema)
    (hkinds : ∀ w ∈ worlds, ∃ kinds : List ValueKind,
      ∀ row ∈ plan.node.rowsIn w.database, AdmitsAll kinds (row.tuple plan.node.primaryKey))
    (size : Nat) :
    ∃ pages last, Pages wiring plan (.start size) worlds pages last ∧
      Sound wiring plan (max size 1) worlds pages last := by
  have hjoined : ∀ w ∈ worlds, plan.Joined w.database.schema fun _ => True := fun w hw =>
    (hworlds w hw).2 ▸ (Plan.build_joined hschema (fun _ _ _ _ _ => trivial) hbuilt).1
  have hkeyed : ∀ db ∈ worlds.map (·.database), plan.RootsKeyed db := by
    refine List.forall_mem_map.mpr fun w hw => ?_
    obtain ⟨t, hfits⟩ := (hjoined w hw).node
    obtain ⟨kinds, hadmits⟩ := hkinds w hw
    exact ⟨t, kinds, hfits, (hworlds w hw).1.keyedIn_of_plain hfits hplain hadmits⟩
  obtain ⟨pages, hpages, hrows, hstanding⟩ := pages_over hwiring hjoined (.start size)
  have hread := map_row_returned hrows
  have hkeys : (returned pages).map (rootKey plan) =
      plan.keysOf (rowsOver plan (.start size) (worlds.map (·.database))).flatten := by
    rw [← hread, Plan.keysOf, List.map_map]
    rfl
  have hnodup := nodup_rowsOver (comparable_start size) hkeyed
  have hended := exhausted_afterAll plan (batch_start_pos size) rfl (worlds.map (·.database))
  refine ⟨pages, _, hpages, ?_, hstanding, fun hnone => ?_, fun hdone key hkey => ?_, fun db hsame => ?_,
    fun hdone w => ?_⟩
  · rw [hkeys]
    exact (sorted_rowsOver (comparable_start size) hkeyed).1
  · obtain ⟨rows, hmem, hempty⟩ := exists_of_forall₂ hrows hnone
    obtain rfl : [] = rows := hempty
    exact exhausted_of_empty (batch_start_pos size) hmem
  · have hmem := mem_rowsOver_start hkeyed (List.forall_mem_map.mpr hkey) hdone
    obtain ⟨place, hplace⟩ := List.mem_iff_getElem?.mp hmem
    rw [hkeys]
    refine ⟨place, hplace, fun other hother => ?_⟩
    have hbound := (List.getElem?_eq_some_iff.mp hother).1
    exact (List.getElem?_inj hbound hnodup).mp (hother.trans hplace.symm)
  · have hsame' : ∀ other ∈ worlds.map (·.database), other = db := List.forall_mem_map.mpr hsame
    have hperm := perm_rowsOver size hkeyed hsame'
    rw [hread]
    rw [List.length_map] at hended
    refine ⟨⟨fun hdone => ?_, fun hshort => ?_⟩, hperm⟩
    · rw [← (hperm hdone).length_eq]
      exact hended.mp hdone
    · have hle := (subperm_rowsOver (comparable_start size) hkeyed hsame').length_le
      exact hended.mpr (Nat.lt_of_le_of_lt hle hshort)
  · unfold nextPage
    rw [if_pos hdone]
    exact Attempt.gives_pure _

/-! Seats that come and go on both sides of the cursor. -/

def seatSchema : Schema :=
  .ofTables [⟨"seat", [⟨"row", "text"⟩, ⟨"number", "integer"⟩], ["row", "number"], []⟩]

def seatPlan : Plan :=
  ⟨⟨"seat", none, ["row", "number"], [], ["row", "number"], ["row", "number"], none⟩, []⟩

def seat (row : String) (number : Nat) : Row := [("row", .string row), ("number", .ofNat number)]

def fewSeats : Database :=
  (Database.empty seatSchema).committed
    [.insert "seat" (seat "A" 1), .insert "seat" (seat "A" 2), .insert "seat" (seat "B" 1)]

/-- One seat appears before the cursor, one that is not read yet is gone. -/
def movedSeats : Database :=
  fewSeats.committed [.insert "seat" (seat "A" 0), .delete "seat" (seat "A" 2)]

def moreSeats : Database := movedSeats.committed [.insert "seat" (seat "B" 2)]

def seatWorld (db : Database) : World :=
  { World.empty seatSchema seatSchema "" "" with database := db }

def seatWorlds : List World := [fewSeats, movedSeats, moreSeats, moreSeats].map seatWorld

theorem pages_sound_of_seats :
    seatSchema.Linked ∧ Plan.build ⟨"seat", [], [], none, []⟩ seatSchema = .ok seatPlan ∧
      ∃ pages last, Pages (.ofSink "main") seatPlan (.start 1) seatWorlds pages last ∧
        pages = [some [⟨seat "A" 1, []⟩], some [⟨seat "B" 1, []⟩], some [⟨seat "B" 2, []⟩], none] ∧
        last.exhausted = true ∧ Sound (.ofSink "main") seatPlan 1 seatWorlds pages last := by
  have hschema : seatSchema.Linked := Schema.linked_of_entries (by decide +kernel)
  have hbuilt : Plan.build ⟨"seat", [], [], none, []⟩ seatSchema = .ok seatPlan := by cbv
  have hfew : fewSeats.Reached := (Database.Reached.empty _).committed _
  have hmoved : movedSeats.Reached := hfew.committed _
  have hmore : moreSeats.Reached := hmoved.committed _
  have hfewSchema : fewSeats.schema = seatSchema := Database.schema_committed _ _
  have hmovedSchema : movedSeats.schema = seatSchema := (Database.schema_committed _ _).trans hfewSchema
  have hmoreSchema : moreSeats.schema = seatSchema := (Database.schema_committed _ _).trans hmovedSchema
  have hworlds : ∀ w ∈ seatWorlds, w.database.Reached ∧ w.database.schema = seatSchema := by
    simp only [seatWorlds, List.map_cons, List.map_nil, List.forall_mem_cons]
    exact ⟨⟨hfew, hfewSchema⟩, ⟨hmoved, hmovedSchema⟩, ⟨hmore, hmoreSchema⟩, ⟨hmore, hmoreSchema⟩,
      by simp⟩
  have hkinds : ∀ w ∈ seatWorlds, ∃ kinds : List ValueKind, ∀ row ∈ seatPlan.node.rowsIn w.database,
      AdmitsAll kinds (row.tuple seatPlan.node.primaryKey) :=
    fun w hw => ⟨[.text, .integer], (by decide +kernel : ∀ w ∈ seatWorlds,
      ∀ row ∈ seatPlan.node.rowsIn w.database,
        AdmitsAll [.text, .integer] (row.tuple seatPlan.node.primaryKey)) w hw⟩
  obtain ⟨pages, last, hpages, hsound⟩ := pages_sound (Wiring.plain_ofSink "main") hschema hbuilt
    (by decide) hworlds hkinds 1
  have hread : readPages (.ofSink "main") seatPlan (.start 1) seatWorlds = some
      ([some [⟨seat "A" 1, []⟩], some [⟨seat "B" 1, []⟩], some [⟨seat "B" 2, []⟩], none],
        ⟨1, some [.string "B", .ofNat 2], true⟩) := by cbv
  obtain ⟨hread, rfl⟩ := Prod.mk.inj (Option.some.inj (hpages.readPages_eq.symm.trans hread))
  exact ⟨hschema, hbuilt, pages, _, hpages, hread, rfl, hsound⟩

/-! A table whose key has the name of a system column. -/

def tagSchema : Schema :=
  .ofTables [⟨"tag", [⟨"xmin", "integer"⟩, ⟨"name", "text"⟩], ["xmin"], []⟩]

def tagPlan : Plan := ⟨⟨"tag", none, ["xmin", "name"], [], ["xmin", "name"], ["xmin"], none⟩, []⟩

/-- Two rows of one transaction. -/
def tagDatabase : Database :=
  (Database.empty tagSchema).committed
    [.insert "tag" [("xmin", .ofNat 1), ("name", .string "a")],
      .insert "tag" [("xmin", .ofNat 2), ("name", .string "b")]]

def tagWorld : World := { World.empty tagSchema tagSchema "" "" with database := tagDatabase }

/-- The cursor goes by the transaction that wrote a row, which the rows share: the second is skipped. -/
theorem readPages_skips_system_key :
    tagSchema.Linked ∧ Plan.build ⟨"tag", [], [], none, []⟩ tagSchema = .ok tagPlan ∧
      tagDatabase.Reached ∧
      (∀ row ∈ tagPlan.node.rowsIn tagDatabase,
        AdmitsAll [.integer] (row.tuple tagPlan.node.primaryKey)) ∧
      (tagDatabase.tables.getD "tag" []).map (·.values) =
        [[("xmin", .ofNat 1), ("name", .string "a")], [("xmin", .ofNat 2), ("name", .string "b")]] ∧
      readPages (.ofSink "main") tagPlan (.start 1) [tagWorld, tagWorld] =
        some ([some [⟨[("xmin", .ofNat 1), ("name", .string "a")], []⟩], none],
          ⟨1, some [.ofNat 1], true⟩) :=
  ⟨Schema.linked_of_entries (by decide +kernel), by cbv, (Database.Reached.empty _).committed _,
    by decide +kernel, by cbv, by cbv⟩

end RootScan

end DocSync
