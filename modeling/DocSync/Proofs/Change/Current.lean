import DocSync.Proofs.Change.Climbing
import DocSync.Proofs.Change.Named
import DocSync.Proofs.Change.Operations
import DocSync.Proofs.Change.Window
import DocSync.Proofs.Job.Matching
import DocSync.Proofs.Sink.Writing

/-!
What may stand in an index while changes are still to be read.  For each of its records a resolution has
operations for the roots that the record names, for those that the sink finds by its keys, and for those above
the row that it tells of.  A document is current when the tree that it was compiled from, at whatever time, is
what the database has up to rows that later transactions changed.  Commits keep it so.  When the transactions
up to some later one are read, it stays so under every identity that the resolution of what was read does not
name.
-/

namespace DocSync

/-! ### What a resolution covers -/

section

open Attempt

variable {wiring : Wiring} {w : World} {plan : Plan} {node : PlanNode} {above : List PlanNode}
  {address : List Nat} {writer : Writer} {s : ChangeRecord} {t : Table} {stored : StoredRow} {top : Row}

/-- The row that a record tells of leads up to a root, from a node that reads its table. -/
def ChangeRecord.LeadsTo (s : ChangeRecord) (db : Database) (node : PlanNode) (above : List PlanNode)
    (top : Row) : Prop :=
  ∃ t stored, db.schema.table? node.table = some t ∧ stored ∈ db.tables.getD node.table [] ∧
    s.Tells t stored ∧
      Lineage db node (Database.project node.fetchColumns stored.visible) above top

namespace Resolution

/-- The operations take care of a record at a path of its table: they cover what the sink finds by its keys,
and name the roots that the row leads to. -/
structure CoversAt (wiring : Wiring) (w : World) (root : PlanNode) (writer : Writer) (s : ChangeRecord)
    (node : PlanNode) (above : List PlanNode) (r : Resolution) : Prop where
  lookups : ∀ key ∈ s.key :: s.oldKey.toList, r.Covers (Resolve.foundFor w wiring writer node key)
  lines : ∀ top, s.LeadsTo w.database node above top →
    r.Names (Identity.ofKey (top.tuple root.primaryKey))

/-- The operations take care of a record: of one of the root table by its own keys, of any other at every
path of its table. -/
structure Follows (wiring : Wiring) (w : World) (plan : Plan) (writer : Writer) (r : Resolution)
    (s : ChangeRecord) : Prop where
  root : s.table = plan.node.table → ∀ identity, s.NamesRoot plan.node identity → r.Names identity
  nested : s.table ≠ plan.node.table → ∀ node above, node :: above ∈ plan.pathsOf s.table →
    r.CoversAt wiring w plan.node writer s node above

variable {r r' : Resolution}

theorem CoversAt.mono (h : r.CoversAt wiring w plan.node writer s node above) (hwithin : r.Within r') :
    r'.CoversAt wiring w plan.node writer s node above :=
  ⟨fun key hkey => (h.lookups key hkey).mono hwithin,
    fun top htop => hwithin.names _ (h.lines top htop)⟩

end Resolution

namespace Resolve

/-- Walking up from the row that a record tells of reaches every root above it. -/
theorem tuple_mem_of_walkToRoots (hwiring : wiring.Plain) (hfits : plan.Fits w.database.schema)
    (hplan : plan.ComparableIn w.database) (hplain : plan.Unreserved)
    (hline : plan.lineTo [] address = some (node :: above)) {keys : List (List Json)}
    (hwalk : Gives wiring w (walkToRoots plan.node (node :: above) s) (.ok keys))
    (htop : s.LeadsTo w.database node above top) : top.tuple plan.node.primaryKey ∈ keys := by
  obtain ⟨t, stored, ht, hstored, htells, hlineage⟩ := htop
  obtain ⟨below, ⟨hbelowFits, hbelow, hbelowPlain⟩, rfl⟩ := Plan.exists_of_lineTo
    (P := fun plan => plan.Fits w.database.schema ∧ plan.ComparableIn w.database ∧ plan.Unreserved)
    (fun plan h child hchild => ⟨(h.1.child hchild).1, h.2.1.child hchild, h.2.2.child hchild⟩)
    ⟨hfits, hplan, hplain⟩ hline
  obtain ⟨t', hnode⟩ := hbelowFits.node
  obtain ⟨kinds, hkeyed⟩ := hbelow.keyed
  obtain rfl : t = t' := Option.some.inj (ht.symm.trans hnode.table)
  obtain ⟨row, hchanged, hcolumns⟩ :=
    changedRow_gives_row hwiring hnode hbelowPlain.key hkeyed hstored htells
  have hin : Database.project below.node.fetchColumns stored.visible ∈
      below.node.rowsIn w.database := PlanNode.mem_rowsIn.mpr ⟨stored, hstored, rfl⟩
  generalize Database.project below.node.fetchColumns stored.visible = found at hcolumns hin hlineage
  -- the row as the record has it starts the same climb as the row that is there
  have hsame := climb_congr_of_lineTo hfits hplan hline
    (fun c hc => ⟨hnode.keyFetched c hc, hbelowPlain.key c hc⟩) hcolumns
  obtain ⟨tops, hclimb, -, htops⟩ := climb_gives_tops hwiring plan.node
    (Plan.ascends_of_lineTo hfits hplan (.top plan.node) hline)
    (fun other hother => List.mem_singleton.mp hother ▸ hin) (List.nodup_singleton found)
  rw [← hsame] at hclimb
  have hwalked : Gives wiring w (walkToRoots plan.node (below.node :: above) s)
      (.ok (tops.map (·.tuple plan.node.primaryKey))) := by
    rw [walkToRoots]
    exact hchanged.bind hclimb
  obtain rfl := Except.ok.inj (hwalk.unique hwalked)
  exact List.mem_map_of_mem ((htops top).mpr ⟨found, List.mem_singleton_self _, hlineage⟩)

/-- A record of a nested table is taken care of at each path that is given. -/
theorem resolveNested_gives_covering (hwiring : wiring.Plain) (hfits : plan.Fits w.database.schema)
    (hplan : plan.ComparableIn w.database) (hplain : plan.Unreserved) (writer : Writer)
    (htable : s.table ≠ plan.node.table) {paths : List (List PlanNode)}
    (hpaths : ∀ path ∈ paths, path ∈ plan.pathsOf s.table) (found : Resolution) :
    ∃ found', Gives wiring w (resolveNested writer plan.node s paths found) (.ok found') ∧
      found.Within found' ∧ ∀ node above, node :: above ∈ paths →
        found'.CoversAt wiring w plan.node writer s node above := by
  induction paths generalizing found with
  | nil => exact ⟨found, gives_pure _, .refl found, by simp⟩
  | cons path paths ih =>
    obtain ⟨hpath, hothers⟩ := List.forall_mem_cons.mp hpaths
    obtain ⟨node, above, rfl, -, ⟨t, hnode⟩, hclimbable, hlast⟩ :=
      pathsOf_climbable hfits htable path hpath
    obtain ⟨address, _, _, hline, -, -⟩ := Plan.mem_pathsFrom_iff.mp hpath
    obtain ⟨looked, hlooked, hwithin, hcovers⟩ :=
      lookUp_gives writer plan.node node (s.key :: s.oldKey.toList) found
    obtain ⟨keys, hwalk, -⟩ := walkToRoots_gives_keys hwiring hnode hclimbable hlast s
    obtain ⟨found', hrest, hrested, hcovered⟩ := ih hothers (keys.foldl Resolution.pushKey looked)
    have hpushed := (looked.within_foldl_pushKey keys).trans hrested
    refine ⟨found', ?_, hwithin.trans hpushed, fun other upper hmem => ?_⟩
    · rw [resolveNested]
      exact hlooked.bind (hwalk.bind hrest)
    · rcases List.mem_cons.mp hmem with heq | hmem
      · obtain ⟨rfl, rfl⟩ := List.cons.inj heq
        refine ⟨fun key hkey => (hcovers key hkey).mono hpushed, fun top htop => ?_⟩
        refine hrested.names _ ((Resolution.names_foldl_pushKey keys).mpr (.inr ⟨_, ?_, rfl⟩))
        exact tuple_mem_of_walkToRoots hwiring hfits hplan hplain hline hwalk htop
      · exact hcovered other upper hmem

theorem within_resolveRoot (root : PlanNode) (s : ChangeRecord) (found : Resolution) :
    found.Within (resolveRoot root s found) := by
  refine ⟨fun identity hnames => names_resolveRoot.mpr (.inl hnames), fun hall => ?_⟩
  rw [resolveRoot]
  cases s.oldKey with
  | none => exact hall
  | some old =>
    dsimp only
    split <;> exact hall

/-- Resolving takes care of every record. -/
theorem resolveFrom_gives_following (hwiring : wiring.Plain) (hfits : plan.Fits w.database.schema)
    (hplan : plan.ComparableIn w.database) (hplain : plan.Unreserved) (writer : Writer)
    (records : List ChangeRecord) (found : Resolution) :
    ∃ found', Gives wiring w (resolveFrom plan writer records found) (.ok found') ∧
      found.Within found' ∧ ∀ s ∈ records, found'.Follows wiring w plan writer s := by
  induction records generalizing found with
  | nil => exact ⟨found, gives_pure _, .refl found, by simp⟩
  | cons s rest ih =>
    rw [resolveFrom]
    by_cases htable : s.table = plan.node.table
    · obtain ⟨found', hgives, hwithin, hfollows⟩ := ih (resolveRoot plan.node s found)
      refine ⟨found', by rw [if_pos htable]; exact (gives_pure _).bind hgives,
        (within_resolveRoot _ s found).trans hwithin, List.forall_mem_cons.mpr ⟨?_, hfollows⟩⟩
      exact ⟨fun _ identity hnames => hwithin.names _ (names_resolveRoot.mpr (.inr hnames)),
        fun hne => absurd htable hne⟩
    · obtain ⟨nested, hnested, hbegun, hcovers⟩ := resolveNested_gives_covering hwiring hfits hplan
        hplain writer htable (fun path hpath => hpath) found
      obtain ⟨found', hgives, hwithin, hfollows⟩ := ih nested
      refine ⟨found', by rw [if_neg htable]; exact hnested.bind hgives, hbegun.trans hwithin,
        List.forall_mem_cons.mpr ⟨?_, hfollows⟩⟩
      exact ⟨fun heq => absurd heq htable,
        fun _ node above hpath => (hcovers node above hpath).mono hwithin⟩

end Resolve

end

/-! ### What is current -/

open ValueKind (HasAll)

namespace Plan

variable {kindOf : String → ValueKind} {plan : Plan} {index identity : String} {db db' : Database}
  {txid upTo : Nat} {found : Option Document} {name : RowName}

/-- Transactions after `txid` changed the row, as the log has it. -/
def Dirty (plan : Plan) (log : List ChangeRecord) (txid : Nat) (name : RowName) : Prop :=
  ∃ r ∈ log, txid < r.txid ∧ name ∈ r.names plan

/-- What a resync stores under an identity: the document of the root, and nothing without a root. -/
def Derives (plan : Plan) (index : String) (db : Database) (identity : String) : Option Document → Prop
  | none => ∀ row ∈ plan.node.rowsIn db, plan.node.identityOf row ≠ identity
  | some d => ∃ row ∈ plan.node.rowsIn db, plan.node.identityOf row = identity ∧
      ∃ derived, plan.compile index (plan.treeIn db row) = .ok derived ∧ d.text = derived.text

/-- The document tells of a tree that the database has up to rows that transactions after `txid`
changed. -/
structure Remembers (kindOf : String → ValueKind) (plan : Plan) (index : String) (db : Database)
    (txid : Nat) (tree : RowTree) (d : Document) : Prop where
  compiled : ∃ derived, plan.compile index tree = .ok derived ∧ d.text = derived.text
  keyed : ∀ node row, tree.Holds plan node row →
    HasAll [kindOf node.table] (row.tuple node.primaryKey)
  faithful : tree.Faithful db (plan.Dirty db.log txid) plan

/-- What stands under an identity is what a resync stores, up to what transactions after `txid` changed. -/
def Current (kindOf : String → ValueKind) (plan : Plan) (index : String) (db : Database) (txid : Nat)
    (identity : String) : Option Document → Prop
  | none => ∀ row ∈ plan.node.rowsIn db, plan.node.identityOf row = identity →
      plan.Dirty db.log txid (plan.node.nameOf row)
  | some d => ∃ tree : RowTree, plan.node.identityOf tree.row = identity ∧
      plan.Remembers kindOf index db txid tree d

/-! ### Between cycles -/

theorem Orderly.current_of_derives (h : plan.Orderly kindOf db)
    (hderives : plan.Derives index db identity found) (txid : Nat) :
    plan.Current kindOf index db txid identity found := by
  cases found with
  | none => exact fun row hrow hidentity => absurd hidentity (hderives row hrow)
  | some d =>
    obtain ⟨row, hrow, hidentity, hcompiled⟩ := hderives
    have hfaithful (dirty : RowName → Prop) :=
      RowTree.treeIn_faithful dirty h.fits h.comparableIn hrow
    refine ⟨plan.treeIn db row, by rwa [treeIn_row], hcompiled, fun node row hholds => ?_, hfaithful _⟩
    exact h.hasAll_key hholds.hasNode (RowTree.Faithful.mem_rowsIn hholds (hfaithful _))

/-- Where no later transaction changed anything, a resync stores what stands there. -/
theorem Orderly.derives_of_current (h : plan.Orderly kindOf db) (hlast : ∀ r ∈ db.log, r.txid ≤ txid)
    (hcurrent : plan.Current kindOf index db txid identity found) :
    plan.Derives index db identity found := by
  have hclean : plan.Dirty db.log txid = fun _ => False := by
    funext name
    exact eq_false fun ⟨r, hr, hlater, _⟩ => absurd (hlast r hr) (Nat.not_le.mpr hlater)
  cases found with
  | none =>
    intro row hrow hidentity
    have hdirty := hcurrent row hrow hidentity
    rwa [hclean] at hdirty
  | some d =>
    obtain ⟨tree, hidentity, hcompiled, -, hfaithful⟩ := hcurrent
    rw [hclean] at hfaithful
    obtain ⟨hrow, htree⟩ := hfaithful.eq_treeIn h.fits h.comparableIn
    exact ⟨tree.row, hrow, hidentity, htree ▸ hcompiled⟩

theorem Current.mono (h : plan.Current kindOf index db txid identity found) (hle : upTo ≤ txid) :
    plan.Current kindOf index db upTo identity found := by
  have hdirty (name : RowName) : plan.Dirty db.log txid name → plan.Dirty db.log upTo name :=
    fun ⟨r, hr, hlater, hname⟩ => ⟨r, hr, Nat.lt_of_le_of_lt hle hlater, hname⟩
  cases found with
  | none => exact fun row hrow hidentity => hdirty _ (h row hrow hidentity)
  | some d =>
    obtain ⟨tree, hidentity, hcompiled, hkeyed, hfaithful⟩ := h
    exact ⟨tree, hidentity, hcompiled, hkeyed, hfaithful.mono hdirty fun _ _ _ _ => Iff.rfl⟩

/-- Commits change only what their records name. -/
theorem Current.reaches (hcurrent : plan.Current kindOf index db txid identity found)
    (h : plan.Orderly kindOf db) (h' : plan.Orderly kindOf db') (hreaches : Database.Reaches db db')
    (hle : txid ≤ db.lastTxid) : plan.Current kindOf index db' txid identity found := by
  obtain ⟨-, more, hlog, hmore⟩ := hreaches.log
  have hdirty (name : RowName) : plan.Dirty db.log txid name → plan.Dirty db'.log txid name :=
    fun ⟨r, hr, hlater, hname⟩ => ⟨r, hlog ▸ List.mem_append_left _ hr, hlater, hname⟩
  have hagree (node : PlanNode) (hnode : plan.HasNode node) (row : Row)
      (hclean : ¬ plan.Dirty db'.log txid (node.nameOf row)) :
      row ∈ node.rowsIn db ↔ row ∈ node.rowsIn db' := by
    refine h.mem_rowsIn_iff h' hreaches.keepsSchema hlog hnode fun r hr hname => hclean ?_
    exact ⟨r, hlog ▸ List.mem_append_right _ hr, Nat.lt_of_le_of_lt hle (hmore r hr), hname⟩
  cases found with
  | none =>
    intro row hrow hidentity
    by_contra hclean
    have hbefore := (hagree plan.node (.root plan) row hclean).mpr hrow
    exact hclean (hdirty _ (hcurrent row hbefore hidentity))
  | some d =>
    obtain ⟨tree, hidentity, hcompiled, hkeyed, hfaithful⟩ := hcurrent
    exact ⟨tree, hidentity, hcompiled, hkeyed, hfaithful.mono hdirty hagree⟩

/-! ### What was read -/

/-- Records that tell what the transactions of a window did: all their records are among them, and as far
as the last one about a row goes they are in the order of the log. -/
structure Told (plan : Plan) (log : List ChangeRecord) (window : TxWindow) (records : List ChangeRecord) :
    Prop where
  logged : ∀ r ∈ records, r ∈ log
  covered : ∀ r ∈ log, window.contains r.txid → r ∈ records
  last : ∀ name w, (Coalesce.about plan name log).getLast? = some w → window.contains w.txid →
    (Coalesce.about plan name records).getLast? = some w

/-- The records of a window, and then a run of the log, each of its records as often as it was pushed. -/
theorem told_of_parts {log before since after : List ChangeRecord} {window : TxWindow} (copies : Nat)
    (hlog : log = before ++ since ++ after) (hafter : ∀ r ∈ after, window.txmax < r.txid) :
    plan.Told log window ((log.filter fun r => window.contains r.txid) ++
      since.flatMap (List.replicate copies)) := by
  refine ⟨fun r hr => ?_, fun r hr hwindow => ?_, fun name w hw hwindow => ?_⟩
  · rcases List.mem_append.mp hr with hr | hr
    · exact List.mem_of_mem_filter hr
    · obtain ⟨s, hs, hr⟩ := List.mem_flatMap.mp hr
      rw [List.eq_of_mem_replicate hr, hlog]
      exact List.mem_append_left _ (List.mem_append_right _ hs)
  · exact List.mem_append_left _ (List.mem_filter.mpr ⟨hr, hwindow⟩)
  · have hpulled : (Coalesce.about plan name
        (log.filter fun r => window.contains r.txid)).getLast? = some w := by
      obtain ⟨front, hfront⟩ := List.getLast?_eq_some_iff.mp hw
      rw [Coalesce.about, List.filter_comm, ← Coalesce.about, hfront, List.filter_append,
        List.filter_singleton, hwindow]
      exact List.getLast?_concat
    -- nothing of the log after the run is about the row
    have hnone : Coalesce.about plan name after = [] := by
      refine List.eq_nil_iff_forall_not_mem.mpr fun r hr => ?_
      obtain ⟨last, hlast⟩ := Option.ne_none_iff_exists'.mp
        (mt List.getLast?_eq_none_iff.mp (List.ne_nil_of_mem hr))
      rw [hlog, Coalesce.about, List.filter_append, ← Coalesce.about, ← Coalesce.about,
        List.getLast?_append, hlast] at hw
      obtain rfl := Option.some.inj hw
      have hlater := hafter last (Coalesce.mem_about.mp (List.mem_of_getLast? hlast)).1
      exact absurd (TxWindow.contains_iff.mp hwindow).2 (Nat.not_le.mpr hlater)
    rw [hlog, Coalesce.about, List.filter_append, List.filter_append, ← Coalesce.about,
      ← Coalesce.about, ← Coalesce.about, hnone, List.append_nil, List.getLast?_append] at hw
    rw [Coalesce.about, List.filter_append, ← Coalesce.about, ← Coalesce.about,
      List.getLast?_append, hpulled, Coalesce.about, filter_flatMap_replicate, ← Coalesce.about,
      getLast?_flatMap_replicate]
    split
    · rfl
    · cases hlast : (Coalesce.about plan name since).getLast? with
      | none => rfl
      | some last =>
        rw [hlast] at hw
        exact hw

/-! ### What a resolution leaves alone -/

/-- A line leads to a node of the plan. -/
theorem hasNode_of_lineTo {address : List Nat} {node : PlanNode} {above path : List PlanNode}
    (h : plan.lineTo above address = some (node :: path)) : plan.HasNode node := by
  obtain ⟨below, hbelow, rfl⟩ := exists_of_lineTo
    (P := fun part => ∀ node, part.HasNode node → plan.HasNode node)
    (fun _ hpart part hmem node hnode => hpart node (.child hmem hnode)) (fun _ => id) h
  exact hbelow _ (.root below)

/-- No node but the root reads its table. -/
def RootAlone (plan : Plan) : Prop :=
  ∀ child ∈ plan.children, ∀ node, child.HasNode node → node.table ≠ plan.node.table

variable {node : PlanNode} {row : Row} {window : TxWindow} {records : List ChangeRecord}

/-- Then the only path of its table is the root. -/
theorem RootAlone.eq_of_mem_pathsOf (h : plan.RootAlone) {above : List PlanNode}
    (hpath : node :: above ∈ plan.pathsOf node.table) (htable : node.table = plan.node.table) :
    node = plan.node ∧ above = [] := by
  obtain ⟨address, _, _, hline, -, -⟩ := mem_pathsFrom_iff.mp hpath
  cases address with
  | nil => exact List.cons.inj (Option.some.inj hline).symm
  | cons i rest =>
    obtain ⟨child, hchild, hline⟩ := Option.bind_eq_some_iff.mp hline
    exact absurd htable (h child (List.mem_of_getElem? hchild) node (hasNode_of_lineTo hline))

/-- A row that transactions of the window changed, and none after it, is named by a record that
coalescing keeps. -/
theorem Orderly.exists_naming (h : plan.Orderly kindOf db) (htold : plan.Told db.log window records)
    (hdirty : plan.Dirty db.log window.txmin name) (hclean : ¬ plan.Dirty db.log window.txmax name) :
    ∃ s ∈ coalesce plan records, name ∈ s.names plan := by
  obtain ⟨r, hr, hlater, hname⟩ := hdirty
  have hle : r.txid ≤ window.txmax := Nat.not_lt.mp fun hafter => hclean ⟨r, hr, hafter, hname⟩
  exact h.exists_coalesced htold.logged
    (htold.covered r hr (TxWindow.contains_iff.mpr ⟨hlater, hle⟩)) hname

/-- The record that is kept about a row of the root table names its root. -/
theorem Orderly.namesRoot (h : plan.Orderly kindOf db) (hrecords : ∀ r ∈ records, r ∈ db.log)
    {s : ChangeRecord} (hs : s ∈ coalesce plan records) (hname : plan.node.nameOf row ∈ s.names plan) :
    s.table = plan.node.table ∧ s.NamesRoot plan.node (plan.node.identityOf row) := by
  obtain ⟨htable, key, hkey, hidentity⟩ :=
    (ChangeRecord.nameOf_mem_names_iff h.fits (.root plan)).mp hname
  refine ⟨htable, ?_⟩
  rcases List.mem_cons.mp hkey with rfl | hold
  · exact .inl hidentity
  have hold := Option.mem_toList.mp hold
  by_cases hchanged : s.keyChanged
  · exact .inr ⟨key, hold, hchanged, hidentity⟩
  -- a key that is the same as the old one gives the same identity
  refine .inl (Eq.trans (congrArg Identity.ofKey ?_) hidentity)
  obtain ⟨column, hcolumn⟩ := h.single plan.node (.root plan)
  have hhas := h.hasAll_key_of_mem_coalesce (.root plan) hrecords hs htable key hkey
  have hsame : key.same s.key = true := by
    rw [ChangeRecord.keyChanged, hold] at hchanged
    simpa using hchanged
  rw [hcolumn] at hhas ⊢
  rw [Row.tuple, Row.tuple, List.map_singleton, List.map_singleton,
    Row.value_eq_of_same hsame (List.forall₂_cons.mp hhas).1]

/-- Of a row that is there, and that transactions of the window changed and none after it, coalescing keeps
the record that wrote it. -/
theorem Orderly.exists_telling (h : plan.Orderly kindOf db) (htold : plan.Told db.log window records)
    (hnode : plan.HasNode node) (hrow : row ∈ node.rowsIn db)
    (hdirty : plan.Dirty db.log window.txmin (node.nameOf row))
    (hclean : ¬ plan.Dirty db.log window.txmax (node.nameOf row)) :
    ∃ s ∈ coalesce plan records, s.table = node.table ∧ ∃ t stored,
      db.schema.table? node.table = some t ∧ stored ∈ db.tables.getD node.table [] ∧
        s.Tells t stored ∧ row = Database.project node.fetchColumns stored.visible := by
  obtain ⟨before, w, after, stored, hlog, hafter, hname, hstored, rfl, hvalues, hkey⟩ :=
    h.exists_last hnode hrow
  obtain ⟨t, hfits⟩ := h.fits.of_hasNode hnode
  have hw : w ∈ db.log := by simp [hlog]
  -- the last record about the row is one of the window
  have hwindow : window.contains w.txid = true := by
    refine TxWindow.contains_iff.mpr ⟨?_, Nat.not_lt.mp fun hlater => hclean
      ⟨w, hw, hlater, ChangeRecord.mem_names.mpr (.inl hname)⟩⟩
    obtain ⟨r, hr, hlater, hr'⟩ := hdirty
    have htxids := h.reached.txids
    rw [hlog] at hr htxids
    rcases List.mem_append.mp hr with hbefore | hplace
    · exact Nat.lt_of_lt_of_le hlater
        ((List.pairwise_append.mp htxids).2.2 r hbefore w List.mem_cons_self)
    · rcases List.mem_cons.mp hplace with rfl | hplace
      · exact hlater
      · exact absurd hr' (hafter r hplace)
  have hlast : (Coalesce.about plan (node.nameOf
      (Database.project node.fetchColumns stored.visible)) db.log).getLast? = some w := by
    have hnone : Coalesce.about plan (node.nameOf
        (Database.project node.fetchColumns stored.visible)) after = [] := by
      refine List.filter_eq_nil_iff.mpr fun s hs hs' => hafter s hs ?_
      exact ChangeRecord.mem_names.mpr (.inl (by simpa using hs'))
    rw [hlog, Coalesce.about, List.filter_append, List.filter_cons, if_pos (by simp [hname]),
      ← Coalesce.about, ← Coalesce.about, hnone, List.getLast?_concat]
  have hkept := Coalesce.mem_kept.mpr ⟨w, htold.last _ w hlast hwindow, rfl⟩
  refine ⟨_, List.mem_map_of_mem hkept, ChangeRecord.table_of_rowName? hname, t, stored, hfits.table,
    hstored, ⟨?_, ?_⟩, rfl⟩
  · rw [hfits.tuple_project (h.plain.of_hasNode hnode), hfits.key] at hkey
    exact hkey
  · intro values hsome c _
    rw [Option.some.inj (hsome.symm.trans hvalues)]

section

variable {wiring : Wiring} {w : World} {writer : Writer} {resolution : Resolution} {tree : RowTree}
  {d : Document}

variable (h : plan.Orderly kindOf w.database) (htold : plan.Told w.database.log window records)
  (hfollows : ∀ s ∈ coalesce plan records, resolution.Follows wiring w plan writer s)
  (hunnamed : ¬ resolution.Names identity)

include h htold hfollows hunnamed

/-- A root that is not named was not changed by the window. -/
theorem Orderly.root_dirty (hidentity : plan.node.identityOf row = identity)
    (hdirty : plan.Dirty w.database.log window.txmin (plan.node.nameOf row)) :
    plan.Dirty w.database.log window.txmax (plan.node.nameOf row) := by
  by_contra hclean
  obtain ⟨s, hs, hname⟩ := h.exists_naming htold hdirty hclean
  obtain ⟨htable, hnames⟩ := h.namesRoot htold.logged hs hname
  exact hunnamed ((hfollows s hs).root htable _ (hidentity ▸ hnames))

/-- A row that a document lists, whose root is not named, was not changed by the window. -/
theorem Orderly.listed_dirty (halone : plan.RootAlone)
    (hstored : (w.sink wiring.sink).storedAt writer.index identity = some d)
    (hidentity : plan.node.identityOf tree.row = identity)
    (hremembers : plan.Remembers kindOf writer.index w.database window.txmin tree d)
    (hlookup : resolution.rederiveAll = false) (hholds : tree.HoldsBelow plan node row)
    (hdirty : plan.Dirty w.database.log window.txmin (node.nameOf row)) :
    plan.Dirty w.database.log window.txmax (node.nameOf row) := by
  by_contra hclean
  obtain ⟨child, slot, hslot, subtree, hsubtree, hbelow⟩ := hholds
  have hchild := (List.of_mem_zip hslot).1
  have hnode : plan.HasNode node := .child hchild hbelow.hasNode
  obtain ⟨s, hs, hname⟩ := h.exists_naming htold hdirty hclean
  obtain ⟨htable, key, hkey, hsame⟩ := (ChangeRecord.nameOf_mem_names_iff h.fits hnode).mp hname
  have hne : s.table ≠ plan.node.table := htable ▸ halone child hchild node hbelow.hasNode
  obtain ⟨above, hpath⟩ := hnode.exists_path []
  have hcovers := ((hfollows s hs).nested hne node above (htable ▸ hpath)).lookups key hkey
  have hhas := hremembers.keyed node row (.nested hslot hsubtree hbelow)
  have hvalues : key.tuple node.primaryKey = row.tuple node.primaryKey :=
    (h.hasAll_key_of_mem_coalesce hnode htold.logged hs htable key hkey).eq_of_ofKey hhas hsame
  -- the sink finds the document by the key of the row
  obtain ⟨column, hcolumn⟩ := h.single node hnode
  rw [hcolumn] at hhas hvalues
  have hvalue : key.value column = row.value column := (List.cons.inj hvalues).1
  have hlists : d.Lists node.table column (row.value column) := by
    obtain ⟨derived, hcompiled, htext⟩ := hremembers.compiled
    have hkind := (List.forall₂_cons.mp hhas).1
    have hkinds : ∀ other found, tree.HoldsBelow plan other found →
        ∀ v, Meta.Keys other found node.table column v → (kindOf node.table).Has v := by
      rintro other found ⟨_, _, hslot', _, hsubtree', hfound⟩ _ ⟨htable', hmem, rfl, -⟩
      rw [← htable']
      exact (hremembers.keyed other found (.nested hslot' hsubtree' hfound)).has_of_mem
        (List.mem_map_of_mem hmem)
    exact .of_text_eq (plan.compile_lists hcompiled hkinds ⟨child, slot, hslot, subtree, hsubtree, hbelow⟩
      ⟨rfl, by simp [hcolumn], rfl, hkind.isNull⟩) hkind htext
  rw [Resolve.foundFor, MemorySink.findByMeta] at hcovers
  split at hcovers
  · rw [hcolumn, List.map_singleton, hvalue] at hcovers
    have hd : d ∈ (w.sink wiring.sink).documents writer.index :=
      List.mem_map.mpr ⟨_, Keyed.mem_of_get? hstored, rfl⟩
    have hfound := hcovers d.identity (List.mem_map_of_mem (List.mem_filter.mpr ⟨hd, hlists.lists⟩))
    obtain ⟨derived, hcompiled, htext⟩ := hremembers.compiled
    rw [(Document.eq_of_text_eq htext).1, (compile_eq_ok hcompiled).2, hidentity] at hfound
    exact hunnamed hfound
  · have hall : resolution.rederiveAll = true := hcovers
    rw [hlookup] at hall
    contradiction

/-- A row that leads up to a root that is not named was not changed by the window. -/
theorem Orderly.leading_dirty (halone : plan.RootAlone) {top : Row}
    (hidentity : plan.node.identityOf top = identity) {above : List PlanNode}
    (hpath : node :: above ∈ plan.pathsFrom node.table []) (hrow : row ∈ node.rowsIn w.database)
    (hlineage : Lineage w.database node row above top)
    (hdirty : plan.Dirty w.database.log window.txmin (node.nameOf row)) :
    plan.Dirty w.database.log window.txmax (node.nameOf row) := by
  by_cases htable : node.table = plan.node.table
  · obtain ⟨rfl, rfl⟩ := halone.eq_of_mem_pathsOf hpath htable
    obtain rfl := lineage_nil_iff.mp hlineage
    exact h.root_dirty htold hfollows hunnamed hidentity hdirty
  by_contra hclean
  obtain ⟨_, _, _, hline, -, -⟩ := mem_pathsFrom_iff.mp hpath
  obtain ⟨s, hs, hread, t, stored, ht, hstored, htells, rfl⟩ :=
    h.exists_telling htold (hasNode_of_lineTo hline) hrow hdirty hclean
  refine hunnamed (hidentity ▸ ((hfollows s hs).nested (hread ▸ htable) node above
    (hread ▸ hpath)).lines top ?_)
  exact ⟨t, stored, ht, hstored, htells, hlineage⟩

/-- Under an identity that is not named, what stands there is current up to the end of the window, unless
the sink looks nothing up. -/
theorem Orderly.current_of_unnamed (halone : plan.RootAlone)
    (hscanned : resolution.rederiveAll = true →
      ∀ row ∈ plan.node.rowsIn w.database, plan.node.identityOf row ≠ identity)
    (hcurrent : plan.Current kindOf writer.index w.database window.txmin identity
      ((w.sink wiring.sink).storedAt writer.index identity)) :
    plan.Current kindOf writer.index w.database window.txmax identity
      ((w.sink wiring.sink).storedAt writer.index identity) := by
  cases hstored : (w.sink wiring.sink).storedAt writer.index identity with
  | none =>
    rw [hstored] at hcurrent
    exact fun row hrow hidentity => h.root_dirty htold hfollows hunnamed hidentity
      (hcurrent row hrow hidentity)
  | some d =>
    rw [hstored] at hcurrent
    obtain ⟨tree, hidentity, hremembers⟩ := hcurrent
    refine ⟨tree, hidentity, hremembers.compiled, hremembers.keyed, ?_⟩
    by_cases hclean : plan.Dirty w.database.log window.txmax (plan.node.nameOf tree.row)
    · exact .dirty hclean
    have hrow := hremembers.faithful.row_mem
      (mt (h.root_dirty htold hfollows hunnamed hidentity) hclean)
    have hlookup : resolution.rederiveAll = false := by
      rw [← Bool.not_eq_true]
      exact fun hall => hscanned hall tree.row hrow hidentity
    refine hremembers.faithful.settle
      (fun node above hpath row hrow hlineage => ?_) (fun node row hholds => ?_) fun _ => .top _ _
    · exact h.leading_dirty htold hfollows hunnamed halone hidentity hpath hrow hlineage
    · rcases hholds.cases_below with ⟨rfl, rfl⟩ | hbelow
      · exact h.root_dirty htold hfollows hunnamed hidentity
      · exact h.listed_dirty htold hfollows hunnamed halone hstored hidentity hremembers hlookup hbelow

end

end Plan

end DocSync
