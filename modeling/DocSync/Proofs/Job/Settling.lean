import DocSync.Proofs.Document.Identity
import DocSync.Proofs.Job.Past
import DocSync.Proofs.Lists

/-!
What applying operations leaves in the index, chunk by chunk.  Within a chunk the document of a root goes to
the first operation that matches it; an operation that comes after finds nothing and deletes what stands
under its identity, be it the document that was just written.  So the size of a chunk decides whether a root
keeps its document, unless the operation of its identity comes first among those that match it.
-/

namespace DocSync

/-- The key of the operation matches the key of the root row, column by column. -/
def RootOp.Matches (op : RootOp) (node : PlanNode) (row : Row) : Prop :=
  Identity.Matches (row.tuple node.primaryKey) op.key

theorem Filter.tupleMatches_iff_matches {columns : List String} {row : Row} {key : List Json}
    (hlength : key.length = columns.length) :
    tupleMatches columns row key = true ↔ Identity.Matches (row.tuple columns) key := by
  rw [tupleMatches, List.all_eq_true, Identity.Matches, Row.tuple, List.forall₂_map_left_iff,
    List.forall₂_iff_zip]
  refine ⟨fun h => ⟨hlength.symm, fun {c v} hmem => h (c, v) hmem⟩, fun h entry hmem => h.2 hmem⟩

namespace Job

open Identity (Matches)
open Working Stateful

theorem keyMatches_iff_matches {actual expected : List Json} :
    keyMatches actual expected = true ↔ Matches actual expected := by
  rw [keyMatches, Matches, List.forall₂_iff_zip, Bool.and_eq_true, beq_iff_eq, List.all_eq_true]
  exact and_congr_right fun _ => ⟨fun h a e hmem => h (a, e) hmem, fun h entry hmem => h hmem⟩

/-! ### The answers of a chunk -/

/-- The text that writing the answers of operations in order leaves under an identity. -/
def leftBy (identity : String) : List (RootOp × Option Document) → Option String → Option String
  | [], held => held
  | (_, some d) :: rest, held =>
    leftBy identity rest (if d.identity = identity then some d.text else held)
  | (op, none) :: rest, held => leftBy identity rest (if op.identity = identity then none else held)

/-- No operation that comes after one that matches the key has the identity. -/
def Keeps (key : List Json) (identity : String) (ops : List RootOp) : Prop :=
  ops.Pairwise fun earlier later => Matches key earlier.key → later.identity ≠ identity

theorem keeps_cons_of_matches {key : List Json} {identity : String} {op : RootOp} {rest : List RootOp}
    (h : Matches key op.key) :
    Keeps key identity (op :: rest) ↔ identity ∉ rest.map RootOp.identity := by
  rw [Keeps, List.pairwise_cons, List.mem_map, not_exists]
  constructor
  · exact fun ⟨hfirst, _⟩ later ⟨hlater, heq⟩ => hfirst later hlater h heq
  · refine fun hnone => ⟨fun later hlater _ heq => hnone later ⟨hlater, heq⟩, ?_⟩
    exact List.pairwise_of_forall_mem_list fun _ _ later hlater _ heq => hnone later ⟨hlater, heq⟩

theorem keeps_cons_of_not_matches {key : List Json} {identity : String} {op : RootOp}
    {rest : List RootOp} (h : ¬ Matches key op.key) :
    Keeps key identity (op :: rest) ↔ Keeps key identity rest := by
  rw [Keeps, List.pairwise_cons]
  exact and_iff_right fun _ _ hmatches => absurd hmatches h

theorem Keeps.sublist {key : List Json} {identity : String} {ops part : List RootOp}
    (h : Keeps key identity ops) (hpart : part.Sublist ops) : Keeps key identity part :=
  List.Pairwise.sublist hpart h

/-- Documents of different identities that share no operation: each operation matches one of them at most,
and the one of its identity if that is there. -/
structure FetchedApart (ops : List RootOp) (fetched : List (List Json × Document)) : Prop where
  distinct : (fetched.map fun entry => entry.2.identity).Nodup
  single : ∀ op ∈ ops, ∀ entry ∈ fetched, ∀ other ∈ fetched,
    Matches entry.1 op.key → Matches other.1 op.key → entry = other
  own : ∀ op ∈ ops, ∀ entry ∈ fetched, op.identity = entry.2.identity → Matches entry.1 op.key

section

variable {op : RootOp} {ops rest : List RootOp} {entry found : List Json × Document}
  {fetched left : List (List Json × Document)} {identity : String} {held : Option String}

theorem FetchedApart.tail (h : FetchedApart (op :: rest) fetched) : FetchedApart rest fetched :=
  ⟨h.distinct, fun other hother => h.single other (List.mem_cons_of_mem _ hother),
    fun other hother => h.own other (List.mem_cons_of_mem _ hother)⟩

/-- What is left when one document is taken stays apart. -/
theorem FetchedApart.take (h : FetchedApart (op :: rest) fetched) (hperm : fetched.Perm (found :: left)) :
    FetchedApart rest left := by
  have hmem {entry : List Json × Document} (hentry : entry ∈ left) : entry ∈ fetched :=
    hperm.mem_iff.mpr (List.mem_cons_of_mem _ hentry)
  have hdistinct := (hperm.map fun entry => entry.2.identity).nodup_iff.mp h.distinct
  refine ⟨(List.nodup_cons.mp hdistinct).2, ?_, ?_⟩
  · exact fun other hother entry hentry entry' hentry' =>
      h.tail.single other hother entry (hmem hentry) entry' (hmem hentry')
  · exact fun other hother entry hentry => h.tail.own other hother entry (hmem hentry)

/-- What is left has other identities than what is taken. -/
theorem FetchedApart.ne_of_mem (h : FetchedApart ops fetched) (hperm : fetched.Perm (found :: left))
    (hentry : entry ∈ left) : entry.2.identity ≠ found.2.identity := by
  have hdistinct := (hperm.map fun entry => entry.2.identity).nodup_iff.mp h.distinct
  exact fun heq => (List.nodup_cons.mp hdistinct).1 (List.mem_map.mpr ⟨entry, hentry, heq⟩)

/-- An operation takes the one document that matches its key, or matches none. -/
theorem takeMatching_matches (fetched : List (List Json × Document)) (key : List Json) :
    (∃ found left, takeMatching fetched key = (some found.2, left) ∧ Matches found.1 key ∧
      fetched.Perm (found :: left)) ∨
    takeMatching fetched key = (none, fetched) ∧ ∀ entry ∈ fetched, ¬ Matches entry.1 key := by
  rcases takeMatching_cases fetched key with ⟨found, left, htake, hmatches, hperm⟩ | ⟨htake, hnone⟩
  · exact .inl ⟨found, left, htake, keyMatches_iff_matches.mp hmatches, hperm⟩
  · exact .inr ⟨htake, fun entry hentry => by simp [← keyMatches_iff_matches, hnone entry hentry]⟩

/-- Under an identity that no fetched document has, the operation of this identity leaves nothing. -/
theorem leftBy_of_absent
    (hop : ∀ op ∈ ops, op.identity = identity → ∀ entry ∈ fetched, ¬ Matches entry.1 op.key)
    (habsent : ∀ entry ∈ fetched, entry.2.identity ≠ identity) :
    leftBy identity (matchOps ops fetched).1 held =
      if identity ∈ ops.map RootOp.identity then none else held := by
  induction ops generalizing fetched held with
  | nil => simp [matchOps, leftBy]
  | cons op rest ih =>
    obtain ⟨hfirst, hrest⟩ := List.forall_mem_cons.mp hop
    rw [matchOps]
    rcases takeMatching_matches fetched op.key with
      ⟨found, left, htake, hmatches, hperm⟩ | ⟨htake, -⟩
    · have hmem {entry : List Json × Document} (hentry : entry ∈ left) : entry ∈ fetched :=
        hperm.mem_iff.mpr (List.mem_cons_of_mem _ hentry)
      have hfound : found ∈ fetched := hperm.mem_iff.mpr List.mem_cons_self
      have hother : op.identity ≠ identity := fun heq => hfirst heq found hfound hmatches
      simp only [htake, leftBy, if_neg (habsent found hfound)]
      rw [ih (fun other hother heq entry hentry => hrest other hother heq entry (hmem hentry))
        fun entry hentry => habsent entry (hmem hentry)]
      simp [Ne.symm hother]
    · simp only [htake, leftBy]
      rw [ih hrest habsent]
      by_cases heq : op.identity = identity
      · simp [heq]
      · simp [heq, Ne.symm heq]

open Classical in
/-- A fetched document goes to the first operation that matches it, and is gone again when the operation of
its identity comes later. -/
theorem leftBy_of_fetched (h : FetchedApart ops fetched) (hentry : entry ∈ fetched)
    (hmatched : ∃ op ∈ ops, Matches entry.1 op.key) :
    leftBy entry.2.identity (matchOps ops fetched).1 held =
      if Keeps entry.1 entry.2.identity ops then some entry.2.text else none := by
  induction ops generalizing fetched held with
  | nil => simp at hmatched
  | cons op rest ih =>
    have hsingle {found : List Json × Document} (hfound : found ∈ fetched)
        (hfirst : Matches found.1 op.key) (hmatches : Matches entry.1 op.key) : found = entry :=
      h.single op List.mem_cons_self found hfound entry hentry hfirst hmatches
    have hlater (hfirst : ¬ Matches entry.1 op.key) : ∃ op ∈ rest, Matches entry.1 op.key := by
      obtain ⟨other, hother, hmatches⟩ := hmatched
      rcases List.mem_cons.mp hother with rfl | hother
      · exact absurd hmatches hfirst
      · exact ⟨other, hother, hmatches⟩
    rw [matchOps]
    rcases takeMatching_matches fetched op.key with
      ⟨found, left, htake, hmatches, hperm⟩ | ⟨htake, hnone⟩
    · have hfound : found ∈ fetched := hperm.mem_iff.mpr List.mem_cons_self
      have hleft := h.take hperm
      by_cases hsame : found = entry
      · -- the operation takes the document; one of its identity finds nothing any more
        subst hsame
        have habsent : ∀ other ∈ left, other.2.identity ≠ found.2.identity :=
          fun other hother => h.ne_of_mem hperm hother
        have hgone : ∀ op ∈ rest, op.identity = found.2.identity →
            ∀ other ∈ left, ¬ Matches other.1 op.key := by
          intro other hother heq entry hentry' hmatches'
          have hfetched : entry ∈ fetched := hperm.mem_iff.mpr (List.mem_cons_of_mem _ hentry')
          have hown := h.tail.own other hother found hfound heq
          obtain rfl := h.tail.single other hother entry hfetched found hfound hmatches' hown
          exact habsent entry hentry' rfl
        simp only [htake, leftBy, if_true]
        rw [leftBy_of_absent hgone habsent, keeps_cons_of_matches hmatches]
        by_cases hmem : found.2.identity ∈ rest.map RootOp.identity <;> simp [hmem]
      · have hfirst : ¬ Matches entry.1 op.key := fun hfirst => hsame (hsingle hfound hmatches hfirst)
        have hentry' : entry ∈ left :=
          (List.mem_cons.mp (hperm.mem_iff.mp hentry)).resolve_left (Ne.symm hsame)
        have hother : found.2.identity ≠ entry.2.identity := (h.ne_of_mem hperm hentry').symm
        simp only [htake, leftBy, if_neg hother]
        rw [ih hleft hentry' (hlater hfirst), keeps_cons_of_not_matches hfirst]
    · have hfirst := hnone entry hentry
      have hother : op.identity ≠ entry.2.identity :=
        fun heq => hfirst (h.own op List.mem_cons_self entry hentry heq)
      simp only [htake, leftBy, if_neg hother]
      rw [ih h.tail hentry (hlater hfirst), keeps_cons_of_not_matches hfirst]

/-- No document is left over that an operation matches. -/
theorem not_matches_of_left (h : FetchedApart ops fetched) (hentry : entry ∈ (matchOps ops fetched).2) :
    entry ∈ fetched ∧ ∀ op ∈ ops, ¬ Matches entry.1 op.key := by
  induction ops generalizing fetched with
  | nil => exact ⟨hentry, by simp⟩
  | cons op rest ih =>
    rw [matchOps] at hentry
    rcases takeMatching_matches fetched op.key with
      ⟨found, left, htake, hmatches, hperm⟩ | ⟨htake, hnone⟩
    · simp only [htake] at hentry
      obtain ⟨hmem, hothers⟩ := ih (h.take hperm) hentry
      have hfetched : entry ∈ fetched := hperm.mem_iff.mpr (List.mem_cons_of_mem _ hmem)
      refine ⟨hfetched, List.forall_mem_cons.mpr ⟨fun hfirst => ?_, hothers⟩⟩
      have hfound : found ∈ fetched := hperm.mem_iff.mpr List.mem_cons_self
      obtain rfl := h.single op List.mem_cons_self entry hfetched found hfound hfirst hmatches
      exact h.ne_of_mem hperm hmem rfl
    · simp only [htake] at hentry
      obtain ⟨hmem, hothers⟩ := ih h.tail hentry
      exact ⟨hmem, List.forall_mem_cons.mpr ⟨hnone entry hmem, hothers⟩⟩

end

/-! ### What a chunk fetches -/

/-- Operations that name roots: each matches one root at most, and the one of its identity if there is one.
Neither two of them nor two roots have the same identity. -/
structure NamesRoots (node : PlanNode) (db : Database) (ops : List RootOp) : Prop where
  identities : (ops.map RootOp.identity).Nodup
  keys : ∀ op ∈ ops, op.key.length = node.primaryKey.length ∧ op.key.any Json.isNull = false
  roots : ((node.rowsIn db).map node.identityOf).Nodup
  single : ∀ op ∈ ops, ∀ row ∈ node.rowsIn db, ∀ other ∈ node.rowsIn db,
    op.Matches node row → op.Matches node other → row = other
  own : ∀ op ∈ ops, ∀ row ∈ node.rowsIn db, op.identity = node.identityOf row → op.Matches node row

theorem NamesRoots.sublist {node : PlanNode} {db : Database} {ops part : List RootOp}
    (h : NamesRoots node db ops) (hpart : part.Sublist ops) : NamesRoots node db part :=
  ⟨h.identities.sublist (hpart.map _), fun op hop => h.keys op (hpart.subset hop), h.roots,
    fun op hop => h.single op (hpart.subset hop), fun op hop => h.own op (hpart.subset hop)⟩

/-- The root rows that a chunk of operations finds. -/
def rowsFound (job : Job) (db : Database) (part : List RootOp) : List Row :=
  job.plan.node.rowsWhere db (.among job.plan.node.primaryKey (part.map RootOp.key))
    job.plan.node.primaryKey

/-- The trees that a chunk of operations fetches. -/
def foundBy (job : Job) (db : Database) (part : List RootOp) : List RowTree :=
  Fetch.attached db job.plan (job.rowsFound db part)

/-- The documents that a chunk of operations is matched with. -/
def fetchedBy (job : Job) (db : Database) (part : List RootOp) : List (List Json × Document) :=
  (compileTrees job (job.foundBy db part) .empty).2

/-- Nothing is skipped of trees that all compile. -/
theorem fst_compileTrees {job : Job} {trees : List RowTree} {stats : CycleStats}
    (h : ∀ tree ∈ trees, ∃ d, job.plan.compile job.options.index tree = .ok d) :
    (compileTrees job trees stats).1 = stats := by
  induction trees generalizing stats with
  | nil => rfl
  | cons tree rest ih =>
    obtain ⟨⟨d, hd⟩, hrest⟩ := List.forall_mem_cons.mp h
    rw [compileTrees, hd]
    exact ih hrest

theorem snd_compileTrees (job : Job) (trees : List RowTree) (stats stats' : CycleStats) :
    (compileTrees job trees stats).2 = (compileTrees job trees stats').2 := by
  induction trees generalizing stats stats' with
  | nil => rfl
  | cons tree rest ih =>
    rw [compileTrees, compileTrees]
    cases job.plan.compile job.options.index tree with
    | error e => exact ih _ _
    | ok d => exact congrArg (_ :: ·) (ih stats stats')

/-- Trees that all compile give documents of their identities. -/
theorem map_identity_compileTrees {job : Job} {trees : List RowTree} (stats : CycleStats)
    (h : ∀ tree ∈ trees, ∃ d, job.plan.compile job.options.index tree = .ok d) :
    (compileTrees job trees stats).2.map (fun entry => entry.2.identity) =
      (trees.map RowTree.row).map job.plan.node.identityOf := by
  induction trees generalizing stats with
  | nil => rfl
  | cons tree rest ih =>
    obtain ⟨⟨d, hd⟩, hrest⟩ := List.forall_mem_cons.mp h
    rw [compileTrees, hd]
    exact congr (congrArg List.cons (Plan.compile_eq_ok hd).2) (ih stats hrest)

section

variable {job : Job} {db : Database} {part : List RootOp} {t : Table} {schema : Schema} {row : Row}

/-- A chunk finds the roots that one of its operations matches. -/
theorem mem_rowsFound (hnode : job.plan.node.Fits schema t)
    (hkeys : ∀ op ∈ part, op.key.length = job.plan.node.primaryKey.length) :
    row ∈ job.rowsFound db part ↔
      row ∈ job.plan.node.rowsIn db ∧ ∃ op ∈ part, op.Matches job.plan.node row := by
  rw [rowsFound, PlanNode.mem_rowsWhere hnode.keyFetched, Filter.accepts, List.any_eq_true]
  refine and_congr_right fun _ => ?_
  constructor
  · rintro ⟨_, hkey, hmatches⟩
    obtain ⟨op, hop, rfl⟩ := List.mem_map.mp hkey
    exact ⟨op, hop, (Filter.tupleMatches_iff_matches (hkeys op hop)).mp hmatches⟩
  · rintro ⟨op, hop, hmatches⟩
    exact ⟨op.key, List.mem_map_of_mem hop, (Filter.tupleMatches_iff_matches (hkeys op hop)).mpr hmatches⟩

theorem mem_fetchedBy {entry : List Json × Document} :
    entry ∈ job.fetchedBy db part ↔ ∃ tree ∈ job.foundBy db part,
      entry.1 = tree.row.tuple job.plan.node.primaryKey ∧
        job.plan.compile job.options.index tree = .ok entry.2 :=
  mem_compileTrees

theorem row_mem_rowsFound {tree : RowTree} (htree : tree ∈ job.foundBy db part) :
    tree.row ∈ job.rowsFound db part := by
  rw [← Fetch.map_row_attached db job.plan (job.rowsFound db part)]
  exact List.mem_map_of_mem htree

/-- A root that is found has a tree that compiles. -/
theorem exists_compile_of_mem (hnode : job.plan.node.Fits schema t)
    (hnames : NamesRoots job.plan.node db part) {tree : RowTree} (htree : tree ∈ job.foundBy db part) :
    ∃ d, job.plan.compile job.options.index tree = .ok d := by
  obtain ⟨-, op, hop, hmatches⟩ :=
    (mem_rowsFound hnode fun op hop => (hnames.keys op hop).1).mp (row_mem_rowsFound htree)
  refine Plan.exists_compile _ (Filter.any_isNull_of_tupleMatches (hnames.keys op hop).1.symm ?_)
  exact (Filter.tupleMatches_iff_matches (hnames.keys op hop).1).mpr hmatches

theorem row_of_mem_fetchedBy {entry : List Json × Document} (h : entry ∈ job.fetchedBy db part) :
    ∃ row ∈ job.rowsFound db part, entry.1 = row.tuple job.plan.node.primaryKey ∧
      entry.2.identity = job.plan.node.identityOf row := by
  obtain ⟨tree, htree, hkey, hcompile⟩ := mem_fetchedBy.mp h
  exact ⟨tree.row, row_mem_rowsFound htree, hkey, (Plan.compile_eq_ok hcompile).2⟩

theorem NamesRoots.eq_of_identity (h : NamesRoots job.plan.node db part) {other : Row}
    (hrow : row ∈ job.plan.node.rowsIn db) (hother : other ∈ job.plan.node.rowsIn db)
    (heq : job.plan.node.identityOf row = job.plan.node.identityOf other) : row = other :=
  List.inj_on_of_nodup_map h.roots hrow hother heq

/-- What a chunk fetches for operations that name roots is apart. -/
theorem NamesRoots.fetchedApart (hnames : NamesRoots job.plan.node db part)
    (hnode : job.plan.node.Fits schema t) : FetchedApart part (job.fetchedBy db part) := by
  have hmem {row : Row} (hrow : row ∈ job.rowsFound db part) : row ∈ job.plan.node.rowsIn db :=
    ((mem_rowsFound hnode fun op hop => (hnames.keys op hop).1).mp hrow).1
  have hidentities : (job.fetchedBy db part).map (fun entry => entry.2.identity) =
      (job.rowsFound db part).map job.plan.node.identityOf := by
    rw [fetchedBy, map_identity_compileTrees _ fun tree htree => exists_compile_of_mem hnode hnames htree,
      foundBy, Fetch.map_row_attached]
  have hdistinct : ((job.fetchedBy db part).map fun entry => entry.2.identity).Nodup := by
    rw [hidentities]
    refine (((PlanNode.rowsWhere_perm hnode.keyFetched _).map _).nodup_iff).mpr ?_
    exact hnames.roots.sublist (List.filter_sublist.map _)
  refine ⟨hdistinct, fun op hop entry hentry other hother hmatches hmatches' => ?_,
    fun op hop entry hentry heq => ?_⟩
  · obtain ⟨row, hrow, hkey, hidentity⟩ := row_of_mem_fetchedBy hentry
    obtain ⟨row', hrow', hkey', hidentity'⟩ := row_of_mem_fetchedBy hother
    rw [hkey] at hmatches
    rw [hkey'] at hmatches'
    obtain rfl := hnames.single op hop row (hmem hrow) row' (hmem hrow') hmatches hmatches'
    exact List.inj_on_of_nodup_map hdistinct hentry hother (hidentity.trans hidentity'.symm)
  · obtain ⟨row, hrow, hkey, hidentity⟩ := row_of_mem_fetchedBy hentry
    rw [hkey]
    exact hnames.own op hop row (hmem hrow) (heq.trans hidentity)

/-! ### What a chunk leaves -/

/-- The answers of a chunk. -/
def answers (job : Job) (db : Database) (part : List RootOp) : List (RootOp × Option Document) :=
  (matchOps part (job.fetchedBy db part)).1

open Classical in
/-- Under the identity of a root that it matches, a chunk leaves the document of a tree it fetched, or
nothing. -/
theorem leftBy_answers_of_matched (hnames : NamesRoots job.plan.node db part)
    (hnode : job.plan.node.Fits schema t) (hrow : row ∈ job.plan.node.rowsIn db)
    (hmatched : ∃ op ∈ part, op.Matches job.plan.node row) :
    ∃ tree ∈ job.foundBy db part, tree.row = row ∧
      ∃ d, job.plan.compile job.options.index tree = .ok d ∧
        ∀ held, leftBy (job.plan.node.identityOf row) (job.answers db part) held =
          if Keeps (row.tuple job.plan.node.primaryKey) (job.plan.node.identityOf row) part then
            some d.text
          else none := by
  have hfound : row ∈ job.rowsFound db part :=
    (mem_rowsFound hnode fun op hop => (hnames.keys op hop).1).mpr ⟨hrow, hmatched⟩
  rw [← Fetch.map_row_attached db job.plan (job.rowsFound db part)] at hfound
  obtain ⟨tree, htree, rfl⟩ := List.mem_map.mp hfound
  obtain ⟨d, hcompile⟩ := exists_compile_of_mem hnode hnames htree
  refine ⟨tree, htree, rfl, d, hcompile, fun held => ?_⟩
  have hentry : (tree.row.tuple job.plan.node.primaryKey, d) ∈ job.fetchedBy db part :=
    mem_fetchedBy.mpr ⟨tree, htree, rfl, hcompile⟩
  rw [← (Plan.compile_eq_ok hcompile).2]
  exact leftBy_of_fetched (hnames.fetchedApart hnode) hentry hmatched

/-- Under the identity of a root that it does not match, a chunk leaves what was there. -/
theorem leftBy_answers_of_unmatched (hnames : NamesRoots job.plan.node db part)
    (hnode : job.plan.node.Fits schema t) (hrow : row ∈ job.plan.node.rowsIn db)
    (hnone : ∀ op ∈ part, ¬ op.Matches job.plan.node row) (held : Option String) :
    leftBy (job.plan.node.identityOf row) (job.answers db part) held = held := by
  have hnobody : job.plan.node.identityOf row ∉ part.map RootOp.identity := by
    rintro hmem
    obtain ⟨op, hop, heq⟩ := List.mem_map.mp hmem
    exact hnone op hop (hnames.own op hop row hrow heq)
  rw [answers, leftBy_of_absent, if_neg hnobody]
  · exact fun op hop heq => absurd (hnames.own op hop row hrow heq) (hnone op hop)
  · intro entry hentry heq
    obtain ⟨other, hother, -, hidentity⟩ := row_of_mem_fetchedBy hentry
    obtain ⟨hmem, op, hop, hmatches⟩ :=
      (mem_rowsFound hnode fun op hop => (hnames.keys op hop).1).mp hother
    obtain rfl := hnames.eq_of_identity hmem hrow (hidentity.symm.trans heq)
    exact hnone op hop hmatches

/-- Under the identity of an operation that matches no root, a chunk with the operation leaves nothing, and
another one what was there. -/
theorem leftBy_answers_of_op {ops : List RootOp} (hnames : NamesRoots job.plan.node db ops)
    (hnode : job.plan.node.Fits schema t) (hpart : part.Sublist ops) {op : RootOp} (hop : op ∈ ops)
    (hnone : ∀ row ∈ job.plan.node.rowsIn db, ¬ op.Matches job.plan.node row) (held : Option String) :
    leftBy op.identity (job.answers db part) held =
      if op.identity ∈ part.map RootOp.identity then none else held := by
  have hmem {entry : List Json × Document} (hentry : entry ∈ job.fetchedBy db part) :
      ∃ row ∈ job.plan.node.rowsIn db, entry.1 = row.tuple job.plan.node.primaryKey ∧
        entry.2.identity = job.plan.node.identityOf row := by
    obtain ⟨row, hrow, hkey, hidentity⟩ := row_of_mem_fetchedBy hentry
    have hkeys : ∀ op ∈ part, op.key.length = job.plan.node.primaryKey.length :=
      fun op hop => (hnames.keys op (hpart.subset hop)).1
    exact ⟨row, ((mem_rowsFound hnode hkeys).mp hrow).1, hkey, hidentity⟩
  refine leftBy_of_absent (fun other hother heq entry hentry => ?_) fun entry hentry heq => ?_
  · obtain rfl := List.inj_on_of_nodup_map hnames.identities (hpart.subset hother) hop heq
    obtain ⟨row, hrow, hkey, -⟩ := hmem hentry
    rw [hkey]
    exact hnone row hrow
  · obtain ⟨row, hrow, -, hidentity⟩ := hmem hentry
    exact hnone row hrow (hnames.own op hop row hrow (heq.symm.trans hidentity))

end

/-! ### Runs -/

/-- The text that is stored under an identity. -/
def heldAt (sink : MemorySink) (index identity : String) : Option String :=
  (sink.storedAt index identity).map Document.text

/-- A job whose ledger tells digests of given documents, which its index holds. -/
structure Tracks (docs : Document → Prop) (name : String) (job : Job) (s : Site) : Prop where
  index : job.writer.index = job.options.index
  sound : job.writer.Sound docs (s.1.sink name)

/-- What a job leaves that writes: nothing but its ledger and its sink changes, and it tracks its index. -/
structure Rewrites (docs : Document → Prop) (name : String) (job job' : Job) (s s' : Site) : Prop where
  same : job' = { job with writer := job'.writer }
  rest : s.SameElse s'
  tracks : Tracks docs name job' s'

/-- What a job leaves that counts what it writes: of what is not rejected, the given texts. -/
structure Leaves (docs : Document → Prop) (name : String)
    (left : String → Option String → Option String) (job job' : Job) (s s' : Site)
    (stats stats' : CycleStats) : Prop where
  rewrites : Rewrites docs name job job' s s'
  counted : stats.rejected ≤ stats'.rejected
  held : stats'.rejected = stats.rejected → ∀ identity,
    heldAt (s'.1.sink name) job.options.index identity =
      left identity (heldAt (s.1.sink name) job.options.index identity)

section

variable {docs : Document → Prop} {name : String} {wiring : Wiring} {job job' job₁ job₂ job₃ : Job}
  {s s' s₁ s₂ s₃ : Site} {stats stats' stats₁ stats₂ stats₃ : CycleStats}
  {left left' : String → Option String → Option String}

/-- A new job tracks its index, whatever that holds. -/
theorem Tracks.ofPlan (plan : Plan) (opts : SyncOptions) (s : Site) :
    Tracks docs name (.ofPlan plan opts) s :=
  ⟨rfl, fun _ _ hdigest => by contradiction⟩

/-- A job over a sink that refuses nothing tracks its index after any number of cycles. -/
theorem Past.tracks {plan : Plan} {opts : SyncOptions} (h : Past plan opts name job s.1) :
    Tracks (fun _ => True) name job s := by
  have htended := h.tended
  exact ⟨by rw [htended.index, htended.options], htended.sound⟩

theorem Rewrites.of_alike (htracks : Tracks docs name job s) (h : s.Alike name s') :
    Rewrites docs name job job s s' :=
  ⟨rfl, h.toSameElse, htracks.index, htracks.sound.alike h.sink⟩

theorem Rewrites.trans (h : Rewrites docs name job₁ job₂ s₁ s₂) (h' : Rewrites docs name job₂ job₃ s₂ s₃) :
    Rewrites docs name job₁ job₃ s₁ s₃ := by
  refine ⟨?_, h.rest.trans h'.rest, h'.tracks⟩
  rw [h'.same, h.same]

theorem Rewrites.plan (h : Rewrites docs name job job' s s') : job'.plan = job.plan := by
  rw [h.same]

theorem Rewrites.options (h : Rewrites docs name job job' s s') : job'.options = job.options := by
  rw [h.same]

theorem heldAt_of_alike {sink sink' : MemorySink} (h : sink.Alike sink') (index identity : String) :
    heldAt sink' index identity = heldAt sink index identity := by
  rw [heldAt, heldAt, h.storedAt]

theorem Leaves.of_alike (htracks : Tracks docs name job s) (h : s.Alike name s') (stats : CycleStats) :
    Leaves docs name (fun _ held => held) job job s s' stats stats :=
  ⟨.of_alike htracks h, Nat.le_refl _, fun _ _ => heldAt_of_alike h.sink _ _⟩

theorem Leaves.trans (h : Leaves docs name left job₁ job₂ s₁ s₂ stats₁ stats₂)
    (h' : Leaves docs name left' job₂ job₃ s₂ s₃ stats₂ stats₃) :
    Leaves docs name (fun identity held => left' identity (left identity held)) job₁ job₃ s₁ s₃
      stats₁ stats₃ := by
  have hfirst := h.counted
  have hsecond := h'.counted
  refine ⟨h.rewrites.trans h'.rewrites, Nat.le_trans hfirst hsecond, fun heq identity => ?_⟩
  have hheld := h'.held (by omega) identity
  rw [h.rewrites.options] at hheld
  rw [hheld, h.held (by omega) identity]

/-- Counting an outcome takes back no rejection. -/
theorem rejected_record_le (stats : CycleStats) (outcome : WriteOutcome) :
    stats.rejected ≤ (stats.record outcome).rejected := by
  cases outcome <;> simp [CycleStats.record, CycleStats.skip]

/-- A write that has its effect on one identity. -/
theorem leaves_of_wrote {identity : String} {d : Option Document} {writer : Writer}
    (htracks : Tracks docs name job s) (hdocs : ∀ written, d = some written → docs written)
    (hsame : s.SameElse s')
    (h : Writer.Wrote identity d job.writer writer (s.1.sink name) (s'.1.sink name))
    (stats : CycleStats) (outcome : WriteOutcome) :
    Leaves docs name (fun other held => if identity = other then d.map Document.text else held)
      job { job with writer := writer } s s' stats (stats.record outcome) := by
  refine ⟨⟨rfl, hsame, h.index.trans htracks.index, htracks.sound.wrote hdocs h⟩,
    rejected_record_le stats outcome, fun _ other => ?_⟩
  rw [heldAt, heldAt, ← htracks.index, h.stored]
  split <;> rfl

/-- An upsert leaves the document unless it is rejected. -/
theorem upsert_leaves (happart : Document.Apart docs) (htracks : Tracks docs wiring.sink job s)
    {d : Document} (hd : docs d) (hindex : d.index = job.options.index) {outcome : WriteOutcome}
    (h : Runs (Site.Outages wiring.sink) wiring (writing (Writer.upsert d)) job s (.ok outcome)
      job' s') (stats : CycleStats) :
    Leaves docs wiring.sink (fun other held => if d.identity = other then some d.text else held)
      job job' s s' stats (stats.record outcome) := by
  obtain ⟨writer, hwriter, rfl, hsame⟩ := writing_runs (Writer.upsert_asks d) h
  have hcounted := rejected_record_le stats outcome
  rcases Writer.upsert_ends (Site.outages_spares _) (hindex.trans htracks.index.symm) hwriter with
    ⟨hledger, rfl, rfl⟩ | hwrote | ⟨⟨_, hfailed⟩ | ⟨-, reason, hrefused⟩, rfl, halike⟩
  · -- the ledger lists a document of this digest, which is stored
    refine ⟨.of_alike htracks (.refl _), hcounted, fun _ other => ?_⟩
    obtain ⟨old, hold, hdigest, hdocs⟩ := htracks.sound _ _ hledger
    split
    · rename_i heq
      rw [heldAt, ← heq, ← htracks.index, hold, Option.map_some, happart old d hdocs hd hdigest]
    · rfl
  · exact leaves_of_wrote htracks (fun written hwritten => Option.some.inj hwritten ▸ hd) hsame hwrote
      stats outcome
  · contradiction
  · obtain rfl := Except.ok.inj hrefused
    refine ⟨.of_alike htracks ⟨hsame, halike⟩, hcounted, fun heq => ?_⟩
    simp [CycleStats.record, CycleStats.skip] at heq

/-- A delete leaves nothing. -/
theorem delete_leaves (htracks : Tracks docs wiring.sink job s) {identity : String}
    {outcome : WriteOutcome}
    (h : Runs (Site.Outages wiring.sink) wiring (writing (Writer.delete identity)) job s (.ok outcome)
      job' s') (stats : CycleStats) :
    Leaves docs wiring.sink (fun other held => if identity = other then none else held)
      job job' s s' stats (stats.record outcome) := by
  obtain ⟨writer, hwriter, rfl, hsame⟩ := writing_runs (Writer.delete_asks identity) h
  rcases Writer.delete_cases (Site.outages_spares _) hwriter with hwrote | ⟨⟨_, hfailed⟩, -⟩
  · exact leaves_of_wrote htracks (fun _ hnone => by contradiction) hsame hwrote stats outcome
  · contradiction

/-- Settling the answers of operations leaves under each identity what the last of them leaves. -/
theorem settle_leaves (happart : Document.Apart docs) (htracks : Tracks docs wiring.sink job s)
    {pairs : List (RootOp × Option Document)}
    (hpairs : ∀ pair ∈ pairs, ∀ d, pair.2 = some d → docs d ∧ d.index = job.options.index)
    (h : Runs (Site.Outages wiring.sink) wiring (settle pairs stats) job s (.ok stats') job' s') :
    Leaves docs wiring.sink (leftBy · pairs) job job' s s' stats stats' := by
  induction pairs generalizing job s stats with
  | nil =>
    obtain ⟨hstats, rfl, rfl⟩ := runs_pure.mp h
    exact Except.ok.inj hstats ▸ .of_alike htracks (.refl _) _
  | cons pair rest ih =>
    obtain ⟨op, found⟩ := pair
    obtain ⟨hfirst, hrest⟩ := List.forall_mem_cons.mp hpairs
    cases found with
    | some d =>
      obtain ⟨hd, hindex⟩ := hfirst d rfl
      obtain ⟨outcome, job₁, s₁, hwrite, hothers⟩ := runs_bind_ok.mp h
      have hleaves := upsert_leaves happart htracks hd hindex hwrite stats
      exact hleaves.trans (ih hleaves.rewrites.tracks (hleaves.rewrites.options ▸ hrest) hothers)
    | none =>
      obtain ⟨outcome, job₁, s₁, hwrite, hothers⟩ := runs_bind_ok.mp h
      have hleaves := delete_leaves htracks hwrite stats
      exact hleaves.trans (ih hleaves.rewrites.tracks (hleaves.rewrites.options ▸ hrest) hothers)

/-- What the fetches for operations read from. -/
structure Fetches (wiring : Wiring) (plan : Plan) (s : Site) : Prop where
  plain : wiring.Plain
  pending : s.2.pending = []
  joined : plan.Joined s.1.database.schema fun _ => True

theorem Fetches.sameElse {plan : Plan} (h : Fetches wiring plan s) (hsame : s.SameElse s') :
    Fetches wiring plan s' := by
  refine ⟨h.plain, ?_, ?_⟩
  · rw [hsame.frames]
    exact h.pending
  · rw [hsame.database]
    exact h.joined

/-- The roots of keys are fetched amid outages as they are alone. -/
theorem fetchKeys_runs (hfetches : Fetches wiring job.plan s) {part : List RootOp} (hne : part ≠ [])
    {result : Except SyncError (List RowTree)}
    (h : Runs (Site.Outages wiring.sink) wiring (fetchKeys (part.map RootOp.key)) job s result job' s') :
    result = .ok (job.foundBy s.1.database part) ∧ job' = job ∧ s.Alike wiring.sink s' := by
  rw [fetchKeys, runs_get_bind] at h
  obtain ⟨⟨r, hfetch, rfl⟩, rfl⟩ := runs_transported.mp h
  have hfilter : (Filter.among job'.plan.node.primaryKey (part.map RootOp.key)).isEmpty = false := by
    simpa [Filter.isEmpty] using hne
  obtain ⟨rfl, halike⟩ := (Fetch.fetchRoots_gives hfetches.plain hfetches.joined hfilter).of_outages
    ((fetchRoots_asks _ _).mono fun _ h => h.isLookup) hfetch hfetches.pending
  exact ⟨rfl, rfl, halike⟩

theorem compileTrees_congr (hplan : job'.plan = job.plan) (hoptions : job'.options = job.options)
    (trees : List RowTree) (stats : CycleStats) :
    compileTrees job' trees stats = compileTrees job trees stats := by
  induction trees generalizing stats with
  | nil => rfl
  | cons tree rest ih =>
    rw [compileTrees, compileTrees, hplan, hoptions]
    split
    · exact ih _
    · rw [ih]

theorem Rewrites.foundBy (h : Rewrites docs name job job' s s') (db : Database) (part : List RootOp) :
    job'.foundBy db part = job.foundBy db part := by
  rw [Job.foundBy, Job.foundBy, rowsFound, rowsFound, h.plan]

theorem Rewrites.answers (h : Rewrites docs name job job' s s') (db : Database) (part : List RootOp) :
    job'.answers db part = job.answers db part := by
  rw [Job.answers, Job.answers, fetchedBy, fetchedBy, h.foundBy,
    compileTrees_congr h.plan h.options]

/-- The documents that a chunk compiles are among the given ones. -/
def Compiles (docs : Document → Prop) (job : Job) (db : Database) (part : List RootOp) : Prop :=
  ∀ tree ∈ job.foundBy db part, ∀ d, job.plan.compile job.options.index tree = .ok d → docs d

theorem Compiles.answers {db : Database} {part : List RootOp} (h : Compiles docs job db part)
    {pair : RootOp × Option Document} (hpair : pair ∈ job.answers db part) {d : Document}
    (hd : pair.2 = some d) : docs d ∧ d.index = job.options.index := by
  obtain ⟨op, found⟩ := pair
  obtain rfl : found = some d := hd
  obtain ⟨entry, hentry, rfl, -⟩ := mem_matchOps hpair
  obtain ⟨tree, htree, -, hcompile⟩ := mem_fetchedBy.mp hentry
  exact ⟨h tree htree _ hcompile, (Plan.compile_eq_ok hcompile).1⟩

/-- Operations that name roots leave over nothing that was fetched for them. -/
theorem NamesRoots.nothing_left {db : Database} {part : List RootOp}
    (hnames : NamesRoots job.plan.node db part) {t : Table} {schema : Schema}
    (hnode : job.plan.node.Fits schema t) : (matchOps part (job.fetchedBy db part)).2 = [] := by
  refine List.eq_nil_iff_forall_not_mem.mpr fun entry hentry => ?_
  obtain ⟨hfetched, hnone⟩ := not_matches_of_left (hnames.fetchedApart hnode) hentry
  obtain ⟨row, hrow, hkey, -⟩ := row_of_mem_fetchedBy hfetched
  obtain ⟨-, op, hop, hmatches⟩ := (mem_rowsFound hnode fun op hop => (hnames.keys op hop).1).mp hrow
  exact hnone op hop (hkey ▸ hmatches)

/-- Applying a chunk leaves what its answers leave. -/
theorem applyChunk_leaves (happart : Document.Apart docs) (htracks : Tracks docs wiring.sink job s)
    (hfetches : Fetches wiring job.plan s) {part : List RootOp} (hne : part ≠ [])
    (hnames : NamesRoots job.plan.node s.1.database part)
    (hcompiles : Compiles docs job s.1.database part)
    (h : Runs (Site.Outages wiring.sink) wiring (applyChunk part stats) job s (.ok stats') job' s') :
    Leaves docs wiring.sink (leftBy · (job.answers s.1.database part)) job job' s s' stats stats' := by
  obtain ⟨t, hnode⟩ := hfetches.joined.node
  obtain ⟨trees, job₁, s₁, hfetch, hrest⟩ := runs_bind_ok.mp h
  obtain ⟨htrees, rfl, halike⟩ := fetchKeys_runs hfetches hne hfetch
  obtain rfl := Except.ok.inj htrees
  have hcompiled : compileTrees job₁ (job₁.foundBy s.1.database part) stats =
      (stats, job₁.fetchedBy s.1.database part) :=
    Prod.ext (fst_compileTrees fun tree htree => exists_compile_of_mem hnode hnames htree)
      (snd_compileTrees _ _ _ _)
  rw [runs_get_bind] at hrest
  dsimp only at hrest
  rw [hcompiled] at hrest
  dsimp only at hrest
  rw [hnames.nothing_left hnode] at hrest
  have hbefore : Leaves docs wiring.sink (fun _ held => held) job₁ job₁ s s₁ stats stats :=
    .of_alike htracks halike stats
  exact hbefore.trans (settle_leaves happart hbefore.rewrites.tracks
    (fun pair hpair d hd => hcompiles.answers hpair hd) hrest)

/-- Applying chunk after chunk leaves what the answers of the chunks leave, one after another. -/
theorem applyChunks_leaves (happart : Document.Apart docs) (htracks : Tracks docs wiring.sink job s)
    (hfetches : Fetches wiring job.plan s) {parts : List (List RootOp)}
    (hparts : ∀ part ∈ parts, part ≠ [] ∧ NamesRoots job.plan.node s.1.database part ∧
      Compiles docs job s.1.database part)
    (h : Runs (Site.Outages wiring.sink) wiring (applyChunks parts stats) job s (.ok stats') job' s') :
    Leaves docs wiring.sink
      (fun identity held =>
        parts.foldl (fun held part => leftBy identity (job.answers s.1.database part) held) held)
      job job' s s' stats stats' := by
  induction parts generalizing job s stats with
  | nil =>
    obtain ⟨hstats, rfl, rfl⟩ := runs_pure.mp h
    exact Except.ok.inj hstats ▸ .of_alike htracks (.refl _) _
  | cons part rest ih =>
    obtain ⟨⟨hne, hnames, hcompiles⟩, hrest⟩ := List.forall_mem_cons.mp hparts
    obtain ⟨stats₁, job₁, s₁, hchunk, hothers⟩ := runs_bind_ok.mp h
    have hleaves := applyChunk_leaves happart htracks hfetches hne hnames hcompiles hchunk
    have hwrites := hleaves.rewrites
    have hdatabase := hwrites.rest.database
    have hfetches₁ : Fetches wiring job₁.plan s₁ := hwrites.plan ▸ hfetches.sameElse hwrites.rest
    have hparts₁ : ∀ part ∈ rest, part ≠ [] ∧ NamesRoots job₁.plan.node s₁.1.database part ∧
        Compiles docs job₁ s₁.1.database part := by
      intro part hpart
      obtain ⟨hne, hnames, hcompiles⟩ := hrest part hpart
      rw [Compiles, hdatabase, hwrites.foundBy, hwrites.plan, hwrites.options]
      exact ⟨hne, hnames, hcompiles⟩
    have hleaves₁ := ih hwrites.tracks hfetches₁ hparts₁ hothers
    simp only [hdatabase, hwrites.answers] at hleaves₁
    exact hleaves.trans hleaves₁

end

/-! ### Whole lists of operations -/

section

variable {job : Job} {db : Database} {ops part : List RootOp} {row : Row} {t : Table} {schema : Schema}

/-- The chunks in which operations are applied. -/
def parts (job : Job) (ops : List RootOp) : List (List RootOp) :=
  chunks (max job.options.batchSize 1) ops

theorem batch_pos (job : Job) : 0 < max job.options.batchSize 1 :=
  Nat.lt_of_lt_of_le Nat.zero_lt_one (Nat.le_max_right _ _)

theorem sublist_of_mem_parts (hpart : part ∈ job.parts ops) : part.Sublist ops := by
  have hflatten := List.sublist_flatten_of_mem hpart
  rwa [parts, flatten_chunks job.batch_pos] at hflatten

theorem exists_part_of_mem (job : Job) {op : RootOp} (hop : op ∈ ops) : ∃ part ∈ job.parts ops, op ∈ part := by
  rw [← flatten_chunks job.batch_pos ops] at hop
  exact List.mem_flatten.mp hop

/-- The text that the chunks of operations leave under an identity, one after another. -/
def leftByAll (job : Job) (db : Database) (ops : List RootOp) (identity : String)
    (held : Option String) : Option String :=
  (job.parts ops).foldl (fun held part => leftBy identity (job.answers db part) held) held

/-- The part is the last one with an operation that matches the root. -/
def LastMatching (node : PlanNode) (row : Row) (parts : List (List RootOp)) (part : List RootOp) : Prop :=
  ∃ earlier later, parts = earlier ++ part :: later ∧ (∃ op ∈ part, op.Matches node row) ∧
    ∀ other ∈ later, ∀ op ∈ other, ¬ op.Matches node row

theorem exists_lastMatching (job : Job) {op : RootOp} (hop : op ∈ ops) (hmatches : op.Matches job.plan.node row) :
    ∃ part, LastMatching job.plan.node row (job.parts ops) part := by
  obtain ⟨part, hpart, hop⟩ := exists_part_of_mem job hop
  obtain ⟨earlier, part, later, hsplit, hmatched, hlater⟩ :=
    exists_last_of_mem (p := fun part => ∃ op ∈ part, op.Matches job.plan.node row)
      ⟨part, hpart, op, hop, hmatches⟩
  exact ⟨part, earlier, later, hsplit, hmatched,
    fun other hother op hop hmatches => hlater other hother ⟨op, hop, hmatches⟩⟩

open Classical in
/-- The last chunk that matches a root decides what stands under its identity. -/
theorem leftByAll_of_lastMatching (hnames : NamesRoots job.plan.node db ops)
    (hnode : job.plan.node.Fits schema t) (hrow : row ∈ job.plan.node.rowsIn db)
    (hlast : LastMatching job.plan.node row (job.parts ops) part) :
    ∃ tree ∈ job.foundBy db part, tree.row = row ∧
      ∃ d, job.plan.compile job.options.index tree = .ok d ∧
        ∀ held, job.leftByAll db ops (job.plan.node.identityOf row) held =
          if Keeps (row.tuple job.plan.node.primaryKey) (job.plan.node.identityOf row) part then
            some d.text
          else none := by
  obtain ⟨earlier, later, hsplit, hmatched, hlater⟩ := hlast
  have hnamed {part : List RootOp} (hpart : part ∈ job.parts ops) : NamesRoots job.plan.node db part :=
    hnames.sublist (sublist_of_mem_parts hpart)
  obtain ⟨tree, htree, hrow', d, hcompile, hleft⟩ :=
    leftBy_answers_of_matched (hnamed (by simp [hsplit])) hnode hrow hmatched
  refine ⟨tree, htree, hrow', d, hcompile, fun held => ?_⟩
  rw [leftByAll, hsplit]
  refine foldl_append_of_later hleft (fun other hother held => ?_) held
  exact leftBy_answers_of_unmatched (hnamed (by simp [hsplit, hother])) hnode hrow (hlater other hother) held

/-- Nothing stands under the identity of an operation that matches no root. -/
theorem leftByAll_of_op (hnames : NamesRoots job.plan.node db ops) (hnode : job.plan.node.Fits schema t)
    {op : RootOp} (hop : op ∈ ops)
    (hnone : ∀ row ∈ job.plan.node.rowsIn db, ¬ op.Matches job.plan.node row) (held : Option String) :
    job.leftByAll db ops op.identity held = none := by
  obtain ⟨part, hpart, hop'⟩ := exists_part_of_mem job hop
  obtain ⟨earlier, part, later, hsplit, hmem, hlater⟩ :=
    exists_last_of_mem (p := fun part => op.identity ∈ part.map RootOp.identity)
      ⟨part, hpart, List.mem_map_of_mem hop'⟩
  have hleft {part : List RootOp} (hpart : part ∈ job.parts ops) (held : Option String) :=
    leftBy_answers_of_op hnames hnode (sublist_of_mem_parts hpart) hop hnone held
  rw [leftByAll, hsplit]
  refine foldl_append_of_later (fun held => ?_) (fun other hother held => ?_) held
  · rw [hleft (by simp [hsplit]), if_pos hmem]
  · rw [hleft (by simp [hsplit, hother]), if_neg (hlater other hother)]

/-- Below the root of the plan, keys and joins can be compared. -/
def KindedBelow (plan : Plan) (db : Database) : Prop :=
  ∀ child ∈ plan.children, child.KindedIn db ∧
    ∀ join, child.node.join = some join → join.ComparableIn db plan.node child.node

/-- A tree does not depend on the chunk that fetched it, where keys and joins can be compared. -/
theorem eq_treeIn_of_mem_foundBy {allowed : String → Prop} (hjoined : job.plan.Joined db.schema allowed)
    (hbelow : KindedBelow job.plan db) {tree : RowTree} (htree : tree ∈ job.foundBy db part) :
    tree = job.plan.treeIn db tree.row := by
  obtain ⟨t, hnode⟩ := hjoined.node
  have hrows : ∀ row ∈ job.rowsFound db part, row ∈ job.plan.node.rowsIn db :=
    fun row hrow => ((PlanNode.mem_rowsWhere hnode.keyFetched).mp hrow).1
  rw [foundBy, Fetch.attached_eq_of_slots
    (Fetch.attachedSlots_eq (fun child hchild => hjoined.child hchild) hbelow hrows)] at htree
  obtain ⟨row, -, rfl⟩ := List.mem_map.mp htree
  rw [Plan.treeIn_row]

end

/-- Applying operations leaves under each identity what their chunks leave. -/
theorem applyOps_leaves {docs : Document → Prop} {wiring : Wiring} {job job' : Job} {s s' : Site}
    (happart : Document.Apart docs) (htracks : Tracks docs wiring.sink job s)
    (hfetches : Fetches wiring job.plan s) {ops : List RootOp}
    (hnames : NamesRoots job.plan.node s.1.database ops)
    (hcompiles : ∀ part ∈ job.parts ops, Compiles docs job s.1.database part)
    {stats stats' : CycleStats}
    (h : Runs (Site.Outages wiring.sink) wiring (applyOps ops stats) job s (.ok stats') job' s') :
    Leaves docs wiring.sink (job.leftByAll s.1.database ops) job job' s s' stats stats' := by
  have hwhole : (ops.filter fun op => !op.key.any Json.isNull) = ops :=
    List.filter_eq_self.mpr fun op hop => by simp [(hnames.keys op hop).2]
  rw [applyOps, runs_get_bind, hwhole] at h
  exact applyChunks_leaves happart htracks hfetches (fun part hpart =>
    ⟨ne_nil_of_mem_chunks job.batch_pos hpart, hnames.sublist (sublist_of_mem_parts hpart),
      hcompiles part hpart⟩) h

/-- The documents at hand while operations are applied: those that the index holds, and those that chunks
compile. -/
def Handles (job : Job) (db : Database) (sink : MemorySink) (ops : List RootOp) (d : Document) : Prop :=
  (∃ identity, sink.storedAt job.options.index identity = some d) ∨
    ∃ part ∈ job.parts ops, ∃ tree ∈ job.foundBy db part,
      job.plan.compile job.options.index tree = .ok d

/-- A chunk decides what stands under the identity of a root: the document of a tree that it fetched, if in
this chunk the operation of that identity does not come after another one that matches the root, and
nothing, if it does. -/
def Decides (job : Job) (db : Database) (sink : MemorySink) (row : Row) (part : List RootOp) : Prop :=
  ∃ tree ∈ job.foundBy db part, tree.row = row ∧
    ∃ d, job.plan.compile job.options.index tree = .ok d ∧
      (Keeps (row.tuple job.plan.node.primaryKey) (job.plan.node.identityOf row) part →
        heldAt sink job.options.index (job.plan.node.identityOf row) = some d.text) ∧
      (¬ Keeps (row.tuple job.plan.node.primaryKey) (job.plan.node.identityOf row) part →
        heldAt sink job.options.index (job.plan.node.identityOf row) = none)

/-- What applying operations leaves in the index. -/
structure Applied (job : Job) (db : Database) (ops : List RootOp) (sink : MemorySink) : Prop where
  /-- The last chunk that matches a root decides. -/
  roots : ∀ row ∈ job.plan.node.rowsIn db, ∀ part,
    LastMatching job.plan.node row (job.parts ops) part → job.Decides db sink row part
  /-- Whatever the size of a chunk, a root that is matched has its document, unless the operation of its
  identity comes after another one that matches it. -/
  kept : ∀ row ∈ job.plan.node.rowsIn db, (∃ op ∈ ops, op.Matches job.plan.node row) →
    Keeps (row.tuple job.plan.node.primaryKey) (job.plan.node.identityOf row) ops →
      ∃ part, ∃ tree ∈ job.foundBy db part, tree.row = row ∧
        ∃ d, job.plan.compile job.options.index tree = .ok d ∧
          heldAt sink job.options.index (job.plan.node.identityOf row) = some d.text
  /-- Under the identity of an operation that matches no root there is nothing. -/
  others : ∀ op ∈ ops, (∀ row ∈ job.plan.node.rowsIn db, ¬ op.Matches job.plan.node row) →
    sink.storedAt job.options.index op.identity = none
  alone : KindedBelow job.plan db → ∀ part, ∀ tree ∈ job.foundBy db part,
    tree = job.plan.treeIn db tree.row

/-- Applying operations that name roots settles, where nothing is rejected, every root that they match and
every identity that they have, but for the roots whose own operation comes after another one of its chunk
that matches them. -/
theorem applyOps_settles {wiring : Wiring} (hplain : wiring.Plain) {job job' : Job} {s s' : Site}
    (hschema : s.1.database.schema.Linked) {node : Node}
    (hbuilt : Plan.build node s.1.database.schema = .ok job.plan)
    (htracks : Tracks (fun _ => True) wiring.sink job s) (hpending : s.2.pending = [])
    {ops : List RootOp} (hnames : NamesRoots job.plan.node s.1.database ops)
    (happart : Document.Apart (job.Handles s.1.database (s.1.sink wiring.sink) ops))
    {stats stats' : CycleStats}
    (h : Runs (Site.Outages wiring.sink) wiring (applyOps ops stats) job s (.ok stats') job' s')
    (hrejected : stats'.rejected = stats.rejected) :
    Applied job s.1.database ops (s'.1.sink wiring.sink) := by
  have hhandles : Tracks (job.Handles s.1.database (s.1.sink wiring.sink) ops) wiring.sink job s := by
    refine ⟨htracks.index, fun identity digest hdigest => ?_⟩
    obtain ⟨d, hstored, hd, -⟩ := htracks.sound identity digest hdigest
    exact ⟨d, hstored, hd, .inl ⟨identity, htracks.index ▸ hstored⟩⟩
  have hjoined : job.plan.Joined s.1.database.schema fun _ => True :=
    (Plan.build_joined hschema (fun _ _ _ _ _ => trivial) hbuilt).1
  obtain ⟨t, hnode⟩ := hjoined.node
  have hheld := (applyOps_leaves happart hhandles ⟨hplain, hpending, hjoined⟩ hnames
    (fun part hpart tree htree d hd => .inr ⟨part, hpart, tree, htree, hd⟩) h).held hrejected
  have hroots : ∀ row ∈ job.plan.node.rowsIn s.1.database, ∀ part,
      LastMatching job.plan.node row (job.parts ops) part →
        job.Decides s.1.database (s'.1.sink wiring.sink) row part := by
    intro row hrow part hlast
    obtain ⟨tree, htree, hrow', d, hcompile, hleft⟩ :=
      leftByAll_of_lastMatching hnames hnode hrow hlast
    refine ⟨tree, htree, hrow', d, hcompile, fun hkeeps => ?_, fun hkeeps => ?_⟩
    · rw [hheld, hleft, if_pos hkeeps]
    · rw [hheld, hleft, if_neg hkeeps]
  refine ⟨hroots, fun row hrow ⟨op, hop, hmatches⟩ hkeeps => ?_, fun op hop hnone => ?_,
    fun hbelow part tree htree => eq_treeIn_of_mem_foundBy hjoined hbelow htree⟩
  · obtain ⟨part, hlast⟩ := exists_lastMatching job hop hmatches
    obtain ⟨tree, htree, hrow', d, hcompile, hstored, -⟩ := hroots row hrow part hlast
    obtain ⟨earlier, later, hsplit, -⟩ := hlast
    have hpart : part ∈ job.parts ops := by simp [hsplit]
    exact ⟨part, tree, htree, hrow', d, hcompile, hstored (hkeeps.sublist (sublist_of_mem_parts hpart))⟩
  · exact Option.map_eq_none_iff.mp ((hheld op.identity).trans (leftByAll_of_op hnames hnode hop hnone _))

/-! Two items whose keys are integers, and operations whose keys are numbers of either form. -/

def itemSchema : Schema :=
  .ofTables [⟨"item", [⟨"id", "numeric"⟩, ⟨"name", "text"⟩], ["id"], []⟩]

def itemPlan : Plan := ⟨⟨"item", none, ["id", "name"], [], ["id", "name"], ["id"], none⟩, []⟩

def itemJob (batchSize : Nat) : Job := .ofPlan itemPlan ⟨"items", "items", batchSize, 10, 0, .none⟩

def itemDatabase : Database :=
  (Database.empty itemSchema).committed
    [.insert "item" [("id", .ofNat 1), ("name", .string "a")],
      .insert "item" [("id", .ofNat 2), ("name", .string "b")]]

/-- The number one as a double, which prints as `1.0`. -/
def doubleOne : Json := .number (.double ⟨false, Double.one⟩)

/-- The item that is there under its former key and under the one it has, the other item, and one that
never was. -/
def itemOps : List RootOp :=
  [⟨"1.0", [doubleOne]⟩, ⟨"1", [.ofNat 1]⟩, ⟨"2", [.ofNat 2]⟩, ⟨"9", [.ofNat 9]⟩]

def itemWiring : Wiring := ⟨"", "main", "marks", [], false, false, false⟩

/-- The document of the first item under its former key. -/
def formerItem : Document := ⟨"1.0", "items", [("id", doubleOne), ("name", .string "a")]⟩

def itemSite : Site :=
  ({ World.empty itemSchema itemSchema "" "" with
    database := itemDatabase
    sinks := [("main", { MemorySink.empty true true with
      indices := [("items", [("1.0", formerItem)])]
      rejected := ["7"] })] }, [])

instance (op : RootOp) (node : PlanNode) (row : Row) : Decidable (op.Matches node row) :=
  decidable_of_iff _ keyMatches_iff_matches

/-- What the items and the operations must be for the operations to name roots. -/
theorem itemOps_namesRoots : NamesRoots itemPlan.node itemDatabase itemOps := by
  have hroots : ((itemPlan.node.rowsIn itemDatabase).map itemPlan.node.identityOf).Nodup := by
    decide +kernel
  refine ⟨by decide, by decide, hroots, ?_, by decide +kernel⟩
  have hsingle : ∀ op ∈ itemOps, ∀ row ∈ itemPlan.node.rowsIn itemDatabase,
      ∀ other ∈ itemPlan.node.rowsIn itemDatabase, op.Matches itemPlan.node row →
        op.Matches itemPlan.node other → itemPlan.node.identityOf row = itemPlan.node.identityOf other := by
    decide +kernel
  exact fun op hop row hrow other hother hmatches hmatches' => List.inj_on_of_nodup_map hroots hrow
    hother (hsingle op hop row hrow other hother hmatches hmatches')

/-- The documents that applying the operations in chunks handles. -/
def itemDocuments (batchSize : Nat) : List Document :=
  formerItem :: ((itemJob batchSize).parts itemOps).flatMap fun part =>
    ((itemJob batchSize).foundBy itemDatabase part).filterMap fun tree =>
      (itemPlan.compile "items" tree).toOption

theorem mem_itemDocuments {batchSize : Nat} {d : Document}
    (h : (itemJob batchSize).Handles itemDatabase (itemSite.1.sink "main") itemOps d) :
    d ∈ itemDocuments batchSize := by
  rcases h with ⟨identity, hstored⟩ | ⟨part, hpart, tree, htree, hcompile⟩
  · have hformer : (identity, d) ∈ [("1.0", formerItem)] := Keyed.mem_of_get? hstored
    obtain ⟨-, rfl⟩ := Prod.mk.inj (List.mem_singleton.mp hformer)
    exact List.mem_cons_self
  · have hcompile : itemPlan.compile "items" tree = .ok d := hcompile
    refine List.mem_cons_of_mem _ (List.mem_flatMap.mpr ⟨part, hpart, ?_⟩)
    exact List.mem_filterMap.mpr ⟨tree, htree, by rw [hcompile]; rfl⟩

theorem itemDocuments_apart :
    Document.Apart ((itemJob 2).Handles itemDatabase (itemSite.1.sink "main") itemOps) := by
  have hdigests : ∀ d ∈ itemDocuments 2, ∀ d' ∈ itemDocuments 2, d.digest = d'.digest →
      d.text = d'.text := by decide +kernel
  exact fun d d' hd hd' => hdigests d (mem_itemDocuments hd) d' (mem_itemDocuments hd')

theorem itemDatabase_schema : itemDatabase.schema = itemSchema := Database.schema_committed _ _

theorem itemSchema_linked : itemSchema.Linked := Schema.linked_of_entries (by decide +kernel)

theorem build_itemNode : Plan.build ⟨"item", [], [], none, []⟩ itemSchema = .ok itemPlan := by cbv

/-- In chunks of two the document of the second item is written, that of the first is written and deleted
again, and nothing is left under the other identities. -/
theorem applyOps_settles_of_items : ∃ stats job' s',
    Runs (Site.Outages "main") itemWiring (applyOps itemOps .empty) (itemJob 2) itemSite (.ok stats)
      job' s' ∧
      (stats.upserted = 2 ∧ stats.deleted = 2 ∧ stats.rejected = 0) ∧
      Applied (itemJob 2) itemDatabase itemOps (s'.1.sink "main") := by
  have hsucceeds : (World.runRoutine itemWiring ((applyOps itemOps .empty).run.run (itemJob 2))
      itemSite).1.any (·.1.toOption.any fun stats =>
        stats.upserted == 2 && stats.deleted == 2 && stats.rejected == 0) = true := by
    decide +kernel
  have hothers : ∀ s, Site.Outages itemWiring.sink s s := Site.Outages.refl
  obtain ⟨stats, job', hruns, hstats⟩ := exists_runs_ok hothers _ hsucceeds
  have hcounted : stats.upserted = 2 ∧ stats.deleted = 2 ∧ stats.rejected = 0 := by
    simpa [and_assoc] using hstats
  have htracks : Tracks (fun _ => True) "main" (itemJob 2) itemSite := .ofPlan _ _ _
  have happlied := applyOps_settles ⟨rfl, rfl⟩ (itemDatabase_schema ▸ itemSchema_linked)
    (itemDatabase_schema ▸ build_itemNode) htracks rfl itemOps_namesRoots itemDocuments_apart hruns
    hcounted.2.2
  exact ⟨stats, job', _, hruns, hcounted, happlied⟩

/-- The operation of the first item matches it, and yet in chunks of two its document is gone afterwards,
while in chunks of one it stays. -/
theorem applyOps_loses_item :
    itemSchema.Linked ∧ Plan.build ⟨"item", [], [], none, []⟩ itemSchema = .ok itemPlan ∧
      itemDatabase.Reached ∧ NamesRoots itemPlan.node itemDatabase itemOps ∧
      (∃ op ∈ itemOps, ∃ row ∈ itemPlan.node.rowsIn itemDatabase,
        op.Matches itemPlan.node row ∧ op.identity = "1" ∧ itemPlan.node.identityOf row = "1") ∧
      (∃ stats job' s',
        Runs (Site.Outages "main") itemWiring (applyOps itemOps .empty) (itemJob 2) itemSite (.ok stats)
          job' s' ∧ stats.rejected = 0 ∧ (s'.1.sink "main").storedAt "items" "1" = none) ∧
      ∃ stats job' s',
        Runs (Site.Outages "main") itemWiring (applyOps itemOps .empty) (itemJob 1) itemSite (.ok stats)
          job' s' ∧ stats.rejected = 0 ∧
            (heldAt (s'.1.sink "main") "items" "1").isSome = true := by
  have hothers : ∀ s, Site.Outages itemWiring.sink s s := Site.Outages.refl
  have hpair : (World.runRoutine itemWiring ((applyOps itemOps .empty).run.run (itemJob 2))
      itemSite).1.any (·.1.toOption.any (·.rejected == 0)) = true := by
    decide +kernel
  have hlost : (((World.runRoutine itemWiring ((applyOps itemOps .empty).run.run (itemJob 2))
      itemSite).2.1.sink "main").storedAt "items" "1").isNone = true := by
    decide +kernel
  have hsingle : (World.runRoutine itemWiring ((applyOps itemOps .empty).run.run (itemJob 1))
      itemSite).1.any (·.1.toOption.any (·.rejected == 0)) = true := by
    decide +kernel
  obtain ⟨stats, job', hruns, hstats⟩ := exists_runs_ok hothers _ hpair
  obtain ⟨stats', job'', hruns', hstats'⟩ := exists_runs_ok hothers _ hsingle
  exact ⟨itemSchema_linked, build_itemNode, (Database.Reached.empty _).committed _,
    itemOps_namesRoots, by decide +kernel,
    ⟨stats, job', _, hruns, by simpa using hstats, Option.isNone_iff_eq_none.mp hlost⟩,
    stats', job'', _, hruns', by simpa using hstats', by decide +kernel⟩

end Job

end DocSync
