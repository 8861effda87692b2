import DocSync.Proofs.Job.Matching
import DocSync.Proofs.Job.Progress

/-!
The parts of a cycle.  A property of routines that goes from routines to a routine put together from them
holds of a whole cycle when it holds of the few parts that a cycle is made of.
-/

namespace DocSync.Job

open Working

/-- A property of routines and their values that holds of each part of a cycle, where the cycle has `named`
the slots that it uses, and that goes over to routines put together from others. -/
structure Parts (opts : SyncOptions) (named : String → Prop)
    (P : {α : Type} → (α → Prop) → Working α → Prop) : Prop where
  pure : ∀ {α : Type} {ends : α → Prop} {value : α}, ends value → P ends (pure value)
  bind : ∀ {α β : Type} {begins : β → Prop} {ends : α → Prop} {a : Working β} {f : β → Working α},
    P begins a → (∀ b, begins b → P ends (f b)) → P ends (a >>= f)
  get_bind : ∀ {α : Type} {ends : α → Prop} {f : Job → Working α},
    (∀ job, job.options = opts → job.writer.index = opts.index → P ends (f job)) → P ends (get >>= f)
  enter : ∀ phase, P (fun _ => True) (enter phase)
  spent : P (fun _ => True) (attempt (ExceptT.mk .spent) : Working (CycleStats × List String))
  fetchRoots : ∀ plan filter, P (fun _ => True) (transported (fetchRoots plan filter))
  nextPage : ∀ (scan : RootScan) plan, P (fun _ => True) (transported (scan.nextPage plan))
  resolve : ∀ plan (writer : Writer) records, writer.index = opts.index →
    P (fun _ => True) (attempt (resolve plan writer records))
  upsert : ∀ d : Document, d.index = opts.index → P (fun _ => True) (writing (Writer.upsert d))
  delete : ∀ identity, P (fun _ => True) (writing (Writer.delete identity))
  reconcile : ∀ seen, P (fun _ => True) (writing (Writer.reconcile seen))
  refresh : ∀ writer : Writer, P (fun _ => True) (attempt writer.refresh)
  openSlot : P named openSlot
  checkpoint : P (fun _ => True) checkpoint
  currentTxmax : P (fun _ => True) currentTxmax
  drain : P (fun _ => True) drain
  pullWindow : ∀ pages slot window, named slot → P (fun _ => True) (pullWindow pages slot window)
  persist : ∀ slot txmax, named slot → P (fun _ => True) (persist slot txmax)
  ack : P (fun _ => True) ack

/-- Every document has the index of the job. -/
def Indexed (opts : SyncOptions) (ops : List (RootOp × Option Document)) : Prop :=
  ∀ op d, (op, some d) ∈ ops → d.index = opts.index

variable {opts : SyncOptions}

theorem Indexed.cons {op : RootOp} {found : Option Document} {ops : List (RootOp × Option Document)}
    (hfound : ∀ d, found = some d → d.index = opts.index) (hops : Indexed opts ops) :
    Indexed opts ((op, found) :: ops) := by
  intro op' d hmem
  rcases List.mem_cons.mp hmem with hfirst | hrest
  · exact hfound d (Prod.mk.inj hfirst).2.symm
  · exact hops op' d hrest

theorem Indexed.tail {first : RootOp × Option Document} {ops : List (RootOp × Option Document)}
    (h : Indexed opts (first :: ops)) : Indexed opts ops :=
  fun op d hmem => h op d (List.mem_cons_of_mem _ hmem)

namespace Parts

variable {named : String → Prop} {P : {α : Type} → (α → Prop) → Working α → Prop}

/-! ### Scans -/

theorem writeTree (h : Parts opts named P) (stats : CycleStats) (seen : List String) (tree : RowTree) :
    P (fun _ => True) (writeTree stats seen tree) := by
  refine h.get_bind fun job hoptions _ => ?_
  split
  · exact h.pure trivial
  · rename_i d hcompile
    have hindex : d.index = opts.index := by rw [(Plan.compile_eq_ok hcompile).1, hoptions]
    exact h.bind (h.upsert d hindex) fun _ _ => h.pure trivial

theorem writeTrees (h : Parts opts named P) (trees : List RowTree) (stats : CycleStats) (seen : List String) :
    P (fun _ => True) (writeTrees trees stats seen) := by
  induction trees generalizing stats seen with
  | nil => exact h.pure trivial
  | cons tree rest ih => exact h.bind (h.writeTree _ _ _) fun (stats, seen) _ => ih stats seen

theorem scanPages (h : Parts opts named P) (scan : RootScan) (pages : Nat) (stats : CycleStats)
    (seen : List String) : P (fun _ => True) (scanPages scan pages stats seen) := by
  induction pages generalizing scan stats seen with
  | zero => exact h.spent
  | succ pages ih =>
    refine h.get_bind fun job _ _ => h.bind (h.nextPage scan job.plan) fun (page, scan) _ => ?_
    dsimp only
    split
    · exact h.pure trivial
    · exact h.bind (h.writeTrees _ _ _) fun (stats, seen) _ => ih scan stats seen

theorem scanAll (h : Parts opts named P) (pages : Nat) (stats : CycleStats) :
    P (fun _ => True) (scanAll pages stats) :=
  h.get_bind fun _ _ _ => h.scanPages _ _ _ _

theorem rederive (h : Parts opts named P) (pages : Nat) : P (fun _ => True) (rederive pages) := by
  refine h.bind (h.scanAll _ _) fun (stats, seen) _ => ?_
  refine h.bind (h.reconcile _) fun deleted _ => ?_
  exact h.get_bind fun job _ _ => h.bind (h.refresh job.writer) fun _ _ => h.pure trivial

/-! ### Operations on roots -/

theorem fetchKeys (h : Parts opts named P) (keys : List (List Json)) : P (fun _ => True) (fetchKeys keys) :=
  h.get_bind fun _ _ _ => h.fetchRoots _ _

theorem fetchOne (h : Parts opts named P) (op : RootOp) (stats : CycleStats) :
    P (fun found => ∀ d, found.1 = some d → d.index = opts.index) (fetchOne op stats) := by
  refine h.get_bind fun job hoptions _ => h.bind (h.fetchKeys _) fun trees _ => ?_
  split
  · exact h.pure fun _ hnone => by contradiction
  split
  · rename_i d hcompile
    refine h.pure fun d' hd' => ?_
    obtain rfl := Option.some.inj hd'
    rw [(Plan.compile_eq_ok hcompile).1, hoptions]
  · exact h.pure fun _ hnone => by contradiction

theorem fetchUnmatched (h : Parts opts named P) {ops : List (RootOp × Option Document)}
    (hops : Indexed opts ops) (stats : CycleStats) :
    P (fun fetched => Indexed opts fetched.1) (fetchUnmatched ops stats) := by
  induction ops generalizing stats with
  | nil => exact h.pure hops
  | cons first rest ih =>
    obtain ⟨op, found⟩ := first
    cases found with
    | some d =>
      refine h.bind (ih hops.tail stats) fun (others, stats) hothers => h.pure ?_
      exact hothers.cons fun d' hd' => hops op d' (hd' ▸ List.mem_cons_self)
    | none =>
      refine h.bind (h.fetchOne op stats) fun (document, stats) hdocument => ?_
      exact h.bind (ih hops.tail stats) fun (others, stats) hothers => h.pure (hothers.cons hdocument)

theorem settle (h : Parts opts named P) {ops : List (RootOp × Option Document)} (hops : Indexed opts ops)
    (stats : CycleStats) : P (fun _ => True) (settle ops stats) := by
  induction ops generalizing stats with
  | nil => exact h.pure trivial
  | cons first rest ih =>
    obtain ⟨op, found⟩ := first
    cases found with
    | some d =>
      have hindex := hops op d List.mem_cons_self
      exact h.bind (h.upsert d hindex) fun outcome _ => ih hops.tail _
    | none => exact h.bind (h.delete op.identity) fun outcome _ => ih hops.tail _

theorem applyChunk (h : Parts opts named P) (ops : List RootOp) (stats : CycleStats) :
    P (fun _ => True) (applyChunk ops stats) := by
  refine h.bind (h.fetchKeys _) fun trees _ => h.get_bind fun job hoptions _ => ?_
  have hmatched : Indexed opts (matchOps ops (compileTrees job trees stats).2).1 := by
    intro op d hmem
    obtain ⟨entry, hentry, rfl, -⟩ := mem_matchOps hmem
    obtain ⟨tree, -, -, hcompile⟩ := mem_compileTrees.mp hentry
    rw [(Plan.compile_eq_ok hcompile).1, hoptions]
  dsimp only
  split
  · exact h.settle hmatched _
  · exact h.bind (h.fetchUnmatched hmatched _) fun (matched, stats) hfetched => h.settle hfetched stats

theorem applyChunks (h : Parts opts named P) (parts : List (List RootOp)) (stats : CycleStats) :
    P (fun _ => True) (applyChunks parts stats) := by
  induction parts generalizing stats with
  | nil => exact h.pure trivial
  | cons ops rest ih => exact h.bind (h.applyChunk ops stats) fun stats _ => ih stats

theorem applyRecords (h : Parts opts named P) (pages : Nat) (records : List ChangeRecord)
    (stats : CycleStats) : P (fun _ => True) (applyRecords pages records stats) := by
  refine h.get_bind fun job _ hindex => h.bind (h.resolve _ _ _ hindex) fun resolution _ => ?_
  have hops : P (fun _ => True) (applyOps resolution.ops { stats with changes := records.length }) :=
    h.get_bind fun _ _ _ => h.applyChunks _ _
  refine h.bind hops fun stats _ => ?_
  have hends (stats : CycleStats) : P (fun _ => True) (do
      if stats.mutations > 0 then attempt (← get).writer.refresh
      return stats) := by
    dsimp only
    split
    · exact h.get_bind fun job _ _ => h.bind (h.refresh job.writer) fun _ _ => h.pure trivial
    · exact h.pure trivial
  dsimp only
  split
  · have hscan : P (fun _ => True) (Prod.fst <$> Job.scanAll pages stats) :=
      h.bind (h.scanAll pages stats) fun _ _ => h.pure trivial
    exact h.bind hscan fun stats _ => hends stats
  · exact hends stats

/-! ### Cycles -/

theorem fullResync (h : Parts opts named P) (pages : Nat) : P (fun _ => True) (fullResync pages) := by
  refine h.bind h.openSlot fun slot hslot => ?_
  refine h.bind h.drain fun _ _ => h.bind h.currentTxmax fun txmax _ => ?_
  refine h.bind (h.enter .applying) fun _ _ => h.bind (h.rederive pages) fun stats _ => ?_
  refine h.bind (h.enter .reclaiming) fun _ _ => h.bind (h.persist slot txmax hslot) fun _ _ => ?_
  exact h.bind h.ack fun _ _ => h.bind (h.enter .idle) fun _ _ => h.pure trivial

theorem readChanges (h : Parts opts named P) (pages : Nat) :
    P (fun reading => named reading.slot) (readChanges pages) := by
  refine h.bind h.openSlot fun slot hslot => ?_
  refine h.bind h.checkpoint fun before _ => h.bind h.currentTxmax fun txmax _ => ?_
  refine h.bind (h.enter .windowOpen) fun _ _ => h.bind h.drain fun buffered _ => ?_
  split
  · exact h.pure hslot
  refine h.bind (h.enter .applying) fun _ _ => ?_
  dsimp only
  split
  · exact h.pure hslot
  · exact h.bind (h.pullWindow _ slot _ hslot) fun _ _ => h.pure hslot

theorem applyReading (h : Parts opts named P) (pages : Nat) (reading : Reading)
    (hslot : named reading.slot) : P (fun _ => True) (applyReading pages reading) := by
  have hends (stats : CycleStats) : P (fun _ => True) (do
      Job.ack
      Working.enter .idle
      return stats) :=
    h.bind h.ack fun _ _ => h.bind (h.enter .idle) fun _ _ => h.pure trivial
  unfold Job.applyReading
  dsimp only
  split
  · exact h.bind (h.enter .idle) fun _ _ => h.pure trivial
  refine h.bind (h.applyRecords pages reading.records _) fun stats _ => ?_
  refine h.bind (h.enter .reclaiming) fun _ _ => ?_
  split
  · exact h.bind (h.persist _ _ hslot) fun _ _ => hends stats
  · exact hends stats

/-- A property of the parts holds of cycles of either kind. -/
theorem cycle (h : Parts opts named P) (kind : CycleKind) (pages : Nat) :
    P (fun _ => True) (kind.cycle pages) := by
  cases kind with
  | resync => exact h.fullResync pages
  | receive => exact h.bind (h.readChanges pages) fun reading hslot => h.applyReading pages reading hslot

end Parts

end DocSync.Job
