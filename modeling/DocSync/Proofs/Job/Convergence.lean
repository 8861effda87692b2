import DocSync.Proofs.Job.Progress
import DocSync.Proofs.Job.Pursuit

/-!
Convergence.  After a resync that succeeds, whatever is committed between cycles and while cycles read,
however often cycles fail, and however often the job is started anew, what stands in the index is what a
resync would store but for rows that transactions after the checkpoint changed.  So a receive cycle whose
window has the last transaction leaves the index in step.
-/

namespace DocSync

namespace Job

open Working Stateful

variable {kindOf : String → ValueKind} {plan : Plan} {index slotName : String} {wiring : Wiring}
  {docs : Document → Prop} {written ds : List Document} {pages : Nat} {job job' : Job} {s s' : Site}
  {result : Except SyncError CycleStats}

/-! ### Runs of a job -/

/-- One cycle.  Others commit while it reads; while it writes, its sink may be out.  The documents are those
that a resync would derive when the cycle starts to write. -/
inductive Cycled {β : Type} (wiring : Wiring) (reads : Working β) (writes : β → Working CycleStats)
    (job : Job) (s : Site) : List Document → Except SyncError CycleStats → Job → Site → Prop
  | unread {e : SyncError} {job' : Job} {s' : Site} :
      Runs Site.Others wiring reads job s (.error e) job' s' →
      Cycled wiring reads writes job s [] (.error e) job' s'
  | read {b : β} {job₁ job' : Job} {s₁ s' : Site} {result : Except SyncError CycleStats} :
      Runs Site.Others wiring reads job s (.ok b) job₁ s₁ →
      Runs (Site.Outages wiring.sink) wiring (writes b) job₁ s₁ result job' s' →
      Cycled wiring reads writes job s (job₁.derived s₁.1.database) result job' s'

theorem Cycled.runs {β : Type} {reads : Working β} {writes : β → Working CycleStats}
    {result : Except SyncError CycleStats} (h : Cycled wiring reads writes job s ds result job' s') :
    Runs Site.Others wiring (reads >>= writes) job s result job' s' := by
  cases h with
  | unread hreads => exact runs_bind.mpr (.inr ⟨_, hreads, rfl⟩)
  | read hreads hwrites => exact runs_bind.mpr (.inl ⟨_, _, _, hreads, hwrites.mono fun h => h.others⟩)

end Job

/-- A cycle of either kind, in its two parts. -/
def CycleKind.Cycled (kind : CycleKind) (wiring : Wiring) (pages : Nat) :
    Job → Site → List Document → Except SyncError CycleStats → Job → Site → Prop :=
  match kind with
  | resync => Job.Cycled wiring Job.beginResync (Job.finishResync pages)
  | receive => Job.Cycled wiring (Job.readChanges pages) (Job.applyReading pages)

theorem CycleKind.Cycled.runs {kind : CycleKind} {wiring : Wiring} {pages : Nat} {job job' : Job}
    {s s' : Site} {ds : List Document} {result : Except SyncError CycleStats}
    (h : kind.Cycled wiring pages job s ds result job' s') :
    Stateful.Runs Site.Others wiring (kind.cycle pages) job s result job' s' := by
  cases kind with
  | resync =>
    change Stateful.Runs Site.Others wiring (Job.fullResync pages) job s result job' s'
    rw [Job.fullResync_eq]
    exact Job.Cycled.runs h
  | receive => exact Job.Cycled.runs h

/-- A cycle during which nothing is committed. -/
theorem CycleKind.exists_cycled {kind : CycleKind} {wiring : Wiring} {pages : Nat} {job job' : Job}
    {s s' : Site} {result : Except SyncError CycleStats} (hwrites : (s.1.buffer wiring.buffer).writes = [])
    (h : Stateful.Runs (Site.Outages wiring.sink) wiring (kind.cycle pages) job s result job' s') :
    ∃ ds, (∀ d ∈ ds, d ∈ job.derived s.1.database) ∧ kind.Cycled wiring pages job s ds result job' s' := by
  cases kind with
  | resync =>
    change Stateful.Runs _ wiring (Job.fullResync pages) job s result job' s' at h
    rw [Job.fullResync_eq] at h
    rcases Stateful.runs_bind.mp h with ⟨opened, job₁, s₁, hreads, hends⟩ | ⟨e, hreads, rfl⟩
    · have haside := Job.beginResync_aside hwrites hreads
      exact ⟨_, fun d hd => haside.derived ▸ hd, .read (hreads.mono fun h => h.others) hends⟩
    · exact ⟨[], nofun, .unread (hreads.mono fun h => h.others)⟩
  | receive =>
    rcases Stateful.runs_bind.mp h with ⟨reading, job₁, s₁, hreads, hends⟩ | ⟨e, hreads, rfl⟩
    · obtain ⟨haside, -⟩ := Job.readChanges_aside hwrites hreads
      exact ⟨_, fun d hd => haside.derived ▸ hd, .read (hreads.mono fun h => h.others) hends⟩
    · exact ⟨[], nofun, .unread (hreads.mono fun h => h.others)⟩

namespace Job

open Working Stateful

variable {kindOf : String → ValueKind} {plan : Plan} {index slotName : String} {wiring : Wiring}
  {docs : Document → Prop} {written ds : List Document} {pages : Nat} {job job' : Job} {s₀ s s' : Site}

/-- A job of a plan after a resync that succeeded, and then in any order commits and outages, cycles of both
kinds that succeed or fail, and new starts on the same index and slot.  The documents are those that its
cycles derived. -/
inductive Course (plan : Plan) (index slotName : String) (wiring : Wiring) (s₀ : Site) :
    List Document → Job → Site → Prop
  | start {opts : SyncOptions} {pages : Nat} {ds : List Document} {stats : CycleStats} {job' : Job}
      {s' : Site} : opts.index = index → opts.slotName = slotName →
      CycleKind.resync.Cycled wiring pages (.ofPlan plan opts) s₀ ds (.ok stats) job' s' →
      Course plan index slotName wiring s₀ ds job' s'
  | meanwhile {written : List Document} {job : Job} {s s' : Site} :
      Course plan index slotName wiring s₀ written job s → s.Others s' →
      Course plan index slotName wiring s₀ written job s'
  | cycle {written ds : List Document} {job job' : Job} {s s' : Site} {result : Except SyncError CycleStats}
      (kind : CycleKind) (pages : Nat) : Course plan index slotName wiring s₀ written job s →
      kind.Cycled wiring pages job s ds result job' s' →
      Course plan index slotName wiring s₀ (written ++ ds) job' s'
  | restart {written : List Document} {job : Job} {s : Site} {opts : SyncOptions} :
      Course plan index slotName wiring s₀ written job s → opts.index = index → opts.slotName = slotName →
      Course plan index slotName wiring s₀ written (.ofPlan plan opts) s

theorem Course.reaches (h : Course plan index slotName wiring s₀ written job s) :
    Database.Reaches s₀.1.database s.1.database := by
  induction h with
  | start _ _ hcycle => exact Program.Runs.reaches hcycle.runs
  | meanwhile _ hothers ih => exact ih.trans hothers.1.advances.database.reaches
  | cycle _ _ _ hcycle ih => exact ih.trans (Program.Runs.reaches hcycle.runs)
  | restart _ _ _ ih => exact ih

/-! ### What a run keeps -/

/-- A cycle that fails before it writes leaves the job where it was. -/
theorem Pursues.unread {mark : Nat} {β : Type} {reads : Working β}
    (h : Pursues kindOf plan index slotName wiring docs mark job s)
    (hopens : Opens wiring job s reads) (horderly : plan.Orderly kindOf s'.1.database)
    {result : Except SyncError β} (hreads : Runs Site.Others wiring reads job s result job' s') :
    Pursues kindOf plan index slotName wiring docs mark job' s' :=
  h.opening (hopens.holds (.refl job h.fed) hreads).1 horderly

/-- However a cycle ends, the job goes on. -/
theorem Pursues.cycle {mark : Nat} (h : Pursues kindOf plan index slotName wiring docs mark job s)
    (horderly : plan.Orderly kindOf s'.1.database) (hplain : wiring.Plain) (hfaithful : wiring.Faithful)
    (halone : plan.RootAlone) (happart : Document.Apart docs) (hdocs : ∀ d ∈ ds, docs d)
    {kind : CycleKind} {result : Except SyncError CycleStats}
    (hcycle : kind.Cycled wiring pages job s ds result job' s') :
    ∃ mark', Pursues kindOf plan index slotName wiring docs mark' job' s' := by
  cases kind with
  | resync =>
    cases hcycle with
    | unread hreads => exact ⟨mark, h.unread opens_beginResync horderly hreads⟩
    | read hreads hwrites => exact h.resync horderly hplain happart hreads hdocs hwrites
  | receive =>
    cases hcycle with
    | unread hreads => exact ⟨mark, h.unread (opens_readChanges pages) horderly hreads⟩
    | read hreads hwrites =>
      exact (h.receive horderly hplain hfaithful happart halone hreads hdocs hwrites).1

/-- Along every run of a job its index is what a resync would store but for rows that transactions after the
checkpoint changed. -/
theorem Course.pursues (h : Course plan index slotName wiring s₀ written job s) (hbegins : Begins wiring s₀)
    (htimely : s₀.Timely wiring index slotName) (horderly : plan.Orderly kindOf s.1.database)
    (hplain : wiring.Plain) (hfaithful : wiring.Faithful) (halone : plan.RootAlone) (happart : Document.Apart docs) (hdocs : ∀ d ∈ written, docs d) :
    ∃ mark, Pursues kindOf plan index slotName wiring docs mark job s := by
  induction h with
  | start hindex hslot hcycle =>
    cases hcycle with
    | @read opened job₁ _ s₁ _ _ hreads hwrites =>
      have hserves : Serves plan _ _ wiring docs (.ofPlan plan _) s₀ := hbegins.serves hindex hslot
      obtain ⟨-, hlast, hends⟩ := hserves.resync_ends htimely nofun horderly hplain happart hreads hdocs
        hwrites
      have hreaches := Program.Runs.reaches (hwrites.mono fun h => h.others)
      exact ⟨_, hends.pursues_of_ok (Nat.le_trans hlast hreaches.log.1)⟩
  | meanwhile hcourse hothers ih =>
    have hreaches := hothers.1.advances.database.reaches
    obtain ⟨mark, hpursues⟩ := ih (horderly.earlier (hbegins.reached.trans hcourse.reaches) hreaches) hdocs
    exact ⟨mark, hpursues.meanwhile (.others hpursues.fed hothers) horderly⟩
  | cycle kind pages hcourse hcycle ih =>
    have hreaches := Program.Runs.reaches hcycle.runs
    obtain ⟨mark, hpursues⟩ := ih (horderly.earlier (hbegins.reached.trans hcourse.reaches) hreaches)
      fun d hd => hdocs d (List.mem_append_left _ hd)
    exact hpursues.cycle horderly hplain hfaithful halone happart
      (fun d hd => hdocs d (List.mem_append_right _ hd)) hcycle
  | restart _ hindex hslot ih =>
    obtain ⟨mark, hpursues⟩ := ih horderly hdocs
    exact ⟨mark, hpursues.begins.serves hindex hslot, hpursues.stands, hpursues.last, hpursues.current⟩

/-- Where no transaction is past the checkpoint, the index is in step with every job of the plan. -/
theorem Pursues.inStep {mark : Nat} (h : Pursues kindOf plan index slotName wiring docs mark job s)
    (horderly : plan.Orderly kindOf s.1.database) (hplain : wiring.Plain)
    (hlast : s.1.database.lastTxid ≤ mark) {opts : SyncOptions} (hindex : opts.index = index) :
    InStep (.ofPlan plan opts) s.1.database (s.1.sink wiring.sink) := by
  subst hindex
  have hreads : (Job.ofPlan plan opts).plan.Orderly kindOf s.1.database := horderly
  obtain ⟨column, hlegible⟩ := exists_legible hreads hplain h.pending
  refine hlegible.derivable.inStep fun identity t => ?_
  have hderives := horderly.derives_of_current
    (fun r hr => Nat.le_trans (horderly.reached.logKept.txid_le r hr) hlast) (h.current identity)
  change (((s.1.sink wiring.sink).storedAt opts.index identity).map Document.text = some t ↔ _)
  rw [hlegible.derives_iff.mp hderives]
  exact Document.textAt_eq_some_iff hlegible.derivable.nodup_derived

/-- Convergence.  Let a job of a plan resync once, and then let transactions be committed between its cycles
and while they read, let cycles of both kinds succeed or fail at any call, and let the job start anew, in any
order.  A receive cycle that then succeeds has in its window every transaction from before it, and if no other
one is committed after it reads the last one, it leaves exactly the documents in the index that a resync of
the plan would store. -/
theorem receiveOnce_converges {node : Node} (hplain : wiring.Plain) (hfaithful : wiring.Faithful)
    (hbegins : Begins wiring s₀) (htimely : s₀.Timely wiring index slotName)
    (hcourse : Course plan index slotName wiring s₀ written job s) {stats : CycleStats}
    (hcycle : CycleKind.receive.Cycled wiring pages job s ds (.ok stats) job' s')
    (hschema : s₀.1.database.schema.Linked)
    (hplan : Plan.build node s₀.1.database.schema = .ok plan) (hunreserved : plan.Unreserved)
    (halone : plan.RootAlone)
    (hsingle : ∀ node, plan.HasNode node → ∃ column, node.primaryKey = [column])
    (hkinded : plan.Kinded kindOf s'.1.database.log) (hfresh : plan.Fresh s'.1.database.log)
    (happart : Document.Apart (· ∈ written ++ ds)) :
    ∃ window, stats.window = some window ∧ s.1.database.lastTxid ≤ window.txmax ∧
      (s'.1.database.lastTxid ≤ window.txmax → ∀ opts : SyncOptions, opts.index = index →
        InStep (.ofPlan plan opts) s'.1.database (s'.1.sink wiring.sink)) := by
  have hreached := hbegins.reached.trans hcourse.reaches
  have hreaches := Program.Runs.reaches hcycle.runs
  have hkeeps : Database.Reaches s₀.1.database s'.1.database := hcourse.reaches.trans hreaches
  rw [← hkeeps.keepsSchema] at hschema hplan
  have horderly : plan.Orderly kindOf s'.1.database :=
    ⟨hreached.trans hreaches, hschema.name,
      (Plan.build_joined hschema (fun _ _ _ _ _ => trivial) hplan).1.fits hunreserved, hunreserved, hsingle,
      hkinded, hfresh⟩
  obtain ⟨mark, hpursues⟩ := hcourse.pursues hbegins htimely (horderly.earlier hreached hreaches) hplain
    hfaithful halone happart fun d hd => List.mem_append_left _ hd
  cases hcycle with
  | @read reading _ _ _ _ _ hreads hwrites =>
    obtain ⟨hwindow, hlast, hcaught⟩ := (hpursues.receive horderly hplain hfaithful happart halone hreads
      (fun d hd => List.mem_append_right _ hd) hwrites).2 stats rfl
    exact ⟨reading.window, hwindow, hlast, fun hcovered _ => hcaught.inStep horderly hplain hcovered⟩

/-- A job resyncs alone, others do something, and a job that starts anew receives alone. -/
theorem exists_course (plan : Plan) (opts : SyncOptions) {window : TxWindow}
    (hresyncs : (World.runRoutine wiring ((fullResync pages).run.run (.ofPlan plan opts)) s₀).1.any
      (·.1.toOption.any fun _ => true) = true)
    (hquiet₀ : (s₀.1.buffer wiring.buffer).writes = [])
    (hothers : (World.runRoutine wiring ((fullResync pages).run.run (.ofPlan plan opts)) s₀).2.Others s)
    (hquiet : (s.1.buffer wiring.buffer).writes = [])
    (hreceives : (World.runRoutine wiring ((receiveOnce pages).run.run (.ofPlan plan opts)) s).1.any
      (·.1.toOption.any (·.window == some window)) = true) :
    ∃ written ds stats job',
      Course plan opts.index opts.slotName wiring s₀ written (.ofPlan plan opts) s ∧
      CycleKind.receive.Cycled wiring pages (.ofPlan plan opts) s ds (.ok stats) job'
        (World.runRoutine wiring ((receiveOnce pages).run.run (.ofPlan plan opts)) s).2 ∧
      stats.window = some window ∧
      ∀ d ∈ written ++ ds, d ∈ (Job.ofPlan plan opts).derived s₀.1.database ++
        (Job.ofPlan plan opts).derived s.1.database := by
  have halone : ∀ s, Site.Outages wiring.sink s s := Site.Outages.refl
  obtain ⟨_, _, hresync, -⟩ := exists_runs_ok (a := CycleKind.resync.cycle pages) halone _ hresyncs
  obtain ⟨stats, job', hreceive, hwindow⟩ :=
    exists_runs_ok (a := CycleKind.receive.cycle pages) halone _ hreceives
  obtain ⟨written, hwritten, hfilled⟩ := CycleKind.exists_cycled hquiet₀ hresync
  obtain ⟨ds, hds, hseen⟩ := CycleKind.exists_cycled hquiet hreceive
  refine ⟨written, ds, stats, job', ((Course.start rfl rfl hfilled).meanwhile hothers).restart rfl rfl, hseen,
    by simpa using hwindow, fun d hd => ?_⟩
  exact List.mem_append.mpr ((List.mem_append.mp hd).imp (hwritten d) (hds d))

/-! Two ships, and a crate that is sent to the second one between the cycles of two jobs.  The crate refers to
its ship by the column given. -/

def crateSchema (column : String) : Schema := .ofTables
  [⟨"ship", [⟨"id", "integer"⟩], ["id"], []⟩,
    ⟨"crate", [⟨"id", "integer"⟩, ⟨column, "integer"⟩], ["id"], [⟨[column], "ship", ["id"]⟩]⟩]

def shipNode : Node := ⟨"ship", [], [], none, [⟨"crate", [], [], none, []⟩]⟩

def crateNode (column : String) : PlanNode :=
  ⟨"crate", none, ["id", column], [], ["id", column], ["id"], some ⟨.oneToMany, ["id"], [column]⟩⟩

def shipPlan (column : String) : Plan :=
  ⟨⟨"ship", none, ["id"], [], ["id"], ["id"], none⟩, [⟨crateNode column, []⟩]⟩

def shipOptions : SyncOptions := ⟨"ships", "harbour", 10, 10, 0, .none⟩

def shipJob (column : String) : Job := .ofPlan (shipPlan column) shipOptions

def harbourWiring : Wiring := ⟨"arrivals", "main", "marks", [], false, false, false⟩

/-- The ships come in two transactions. -/
def shipDatabase (column : String) : Database :=
  ((Database.empty (crateSchema column)).committed [.insert "ship" [("id", .ofNat 3)]]).committed
    [.insert "ship" [("id", .ofNat 9)]]

/-- The ships are there, and buffers are fed and checkpoints saved as given. -/
def harbour (column : String) (feeds : List String) (marks : List (String × Nat)) : Site :=
  ({ World.empty (crateSchema column) (crateSchema column) "" "" with
    database := shipDatabase column
    feeds := feeds
    buffers := [("arrivals", ⟨.memory ⟨[], 0⟩, 0, []⟩)]
    sinks := [("main", .empty true true)]
    stores := [("marks", marks)] }, [])

/-- After a resync. -/
def harbourFilled (column : String) (feeds : List String) (marks : List (String × Nat)) : Site :=
  (World.runRoutine harbourWiring ((fullResync 5).run.run (shipJob column))
    (harbour column feeds marks)).2

/-- The crate is sent to the second ship. -/
def crateSent (column : String) (s : Site) : Site :=
  ((s.1.commitEach [.insert "crate" [("id", .ofNat 7), (column, .ofNat 9)]]).2, s.2)

/-- After the crate was sent. -/
def harbourLoaded (column : String) (feeds : List String) (marks : List (String × Nat)) : Site :=
  crateSent column (harbourFilled column feeds marks)

/-- After the receive cycle of a job that starts anew. -/
def harbourSeen (column : String) (feeds : List String) (marks : List (String × Nat)) : Site :=
  (World.runRoutine harbourWiring ((receiveOnce 5).run.run (shipJob column))
    (harbourLoaded column feeds marks)).2

/-- What both jobs derive. -/
def shipDocuments (column : String) (feeds : List String) (marks : List (String × Nat)) : List Document :=
  (shipJob column).derived (harbour column feeds marks).1.database ++
    (shipJob column).derived (harbourLoaded column feeds marks).1.database

section

variable {column : String} {feeds : List String} {marks : List (String × Nat)}

theorem shipPlan_rootAlone : (shipPlan column).RootAlone := by
  intro child hchild node hnode
  obtain rfl := List.mem_singleton.mp hchild
  cases hnode with
  | root => simp [crateNode, shipPlan]
  | child hmem => exact absurd hmem List.not_mem_nil

theorem shipPlan_single {node : PlanNode} (hnode : (shipPlan column).HasNode node) :
    ∃ column, node.primaryKey = [column] := by
  cases hnode with
  | root => exact ⟨_, rfl⟩
  | child hmem hnode =>
    obtain rfl := List.mem_singleton.mp hmem
    cases hnode with
    | root => exact ⟨_, rfl⟩
    | child hmem => exact absurd hmem List.not_mem_nil

theorem others_crateSent (column : String) (s : Site) : s.Others (crateSent column s) :=
  ⟨World.others_commitEach _ _, rfl⟩

theorem schema_shipDatabase : (shipDatabase column).schema = crateSchema column := by
  rw [shipDatabase, Database.schema_committed, Database.schema_committed]
  rfl

theorem shipDatabase_reached : (shipDatabase column).Reached :=
  ((Database.Reached.empty _).committed _).committed _

theorem harbour_begins : Begins harbourWiring (harbour column feeds marks) :=
  ⟨rfl, rfl, rfl, shipDatabase_reached, [], [], List.nil_suffix, by simp; rfl, rfl⟩

theorem harbour_timely (hslots : (shipDatabase column).slots = []) :
    (harbour column feeds []).Timely harbourWiring "ships" "harbour" := by
  refine ⟨⟨none, by cbv, Nat.zero_le _⟩, fun slot hslot => ?_⟩
  change (shipDatabase column).slots.get? "harbour" = some slot at hslot
  rw [hslots] at hslot
  contradiction

end

/-- The run: the first job resyncs, the crate is sent, and the second job receives all that there is. -/
structure HarbourRun (column : String) (feeds : List String) (marks : List (String × Nat))
    (window : TxWindow) : Prop where
  linked : (harbour column feeds marks).1.database.schema.Linked
  built : Plan.build shipNode (harbour column feeds marks).1.database.schema = .ok (shipPlan column)
  runs : ∃ written ds stats job',
    Course (shipPlan column) "ships" "harbour" harbourWiring (harbour column feeds marks) written
      (shipJob column) (harbourLoaded column feeds marks) ∧
    CycleKind.receive.Cycled harbourWiring 5 (shipJob column) (harbourLoaded column feeds marks) ds
      (.ok stats) job' (harbourSeen column feeds marks) ∧
    stats.window = some window ∧ ∀ d ∈ written ++ ds, d ∈ shipDocuments column feeds marks
  kinded : (shipPlan column).Kinded (fun _ => .integer) (harbourSeen column feeds marks).1.database.log
  fresh : (shipPlan column).Fresh (harbourSeen column feeds marks).1.database.log
  last : (harbourSeen column feeds marks).1.database.lastTxid ≤ window.txmax

theorem HarbourRun.of_checks {column : String} {feeds : List String} {marks : List (String × Nat)}
    {window : TxWindow} (hlinked : ∀ entry ∈ (crateSchema column).tables,
      entry.2.name = entry.1 ∧ entry.2.Linked (crateSchema column))
    (hbuilt : Plan.build shipNode (crateSchema column) = .ok (shipPlan column))
    (hresyncs : (World.runRoutine harbourWiring ((fullResync 5).run.run (shipJob column))
      (harbour column feeds marks)).1.any (·.1.toOption.any fun _ => true) = true)
    (hreceives : ((harbourLoaded column feeds marks).1.buffer "arrivals").writes.isEmpty = true ∧
      (World.runRoutine harbourWiring ((receiveOnce 5).run.run (shipJob column))
        (harbourLoaded column feeds marks)).1.any (·.1.toOption.any (·.window == some window)) = true)
    (hhistory : (∀ entry ∈ [("ship", "id"), ("crate", "id"), ("crate", column)],
        ColumnKinds entry.1 [entry.2] [.integer] (harbourSeen column feeds marks).1.database.log) ∧
      (∀ r ∈ (harbourSeen column feeds marks).1.database.log, r.oldKey.isSome = false) ∧
      (harbourSeen column feeds marks).1.database.lastTxid ≤ window.txmax) :
    HarbourRun column feeds marks window := by
  obtain ⟨hquiet, hreceives⟩ := hreceives
  obtain ⟨hkinds, hstays, hlast⟩ := hhistory
  have hschema : (harbour column feeds marks).1.database.schema = crateSchema column :=
    schema_shipDatabase
  have hempty : ((harbour column feeds marks).1.buffer harbourWiring.buffer).writes = [] := rfl
  have hsent : (harbourFilled column feeds marks).Others (harbourLoaded column feeds marks) :=
    others_crateSent column _
  have hruns := exists_course (shipPlan column) shipOptions hresyncs hempty hsent
    (List.isEmpty_iff.mp hquiet) hreceives
  refine ⟨hschema ▸ Schema.linked_of_entries hlinked, hschema ▸ hbuilt, hruns, ?_, ?_, hlast⟩
  · have hships := hkinds ("ship", "id") (by simp)
    refine .mk hships (fun child hchild => ?_) fun child hchild join hjoin => ?_ <;>
      obtain rfl := List.mem_singleton.mp hchild
    · exact .mk (hkinds ("crate", "id") (by simp)) (by simp) (by simp)
    · obtain rfl := Option.some.inj hjoin
      exact ⟨[.integer], hships, hkinds ("crate", column) (by simp)⟩
  · intro node hnode before r after hlog htable hmoved
    have hr : r ∈ (harbourSeen column feeds marks).1.database.log := by simp [hlog]
    simp [hstays r hr] at hmoved

theorem shipDocuments_apart : ∀ d ∈ shipDocuments "ship_id" ["arrivals"] [],
    ∀ d' ∈ shipDocuments "ship_id" ["arrivals"] [], d.digest = d'.digest → d.text = d'.text := by
  decide +kernel

theorem harbourRun : HarbourRun "ship_id" ["arrivals"] [] ⟨2, 3⟩ :=
  .of_checks (by decide +kernel) (by cbv) (by decide +kernel) (by decide +kernel) (by decide +kernel)

theorem shipPlan_unreserved : (shipPlan "ship_id").Unreserved := by
  refine .mk (by decide) (fun child hchild => ?_) fun child hchild join hjoin => ?_ <;>
    obtain rfl := List.mem_singleton.mp hchild
  · exact .mk (by decide) (by simp) (by simp)
  · obtain rfl := Option.some.inj hjoin
    decide

/-- The crate is in the document of its ship. -/
theorem receiveOnce_converges_of_ships : ∃ written ds stats job',
    Course (shipPlan "ship_id") "ships" "harbour" harbourWiring (harbour "ship_id" ["arrivals"] []) written
      (shipJob "ship_id") (harbourLoaded "ship_id" ["arrivals"] []) ∧
    CycleKind.receive.Cycled harbourWiring 5 (shipJob "ship_id") (harbourLoaded "ship_id" ["arrivals"] [])
      ds (.ok stats) job' (harbourSeen "ship_id" ["arrivals"] []) ∧
    stats.window = some ⟨2, 3⟩ ∧
    InStep (shipJob "ship_id") (harbourSeen "ship_id" ["arrivals"] []).1.database
      ((harbourSeen "ship_id" ["arrivals"] []).1.sink "main") := by
  obtain ⟨written, ds, stats, job', hcourse, hcycle, hwindow, hdocs⟩ := harbourRun.runs
  have happart : Document.Apart (· ∈ written ++ ds) :=
    fun d d' hd hd' => shipDocuments_apart d (hdocs d hd) d' (hdocs d' hd')
  obtain ⟨window, hsame, -, hconverges⟩ := receiveOnce_converges ⟨rfl, rfl⟩ ⟨rfl, rfl⟩ harbour_begins
    (harbour_timely (by cbv)) hcourse hcycle harbourRun.linked harbourRun.built shipPlan_unreserved
    shipPlan_rootAlone (fun _ => shipPlan_single) harbourRun.kinded harbourRun.fresh happart
  obtain rfl := Option.some.inj (hwindow.symm.trans hsame)
  exact ⟨written, ds, stats, job', hcourse, hcycle, hwindow, hconverges harbourRun.last shipOptions rfl⟩

/-- A column with the name of a system column is followed by the value that the row was given, and joined by
the transaction that wrote it; and a checkpoint past the last transaction hides what comes up to it.  The
crate is then in no document of the index, although the window of the cycle has its transaction. -/
theorem receiveOnce_misses_crate :
    (∀ column, (shipPlan column).RootAlone ∧
      ∀ node, (shipPlan column).HasNode node → ∃ key, node.primaryKey = [key]) ∧
    (∀ column feeds marks, Begins harbourWiring (harbour column feeds marks)) ∧
    (HarbourRun "xmin" ["arrivals"] [] ⟨2, 3⟩ ∧
      (harbour "xmin" ["arrivals"] []).Timely harbourWiring "ships" "harbour" ∧
      ¬ InStep (shipJob "xmin") (harbourSeen "xmin" ["arrivals"] []).1.database
        ((harbourSeen "xmin" ["arrivals"] []).1.sink "main")) ∧
    HarbourRun "ship_id" [] [("ships", 9)] ⟨9, 9⟩ ∧ (shipPlan "ship_id").Unreserved ∧
      ¬ InStep (shipJob "ship_id") (harbourSeen "ship_id" [] [("ships", 9)]).1.database
        ((harbourSeen "ship_id" [] [("ships", 9)]).1.sink "main") := by
  have hnamed : HarbourRun "xmin" ["arrivals"] [] ⟨2, 3⟩ :=
    .of_checks (by decide +kernel) (by cbv) (by decide +kernel) (by decide +kernel) (by decide +kernel)
  have hmarked : HarbourRun "ship_id" [] [("ships", 9)] ⟨9, 9⟩ :=
    .of_checks (by decide +kernel) (by cbv) (by decide +kernel) (by decide +kernel) (by decide +kernel)
  refine ⟨fun _ => ⟨shipPlan_rootAlone, fun _ => shipPlan_single⟩, fun _ _ _ => harbour_begins,
    ⟨hnamed, harbour_timely (by cbv), fun hinStep => ?_⟩, hmarked, shipPlan_unreserved, fun hinStep => ?_⟩
  · exact absurd hinStep.stored (by decide +kernel)
  · exact absurd hinStep.stored (by decide +kernel)

end Job

end DocSync
