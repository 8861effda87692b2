import DocSync.Proofs.Job.Catching

/-!
Pursuit.  What a cycle leaves to the next one.  Between cycles what stands in the index is what a resync
would store but for rows that transactions after the checkpoint changed, and the slot still has the log of
those; a cycle that fails while it writes leaves it so, and one that succeeds moves the checkpoint on.
-/

namespace DocSync

namespace Job

open Working Stateful

variable {kindOf : String → ValueKind} {plan : Plan} {index slotName : String} {wiring : Wiring}
  {docs : Document → Prop} {mark upTo txid pages : Nat} {job job' job₁ : Job} {s s' s₁ : Site}
  {result : Except SyncError CycleStats}

/-- Where a job may start: a sink that lists identities and refuses nothing, a session at rest, and a buffer
that is empty or fed. -/
structure Begins (wiring : Wiring) (s : Site) : Prop where
  rejected : (s.1.sink wiring.sink).rejected = []
  enumerates : (s.1.sink wiring.sink).enumerates = true
  pending : s.2.pending = []
  reached : s.1.database.Reached
  fed : s.1.IsFed wiring.buffer

/-- What a job is to its index and its slot. -/
structure Serves (plan : Plan) (index slotName : String) (wiring : Wiring) (docs : Document → Prop)
    (job : Job) (s : Site) : Prop where
  plan_eq : job.plan = plan
  index_eq : job.options.index = index
  slotName_eq : job.options.slotName = slotName
  slot : ∀ name, job.slot = some name → name = slotName
  ready : Ready docs wiring.sink job s
  enumerates : (s.1.sink wiring.sink).enumerates = true
  pending : s.2.pending = []
  reached : s.1.database.Reached
  fed : s.1.IsFed wiring.buffer

namespace Serves

theorem getD_slot (h : Serves plan index slotName wiring docs job s) :
    job.slot.getD job.options.slotName = slotName := by
  cases hslot : job.slot with
  | none => exact h.slotName_eq
  | some name => exact h.slot name hslot

theorem meanwhile (h : Serves plan index slotName wiring docs job s) (hsite : s.Meanwhile wiring s') :
    Serves plan index slotName wiring docs job s' :=
  { h with
    ready := ⟨h.ready.index, hsite.sink.rejected.trans h.ready.rejected, h.ready.sound.alike hsite.sink⟩
    enumerates := hsite.sink.enumerates.trans h.enumerates
    pending := hsite.frames ▸ h.pending
    reached := h.reached.trans hsite.reaches
    fed := hsite.fed }

theorem opening (h : Serves plan index slotName wiring docs job s) (hopening : Opening wiring job job' s s') :
    Serves plan index slotName wiring docs job' s' := by
  have hlater := h.meanwhile hopening.site
  obtain ⟨slot, phase, rfl, hslot⟩ := hopening.job
  refine { hlater with slot := fun name hname => ?_, ready := ⟨hlater.ready.index, hlater.ready.rejected,
    hlater.ready.sound⟩ }
  rcases hslot with rfl | rfl
  · exact h.slot name hname
  · exact (Option.some.inj hname).symm.trans h.slotName_eq

theorem toward (h : Serves plan index slotName wiring docs job s) {want : String → Option String}
    (htoward : Toward docs want wiring.sink job job' s s') :
    Serves plan index slotName wiring docs job' s' := by
  have hready := htoward.ready h.ready
  have hsame := htoward.same
  have hworld := htoward.rest.world
  refine ⟨htoward.plan.trans h.plan_eq, htoward.options ▸ h.index_eq, htoward.options ▸ h.slotName_eq, ?_,
    hready, htoward.writer.nature.enumerates.trans h.enumerates, htoward.rest.frames ▸ h.pending,
    htoward.rest.database ▸ h.reached, h.fed.of_same ?_ ?_ ?_⟩
  · rw [hsame]
    exact h.slot
  · rw [hworld]
    rfl
  · rw [hworld]
  · rw [hworld]

theorem closing (h : Serves plan index slotName wiring docs job s) (hclosing : Closing wiring job job' s s')
    (hreaches : Database.Reaches s.1.database s'.1.database) :
    Serves plan index slotName wiring docs job' s' := by
  have haside := hclosing.aside
  refine ⟨haside.plan.trans h.plan_eq, haside.options ▸ h.index_eq, haside.options ▸ h.slotName_eq,
    hclosing.slot ▸ h.slot, haside.ready h.ready, haside.sink.enumerates.trans h.enumerates,
    haside.rests.frames ▸ h.pending, h.reached.trans hreaches, hclosing.fed h.fed⟩

end Serves

/-- A job that starts has an empty ledger and no slot yet. -/
theorem Begins.serves (h : Begins wiring s) {opts : SyncOptions} (hindex : opts.index = index)
    (hslot : opts.slotName = slotName) : Serves plan index slotName wiring docs (.ofPlan plan opts) s :=
  ⟨rfl, hindex, hslot, nofun, ⟨rfl, h.rejected, nofun⟩, h.enumerates, h.pending, h.reached, h.fed⟩

theorem Serves.begins (h : Serves plan index slotName wiring docs job s) : Begins wiring s :=
  ⟨h.ready.rejected, h.enumerates, h.pending, h.reached, h.fed⟩

/-! ### What a cycle leaves -/

/-- A job whose index is what a resync would store but for rows that transactions after its checkpoint
changed, and whose slot still has the log of those. -/
structure Pursues (kindOf : String → ValueKind) (plan : Plan) (index slotName : String) (wiring : Wiring)
    (docs : Document → Prop) (mark : Nat) (job : Job) (s : Site) : Prop extends
    Serves plan index slotName wiring docs job s where
  stands : s.Stands wiring index slotName mark
  last : mark ≤ s.1.database.lastTxid
  current : plan.CurrentIn kindOf index s.1.database mark (s.1.sink wiring.sink)

theorem Pursues.meanwhile (h : Pursues kindOf plan index slotName wiring docs mark job s)
    (hsite : s.Meanwhile wiring s') (horderly : plan.Orderly kindOf s'.1.database) :
    Pursues kindOf plan index slotName wiring docs mark job s' :=
  ⟨h.toServes.meanwhile hsite, h.stands.meanwhile hsite, Nat.le_trans h.last hsite.reaches.log.1,
    h.current.reaches (horderly.earlier h.reached hsite.reaches) horderly hsite.reaches h.last hsite.sink⟩

theorem Pursues.opening (h : Pursues kindOf plan index slotName wiring docs mark job s)
    (hopening : Opening wiring job job' s s') (horderly : plan.Orderly kindOf s'.1.database) :
    Pursues kindOf plan index slotName wiring docs mark job' s' :=
  { h.meanwhile hopening.site horderly with toServes := h.toServes.opening hopening }

/-- How the second part of a cycle ends: it fails with the checkpoint as it was and the index as current
as it was up to the end of its window, or the checkpoint is there and the index is current. -/
structure Ends (kindOf : String → ValueKind) (plan : Plan) (index slotName : String) (wiring : Wiring)
    (docs : Document → Prop) (upTo : Nat) (s : Site) (result : Except SyncError CycleStats) (job' : Job)
    (s' : Site) : Prop where
  serves : Serves plan index slotName wiring docs job' s'
  cases : (∃ e, result = .error e) ∧ s.Unmoved wiring index s' ∧
      (∀ txid ≤ upTo, plan.CurrentIn kindOf index s.1.database txid (s.1.sink wiring.sink) →
        plan.CurrentIn kindOf index s'.1.database txid (s'.1.sink wiring.sink)) ∨
    s'.Stands wiring index slotName upTo ∧
      plan.CurrentIn kindOf index s'.1.database upTo (s'.1.sink wiring.sink)

/-- Once the index is current up to the end of a window, saving and acknowledging end the cycle. -/
theorem Serves.saves_ends (h : Serves plan index slotName wiring docs job s)
    (horderly : plan.Orderly kindOf s'.1.database) (hbehind : s.Behind wiring index slotName upTo)
    (hlast : upTo ≤ s.1.database.lastTxid)
    (hcurrent : plan.CurrentIn kindOf index s.1.database upTo (s.1.sink wiring.sink)) {stats : CycleStats}
    (hruns : Runs (Site.Outages wiring.sink) wiring
      (do persist slotName upTo; ack; enter .idle; return stats) job s result job' s') :
    Ends kindOf plan index slotName wiring docs upTo s result job' s' := by
  have hreaches := Program.Runs.reaches (hruns.mono fun h => h.others)
  obtain ⟨hclosing, hends, -⟩ := saves_closes h.fed.quiet hruns
  have hlater {txid : Nat} (hle : txid ≤ upTo) :
      plan.CurrentIn kindOf index s'.1.database txid (s'.1.sink wiring.sink) :=
    Plan.CurrentIn.reaches (fun identity => (hcurrent identity).mono hle)
      (horderly.earlier h.reached hreaches) horderly hreaches (Nat.le_trans hle hlast) hclosing.aside.sink
  refine ⟨h.closing hclosing hreaches, ?_⟩
  rw [h.index_eq] at hends
  exact hends.imp (fun ⟨he, hunmoved⟩ => ⟨he, hunmoved, fun _ hle _ => hlater hle⟩)
    fun hstands => ⟨hstands hbehind, hlater le_rfl⟩

/-- What was done before the second part of a cycle ends counts with it, if it left the checkpoint alone and
the index as current as it was. -/
theorem Ends.since (h : Ends kindOf plan index slotName wiring docs upTo s₁ result job' s')
    (hunmoved : s.Unmoved wiring index s₁)
    (hcurrent : ∀ txid, plan.CurrentIn kindOf index s.1.database txid (s.1.sink wiring.sink) →
      plan.CurrentIn kindOf index s₁.1.database txid (s₁.1.sink wiring.sink)) :
    Ends kindOf plan index slotName wiring docs upTo s result job' s' :=
  ⟨h.serves, h.cases.imp_left fun ⟨he, hmoved, hkept⟩ =>
    ⟨he, hunmoved.trans hmoved, fun txid hle hbefore => hkept txid hle (hcurrent txid hbefore)⟩⟩

/-- What a job needs to write what it derives. -/
theorem Serves.exists_renewable (h : Serves plan index slotName wiring docs job s)
    (horderly : plan.Orderly kindOf s.1.database) (hplain : wiring.Plain) (happart : Document.Apart docs)
    (hdocs : ∀ d ∈ job.derived s.1.database, docs d) :
    ∃ column, Renewable docs (Document.textAt (job.derived s.1.database)) wiring
      (kindOf plan.node.table) column job s := by
  obtain rfl := h.plan_eq
  obtain ⟨column, hlegible⟩ := exists_legible horderly hplain h.pending
  exact ⟨column, hlegible.renewable happart h.ready hdocs⟩

/-- How writes towards what a resync stores end: the index is as current as it was, and up to the end of a
window if they succeed. -/
structure Catches {α : Type} (kindOf : String → ValueKind) (plan : Plan) (index : String) (wiring : Wiring)
    (docs : Document → Prop) (upTo : Nat) (job : Job) (s : Site) (result : Except SyncError α) (job' : Job)
    (s' : Site) : Prop where
  toward : Toward docs (Document.textAt (job.derived s.1.database)) wiring.sink job job' s s'
  keeps : ∀ txid, plan.CurrentIn kindOf index s.1.database txid (s.1.sink wiring.sink) →
    plan.CurrentIn kindOf index s'.1.database txid (s'.1.sink wiring.sink)
  catches : ∀ value, result = .ok value →
    plan.CurrentIn kindOf index s'.1.database upTo (s'.1.sink wiring.sink)

theorem Catches.unmoved {α : Type} {result : Except SyncError α}
    (h : Catches kindOf plan index wiring docs upTo job s result job' s') : s.Unmoved wiring index s' :=
  Site.unmoved_of_sameElse h.toward.rest

/-- Re-deriving every root catches up with everything. -/
theorem Serves.rederive_catches (h : Serves plan index slotName wiring docs job s)
    (horderly : plan.Orderly kindOf s.1.database) (hplain : wiring.Plain) (happart : Document.Apart docs)
    (hdocs : ∀ d ∈ job.derived s.1.database, docs d)
    (hruns : Runs (Site.Outages wiring.sink) wiring (rederive pages) job s result job' s') (upTo : Nat) :
    Catches kindOf plan index wiring docs upTo job s result job' s' := by
  obtain ⟨column, hrenewable⟩ := h.exists_renewable horderly hplain happart hdocs
  have hnodup := hrenewable.legible.derivable.nodup_derived
  obtain ⟨htoward, hmeets⟩ := rederive_runs happart h.ready hrenewable.legible.toReadable h.enumerates
    (fun d hd => ⟨hdocs d hd, Document.textAt_of_mem hnodup hd⟩)
    (fun identity hnone => Document.textAt_eq_none hnone) hruns
  obtain rfl := h.plan_eq
  obtain rfl := h.index_eq
  refine ⟨htoward, fun txid hcurrent => ?_, fun stats hstats identity => ?_⟩ <;> rw [htoward.rest.database]
  · exact hrenewable.currentIn_of_toward horderly htoward hcurrent
  · exact hrenewable.current_of_meets horderly htoward (hmeets stats hstats identity) upTo

/-- Applying what a receive cycle read catches up with its window. -/
theorem Serves.applyRecords_catches (h : Serves plan index slotName wiring docs job s)
    (horderly : plan.Orderly kindOf s.1.database) (hplain : wiring.Plain) (happart : Document.Apart docs)
    (hdocs : ∀ d ∈ job.derived s.1.database, docs d) (halone : plan.RootAlone) {window : TxWindow}
    {records : List ChangeRecord} (htold : plan.Told s.1.database.log window records)
    (hcurrent : plan.CurrentIn kindOf index s.1.database window.txmin (s.1.sink wiring.sink))
    {stats : CycleStats}
    (hruns : Runs (Site.Outages wiring.sink) wiring (applyRecords pages records stats) job s result job'
      s') :
    Catches kindOf plan index wiring docs window.txmax job s result job' s' := by
  obtain ⟨column, hrenewable⟩ := h.exists_renewable horderly hplain happart hdocs
  obtain rfl := h.plan_eq
  obtain rfl := h.index_eq
  obtain ⟨htoward, hcaught⟩ :=
    hrenewable.applyRecords_catches horderly rfl halone htold hcurrent hruns
  refine ⟨htoward, fun txid hcurrent => ?_, fun stats hstats => ?_⟩ <;> rw [htoward.rest.database]
  · exact hrenewable.currentIn_of_toward horderly htoward hcurrent
  · exact hcaught stats hstats

/-- A cycle that fails while it writes. -/
theorem Serves.ends_of_fails {α : Type} {e : SyncError} (h : Serves plan index slotName wiring docs job s)
    (hcatches : Catches kindOf plan index wiring docs upTo job s (.error e : Except SyncError α) job' s') :
    Ends kindOf plan index slotName wiring docs upTo s (.error e) job' s' :=
  ⟨h.toward hcatches.toward, .inl ⟨⟨e, rfl⟩, hcatches.unmoved, fun txid _ => hcatches.keeps txid⟩⟩

/-- The writing part of a resync. -/
theorem Serves.finishResync_ends (h : Serves plan index slotName wiring docs job s)
    (horderly : plan.Orderly kindOf s'.1.database) (hplain : wiring.Plain) (happart : Document.Apart docs)
    (hdocs : ∀ d ∈ job.derived s.1.database, docs d) (hbehind : s.Behind wiring index slotName upTo)
    (hlast : upTo ≤ s.1.database.lastTxid)
    (hruns : Runs (Site.Outages wiring.sink) wiring (finishResync pages (slotName, upTo)) job s result job'
      s') : Ends kindOf plan index slotName wiring docs upTo s result job' s' := by
  have horderly₀ := horderly.earlier h.reached (Program.Runs.reaches (hruns.mono fun h => h.others))
  rw [finishResync, runs_enter_bind] at hruns
  have hentered : Serves plan index slotName wiring docs { job with phase := .applying } s :=
    h.closing (.enter job s .applying) .refl
  rcases runs_bind.mp hruns with ⟨stats, job₁, s₁, hrederive, hrest⟩ | ⟨e, hrederive, rfl⟩
  · have hcatches := hentered.rederive_catches horderly₀ hplain happart hdocs hrederive upTo
    have hserves := (hentered.toward hcatches.toward).closing (.enter job₁ s₁ .reclaiming) .refl
    rw [runs_enter_bind] at hrest
    exact (hserves.saves_ends horderly (hbehind.unmoved hcatches.unmoved)
      (hcatches.toward.rest.database ▸ hlast) (hcatches.catches stats rfl) hrest).since hcatches.unmoved
      hcatches.keeps
  · exact hentered.ends_of_fails (hentered.rederive_catches horderly₀ hplain happart hdocs hrederive upTo)

/-- The writing part of a receive cycle. -/
theorem Pursues.applyReading_ends (h : Pursues kindOf plan index slotName wiring docs mark job s)
    (horderly : plan.Orderly kindOf s'.1.database) (hplain : wiring.Plain) (happart : Document.Apart docs)
    (hdocs : ∀ d ∈ job.derived s.1.database, docs d) (halone : plan.RootAlone) {reading : Reading}
    (hslot : reading.slot = slotName) (htxmin : reading.window.txmin = mark)
    (hle : mark ≤ reading.window.txmax) (hlast : reading.window.txmax ≤ s.1.database.lastTxid)
    (htold : plan.Told s.1.database.log reading.window reading.records)
    (hruns : Runs (Site.Outages wiring.sink) wiring (applyReading pages reading) job s result job' s') :
    Ends kindOf plan index slotName wiring docs reading.window.txmax s result job' s' := by
  have horderly₀ := horderly.earlier h.reached (Program.Runs.reaches (hruns.mono fun h => h.others))
  -- the checkpoint stands at the end of an empty window
  have hempty (hwindow : reading.window.isEmpty = true) : reading.window.txmax = mark := by
    have hends : reading.window.txmax ≤ reading.window.txmin := by simpa [TxWindow.isEmpty] using hwindow
    omega
  unfold applyReading at hruns
  dsimp only at hruns
  split at hruns
  · rename_i hnothing
    rw [runs_enter_bind] at hruns
    obtain ⟨-, rfl, rfl⟩ := runs_pure.mp hruns
    have hsame := hempty (Bool.and_eq_true_iff.mp hnothing).1
    exact ⟨h.toServes.closing (.enter job s' .idle) .refl, .inr ⟨hsame ▸ h.stands, hsame ▸ h.current⟩⟩
  rcases runs_bind.mp hruns with ⟨stats, job₁, s₁, happly, hrest⟩ | ⟨e, happly, rfl⟩
  · have hcatches := h.toServes.applyRecords_catches horderly₀ hplain happart hdocs halone htold
      (htxmin ▸ h.current) happly
    have hserves := (h.toServes.toward hcatches.toward).closing (.enter job₁ s₁ .reclaiming) .refl
    rw [runs_enter_bind] at hrest
    split at hrest
    · rw [hslot] at hrest
      exact (hserves.saves_ends horderly ((h.stands.behind hle).unmoved hcatches.unmoved)
        (hcatches.toward.rest.database ▸ hlast) (hcatches.catches stats rfl) hrest).since hcatches.unmoved
        hcatches.keeps
    · rename_i hwindow
      have hsame := hempty (by simpa using hwindow)
      have hreaches := Program.Runs.reaches (hrest.mono fun h => h.others)
      obtain ⟨hclosing, hunmoved, -⟩ := acks_closes hserves.fed.quiet hrest
      have hdatabase := hcatches.toward.rest.database
      refine ⟨hserves.closing hclosing hreaches, .inr ⟨?_, ?_⟩⟩
      · rw [hsame]
        exact (h.stands.unmoved hcatches.unmoved).unmoved (hunmoved index)
      · exact (hcatches.catches stats rfl).reaches (hdatabase ▸ horderly₀) horderly hreaches
          (hdatabase ▸ hlast) hclosing.aside.sink
  · exact h.toServes.ends_of_fails (h.toServes.applyRecords_catches horderly₀ hplain happart hdocs halone
      htold (htxmin ▸ h.current) happly)

/-! ### Whole cycles -/

/-- A cycle that succeeds leaves the checkpoint at the end of its window, and the index current up to it. -/
theorem Ends.pursues_of_ok {stats : CycleStats}
    (h : Ends kindOf plan index slotName wiring docs upTo s (.ok stats) job' s')
    (hlast : upTo ≤ s'.1.database.lastTxid) :
    Pursues kindOf plan index slotName wiring docs upTo job' s' := by
  rcases h.cases with ⟨⟨e, he⟩, -⟩ | ⟨hstands, hcurrent⟩
  · cases he
  · exact ⟨h.serves, hstands, hlast, hcurrent⟩

/-- However the second part of a cycle ends, the job goes on from there. -/
theorem Pursues.ends (h : Pursues kindOf plan index slotName wiring docs mark job s)
    (hends : Ends kindOf plan index slotName wiring docs upTo s result job' s') (hle : mark ≤ upTo)
    (hlast : upTo ≤ s.1.database.lastTxid) (hreaches : Database.Reaches s.1.database s'.1.database) :
    ∃ mark', Pursues kindOf plan index slotName wiring docs mark' job' s' := by
  rcases hends.cases with ⟨-, hunmoved, hkept⟩ | ⟨hstands, hcurrent⟩
  · exact ⟨mark, hends.serves, h.stands.unmoved hunmoved, Nat.le_trans h.last hreaches.log.1,
      hkept mark hle h.current⟩
  · exact ⟨upTo, hends.serves, hstands, Nat.le_trans hlast hreaches.log.1, hcurrent⟩

/-- A resync whose slot still covers what comes after the last transaction. -/
theorem Serves.resync_ends (h : Serves plan index slotName wiring docs job s)
    (htimely : s.Timely wiring index slotName)
    (hkept : ∀ name, job.slot = some name → ∃ slot, s.1.database.slots.get? name = some slot)
    (horderly : plan.Orderly kindOf s'.1.database) (hplain : wiring.Plain) (happart : Document.Apart docs)
    {opened : String × Nat} (hreads : Runs Site.Others wiring beginResync job s (.ok opened) job₁ s₁)
    (hdocs : ∀ d ∈ job₁.derived s₁.1.database, docs d)
    (hwrites : Runs (Site.Outages wiring.sink) wiring (finishResync pages opened) job₁ s₁ result job' s') :
    s.1.database.lastTxid ≤ opened.2 ∧ opened.2 ≤ s₁.1.database.lastTxid ∧
      Ends kindOf plan index slotName wiring docs opened.2 s₁ result job' s' := by
  obtain ⟨name, txmax⟩ := opened
  have hopening := (opens_beginResync.holds (.refl job h.fed) hreads).1
  have hname := h.getD_slot
  obtain ⟨rfl, hlow, hhigh, hslot⟩ := beginResync_runs h.fed hkept (hname ▸ htimely.slot) hreads
  rw [hname] at hwrites hslot
  obtain ⟨before, hbefore, hmark⟩ := htimely.marked
  have hbehind : s₁.Behind wiring index slotName txmax :=
    ⟨⟨before, (hopening.site.marks.mark _ _).trans hbefore, Nat.le_trans hmark hlow⟩, hslot⟩
  exact ⟨hlow, hhigh, (h.opening hopening).finishResync_ends horderly hplain happart hdocs hbehind hhigh
    hwrites⟩

/-- After a resync the job goes on. -/
theorem Pursues.resync (h : Pursues kindOf plan index slotName wiring docs mark job s)
    (horderly : plan.Orderly kindOf s'.1.database) (hplain : wiring.Plain) (happart : Document.Apart docs)
    {opened : String × Nat} (hreads : Runs Site.Others wiring beginResync job s (.ok opened) job₁ s₁)
    (hdocs : ∀ d ∈ job₁.derived s₁.1.database, docs d)
    (hwrites : Runs (Site.Outages wiring.sink) wiring (finishResync pages opened) job₁ s₁ result job' s') :
    ∃ mark', Pursues kindOf plan index slotName wiring docs mark' job' s' := by
  have hreaches := Program.Runs.reaches (hwrites.mono fun h => h.others)
  have hopening := (opens_beginResync.holds (.refl job h.fed) hreads).1
  have hopened := h.opening hopening
    (horderly.earlier (h.reached.trans hopening.site.reaches) hreaches)
  obtain ⟨found, hfound, -⟩ := h.stands.slot
  obtain ⟨hlow, hhigh, hends⟩ := h.toServes.resync_ends (h.stands.timely h.last)
    (fun name hname => ⟨found, h.slot name hname ▸ hfound⟩) horderly hplain happart hreads hdocs hwrites
  exact hopened.ends hends (Nat.le_trans h.last hlow) hhigh hreaches

/-- The writing part of a receive cycle keeps the window in what it returns. -/
theorem Serves.applyReading_window (h : Serves plan index slotName wiring docs job s)
    (horderly : plan.Orderly kindOf s.1.database) (hplain : wiring.Plain) {reading : Reading}
    (hlogged : ∀ r ∈ reading.records, r ∈ s.1.database.log) {stats : CycleStats}
    (hruns : Runs (Site.Outages wiring.sink) wiring (applyReading pages reading) job s (.ok stats) job'
      s') : stats.window = some reading.window := by
  obtain rfl := h.plan_eq
  obtain ⟨column, hlegible⟩ := exists_legible horderly hplain h.pending
  have hallows : Allows (fun _ _ => True) job s.1.database :=
    ⟨fun _ _ _ _ => trivial, fun _ _ => trivial⟩
  refine (applyReading_keeps hlegible hallows
    ⟨rfl, h.ready.index, h.ready.rejected, .refl s, fun _ => trivial⟩ h.fed.quiet (fun r hr htable => ?_)
    hruns).1
  have hkeys := horderly.hasAll_key_of_mem_log (.root _) (hlogged r hr) htable
  simp only [hlegible.key] at hkeys
  have hhas {key : Row} (hkey : key ∈ r.key :: r.oldKey.toList) :
      (kindOf job.plan.node.table).Admits (key.value column) :=
    fun _ => (List.forall₂_cons.mp (hkeys key hkey)).1
  exact ⟨hhas List.mem_cons_self, fun old hold => hhas (List.mem_cons_of_mem _ (by simp [hold]))⟩

/-- After a receive cycle the job goes on.  One that succeeds returns its window, which has the last
transaction before the cycle, and the job goes on from the end of it. -/
theorem Pursues.receive (h : Pursues kindOf plan index slotName wiring docs mark job s)
    (horderly : plan.Orderly kindOf s'.1.database) (hplain : wiring.Plain) (hfaithful : wiring.Faithful)
    (happart : Document.Apart docs) (halone : plan.RootAlone) {reading : Reading}
    (hreads : Runs Site.Others wiring (readChanges pages) job s (.ok reading) job₁ s₁)
    (hdocs : ∀ d ∈ job₁.derived s₁.1.database, docs d)
    (hwrites : Runs (Site.Outages wiring.sink) wiring (applyReading pages reading) job₁ s₁ result job' s') :
    (∃ mark', Pursues kindOf plan index slotName wiring docs mark' job' s') ∧
      ∀ stats, result = .ok stats → stats.window = some reading.window ∧
        s.1.database.lastTxid ≤ reading.window.txmax ∧
        Pursues kindOf plan index slotName wiring docs reading.window.txmax job' s' := by
  have hreaches := Program.Runs.reaches (hwrites.mono fun h => h.others)
  have hopening := ((opens_readChanges pages).holds (.refl job h.fed) hreads).1
  have horderly₁ := horderly.earlier (h.reached.trans hopening.site.reaches) hreaches
  have hopened := h.opening hopening horderly₁
  obtain ⟨slot, hslot, hreleased⟩ := h.stands.slot
  have htells := readChanges_tells hfaithful h.reached h.fed (h.index_eq ▸ h.stands.marked) h.last
    (h.getD_slot ▸ hslot) hreleased hreads
  have htold := htells.told plan
  have hends := hopened.applyReading_ends horderly hplain happart hdocs halone
    (htells.slot.trans h.getD_slot) htells.txmin htells.mark_le htells.txmax.2 htold hwrites
  refine ⟨hopened.ends hends htells.mark_le htells.txmax.2 hreaches, ?_⟩
  rintro stats rfl
  exact ⟨hopened.applyReading_window horderly₁ hplain htold.logged hwrites, htells.txmax.1,
    hends.pursues_of_ok (Nat.le_trans htells.txmax.2 hreaches.log.1)⟩

end Job

end DocSync
