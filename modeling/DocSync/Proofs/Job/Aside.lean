import DocSync.Proofs.Job.Reading
import DocSync.Proofs.Simulation.Rest

/-!
What a cycle does beside its fetches and its writes, while its sink and only its sink may be out: it
opens a slot, reads the checkpoint, the last transaction and what is pending, and at the end saves,
releases and acknowledges.  Meanwhile the database rests, and the sink holds the same.
-/

namespace DocSync

/-- The calls that neither run a statement of the session nor write to the sink. -/
def Call.IsAside (call : Call) : Prop := call.IsRestful ∧ ¬ call.Writes

namespace Job

open Working

variable {wiring : Wiring} {job job' : Job} {s s' : Site}

/-- What goes on beside the fetches and the writes of a job: the database rests, the sink holds the
same, and of the job only the slot and the phase change. -/
structure Aside (wiring : Wiring) (job job' : Job) (s s' : Site) : Prop where
  job : ∃ slot phase, job' = { job with slot := slot, phase := phase }
  rests : s.Rests wiring s'
  sink : (s.1.sink wiring.sink).Alike (s'.1.sink wiring.sink)

namespace Aside

variable {job₁ job₂ job₃ : Job} {s₁ s₂ s₃ : Site}

theorem refl (job : Job) (s : Site) : Aside wiring job job s s :=
  ⟨⟨_, _, rfl⟩, .refl s, .refl _⟩

theorem trans (h : Aside wiring job₁ job₂ s₁ s₂) (h' : Aside wiring job₂ job₃ s₂ s₃) :
    Aside wiring job₁ job₃ s₁ s₃ := by
  obtain ⟨slot, phase, rfl⟩ := h.job
  obtain ⟨slot', phase', rfl⟩ := h'.job
  exact ⟨⟨slot', phase', rfl⟩, h.rests.trans h'.rests, h.sink.trans h'.sink⟩

theorem enter (job : Job) (s : Site) (phase : Phase) :
    Aside wiring job { job with phase := phase } s s :=
  ⟨⟨_, _, rfl⟩, .refl s, .refl _⟩

theorem of_runs {α : Type} {p : Routine α} {value : α} (hasks : p.Asks Call.IsAside)
    (hwrites : (s.1.buffer wiring.buffer).writes = [])
    (h : Routine.Runs (Site.Outages wiring.sink) wiring p s value s') (job : Job) :
    Aside wiring job job s s' :=
  ⟨⟨_, _, rfl⟩, h.rests (hasks.mono fun _ h => h.1) hwrites,
    h.sink_alike (Site.outages_spares _) (hasks.mono fun _ h => h.2)⟩

theorem plan (h : Aside wiring job job' s s') : job'.plan = job.plan := by
  obtain ⟨slot, phase, rfl⟩ := h.job
  rfl

theorem options (h : Aside wiring job job' s s') : job'.options = job.options := by
  obtain ⟨slot, phase, rfl⟩ := h.job
  rfl

theorem writes (h : Aside wiring job job' s s') (hwrites : (s.1.buffer wiring.buffer).writes = []) :
    (s'.1.buffer wiring.buffer).writes = [] :=
  h.rests.writes.trans hwrites

end Aside

/-! ### The calls of single steps -/

section

variable {allowed : Call → Prop}

theorem openSlot_asks (h : ∀ name, allowed (.source (.openSlot name))) :
    Stateful.Asks allowed openSlot := by
  refine Stateful.asks_get.bind fun job => ?_
  split
  · exact Stateful.asks_pure _
  · have hopen : (Source.openSlot job.options.slotName).Asks allowed := ⟨h _, fun _ => trivial⟩
    refine (asks_orFatal (Attempt.asks_mapError hopen)).bind fun slot => ?_
    exact (Stateful.asks_set _).bind fun _ => Stateful.asks_pure _

theorem checkpoint_asks (h : ∀ index, allowed (.store (.load index))) :
    Stateful.Asks allowed checkpoint :=
  Stateful.asks_get.bind fun _ => asks_orFatal ⟨h _, fun _ => trivial⟩

theorem currentTxmax_asks (h : allowed (.session .transactionId)) :
    Stateful.Asks allowed currentTxmax :=
  asks_transported (Attempt.asks_mapError ⟨h, fun _ => trivial⟩)

theorem drain_asks (h : allowed (.buffer .drain)) : Stateful.Asks allowed drain :=
  asks_transported ⟨h, fun _ => trivial⟩

theorem pullPages_asks {slot : String} {window : TxWindow} {most : Nat}
    (h : ∀ offset, allowed (.source (.pull slot window most offset))) (pages offset : Nat) :
    (pullPages slot window most pages offset).Asks allowed := by
  induction pages generalizing offset with
  | zero => trivial
  | succ pages ih =>
    have hpull : (Source.pull slot window most offset).Asks allowed := ⟨h _, fun _ => trivial⟩
    refine (Attempt.asks_mapError hpull).bind fun page => ?_
    split
    · exact Attempt.asks_pure _
    · exact (ih _).bind fun _ => Attempt.asks_pure _

theorem pullWindow_asks (h : ∀ slot window most offset, allowed (.source (.pull slot window most offset)))
    (pages : Nat) (slot : String) (window : TxWindow) :
    Stateful.Asks allowed (pullWindow pages slot window) :=
  Stateful.asks_get.bind fun _ => asks_transported (pullPages_asks (h _ _ _) _ _)

theorem persist_asks (hsave : ∀ index txid, allowed (.store (.save index txid)))
    (hreclaim : ∀ slot txid, allowed (.source (.reclaim slot txid))) (slot : String) (txmax : Nat) :
    Stateful.Asks allowed (persist slot txmax) := by
  refine Stateful.asks_get.bind fun job => ?_
  have hsaves : (Checkpoints.save job.options.index txmax).Asks allowed :=
    ⟨hsave _ _, fun _ => trivial⟩
  refine (asks_orFatal (Attempt.asks_mapError hsaves)).bind fun _ => ?_
  exact asks_transported (Attempt.asks_mapError ⟨hreclaim _ _, fun _ => trivial⟩)

theorem ack_asks (h : allowed (.buffer .ack)) : Stateful.Asks allowed ack :=
  asks_transported ⟨h, fun _ => trivial⟩

theorem readChanges_asks (hopen : ∀ name, allowed (.source (.openSlot name)))
    (hload : ∀ index, allowed (.store (.load index))) (htxid : allowed (.session .transactionId))
    (hdrain : allowed (.buffer .drain))
    (hpull : ∀ slot window most offset, allowed (.source (.pull slot window most offset)))
    (pages : Nat) : Stateful.Asks allowed (readChanges pages) := by
  refine (openSlot_asks hopen).bind fun slot => (checkpoint_asks hload).bind fun before => ?_
  refine (currentTxmax_asks htxid).bind fun txmax => (asks_enter _).bind fun _ => ?_
  refine (drain_asks hdrain).bind fun buffered => ?_
  split
  · exact Stateful.asks_pure _
  refine (asks_enter _).bind fun _ => ?_
  dsimp only
  split
  · exact (Stateful.asks_pure _).bind fun _ => Stateful.asks_pure _
  · exact (pullWindow_asks hpull _ _ _).bind fun _ => Stateful.asks_pure _

end

/-! ### Steps on the side -/

/-- Of a job that opens its slot, only the slot and the phase change. -/
theorem openSlot_same {others : Site → Site → Prop} {result : Except SyncError String}
    (h : Stateful.Runs others wiring openSlot job s result job' s') :
    ∃ slot phase, job' = { job with slot := slot, phase := phase } := by
  rw [openSlot, Stateful.runs_get_bind] at h
  split at h
  · obtain ⟨-, rfl, rfl⟩ := Stateful.runs_pure.mp h
    exact ⟨_, _, rfl⟩
  rcases Stateful.runs_bind.mp h with ⟨slot, job₁, s₁, hopen, hrest⟩ | ⟨e, hopen, -⟩
  · obtain ⟨-, rfl⟩ := runs_orFatal_ok.mp hopen
    rw [Stateful.runs_set_bind] at hrest
    obtain ⟨-, rfl, rfl⟩ := Stateful.runs_pure.mp hrest
    exact ⟨_, _, rfl⟩
  · obtain ⟨-, rfl⟩ := runs_orFatal.mp hopen
    exact ⟨_, _, rfl⟩

theorem openSlot_aside (hwrites : (s.1.buffer wiring.buffer).writes = [])
    {result : Except SyncError String}
    (h : Stateful.Runs (Site.Outages wiring.sink) wiring openSlot job s result job' s') :
    Aside wiring job job' s s' := by
  have haside := Aside.of_runs (openSlot_asks (fun _ => ⟨trivial, id⟩) job) hwrites h job
  exact ⟨openSlot_same h, haside.rests, haside.sink⟩

theorem checkpoint_aside (hwrites : (s.1.buffer wiring.buffer).writes = [])
    {result : Except SyncError (Option Nat)}
    (h : Stateful.Runs (Site.Outages wiring.sink) wiring checkpoint job s result job' s') :
    Aside wiring job job' s s' := by
  have haside := Aside.of_runs (checkpoint_asks (fun _ => ⟨trivial, id⟩) job) hwrites h job
  obtain ⟨-, rfl⟩ := runs_orFatal.mp ((Stateful.runs_get_bind).mp h)
  exact haside

theorem drain_aside (hwrites : (s.1.buffer wiring.buffer).writes = [])
    {result : Except SyncError (List ChangeRecord)}
    (h : Stateful.Runs (Site.Outages wiring.sink) wiring drain job s result job' s') :
    Aside wiring job job' s s' := by
  have haside := Aside.of_runs (drain_asks ⟨trivial, id⟩ job) hwrites h job
  obtain ⟨-, rfl⟩ := runs_transported.mp h
  exact haside

theorem persist_aside (hwrites : (s.1.buffer wiring.buffer).writes = []) {slot : String}
    {txmax : Nat} {result : Except SyncError Unit}
    (h : Stateful.Runs (Site.Outages wiring.sink) wiring (persist slot txmax) job s result job' s') :
    Aside wiring job job' s s' := by
  have haside := Aside.of_runs
    (persist_asks (fun _ _ => ⟨trivial, id⟩) (fun _ _ => ⟨trivial, id⟩) slot txmax job) hwrites h job
  refine ⟨?_, haside.rests, haside.sink⟩
  rw [persist, Stateful.runs_get_bind] at h
  rcases Stateful.runs_bind.mp h with ⟨saved, job₁, s₁, hsaves, hrest⟩ | ⟨e, hsaves, -⟩
  · obtain ⟨-, rfl⟩ := runs_orFatal_ok.mp hsaves
    obtain ⟨-, rfl⟩ := runs_transported.mp hrest
    exact ⟨_, _, rfl⟩
  · obtain ⟨-, rfl⟩ := runs_orFatal.mp hsaves
    exact ⟨_, _, rfl⟩

theorem ack_aside (hwrites : (s.1.buffer wiring.buffer).writes = []) {result : Except SyncError Unit}
    (h : Stateful.Runs (Site.Outages wiring.sink) wiring ack job s result job' s') :
    Aside wiring job job' s s' := by
  have haside := Aside.of_runs (ack_asks ⟨trivial, id⟩ job) hwrites h job
  obtain ⟨-, rfl⟩ := runs_transported.mp h
  exact haside

/-- The transaction id that a cycle reads while the database rests is the last one. -/
theorem currentTxmax_eq (hwrites : (s.1.buffer wiring.buffer).writes = []) {txmax : Nat}
    (h : Stateful.Runs (Site.Outages wiring.sink) wiring currentTxmax job s (.ok txmax) job' s') :
    txmax = s.1.database.lastTxid ∧ Aside wiring job job' s s' := by
  have haside := Aside.of_runs (currentTxmax_asks ⟨trivial, id⟩ job) hwrites h job
  obtain ⟨htxmax, rfl⟩ := runs_transported_ok.mp h
  obtain ⟨s₁, hothers, hanswer, -⟩ :=
    Program.runs_request.mp (Attempt.runs_mapError_ok.mp htxmax)
  refine ⟨?_, haside⟩
  rw [World.answer_transactionId hanswer.symm, hothers.alike.database]

/-! ### What a receive cycle reads -/

theorem pullWindow_aside (hwrites : (s.1.buffer wiring.buffer).writes = []) {pages : Nat}
    {slot : String} {window : TxWindow} {result : Except SyncError (List ChangeRecord)}
    (h : Stateful.Runs (Site.Outages wiring.sink) wiring (pullWindow pages slot window) job s result
      job' s') : Aside wiring job job' s s' := by
  have hasks : Stateful.Asks Call.IsAside (pullWindow pages slot window) :=
    pullWindow_asks (fun _ _ _ _ => ⟨trivial, id⟩) _ _ _
  have haside := Aside.of_runs (hasks job) hwrites h job
  obtain ⟨-, rfl⟩ := runs_transported.mp ((Stateful.runs_get_bind).mp h)
  exact haside

/-- What a receive cycle reads amid outages: the transactions between the checkpoint and the last one,
and what a drain hands out. -/
structure ReadsAside (wiring : Wiring) (job : Job) (s : Site) (reading : Reading) : Prop where
  window : ∃ before, s.1.mark wiring.store job.options.index = .ok before ∧
    reading.window = ⟨before.getD 0, max s.1.database.lastTxid (before.getD 0)⟩
  buffered : reading.buffered = (s.1.backlog wiring.buffer).drained
  pulled : reading.window.isEmpty = true → reading.pulled = []

theorem readChanges_aside (hwrites : (s.1.buffer wiring.buffer).writes = []) {pages : Nat}
    {reading : Reading}
    (h : Stateful.Runs (Site.Outages wiring.sink) wiring (readChanges pages) job s (.ok reading)
      job' s') :
    Aside wiring job job' s s' ∧ World.KeepsMarks s.1 s'.1 ∧ ReadsAside wiring job s reading := by
  obtain ⟨before, txmax, job₁, s₁, job₂, s₂, job₃, s₃, job₄, s₄, hopen, hload, htxid, hdrain, hwindow,
    hends⟩ := readChanges_steps h
  have hopened := openSlot_aside hwrites hopen
  obtain ⟨-, -, hmarks, hoptions, -⟩ := openSlot_runs (hopen.mono fun h => h.others)
  have hchecked := checkpoint_aside (hopened.writes hwrites) hload
  have hloaded := hopened.trans hchecked
  obtain ⟨hbefore, hs₂, rfl⟩ := checkpoint_runs (hload.mono fun h => h.others)
  rw [hmarks.mark, hoptions] at hbefore
  obtain ⟨rfl, hread⟩ := currentTxmax_eq (hloaded.writes hwrites) htxid
  obtain ⟨-, hs₃, rfl⟩ := currentTxmax_runs (htxid.mono fun h => h.others)
  have hbegun := (hloaded.trans hread).trans (.enter job₃ s₃ .windowOpen)
  have hemptied := drain_aside (hbegun.writes hwrites) hdrain
  have hdrained := hbegun.trans hemptied
  obtain ⟨hs₄, rfl⟩ := drain_runs (hdrain.mono fun h => h.others)
  -- nothing was put into the buffer before the drain
  have hbacklog : s₄.1.backlog wiring.buffer = s.1.backlog wiring.buffer := by
    have hkept {α : Type} {a : Working α} {result : Except SyncError α} {job job' : Job} {s s' : Site}
        (hasks : Stateful.Asks (fun call => call ≠ .buffer .ack) a)
        (h : Stateful.Runs (Site.Outages wiring.sink) wiring a job s result job' s')
        (haside : Aside wiring job job' s s') :
        s'.1.backlog wiring.buffer = s.1.backlog wiring.buffer :=
      Program.Runs.backlog_eq (hasks job) (h.mono fun h => h.others) haside.rests.log _
    calc s₄.1.backlog wiring.buffer
      _ = s₃.1.backlog wiring.buffer := hkept (drain_asks (by simp)) hdrain hemptied
      _ = s₂.1.backlog wiring.buffer := hkept (currentTxmax_asks (by simp)) htxid hread
      _ = s₁.1.backlog wiring.buffer := hkept (checkpoint_asks (by simp)) hload hchecked
      _ = s.1.backlog wiring.buffer := hkept (openSlot_asks (by simp)) hopen hopened
  have hbuffered : reading.buffered = (s₄.1.backlog wiring.buffer).drained := by
    obtain ⟨hruns, -⟩ := runs_transported_ok.mp hdrain
    obtain ⟨s₅, -, hanswer, hs⟩ := Program.runs_request.mp hruns
    have hdrained :=
      (World.gathers_drain wiring.buffer s₅.1 wiring.buffer).2 reading.buffered hanswer.symm
    rw [hs]
    exact hdrained
  rw [hbacklog] at hbuffered
  have hmarks' : World.KeepsMarks s.1 s₄.1 := hmarks.trans ((hs₂.trans hs₃).trans hs₄).marks
  have hspan : ∃ before, s.1.mark wiring.store job.options.index = .ok before ∧
      reading.window = ⟨before.getD 0, max s.1.database.lastTxid (before.getD 0)⟩ := by
    refine ⟨before, hbefore, ?_⟩
    rw [hwindow, hloaded.rests.lastTxid]
  rcases hends with ⟨-, hpulled, rfl, phase, rfl⟩ | ⟨hnonempty, hpull⟩
  · exact ⟨hdrained.trans (.enter _ _ phase), hmarks', hspan, hbuffered, fun _ => hpulled⟩
  · have hentered := hdrained.trans (.enter _ s₄ .applying)
    have hpulled := hentered.trans (pullWindow_aside (hentered.writes hwrites) hpull)
    have hquiet : Stateful.Asks Call.IsQuiet (pullWindow pages reading.slot reading.window) :=
      pullWindow_asks (fun _ _ _ _ => trivial) _ _ _
    have hs₅ := World.advances_of_runs (hquiet _) (hpull.mono fun h => h.others)
    refine ⟨hpulled, hmarks'.trans hs₅.marks, hspan, hbuffered, fun hempty => ?_⟩
    rw [hnonempty] at hempty
    contradiction

/-- Every record that a receive cycle reads was in the buffer, or is in the log past the checkpoint. -/
theorem mem_reading_records (hfaithful : wiring.Faithful)
    (hwrites : (s.1.buffer wiring.buffer).writes = []) {pages : Nat} {reading : Reading}
    (h : Stateful.Runs (Site.Outages wiring.sink) wiring (readChanges pages) job s (.ok reading)
      job' s') {r : ChangeRecord} (hr : r ∈ reading.records) :
    r ∈ (s.1.backlog wiring.buffer).drained ∨
      ∃ before, s.1.mark wiring.store job.options.index = .ok before ∧
        r ∈ s.1.database.log ∧ before.getD 0 < r.txid := by
  obtain ⟨haside, -, hreads⟩ := readChanges_aside hwrites h
  obtain ⟨hhas, -, -⟩ := readChanges_runs hfaithful (h.mono fun h => h.others)
  rcases List.mem_append.mp hr with hpulled | hbuffered
  · right
    by_cases hempty : reading.window.isEmpty = true
    · rw [hreads.pulled hempty] at hpulled
      exact absurd hpulled List.not_mem_nil
    obtain ⟨-, slot, -, hslot⟩ := hhas.pulled (by simpa using hempty)
    obtain ⟨before, hbefore, hwindow⟩ := hreads.window
    rw [hslot, haside.rests.log] at hpulled
    obtain ⟨hretained, hin⟩ := List.mem_filter.mp hpulled
    rw [hwindow] at hin
    have hafter : before.getD 0 < r.txid := (by simpa [TxWindow.contains] using hin : _ ∧ _).1
    exact ⟨before, hbefore, (List.mem_filter.mp hretained).1, hafter⟩
  · rw [hreads.buffered] at hbuffered
    exact .inl hbuffered

end Job

end DocSync
