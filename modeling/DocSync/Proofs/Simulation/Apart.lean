import DocSync.Proofs.Job.Own
import DocSync.Proofs.Simulation.Buffers
import DocSync.Proofs.Simulation.Scopes
import DocSync.Proofs.Simulation.Views

/-!
Jobs side by side.  Main statements: a call that is a job's own leaves the world the same for every job
with another index, slot and buffer; and worlds that are the same for a job answer its own calls alike and
stay the same for it.
-/

namespace DocSync

namespace World

/-- Worlds that are the same for a job. -/
structure SameFor (opts : SyncOptions) (wiring : Wiring) (w w' : World) : Prop where
  database : Database.SameFor opts.slotName w.database w'.database
  sink : MemorySink.SameFor opts.index (w.sink wiring.sink) (w'.sink wiring.sink)
  store : SameStore wiring.store opts.index w w'
  buffer : SameBuffer wiring.buffer w w'
  feeds : w'.feeds = w.feeds

/-- Nothing is made to fail, and a drain causes no writes. -/
structure Calm (wiring : Wiring) (w : World) : Prop where
  faults : ∀ point, w.faults.count point = 0
  failures : (w.sink wiring.sink).failures = 0
  writes : (w.buffer wiring.buffer).writes = []

/-- Two jobs with a sink and a store in common, but neither index nor slot nor buffer. -/
structure Apart (w : World) (opts : SyncOptions) (wiring : Wiring) (opts' : SyncOptions) (wiring' : Wiring) :
    Prop where
  sink : wiring'.sink = wiring.sink
  store : wiring'.store = wiring.store
  index : opts.index ≠ opts'.index
  slot : opts.slotName ≠ opts'.slotName
  buffer : wiring.buffer ≠ wiring'.buffer
  place : ∀ place, (w.buffer wiring.buffer).store.place = some place →
    (w.buffer wiring'.buffer).store.place ≠ some place

variable {opts opts' : SyncOptions} {wiring wiring' : Wiring} {w w' w₁ w₂ w₃ : World}

theorem SameFor.refl (opts : SyncOptions) (wiring : Wiring) (w : World) : SameFor opts wiring w w :=
  ⟨.refl _ _, .refl _ _, .refl _ _ _, .refl _ _, rfl⟩

theorem SameFor.symm (h : SameFor opts wiring w w') : SameFor opts wiring w' w :=
  ⟨h.database.symm, h.sink.symm, h.store.symm, h.buffer.symm, h.feeds.symm⟩

theorem SameFor.trans (h : SameFor opts wiring w₁ w₂) (h' : SameFor opts wiring w₂ w₃) :
    SameFor opts wiring w₁ w₃ :=
  ⟨h.database.trans h'.database, h.sink.trans h'.sink, h.store.trans h'.store, h.buffer.trans h'.buffer,
    h'.feeds.trans h.feeds⟩

theorem sameFor_faults (opts : SyncOptions) (wiring : Wiring) (w : World) (faults : Faults) :
    SameFor opts wiring w { w with faults := faults } :=
  ⟨.refl _ _, .refl _ _, ⟨rfl, rfl, rfl, rfl⟩, sameBuffer_faults _ _ _, rfl⟩

/-! ### Scopes -/

/-- Frames of a session with `depth` scopes above those it had, which wait for nothing. -/
abbrev above (base : Frames) (depth : Nat) : Frames := base ++ List.replicate depth []

theorem above_succ (base : Frames) (depth : Nat) : above base (depth + 1) = above base depth ++ [[]] := by
  rw [above, List.replicate_succ', ← List.append_assoc]

theorem commitScope_above (w : World) (base : Frames) (depth : Nat) :
    commitScope (w, above base (depth + 1)) = (.ok (), (w, above base depth)) := by
  have hcommit : Frames.commit (above base (depth + 1)) w.database =
      (.ok ([], w.database), above base depth) := by
    rw [above_succ]
    simp only [Frames.commit, List.getLast?_concat, List.dropLast_concat]
    split
    · rfl
    · rfl
  simp only [commitScope, hcommit]
  rfl

theorem rollbackScope_above (w : World) (base : Frames) (depth : Nat) :
    rollbackScope (w, above base (depth + 1)) = (.ok (), (w, above base depth)) := by
  rw [above_succ]
  simp [rollbackScope, Frames.rollback]

theorem execute_select (s : Site) (select : Select) :
    execute s (.select select) =
      ((s.1.database.select select s.2.pending).mapError DatabaseError.toFailure, s) := by
  have hexecute : s.2.execute s.1.database (.select select) =
      (s.1.database.select select s.2.pending).map fun rows => ⟨rows, [], s.2, s.1.database⟩ := by
    cases hrows : s.1.database.select select s.2.pending <;>
      simp [Frames.execute, hrows, Except.map, bind, Except.bind, pure, Except.pure]
  simp only [execute, hexecute]
  cases s.1.database.select select s.2.pending <;> rfl

/-- However the filters of a select are read, it stays a select. -/
theorem reads_select (wiring : Wiring) (select : Select) :
    ∃ read, (if wiring.casting then castFilter (.select select) else .select select) = .select read := by
  have hcast : ∃ read, castFilter (.select select) = .select read := by
    simp only [castFilter]
    cases select.filter <;> exact ⟨_, rfl⟩
  split
  · exact hcast
  · exact ⟨select, rfl⟩

/-- A call that may be made to fail, and is not where nothing is armed. -/
theorem strike_cases (point : FaultPoint) (w : World) :
    (∃ failure faults, w.strike point = (some failure, { w with faults := faults }) ∧
      w.faults.count point ≠ 0) ∨ w.strike point = (none, w) := by
  unfold strike Faults.strike
  cases hcount : w.faults.count point with
  | zero => exact .inr rfl
  | succ n => exact .inl ⟨_, _, rfl, nofun⟩

theorem struck_cases (enabled : Bool) (point : FaultPoint) (w : World) :
    (∃ failure faults, (if enabled then w.strike point else (none, w)) =
      (some failure, { w with faults := faults }) ∧ w.faults.count point ≠ 0) ∨
    (if enabled then w.strike point else (none, w)) = (none, w) := by
  split
  · exact strike_cases point w
  · exact .inr rfl

theorem strikeIf_cases (enabled : Bool) (point : FaultPoint) (w : World) (frames : Frames) :
    (∃ failure faults, strikeIf enabled point (w, frames) =
      (some failure, ({ w with faults := faults }, frames)) ∧ w.faults.count point ≠ 0) ∨
    strikeIf enabled point (w, frames) = (none, (w, frames)) := by
  have hstrike : strikeIf enabled point (w, frames) =
      ((if enabled then w.strike point else (none, w)).1,
        ((if enabled then w.strike point else (none, w)).2, frames)) := by
    unfold strikeIf
    split <;> rfl
  rw [hstrike]
  rcases struck_cases enabled point w with ⟨failure, faults, hstruck, harmed⟩ | hstruck
  · exact .inl ⟨failure, faults, by rw [hstruck], harmed⟩
  · exact .inr (by rw [hstruck])

variable {depth : Nat}

/-- A session's own call changes the scopes that are open, and else at most what is armed. -/
theorem answerSession_own (wiring : Wiring) {call : SessionCall} (hown : (Call.session call).IsOwn opts depth)
    (w : World) (base : Frames) :
    ∃ a faults depth', answerSession wiring call (w, above base depth) =
        (a, ({ w with faults := faults }, above base depth')) ∧
      Own.next opts depth (.session call) a = some depth' ∧
      ((∀ point, w.faults.count point = 0) → faults = w.faults) := by
  cases call with
  | execute query =>
    cases query with
    | select select =>
      obtain ⟨read, hread⟩ := reads_select wiring select
      simp only [answerSession, hread]
      rcases strikeIf_cases wiring.failing .execute w (above base depth) with
        ⟨failure, faults, hstruck, harmed⟩ | hstruck
      · rw [hstruck]
        exact ⟨_, faults, depth, rfl, rfl, fun hcalm => absurd (hcalm _) harmed⟩
      · rw [hstruck]
        exact ⟨_, w.faults, depth, execute_select _ read, rfl, fun _ => rfl⟩
    | _ => exact hown.elim
  | transactionId =>
    simp only [answerSession]
    rcases strikeIf_cases wiring.failing .transactionId w (above base depth) with
      ⟨failure, faults, hstruck, harmed⟩ | hstruck
    · rw [hstruck]
      exact ⟨_, faults, depth, rfl, rfl, fun hcalm => absurd (hcalm _) harmed⟩
    · rw [hstruck]
      exact ⟨_, w.faults, depth, rfl, rfl, fun _ => rfl⟩
  | begin =>
    simp only [answerSession]
    rcases strikeIf_cases wiring.failing .begin w (above base depth) with
      ⟨failure, faults, hstruck, harmed⟩ | hstruck
    · rw [hstruck]
      exact ⟨_, faults, depth, rfl, rfl, fun hcalm => absurd (hcalm _) harmed⟩
    · have hbegun : (above base depth).begin = above base (depth + 1) := (above_succ base depth).symm
      rw [hstruck]
      refine ⟨Except.ok (), w.faults, depth + 1, ?_, rfl, fun _ => rfl⟩
      rw [← hbegun]
  | commit =>
    obtain ⟨n, rfl⟩ := Nat.exists_eq_succ_of_ne_zero (Nat.pos_iff_ne_zero.mp hown)
    exact ⟨_, w.faults, n, commitScope_above w base n, rfl, fun _ => rfl⟩
  | rollback =>
    obtain ⟨n, rfl⟩ := Nat.exists_eq_succ_of_ne_zero (Nat.pos_iff_ne_zero.mp hown)
    exact ⟨_, w.faults, n, rollbackScope_above w base n, rfl, fun _ => rfl⟩
  | enter => exact ⟨_, w.faults, depth, rfl, rfl, fun _ => rfl⟩
  | leave => exact ⟨_, w.faults, depth, rfl, rfl, fun _ => rfl⟩

/-- A job's own call leaves as many scopes open as it should. -/
theorem answer_depth (wiring : Wiring) {call : Call} (hown : call.IsOwn opts depth) (w : World)
    (base : Frames) :
    ∃ depth', Own.next opts depth call (answer wiring call (w, above base depth)).1 = some depth' ∧
      (answer wiring call (w, above base depth)).2.2 = above base depth' := by
  cases call with
  | session call =>
    obtain ⟨a, faults, depth', hanswer, hnext, -⟩ := answerSession_own wiring hown w base
    have hanswer : answer wiring (.session call) (w, above base depth) = _ := hanswer
    rw [hanswer]
    exact ⟨depth', hnext, rfl⟩
  | source call =>
    cases call with
    | openSlot name =>
      refine ⟨depth, ?_, rfl⟩
      show Own.next opts depth (.source (.openSlot name)) (answerSource wiring (.openSlot name) w).1 = _
      simp only [answerSource]
      split
      · rfl
      · exact if_pos hown
    | pull => exact ⟨depth, rfl, rfl⟩
    | reclaim => exact ⟨depth, rfl, rfl⟩
  | buffer => exact ⟨depth, rfl, rfl⟩
  | sink => exact ⟨depth, rfl, rfl⟩
  | store => exact ⟨depth, rfl, rfl⟩
  | clock => exact ⟨depth, rfl, rfl⟩

/-! ### One job next to another -/

theorem sameFor_database {db : Database} (h : Database.SameFor opts.slotName w.database db) :
    SameFor opts wiring w { w with database := db } :=
  ⟨h, .refl _ _, ⟨rfl, rfl, rfl, rfl⟩, ⟨rfl, fun _ => rfl, fun _ => rfl, fun _ _ _ => rfl⟩, rfl⟩

theorem sameFor_onSink {α : Type} {operation : MemorySink → α × MemorySink}
    (h : MemorySink.SameFor opts.index (w.sink wiring.sink) (operation (w.sink wiring.sink)).2) :
    SameFor opts wiring w (w.onSink wiring.sink operation).2 := by
  refine ⟨.refl _ _, ?_, ⟨rfl, rfl, rfl, rfl⟩, ⟨rfl, fun _ => rfl, fun _ => rfl, fun _ _ _ => rfl⟩, rfl⟩
  rw [sink_onSink_self]
  exact h

theorem sameFor_buffers {faults : Faults} {buffers : Keyed NamedBuffer} {queues : Keyed ChangeQueue}
    (h : SameBuffer wiring.buffer w { w with faults := faults, buffers := buffers, queues := queues }) :
    SameFor opts wiring w { w with faults := faults, buffers := buffers, queues := queues } :=
  ⟨.refl _ _, .refl _ _, ⟨rfl, rfl, rfl, rfl⟩, h, rfl⟩

/-- A drain that causes no writes changes buffers only, and what is armed. -/
theorem drain_eq {name : String} (hwrites : (w.buffer name).writes = []) :
    ∃ faults buffers, (w.drain name).2 = { w with faults := faults, buffers := buffers } ∧
      ((∀ point, w.faults.count point = 0) → faults = w.faults) := by
  rcases strike_cases .drain w with ⟨failure, faults, hstrike, harmed⟩ | hstrike
  · refine ⟨faults, w.buffers, ?_, fun hcalm => absurd (hcalm _) harmed⟩
    simp only [drain, hstrike]
  · have hwrite : w.writeOnDrain name = (.ok (), w) := by simp only [writeOnDrain, hwrites]
    simp only [drain, hstrike, hwrite]
    split <;> exact ⟨w.faults, _, rfl, fun _ => rfl⟩

theorem ack_eq (w : World) (name : String) :
    ∃ faults buffers queues, (w.ack name).2 =
        { w with faults := faults, buffers := buffers, queues := queues } ∧
      ((∀ point, w.faults.count point = 0) → faults = w.faults) := by
  rcases strike_cases .ack w with ⟨failure, faults, hstrike, harmed⟩ | hstrike
  · refine ⟨faults, w.buffers, w.queues, ?_, fun hcalm => absurd (hcalm _) harmed⟩
    simp only [ack, hstrike]
  · simp only [ack, hstrike]
    split <;> exact ⟨w.faults, _, _, rfl, fun _ => rfl⟩

theorem loadMark_eq (w : World) (store index : String) :
    ∃ faults, (w.loadMark store index).2 = { w with faults := faults } ∧
      ((∀ point, w.faults.count point = 0) → faults = w.faults) := by
  rcases strike_cases .load w with ⟨failure, faults, hstrike, harmed⟩ | hstrike
  · refine ⟨faults, ?_, fun hcalm => absurd (hcalm _) harmed⟩
    simp only [loadMark, hstrike]
  · refine ⟨w.faults, ?_, fun _ => rfl⟩
    simp only [loadMark, hstrike]

theorem drain_writes {name : String} (hwrites : (w.buffer name).writes = []) :
    ((w.drain name).2.buffer name).writes = [] := by
  rcases strike_cases .drain w with ⟨failure, faults, hstrike, -⟩ | hstrike
  · simp only [drain, hstrike]
    exact hwrites
  · have hwrite : w.writeOnDrain name = (.ok (), w) := by simp only [writeOnDrain, hwrites]
    simp only [drain, hstrike, hwrite]
    split
    all_goals
      rw [buffer_putBuffer, if_pos rfl]
      exact hwrites

theorem ack_writes {name : String} (hwrites : (w.buffer name).writes = []) :
    ((w.ack name).2.buffer name).writes = [] := by
  rcases strike_cases .ack w with ⟨failure, faults, hstrike, -⟩ | hstrike
  · simp only [ack, hstrike]
    exact hwrites
  · simp only [ack, hstrike]
    split
    all_goals
      rw [buffer_putBuffer, if_pos rfl]
      exact hwrites

/-- A source's answer to a job changes the job's slot, and else at most what is armed. -/
theorem answerSource_own (wiring : Wiring) {call : SourceCall} (hown : (Call.source call).IsOwn opts depth)
    (w : World) :
    ∃ faults db, (answerSource wiring call w).2 = { w with faults := faults, database := db } ∧
      ((∀ point, w.faults.count point = 0) → faults = w.faults) ∧
      ∀ slot, opts.slotName ≠ slot → Database.SameFor slot w.database db := by
  have hsame (slot : String) (_ : opts.slotName ≠ slot) : Database.SameFor slot w.database w.database :=
    .refl slot w.database
  cases call with
  | openSlot name =>
    obtain rfl : name = opts.slotName := hown
    simp only [answerSource]
    rcases struck_cases wiring.failing .openSlot w with ⟨failure, faults, hstruck, harmed⟩ | hstruck
    · rw [hstruck]
      exact ⟨faults, w.database, rfl, fun hcalm => absurd (hcalm _) harmed, hsame⟩
    · rw [hstruck]
      exact ⟨w.faults, _, rfl, fun _ => rfl, fun slot hslot => Database.openSlot_sameFor hslot⟩
  | pull slot window most offset =>
    simp only [answerSource]
    rcases struck_cases wiring.failing .pull w with ⟨failure, faults, hstruck, harmed⟩ | hstruck
    · rw [hstruck]
      exact ⟨faults, w.database, rfl, fun hcalm => absurd (hcalm _) harmed, hsame⟩
    · rw [hstruck]
      dsimp only
      split <;> exact ⟨w.faults, w.database, rfl, fun _ => rfl, hsame⟩
  | reclaim slot upTo =>
    obtain rfl : slot = opts.slotName := hown
    simp only [answerSource]
    rcases struck_cases wiring.failing .reclaim w with ⟨failure, faults, hstruck, harmed⟩ | hstruck
    · rw [hstruck]
      exact ⟨faults, w.database, rfl, fun hcalm => absurd (hcalm _) harmed, hsame⟩
    · rw [hstruck]
      dsimp only
      split
      · rename_i db hreclaim
        exact ⟨w.faults, db, rfl, fun _ => rfl, fun slot hslot => Database.reclaim_sameFor hslot hreclaim⟩
      · exact ⟨w.faults, w.database, rfl, fun _ => rfl, hsame⟩

/-- A job's own call leaves the world the same for every job apart from it. -/
theorem answer_apart {call : Call} (hown : call.IsOwn opts depth) (hapart : Apart w opts wiring opts' wiring')
    (hwrites : (w.buffer wiring.buffer).writes = []) (base : Frames) :
    SameFor opts' wiring' w (answer wiring call (w, above base depth)).2.1 := by
  cases call with
  | session call =>
    obtain ⟨a, faults, depth', hanswer, -, -⟩ := answerSession_own wiring hown w base
    have hanswer : answer wiring (.session call) (w, above base depth) = _ := hanswer
    rw [hanswer]
    exact sameFor_faults _ _ w faults
  | source call =>
    obtain ⟨faults, db, hanswer, -, hdatabase⟩ := answerSource_own wiring hown w
    show SameFor opts' wiring' w (answerSource wiring call w).2
    rw [hanswer]
    exact (sameFor_faults _ _ w faults).trans (sameFor_database (hdatabase _ hapart.slot))
  | buffer call =>
    cases call with
    | drain =>
      show SameFor opts' wiring' w (w.drain wiring.buffer).2
      have hsame := drain_sameBuffer hapart.buffer hwrites
      obtain ⟨faults, buffers, hdrained, -⟩ := drain_eq hwrites
      rw [hdrained] at hsame ⊢
      exact sameFor_buffers hsame
    | ack =>
      show SameFor opts' wiring' w (w.ack wiring.buffer).2
      have hsame := ack_sameBuffer hapart.buffer hapart.place
      obtain ⟨faults, buffers, queues, hacked, -⟩ := ack_eq w wiring.buffer
      rw [hacked] at hsame ⊢
      exact sameFor_buffers hsame
    | wait => exact hown.elim
  | sink call =>
    show SameFor opts' wiring' w (answerSink wiring.sink call w).2
    rw [← hapart.sink]
    cases call with
    | upsert d => exact sameFor_onSink (MemorySink.upsert_sameFor fun heq => hapart.index (hown.symm.trans heq))
    | delete index identity =>
      exact sameFor_onSink (MemorySink.delete_sameFor (fun heq => hapart.index (hown.symm.trans heq)) identity)
    | refresh => exact sameFor_onSink MemorySink.refresh_sameFor
    | findByMeta => exact .refl _ _ w
    | identities => exact .refl _ _ w
  | store call =>
    show SameFor opts' wiring' w (answerStore wiring.store call w).2
    cases call with
    | load index =>
      obtain ⟨faults, hloaded, -⟩ := loadMark_eq w wiring.store index
      show SameFor opts' wiring' w (w.loadMark wiring.store index).2
      rw [hloaded]
      exact sameFor_faults _ _ w faults
    | save index txid =>
      have hstore : SameStore wiring.store opts'.index w (w.saveMark wiring.store index txid).2 :=
        saveMark_sameStore (fun heq => hapart.index (hown.symm.trans heq)) txid
      rw [← hapart.store] at hstore ⊢
      obtain ⟨faults, stores, files, hsaved⟩ := saveMark_eq w wiring'.store index txid
      show SameFor opts' wiring' w (w.saveMark wiring'.store index txid).2
      rw [hsaved] at hstore ⊢
      exact ⟨.refl _ _, .refl _ _, hstore, ⟨rfl, fun _ => rfl, fun _ => rfl, fun _ _ _ => rfl⟩, rfl⟩
  | clock => exact .refl _ _ w

/-- After a job's own call its drains still cause no writes. -/
theorem answer_writes {call : Call} (hown : call.IsOwn opts depth)
    (hwrites : (w.buffer wiring.buffer).writes = []) (base : Frames) :
    ((answer wiring call (w, above base depth)).2.1.buffer wiring.buffer).writes = [] := by
  cases call with
  | session call =>
    obtain ⟨_, _, _, hanswer, -, -⟩ := answerSession_own wiring hown w base
    have hanswer : answer wiring (.session call) (w, above base depth) = _ := hanswer
    rw [hanswer]
    exact hwrites
  | source call =>
    obtain ⟨_, _, hanswer, -, -⟩ := answerSource_own wiring hown w
    show ((answerSource wiring call w).2.buffer wiring.buffer).writes = []
    rw [hanswer]
    exact hwrites
  | buffer call =>
    cases call with
    | drain => exact drain_writes hwrites
    | ack => exact ack_writes hwrites
    | wait => exact hown.elim
  | sink call => cases call <;> exact hwrites
  | store call =>
    cases call with
    | load index =>
      obtain ⟨_, hloaded, -⟩ := loadMark_eq w wiring.store index
      show ((w.loadMark wiring.store index).2.buffer wiring.buffer).writes = []
      rw [hloaded]
      exact hwrites
    | save index txid =>
      obtain ⟨_, _, _, hsaved⟩ := saveMark_eq w wiring.store index txid
      show ((w.saveMark wiring.store index txid).2.buffer wiring.buffer).writes = []
      rw [hsaved]
      exact hwrites
  | clock => exact hwrites

/-! ### Calm -/

theorem Calm.strike (h : Calm wiring w) (point : FaultPoint) : w.strike point = (none, w) := by
  rcases strike_cases point w with ⟨_, _, -, harmed⟩ | hstrike
  · exact absurd (h.faults point) harmed
  · exact hstrike

theorem Calm.struck (h : Calm wiring w) (enabled : Bool) (point : FaultPoint) :
    (if enabled then w.strike point else (none, w)) = (none, w) := by
  split
  · exact h.strike point
  · rfl

theorem Calm.strikeIf (h : Calm wiring w) (enabled : Bool) (point : FaultPoint) (frames : Frames) :
    strikeIf enabled point (w, frames) = (none, (w, frames)) := by
  rcases strikeIf_cases enabled point w frames with ⟨_, _, -, harmed⟩ | hstruck
  · exact absurd (h.faults point) harmed
  · exact hstruck

/-- A world where at most what is found in buffers, files and stores was changed. -/
theorem Calm.of_same (h : Calm wiring w) (hfaults : w'.faults = w.faults) (hsinks : w'.sinks = w.sinks)
    (hwrites : (w'.buffer wiring.buffer).writes = []) : Calm wiring w' := by
  refine ⟨fun point => by rw [hfaults, h.faults], ?_, hwrites⟩
  rw [sink, hsinks]
  exact h.failures

theorem calm_onSink {α : Type} (operation : MemorySink → α × MemorySink) (h : Calm wiring w)
    (hfailures : (operation (w.sink wiring.sink)).2.failures = 0) :
    Calm wiring (w.onSink wiring.sink operation).2 := by
  refine ⟨h.faults, ?_, h.writes⟩
  rw [sink_onSink_self]
  exact hfailures

theorem saveMark_faults (h : Calm wiring w) (store index : String) (txid : Nat) :
    (w.saveMark store index txid).2.faults = w.faults := by
  simp only [saveMark, h.strike]
  split
  · split
    · rfl
    · split
      · rename_i w₁ hstored
        unfold storeCheckpoints at hstored
        split at hstored
        · contradiction
        · rw [← Except.ok.inj hstored]
          rfl
      · rfl
  · rfl

/-- A job's own call leaves a calm world calm. -/
theorem answer_calm {call : Call} (hown : call.IsOwn opts depth) (h : Calm wiring w) (base : Frames) :
    Calm wiring (answer wiring call (w, above base depth)).2.1 := by
  cases call with
  | session call =>
    obtain ⟨a, faults, depth', hanswer, -, hfaults⟩ := answerSession_own wiring hown w base
    have hanswer : answer wiring (.session call) (w, above base depth) = _ := hanswer
    rw [hanswer]
    exact h.of_same (hfaults h.faults) rfl h.writes
  | source call =>
    obtain ⟨_, _, hanswer, hfaults, -⟩ := answerSource_own wiring hown w
    show Calm wiring (answerSource wiring call w).2
    rw [hanswer]
    exact h.of_same (hfaults h.faults) rfl h.writes
  | buffer call =>
    cases call with
    | drain =>
      show Calm wiring (w.drain wiring.buffer).2
      obtain ⟨faults, buffers, hdrained, hfaults⟩ := drain_eq h.writes
      refine h.of_same ?_ ?_ (drain_writes h.writes)
      · rw [hdrained]
        exact hfaults h.faults
      · rw [hdrained]
    | ack =>
      show Calm wiring (w.ack wiring.buffer).2
      obtain ⟨faults, buffers, queues, hacked, hfaults⟩ := ack_eq w wiring.buffer
      refine h.of_same ?_ ?_ (ack_writes h.writes)
      · rw [hacked]
        exact hfaults h.faults
      · rw [hacked]
    | wait => exact hown.elim
  | sink call =>
    cases call with
    | upsert d => exact calm_onSink (·.upsert d) h (MemorySink.upsert_failures h.failures d)
    | delete index identity =>
      exact calm_onSink (·.delete index identity) h (MemorySink.delete_failures h.failures index identity)
    | refresh => exact calm_onSink (·.refresh) h (MemorySink.refresh_failures h.failures)
    | findByMeta => exact h
    | identities => exact h
  | store call =>
    cases call with
    | load index =>
      show Calm wiring (w.loadMark wiring.store index).2
      obtain ⟨faults, hloaded, hfaults⟩ := loadMark_eq w wiring.store index
      rw [hloaded]
      exact h.of_same (hfaults h.faults) rfl h.writes
    | save index txid =>
      show Calm wiring (w.saveMark wiring.store index txid).2
      obtain ⟨_, _, _, hsaved⟩ := saveMark_eq w wiring.store index txid
      have hfaults := saveMark_faults h wiring.store index txid
      rw [hsaved] at hfaults ⊢
      exact h.of_same hfaults rfl h.writes
  | clock => exact h

/-- What leaves a calm world calm for one job leaves it calm for a job apart from it. -/
theorem Calm.apart (h : Calm wiring' w) (hcalm : Calm wiring w') (hsink : wiring'.sink = wiring.sink)
    (hsame : SameFor opts' wiring' w w') : Calm wiring' w' :=
  ⟨hcalm.faults, hsink ▸ hcalm.failures, by rw [hsame.buffer.buffer]; exact h.writes⟩

/-! ### The same job in two worlds -/

/-- Answers that are the same, and leave worlds the same for a job. -/
def Agree {α : Type} (opts : SyncOptions) (wiring : Wiring) (r r' : α × World) : Prop :=
  r'.1 = r.1 ∧ SameFor opts wiring r.2 r'.2

theorem SameFor.answerSession (h : SameFor opts wiring w w') (hcalm : Calm wiring w) (hcalm' : Calm wiring w')
    {call : SessionCall} (hown : (Call.session call).IsOwn opts depth) (base : Frames) :
    (answerSession wiring call (w', above base depth)).1 =
      (answerSession wiring call (w, above base depth)).1 := by
  cases call with
  | execute query =>
    cases query with
    | select select =>
      obtain ⟨read, hread⟩ := reads_select wiring select
      have hselect : w'.database.select read (above base depth).pending =
          w.database.select read (above base depth).pending := by rw [h.database.rest]; rfl
      simp only [World.answerSession, hcalm.strikeIf, hcalm'.strikeIf, hread, execute_select, hselect]
    | _ => exact hown.elim
  | transactionId =>
    have htxid : w'.database.lastTxid = w.database.lastTxid := by rw [h.database.rest]
    simp only [World.answerSession, hcalm.strikeIf, hcalm'.strikeIf, htxid]
  | begin => simp only [World.answerSession, hcalm.strikeIf, hcalm'.strikeIf]
  | commit =>
    obtain ⟨n, rfl⟩ := Nat.exists_eq_succ_of_ne_zero (Nat.pos_iff_ne_zero.mp hown)
    simp only [World.answerSession, commitScope_above]
  | rollback =>
    obtain ⟨n, rfl⟩ := Nat.exists_eq_succ_of_ne_zero (Nat.pos_iff_ne_zero.mp hown)
    simp only [World.answerSession, rollbackScope_above]
  | enter => rfl
  | leave => rfl

theorem SameFor.onDatabase (h : SameFor opts wiring w w') {db db' : Database}
    (hdatabase : Database.SameFor opts.slotName db db') :
    SameFor opts wiring { w with database := db } { w' with database := db' } :=
  ⟨hdatabase, h.sink, ⟨h.store.mark, h.store.below, h.store.directory, h.store.sourceUrl⟩,
    ⟨h.buffer.buffer, h.buffer.places, h.buffer.lastIds, h.buffer.pending⟩, h.feeds⟩

theorem SameFor.onBuffers (h : SameFor opts wiring w w') {faults faults' : Faults}
    {buffers buffers' : Keyed NamedBuffer} {queues queues' : Keyed ChangeQueue}
    (hbuffer : SameBuffer wiring.buffer { w with faults := faults, buffers := buffers, queues := queues }
      { w' with faults := faults', buffers := buffers', queues := queues' }) :
    SameFor opts wiring { w with faults := faults, buffers := buffers, queues := queues }
      { w' with faults := faults', buffers := buffers', queues := queues' } :=
  ⟨h.database, h.sink, ⟨h.store.mark, h.store.below, h.store.directory, h.store.sourceUrl⟩, hbuffer, h.feeds⟩

theorem SameFor.feed (h : SameFor opts wiring w w') (records : List ChangeRecord) :
    SameFor opts wiring (w.feed records) (w'.feed records) := by
  have hbuffer := h.buffer.feed h.feeds records
  obtain ⟨_, _, hfed⟩ := feed_eq w records
  obtain ⟨_, _, hfed'⟩ := feed_eq w' records
  rw [hfed, hfed'] at hbuffer ⊢
  exact h.onBuffers hbuffer

theorem SameFor.answerSource (h : SameFor opts wiring w w') (hcalm : Calm wiring w) (hcalm' : Calm wiring w')
    {call : SourceCall} (hown : (Call.source call).IsOwn opts depth) :
    Agree opts wiring (answerSource wiring call w) (answerSource wiring call w') := by
  cases call with
  | openSlot name =>
    obtain rfl : name = opts.slotName := hown
    simp only [World.answerSource, hcalm.struck, hcalm'.struck]
    exact ⟨rfl, h.onDatabase h.database.openSlot⟩
  | pull slot window most offset =>
    obtain rfl : slot = opts.slotName := hown
    simp only [World.answerSource, hcalm.struck, hcalm'.struck, h.database.pull]
    split <;> exact ⟨rfl, h⟩
  | reclaim slot upTo =>
    obtain rfl : slot = opts.slotName := hown
    simp only [World.answerSource, hcalm.struck, hcalm'.struck]
    rcases h.database.reclaim upTo with ⟨e, he, he'⟩ | ⟨db, db', hdb, hdb', hsame⟩
    · rw [he, he']
      exact ⟨rfl, h⟩
    · rw [hdb, hdb']
      exact ⟨rfl, h.onDatabase hsame⟩

theorem SameFor.answerBuffer (h : SameFor opts wiring w w') (hcalm : Calm wiring w) (hcalm' : Calm wiring w')
    {call : BufferCall} (hown : (Call.buffer call).IsOwn opts depth) :
    Agree opts wiring (answerBuffer wiring.buffer call w) (answerBuffer wiring.buffer call w') := by
  cases call with
  | drain =>
    obtain ⟨hanswer, hbuffer⟩ := h.buffer.drain (hcalm.faults _) (hcalm'.faults _) hcalm.writes
    refine ⟨hanswer, ?_⟩
    obtain ⟨_, _, hdrained, -⟩ := drain_eq hcalm.writes
    obtain ⟨_, _, hdrained', -⟩ := drain_eq hcalm'.writes
    simp only [World.answerBuffer] at hbuffer ⊢
    rw [hdrained, hdrained'] at hbuffer ⊢
    exact h.onBuffers hbuffer
  | ack =>
    obtain ⟨hanswer, hbuffer⟩ := h.buffer.ack (hcalm.faults _) (hcalm'.faults _)
    refine ⟨hanswer, ?_⟩
    obtain ⟨_, _, _, hacked, -⟩ := ack_eq w wiring.buffer
    obtain ⟨_, _, _, hacked', -⟩ := ack_eq w' wiring.buffer
    simp only [World.answerBuffer] at hbuffer ⊢
    rw [hacked, hacked'] at hbuffer ⊢
    exact h.onBuffers hbuffer
  | wait => exact hown.elim

theorem SameFor.onSink {α : Type} (h : SameFor opts wiring w w') (operation : MemorySink → α × MemorySink)
    (hanswer : (operation (w'.sink wiring.sink)).1 = (operation (w.sink wiring.sink)).1)
    (hsink : MemorySink.SameFor opts.index (operation (w.sink wiring.sink)).2
      (operation (w'.sink wiring.sink)).2) :
    Agree opts wiring (w.onSink wiring.sink operation) (w'.onSink wiring.sink operation) := by
  refine ⟨hanswer, h.database, ?_, ⟨h.store.mark, h.store.below, h.store.directory, h.store.sourceUrl⟩,
    ⟨h.buffer.buffer, h.buffer.places, h.buffer.lastIds, h.buffer.pending⟩, h.feeds⟩
  rw [sink_onSink_self, sink_onSink_self]
  exact hsink

theorem SameFor.answerSink (h : SameFor opts wiring w w') (hcalm : Calm wiring w) (hcalm' : Calm wiring w')
    {call : SinkCall} (hown : (Call.sink call).IsOwn opts depth) :
    Agree opts wiring (answerSink wiring.sink call w) (answerSink wiring.sink call w') := by
  cases call with
  | upsert d =>
    obtain ⟨hanswer, hsink⟩ := h.sink.upsert hcalm.failures hcalm'.failures hown
    exact h.onSink (·.upsert d) hanswer hsink
  | delete index identity =>
    obtain rfl : index = opts.index := hown
    obtain ⟨hanswer, hsink⟩ := h.sink.delete hcalm.failures hcalm'.failures identity
    exact h.onSink (·.delete opts.index identity) hanswer hsink
  | refresh =>
    obtain ⟨hanswer, hsink⟩ := h.sink.refresh hcalm.failures hcalm'.failures
    exact h.onSink (·.refresh) hanswer hsink
  | findByMeta index table key =>
    obtain rfl : index = opts.index := hown
    exact ⟨congrArg Except.ok (h.sink.findByMeta table key), h⟩
  | identities index =>
    obtain rfl : index = opts.index := hown
    exact ⟨congrArg Except.ok h.sink.identities, h⟩

theorem SameFor.answerStore (h : SameFor opts wiring w w') (hcalm : Calm wiring w) (hcalm' : Calm wiring w')
    {call : StoreCall} (hown : (Call.store call).IsOwn opts depth) :
    Agree opts wiring (answerStore wiring.store call w) (answerStore wiring.store call w') := by
  cases call with
  | load index =>
    obtain rfl : index = opts.index := hown
    simp only [World.answerStore, loadMark, hcalm.strike, hcalm'.strike]
    exact ⟨h.store.mark, h⟩
  | save index txid =>
    obtain rfl : index = opts.index := hown
    obtain ⟨hanswer, hstore⟩ := h.store.saveMark (hcalm.faults _) (hcalm'.faults _) txid
    refine ⟨hanswer, ?_⟩
    obtain ⟨_, _, _, hsaved⟩ := saveMark_eq w wiring.store opts.index txid
    obtain ⟨_, _, _, hsaved'⟩ := saveMark_eq w' wiring.store opts.index txid
    simp only [World.answerStore] at hstore ⊢
    rw [hsaved, hsaved'] at hstore ⊢
    exact ⟨h.database, h.sink, hstore, ⟨h.buffer.buffer, h.buffer.places, h.buffer.lastIds, h.buffer.pending⟩,
      h.feeds⟩

/-- Calm worlds that are the same for a job answer its own calls alike, and stay the same for it. -/
theorem SameFor.answer (h : SameFor opts wiring w w') (hcalm : Calm wiring w) (hcalm' : Calm wiring w')
    {call : Call} (hown : call.IsOwn opts depth) (base : Frames) :
    (World.answer wiring call (w', above base depth)).1 = (World.answer wiring call (w, above base depth)).1 ∧
      SameFor opts wiring (World.answer wiring call (w, above base depth)).2.1
        (World.answer wiring call (w', above base depth)).2.1 := by
  cases call with
  | session call =>
    refine ⟨h.answerSession hcalm hcalm' hown base, ?_⟩
    obtain ⟨_, faults, _, hanswer, -, -⟩ := answerSession_own wiring hown w base
    obtain ⟨_, faults', _, hanswer', -, -⟩ := answerSession_own wiring hown w' base
    have hanswer : World.answer wiring (.session call) (w, above base depth) = _ := hanswer
    have hanswer' : World.answer wiring (.session call) (w', above base depth) = _ := hanswer'
    rw [hanswer, hanswer']
    exact ((sameFor_faults _ _ w faults).symm.trans h).trans (sameFor_faults _ _ w' faults')
  | source call => exact h.answerSource hcalm hcalm' hown
  | buffer call => exact h.answerBuffer hcalm hcalm' hown
  | sink call => exact h.answerSink hcalm hcalm' hown
  | store call => exact h.answerStore hcalm hcalm' hown
  | clock => exact ⟨rfl, h⟩

/-! ### Commits of others -/

theorem tries_refused {queries : List Query} {e : DatabaseError} (h : w.database.commit queries = .error e) :
    w.tries queries = w := by
  simp only [tries, commit, h, Except.map]

theorem tries_committed {queries : List Query} {rows : List Row} {logged : List ChangeRecord} {db : Database}
    (h : w.database.commit queries = .ok (rows, logged, db)) :
    w.tries queries = { w with database := db }.feed logged := by
  simp only [tries, commit, h, Except.map]

theorem place_tries (w : World) (name : String) (queries : List Query) :
    ((w.tries queries).buffer name).store.place = (w.buffer name).store.place := by
  cases hcommit : w.database.commit queries with
  | error e => rw [tries_refused hcommit]
  | ok committed =>
    obtain ⟨rows, logged, db⟩ := committed
    rw [tries_committed hcommit, place_feed]
    rfl

/-- What others commit is committed in both worlds, or in neither. -/
theorem SameFor.tries (h : SameFor opts wiring w w') (queries : List Query) :
    SameFor opts wiring (w.tries queries) (w'.tries queries) := by
  rcases h.database.commit queries with ⟨e, he, he'⟩ | ⟨rows, logged, db, db', hdb, hdb', hsame⟩
  · rw [tries_refused he, tries_refused he']
    exact h
  · rw [tries_committed hdb, tries_committed hdb']
    exact (h.onDatabase hsame).feed logged

theorem Calm.tries (h : Calm wiring w) (queries : List Query) : Calm wiring (w.tries queries) := by
  cases hcommit : w.database.commit queries with
  | error e =>
    rw [tries_refused hcommit]
    exact h
  | ok committed =>
    obtain ⟨rows, logged, db⟩ := committed
    rw [tries_committed hcommit]
    obtain ⟨_, _, hfed⟩ := feed_eq { w with database := db } logged
    exact h.of_same (by rw [hfed]) (by rw [hfed]) ((writes_feed _ _ _).trans h.writes)

end World

end DocSync
