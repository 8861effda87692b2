import DocSync.Proofs.Simulation.World

/-!
What waits in a buffer.  Committed changes are put behind what is pending, and only an acknowledgement
takes anything away.  Main statement: every other call, and whatever others do, leaves what is pending,
with the changes committed meanwhile behind it.
-/

namespace DocSync

/-- What is pending in a buffer, nothing for an entry that holds no record, and how many entries a drain
takes at most. -/
structure Backlog where
  entries : List (Option ChangeRecord)
  limit : Option Nat

namespace Backlog

/-- Every pending record. -/
def records (b : Backlog) : List ChangeRecord := b.entries.filterMap id

/-- The records that a drain hands out. -/
def drained (b : Backlog) : List ChangeRecord :=
  match b.limit with
  | none => b.records
  | some most => (b.entries.take most).filterMap id

/-- Entries are put behind what is pending. -/
structure Grows (b b' : Backlog) : Prop where
  entries : b.entries <+: b'.entries
  limit : b'.limit = b.limit

variable {b b' b₁ b₂ b₃ : Backlog}

theorem Grows.refl (b : Backlog) : Grows b b := ⟨List.prefix_rfl, rfl⟩

theorem Grows.trans (h : Grows b₁ b₂) (h' : Grows b₂ b₃) : Grows b₁ b₃ :=
  ⟨h.entries.trans h'.entries, h'.limit.trans h.limit⟩

/-- What was pending is still pending. -/
theorem Grows.records (h : Grows b b') : b.records <+: b'.records := by
  obtain ⟨arrivals, hentries⟩ := h.entries
  exact ⟨arrivals.filterMap id, by rw [Backlog.records, Backlog.records, ← hentries,
    List.filterMap_append]⟩

/-- What a drain would have handed out, a later one hands out again. -/
theorem Grows.drained (h : Grows b b') : b.drained ⊆ b'.drained := by
  unfold Backlog.drained
  rw [h.limit]
  cases b.limit with
  | none => exact h.records.subset
  | some most =>
    obtain ⟨arrivals, hentries⟩ := h.entries
    dsimp only
    rw [← hentries, List.take_append, List.filterMap_append]
    exact List.subset_append_left _ _

end Backlog

namespace World

/-- What is pending in a buffer. -/
def backlog (w : World) (name : String) : Backlog :=
  match (w.buffer name).store with
  | .memory m => ⟨m.pending.map some, none⟩
  | .queue file q =>
    ⟨((w.queue file).pending q.channel).map fun e => e.entry.payload.bind ChangeRecord.ofText?,
      some q.limit⟩

/-- What puts entries behind what is pending, and none where nothing is committed. -/
structure Gathers (name : String) (w w' : World) : Prop where
  log : w.database.log <+: w'.database.log
  grows : (w.backlog name).Grows (w'.backlog name)
  quiet : w'.database.log = w.database.log → w'.backlog name = w.backlog name

variable {name : String} {w w' w₁ w₂ w₃ : World}

theorem Gathers.refl (w : World) : Gathers name w w := ⟨List.prefix_rfl, .refl _, fun _ => rfl⟩

theorem Gathers.trans (h : Gathers name w₁ w₂) (h' : Gathers name w₂ w₃) : Gathers name w₁ w₃ := by
  refine ⟨h.log.trans h'.log, h.grows.trans h'.grows, fun hsame => ?_⟩
  have hmiddle : w₂.database.log = w₁.database.log :=
    (h'.log.trans (hsame ▸ List.prefix_rfl)).eq_of_length_le h.log.length_le
  rw [h'.quiet (hsame.trans hmiddle.symm), h.quiet hmiddle]

/-- What leaves buffers, queues and the log as they are. -/
theorem Gathers.of_same (hbuffers : w'.buffers = w.buffers) (hqueues : w'.queues = w.queues)
    (hlog : w'.database.log = w.database.log) : Gathers name w w' := by
  have hsame : w'.backlog name = w.backlog name := by
    simp only [backlog, buffer, queue, hbuffers, hqueues]
  exact ⟨hlog ▸ List.prefix_rfl, hsame ▸ .refl _, fun _ => hsame⟩

theorem buffer_putBuffer (w : World) (name other : String) (b : NamedBuffer) :
    (w.putBuffer name b).buffer other = if name = other then b else w.buffer other := by
  rw [buffer, putBuffer, Keyed.getD_put]
  rfl

/-- A buffer that is put back with its store changed in what no entry depends on. -/
theorem gathers_putBuffer (w : World) (other : String) (b : NamedBuffer)
    (h : (w.putBuffer other b).backlog other = w.backlog other) :
    Gathers name w (w.putBuffer other b) := by
  have hsame : (w.putBuffer other b).backlog name = w.backlog name := by
    by_cases hname : other = name
    · rw [← hname, h]
    · simp only [backlog, buffer_putBuffer, if_neg hname]
      rfl
  exact ⟨List.prefix_rfl, hsame ▸ .refl _, fun _ => hsame⟩

/-- A buffer that is put back with the same store. -/
theorem gathers_putBuffer_store (w : World) (other : String) (b : NamedBuffer)
    (h : b.store = (w.buffer other).store) : Gathers name w (w.putBuffer other b) := by
  refine gathers_putBuffer w other b ?_
  simp only [backlog, buffer_putBuffer, if_true, h]
  rfl

/-! ### Commits -/

theorem pending_push (q : ChangeQueue) (channel other : String) (entry : NewEntry) :
    q.pending other <+: (q.push channel entry).2.pending other := by
  simp only [ChangeQueue.pending, ChangeQueue.push, List.filter_append]
  exact List.prefix_append _ _

theorem backlog_push (name : String) (w : World) (other : String) (r : ChangeRecord) :
    (w.backlog name).Grows ((w.push other r).backlog name) ∧
      (w.push other r).database = w.database := by
  simp only [push]
  split
  · rename_i m hstore
    refine ⟨?_, rfl⟩
    by_cases hname : other = name
    · subst hname
      simp only [backlog, buffer_putBuffer, if_true, hstore, MemoryBuffer.push, List.map_append]
      exact ⟨List.prefix_append _ _, rfl⟩
    · simp only [backlog, buffer_putBuffer, if_neg hname]
      exact .refl _
  · rename_i file q hstore
    refine ⟨?_, rfl⟩
    have hkept (b : NamedBuffer) (h : b.store = (w.buffer other).store) :
        (((w.putQueue file (q.push (w.queue file) r)).putBuffer other b).buffer name).store =
          (w.buffer name).store := by
      rw [buffer_putBuffer]
      split
      · rename_i hname
        rw [h, hname]
      · rfl
    simp only [backlog]
    rw [hkept { w.buffer other with unnoticed := (w.buffer other).unnoticed + 1 } rfl]
    cases (w.buffer name).store with
    | memory m => exact .refl _
    | queue file' q' =>
      refine ⟨(List.IsPrefix.map _ ?_), rfl⟩
      change _ <+: ((w.queues.put (filePlace file) (q.push (w.queue file) r)).getD (filePlace file')
        .empty).pending q'.channel
      rw [Keyed.getD_put]
      split
      · rename_i hplace
        rw [queue, ← hplace]
        exact pending_push _ _ _ _
      · exact List.prefix_rfl

/-- What every push keeps is kept where records are fed. -/
theorem feed_keeps {P : World → Prop} (hpush : ∀ w other r, P w → P (w.push other r)) (h : P w)
    (records : List ChangeRecord) : P (w.feed records) := by
  have hnames : ∀ (names : List String) (w : World) (r : ChangeRecord), P w →
      P (names.foldl (fun w name => w.push name r) w) := by
    intro names
    induction names with
    | nil => exact fun _ _ h => h
    | cons first rest ih => exact fun w r h => ih (w.push first r) r (hpush w first r h)
  unfold feed
  induction records generalizing w with
  | nil => exact h
  | cons r rest ih => exact ih (hnames w.feeds w r h)

/-- Records that are fed are put behind what is pending. -/
theorem backlog_feed (name : String) (w : World) (records : List ChangeRecord) :
    (w.backlog name).Grows ((w.feed records).backlog name) ∧
      (w.feed records).database = w.database := by
  refine feed_keeps (P := fun w' => (w.backlog name).Grows (w'.backlog name) ∧ w'.database = w.database)
    (fun w' other r ⟨hgrows, hdatabase⟩ => ?_) ⟨.refl _, rfl⟩ records
  obtain ⟨hgrows', hdatabase'⟩ := backlog_push name w' other r
  exact ⟨hgrows.trans hgrows', hdatabase'.trans hdatabase⟩

/-- A commit puts what it logged behind what is pending. -/
theorem gathers_logged {queries : List Query} {rows : List Row} {logged : List ChangeRecord}
    {db : Database} (h : w.database.commit queries = .ok (rows, logged, db)) :
    Gathers name w ({ w with database := db }.feed logged) := by
  obtain ⟨hgrows, hdatabase⟩ := backlog_feed name { w with database := db } logged
  have hlog := Database.log_commit h
  refine ⟨?_, hgrows, fun hsame => ?_⟩
  · rw [hdatabase, hlog]
    exact List.prefix_append _ _
  · rw [hdatabase, hlog, List.append_right_eq_self] at hsame
    subst hsame
    rfl

theorem gathers_commit {queries : List Query} (h : w.commit queries = .ok w') :
    Gathers name w w' := by
  unfold commit at h
  cases hdb : w.database.commit queries with
  | error e => simp [hdb, Except.map] at h
  | ok result =>
    obtain ⟨rows, logged, db⟩ := result
    simp only [hdb, Except.map] at h
    exact Except.ok.inj h ▸ gathers_logged hdb

theorem Interferes.gathers (h : Interferes w w') : Gathers name w w' := by
  cases h with
  | commit queries hc => exact gathers_commit hc
  | failSink sink count => exact .of_same rfl rfl rfl
  | arm point count => exact .of_same rfl rfl rfl

theorem Others.gathers (h : Others w w') : Gathers name w w' := by
  induction h with
  | refl w => exact .refl w
  | step hi _ ih => exact hi.gathers.trans ih

/-! ### Answers -/

theorem gathers_writeOnDrain (name : String) (w : World) (other : String) :
    Gathers name w (w.writeOnDrain other).2 := by
  simp only [writeOnDrain]
  split
  · exact .refl w
  · rename_i group rest _
    have hput : Gathers name w (w.putBuffer other { w.buffer other with writes := rest }) :=
      gathers_putBuffer_store w other _ rfl
    exact hput.trans (others_commitEach group _).gathers

/-- A drain takes nothing away; what it hands out is the front of what is pending. -/
theorem gathers_drain (name : String) (w : World) (other : String) :
    Gathers name w (w.drain other).2 ∧ ∀ records, (w.drain other).1 = .ok records →
      records = ((w.drain other).2.backlog other).drained := by
  simp only [drain]
  have hstruck : Gathers name w (w.strike .drain).2 := .of_same rfl rfl rfl
  split
  · rename_i failure w₁ hstrike
    rw [hstrike] at hstruck
    exact ⟨hstruck, by simp⟩
  rename_i w₁ hstrike
  rw [hstrike] at hstruck
  have hwrites := gathers_writeOnDrain name w₁ other
  split
  · rename_i e w₂ hwrite
    rw [hwrite] at hwrites
    exact ⟨hstruck.trans hwrites, by simp⟩
  rename_i w₂ hwrite
  rw [hwrite] at hwrites
  split
  · rename_i m hstore
    have hsame : (w₂.putBuffer other
        { w₂.buffer other with store := .memory m.drain.2 }).backlog other = w₂.backlog other := by
      simp only [backlog, buffer_putBuffer, if_true, hstore, MemoryBuffer.drain]
    refine ⟨(hstruck.trans hwrites).trans (gathers_putBuffer w₂ other _ hsame), ?_⟩
    rintro records hrecords
    rw [hsame, ← Except.ok.inj hrecords]
    simp [backlog, hstore, Backlog.drained, Backlog.records, MemoryBuffer.drain]
  · rename_i file q hstore
    have hsame : (w₂.putBuffer other
        { w₂.buffer other with store := .queue file (q.drain (w₂.queue file)).2 }).backlog other =
          w₂.backlog other := by
      simp only [backlog, buffer_putBuffer, if_true, hstore, QueueBuffer.drain]
      rfl
    refine ⟨(hstruck.trans hwrites).trans (gathers_putBuffer w₂ other _ hsame), ?_⟩
    rintro records hrecords
    rw [hsame, ← Except.ok.inj hrecords]
    simp only [backlog, hstore, Backlog.drained, QueueBuffer.drain, ChangeQueue.fetch,
      ← List.map_take, List.filterMap_map, Function.comp_def, id]

theorem gathers_wait (w : World) (other : String) : Gathers name w (w.wait other).2 := by
  simp only [wait]
  have hstruck : Gathers name w (w.strike .wait).2 := .of_same rfl rfl rfl
  split
  · rename_i hstrike
    rwa [hstrike] at hstruck
  · rename_i w₁ hstrike
    rw [hstrike] at hstruck
    split
    · exact hstruck
    · exact hstruck.trans (gathers_putBuffer_store w₁ other _ rfl)

theorem gathers_strikeIf (enabled : Bool) (p : FaultPoint) (s : Site) :
    Gathers name s.1 (strikeIf enabled p s).2.1 := by
  unfold strikeIf
  split <;> exact .of_same rfl rfl rfl

theorem StaysOrCommits.gathers {α : Type} {s : Site} {queries : List Query}
    {answer : Except Failure α × Site} (h : StaysOrCommits s queries answer) : Gathers name s.1 answer.2.1 := by
  rcases h with hsame | ⟨rows, logged, db, value, hcommit, -, hworld⟩
  · rw [hsame]
    exact .refl s.1
  · rw [hworld]
    exact gathers_logged hcommit

theorem gathers_execute (s : Site) (query : Query) : Gathers name s.1 (execute s query).2.1 :=
  (execute_staysOrCommits s query).gathers

theorem gathers_commitScope (s : Site) : Gathers name s.1 (commitScope s).2.1 :=
  (commitScope_staysOrCommits s).gathers

theorem gathers_answerSession (wiring : Wiring) (call : SessionCall) (s : Site) :
    Gathers name s.1 (answerSession wiring call s).2.1 := by
  have hstruck {p : FaultPoint} {r : Option Failure × Site}
      (h : strikeIf wiring.failing p s = r) : Gathers name s.1 r.2.1 :=
    h ▸ gathers_strikeIf wiring.failing p s
  cases call with
  | execute query =>
    simp only [answerSession]
    split
    · rename_i h
      exact hstruck h
    · rename_i h
      exact (hstruck h).trans (gathers_execute _ _)
  | transactionId =>
    simp only [answerSession]
    split <;> (rename_i h; exact hstruck h)
  | begin =>
    simp only [answerSession]
    split <;> (rename_i h; exact hstruck h)
  | commit => exact gathers_commitScope s
  | rollback =>
    simp only [answerSession, rollbackScope]
    split <;> exact .refl s.1
  | enter => exact .refl s.1
  | leave => exact .refl s.1

theorem gathers_answerSource (wiring : Wiring) (call : SourceCall) (w : World) :
    Gathers name w (answerSource wiring call w).2 := by
  have hstruck {p : FaultPoint} {r : Option Failure × World}
      (h : (if wiring.failing then w.strike p else (none, w)) = r) : Gathers name w r.2 := by
    obtain ⟨faults, hfaults⟩ := struck_eq wiring.failing p w
    rw [h] at hfaults
    exact hfaults ▸ .of_same rfl rfl rfl
  cases call with
  | openSlot name' =>
    simp only [answerSource]
    split
    · rename_i h
      exact hstruck h
    · rename_i w₁ h
      refine (hstruck h).trans (.of_same rfl rfl ?_)
      dsimp only
      unfold Database.openSlot
      split <;> rfl
  | pull slot window most offset =>
    simp only [answerSource]
    split
    · rename_i h
      exact hstruck h
    · rename_i h
      split <;> exact hstruck h
  | reclaim slot upTo =>
    simp only [answerSource]
    split
    · rename_i h
      exact hstruck h
    · rename_i h
      split
      · rename_i db hreclaim
        obtain ⟨_, -, rfl⟩ := Database.reclaim_eq_ok hreclaim
        exact (hstruck h).trans (.of_same rfl rfl rfl)
      · exact hstruck h

/-- What saving a checkpoint may change. -/
theorem saveMark_eq (w : World) (store index : String) (txmin : Nat) :
    ∃ faults stores files, (w.saveMark store index txmin).2 =
      { w with faults := faults, stores := stores, files := files } := by
  simp only [saveMark]
  split
  · rename_i w₁ hstrike
    exact ⟨_, _, _, (congrArg Prod.snd hstrike).symm⟩
  rename_i w₁ hstrike
  obtain rfl : _ = w₁ := congrArg Prod.snd hstrike
  split
  · split
    · exact ⟨_, _, _, rfl⟩
    · split
      · rename_i w₂ hstored
        unfold storeCheckpoints at hstored
        split at hstored
        · contradiction
        · exact ⟨_, _, _, (Except.ok.inj hstored).symm⟩
      · exact ⟨_, _, _, rfl⟩
  · exact ⟨_, _, _, rfl⟩

theorem gathers_answerStore (store : String) (call : StoreCall) (w : World) :
    Gathers name w (answerStore store call w).2 := by
  cases call with
  | load index =>
    have hstruck : Gathers name w (w.strike .load).2 := .of_same rfl rfl rfl
    simp only [answerStore, loadMark]
    split <;> (rename_i h; rwa [h] at hstruck)
  | save index txmin =>
    obtain ⟨faults, stores, files, hsaved⟩ := saveMark_eq w store index txmin
    change Gathers name w (w.saveMark store index txmin).2
    rw [hsaved]
    exact .of_same rfl rfl rfl

/-- Every call but an acknowledgement leaves what is pending. -/
theorem answer_gathers (wiring : Wiring) (call : Call) (h : call ≠ .buffer .ack) (s : Site) :
    Gathers name s.1 (answer wiring call s).2.1 := by
  cases call with
  | session call => exact gathers_answerSession wiring call s
  | source call => exact gathers_answerSource wiring call s.1
  | buffer call =>
    cases call with
    | drain => exact (gathers_drain name s.1 wiring.buffer).1
    | ack => exact (h rfl).elim
    | wait => exact gathers_wait s.1 wiring.buffer
  | sink call => cases call <;> exact .of_same rfl rfl rfl
  | store call => exact gathers_answerStore wiring.store call s.1
  | clock => exact .refl s.1

end World

end DocSync
