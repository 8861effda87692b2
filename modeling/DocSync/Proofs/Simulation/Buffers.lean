import DocSync.Proofs.Buffer.Queue
import DocSync.Proofs.Simulation.Rest

/-!
What a job can tell of buffers: its own, and what is pending in it.  Of a queue file that several jobs have
channels of, each can tell the entries of its channel, and the ids that are given to new ones.
-/

namespace DocSync

/-- The queue file and the channel of a buffer; nothing for one in memory. -/
def BufferStore.place : BufferStore → Option (String × String)
  | .memory _ => none
  | .queue file q => some (World.filePlace file, q.channel)

namespace World

variable {name other : String} {w w' w₁ w₂ w₃ : World}

/-- Worlds whose buffers are the same for who has one of them. -/
structure SameBuffer (name : String) (w w' : World) : Prop where
  buffer : w'.buffer name = w.buffer name
  places : ∀ other, (w'.buffer other).store.place = (w.buffer other).store.place
  lastIds : ∀ file, (w'.queue file).lastId = (w.queue file).lastId
  pending : ∀ file channel, (w.buffer name).store.place = some (filePlace file, channel) →
    (w'.queue file).pending channel = (w.queue file).pending channel

theorem SameBuffer.refl (name : String) (w : World) : SameBuffer name w w :=
  ⟨rfl, fun _ => rfl, fun _ => rfl, fun _ _ _ => rfl⟩

theorem SameBuffer.symm (h : SameBuffer name w w') : SameBuffer name w' w :=
  ⟨h.buffer.symm, fun other => (h.places other).symm, fun file => (h.lastIds file).symm,
    fun file channel hplace => (h.pending file channel ((h.places name).symm.trans hplace)).symm⟩

theorem SameBuffer.trans (h : SameBuffer name w₁ w₂) (h' : SameBuffer name w₂ w₃) :
    SameBuffer name w₁ w₃ :=
  ⟨h'.buffer.trans h.buffer, fun other => (h'.places other).trans (h.places other),
    fun file => (h'.lastIds file).trans (h.lastIds file), fun file channel hplace =>
      (h'.pending file channel ((h.places name).trans hplace)).trans (h.pending file channel hplace)⟩

theorem queue_putQueue (w : World) (file other : String) (q : ChangeQueue) :
    (w.putQueue file q).queue other = if filePlace file = filePlace other then q else w.queue other := by
  rw [queue, putQueue, Keyed.getD_put]
  rfl

theorem queue_congr {file file' : String} (h : filePlace file' = filePlace file) : w.queue file' = w.queue file := by
  rw [queue, queue, h]

/-- A buffer that is not the job's is put back in its place. -/
theorem sameBuffer_putBuffer (hother : other ≠ name) {b : NamedBuffer}
    (hplace : b.store.place = (w.buffer other).store.place) : SameBuffer name w (w.putBuffer other b) := by
  refine ⟨?_, fun third => ?_, fun _ => rfl, fun _ _ _ => rfl⟩
  · rw [buffer_putBuffer, if_neg hother]
  · rw [buffer_putBuffer]
    split
    · rename_i heq
      rw [hplace, heq]
    · rfl

/-- A record that is pushed to a buffer is pushed in both worlds. -/
theorem SameBuffer.push (h : SameBuffer name w w') (other : String) (r : ChangeRecord) :
    SameBuffer name (w.push other r) (w'.push other r) := by
  have hplace := h.places other
  cases hstore : (w.buffer other).store with
  | memory m =>
    cases hstore' : (w'.buffer other).store with
    | queue => rw [hstore, hstore'] at hplace; contradiction
    | memory m' =>
      have hpush : w.push other r = w.putBuffer other
          { w.buffer other with store := .memory (m.push r), unnoticed := (w.buffer other).unnoticed + 1 } := by
        simp only [World.push, hstore]
      have hpush' : w'.push other r = w'.putBuffer other
          { w'.buffer other with store := .memory (m'.push r), unnoticed := (w'.buffer other).unnoticed + 1 } := by
        simp only [World.push, hstore']
      rw [hpush, hpush']
      refine ⟨?_, fun third => ?_, h.lastIds, fun file channel hown => ?_⟩
      · rw [buffer_putBuffer, buffer_putBuffer]
        split
        · rename_i heq
          subst heq
          rw [h.buffer, hstore] at hstore'
          obtain rfl := BufferStore.memory.inj hstore'
          rw [h.buffer]
        · exact h.buffer
      · rw [buffer_putBuffer, buffer_putBuffer]
        split
        · rfl
        · exact h.places third
      · rw [buffer_putBuffer] at hown
        split at hown
        · contradiction
        · exact h.pending file channel hown
  | queue file q =>
    cases hstore' : (w'.buffer other).store with
    | memory => rw [hstore, hstore'] at hplace; contradiction
    | queue file' q' =>
      rw [hstore, hstore'] at hplace
      obtain ⟨hfile, hchannel⟩ := Prod.mk.inj (Option.some.inj hplace)
      have hpush : w.push other r = (w.putQueue file (q.push (w.queue file) r)).putBuffer other
          { w.buffer other with unnoticed := (w.buffer other).unnoticed + 1 } := by
        simp only [World.push, hstore]
      have hpush' : w'.push other r = (w'.putQueue file (q.push (w'.queue file) r)).putBuffer other
          { w'.buffer other with unnoticed := (w'.buffer other).unnoticed + 1 } := by
        simp only [World.push, hstore', putQueue, hfile, queue, QueueBuffer.push, hchannel]
      rw [hpush, hpush']
      refine ⟨?_, fun third => ?_, fun third => ?_, fun third channel hown => ?_⟩
      · rw [buffer_putBuffer, buffer_putBuffer]
        split
        · rename_i heq
          subst heq
          show NamedBuffer.mk _ _ _ = NamedBuffer.mk _ _ _
          rw [h.buffer]
        · exact h.buffer
      · rw [buffer_putBuffer, buffer_putBuffer]
        split
        · exact h.places other
        · exact h.places third
      · show ((w'.putQueue file _).queue third).lastId = ((w.putQueue file _).queue third).lastId
        rw [queue_putQueue, queue_putQueue]
        split
        · exact congrArg (· + 1) (h.lastIds file)
        · exact h.lastIds third
      · have hown : (w.buffer name).store.place = some (filePlace third, channel) := by
          rw [buffer_putBuffer] at hown
          split at hown
          · rename_i heq
            exact heq ▸ hown
          · exact hown
        show ((w'.putQueue file _).queue third).pending channel = ((w.putQueue file _).queue third).pending channel
        rw [queue_putQueue, queue_putQueue]
        split
        · rename_i heq
          have hpending := h.pending third channel hown
          rw [queue_congr heq.symm, queue_congr heq.symm] at hpending
          rw [QueueBuffer.push, QueueBuffer.push, ChangeQueue.pending_push_eq, ChangeQueue.pending_push_eq,
            hpending, h.lastIds]
        · exact h.pending third channel hown

/-- Only buffers and queues change where records are fed. -/
theorem feed_eq (w : World) (records : List ChangeRecord) :
    ∃ buffers queues, w.feed records = { w with buffers := buffers, queues := queues } := by
  refine feed_keeps (P := fun w' => ∃ buffers queues, w' = { w with buffers := buffers, queues := queues })
    (fun w' other r h => ?_) ⟨w.buffers, w.queues, rfl⟩ records
  obtain ⟨_, _, rfl⟩ := h
  simp only [push]
  split <;> exact ⟨_, _, rfl⟩

/-- Records are fed to a buffer, and the writes that its drains cause stay. -/
theorem writes_feed (w : World) (name : String) (records : List ChangeRecord) :
    ((w.feed records).buffer name).writes = (w.buffer name).writes := by
  refine feed_keeps (P := fun w' => (w'.buffer name).writes = (w.buffer name).writes)
    (fun w' other r h => ?_) rfl records
  rw [← h]
  simp only [push]
  split
  all_goals
    rw [buffer_putBuffer]
    split
    · rename_i heq
      rw [heq]
    · rfl

theorem place_feed (w : World) (name : String) (records : List ChangeRecord) :
    ((w.feed records).buffer name).store.place = (w.buffer name).store.place := by
  refine feed_keeps (P := fun w' => (w'.buffer name).store.place = (w.buffer name).store.place)
    (fun w' other r h => ?_) rfl records
  rw [← h]
  cases hstore : (w'.buffer other).store with
  | memory m =>
    simp only [push, hstore, buffer_putBuffer]
    split
    · rename_i heq
      rw [← heq, hstore]
      rfl
    · rfl
  | queue file q =>
    simp only [push, hstore, buffer_putBuffer]
    split
    · rename_i heq
      rw [← heq, hstore]
    · rfl

/-- A drain that is not made to fail, and that causes no writes. -/
theorem drain_calm (hcalm : w.faults.count .drain = 0) (hwrites : (w.buffer name).writes = []) :
    w.drain name = match (w.buffer name).store with
      | .memory m => (.ok m.drain.1, w.putBuffer name { w.buffer name with store := .memory m.drain.2 })
      | .queue file q => (.ok (q.drain (w.queue file)).1,
          w.putBuffer name { w.buffer name with store := .queue file (q.drain (w.queue file)).2 }) := by
  have hstrike : w.strike .drain = (none, w) := by simp [strike, Faults.strike, hcalm]
  have hwrite : w.writeOnDrain name = (.ok (), w) := by simp only [writeOnDrain, hwrites]
  cases hstore : (w.buffer name).store <;> simp only [drain, hstrike, hwrite, hstore]

/-- An acknowledgement that is not made to fail. -/
theorem ack_calm (hcalm : w.faults.count .ack = 0) :
    w.ack name = match (w.buffer name).store with
      | .memory m => (.ok (), w.putBuffer name { w.buffer name with store := .memory m.ack })
      | .queue file q => (.ok (), (w.putQueue file (q.ack (w.queue file)).2).putBuffer name
          { w.buffer name with store := .queue file (q.ack (w.queue file)).1 }) := by
  have hstrike : w.strike .ack = (none, w) := by simp [strike, Faults.strike, hcalm]
  cases hstore : (w.buffer name).store <;> simp only [ack, hstrike, hstore]

/-- The job's buffer is put back in its place, the same in both worlds. -/
theorem SameBuffer.putBuffer (h : SameBuffer name w w') {b : NamedBuffer}
    (hplace : b.store.place = (w.buffer name).store.place) :
    SameBuffer name (w.putBuffer name b) (w'.putBuffer name b) := by
  refine ⟨?_, fun other => ?_, h.lastIds, fun file channel hown => ?_⟩
  · rw [buffer_putBuffer, buffer_putBuffer, if_pos rfl, if_pos rfl]
  · rw [buffer_putBuffer, buffer_putBuffer]
    split
    · rfl
    · exact h.places other
  · rw [buffer_putBuffer, if_pos rfl, hplace] at hown
    exact h.pending file channel hown

theorem SameBuffer.drain (h : SameBuffer name w w') (hcalm : w.faults.count .drain = 0)
    (hcalm' : w'.faults.count .drain = 0) (hwrites : (w.buffer name).writes = []) :
    (w'.drain name).1 = (w.drain name).1 ∧ SameBuffer name (w.drain name).2 (w'.drain name).2 := by
  rw [drain_calm hcalm hwrites, drain_calm hcalm' (by rw [h.buffer, hwrites]), h.buffer]
  cases hstore : (w.buffer name).store with
  | memory m => exact ⟨rfl, h.putBuffer (by rw [hstore]; rfl)⟩
  | queue file q =>
    have hpending := h.pending file q.channel (by rw [hstore]; rfl)
    have hdrain : q.drain (w'.queue file) = q.drain (w.queue file) := by
      simp only [QueueBuffer.drain, ChangeQueue.fetch, hpending]
    dsimp only
    rw [hdrain]
    exact ⟨rfl, h.putBuffer (by rw [hstore]; rfl)⟩

theorem SameBuffer.ack (h : SameBuffer name w w') (hcalm : w.faults.count .ack = 0)
    (hcalm' : w'.faults.count .ack = 0) :
    (w'.ack name).1 = (w.ack name).1 ∧ SameBuffer name (w.ack name).2 (w'.ack name).2 := by
  rw [ack_calm hcalm, ack_calm hcalm', h.buffer]
  cases hstore : (w.buffer name).store with
  | memory m => exact ⟨rfl, h.putBuffer (by rw [hstore]; rfl)⟩
  | queue file q =>
    have hack : (q.ack (w'.queue file)).1 = (q.ack (w.queue file)).1 := by
      unfold QueueBuffer.ack
      cases q.lastDrained <;> rfl
    have hput : SameBuffer name (w.putQueue file (q.ack (w.queue file)).2)
        (w'.putQueue file (q.ack (w'.queue file)).2) := by
      refine ⟨h.buffer, h.places, fun other => ?_, fun other channel hown => ?_⟩
      · rw [queue_putQueue, queue_putQueue]
        split
        · rw [ChangeQueue.lastId_ack, ChangeQueue.lastId_ack, h.lastIds]
        · exact h.lastIds other
      · have hown : (w.buffer name).store.place = some (filePlace other, channel) := hown
        have hpending := h.pending other channel hown
        rw [queue_putQueue, queue_putQueue]
        split
        · rename_i heq
          rw [queue_congr heq.symm, queue_congr heq.symm] at hpending
          rw [ChangeQueue.pending_ack, ChangeQueue.pending_ack, hpending]
        · exact hpending
    dsimp only
    rw [hack]
    have hplace : BufferStore.place (.queue file (q.ack (w.queue file)).1) = (w.buffer name).store.place := by
      rw [hstore]
      unfold QueueBuffer.ack
      cases q.lastDrained <;> rfl
    exact ⟨rfl, hput.putBuffer hplace⟩

theorem SameBuffer.feed (h : SameBuffer name w w') (hfeeds : w'.feeds = w.feeds)
    (records : List ChangeRecord) : SameBuffer name (w.feed records) (w'.feed records) := by
  have hnames : ∀ (names : List String) {w w' : World} (r : ChangeRecord), SameBuffer name w w' →
      SameBuffer name (names.foldl (fun w name => w.push name r) w)
        (names.foldl (fun w name => w.push name r) w') := by
    intro names
    induction names with
    | nil => exact fun _ h => h
    | cons first rest ih => exact fun r h => ih r (h.push first r)
  induction records generalizing w w' with
  | nil => exact h
  | cons r rest ih =>
    obtain ⟨_, _, hfed⟩ := feed_eq w [r]
    obtain ⟨_, _, hfed'⟩ := feed_eq w' [r]
    have hfirst : SameBuffer name (w.feed [r]) (w'.feed [r]) := by
      show SameBuffer name (w.feeds.foldl _ w) (w'.feeds.foldl _ w')
      rw [hfeeds]
      exact hnames w.feeds r h
    have hfeeds₁ : (w'.feed [r]).feeds = (w.feed [r]).feeds := by
      rw [hfed, hfed']
      exact hfeeds
    exact ih hfirst hfeeds₁

/-- A call that may be made to fail changes nothing in buffers. -/
theorem sameBuffer_faults (name : String) (w : World) (faults : Faults) :
    SameBuffer name w { w with faults := faults } :=
  ⟨rfl, fun _ => rfl, fun _ => rfl, fun _ _ _ => rfl⟩

theorem drain_sameBuffer (hother : other ≠ name) (hwrites : (w.buffer other).writes = []) :
    SameBuffer name w (w.drain other).2 := by
  obtain ⟨faults, hstruck⟩ : ∃ faults, (w.strike .drain).2 = { w with faults := faults } := ⟨_, rfl⟩
  have hfaults := sameBuffer_faults name w faults
  rcases hstrike : w.strike .drain with ⟨_ | failure, w₁⟩
  · obtain rfl : w₁ = { w with faults := faults } := by rw [← hstruck, hstrike]
    have hwrite : writeOnDrain { w with faults := faults } other = (.ok (), { w with faults := faults }) := by
      have hnone : (buffer { w with faults := faults } other).writes = [] := hwrites
      simp only [writeOnDrain, hnone]
    simp only [drain, hstrike, hwrite]
    split
    · rename_i m hstore
      exact hfaults.trans (sameBuffer_putBuffer hother (by rw [hstore]; rfl))
    · rename_i file q hstore
      exact hfaults.trans (sameBuffer_putBuffer hother (by rw [hstore]; rfl))
  · obtain rfl : w₁ = { w with faults := faults } := by rw [← hstruck, hstrike]
    simpa only [drain, hstrike] using hfaults

/-- Whoever acknowledges takes nothing from a buffer in another place. -/
theorem ack_sameBuffer (hother : other ≠ name)
    (hplace : ∀ place, (w.buffer other).store.place = some place → (w.buffer name).store.place ≠ some place) :
    SameBuffer name w (w.ack other).2 := by
  obtain ⟨faults, hstruck⟩ : ∃ faults, (w.strike .ack).2 = { w with faults := faults } := ⟨_, rfl⟩
  have hfaults := sameBuffer_faults name w faults
  rcases hstrike : w.strike .ack with ⟨_ | failure, w₁⟩
  · obtain rfl : w₁ = { w with faults := faults } := by rw [← hstruck, hstrike]
    simp only [ack, hstrike]
    split
    · rename_i m hstore
      exact hfaults.trans (sameBuffer_putBuffer hother (by rw [hstore]; rfl))
    · rename_i file q hstore
      have hstore : (w.buffer other).store = .queue file q := hstore
      have hput : SameBuffer name { w with faults := faults }
          (putQueue { w with faults := faults } file (q.ack (w.queue file)).2) := by
        refine ⟨rfl, fun _ => rfl, fun third => ?_, fun third channel hown => ?_⟩
        · rw [queue_putQueue]
          split
          · rename_i heq
            rw [ChangeQueue.lastId_ack, queue_congr heq.symm]
            rfl
          · rfl
        · rw [queue_putQueue]
          split
          · rename_i heq
            have hchannel : q.channel ≠ channel := by
              rintro rfl
              refine hplace (filePlace file, q.channel) (by rw [hstore]; rfl) ?_
              rw [heq]
              exact hown
            rw [ChangeQueue.pending_ack, if_neg hchannel, queue_congr heq.symm]
            rfl
          · rfl
      refine (hfaults.trans hput).trans (sameBuffer_putBuffer hother ?_)
      show BufferStore.place (.queue file (q.ack (w.queue file)).1) = (w.buffer other).store.place
      rw [hstore]
      unfold QueueBuffer.ack
      cases q.lastDrained <;> rfl
  · obtain rfl : w₁ = { w with faults := faults } := by rw [← hstruck, hstrike]
    simpa only [ack, hstrike] using hfaults

end World

end DocSync
