import DocSync.Buffer.Queue

/-!
What is pending in a channel of a queue.  A push puts an entry with a new id behind what is pending, and an
acknowledgement takes the entries of its channel up to an id.
-/

namespace DocSync

namespace ChangeQueue

theorem pending_push_eq (q : ChangeQueue) (channel other : String) (entry : NewEntry) :
    (q.push channel entry).2.pending other =
      q.pending other ++ if channel = other then [⟨q.lastId + 1, channel, entry, false⟩] else [] := by
  simp only [pending, push, List.filter_append]
  congr 1
  split
  · rename_i heq
    simp [heq]
  · rename_i hne
    simp [hne]

theorem pending_vacuum (q : ChangeQueue) (channel : String) : q.vacuum.2.pending channel = q.pending channel := by
  simp only [pending, vacuum, List.filter_filter]
  exact List.filter_congr fun e _ => by simp

/-- What an acknowledgement does not cover stays pending. -/
theorem pending_ackUpTo (q : ChangeQueue) (channel other : String) (id : Int) :
    (q.ackUpTo channel id).2.pending other = (q.pending other).filter fun e => !covers channel id e := by
  let acks (e : QueueEntry) : QueueEntry := if covers channel id e then { e with acked := true } else e
  simp only [pending, ackUpTo]
  rw [List.filter_map, List.filter_filter]
  -- The entries that are left were not acknowledged, so they are as before.
  have hsame : ∀ e ∈ q.entries.filter ((fun e => e.channel == other && !e.acked) ∘ acks), acks e = e := by
    intro e he
    have hnot : ¬ (acks e).acked = true := by simp_all
    exact if_neg fun hcovers => hnot (by simp [acks, hcovers])
  rw [List.map_congr_left hsame, List.map_id']
  refine List.filter_congr fun e _ => ?_
  by_cases hcovers : covers channel id e = true
  · simp [acks, hcovers]
  · simp [acks, hcovers]

/-- An acknowledgement covers pending entries of its channel only. -/
theorem covers_eq_of_mem_pending {q : ChangeQueue} {channel other : String} {e : QueueEntry}
    (he : e ∈ q.pending other) (id : Int) : covers channel id e = (channel == other && decide ((e.id : Int) ≤ id)) := by
  have hpending : e.channel = other ∧ e.acked = false := by simpa using (List.mem_filter.mp he).2
  rw [covers, hpending.1, hpending.2, Bool.not_false, Bool.and_true, BEq.comm]

/-- An acknowledgement takes entries of its channel only. -/
theorem pending_ackUpTo_vacuum (q : ChangeQueue) (channel other : String) (id : Nat) :
    (q.ackUpTo channel id).2.vacuum.2.pending other =
      if channel = other then (q.pending other).filter fun e => id < e.id else q.pending other := by
  rw [pending_vacuum, pending_ackUpTo]
  split
  · rename_i heq
    refine List.filter_congr fun e he => ?_
    rw [covers_eq_of_mem_pending he, heq, beq_self_eq_true, Bool.true_and, ← decide_not]
    exact decide_eq_decide.mpr (by omega)
  · rename_i hne
    refine List.filter_eq_self.mpr fun e he => ?_
    rw [covers_eq_of_mem_pending he]
    simp [hne]

theorem pending_ack (b : QueueBuffer) (q : ChangeQueue) (other : String) :
    (b.ack q).2.pending other =
      if b.channel = other then
        (q.pending other).filter fun e => b.lastDrained.all fun id => decide (id < e.id)
      else q.pending other := by
  unfold QueueBuffer.ack
  cases b.lastDrained with
  | none =>
    have hall : ((q.pending other).filter fun _ => true) = q.pending other :=
      List.filter_eq_self.mpr fun _ _ => rfl
    exact (ite_eq_right_iff.mpr fun _ => hall).symm
  | some id => simpa using pending_ackUpTo_vacuum q b.channel other id

theorem lastId_ack (b : QueueBuffer) (q : ChangeQueue) : (b.ack q).2.lastId = q.lastId := by
  unfold QueueBuffer.ack
  split <;> rfl

end ChangeQueue

end DocSync
