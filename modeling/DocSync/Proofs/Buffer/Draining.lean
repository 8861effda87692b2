import DocSync.Buffer.Memory
import DocSync.Proofs.Buffer.Queue
import Mathlib.Data.List.Basic
import Mathlib.Data.List.Induction

/-!
What buffers hand out.  An account of a buffer holds what was pushed, what the drains returned, and what the
acknowledgements removed: each removes what the latest drain returned.  Main statement: whatever is done to
a buffer in memory or to the buffer of a channel of a queue, a drain returns what was pushed and not removed
yet, in order of arrival and as far as the limit of the buffer goes.
-/

namespace DocSync

/-- The record can be queued: its text reads back as the record. -/
def ChangeRecord.Readable (r : ChangeRecord) : Prop := ChangeRecord.ofText? r.toJson.render = some r

/-- What is done to a buffer. -/
inductive BufferStep where
  | push (record : ChangeRecord)
  | drain
  | ack

/-- What was done to a buffer, as its user knows it. -/
structure BufferAccount where
  pushed : List ChangeRecord
  removed : List ChangeRecord
  /-- What the latest drain returned, nothing when an acknowledgement came after it. -/
  returned : List ChangeRecord
  /-- What each drain returned. -/
  drains : List (List ChangeRecord)
deriving Inhabited

namespace BufferAccount

def opened : BufferAccount := ⟨[], [], [], []⟩

/-- Enters a step with the records that it returned. -/
def enter (a : BufferAccount) (answer : List ChangeRecord) : BufferStep → BufferAccount
  | .push record => { a with pushed := a.pushed ++ [record] }
  | .drain => { a with returned := answer, drains := a.drains ++ [answer] }
  | .ack => { a with removed := a.removed ++ a.returned, returned := [] }

end BufferAccount

/-- Steps on a buffer in turn: the account of them, and the buffer after them. -/
def observe {σ : Type} (act : BufferStep → σ → List ChangeRecord × σ) (buffer : σ)
    (steps : List BufferStep) : BufferAccount × σ :=
  steps.foldl (fun (account, buffer) step =>
    let (answer, buffer) := act step buffer
    (account.enter answer step, buffer)) (.opened, buffer)

theorem observe_append {σ : Type} {act : BufferStep → σ → List ChangeRecord × σ} {buffer : σ}
    (steps : List BufferStep) (step : BufferStep) :
    observe act buffer (steps ++ [step]) =
      let (account, b) := observe act buffer steps
      (account.enter (act step b).1 step, (act step b).2) := by
  rw [observe, List.foldl_append]
  rfl

namespace MemoryBuffer

/-- A step, with the records that it returns. -/
def act : BufferStep → MemoryBuffer → List ChangeRecord × MemoryBuffer
  | .push record, b => ([], b.push record)
  | .drain, b => b.drain
  | .ack, b => ([], b.ack)

/-- A buffer holds what its account says is left, and remembers what the latest drain returned. -/
structure Accounted (a : BufferAccount) (b : MemoryBuffer) : Prop where
  kept : a.pushed = a.removed ++ b.pending
  returned : a.returned = b.pending.take b.drained
  drained : b.drained ≤ b.pending.length

variable {a : BufferAccount} {b : MemoryBuffer}

theorem Accounted.step (h : Accounted a b) (step : BufferStep) :
    Accounted (a.enter (act step b).1 step) (act step b).2 := by
  cases step with
  | push record =>
    refine ⟨?_, ?_, ?_⟩
    · simp [BufferAccount.enter, act, push, h.kept]
    · simp [BufferAccount.enter, act, push, h.returned, List.take_append_of_le_length h.drained]
    · simp only [act, push, List.length_append]
      exact Nat.le_add_right_of_le h.drained
  | drain => exact ⟨h.kept, (List.take_length).symm, Nat.le_refl _⟩
  | ack =>
    refine ⟨?_, rfl, Nat.zero_le _⟩
    simp only [BufferAccount.enter, act, ack, h.returned, List.append_assoc, List.take_append_drop]
    exact h.kept

theorem observe_accounted (steps : List BufferStep) :
    Accounted (observe act .empty steps).1 (observe act .empty steps).2 := by
  induction steps using List.reverseRecOn with
  | nil => exact ⟨rfl, rfl, Nat.le_refl _⟩
  | append_singleton steps step ih =>
    rw [observe_append]
    exact ih.step step

end MemoryBuffer

namespace QueueBuffer

/-- A step on a buffer and its queue, with the records that it returns. -/
def act : BufferStep → QueueBuffer × ChangeQueue → List ChangeRecord × (QueueBuffer × ChangeQueue)
  | .push record, (b, q) => ([], b, b.push q record)
  | .drain, (b, q) => ((b.drain q).1, (b.drain q).2, q)
  | .ack, (b, q) => ([], b.ack q)

/-- The records of pending entries, nothing for an entry that holds no record. -/
def recordsOf (entries : List QueueEntry) : List (Option ChangeRecord) :=
  entries.map fun e => e.entry.payload.bind ChangeRecord.ofText?

/-- The channel of a buffer holds what its account says is `left`, under growing ids; the buffer remembers
the last of the entries that the latest drain returned. -/
structure Accounted (left : List ChangeRecord) (a : BufferAccount) (b : QueueBuffer) (q : ChangeQueue) :
    Prop where
  kept : a.pushed = a.removed ++ left
  held : recordsOf (q.pending b.channel) = left.map some
  growing : (q.pending b.channel).Pairwise (·.id < ·.id)
  given : ∀ e ∈ q.pending b.channel, e.id ≤ q.lastId
  returned : ∃ n ≤ left.length, a.returned = left.take n ∧
    b.lastDrained = ((q.pending b.channel).take n).getLast?.map QueueEntry.id

variable {left : List ChangeRecord} {a : BufferAccount} {b : QueueBuffer} {q : ChangeQueue}

/-- Of entries under growing ids those behind the first `n` have the greater ids. -/
theorem filter_id_eq_drop {entries : List QueueEntry} (h : entries.Pairwise (·.id < ·.id)) (n : Nat) :
    entries.filter (fun e => ((entries.take n).getLast?.map QueueEntry.id).all (· < e.id)) =
      entries.drop n := by
  rw [← List.take_append_drop n entries, List.pairwise_append] at h
  obtain ⟨hfront, -, hacross⟩ := h
  rcases List.eq_nil_or_concat' (entries.take n) with hnil | ⟨front, last, hlast⟩
  · have hall : entries.drop n = entries := by
      have := List.take_append_drop n entries
      rwa [hnil, List.nil_append] at this
    simp [hnil, hall]
  · rw [hlast] at hfront hacross
    simp only [hlast, List.getLast?_concat, Option.map_some, Option.all_some]
    conv_lhs => rw [← List.take_append_drop n entries, List.filter_append, hlast]
    have hnone : (front ++ [last]).filter (fun e => decide (last.id < e.id)) = [] := by
      refine List.filter_eq_nil_iff.mpr fun e he => ?_
      rcases List.mem_append.mp he with he | he
      · have := (List.pairwise_append.mp hfront).2.2 e he last (by simp)
        simpa using Nat.le_of_lt this
      · simp [List.mem_singleton.mp he]
    rw [hnone, List.nil_append]
    exact List.filter_eq_self.mpr fun e he => by simpa using hacross last (by simp) e he

theorem Accounted.length_eq (h : Accounted left a b q) : (q.pending b.channel).length = left.length := by
  simpa [recordsOf] using congrArg List.length h.held

/-- A drain returns the first records that are left. -/
theorem Accounted.drain_eq (h : Accounted left a b q) : (b.drain q).1 = left.take b.limit := by
  have htaken : recordsOf ((q.pending b.channel).take b.limit) = (left.take b.limit).map some := by
    rw [recordsOf, List.map_take, ← recordsOf, h.held, List.map_take]
  calc (b.drain q).1 = (recordsOf ((q.pending b.channel).take b.limit)).filterMap id := by
        rw [recordsOf, List.filterMap_map]
        rfl
    _ = left.take b.limit := by rw [htaken, List.filterMap_map]; exact List.filterMap_some

theorem Accounted.push (h : Accounted left a b q) {record : ChangeRecord} (hreadable : record.Readable) :
    Accounted (left ++ [record]) (a.enter [] (.push record)) b (b.push q record) := by
  have hpending : (b.push q record).pending b.channel =
      q.pending b.channel ++ [⟨q.lastId + 1, b.channel, entryOf record, false⟩] := by
    rw [QueueBuffer.push, ChangeQueue.pending_push_eq, if_pos rfl]
  obtain ⟨n, hn, hreturned, hlast⟩ := h.returned
  refine ⟨?_, ?_, ?_, ?_, n, ?_, ?_, ?_⟩
  · simp [BufferAccount.enter, h.kept]
  · rw [hpending, recordsOf, List.map_append, ← recordsOf, h.held, List.map_append]
    exact congrArg (left.map some ++ [·]) hreadable
  · rw [hpending]
    refine List.pairwise_append.mpr ⟨h.growing, List.pairwise_singleton _ _, fun e he new hnew => ?_⟩
    rw [List.mem_singleton.mp hnew]
    exact Nat.lt_succ_of_le (h.given e he)
  · rw [hpending]
    intro e he
    rcases List.mem_append.mp he with he | he
    · exact Nat.le_succ_of_le (h.given e he)
    · exact Nat.le_of_eq (congrArg QueueEntry.id (List.mem_singleton.mp he))
  · exact Nat.le_trans hn (by simp)
  · rw [List.take_append_of_le_length hn]
    exact hreturned
  · rw [hpending, List.take_append_of_le_length (h.length_eq ▸ hn)]
    exact hlast

theorem Accounted.drain (h : Accounted left a b q) :
    Accounted left (a.enter (b.drain q).1 .drain) (b.drain q).2 q := by
  refine ⟨h.kept, h.held, h.growing, h.given, min b.limit left.length, Nat.min_le_right _ _, ?_, ?_⟩
  · rw [BufferAccount.enter, h.drain_eq, ← List.take_eq_take_min]
  · rw [QueueBuffer.drain, ChangeQueue.fetch, ← h.length_eq, ← List.take_eq_take_min]

/-- An acknowledgement removes what the latest drain returned, and nothing behind it. -/
theorem Accounted.ack (h : Accounted left a b q) :
    Accounted (left.drop a.returned.length) (a.enter [] .ack) (b.ack q).1 (b.ack q).2 := by
  obtain ⟨n, hn, hreturned, hlast⟩ := h.returned
  have hlength : a.returned.length = n := by rw [hreturned, List.length_take, Nat.min_eq_left hn]
  have hchannel : (b.ack q).1.channel = b.channel := by unfold QueueBuffer.ack; split <;> rfl
  have hforgot : (b.ack q).1.lastDrained = none := by
    unfold QueueBuffer.ack
    split
    · rfl
    · assumption
  have hpending : (b.ack q).2.pending b.channel = (q.pending b.channel).drop n := by
    rw [ChangeQueue.pending_ack, if_pos rfl, hlast]
    exact filter_id_eq_drop h.growing n
  rw [hlength]
  refine ⟨?_, ?_, ?_, ?_, 0, Nat.zero_le _, rfl, ?_⟩
  · simp only [BufferAccount.enter, hreturned, List.append_assoc, List.take_append_drop]
    exact h.kept
  · rw [hchannel, hpending, recordsOf, List.map_drop, ← recordsOf, h.held, List.map_drop]
  · rw [hchannel, hpending]
    exact h.growing.sublist (List.drop_sublist n _)
  · rw [hchannel, hpending, ChangeQueue.lastId_ack]
    exact fun e he => h.given e (List.mem_of_mem_drop he)
  · exact hforgot

/-- A buffer keeps its channel and its limit. -/
theorem act_place (step : BufferStep) (b : QueueBuffer) (q : ChangeQueue) :
    (act step (b, q)).2.1.channel = b.channel ∧ (act step (b, q)).2.1.limit = b.limit := by
  cases step with
  | push => exact ⟨rfl, rfl⟩
  | drain => exact ⟨rfl, rfl⟩
  | ack =>
    simp only [act, QueueBuffer.ack]
    split <;> exact ⟨rfl, rfl⟩

theorem Accounted.step (h : Accounted left a b q) (step : BufferStep)
    (hreadable : ∀ record, step = .push record → record.Readable) :
    ∃ left, Accounted left (a.enter (act step (b, q)).1 step) (act step (b, q)).2.1 (act step (b, q)).2.2 := by
  cases step with
  | push record => exact ⟨_, h.push (hreadable record rfl)⟩
  | drain => exact ⟨_, h.drain⟩
  | ack => exact ⟨_, h.ack⟩

theorem observe_accounted (hfresh : b.lastDrained = none) (hempty : q.pending b.channel = [])
    (steps : List BufferStep) (hreadable : ∀ record, .push record ∈ steps → record.Readable) :
    ∃ left, Accounted left (observe act (b, q) steps).1 (observe act (b, q) steps).2.1
      (observe act (b, q) steps).2.2 := by
  induction steps using List.reverseRecOn with
  | nil =>
    refine ⟨[], rfl, ?_, ?_, ?_, 0, Nat.le_refl _, rfl, hfresh⟩
    · exact congrArg recordsOf hempty
    · exact hempty ▸ List.Pairwise.nil
    · exact fun e he => absurd (hempty ▸ he) List.not_mem_nil
  | append_singleton steps step ih =>
    obtain ⟨left, h⟩ := ih fun record hmem => hreadable record (List.mem_append_left _ hmem)
    rw [observe_append]
    exact h.step step fun record heq => hreadable record (by simp [heq])

theorem observe_place (steps : List BufferStep) (b : QueueBuffer) (q : ChangeQueue) :
    (observe act (b, q) steps).2.1.channel = b.channel ∧ (observe act (b, q) steps).2.1.limit = b.limit := by
  induction steps using List.reverseRecOn with
  | nil => exact ⟨rfl, rfl⟩
  | append_singleton steps step ih =>
    rw [observe_append]
    have hstep := act_place step (observe act (b, q) steps).2.1 (observe act (b, q) steps).2.2
    exact ⟨hstep.1.trans ih.1, hstep.2.trans ih.2⟩

end QueueBuffer

variable {b : QueueBuffer} {q : ChangeQueue}

/-- As long as a drain returns all that is pending, both kinds of buffer have the same account. -/
theorem observe_same (hfresh : b.lastDrained = none) (hempty : q.pending b.channel = [])
    (steps : List BufferStep) (hreadable : ∀ record, .push record ∈ steps → record.Readable)
    (hfits : ∀ before after, steps = before ++ .drain :: after →
      (observe MemoryBuffer.act .empty before).2.pending.length ≤ b.limit) :
    (observe QueueBuffer.act (b, q) steps).1 = (observe MemoryBuffer.act .empty steps).1 := by
  induction steps using List.reverseRecOn with
  | nil => rfl
  | append_singleton steps step ih =>
    have hreadable' : ∀ record, .push record ∈ steps → record.Readable := fun record hmem =>
      hreadable record (List.mem_append_left _ hmem)
    have hsame := ih hreadable' fun before after heq =>
      hfits before (after ++ [step]) (by rw [heq]; simp)
    obtain ⟨left, hqueue⟩ := QueueBuffer.observe_accounted hfresh hempty steps hreadable'
    have hmemory := MemoryBuffer.observe_accounted steps
    rw [observe_append, observe_append]
    simp only [hsame]
    cases step with
    | push record => rfl
    | ack => rfl
    | drain =>
      have hleft : left = (observe MemoryBuffer.act .empty steps).2.pending :=
        List.append_cancel_left ((hsame ▸ hqueue.kept).symm.trans hmemory.kept)
      have hall : ((observe QueueBuffer.act (b, q) steps).2.1.drain (observe QueueBuffer.act (b, q) steps).2.2).1 =
          (observe MemoryBuffer.act .empty steps).2.pending := by
        rw [hqueue.drain_eq, (QueueBuffer.observe_place steps b q).2, hleft]
        exact List.take_of_length_le (hfits steps [] rfl)
      exact congrArg (fun answer => (observe MemoryBuffer.act .empty steps).1.enter answer .drain) hall

/-- Whatever is done to a new buffer in memory, and to a new buffer of a channel with nothing pending: what
was pushed and not removed is pending, in order of arrival; a drain returns it, and that of a queue its first
records up to the limit.  While all that is pending fits in the limit, both buffers give the same answers. -/
theorem buffers_deliver (hfresh : b.lastDrained = none) (hempty : q.pending b.channel = [])
    (steps : List BufferStep) (hreadable : ∀ record, .push record ∈ steps → record.Readable) :
    (let (account, m) := observe MemoryBuffer.act .empty steps;
      account.pushed = account.removed ++ m.pending ∧ m.drain.1 = m.pending) ∧
    (let (account, b', q') := observe QueueBuffer.act (b, q) steps;
      ∃ left, account.pushed = account.removed ++ left ∧
        QueueBuffer.recordsOf (q'.pending b.channel) = left.map some ∧
        (b'.drain q').1 = left.take b.limit) ∧
    ((∀ before after, steps = before ++ .drain :: after →
        (observe MemoryBuffer.act .empty before).2.pending.length ≤ b.limit) →
      (observe QueueBuffer.act (b, q) steps).1 = (observe MemoryBuffer.act .empty steps).1) := by
  obtain ⟨left, hqueue⟩ := QueueBuffer.observe_accounted hfresh hempty steps hreadable
  obtain ⟨hchannel, hlimit⟩ := QueueBuffer.observe_place steps b q
  refine ⟨⟨(MemoryBuffer.observe_accounted steps).kept, rfl⟩, ⟨left, hqueue.kept, ?_, ?_⟩,
    observe_same hfresh hempty steps hreadable⟩
  · exact hchannel ▸ hqueue.held
  · exact hlimit ▸ hqueue.drain_eq

/-- The insert of a book. -/
def bookInsert (isbn : String) (txid : Nat) : ChangeRecord :=
  ⟨"book", .insert, [("isbn", .string isbn)], none, none, txid, txid⟩

def isBookInsert (isbn : String) (txid : Nat) : ChangeRecord → Bool
  | ⟨"book", .insert, [("isbn", .string isbn')], none, none, txid', position⟩ =>
    isbn' == isbn && txid' == txid && position == txid
  | _ => false

/-- That a text reads back as the insert can be computed, though records are not compared. -/
theorem readable_bookInsert {isbn : String} {txid : Nat}
    (h : (ChangeRecord.ofText? (bookInsert isbn txid).toJson.render).any (isBookInsert isbn txid) = true) :
    (bookInsert isbn txid).Readable := by
  obtain ⟨r, hr, his⟩ := (Option.any_eq_true _ _).mp h
  unfold isBookInsert at his
  split at his
  · simp_all [bookInsert, ChangeRecord.Readable]
  · contradiction

/-- A book, a drain, a second book, and an acknowledgement. -/
def twoBooks : List BufferStep := [.push (bookInsert "a" 1), .drain, .push (bookInsert "b" 2), .ack]

theorem readable_twoBooks : ∀ record, .push record ∈ twoBooks → record.Readable := by
  have ha : (bookInsert "a" 1).Readable := readable_bookInsert (by decide +kernel)
  have hb : (bookInsert "b" 2).Readable := readable_bookInsert (by decide +kernel)
  intro record hmem
  simp only [twoBooks, List.mem_cons, BufferStep.push.injEq, List.not_mem_nil, reduceCtorEq, or_false,
    false_or] at hmem
  rcases hmem with rfl | rfl
  · exact ha
  · exact hb

/-- One entry at a time from a queue that another channel uses too: of two books the second is left. -/
theorem buffers_deliver_second_book :
    let b := QueueBuffer.onChannel "books" 1
    let q := (ChangeQueue.empty.push "films" default).2
    b.lastDrained = none ∧ q.pending b.channel = [] ∧
    (observe MemoryBuffer.act .empty twoBooks).2.pending = [bookInsert "b" 2] ∧
    (observe QueueBuffer.act (b, q) twoBooks).1 = (observe MemoryBuffer.act .empty twoBooks).1 := by
  intro b q
  obtain ⟨⟨hkept, -⟩, -, hsame⟩ := buffers_deliver (b := b) (q := q) rfl rfl twoBooks readable_twoBooks
  refine ⟨rfl, rfl, (List.append_right_inj [bookInsert "a" 1]).mp hkept.symm, hsame ?_⟩
  intro before after heq
  have hbefore : before = [.push (bookInsert "a" 1)] := by
    rcases before with _ | ⟨_, _ | ⟨_, _ | ⟨_, _ | ⟨_, _⟩⟩⟩⟩ <;> simp_all [twoBooks]
  rw [hbefore]
  exact Nat.le_refl 1

end DocSync
