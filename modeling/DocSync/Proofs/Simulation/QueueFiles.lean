import DocSync.Proofs.Simulation.Buffers
import Mathlib.Algebra.Group.Nat.Defs
import Mathlib.Data.List.Basic

/-!
A queue file in use: pushes, batches, acknowledgements, counts and vacuums of any channels, with the file closed
and opened again in between.  Main statement: each channel is a first-in first-out line of the entries that
were pushed to it and that no later acknowledgement of it covers.
-/

namespace DocSync

/-- What is done with a queue file. -/
inductive QueueStep where
  | push (channel : String) (entry : NewEntry)
  | fetch (channel : String) (limit : Nat)
  | ack (channel : String) (id : Int)
  | count (channel : String)
  | vacuum
  /-- The file is closed, and opened under a path. -/
  | reopen (path : String)

namespace QueueStep

@[reducible] def Answer : QueueStep → Type
  | push .. | ack .. | count _ | vacuum => Nat
  | fetch .. => List QueueEntry
  | reopen _ => Unit

/-- Whether a step stays on the file. -/
def Stays (file : String) : QueueStep → Prop
  | reopen path => World.filePlace path = World.filePlace file
  | _ => True

/-- Whether a step pushes to a channel or acknowledges in it. -/
def Changes (channel : String) : QueueStep → Prop
  | push other _ | ack other _ => other = channel
  | _ => False

def run (step : QueueStep) (s : World × String) : step.Answer × (World × String) :=
  let on {α : Type} (operation : ChangeQueue → α × ChangeQueue) : α × (World × String) :=
    let (answer, w) := s.1.onQueue s.2 operation
    (answer, (w, s.2))
  match step with
  | push channel entry => on (·.push channel entry)
  | fetch channel limit => on fun q => (q.fetchBatch channel limit, q)
  | ack channel id => on (·.ackUpTo channel id)
  | count channel => on fun q => (q.pendingCount channel, q)
  | vacuum => on (·.vacuum)
  | reopen path => ((), (s.1.closeQueue s.2, path))

end QueueStep

abbrev QueueTurn := (step : QueueStep) × step.Answer

namespace QueueTurn

/-- The id that a push gives. -/
def given : QueueTurn → List Nat
  | ⟨.push .., id⟩ => [id]
  | _ => []

/-- What a push puts into a channel. -/
def pushed (channel : String) : QueueTurn → List QueueEntry
  | ⟨.push other entry, id⟩ => if other = channel then [⟨id, other, entry, false⟩] else []
  | _ => []

def covers (e : QueueEntry) : QueueTurn → Bool
  | ⟨.ack channel id, _⟩ => channel == e.channel && decide ((e.id : Int) ≤ id)
  | _ => false

end QueueTurn

/-- The entries of a channel that were pushed and that no later acknowledgement covers, in the order of their
pushes. -/
def owed (channel : String) : List QueueTurn → List QueueEntry
  | [] => []
  | turn :: later => ((turn.pushed channel).filter fun e => !later.any (·.covers e)) ++ owed channel later

theorem owed_concat (channel : String) (turns : List QueueTurn) (turn : QueueTurn) :
    owed channel (turns ++ [turn]) =
      ((owed channel turns).filter fun e => !turn.covers e) ++ turn.pushed channel := by
  induction turns with
  | nil => simp [owed]
  | cons first rest ih =>
    rw [List.cons_append, owed, owed, ih, List.filter_append, List.filter_filter, List.append_assoc]
    congr 1
    exact List.filter_congr fun e _ => by simp [Bool.and_comm]

/-- The answer of a turn after others: a batch is the front of what is owed, a count its length, and an
acknowledgement gives how many entries it takes. -/
def QueueTurn.IsDue (before : List QueueTurn) : QueueTurn → Prop
  | ⟨.fetch channel limit, batch⟩ => batch = (owed channel before).take limit
  | ⟨.count channel, count⟩ => count = (owed channel before).length
  | ⟨.ack channel id, taken⟩ => taken = (owed channel before).countP fun e => decide ((e.id : Int) ≤ id)
  | _ => True

namespace World

/-- A queue file is used in turn, closed and opened again under any path of its place. -/
inductive UsesQueue (start : World × String) : List QueueTurn → World × String → Prop
  | opened : UsesQueue start [] start
  | step {turns : List QueueTurn} {s : World × String} (step : QueueStep) :
      UsesQueue start turns s → step.Stays s.2 →
        UsesQueue start (turns ++ [⟨step, (step.run s).1⟩]) (step.run s).2

/-- A queue that holds what turns owe, with all ids given from below. -/
structure HoldsOwed (turns : List QueueTurn) (q : ChangeQueue) : Prop where
  pending : ∀ channel, q.pending channel = owed channel turns
  sorted : (turns.flatMap QueueTurn.given).Pairwise (· < ·)
  given : ∀ id ∈ turns.flatMap QueueTurn.given, id ≤ q.lastId
  last : q.lastId = 0 ∨ q.lastId ∈ turns.flatMap QueueTurn.given
  few : q.entries.length ≤ q.lastId

variable {turns : List QueueTurn} {q : ChangeQueue}

theorem HoldsOwed.push (h : HoldsOwed turns q) (channel : String) (entry : NewEntry) :
    HoldsOwed (turns ++ [⟨.push channel entry, (q.push channel entry).1⟩]) (q.push channel entry).2 := by
  refine ⟨fun other => ?_, ?_, ?_, ?_, ?_⟩
  · rw [ChangeQueue.pending_push_eq, owed_concat, h.pending]
    simp [QueueTurn.covers, QueueTurn.pushed, ChangeQueue.push]
  · rw [List.flatMap_append, List.pairwise_append]
    refine ⟨h.sorted, by simp [QueueTurn.given], fun id hid new hnew => ?_⟩
    have hbelow := h.given id hid
    simp only [List.flatMap_cons, List.flatMap_nil, List.append_nil, QueueTurn.given,
      List.mem_singleton, ChangeQueue.push] at hnew
    omega
  · intro id hid
    have hlast : (q.push channel entry).2.lastId = q.lastId + 1 := rfl
    rw [List.flatMap_append, List.mem_append] at hid
    rcases hid with hid | hid
    · have := h.given id hid
      omega
    · simp only [List.flatMap_cons, List.flatMap_nil, List.append_nil, QueueTurn.given,
        List.mem_singleton] at hid
      exact Nat.le_of_eq hid
  · right
    simp [QueueTurn.given, ChangeQueue.push]
  · have hfew := h.few
    simp only [ChangeQueue.push, List.length_append, List.length_singleton]
    omega

/-- A turn that gives no id keeps the ids, and holds what it owes if its entries are no more. -/
theorem HoldsOwed.keep (h : HoldsOwed turns q) {turn : QueueTurn} {q' : ChangeQueue} (hgiven : turn.given = [])
    (hlast : q'.lastId = q.lastId) (hfew : q'.entries.length ≤ q.entries.length)
    (hpending : ∀ channel, q'.pending channel = owed channel (turns ++ [turn])) :
    HoldsOwed (turns ++ [turn]) q' := by
  have hsame : (turns ++ [turn]).flatMap QueueTurn.given = turns.flatMap QueueTurn.given := by simp [hgiven]
  refine ⟨hpending, ?_, ?_, ?_, ?_⟩
  · rw [hsame]
    exact h.sorted
  · rw [hsame, hlast]
    exact h.given
  · rw [hsame, hlast]
    exact h.last
  · rw [hlast]
    exact Nat.le_trans hfew h.few

theorem HoldsOwed.ack (h : HoldsOwed turns q) (channel : String) (id : Int) (taken : Nat) :
    HoldsOwed (turns ++ [⟨.ack channel id, taken⟩]) (q.ackUpTo channel id).2 := by
  refine h.keep rfl rfl (by simp [ChangeQueue.ackUpTo]) fun other => ?_
  rw [ChangeQueue.pending_ackUpTo, owed_concat, ← h.pending]
  have hnone : QueueTurn.pushed other ⟨.ack channel id, taken⟩ = [] := rfl
  rw [hnone, List.append_nil]
  -- What the queue covers depends on the flag too, but what is pending is not acknowledged.
  refine List.filter_congr fun e he => ?_
  have hpending : e.channel = other ∧ e.acked = false := by simpa using (List.mem_filter.mp he).2
  rw [ChangeQueue.covers_eq_of_mem_pending he, QueueTurn.covers, hpending.1]

theorem owed_concat_of_quiet {turn : QueueTurn} (hcovers : ∀ e, turn.covers e = false)
    (channel : String) (hpushed : turn.pushed channel = []) :
    owed channel (turns ++ [turn]) = owed channel turns := by
  rw [owed_concat, hpushed, List.append_nil]
  exact List.filter_eq_self.mpr fun e _ => by rw [hcovers, Bool.not_false]

theorem HoldsOwed.vacuum (h : HoldsOwed turns q) (removed : Nat) :
    HoldsOwed (turns ++ [⟨.vacuum, removed⟩]) q.vacuum.2 := by
  refine h.keep rfl rfl (List.length_filter_le _ _) fun channel => ?_
  rw [ChangeQueue.pending_vacuum, h.pending, owed_concat_of_quiet (fun _ => rfl) channel rfl]

theorem HoldsOwed.same (h : HoldsOwed turns q) {turn : QueueTurn} (hgiven : turn.given = [])
    (hcovers : ∀ e, turn.covers e = false) (hpushed : ∀ channel, turn.pushed channel = []) :
    HoldsOwed (turns ++ [turn]) q := by
  refine h.keep hgiven rfl (Nat.le_refl _) fun channel => ?_
  rw [owed_concat_of_quiet hcovers channel (hpushed channel), h.pending]

/-- Ids are words, so a batch has never more entries than a signed word counts. -/
theorem HoldsOwed.fetchBatch (h : HoldsOwed turns q) (hids : ∀ id ∈ turns.flatMap QueueTurn.given, id < 2 ^ 63)
    (channel : String) (limit : Nat) : q.fetchBatch channel limit = (owed channel turns).take limit := by
  rw [ChangeQueue.fetchBatch, ← h.pending]
  split
  · rfl
  · rename_i hlimit
    have hlast : q.lastId < 2 ^ 63 := by
      rcases h.last with hzero | hgiven
      · omega
      · exact hids _ hgiven
    have hword : 1 <<< 63 = 2 ^ 63 := rfl
    have hlength : (q.pending channel).length ≤ q.entries.length := List.length_filter_le _ _
    have hfew := h.few
    exact (List.take_of_length_le (show (q.pending channel).length ≤ limit by omega)).symm

theorem HoldsOwed.countP (h : HoldsOwed turns q) (channel : String) (id : Int) :
    (q.ackUpTo channel id).1 = (owed channel turns).countP fun e => decide ((e.id : Int) ≤ id) := by
  rw [← h.pending, ChangeQueue.pending, List.countP_filter]
  refine List.countP_congr fun e _ => ?_
  simp only [ChangeQueue.covers, Bool.and_comm, Bool.and_assoc]

variable {w : World} {file : String} {s start : World × String}

theorem queue_onQueue {α : Type} (operation : ChangeQueue → α × ChangeQueue) :
    (w.onQueue file operation).2.queue file = (operation (w.queue file)).2 := by
  rw [onQueue, queue_putQueue, if_pos rfl]

theorem closeQueue_of_ne (hfile : filePlace file ≠ ":memory:") : w.closeQueue file = w := by
  have hname : file ≠ ":memory:" := by
    rintro rfl
    exact hfile (by decide +kernel)
  exact if_neg hname

theorem HoldsOwed.step (hplace : filePlace s.2 ≠ ":memory:") (h : HoldsOwed turns (s.1.queue s.2))
    (step : QueueStep) (hstays : step.Stays s.2) :
    HoldsOwed (turns ++ [⟨step, (step.run s).1⟩]) ((step.run s).2.1.queue (step.run s).2.2) := by
  cases step with
  | push channel entry =>
    simp only [QueueStep.run, queue_onQueue]
    exact h.push channel entry
  | fetch channel limit =>
    simp only [QueueStep.run, queue_onQueue]
    exact h.same rfl (fun _ => rfl) fun _ => rfl
  | ack channel id =>
    simp only [QueueStep.run, queue_onQueue]
    exact h.ack channel id _
  | count channel =>
    simp only [QueueStep.run, queue_onQueue]
    exact h.same rfl (fun _ => rfl) fun _ => rfl
  | vacuum =>
    simp only [QueueStep.run, queue_onQueue]
    exact h.vacuum _
  | reopen path =>
    simp only [QueueStep.run, closeQueue_of_ne hplace, queue_congr hstays]
    exact h.same rfl (fun _ => rfl) fun _ => rfl

theorem filePlace_run (step : QueueStep) (hstays : step.Stays s.2) :
    filePlace (step.run s).2.2 = filePlace s.2 := by
  cases step with
  | reopen path => exact hstays
  | _ => rfl

theorem UsesQueue.holdsOwed (h : UsesQueue start turns s) (hplace : filePlace start.2 ≠ ":memory:")
    (hnew : start.1.queue start.2 = .empty) :
    filePlace s.2 ≠ ":memory:" ∧ HoldsOwed turns (s.1.queue s.2) := by
  induction h with
  | opened =>
    refine ⟨hplace, ?_⟩
    rw [hnew]
    exact ⟨fun _ => rfl, .nil, by simp, .inl rfl, Nat.le_refl _⟩
  | step step _ hstays ih =>
    refine ⟨?_, ih.2.step ih.1 step hstays⟩
    rw [filePlace_run step hstays]
    exact ih.1

theorem HoldsOwed.isDue (h : HoldsOwed turns (s.1.queue s.2))
    (hids : ∀ id ∈ turns.flatMap QueueTurn.given, id < 2 ^ 63) (step : QueueStep) :
    QueueTurn.IsDue turns ⟨step, (step.run s).1⟩ := by
  cases step with
  | fetch channel limit => exact h.fetchBatch hids channel limit
  | count channel => exact congrArg List.length (h.pending channel)
  | ack channel id => exact h.countP channel id
  | push | vacuum | reopen => trivial

theorem UsesQueue.isDue (h : UsesQueue start turns s) (hplace : filePlace start.2 ≠ ":memory:")
    (hnew : start.1.queue start.2 = .empty) (hids : ∀ id ∈ turns.flatMap QueueTurn.given, id < 2 ^ 63)
    {before : List QueueTurn} {turn : QueueTurn} (hturn : before ++ [turn] <+: turns) : turn.IsDue before := by
  induction h with
  | opened => exact absurd (List.prefix_nil.mp hturn) (by simp)
  | step step huses _ ih =>
    have hbefore : ∀ id ∈ List.flatMap QueueTurn.given _, id < 2 ^ 63 := fun id hid =>
      hids id (by rw [List.flatMap_append]; exact List.mem_append_left _ hid)
    rcases List.prefix_concat_iff.mp hturn with hlast | hturn
    · obtain ⟨rfl, hsame⟩ := List.append_inj' hlast rfl
      rw [List.singleton_inj.mp hsame]
      exact (huses.holdsOwed hplace hnew).2.isDue hbefore step
    · exact ih hbefore hturn

theorem channel_of_mem_owed {channel : String} {e : QueueEntry} (he : e ∈ owed channel turns) :
    e.channel = channel := by
  induction turns with
  | nil => simp [owed] at he
  | cons first rest ih =>
    rw [owed, List.mem_append, List.mem_filter] at he
    rcases he with ⟨hpushed, -⟩ | hrest
    · obtain ⟨step, answer⟩ := first
      cases step with
      | push other entry =>
        rw [QueueTurn.pushed] at hpushed
        split at hpushed
        · rename_i hother
          rw [List.mem_singleton.mp hpushed]
          exact hother
        · contradiction
      | _ => contradiction
    · exact ih hrest

theorem owed_concat_of_not_changes {channel : String} {turn : QueueTurn} (h : ¬ turn.1.Changes channel) :
    owed channel (turns ++ [turn]) = owed channel turns := by
  obtain ⟨step, answer⟩ := turn
  cases step with
  | push other entry =>
    have hother : other ≠ channel := h
    rw [owed_concat, QueueTurn.pushed, if_neg hother, List.append_nil]
    exact List.filter_eq_self.mpr fun _ _ => rfl
  | ack other id =>
    have hnone : QueueTurn.pushed channel ⟨.ack other id, answer⟩ = [] := rfl
    rw [owed_concat, hnone, List.append_nil]
    -- An acknowledgement looks at the channel of an entry, which is the one it is owed in.
    refine List.filter_eq_self.mpr fun e he => ?_
    have hother : other ≠ e.channel := by
      rw [channel_of_mem_owed he]
      exact h
    simp [QueueTurn.covers, hother]
  | fetch | count | vacuum | reopen => exact owed_concat_of_quiet (fun _ => rfl) channel rfl

theorem fetchBatch_congr {q' : ChangeQueue} {channel : String} (h : q'.pending channel = q.pending channel)
    (limit : Nat) : q'.fetchBatch channel limit = q.fetchBatch channel limit := by
  simp only [ChangeQueue.fetchBatch, ChangeQueue.fetch, h]

/-- **A queue file is a durable line for each channel.**  Of a file that is new, the ids that pushes give grow;
a batch of a channel is the front of the entries that were pushed to it and that no later acknowledgement of it
covers, and a count is how many there are; and neither a vacuum, nor to open the file again, nor what is done
with other channels changes what a batch or a count of a channel gives.  Ids are signed words. -/
theorem queue_file_keeps_lines {w : World} {file : String} {turns : List QueueTurn} {s : World × String}
    (hplace : filePlace file ≠ ":memory:") (hnew : w.queue file = .empty) (h : UsesQueue (w, file) turns s)
    (hids : ∀ id ∈ turns.flatMap QueueTurn.given, id < 2 ^ 63) :
    (turns.flatMap QueueTurn.given).Pairwise (· < ·) ∧
    (∀ before turn, before ++ [turn] <+: turns → turn.IsDue before) ∧
    ∀ step : QueueStep, step.Stays s.2 → ∀ channel, ¬ step.Changes channel → ∀ limit,
      ((QueueStep.fetch channel limit).run (step.run s).2).1 = ((QueueStep.fetch channel limit).run s).1 ∧
      ((QueueStep.count channel).run (step.run s).2).1 = ((QueueStep.count channel).run s).1 := by
  obtain ⟨hafter, hholds⟩ := h.holdsOwed hplace hnew
  refine ⟨hholds.sorted, fun before turn hturn => h.isDue hplace hnew hids hturn,
    fun step hstays channel hquiet limit => ?_⟩
  have hpending : ((step.run s).2.1.queue (step.run s).2.2).pending channel = (s.1.queue s.2).pending channel := by
    rw [(hholds.step hafter step hstays).pending, hholds.pending]
    exact owed_concat_of_not_changes hquiet
  exact ⟨fetchBatch_congr hpending limit, congrArg List.length hpending⟩

/-- An acknowledgement beyond the last id takes only what is there, and an entry that is pushed after it stays
through a vacuum and through the file's closing. -/
theorem queue_file_keeps_lines_reopened :
    let w := World.empty default default "data" "postgres://localhost/shop"
    let entry (key : String) : NewEntry := ⟨"book", .insert, key, none, some 7⟩
    ∃ turns s, UsesQueue (w, "queue.db") turns s ∧
      turns.map Sigma.fst = [.push "books" (entry "a"), .push "authors" (entry "b"), .ack "books" 10,
        .push "books" (entry "c"), .vacuum, .reopen "./queue.db"] ∧
      (turns.flatMap QueueTurn.given).Pairwise (· < ·) ∧
      owed "books" turns = [⟨3, "books", entry "c", false⟩] := by
  intro w entry
  have hpushed : UsesQueue (w, "queue.db") _ _ :=
    .step (.push "authors" (entry "b")) (.step (.push "books" (entry "a")) .opened trivial) trivial
  have hacked := UsesQueue.step (.push "books" (entry "c")) (.step (.ack "books" 10) hpushed trivial) trivial
  have hreopened := UsesQueue.step (.reopen "./queue.db") (.step .vacuum hacked trivial)
    (show filePlace "./queue.db" = filePlace "queue.db" by decide +kernel)
  have hlines := queue_file_keeps_lines (by decide +kernel) rfl hreopened (by decide +kernel +zetaReduce)
  exact ⟨_, _, hreopened, rfl, hlines.1, by decide +kernel +zetaReduce⟩

end World

end DocSync
