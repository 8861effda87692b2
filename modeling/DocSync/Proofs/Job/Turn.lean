import DocSync.Proofs.Job.Progress
import Mathlib.Logic.Basic

/-!
The calls of a cycle and their answers.  Main statement: whatever is answered, the calls that end a cycle
come last and in order, and what the cycle knows is what it was told.
-/

namespace DocSync

/-- A call with its answer. -/
abbrev Turn := (call : Call) × call.Answer

/-- The calls that end a cycle. -/
def Call.Closes : Call → Prop
  | .store (.save ..) => True
  | .source (.reclaim ..) => True
  | .buffer .ack => True
  | _ => False

namespace Turn

/-- The checkpoint is saved. -/
def Saves : Turn → Prop
  | ⟨.store (.save ..), .ok _⟩ => True
  | _ => False

/-- The records that a drain hands out. -/
def drained : Turn → List ChangeRecord
  | ⟨.buffer .drain, .ok records⟩ => records
  | _ => []

/-- The records that a drain or a pull hands out. -/
def records : Turn → List ChangeRecord
  | ⟨.source (.pull ..), .ok page⟩ => page.records
  | turn => turn.drained

end Turn

/-- The end of a cycle after its other calls.  What is saved is the transaction id that was read; only
what was saved is released, and only after that the buffer is acknowledged.  Where the window is empty
there is nothing to save. -/
inductive Closing (options : SyncOptions) (work : List Turn) : List Turn → Prop
  | nothing : Closing options work []
  | saves {txid : Nat} {a : Except Failure Nat} : ⟨.session .transactionId, .ok txid⟩ ∈ work →
      Closing options work [⟨.store (.save options.index txid), a⟩]
  | releases {txid mark : Nat} {slot : String} {a : Except Failure Unit} :
      ⟨.session .transactionId, .ok txid⟩ ∈ work →
      Closing options work
        [⟨.store (.save options.index txid), .ok mark⟩, ⟨.source (.reclaim slot txid), a⟩]
  | acknowledges {txid mark : Nat} {slot : String} {a : Except Failure Unit} :
      ⟨.session .transactionId, .ok txid⟩ ∈ work →
      Closing options work
        [⟨.store (.save options.index txid), .ok mark⟩, ⟨.source (.reclaim slot txid), .ok ()⟩,
          ⟨.buffer .ack, a⟩]
  | empty {txid : Nat} {mark : Option Nat} {a : Except Failure Unit} :
      ⟨.store (.load options.index), .ok mark⟩ ∈ work →
      ⟨.session .transactionId, .ok txid⟩ ∈ work → txid ≤ mark.getD 0 →
      Closing options work [⟨.buffer .ack, a⟩]

/-- The calls of a cycle in order: first all others, among them every write to the sink, then those that
end it. -/
def Orderly (options : SyncOptions) (trace : List Turn) : Prop :=
  ∃ work closing, trace = work ++ closing ∧ (∀ turn ∈ work, ¬ turn.1.Closes) ∧
    Closing options work closing

namespace Progress

/-- What the calls so far tell at a stage. -/
def Closed (options : SyncOptions) (p : Progress) (trace : List Turn) : Prop :=
  match p.stage with
  | .working => ∀ turn ∈ trace, ¬ turn.1.Closes
  | .saved txid => ∃ work mark, trace = work ++ [⟨.store (.save options.index txid), .ok mark⟩] ∧
      (∀ turn ∈ work, ¬ turn.1.Closes) ∧ ⟨.session .transactionId, .ok txid⟩ ∈ work
  | .released => ∃ work txid mark slot, trace = work ++
      [⟨.store (.save options.index txid), .ok mark⟩, ⟨.source (.reclaim slot txid), .ok ()⟩] ∧
      (∀ turn ∈ work, ¬ turn.1.Closes) ∧ ⟨.session .transactionId, .ok txid⟩ ∈ work
  | .stuck => Orderly options trace ∧ ∃ turn ∈ trace, turn.Saves
  | _ => Orderly options trace

/-- What is known of a cycle is what its calls told. -/
structure Told (options : SyncOptions) (kind : CycleKind) (trace : List Turn) (p : Progress) :
    Prop where
  records : ∀ r, r ∈ trace.flatMap Turn.records ↔
    r ∈ p.pulled ∨ r ∈ p.drained.getD []
  drained : ∀ r, r ∈ trace.flatMap Turn.drained ↔ r ∈ p.drained.getD []
  loaded : ∀ m, p.loaded = some m →
    ∃ mark, ⟨.store (.load options.index), .ok mark⟩ ∈ trace ∧ m = mark.getD 0
  seen : ∀ txid, p.seen = some txid → ⟨.session .transactionId, .ok txid⟩ ∈ trace
  read : (∃ turn ∈ trace, turn.1.IsApply ∨ turn.1.Closes) → p.HasRead kind
  closed : p.Closed options trace

variable {options : SyncOptions} {kind : CycleKind} {trace : List Turn} {p : Progress}

theorem told_begin (job : Job) : Told options kind [] (begin job) := by
  constructor <;> simp [begin, Closed]

/-- What is read stays read. -/
theorem HasRead.next (h : p.HasRead kind) {call : Call} (hallows : p.Allows options kind call)
    (a : call.Answer) : (p.next call a).HasRead kind := by
  have hstage (stage : Stage) : { p with stage := stage }.HasRead kind := by cases kind <;> exact h
  have hslot : p.slot.isSome := by cases kind <;> exact h.1
  have hseen : p.seen.isSome := by
    cases kind
    · exact h.2.1
    · exact h.2.2.1
  have hdrained : p.drained.isSome := by
    cases kind
    · exact h.2.2
    · exact h.2.2.2.1
  cases call with
  | session call =>
    cases call with
    | transactionId => simp [hallows.2] at hseen
    | _ => exact h
  | source call =>
    cases call with
    | openSlot => simp [hallows.2.1] at hslot
    | pull =>
      obtain ⟨-, rfl, -, -, -, rfl, hwindow, -, -, hexhausted⟩ := hallows
      simp [h.2.2.2.2 hwindow] at hexhausted
    | reclaim => cases a <;> exact hstage _
  | buffer call =>
    cases call with
    | drain => simp [hallows.2] at hdrained
    | ack => cases a <;> exact hstage _
    | wait => exact h
  | store call =>
    cases call with
    | load =>
      obtain ⟨-, rfl, hloaded, -⟩ := hallows
      simp [HasRead, hloaded] at h
    | save => cases a <;> exact hstage _
  | sink => exact h
  | clock => exact h

/-- A call that closes nothing comes before those that do. -/
theorem stage_of_not_closes {call : Call} (hcall : ¬ call.Closes)
    (hallows : p.Allows options kind call) (a : call.Answer) :
    p.stage = .working ∧ (p.next call a).stage = p.stage := by
  cases call with
  | session call =>
    cases call with
    | transactionId => exact ⟨hallows.1, by cases a <;> rfl⟩
    | _ => exact ⟨hallows.1, rfl⟩
  | source call =>
    cases call with
    | openSlot => exact ⟨hallows.1, by cases a <;> rfl⟩
    | pull => exact ⟨hallows.1, by cases a <;> rfl⟩
    | reclaim => exact (hcall trivial).elim
  | buffer call =>
    cases call with
    | drain => exact ⟨hallows.1, by cases a <;> rfl⟩
    | ack => exact (hcall trivial).elim
    | wait => exact ⟨hallows.1, rfl⟩
  | store call =>
    cases call with
    | load => exact ⟨hallows.1, by cases a <;> rfl⟩
    | save => exact (hcall trivial).elim
  | sink => exact ⟨hallows.1, rfl⟩
  | clock => exact ⟨hallows.1, rfl⟩

theorem allows_read {call : Call} (hcall : call.IsApply ∨ call.Closes)
    (hallows : p.Allows options kind call) : p.HasRead kind := by
  cases call with
  | session call =>
    cases call with
    | transactionId => exact (hcall.elim id id).elim
    | _ => exact hallows.2.2
  | source call =>
    cases call with
    | reclaim => exact hallows.2.2
    | _ => exact (hcall.elim id id).elim
  | buffer call =>
    cases call with
    | ack => exact hallows.2
    | _ => exact (hcall.elim id id).elim
  | store call =>
    cases call with
    | save => exact hallows.2.1
    | load => exact (hcall.elim id id).elim
  | sink => exact hallows.2.2
  | clock => exact hallows.2.2

theorem Closed.next (h : Told options kind trace p) {call : Call}
    (hallows : p.Allows options kind call) (a : call.Answer) :
    (p.next call a).Closed options (trace ++ [⟨call, a⟩]) := by
  have hclosed := h.closed
  by_cases hcall : ¬ call.Closes
  · obtain ⟨hworking, hstage⟩ := stage_of_not_closes hcall hallows a
    simp only [Closed, hstage, hworking, List.forall_mem_append, List.forall_mem_singleton] at hclosed ⊢
    exact ⟨hclosed, hcall⟩
  rw [not_not] at hcall
  cases call with
  | session => exact hcall.elim
  | sink => exact hcall.elim
  | clock => exact hcall.elim
  | store call =>
    cases call with
    | load => exact hcall.elim
    | save index txid =>
      obtain ⟨hstage, -, rfl, hseen⟩ := hallows
      simp only [Closed, hstage] at hclosed
      cases a with
      | ok mark => exact ⟨trace, mark, rfl, hclosed, h.seen txid hseen⟩
      | error e => exact ⟨trace, _, rfl, hclosed, .saves (h.seen txid hseen)⟩
  | source call =>
    cases call with
    | openSlot => exact hcall.elim
    | pull => exact hcall.elim
    | reclaim slot txid =>
      obtain ⟨hstage, -⟩ := hallows
      simp only [Closed, hstage] at hclosed
      obtain ⟨work, mark, rfl, hwork, hseen⟩ := hclosed
      rw [List.append_assoc]
      cases a with
      | ok => exact ⟨work, txid, mark, slot, rfl, hwork, hseen⟩
      | error e => exact ⟨⟨work, _, rfl, hwork, .releases hseen⟩,
          ⟨.store (.save options.index txid), .ok mark⟩, by simp, trivial⟩
  | buffer call =>
    cases call with
    | drain => exact hcall.elim
    | wait => exact hcall.elim
    | ack =>
      rcases hallows.1 with hstage | ⟨hstage, rfl, hempty⟩
      · simp only [Closed, hstage] at hclosed
        obtain ⟨work, txid, mark, slot, rfl, hwork, hseen⟩ := hclosed
        rw [List.append_assoc]
        cases a with
        | ok => exact ⟨work, _, rfl, hwork, .acknowledges hseen⟩
        | error e =>
          simp only [Closed, Progress.next, hstage]
          exact ⟨⟨work, _, rfl, hwork, .acknowledges hseen⟩,
            ⟨.store (.save options.index txid), .ok mark⟩, by simp, trivial⟩
      · simp only [Closed, hstage] at hclosed
        have horderly : Orderly options (trace ++ [⟨.buffer .ack, a⟩]) := by
          obtain ⟨-, hloaded, hseen, -⟩ := hallows.2
          obtain ⟨m, hm⟩ := Option.isSome_iff_exists.mp hloaded
          obtain ⟨txid, htxid⟩ := Option.isSome_iff_exists.mp hseen
          obtain ⟨mark, hmark, rfl⟩ := h.loaded m hm
          refine ⟨trace, _, rfl, hclosed, .empty hmark (h.seen txid htxid) ?_⟩
          simp only [window, hm, htxid, TxWindow.isEmpty, Option.getD_some, ge_iff_le,
            decide_eq_true_eq] at hempty
          omega
        cases a with
        | ok => exact horderly
        | error e =>
          simp only [Closed, Progress.next, hstage]
          exact horderly

/-- A drain hands out its records, and no other call does. -/
theorem drained_next {call : Call} (hallows : p.Allows options kind call) (a : call.Answer)
    (r : ChangeRecord) : r ∈ (p.next call a).drained.getD [] ↔
      r ∈ p.drained.getD [] ∨ r ∈ Turn.drained ⟨call, a⟩ := by
  cases call with
  | session call => cases call <;> cases a <;> simp [Progress.next, Turn.drained]
  | source call => cases call <;> cases a <;> simp [Progress.next, Turn.drained]
  | store call => cases call <;> cases a <;> simp [Progress.next, Turn.drained]
  | sink call => cases call <;> cases a <;> simp [Progress.next, Turn.drained]
  | clock call => cases call <;> cases a <;> simp [Progress.next, Turn.drained]
  | buffer call =>
    cases call with
    | drain => cases a <;> simp [Progress.next, Turn.drained, hallows.2]
    | ack => cases a <;> simp [Progress.next, Turn.drained]
    | wait => cases a <;> simp [Progress.next, Turn.drained]

/-- A page hands out its records, and no other call but a drain does. -/
theorem pulled_next {call : Call} (a : call.Answer) (r : ChangeRecord) :
    r ∈ (p.next call a).pulled ∨ r ∈ Turn.drained ⟨call, a⟩ ↔
      r ∈ p.pulled ∨ r ∈ Turn.records ⟨call, a⟩ := by
  cases call with
  | session call => cases call <;> cases a <;> simp [Progress.next, Turn.records, Turn.drained]
  | source call => cases call <;> cases a <;> simp [Progress.next, Turn.records, Turn.drained]
  | store call => cases call <;> cases a <;> simp [Progress.next, Turn.records, Turn.drained]
  | sink call => cases call <;> cases a <;> simp [Progress.next, Turn.records, Turn.drained]
  | clock call => cases call <;> cases a <;> simp [Progress.next, Turn.records, Turn.drained]
  | buffer call => cases call <;> cases a <;> simp [Progress.next, Turn.records, Turn.drained]

/-- A checkpoint is known from the call that loads it. -/
theorem loaded_next {call : Call} (hallows : p.Allows options kind call) {a : call.Answer} {m : Nat}
    (h : (p.next call a).loaded = some m) : p.loaded = some m ∨ ∃ mark,
      (⟨call, a⟩ : Turn) = ⟨.store (.load options.index), .ok mark⟩ ∧ m = mark.getD 0 := by
  cases call with
  | session call => cases call <;> cases a <;> exact .inl h
  | source call => cases call <;> cases a <;> exact .inl h
  | buffer call => cases call <;> cases a <;> exact .inl h
  | sink call => cases call <;> cases a <;> exact .inl h
  | clock call => cases call <;> cases a <;> exact .inl h
  | store call =>
    cases call with
    | save => cases a <;> exact .inl h
    | load index =>
      obtain ⟨-, -, -, rfl⟩ := hallows
      cases a with
      | error e => exact .inl h
      | ok mark => exact .inr ⟨mark, rfl, (Option.some.inj h).symm⟩

/-- A transaction is known from the call that reads it. -/
theorem seen_next {call : Call} {a : call.Answer} {txid : Nat}
    (h : (p.next call a).seen = some txid) : p.seen = some txid ∨
      (⟨call, a⟩ : Turn) = ⟨.session .transactionId, .ok txid⟩ := by
  cases call with
  | session call =>
    cases call with
    | transactionId =>
      cases a with
      | error e => exact .inl h
      | ok seen =>
        obtain rfl : seen = txid := Option.some.inj h
        exact .inr rfl
    | _ => cases a <;> exact .inl h
  | source call => cases call <;> cases a <;> exact .inl h
  | buffer call => cases call <;> cases a <;> exact .inl h
  | sink call => cases call <;> cases a <;> exact .inl h
  | clock call => cases call <;> cases a <;> exact .inl h
  | store call => cases call <;> cases a <;> exact .inl h

theorem Told.next (h : Told options kind trace p) {call : Call} (hallows : p.Allows options kind call)
    (a : call.Answer) : Told options kind (trace ++ [⟨call, a⟩]) (p.next call a) := by
  have hdrained := drained_next hallows a
  have hpulled := pulled_next (p := p) a
  refine ⟨fun r => ?_, fun r => ?_, ?_, ?_, ?_, .next h hallows a⟩
  · rw [List.flatMap_append, List.mem_append, h.records, List.flatMap_singleton, hdrained]
    grind
  · rw [List.flatMap_append, List.mem_append, h.drained, List.flatMap_singleton, hdrained]
  · intro m hm
    rcases loaded_next hallows hm with hm | ⟨mark, hturn, hm⟩
    · obtain ⟨mark, hmark, hm⟩ := h.loaded m hm
      exact ⟨mark, List.mem_append_left _ hmark, hm⟩
    · exact ⟨mark, hturn ▸ List.mem_append_right _ (List.mem_singleton_self _), hm⟩
  · intro txid htxid
    rcases seen_next htxid with htxid | hturn
    · exact List.mem_append_left _ (h.seen txid htxid)
    · exact hturn ▸ List.mem_append_right _ (List.mem_singleton_self _)
  · rintro ⟨turn, hmem, hcall⟩
    rcases List.mem_append.mp hmem with hmem | hmem
    · exact (h.read ⟨turn, hmem, hcall⟩).next hallows a
    · obtain rfl := List.mem_singleton.mp hmem
      exact (allows_read hcall hallows).next hallows a

end Progress

end DocSync
