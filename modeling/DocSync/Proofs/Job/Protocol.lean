import DocSync.Proofs.Job.Turn
import DocSync.Proofs.Job.Sound
import Mathlib

/-!
The checkpoint protocol.  A job rests or is in one of its cycles, and between any two of its calls others
act; a call is answered by the world, or fails.  Main statement: in every state that a job reaches from
one without a checkpoint and a slot, the checkpoint is at most the last transaction and never goes back,
the log is released up to the checkpoint at most, the calls of a cycle come in order, and a cycle that
fails before it saved its checkpoint has lost nothing.
-/

namespace DocSync

open World

/-- A cycle under way: the job and the world when it began, the calls so far, and what is left of it. -/
structure CycleRun where
  kind : CycleKind
  job : Job
  began : Site
  trace : List Turn
  rest : Routine (Except SyncError CycleStats × Job)

def CycleRun.begin (kind : CycleKind) (pages : Nat) (job : Job) (s : Site) : CycleRun :=
  ⟨kind, job, s, [], (kind.cycle pages).run.run job⟩

/-- What a job does: nothing, or a cycle. -/
inductive Activity where
  | resting (job : Job)
  | cycling (run : CycleRun)

namespace Activity

/-- Others act, or the cycle under way makes a call. -/
inductive Acts (wiring : Wiring) : Activity × Site → Activity × Site → Prop
  | others {activity : Activity} {s s' : Site} : Site.Others s s' → Acts wiring (activity, s) (activity, s')
  | call {kind : CycleKind} {job : Job} {began s s' : Site} {trace : List Turn} {call : Call}
      {next : call.Answer → Routine (Except SyncError CycleStats × Job)} {a : call.Answer} :
      Replies wiring call s a s' →
        Acts wiring (cycling ⟨kind, job, began, trace, .ask call next⟩, s)
          (cycling ⟨kind, job, began, trace ++ [⟨call, a⟩], next a⟩, s')

/-- A step of a job: an act, the beginning of a cycle, or its end. -/
inductive Moves (wiring : Wiring) : Activity × Site → Activity × Site → Prop
  | act {x y : Activity × Site} : Acts wiring x y → Moves wiring x y
  | begin (kind : CycleKind) (pages : Nat) (job : Job) (s : Site) :
      Moves wiring (resting job, s) (cycling (.begin kind pages job s), s)
  | finish {kind : CycleKind} {job job' : Job} {began s : Site} {trace : List Turn}
      {result : Except SyncError CycleStats} :
      Moves wiring (cycling ⟨kind, job, began, trace, .done (result, job')⟩, s) (resting job', s)

/-- What a job does in any number of steps. -/
abbrev Reaches (wiring : Wiring) : Activity × Site → Activity × Site → Prop :=
  Relation.ReflTransGen (Moves wiring)

/-- A job that has done nothing yet, of an index without a checkpoint, and without a slot. -/
structure Starts (plan : Plan) (options : SyncOptions) (wiring : Wiring) (x : Activity × Site) : Prop where
  job : x.1 = resting (.ofPlan plan options)
  reached : x.2.1.database.Reached
  mark : x.2.1.mark wiring.store options.index = .ok none
  slot : x.2.1.database.slots.get? options.slotName = none

end Activity

/-! ### What holds in every state -/

/-- A cycle under way keeps to its rules, knows what it was told, and is sound. -/
def CycleRun.Lawful (wiring : Wiring) (options : SyncOptions) (run : CycleRun) (s : Site) : Prop :=
  ∃ p : Progress,
    run.rest.Follows (Progress.rules options run.kind) (Progress.Ends options run.kind) p ∧
    Progress.Told options run.kind run.trace p ∧ p.Sound wiring options run.began s

namespace Activity

/-- What holds in every state. -/
def Lawful (wiring : Wiring) (options : SyncOptions) : Activity × Site → Prop
  | (resting job, s) => s.Safe wiring options ∧ job.options = options ∧
      ∀ name, job.slot = some name → name = options.slotName
  | (cycling run, s) => run.Lawful wiring options s

variable {wiring : Wiring} {options : SyncOptions} {x y : Activity × Site}

theorem Lawful.safe (h : Lawful wiring options x) : x.2.Safe wiring options := by
  obtain ⟨_ | run, s⟩ := x
  · exact h.1
  · obtain ⟨p, -, -, hsound⟩ := h
    exact hsound.safe

/-- A cycle that begins is lawful. -/
theorem Lawful.begin {job : Job} {s : Site} (h : Lawful wiring options (resting job, s))
    (kind : CycleKind) (pages : Nat) : (CycleRun.begin kind pages job s).Lawful wiring options s := by
  obtain ⟨hsafe, hoptions, hslot⟩ := h
  refine ⟨.begin job, Job.cycle_follows kind hoptions, Progress.told_begin job, hsafe, .refl,
    ⟨hslot, by simp [Progress.begin], by simp [Progress.begin], by simp [Progress.begin],
      by simp [Progress.begin]⟩, fun _ => ⟨⟨rfl, fun _ h => h, ?_, .refl _⟩, ?_⟩, ?_⟩
  · intro hnone slot hfound
    exact absurd (hnone.symm.trans hfound) (by simp)
  · exact ⟨by simp [Progress.begin], by simp [Progress.begin], by simp [Progress.begin],
      .inl ⟨rfl, rfl, rfl⟩⟩
  · intro txid hsaved
    contradiction

theorem Lawful.acts (h : Lawful wiring options x) (hacts : Acts wiring x y) :
    Lawful wiring options y := by
  cases hacts with
  | @others activity s s' hothers =>
    have hadvances := hothers.1.advances
    cases activity with
    | resting job => exact ⟨h.1.advances hadvances, h.2⟩
    | cycling run =>
      obtain ⟨p, hfollows, htold, hsound⟩ := h
      exact ⟨p, hfollows, htold, hsound.advances hadvances hothers.1.gathers⟩
  | call hreplies =>
    obtain ⟨p, ⟨hallows, hfollows⟩, htold, hsound⟩ := h
    exact ⟨_, hfollows _, htold.next hallows _, hsound.next hallows hreplies⟩

theorem Lawful.moves (h : Lawful wiring options x) (hmoves : Moves wiring x y) :
    Lawful wiring options y := by
  cases hmoves with
  | act hacts => exact h.acts hacts
  | begin kind pages job s => exact h.begin kind pages
  | @finish kind job job' began s trace result =>
    obtain ⟨p, hends, -, hsound⟩ := h
    have hagrees : Progress.Agrees options job' p := Progress.Ends.agrees hends
    refine ⟨hsound.safe, hagrees.options, fun name hname => hsound.knows.slot name ?_⟩
    rw [← hagrees.slot, hname]

theorem Lawful.reaches (h : Lawful wiring options x) (hreaches : Reaches wiring x y) :
    Lawful wiring options y := by
  induction hreaches with
  | refl => exact h
  | tail _ hmoves ih => exact ih.moves hmoves

theorem Starts.lawful {plan : Plan} (h : Starts plan options wiring x) : Lawful wiring options x := by
  obtain ⟨activity, s⟩ := x
  obtain ⟨rfl, hreached, hmark, hslot⟩ := h
  refine ⟨⟨hreached, none, hmark, Nat.zero_le _, fun slot hfound => ?_⟩, rfl, by simp [Job.ofPlan]⟩
  rw [hslot] at hfound
  contradiction

/-! ### The checkpoint never goes back -/

/-- The checkpoint of an index goes on. -/
def Raises (store index : String) (w w' : World) : Prop :=
  ∀ mark, w.mark store index = .ok (some mark) →
    ∃ later, w'.mark store index = .ok (some later) ∧ mark ≤ later

variable {store index : String} {w w₁ w₂ w₃ : World}

theorem Raises.of_keepsMarks (h : KeepsMarks w₁ w₂) : Raises store index w₁ w₂ :=
  fun mark hmark => ⟨mark, (h.mark _ _).trans hmark, Nat.le_refl _⟩

theorem Raises.trans (h : Raises store index w₁ w₂) (h' : Raises store index w₂ w₃) :
    Raises store index w₁ w₃ := by
  intro mark hmark
  obtain ⟨later, hlater, hle⟩ := h mark hmark
  obtain ⟨last, hlast, hle'⟩ := h' later hlater
  exact ⟨last, hlast, Nat.le_trans hle hle'⟩

/-- Saving a checkpoint raises it, and nothing else moves it. -/
theorem raises_of_replies {call : Call} {s s' : Site} {a : call.Answer}
    (hindex : ∀ other txid, call = .store (.save other txid) → other = index)
    (h : Replies wiring call s a s') : Raises wiring.store index s.1 s'.1 := by
  cases h with
  | fails => exact .of_keepsMarks (.refl _)
  | answers =>
    by_cases hquiet : call.IsQuiet
    · exact .of_keepsMarks (answer_advances wiring call hquiet s).marks
    by_cases hfails : call.Fails (answer wiring call s).1
    · exact .of_keepsMarks (answer_fails hfails wiring.buffer).1.marks
    cases call with
    | source call =>
      cases call with
      | openSlot name =>
        cases ha : (answer wiring (.source (.openSlot name)) s).1 with
        | error e => simp [ha, Call.Fails] at hfails
        | ok slot => exact .of_keepsMarks (answer_openSlot ha).2.2
      | reclaim slot txid => exact .of_keepsMarks (answer_reclaim wiring s slot txid).2
      | pull => exact (hquiet trivial).elim
    | store call =>
      cases call with
      | load => exact (hquiet trivial).elim
      | save other txid =>
        cases ha : (answer wiring (.store (.save other txid)) s).1 with
        | error e => simp [ha, Call.Fails] at hfails
        | ok saved =>
          obtain rfl := hindex other txid rfl
          obtain ⟨before, hbefore, hafter⟩ := saveMark_mark ha
          intro mark hmark
          obtain rfl := Except.ok.inj (hbefore.symm.trans hmark)
          exact ⟨_, hafter, Nat.le_max_right _ _⟩
    | _ => exact (hquiet trivial).elim

theorem Lawful.raises_of_moves (hx : Lawful wiring options x) (h : Moves wiring x y) :
    Raises wiring.store options.index x.2.1 y.2.1 := by
  cases h with
  | act hacts =>
    cases hacts with
    | others hothers => exact .of_keepsMarks hothers.1.advances.marks
    | call hreplies =>
      obtain ⟨p, ⟨hallows, -⟩, -⟩ := hx
      refine raises_of_replies (fun other txid hsave => ?_) hreplies
      subst hsave
      exact hallows.2.2.1
  | begin => exact .of_keepsMarks (.refl _)
  | finish => exact .of_keepsMarks (.refl _)

theorem Lawful.raises_of_reaches (hx : Lawful wiring options x) (h : Reaches wiring x y) :
    Raises wiring.store options.index x.2.1 y.2.1 := by
  induction h with
  | refl => exact .of_keepsMarks (.refl _)
  | tail hreaches hmoves ih => exact ih.trans ((hx.reaches hreaches).raises_of_moves hmoves)

/-! ### The cycle after one that failed -/

/-- What a cycle does keeps its kind and where it began. -/
theorem Lawful.acts_from {run : CycleRun} {s : Site} (h : run.Lawful wiring options s)
    (hacts : Relation.ReflTransGen (Acts wiring) (cycling run, s) y) :
    ∃ next, y.1 = cycling next ∧ next.kind = run.kind ∧ next.began = run.began ∧
      next.Lawful wiring options y.2 := by
  induction hacts with
  | refl => exact ⟨run, rfl, rfl, rfl, h⟩
  | @tail x y _ hact ih =>
    obtain ⟨next, hx, hkind, hbegan, hlawful⟩ := ih
    obtain ⟨activity, s⟩ := x
    obtain rfl : activity = cycling next := hx
    have hy := Lawful.acts (x := (cycling next, s)) hlawful hact
    cases hact with
    | others => exact ⟨next, rfl, hkind, hbegan, hy⟩
    | call => exact ⟨_, rfl, hkind, hbegan, hy⟩

end Activity

/-- A cycle that has read all that it reads: it has begun to apply, or has succeeded. -/
def CycleRun.HasRead (run : CycleRun) : Prop :=
  (∃ turn ∈ run.trace, turn.1.IsApply ∨ turn.1.Closes) ∨
    ∃ stats job, run.rest = .done (.ok stats, job)

namespace Progress

open Database (Slot.within)

variable {wiring : Wiring} {options : SyncOptions} {began began' s : Site} {p p' : Progress}

/-- A later window from the same checkpoint has more of the log. -/
theorem within_window_subset {slot : Slot} {window window' : TxWindow} (log : List ChangeRecord)
    (htxmin : window'.txmin = window.txmin) (htxmax : window.txmax ≤ window'.txmax) :
    Slot.within slot window log ⊆ Slot.within slot window' log := by
  intro r hr
  simp only [Slot.within, List.mem_filter, TxWindow.contains, Bool.and_eq_true,
    decide_eq_true_eq] at hr ⊢
  obtain ⟨hmem, hlow, hhigh⟩ := hr
  exact ⟨hmem, by omega, by omega⟩

/-- What a slot has of an empty window is nothing. -/
theorem within_empty {slot : Slot} {window : TxWindow} (log : List ChangeRecord)
    (hempty : window.isEmpty = true) : Slot.within slot window log = [] := by
  refine List.filter_eq_nil_iff.mpr fun r _ => ?_
  simp only [TxWindow.isEmpty, decide_eq_true_eq, ge_iff_le] at hempty
  simp only [TxWindow.contains, Bool.and_eq_true, decide_eq_true_eq]
  omega

/-- What an unsaved cycle drained, a later one drains again. -/
theorem Holds.drained_again (h : p.Holds wiring options s)
    (hpending : World.Gathers wiring.buffer s.1 began'.1) (h' : p'.Knows wiring options began')
    (hread : p'.drained.isSome) {r : ChangeRecord} (hr : r ∈ p.drained.getD []) :
    r ∈ p'.drained.getD [] := by
  obtain ⟨records', hrecords'⟩ := Option.isSome_iff_exists.mp hread
  cases hrecords : p.drained with
  | none => simp [hrecords] at hr
  | some records =>
    rw [hrecords] at hr
    rw [hrecords']
    exact h'.drained records' hrecords'
      (hpending.grows.drained (h.drained records hrecords hr))

/-- What an unsaved cycle pulled, a later receive cycle pulls again. -/
theorem Holds.pulled_again (hkept : began.Kept wiring options s) (h : p.Holds wiring options s)
    (hknows : p.Knows wiring options began) (hlater : World.Advances s.1 began'.1)
    (hpending : World.Gathers wiring.buffer s.1 began'.1) (h' : p'.Knows wiring options began')
    (hread : p'.HasRead .receive) {r : ChangeRecord} (hr : r ∈ p.pulled) : r ∈ p'.pulled := by
  obtain ⟨-, hloaded', hseen', -, hexhausted⟩ := hread
  rcases h.pulled with ⟨hnone, -⟩ | ⟨hloaded, hseen, slot, hslot, hpulled, -⟩
  · simp [hnone] at hr
  obtain ⟨m, hm⟩ := Option.isSome_iff_exists.mp hloaded
  obtain ⟨m', hm'⟩ := Option.isSome_iff_exists.mp hloaded'
  obtain ⟨txid, htxid⟩ := Option.isSome_iff_exists.mp hseen
  obtain ⟨txid', htxid'⟩ := Option.isSome_iff_exists.mp hseen'
  -- the checkpoint is the same, and the last transaction is not earlier
  have hsame : m' = m := by
    obtain ⟨mark, hmark, rfl⟩ := hknows.loaded m hm
    obtain ⟨mark', hmark', rfl⟩ := h'.loaded m' hm'
    rw [hlater.marks.mark, hkept.mark, hmark] at hmark'
    rw [Except.ok.inj hmark']
  have hle : txid ≤ txid' := Nat.le_trans (h.seen txid htxid)
    (Nat.le_trans hlater.database.reaches.log.1 (h'.seen txid' htxid'))
  have hwindow : p'.window.txmin = p.window.txmin ∧ p.window.txmax ≤ p'.window.txmax := by
    simp only [window, hm, hm', htxid, htxid', Option.getD_some]
    omega
  have hmem : r ∈ (pageThrough wiring
      (Slot.within slot p'.window began'.1.database.log)).records := by
    rw [hpulled] at hr
    refine records_pageThrough_subset ?_ hr
    exact List.Subset.trans (List.take_subset _ _) (List.Subset.trans
      (within_window_subset _ hwindow.1 hwindow.2) (within_subset hpending.log))
  cases hempty : p'.window.isEmpty with
  | true =>
    rw [within_empty _ hempty] at hmem
    simp [pageThrough] at hmem
  | false => exact h'.pulled (hexhausted hempty) slot (hlater.database.slots ▸ hslot) hmem

/-- Where no checkpoint was saved, a cycle that failed is at a stage before that. -/
theorem Told.unsaved {kind : CycleKind} {trace : List Turn} (h : Told options kind trace p)
    (hunsaved : ∀ turn ∈ trace, ¬ turn.Saves) (hstage : p.stage ≠ .acknowledged) :
    p.stage = .working ∨ p.stage = .unsaved := by
  have hclosed := h.closed
  cases hp : p.stage with
  | working => exact .inl rfl
  | unsaved => exact .inr rfl
  | acknowledged => exact (hstage hp).elim
  | saved txid =>
    simp only [Closed, hp] at hclosed
    obtain ⟨work, mark, rfl, -⟩ := hclosed
    exact (hunsaved ⟨.store (.save options.index txid), .ok mark⟩ (by simp) trivial).elim
  | released =>
    simp only [Closed, hp] at hclosed
    obtain ⟨work, txid, mark, slot, rfl, -⟩ := hclosed
    exact (hunsaved ⟨.store (.save options.index txid), .ok mark⟩ (by simp) trivial).elim
  | stuck =>
    simp only [Closed, hp] at hclosed
    obtain ⟨-, turn, hmem, hsaves⟩ := hclosed
    exact (hunsaved turn hmem hsaves).elim

theorem Closed.orderly {trace : List Turn} (h : p.Closed options trace) :
    Orderly options trace := by
  unfold Closed at h
  split at h
  · exact ⟨trace, [], (List.append_nil _).symm, h, .nothing⟩
  · obtain ⟨work, mark, rfl, hwork, hseen⟩ := h
    exact ⟨work, _, rfl, hwork, .saves hseen⟩
  · obtain ⟨work, txid, mark, slot, rfl, hwork, hseen⟩ := h
    exact ⟨work, _, rfl, hwork, .releases hseen⟩
  · exact h.1
  · exact h

end Progress

namespace Activity

open Relation (ReflTransGen)

/-- The checkpoint protocol.  In every state that a job reaches, however others commit and calls fail,
the checkpoint is at most the last transaction, the log is released up to the checkpoint or where the
slot was opened, and no later state has an earlier checkpoint.  In a cycle every other call is answered
before the checkpoint is saved, which is before the log is released, which is before the buffer is
acknowledged.  A cycle that fails and has not saved its checkpoint leaves checkpoint, release and what is
pending as they were when it began, and once the next cycle has read, it has drained again what the
failed one drained, and a receive cycle has read again all that the failed one read. -/
theorem checkpoint_protocol {plan : Plan} {options : SyncOptions} {wiring : Wiring}
    {start x : Activity × Site} (hstart : Starts plan options wiring start)
    (hx : Reaches wiring start x) :
    x.2.Safe wiring options ∧
    (∀ y, Reaches wiring x y → Raises wiring.store options.index x.2.1 y.2.1) ∧
    ∀ run, x.1 = cycling run →
      Orderly options run.trace ∧
      ∀ e job, run.rest = .done (.error e, job) →
        (∀ turn ∈ run.trace, ¬ turn.Saves) →
        run.began.Kept wiring options x.2 ∧
        ∀ kind pages s y next, Site.Others x.2 s →
          ReflTransGen (Acts wiring) (cycling (.begin kind pages job s), s) y →
          y.1 = cycling next → next.HasRead →
            (∀ r ∈ run.trace.flatMap Turn.drained, r ∈ next.trace.flatMap Turn.drained) ∧
            (kind = .receive →
              ∀ r ∈ run.trace.flatMap Turn.records, r ∈ next.trace.flatMap Turn.records) := by
  have hlawful := hstart.lawful.reaches hx
  refine ⟨hlawful.safe, fun y hy => hlawful.raises_of_reaches hy, fun run hrun => ?_⟩
  obtain ⟨activity, s⟩ := x
  obtain rfl : activity = cycling run := hrun
  obtain ⟨p, hfollows, htold, hsound⟩ := hlawful
  refine ⟨htold.closed.orderly, fun e job hfailed hunsaved => ?_⟩
  rw [hfailed] at hfollows
  have hfails : Progress.Fails options job p := hfollows
  obtain ⟨hkept, hholds⟩ := hsound.unsaved (htold.unsaved hunsaved hfails.stage)
  refine ⟨hkept, fun kind pages s' y next hothers hacts hnext hread => ?_⟩
  -- the next cycle begins from a state of rest
  have hrests : Lawful wiring options (resting job, s') := by
    refine ⟨hsound.safe.advances hothers.1.advances, hfails.options, fun name hname => ?_⟩
    exact hsound.knows.slot name (hfails.slot ▸ hname)
  obtain ⟨next', hy, hkind, hbegan, p', hfollows', htold', hsound'⟩ :=
    Lawful.acts_from (hrests.begin kind pages) hacts
  obtain rfl : next = next' := by simpa using hnext.symm.trans hy
  have hread' : p'.HasRead kind := by
    change next.kind = kind at hkind
    rw [hkind] at htold' hfollows'
    rcases hread with hread | ⟨stats, job', hdone⟩
    · exact htold'.read hread
    · rw [hdone] at hfollows'
      exact Progress.Succeeds.read hfollows'
  have hknows' : p'.Knows wiring options s' := by
    have hknows := hsound'.knows
    rwa [hbegan] at hknows
  have hdrained' : p'.drained.isSome := by
    cases kind
    · exact hread'.2.2
    · exact hread'.2.2.2.1
  have hagain {r : ChangeRecord} (hr : r ∈ p.drained.getD []) : r ∈ p'.drained.getD [] :=
    hholds.drained_again hothers.1.gathers hknows' hdrained' hr
  refine ⟨fun r hr => ?_, ?_⟩
  · exact (htold'.drained r).mpr (hagain ((htold.drained r).mp hr))
  · rintro rfl r hr
    refine (htold'.records r).mpr (((htold.records r).mp hr).imp (fun hr => ?_) hagain)
    exact hholds.pulled_again hkept hsound.knows hothers.1.advances hothers.1.gathers hknows' hread' hr

/-! A job of a catalogue of books, for which one notification is pending. -/

def shelfPlan : Plan := ⟨⟨"book", none, ["isbn"], [], ["isbn"], ["isbn"], none⟩, []⟩

def shelfOptions : SyncOptions := ⟨"books", "slot", 10, 10, 0, .none⟩

def shelfWiring : Wiring := ⟨"news", "main", "marks", [], false, false, true⟩

def notification : ChangeRecord :=
  ⟨"book", .insert, [("isbn", .string "a")], none, none, 1, 0⟩

def shelfWorld : World :=
  { World.empty .empty .empty "" "" with buffers := [("news", ⟨.memory ⟨[notification], 0⟩, 1, []⟩)] }

/-- A resync that drains a notification and then cannot read the last transaction leaves it pending. -/
theorem failed_resync_keeps_notification :
    ∃ (start x : Activity × Site) (run : CycleRun),
      Starts shelfPlan shelfOptions shelfWiring start ∧ Reaches shelfWiring start x ∧
      x.1 = cycling run ∧ (∃ e job, run.rest = .done (.error e, job)) ∧
      run.trace.flatMap Turn.drained = [notification] ∧
      run.began.Kept shelfWiring shelfOptions x.2 ∧
      (x.2.1.backlog "news").records = [notification] := by
  let job : Job := .ofPlan shelfPlan shelfOptions
  let began : Site := (shelfWorld, [])
  let opened : Site := (answer shelfWiring (.source (.openSlot "slot")) began).2
  let drained : Site := (answer shelfWiring (.buffer .drain) opened).2
  let run : CycleRun := ⟨.resync, job, began,
    [⟨.source (.openSlot "slot"), .ok "slot"⟩, ⟨.buffer .drain, .ok [notification]⟩,
      ⟨.session .transactionId, .error (.ofText "unreachable")⟩],
    .done (.error (.transport ((Failure.ofText "unreachable").within
      "Failed to read current transaction id")), { job with slot := some "slot", phase := .slotReady })⟩
  have hstart : Starts shelfPlan shelfOptions shelfWiring (resting job, began) :=
    ⟨rfl, ⟨.empty, .refl⟩, by cbv, by cbv⟩
  have hopens : Reaches shelfWiring (resting job, began) (cycling ⟨.resync, job, began, _, _⟩, opened) :=
    .tail (.single (.begin .resync 1 job began)) (.act (.call .answers))
  have hdrains : Reaches shelfWiring (resting job, began) (cycling ⟨.resync, job, began, _, _⟩, drained) :=
    hopens.tail (.act (.call .answers))
  have hreaches : Reaches shelfWiring (resting job, began) (cycling run, drained) :=
    hdrains.tail (.act (.call (.fails trivial)))
  obtain ⟨-, -, hcycle⟩ := checkpoint_protocol hstart hreaches
  obtain ⟨-, hkept⟩ := hcycle run rfl
  refine ⟨_, _, run, hstart, hreaches, rfl, ⟨_, _, rfl⟩, rfl, (hkept _ _ rfl ?_).1, by cbv⟩
  simp [run, Turn.Saves]

end Activity

end DocSync
