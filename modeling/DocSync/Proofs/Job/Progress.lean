import DocSync.Proofs.Dialogue
import DocSync.Proofs.Job.Calls

/-!
The order of the calls of a cycle.  A cycle first reads: its slot, its checkpoint, the last transaction,
the buffer and the log.  It then writes documents, and at last saves the checkpoint, releases the log
behind it and acknowledges the buffer.  Main statement: both kinds of cycles follow these rules,
whatever they are answered.
-/

namespace DocSync

inductive CycleKind where
  | resync
  | receive
deriving DecidableEq

/-- A cycle with an allowance of pages. -/
def CycleKind.cycle (kind : CycleKind) (pages : Nat) : Working CycleStats :=
  match kind with
  | resync => Job.fullResync pages
  | receive => Job.receiveOnce pages

/-- How far the end of a cycle has come: everything before it, the checkpoint saved, the log released,
the buffer acknowledged; or a failure on the way, before or after the checkpoint was saved. -/
inductive Stage where
  | working
  | saved (txid : Nat)
  | released
  | acknowledged
  | unsaved
  | stuck

/-- What a cycle has read so far, and how far it has come. -/
structure Progress where
  slot : Option String
  /-- The checkpoint, zero where there is none. -/
  loaded : Option Nat
  /-- The last transaction. -/
  seen : Option Nat
  drained : Option (List ChangeRecord)
  /-- How many entries of the log the pages so far covered. -/
  consumed : Nat
  pulled : List ChangeRecord
  /-- Whether the last page has come. -/
  exhausted : Bool
  stage : Stage

namespace Progress

/-- A cycle that begins; its job may remember a slot. -/
def begin (job : Job) : Progress := ⟨job.slot, none, none, none, 0, [], false, .working⟩

/-- The transactions after the checkpoint. -/
def window (p : Progress) : TxWindow := ⟨p.loaded.getD 0, max (p.seen.getD 0) (p.loaded.getD 0)⟩

/-- Everything is read that a cycle reads before it writes. -/
def HasRead (p : Progress) : CycleKind → Prop
  | .resync => p.slot.isSome ∧ p.seen.isSome ∧ p.drained.isSome
  | .receive => p.slot.isSome ∧ p.loaded.isSome ∧ p.seen.isSome ∧ p.drained.isSome ∧
      (p.window.isEmpty = false → p.exhausted = true)

/-- What a cycle may ask. -/
def Allows (options : SyncOptions) (kind : CycleKind) (p : Progress) : Call → Prop
  | .source (.openSlot name) => p.stage = .working ∧ p.slot = none ∧ name = options.slotName
  | .store (.load index) =>
    p.stage = .working ∧ kind = .receive ∧ p.loaded = none ∧ index = options.index
  | .session .transactionId => p.stage = .working ∧ p.seen = none
  | .buffer .drain => p.stage = .working ∧ p.drained = none
  | .source (.pull slot window most offset) =>
    p.stage = .working ∧ kind = .receive ∧ p.slot = some slot ∧ p.loaded.isSome ∧ p.seen.isSome ∧
      window = p.window ∧ window.isEmpty = false ∧ most = max options.maxChanges 1 ∧
      offset = p.consumed ∧ p.exhausted = false
  | .store (.save index txid) =>
    p.stage = .working ∧ p.HasRead kind ∧ index = options.index ∧ p.seen = some txid
  | .source (.reclaim slot txid) => p.stage = .saved txid ∧ p.slot = some slot ∧ p.HasRead kind
  | .buffer .ack =>
    (p.stage = .released ∨ p.stage = .working ∧ kind = .receive ∧ p.window.isEmpty = true) ∧
      p.HasRead kind
  | call => p.stage = .working ∧ call.IsApply ∧ p.HasRead kind

/-- What a cycle learns from an answer. -/
def next (p : Progress) : (call : Call) → call.Answer → Progress
  | .source (.openSlot _), .ok slot => { p with slot := some slot }
  | .store (.load _), .ok mark => { p with loaded := some (mark.getD 0) }
  | .session .transactionId, .ok txid => { p with seen := some txid }
  | .buffer .drain, .ok records => { p with drained := some records }
  | .source (.pull _ _ most _), .ok page =>
    { p with
      consumed := p.consumed + page.consumed
      pulled := p.pulled ++ page.records
      exhausted := page.consumed < most }
  | .store (.save _ txid), .ok _ => { p with stage := .saved txid }
  | .store (.save ..), .error _ => { p with stage := .unsaved }
  | .source (.reclaim ..), .ok _ => { p with stage := .released }
  | .source (.reclaim ..), .error _ => { p with stage := .stuck }
  | .buffer .ack, .ok _ => { p with stage := .acknowledged }
  | .buffer .ack, .error _ =>
    { p with stage := match p.stage with
      | .working => .unsaved
      | _ => .stuck }
  | _, _ => p

/-- The rules of a cycle. -/
def rules (options : SyncOptions) (kind : CycleKind) : CallRules Progress :=
  ⟨Allows options kind, next⟩

/-- A job knows what its cycle has learnt of its slot. -/
structure Agrees (options : SyncOptions) (job : Job) (p : Progress) : Prop where
  options : job.options = options
  slot : job.slot = p.slot

/-- How a cycle fails: not after its buffer was acknowledged. -/
structure Fails (options : SyncOptions) (job : Job) (p : Progress) : Prop
    extends Agrees options job p where
  stage : p.stage ≠ .acknowledged

/-- How a cycle succeeds. -/
structure Succeeds (options : SyncOptions) (kind : CycleKind) (job : Job) (p : Progress) : Prop
    extends Agrees options job p where
  read : p.HasRead kind

/-- How a cycle ends. -/
def Ends (options : SyncOptions) (kind : CycleKind) :
    Except SyncError CycleStats × Job → Progress → Prop
  | (.ok _, job), p => Succeeds options kind job p
  | (.error _, job), p => Fails options job p

theorem Ends.agrees {options : SyncOptions} {kind : CycleKind} {job : Job} {p : Progress}
    {result : Except SyncError CycleStats} (h : Ends options kind (result, job) p) :
    Agrees options job p := by
  cases result with
  | ok => exact Succeeds.toAgrees h
  | error => exact Fails.toAgrees h

theorem allows_of_apply {options : SyncOptions} {kind : CycleKind} {p : Progress} {call : Call}
    (hcall : call.IsApply) (hstage : p.stage = .working) (hread : p.HasRead kind) :
    Allows options kind p call := by
  cases call with
  | session call =>
    cases call with
    | transactionId => exact hcall.elim
    | _ => exact ⟨hstage, hcall, hread⟩
  | sink => exact ⟨hstage, hcall, hread⟩
  | clock => exact ⟨hstage, hcall, hread⟩
  | source => exact hcall.elim
  | buffer => exact hcall.elim
  | store => exact hcall.elim

theorem next_of_apply {p : Progress} {call : Call} (hcall : call.IsApply) (a : call.Answer) :
    p.next call a = p := by
  cases call with
  | session call =>
    cases call with
    | transactionId => exact hcall.elim
    | _ => rfl
  | sink => rfl
  | clock => rfl
  | source => exact hcall.elim
  | buffer => exact hcall.elim
  | store => exact hcall.elim

end Progress

namespace Job

open Progress Stateful

variable {options : SyncOptions} {kind : CycleKind} {job : Job} {p : Progress} {α : Type}
  {succeeds : α → Job → Progress → Prop}

/-- A routine that applies keeps to the rules once everything is read. -/
theorem follows_applies {a : Working α} (ha : Applies a) (hagrees : Agrees options job p)
    (hstage : p.stage = .working) (hread : p.HasRead kind)
    (h : ∀ value job', Agrees options job' p → succeeds value job' p) :
    Follows (rules options kind) (Fails options) succeeds a job p := by
  have hsame {job' : Job} (hframed : Framed.Same job job') : Agrees options job' p := by
    rw [hframed.2]
    exact ⟨hagrees.options, hagrees.slot⟩
  refine Program.Follows.of_asks (ha.asks job) (ha.yields job)
    (fun call hcall => allows_of_apply hcall hstage hread)
    (fun call hcall a => next_of_apply hcall a) fun r hr => ?_
  obtain ⟨e | value, job'⟩ := r
  · exact ⟨hsame hr, by simp [hstage]⟩
  · exact h value job' (hsame hr)

/-! ### Reading -/

theorem openSlot_follows {succeeds : String → Job → Progress → Prop} (hagrees : Agrees options job p)
    (hstage : p.stage = .working)
    (h : ∀ slot job', Agrees options job' { p with slot := some slot } →
      succeeds slot job' { p with slot := some slot }) :
    Follows (rules options kind) (Fails options) succeeds openSlot job p := by
  obtain ⟨hoptions, hslot⟩ := hagrees
  obtain ⟨plan, jobOptions, writer, remembered, phase⟩ := job
  dsimp only at hoptions hslot
  cases remembered with
  | some slot =>
    have hdone := h slot ⟨plan, jobOptions, writer, some slot, phase⟩
    have hsame : { p with slot := some slot } = p := by rw [hslot]
    rw [hsame] at hdone
    exact hdone ⟨hoptions, hslot⟩
  | none =>
    refine ⟨⟨hstage, hslot.symm, hoptions ▸ rfl⟩, fun a => ?_⟩
    cases a with
    | error e => exact ⟨⟨hoptions, hslot⟩, by simp [rules, Progress.next, hstage]⟩
    | ok slot => exact h slot _ ⟨hoptions, rfl⟩

theorem checkpoint_follows {succeeds : Option Nat → Job → Progress → Prop}
    (hagrees : Agrees options job p) (hstage : p.stage = .working) (hloaded : p.loaded = none)
    (h : ∀ mark, succeeds mark job { p with loaded := some (mark.getD 0) }) :
    Follows (rules options .receive) (Fails options) succeeds checkpoint job p := by
  refine ⟨⟨hstage, rfl, hloaded, hagrees.options ▸ rfl⟩, fun a => ?_⟩
  cases a with
  | error e => exact ⟨hagrees, by simp [rules, Progress.next, hstage]⟩
  | ok mark => exact h mark

theorem currentTxmax_follows {succeeds : Nat → Job → Progress → Prop}
    (hagrees : Agrees options job p) (hstage : p.stage = .working) (hseen : p.seen = none)
    (h : ∀ txmax, succeeds txmax job { p with seen := some txmax }) :
    Follows (rules options kind) (Fails options) succeeds currentTxmax job p := by
  refine ⟨⟨hstage, hseen⟩, fun a => ?_⟩
  cases a with
  | error e => exact ⟨hagrees, by simp [rules, Progress.next, hstage]⟩
  | ok txmax => exact h txmax

theorem drain_follows {succeeds : List ChangeRecord → Job → Progress → Prop}
    (hagrees : Agrees options job p) (hstage : p.stage = .working) (hdrained : p.drained = none)
    (h : ∀ records, succeeds records job { p with drained := some records }) :
    Follows (rules options kind) (Fails options) succeeds drain job p := by
  refine ⟨⟨hstage, hdrained⟩, fun a => ?_⟩
  cases a with
  | error e => exact ⟨hagrees, by simp [rules, Progress.next, hstage]⟩
  | ok records => exact h records

/-- The pages of a pull come one behind the other, up to the last. -/
theorem pullPages_follows {ends : Except Failure (List ChangeRecord) → Progress → Prop}
    {slot : String} {most pages : Nat} (hstage : p.stage = .working) (hslot : p.slot = some slot)
    (hloaded : p.loaded.isSome) (hseen : p.seen.isSome) (hwindow : p.window.isEmpty = false)
    (hmost : most = max options.maxChanges 1) (hexhausted : p.exhausted = false)
    (hok : ∀ records consumed, ends (.ok records)
      { p with consumed := consumed, pulled := p.pulled ++ records, exhausted := true })
    (herror : ∀ e records consumed, ends (.error e)
      { p with consumed := consumed, pulled := p.pulled ++ records }) :
    (pullPages slot p.window most pages p.consumed).run.Follows (rules options .receive) ends p := by
  induction pages generalizing p ends with
  | zero => trivial
  | succ pages ih =>
    refine ⟨⟨hstage, rfl, hslot, hloaded, hseen, rfl, hwindow, hmost, rfl, hexhausted⟩, fun a => ?_⟩
    cases a with
    | error e =>
      change ends (.error _) p
      simpa using herror _ [] p.consumed
    | ok page =>
      change Program.Follows _ _ (ExceptT.run (if page.consumed < most then _ else _)) _
      split
      · rename_i hlast
        have hdone := hok page.records (p.consumed + page.consumed)
        change ends (.ok page.records) _
        simpa [rules, Progress.next, hlast] using hdone
      · rename_i hmore
        refine Program.Follows.bind (Program.Follows.mono (fun r p hr => hr)
          (ih (p := p.next (.source (.pull slot p.window most p.consumed)) (.ok page))
            hstage hslot hloaded hseen hwindow ?_ ?_ ?_))
        · simp [Progress.next, hmore]
        · intro records consumed
          have hdone := hok (page.records ++ records) consumed
          change ends (.ok (page.records ++ records)) _
          simpa [Progress.next, hmore] using hdone
        · intro e records consumed
          have hfailed := herror e (page.records ++ records) consumed
          change ends (.error e) _
          simpa [Progress.next, hmore, hexhausted] using hfailed

theorem pullWindow_follows {succeeds : List ChangeRecord → Job → Progress → Prop} {slot : String}
    {pages : Nat} (hagrees : Agrees options job p) (hstage : p.stage = .working)
    (hslot : p.slot = some slot) (hloaded : p.loaded.isSome) (hseen : p.seen.isSome)
    (hwindow : p.window.isEmpty = false) (hpulled : p.consumed = 0 ∧ p.exhausted = false)
    (h : ∀ records consumed, succeeds records job
      { p with consumed := consumed, pulled := p.pulled ++ records, exhausted := true }) :
    Follows (rules options .receive) (Fails options) succeeds (pullWindow pages slot p.window) job p := by
  change Follows _ _ _ (Working.attempt ((pullPages slot p.window (max job.options.maxChanges 1) pages
    0).mapError .transport)) job p
  rw [← hpulled.1]
  refine follows_attempt (follows_mapError (pullPages_follows hstage hslot hloaded hseen hwindow ?_
    hpulled.2 h fun e records consumed => ?_))
  · rw [hagrees.options]
  · exact ⟨⟨hagrees.options, hagrees.slot⟩, by simp [hstage]⟩

/-- What a receive cycle has read is what it learnt. -/
structure Learnt (p : Progress) (reading : Reading) : Prop where
  slot : p.slot = some reading.slot
  window : reading.window = p.window
  read : p.HasRead .receive
  stage : p.stage = .working

theorem readChanges_follows {pages : Nat} {succeeds : Reading → Job → Progress → Prop}
    (hjob : job.options = options)
    (h : ∀ reading job' p, Agrees options job' p → Learnt p reading → succeeds reading job' p) :
    Follows (rules options .receive) (Fails options) succeeds (readChanges pages) job (.begin job) := by
  refine .bind (openSlot_follows ⟨hjob, rfl⟩ rfl fun slot job₁ hagrees => ?_)
  refine .bind (checkpoint_follows hagrees rfl rfl fun mark => ?_)
  refine .bind (currentTxmax_follows ⟨hagrees.options, hagrees.slot⟩ rfl rfl fun txmax => ?_)
  refine follows_enter_bind ?_
  refine .bind (drain_follows ⟨hagrees.options, hagrees.slot⟩ rfl rfl fun buffered => ?_)
  generalize hp : ({ Progress.begin job with
    slot := some slot, loaded := some (mark.getD 0), seen := some txmax,
    drained := some buffered } : Progress) = p
  have hwindow : p.window = ⟨mark.getD 0, max txmax (mark.getD 0)⟩ := by rw [← hp]; rfl
  rw [← hwindow]
  have hagrees' (phase : Phase) : Agrees options { job₁ with phase := phase } p :=
    ⟨hagrees.options, hagrees.slot.trans (by rw [← hp])⟩
  have hread (hdone : p.window.isEmpty = false → p.exhausted = true) : p.HasRead .receive := by
    subst hp
    exact ⟨rfl, rfl, rfl, rfl, hdone⟩
  have hslot : p.slot = some slot := by rw [← hp]
  have hstage : p.stage = .working := by rw [← hp]; rfl
  split
  · rename_i hnothing
    have hempty : p.window.isEmpty = true := (Bool.and_eq_true_iff.mp hnothing).1
    exact h _ _ p (hagrees' _) ⟨hslot, rfl, hread (by simp [hempty]), hstage⟩
  refine follows_enter_bind ?_
  dsimp only
  split
  · rename_i hempty
    exact h _ _ p (hagrees' _) ⟨hslot, rfl, hread (by simp [hempty]), hstage⟩
  · rename_i hnonempty
    rw [Bool.not_eq_true] at hnonempty
    refine .bind (pullWindow_follows (hagrees' _) hstage hslot (by rw [← hp]; rfl) (by rw [← hp]; rfl)
      hnonempty (by rw [← hp]; exact ⟨rfl, rfl⟩) fun records consumed => ?_)
    refine h _ _ _ ⟨(hagrees' .applying).options, (hagrees' .applying).slot⟩
      ⟨hslot, rfl, ?_, hstage⟩
    subst hp
    exact ⟨rfl, rfl, rfl, rfl, fun _ => rfl⟩

/-! ### The end of a cycle -/

theorem persist_follows {succeeds : Unit → Job → Progress → Prop} {slot : String} {txmax : Nat}
    (hagrees : Agrees options job p) (hstage : p.stage = .working) (hslot : p.slot = some slot)
    (hseen : p.seen = some txmax) (hread : p.HasRead kind)
    (h : succeeds () job { p with stage := .released }) :
    Follows (rules options kind) (Fails options) succeeds (persist slot txmax) job p := by
  refine ⟨⟨hstage, hread, hagrees.options ▸ rfl, hseen⟩, fun saved => ?_⟩
  cases saved with
  | error e => exact ⟨⟨hagrees.options, hagrees.slot⟩, by simp [rules, Progress.next]⟩
  | ok mark =>
    have hread' : (p.next (.store (.save job.options.index txmax)) (.ok mark)).HasRead kind := by
      cases kind <;> exact hread
    refine ⟨⟨rfl, hslot, hread'⟩, fun released => ?_⟩
    cases released with
    | error e => exact ⟨⟨hagrees.options, hagrees.slot⟩, by simp [rules, Progress.next]⟩
    | ok => exact h

theorem ack_follows {succeeds : Unit → Job → Progress → Prop} (hagrees : Agrees options job p)
    (hstage : p.stage = .released ∨ p.stage = .working ∧ kind = .receive ∧ p.window.isEmpty = true)
    (hread : p.HasRead kind) (h : succeeds () job { p with stage := .acknowledged }) :
    Follows (rules options kind) (Fails options) succeeds ack job p := by
  refine ⟨⟨hstage, hread⟩, fun acked => ?_⟩
  cases acked with
  | error e =>
    refine ⟨⟨hagrees.options, hagrees.slot⟩, ?_⟩
    rcases hstage with hstage | ⟨hstage, -⟩ <;> simp [rules, Progress.next, hstage]
  | ok => exact h

theorem applyReading_follows {pages : Nat} {reading : Reading} (hagrees : Agrees options job p)
    (hlearnt : Learnt p reading) :
    Follows (rules options .receive) (Fails options) (fun _ => Succeeds options .receive)
      (applyReading pages reading) job p := by
  obtain ⟨hslot, hwindow, hread, hstage⟩ := hlearnt
  have hdone (job' : Job) (stage : Stage) (h : Agrees options job' { p with stage := stage }) :
      Succeeds options .receive job' { p with stage := stage } := ⟨h, hread⟩
  unfold applyReading
  dsimp only
  split
  · exact ⟨⟨hagrees.options, hagrees.slot⟩, hread⟩
  refine .bind (follows_applies (applyRecords_applies _ _ _) hagrees hstage hread
    fun stats job' hagrees' => ?_)
  refine follows_enter_bind ?_
  split
  · rename_i hnonempty
    have hseen : p.seen = some reading.window.txmax := by
      have hopen : p.window.isEmpty = false := by simpa [hwindow] using hnonempty
      rw [hwindow]
      cases hp : p.seen with
      | none => simp [Progress.HasRead, hp] at hread
      | some txmax =>
        simp only [Progress.window, TxWindow.isEmpty, hp, Option.getD_some, ge_iff_le,
          decide_eq_false_iff_not, Option.some.injEq] at hopen ⊢
        omega
    refine .bind (persist_follows ⟨hagrees'.options, hagrees'.slot⟩ hstage hslot hseen hread ?_)
    refine .bind (ack_follows ⟨hagrees'.options, hagrees'.slot⟩ (.inl rfl) hread ?_)
    exact hdone _ .acknowledged ⟨hagrees'.options, hagrees'.slot⟩
  · rename_i hempty
    have hempty' : p.window.isEmpty = true := by simpa [hwindow] using hempty
    refine .bind (ack_follows ⟨hagrees'.options, hagrees'.slot⟩ (.inr ⟨hstage, rfl, hempty'⟩) hread ?_)
    exact hdone _ .acknowledged ⟨hagrees'.options, hagrees'.slot⟩

/-! ### Cycles -/

theorem receiveOnce_follows {pages : Nat} (hjob : job.options = options) :
    Follows (rules options .receive) (Fails options) (fun _ => Succeeds options .receive)
      (receiveOnce pages) job (.begin job) :=
  .bind (readChanges_follows hjob fun _ _ _ hagrees hlearnt => applyReading_follows hagrees hlearnt)

theorem fullResync_follows {pages : Nat} (hjob : job.options = options) :
    Follows (rules options .resync) (Fails options) (fun _ => Succeeds options .resync)
      (fullResync pages) job (.begin job) := by
  refine .bind (openSlot_follows ⟨hjob, rfl⟩ rfl fun slot job₁ hagrees => ?_)
  refine .bind (drain_follows hagrees rfl rfl fun buffered => ?_)
  refine .bind (currentTxmax_follows ⟨hagrees.options, hagrees.slot⟩ rfl rfl fun txmax => ?_)
  generalize hp : ({ Progress.begin job with
    slot := some slot, drained := some buffered, seen := some txmax } : Progress) = p
  have hread : p.HasRead .resync := by
    subst hp
    exact ⟨rfl, rfl, rfl⟩
  have hstage : p.stage = .working := by rw [← hp]; rfl
  have hagrees' : Agrees options { job₁ with phase := .applying } p :=
    ⟨hagrees.options, hagrees.slot.trans (by rw [← hp])⟩
  refine follows_enter_bind ?_
  refine .bind (follows_applies (rederive_applies pages) hagrees' hstage hread
    fun stats job₂ hagrees₂ => ?_)
  refine follows_enter_bind ?_
  refine .bind (persist_follows ⟨hagrees₂.options, hagrees₂.slot⟩ hstage (by rw [← hp])
    (by rw [← hp]) hread ?_)
  refine .bind (ack_follows ⟨hagrees₂.options, hagrees₂.slot⟩ (.inl rfl) hread ?_)
  exact ⟨⟨hagrees₂.options, hagrees₂.slot⟩, hread⟩

/-- Whatever it is answered, a cycle follows its rules. -/
theorem cycle_follows (kind : CycleKind) {pages : Nat} (hjob : job.options = options) :
    ((kind.cycle pages).run.run job).Follows (rules options kind) (Ends options kind) (.begin job) := by
  have hfollows : Follows (rules options kind) (Fails options) (fun _ => Succeeds options kind)
      (kind.cycle pages) job (.begin job) := by
    cases kind with
    | resync => exact fullResync_follows hjob
    | receive => exact receiveOnce_follows hjob
  refine Program.Follows.mono (fun r p hr => ?_) hfollows
  obtain ⟨_ | _, _⟩ := r <;> exact hr

end Job

end DocSync
