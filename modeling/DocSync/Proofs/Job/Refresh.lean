import DocSync.Proofs.Conversation
import DocSync.Proofs.Job.Aside
import DocSync.Proofs.Job.Turn
import Mathlib.Data.List.Induction

/-!
Lookups and the writes before them.  A sink shows a write to lookups from the next refresh on.  Within a
cycle every lookup comes before every write, and a cycle that succeeds refreshes after its last write.
A cycle that fails may leave a write behind, and no later cycle refreshes for it.  Main statement: a
lookup runs behind a write exactly when such a cycle failed before and nothing was refreshed since.
-/

namespace DocSync

/-- The calls of resolving that read documents back. -/
def Call.LooksUp : Call → Prop
  | .sink (.findByMeta ..) => True
  | _ => False

/-- Calls after which the sink shows what it showed before, and which read nothing back. -/
def Call.IsBlind : Call → Prop
  | .sink (.identities _) => True
  | .sink _ => False
  | _ => True

theorem Call.IsFetch.isBlind {call : Call} (h : call.IsFetch) : call.IsBlind := by
  cases call with
  | sink => exact h.elim
  | _ => trivial

namespace Turn

/-- The sink accepts a write. -/
def Accepts : Turn → Prop
  | ⟨.sink (.upsert _), .ok _⟩ => True
  | ⟨.sink (.delete ..), .ok _⟩ => True
  | _ => False

/-- The sink accepts a refresh. -/
def Refreshes : Turn → Prop
  | ⟨.sink (.refresh _), .ok _⟩ => True
  | _ => False

end Turn

/-- Some accepted write has no accepted refresh after it. -/
def Behind : List Turn → Prop
  | [] => False
  | turn :: rest => Behind rest ∨ turn.Accepts ∧ ∀ later ∈ rest, ¬ later.Refreshes

theorem behind_append (trace later : List Turn) :
    Behind (trace ++ later) ↔ Behind later ∨ Behind trace ∧ ∀ turn ∈ later, ¬ turn.Refreshes := by
  induction trace with
  | nil => simp [Behind]
  | cons turn rest ih =>
    simp only [List.cons_append, Behind, ih, List.mem_append, or_imp, forall_and]
    constructor
    · rintro ((h | ⟨hrest, hlater⟩) | ⟨haccepts, hrest, hlater⟩)
      · exact .inl h
      · exact .inr ⟨.inl hrest, hlater⟩
      · exact .inr ⟨.inr ⟨haccepts, hrest⟩, hlater⟩
    · rintro (h | ⟨hrest | ⟨haccepts, hrest⟩, hlater⟩)
      · exact .inl (.inl h)
      · exact .inl (.inr ⟨hrest, hlater⟩)
      · exact .inr ⟨haccepts, hrest, hlater⟩

/-! ### Rules for lookups -/

/-- What a sink shows of the writes of a cycle: there are none yet, the last one is not shown yet, or
all are. -/
inductive Visibility where
  | untouched
  | behind
  | shown

namespace Visibility

def next (v : Visibility) : (call : Call) → call.Answer → Visibility
  | .sink (.upsert _), .ok _ => behind
  | .sink (.delete ..), .ok _ => behind
  | .sink (.refresh _), .ok _ => shown
  | _, _ => v

/-- A lookup comes before all writes and refreshes of its cycle. -/
def rules : CallRules Visibility := ⟨fun v call => call.LooksUp → v = untouched, next⟩

variable {v v' : Visibility}

theorem next_of_accepts {turn : Turn} (h : turn.Accepts) : v.next turn.1 turn.2 = behind := by
  unfold Turn.Accepts at h
  split at h
  · rfl
  · rfl
  · exact h.elim

theorem next_of_refreshes {turn : Turn} (h : turn.Refreshes) : v.next turn.1 turn.2 = shown := by
  unfold Turn.Refreshes at h
  split at h
  · rfl
  · exact h.elim

theorem next_of_neither {turn : Turn} (haccepts : ¬ turn.Accepts) (hrefreshes : ¬ turn.Refreshes) :
    v.next turn.1 turn.2 = v := by
  obtain ⟨call, answer⟩ := turn
  cases call with
  | sink call =>
    cases call with
    | upsert | delete =>
      cases answer with
      | ok => exact (haccepts trivial).elim
      | error => rfl
    | refresh =>
      cases answer with
      | ok => exact (hrefreshes trivial).elim
      | error => rfl
    | _ => rfl
  | _ => rfl

theorem next_of_blind {call : Call} (h : call.IsBlind) (a : call.Answer) : v.next call a = v := by
  cases call with
  | sink call =>
    cases call with
    | identities => rfl
    | _ => exact h.elim
  | _ => rfl

theorem after_append (trace : List Turn) (turn : Turn) :
    rules.after v (trace ++ [turn]) = (rules.after v trace).next turn.1 turn.2 := by
  rw [Rules.after, List.foldl_append]
  rfl

/-- A turn that neither writes nor refreshes, told from the others. -/
theorem cases_turn (turn : Turn) :
    turn.Accepts ∧ ¬ turn.Refreshes ∨ ¬ turn.Accepts ∧ turn.Refreshes ∨
      ¬ turn.Accepts ∧ ¬ turn.Refreshes := by
  by_cases haccepts : turn.Accepts
  · refine .inl ⟨haccepts, fun hrefreshes => ?_⟩
    have hsame := (next_of_accepts haccepts).symm.trans (next_of_refreshes (v := untouched) hrefreshes)
    contradiction
  · by_cases hrefreshes : turn.Refreshes
    · exact .inr (.inl ⟨haccepts, hrefreshes⟩)
    · exact .inr (.inr ⟨haccepts, hrefreshes⟩)

theorem after_behind (trace : List Turn) :
    rules.after untouched trace = behind ↔ Behind trace := by
  induction trace using List.reverseRecOn with
  | nil => simp [Rules.after, Behind]
  | append_singleton trace turn ih =>
    rw [after_append, behind_append]
    rcases cases_turn turn with ⟨haccepts, hrefreshes⟩ | ⟨haccepts, hrefreshes⟩ | ⟨haccepts, hrefreshes⟩
    · simp [next_of_accepts haccepts, Behind, haccepts]
    · simp [next_of_refreshes hrefreshes, Behind, haccepts, hrefreshes]
    · simp [next_of_neither haccepts hrefreshes, Behind, haccepts, hrefreshes, ih]

/-- Where a cycle is untouched, it has neither written nor refreshed. -/
theorem after_untouched {trace : List Turn} (h : rules.after untouched trace = untouched) :
    ∀ turn ∈ trace, ¬ turn.Accepts ∧ ¬ turn.Refreshes := by
  induction trace using List.reverseRecOn with
  | nil => simp
  | append_singleton trace turn ih =>
    rw [after_append] at h
    rcases cases_turn turn with ⟨haccepts, -⟩ | ⟨-, hrefreshes⟩ | hneither
    · rw [next_of_accepts haccepts] at h
      contradiction
    · rw [next_of_refreshes hrefreshes] at h
      contradiction
    · rw [next_of_neither hneither.1 hneither.2] at h
      intro t ht
      rcases List.mem_append.mp ht with ht | ht
      · exact ih h t ht
      · rw [List.mem_singleton.mp ht]
        exact hneither

end Visibility

/-! ### What routines leave -/

/-- Whatever the answers, the routine keeps to the rules from `v` on, and where it succeeds it ends as it
should. -/
def Shows {σ α : Type} (succeeds : α → Visibility → Prop) (a : Stateful σ α) (v : Visibility) : Prop :=
  ∀ st, Stateful.Follows Visibility.rules (fun _ _ => True) (fun value _ v' => succeeds value v') a st v

section

variable {σ α β : Type} {v : Visibility} {succeeds : α → Visibility → Prop}

theorem shows_pure {value : α} (h : succeeds value v) :
    Shows succeeds (pure value : Stateful σ α) v :=
  fun _ => h

theorem Shows.bind {begins : β → Visibility → Prop} {a : Stateful σ β} {f : β → Stateful σ α}
    (ha : Shows begins a v) (hf : ∀ b v', begins b v' → Shows succeeds (f b) v') :
    Shows succeeds (a >>= f) v := by
  intro st
  refine Stateful.Follows.bind (Program.Follows.mono (fun r v' hr => ?_) (ha st))
  obtain ⟨e | b, st'⟩ := r
  · trivial
  · exact hf b v' hr st'

theorem Shows.map {begins : β → Visibility → Prop} {a : Stateful σ β} {f : β → α}
    (ha : Shows begins a v) (hf : ∀ b v', begins b v' → succeeds (f b) v') :
    Shows succeeds (f <$> a) v := by
  rw [← bind_pure_comp]
  exact ha.bind fun b v' hb => shows_pure (hf b v' hb)

theorem shows_get_bind {f : σ → Stateful σ α} (h : ∀ st, Shows succeeds (f st) v) :
    Shows succeeds (get >>= f) v :=
  fun st => h st st

theorem shows_blind {a : Stateful σ α} (ha : Stateful.Asks Call.IsBlind a) :
    Shows (fun _ v' => v' = v) a v := by
  intro st
  refine Stateful.follows_of_asks ha (fun call hcall hlooks => ?_)
    (fun _ hcall => Visibility.next_of_blind hcall) (fun _ => trivial) fun _ _ => rfl
  cases call with
  | sink call =>
    cases call with
    | findByMeta => exact hcall.elim
    | _ => exact hlooks.elim
  | _ => exact hlooks.elim

/-- Lookups are allowed where nothing was written. -/
theorem shows_lookups {a : Stateful σ α} (ha : Stateful.Asks Call.IsLookup a) :
    Shows (fun _ v' => v' = .untouched) a .untouched := by
  intro st
  refine Stateful.follows_of_asks ha (fun _ _ _ => rfl) (fun call hcall answer => ?_)
    (fun _ => trivial) fun _ _ => rfl
  cases call with
  | sink call =>
    cases call with
    | findByMeta => rfl
    | _ => exact hcall.elim
  | _ => rfl

theorem shows_writing {a : Writing α} (ha : Shows succeeds a v) :
    Shows succeeds (Working.writing a) v :=
  fun job => Stateful.follows_writing (ha job.writer)

end

/-! ### Writes that owe a refresh -/

/-- Some outcomes come of an accepted write. -/
def WriteOutcome.Counts (outcome : WriteOutcome) : Prop := outcome = .upserted ∨ outcome = .deleted

namespace Visibility

/-- What a write leaves: the cycle as it was, or a write that counts and is not shown yet. -/
def Written (v : Visibility) (outcome : WriteOutcome) (v' : Visibility) : Prop :=
  v' = v ∨ outcome.Counts ∧ v' = behind

end Visibility

namespace Writer

variable {v : Visibility}

/-- A request that is tried again ends as it does at once. -/
theorem send_follows {α : Type} {ends : Except SinkError α → Visibility → Prop}
    {request : Routine (Except SinkError α)} (writer : Writer)
    (hrequest : request.Follows Visibility.rules ends v)
    (herror : ∀ e v', ends (.error e) v' → v' = v) :
    (writer.send request).Follows Visibility.rules ends v := by
  have hretry : ∀ (retries attempt delay : Nat),
      (retryFrom (fun _ => Attempt.ofRoutine request) SinkError.isTransient attempt retries
        delay).run.Follows Visibility.rules ends v := by
    intro retries
    induction retries with
    | zero => exact fun _ _ => hrequest
    | succ retries ih =>
      intro attempt delay
      refine Program.Follows.bind (Program.Follows.mono (fun r v' hr => ?_) hrequest)
      cases r with
      | ok value => exact hr
      | error e =>
        obtain rfl := herror e v' hr
        by_cases htransient : e.isTransient
        · simp only [htransient, if_true]
          exact ⟨fun hlooks => hlooks.elim, fun _ => ih _ _⟩
        · simp only [htransient]
          exact hr
  exact hretry _ _ _

/-- An answered write is accepted and not shown yet, or leaves the cycle as it was. -/
def Sends (v : Visibility) : Except SinkError Unit → Visibility → Prop
  | .ok (), v' => v' = .behind
  | .error _, v' => v' = v

theorem write_shows {request : Routine (Except SinkError Unit)} {accepted : WriteOutcome}
    {change : Keyed String → Keyed String} (haccepted : accepted.Counts)
    (hrequest : request.Follows Visibility.rules (Sends v) v) :
    Shows (Visibility.Written v) (write request accepted change) v := by
  refine shows_get_bind fun writer => ?_
  have hsend : Shows (Sends v) (liftM (writer.send request) : Writing _) v :=
    fun _ => Stateful.follows_lift (send_follows writer hrequest fun _ _ h => h)
  refine hsend.bind fun sent v' hsent => ?_
  cases sent with
  | ok => exact fun _ => .inr ⟨haccepted, hsent⟩
  | error e =>
    intro writer'
    obtain rfl : v' = v := hsent
    change Program.Follows _ _ (.done (outcomeOfError e, writer')) _
    unfold outcomeOfError
    split
    · trivial
    · exact .inl rfl

theorem upsert_shows (d : Document) : Shows (Visibility.Written v) (upsert d) v := by
  refine shows_get_bind fun writer => ?_
  split
  · exact shows_pure (.inl rfl)
  · refine write_shows (.inl rfl) ⟨fun hlooks => hlooks.elim, fun answer => ?_⟩
    cases answer <;> rfl

theorem delete_shows (identity : String) : Shows (Visibility.Written v) (delete identity) v := by
  refine shows_get_bind fun writer => ?_
  refine write_shows (.inr rfl) ⟨fun hlooks => hlooks.elim, fun answer => ?_⟩
  cases answer <;> rfl

theorem deleteAll_shows (identities : List String) :
    Shows (fun _ _ => True) (deleteAll identities) v := by
  induction identities generalizing v with
  | nil => exact shows_pure trivial
  | cons identity rest ih =>
    exact (delete_shows identity).bind fun _ _ _ => ih.bind fun _ _ _ => shows_pure trivial

theorem reconcile_shows (seen : List String) : Shows (fun _ _ => True) (reconcile seen) v := by
  have hknown (writer : Writer) : writer.known.Asks Call.IsBlind :=
    (Attempt.asks_mapError (send_asks (fun _ => trivial) writer (ask_asks trivial))).bind fun _ =>
      Attempt.asks_pure _
  refine (shows_blind (Writing.asks_reading hknown)).bind fun _ _ _ => ?_
  exact deleteAll_shows _

/-- A refresh shows all when it is accepted. -/
def Refreshed (v : Visibility) {α : Type} : Except SinkError α → Visibility → Prop
  | .ok _, v' => v' = .shown
  | .error _, v' => v' = v

theorem refresh_shows (writer : Writer) :
    Shows (fun _ v' => v' = .shown) (Working.attempt writer.refresh) v := by
  intro job
  have hrequest : (ask (.refresh writer.index)).Follows Visibility.rules (Refreshed v) v := by
    refine ⟨fun hlooks => hlooks.elim, fun answer => ?_⟩
    cases answer <;> rfl
  have hsend := send_follows writer hrequest fun _ _ h => h
  refine Stateful.follows_attempt (Stateful.follows_mapError (hsend.mono fun r v' hr => ?_))
  cases r with
  | ok => exact hr
  | error => trivial

end Writer

namespace CycleStats

/-- The statistics count the writes of a cycle that are not shown yet. -/
def Owes (stats : CycleStats) (v : Visibility) : Prop := v = .behind → 0 < stats.mutations

variable {stats : CycleStats} {v v' : Visibility}

theorem Owes.skip (h : stats.Owes v) (reason : String) : (stats.skip reason).Owes v := h

theorem Owes.record (h : stats.Owes v) {outcome : WriteOutcome} (hwritten : v.Written outcome v') :
    (stats.record outcome).Owes v' := by
  have hcounts : outcome.Counts → 0 < (stats.record outcome).mutations := by
    rintro (rfl | rfl) <;> simp only [CycleStats.record, CycleStats.mutations] <;> omega
  have hgrows : stats.mutations ≤ (stats.record outcome).mutations := by
    cases outcome <;> simp only [CycleStats.record, CycleStats.skip, CycleStats.mutations] <;> omega
  rcases hwritten with rfl | ⟨houtcome, rfl⟩
  · exact fun hbehind => Nat.lt_of_lt_of_le (h hbehind) hgrows
  · exact fun _ => hcounts houtcome

end CycleStats

namespace Job

open Working

variable {v : Visibility} {stats : CycleStats}

theorem writeTree_shows (h : stats.Owes v) (seen : List String) (tree : RowTree) :
    Shows (fun r v' => r.1.Owes v') (writeTree stats seen tree) v := by
  refine shows_get_bind fun job => ?_
  split
  · exact shows_pure (h.skip _)
  · exact (shows_writing (Writer.upsert_shows _)).bind fun _ _ hwritten =>
      shows_pure (h.record hwritten)

theorem writeTrees_shows (h : stats.Owes v) (seen : List String) (trees : List RowTree) :
    Shows (fun r v' => r.1.Owes v') (writeTrees trees stats seen) v := by
  induction trees generalizing v stats seen with
  | nil => exact shows_pure h
  | cons tree rest ih =>
    exact (writeTree_shows h seen tree).bind fun r _ howes => ih howes r.2

theorem scanPages_shows (h : stats.Owes v) (scan : RootScan) (pages : Nat) (seen : List String) :
    Shows (fun r v' => r.1.Owes v') (scanPages scan pages stats seen) v := by
  induction pages generalizing v stats scan seen with
  | zero => exact fun _ => trivial
  | succ pages ih =>
    refine shows_get_bind fun job => ?_
    have hpage : Stateful.Asks Call.IsBlind (transported (scan.nextPage job.plan)) :=
      asks_transported ((nextPage_asks _ _).mono fun _ hfetch => hfetch.isBlind)
    refine (shows_blind hpage).bind ?_
    rintro r _ rfl
    dsimp only
    split
    · exact shows_pure h
    · exact (writeTrees_shows h seen _).bind fun written _ howes => ih howes _ written.2

theorem scanAll_shows (h : stats.Owes v) (pages : Nat) :
    Shows (fun r v' => r.1.Owes v') (scanAll pages stats) v :=
  shows_get_bind fun _ => scanPages_shows h _ _ _

theorem rederive_shows (pages : Nat) : Shows (fun _ v' => v' = .shown) (rederive pages) .untouched := by
  have hnone : CycleStats.empty.Owes .untouched := fun hbehind => by contradiction
  refine (scanAll_shows hnone pages).bind fun _ _ _ => ?_
  refine (shows_writing (Writer.reconcile_shows _)).bind fun _ _ _ => ?_
  refine shows_get_bind fun job => ?_
  exact (Writer.refresh_shows job.writer).bind fun _ _ hshown => shows_pure hshown

theorem fetchKeys_shows (keys : List (List Json)) : Shows (fun _ v' => v' = v) (fetchKeys keys) v :=
  shows_get_bind fun _ =>
    shows_blind (asks_transported ((fetchRoots_asks _ _).mono fun _ hfetch => hfetch.isBlind))

theorem compileTrees_owes (h : stats.Owes v) (job : Job) (trees : List RowTree) :
    (compileTrees job trees stats).1.Owes v := by
  induction trees generalizing stats with
  | nil => exact h
  | cons tree rest ih =>
    rw [compileTrees]
    split
    · exact ih (h.skip _)
    · exact ih h

theorem fetchOne_shows (h : stats.Owes v) (op : RootOp) :
    Shows (fun r v' => r.2.Owes v') (fetchOne op stats) v := by
  refine shows_get_bind fun job => (fetchKeys_shows _).bind ?_
  rintro trees _ rfl
  split
  · exact shows_pure h
  · split
    · exact shows_pure h
    · exact shows_pure (h.skip _)

theorem fetchUnmatched_shows (h : stats.Owes v) (ops : List (RootOp × Option Document)) :
    Shows (fun r v' => r.2.Owes v') (fetchUnmatched ops stats) v := by
  induction ops generalizing v stats with
  | nil => exact shows_pure h
  | cons first rest ih =>
    obtain ⟨op, _ | document⟩ := first
    · exact (fetchOne_shows h op).bind fun _ _ howes => (ih howes).bind fun _ _ howes =>
        shows_pure howes
    · exact (ih h).bind fun _ _ howes => shows_pure howes

theorem settle_shows (h : stats.Owes v) (ops : List (RootOp × Option Document)) :
    Shows (fun stats v' => stats.Owes v') (settle ops stats) v := by
  induction ops generalizing v stats with
  | nil => exact shows_pure h
  | cons first rest ih =>
    obtain ⟨op, _ | document⟩ := first
    · exact (shows_writing (Writer.delete_shows _)).bind fun _ _ hwritten => ih (h.record hwritten)
    · exact (shows_writing (Writer.upsert_shows _)).bind fun _ _ hwritten => ih (h.record hwritten)

theorem applyChunk_shows (h : stats.Owes v) (ops : List RootOp) :
    Shows (fun stats v' => stats.Owes v') (applyChunk ops stats) v := by
  refine (fetchKeys_shows _).bind ?_
  rintro trees _ rfl
  refine shows_get_bind fun job => ?_
  have howes := compileTrees_owes h job trees
  dsimp only
  split
  · exact settle_shows howes _
  · exact (fetchUnmatched_shows howes _).bind fun _ _ howes => settle_shows howes _

theorem applyOps_shows (h : stats.Owes v) (ops : List RootOp) :
    Shows (fun stats v' => stats.Owes v') (applyOps ops stats) v := by
  refine shows_get_bind fun job => ?_
  generalize chunks _ _ = parts
  induction parts generalizing v stats with
  | nil => exact shows_pure h
  | cons first rest ih => exact (applyChunk_shows h first).bind fun _ _ howes => ih howes

theorem applyRecords_shows (pages : Nat) (records : List ChangeRecord) (stats : CycleStats) :
    Shows (fun _ v' => v' ≠ .behind) (applyRecords pages records stats) .untouched := by
  have hrefresh {stats : CycleStats} {v : Visibility} (h : stats.Owes v) :
      Shows (fun _ v' => v' ≠ .behind) (do
        if stats.mutations > 0 then attempt (← get).writer.refresh
        return stats : Working CycleStats) v := by
    split
    · refine shows_get_bind fun job => ?_
      refine (Writer.refresh_shows job.writer).bind ?_
      rintro _ _ rfl
      exact shows_pure (by simp)
    · rename_i hnone
      exact shows_pure fun hbehind => hnone (h hbehind)
  refine shows_get_bind fun job => ?_
  have hresolve : Stateful.Asks Call.IsLookup
      (attempt (resolve job.plan job.writer (coalesce job.plan records))) :=
    asks_attempt (resolve_asks _ _ _)
  refine (shows_lookups hresolve).bind ?_
  rintro resolution _ rfl
  have hnone : { stats with changes := records.length : CycleStats }.Owes .untouched :=
    fun hbehind => by contradiction
  refine (applyOps_shows hnone _).bind fun stats v howes => ?_
  split
  · have hscan : Shows (fun stats v' => stats.Owes v') (Prod.fst <$> scanAll pages stats) v :=
      (scanAll_shows howes pages).map fun _ _ howes => howes
    exact hscan.bind fun _ _ => hrefresh
  · have hnothing : Shows (fun stats v' => stats.Owes v') (pure stats : Working _) v :=
      shows_pure howes
    exact hnothing.bind fun _ _ => hrefresh

/-! ### Cycles -/

theorem openSlot_shows : Shows (fun _ v' => v' = v) openSlot v :=
  shows_blind (openSlot_asks fun _ => trivial)

theorem drain_shows : Shows (fun _ v' => v' = v) drain v := shows_blind (drain_asks trivial)

theorem currentTxmax_shows : Shows (fun _ v' => v' = v) currentTxmax v :=
  shows_blind (currentTxmax_asks trivial)

theorem enter_shows (phase : Phase) : Shows (fun _ v' => v' = v) (enter phase) v :=
  shows_blind (asks_enter phase)

theorem persist_shows (slot : String) (txmax : Nat) :
    Shows (fun _ v' => v' = v) (persist slot txmax) v :=
  shows_blind (persist_asks (fun _ _ => trivial) (fun _ _ => trivial) _ _)

theorem ack_shows : Shows (fun _ v' => v' = v) ack v := shows_blind (ack_asks trivial)

theorem fullResync_shows (pages : Nat) :
    Shows (fun _ v' => v' ≠ .behind) (fullResync pages) .untouched := by
  refine openSlot_shows.bind ?_
  rintro slot _ rfl
  refine drain_shows.bind ?_
  rintro _ _ rfl
  refine currentTxmax_shows.bind ?_
  rintro txmax _ rfl
  refine (enter_shows .applying).bind ?_
  rintro _ _ rfl
  refine (rederive_shows pages).bind ?_
  rintro stats _ rfl
  refine (enter_shows .reclaiming).bind ?_
  rintro _ _ rfl
  refine (persist_shows slot txmax).bind ?_
  rintro _ _ rfl
  refine ack_shows.bind ?_
  rintro _ _ rfl
  refine (enter_shows .idle).bind ?_
  rintro _ _ rfl
  exact shows_pure (by simp)

theorem applyReading_shows (pages : Nat) (reading : Reading) :
    Shows (fun _ v' => v' ≠ .behind) (applyReading pages reading) .untouched := by
  unfold applyReading
  dsimp only
  split
  · refine (enter_shows .idle).bind ?_
    rintro _ _ rfl
    exact shows_pure (by simp)
  have hclose {stats : CycleStats} {v : Visibility} (h : v ≠ .behind) :
      Shows (fun _ v' => v' ≠ .behind) (do
        ack
        enter .idle
        return stats) v := by
    refine ack_shows.bind ?_
    rintro _ _ rfl
    refine (enter_shows .idle).bind ?_
    rintro _ _ rfl
    exact shows_pure h
  refine (applyRecords_shows pages _ _).bind fun stats v hv => ?_
  refine (enter_shows .reclaiming).bind ?_
  rintro _ _ rfl
  split
  · refine (persist_shows _ _).bind ?_
    rintro _ _ rfl
    exact hclose hv
  · exact hclose hv

theorem receiveOnce_shows (pages : Nat) :
    Shows (fun _ v' => v' ≠ .behind) (receiveOnce pages) .untouched := by
  have hread : Stateful.Asks Call.IsBlind (readChanges pages) :=
    readChanges_asks (fun _ => trivial) (fun _ => trivial) trivial trivial (fun _ _ _ _ => trivial) _
  refine (shows_blind hread).bind ?_
  rintro reading _ rfl
  exact applyReading_shows pages reading

/-- A cycle looks up only before it writes, and has shown what it wrote where it succeeds. -/
theorem cycle_shows (kind : CycleKind) (pages : Nat) :
    Shows (fun _ v' => v' ≠ .behind) (kind.cycle pages) .untouched := by
  cases kind with
  | resync => exact fullResync_shows pages
  | receive => exact receiveOnce_shows pages

/-! ### Cycles one after another -/

/-- A cycle that has ended: its calls with their answers, and its result. -/
structure Cycle where
  trace : List Turn
  result : Except SyncError CycleStats

/-- A job runs cycles one after another, each with any answers. -/
inductive Ran (job : Job) : List Cycle → Job → Prop
  | nothing : Ran job [] job
  | cycle {past : List Cycle} {job₁ job₂ : Job} {trace : List Turn}
      {result : Except SyncError CycleStats} (kind : CycleKind) (pages : Nat) : Ran job past job₁ →
        ((kind.cycle pages).run.run job₁).After trace (.done (result, job₂)) →
          Ran job (past ++ [⟨trace, result⟩]) job₂

/-- One of the cycles failed and left an accepted write without a refresh after it, and no cycle since
refreshed. -/
def LeftBehind (past : List Cycle) : Prop :=
  ∃ before failed after, past = before ++ failed :: after ∧ (∃ e, failed.result = .error e) ∧
    Behind failed.trace ∧ ∀ cycle ∈ after, ∀ turn ∈ cycle.trace, ¬ turn.Refreshes

theorem LeftBehind.behind {past : List Cycle} (h : LeftBehind past) :
    Behind (past.flatMap Cycle.trace) := by
  obtain ⟨before, failed, after, rfl, -, hbehind, hafter⟩ := h
  rw [List.flatMap_append, List.flatMap_cons, behind_append, behind_append]
  refine .inl (.inr ⟨hbehind, fun turn hturn => ?_⟩)
  obtain ⟨cycle, hcycle, hturn⟩ := List.mem_flatMap.mp hturn
  exact hafter cycle hcycle turn hturn

theorem Ran.leftBehind {job job' : Job} {past : List Cycle} (h : Ran job past job')
    (hbehind : Behind (past.flatMap Cycle.trace)) : LeftBehind past := by
  induction h with
  | nothing => exact hbehind.elim
  | @cycle past job₁ job₂ trace result kind pages _ hafter ih =>
    rw [List.flatMap_append, List.flatMap_singleton, behind_append] at hbehind
    rcases hbehind with hbehind | ⟨hbehind, hrefreshes⟩
    · -- the last cycle itself left a write behind, so it failed
      refine ⟨past, ⟨trace, result⟩, [], rfl, ?_, hbehind, by simp⟩
      have hends := (cycle_shows kind pages job₁).after hafter
      cases result with
      | error e => exact ⟨e, rfl⟩
      | ok stats => exact absurd ((Visibility.after_behind trace).mpr hbehind) hends
    · obtain ⟨before, failed, after, rfl, hfailed, hbehind, hlater⟩ := ih hbehind
      refine ⟨before, failed, after ++ [⟨trace, result⟩], by simp, hfailed, hbehind, ?_⟩
      intro cycle hcycle
      rcases List.mem_append.mp hcycle with hcycle | hcycle
      · exact hlater cycle hcycle
      · rw [List.mem_singleton.mp hcycle]
        exact hrefreshes

/-- **Lookups run behind writes exactly after a cycle that failed in between.**  However the cycles of a
job are answered, when a cycle makes a lookup, some write that the sink accepted from the job has no
accepted refresh after it if and only if an earlier cycle failed after such a write and before it could
refresh, and no cycle since refreshed. -/
theorem lookup_behind_iff {job job' : Job} {past : List Cycle} (hran : Ran job past job')
    (kind : CycleKind) (pages : Nat) {trace : List Turn} {call : Call}
    {next : call.Answer → Routine (Except SyncError CycleStats × Job)}
    (hafter : ((kind.cycle pages).run.run job').After trace (.ask call next))
    (hlookup : call.LooksUp) :
    Behind (past.flatMap Cycle.trace ++ trace) ↔ LeftBehind past := by
  have hfollows := (cycle_shows kind pages job').after hafter
  have huntouched := Visibility.after_untouched (hfollows.1 hlookup)
  rw [behind_append]
  constructor
  · rintro (hbehind | ⟨hbehind, -⟩)
    · have hsame := (Visibility.after_behind trace).mpr hbehind
      have hnone := hfollows.1 hlookup
      rw [hnone] at hsame
      contradiction
    · exact hran.leftBehind hbehind
  · exact fun hleft => .inr ⟨hleft.behind, fun turn hturn => (huntouched turn hturn).2⟩

/-! A job over authors with their books.  Its first cycle deletes the document of an author who is gone,
and fails because the refresh after it fails; the next cycle looks up the author of a book. -/

def deskPlan : Plan :=
  ⟨⟨"author", none, ["id"], [], ["id"], ["id"], none⟩,
    [⟨⟨"book", none, ["id"], [], ["id", "author"], ["id"], some ⟨.oneToMany, ["id"], ["author"]⟩⟩,
      []⟩]⟩

def deskJob : Job := .ofPlan deskPlan ⟨"desk", "slot", 10, 10, 0, .none⟩

def authorGone : ChangeRecord := ⟨"author", .delete, [("id", .string "a")], none, none, 0, 0⟩

def bookSeen : ChangeRecord := ⟨"book", .insert, [("id", .string "b")], none, none, 0, 0⟩

def unrefreshed : Cycle where
  trace :=
    [⟨.source (.openSlot "slot"), .ok "slot"⟩, ⟨.store (.load "desk"), .ok (some 0)⟩,
      ⟨.session .transactionId, .ok 0⟩, ⟨.buffer .drain, .ok [authorGone]⟩,
      ⟨.session .begin, .ok ()⟩, ⟨.session .enter, ()⟩,
      ⟨.session (.execute (.select
        ⟨"author", ["id"], .among ["id"] [[.string "a"]], ["id"], none, none⟩)), .ok []⟩,
      ⟨.session .commit, .ok ()⟩, ⟨.session .leave, ()⟩,
      ⟨.sink (.delete "desk" "a"), .ok ()⟩,
      ⟨.sink (.refresh "desk"), .error (.unavailable "no answer")⟩]
  result := .error (Writer.transport (.unavailable "no answer"))

/-- The job after the cycle that failed. -/
def deskLeft : Job := { deskJob with slot := some "slot", phase := .applying }

def beforeLookup : List Turn :=
  [⟨.store (.load "desk"), .ok (some 0)⟩, ⟨.session .transactionId, .ok 0⟩,
    ⟨.buffer .drain, .ok [bookSeen]⟩]

theorem desk_ran : Ran deskJob [unrefreshed] deskLeft := by
  have hopened := Program.After.answered (.ok "slot")
    (.nothing (p := ((CycleKind.receive).cycle 1).run.run deskJob))
  have hloaded := Program.After.answered (.ok (some 0)) hopened
  have hseen := Program.After.answered (.ok 0) hloaded
  have hdrained := Program.After.answered (.ok [authorGone]) hseen
  have hbegun := Program.After.answered (.ok ()) hdrained
  have hentered := Program.After.answered () hbegun
  have hselected := Program.After.answered (.ok []) hentered
  have hcommitted := Program.After.answered (.ok ()) hselected
  have hleft := Program.After.answered () hcommitted
  have hdeleted := Program.After.answered (.ok ()) hleft
  have hfailed := Program.After.answered (.error (.unavailable "no answer")) hdeleted
  exact .cycle .receive 1 .nothing hfailed

theorem desk_looks_up : ∃ key next,
    (((CycleKind.receive).cycle 1).run.run deskLeft).After beforeLookup
      (.ask (.sink (.findByMeta "desk" "book" key)) next) := by
  have hloaded := Program.After.answered (.ok (some 0))
    (.nothing (p := ((CycleKind.receive).cycle 1).run.run deskLeft))
  have hseen := Program.After.answered (.ok 0) hloaded
  have hdrained := Program.After.answered (.ok [bookSeen]) hseen
  exact ⟨_, _, hdrained⟩

theorem lookup_behind_iff_of_desk : ∃ key next,
    (((CycleKind.receive).cycle 1).run.run deskLeft).After beforeLookup
      (.ask (.sink (.findByMeta "desk" "book" key)) next) ∧
    (Behind ([unrefreshed].flatMap Cycle.trace ++ beforeLookup) ↔ LeftBehind [unrefreshed]) := by
  obtain ⟨key, next, hafter⟩ := desk_looks_up
  exact ⟨key, next, hafter, lookup_behind_iff desk_ran .receive 1 hafter trivial⟩

/-- The lookup of the second cycle runs behind the delete of the first. -/
theorem desk_lookup_behind : ∃ past job trace key next,
    Ran deskJob past job ∧
    (((CycleKind.receive).cycle 1).run.run job).After trace
      (.ask (.sink (.findByMeta "desk" "book" key)) next) ∧
    Behind (past.flatMap Cycle.trace ++ trace) := by
  obtain ⟨key, next, hafter⟩ := desk_looks_up
  refine ⟨[unrefreshed], deskLeft, beforeLookup, key, next, desk_ran, hafter, ?_⟩
  have hleft : LeftBehind [unrefreshed] := by
    refine ⟨[], unrefreshed, [], rfl, ⟨_, rfl⟩, ?_, by simp⟩
    simp [unrefreshed, Behind, Turn.Accepts, Turn.Refreshes]
  rw [behind_append]
  exact .inr ⟨hleft.behind, by simp [beforeLookup, Turn.Refreshes]⟩

end Job

end DocSync
