import DocSync.Proofs.Service.Retry
import DocSync.Sink.Writer

/-!
Writes that are tried again.  What a write answers, and whether the ledger changes, is decided by the last of its
calls.  Main statement: which call of a retried operation is the last, and what follows for the writes of a writer.
-/

namespace DocSync

namespace Writer

variable {σ : Type} {replies : (call : Call) → σ → call.Answer → σ → Prop} {w w' : Writer} {s s' : σ}
  {request : Routine (Except SinkError Unit)} {success : WriteOutcome} {change : Keyed String → Keyed String}
  {outcomes : Nat → Except SinkError Unit} {n : Nat} {result : Except SyncError WriteOutcome}

/-- The sink is called `n` times with these outcomes, as often as they ask for. -/
structure Calls (replies : (call : Call) → σ → call.Answer → σ → Prop) (w : Writer)
    (request : Routine (Except SinkError Unit)) (outcomes : Nat → Except SinkError Unit) (n : Nat) (s s' : σ) :
    Prop where
  count : CallCount SinkError.isTransient w.retry.retries outcomes n
  called : Called replies (fun _ => .ofRoutine request) 0 w.retry.delay ((List.range n).map outcomes) s s'

/-- What a write of `n` calls gives, and what becomes of its writer.  The ledger changes when the last call is
accepted, and only then; a record is rejected for a permanent error only; and an error of the transport is all that
is left when every call failed with a transient one. -/
structure Gives (w : Writer) (success : WriteOutcome) (change : Keyed String → Keyed String)
    (outcomes : Nat → Except SinkError Unit) (n : Nat) (result : Except SyncError WriteOutcome) (w' : Writer) :
    Prop where
  accepted : outcomes (n - 1) = .ok () → result = .ok success ∧ w' = { w with ledger := change w.ledger }
  failed : outcomes (n - 1) ≠ .ok () → w' = w ∧ result ≠ .ok success
  rejected : ∀ reason, result = .ok (.rejected reason) ↔
    ∃ e, outcomes (n - 1) = .error e ∧ e.isTransient = false ∧ reason = e.message
  transport : ∀ failure, result = .error failure ↔
    ∃ e, outcomes (n - 1) = .error e ∧ failure = transport e ∧ n = w.retry.retries + 1 ∧
      ∀ i < n, ∃ cause, outcomes i = .error cause ∧ cause.isTransient = true

theorem send_talks_iff {sent : Except SinkError Unit} : (w.send request).Talks replies s sent s' ↔
    ∃ outcomes n, Calls replies w request outcomes n s s' ∧ sent = outcomes (n - 1) := by
  refine retryFrom_talks_iff.trans (exists_congr fun outcomes => exists_congr fun n => ?_)
  constructor
  · rintro ⟨hcount, hcalled, hsent⟩
    exact ⟨⟨hcount, hcalled⟩, hsent⟩
  · rintro ⟨⟨hcount, hcalled⟩, hsent⟩
    exact ⟨hcount, hcalled, hsent⟩

/-- What follows the last call of a write. -/
def Settled (w : Writer) (success : WriteOutcome) (change : Keyed String → Keyed String) :
    Except SinkError Unit → Except SyncError WriteOutcome → Writer → Prop
  | .ok (), result, w' => result = .ok success ∧ w' = { w with ledger := change w.ledger }
  | .error e, result, w' => result = outcomeOfError e ∧ w' = w

theorem write_talks_iff : Threaded.Talks replies (write request success change) w s result w' s' ↔
    ∃ sent, (w.send request).Talks replies s sent s' ∧ Settled w success change sent result w' := by
  rw [write, Threaded.talks_get_bind, Threaded.talks_bind]
  constructor
  · rintro (⟨sent, w₁, s₁, hsend, hrest⟩ | ⟨e, hsend, -⟩)
    · obtain ⟨_, hsend, hsent, rfl⟩ := Threaded.talks_lift.mp hsend
      obtain rfl := Except.ok.inj hsent
      cases sent with
      | ok =>
        rw [Threaded.talks_set_bind] at hrest
        obtain ⟨rfl, rfl, rfl⟩ := Threaded.talks_pure.mp hrest
        exact ⟨_, hsend, rfl, rfl⟩
      | error e =>
        obtain ⟨hresult, rfl⟩ := Program.talks_done.mp hrest
        obtain ⟨rfl, rfl⟩ := Prod.mk.inj hresult
        exact ⟨_, hsend, rfl, rfl⟩
    · obtain ⟨_, -, hsent, -⟩ := Threaded.talks_lift.mp hsend
      contradiction
  · rintro ⟨sent, hsend, hsettled⟩
    refine .inl ⟨sent, w, s', Threaded.talks_lift.mpr ⟨sent, hsend, rfl, rfl⟩, ?_⟩
    cases sent with
    | ok =>
      obtain ⟨rfl, rfl⟩ := hsettled
      exact Program.talks_done.mpr ⟨rfl, rfl⟩
    | error e =>
      obtain ⟨rfl, rfl⟩ := hsettled
      exact Program.talks_done.mpr ⟨rfl, rfl⟩

/-- When the last call fails with a transient error, so did all the others, and no retries were left. -/
theorem Calls.all_transient (h : Calls replies w request outcomes n s s') {e : SinkError}
    (hlast : outcomes (n - 1) = .error e) (htransient : e.isTransient = true) :
    n = w.retry.retries + 1 ∧ ∀ i < n, ∃ cause, outcomes i = .error cause ∧ cause.isTransient = true := by
  have hagain : ¬ Final SinkError.isTransient (outcomes (n - 1)) := not_final_iff.mpr ⟨e, hlast, htransient⟩
  refine ⟨h.count.final_or_eq.resolve_left hagain, fun i hi => ?_⟩
  by_cases hi' : i + 1 < n
  · exact not_final_iff.mp (h.count.not_final hi')
  · obtain rfl : i = n - 1 := by omega
    exact ⟨e, hlast, htransient⟩

theorem gives_of_accepted (hlast : outcomes (n - 1) = .ok ()) (hsuccess : ∀ reason, success ≠ .rejected reason) :
    Gives w success change outcomes n (.ok success) { w with ledger := change w.ledger } where
  accepted _ := ⟨rfl, rfl⟩
  failed hfailed := absurd hlast hfailed
  rejected reason := by simp [hlast, hsuccess reason]
  transport failure := by simp [hlast]

theorem Calls.gives_of_permanent (h : Calls replies w request outcomes n s s') {e : SinkError}
    (hlast : outcomes (n - 1) = .error e) (hpermanent : e.isTransient = false)
    (hsuccess : ∀ reason, success ≠ .rejected reason) :
    Gives w success change outcomes n (.ok (.rejected e.message)) w where
  accepted hok := by
    rw [hlast] at hok
    contradiction
  failed _ := ⟨rfl, fun hok => hsuccess e.message (Except.ok.inj hok).symm⟩
  rejected reason := by
    constructor
    · rintro ⟨⟩
      exact ⟨e, hlast, hpermanent, rfl⟩
    · rintro ⟨e', hlast', -, rfl⟩
      obtain rfl := Except.error.inj (hlast.symm.trans hlast')
      rfl
  transport failure := by
    constructor
    · rintro ⟨⟩
    · rintro ⟨-, -, -, -, hall⟩
      obtain ⟨cause, hcause, htransient⟩ := hall (n - 1) (Nat.sub_lt h.count.pos Nat.one_pos)
      obtain rfl := Except.error.inj (hlast.symm.trans hcause)
      rw [hpermanent] at htransient
      contradiction

theorem Calls.gives_of_transient (h : Calls replies w request outcomes n s s') {e : SinkError}
    (hlast : outcomes (n - 1) = .error e) (htransient : e.isTransient = true) :
    Gives w success change outcomes n (.error (transport e)) w where
  accepted hok := by
    rw [hlast] at hok
    contradiction
  failed _ := ⟨rfl, by simp⟩
  rejected reason := by simp [hlast, htransient]
  transport failure := by
    constructor
    · rintro ⟨⟩
      exact ⟨e, hlast, rfl, h.all_transient hlast htransient⟩
    · rintro ⟨e', hlast', rfl, -⟩
      obtain rfl := Except.error.inj (hlast.symm.trans hlast')
      rfl

/-- The last call tells everything about a write. -/
theorem Calls.gives_iff (h : Calls replies w request outcomes n s s')
    (hsuccess : ∀ reason, success ≠ .rejected reason) :
    Settled w success change (outcomes (n - 1)) result w' ↔ Gives w success change outcomes n result w' := by
  cases hlast : outcomes (n - 1) with
  | ok =>
    refine ⟨?_, fun hgives => hgives.accepted hlast⟩
    rintro ⟨rfl, rfl⟩
    exact gives_of_accepted hlast hsuccess
  | error e =>
    cases hkind : e.isTransient with
    | true =>
      have hresult : outcomeOfError e = .error (transport e) := if_pos hkind
      constructor
      · rintro ⟨rfl, rfl⟩
        rw [hresult]
        exact h.gives_of_transient hlast hkind
      · intro hgives
        refine ⟨Eq.trans ?_ hresult.symm, (hgives.failed (by simp [hlast])).1⟩
        exact (hgives.transport _).mpr ⟨e, hlast, rfl, h.all_transient hlast hkind⟩
    | false =>
      have hresult : outcomeOfError e = .ok (.rejected e.message) := if_neg (by simp [hkind])
      constructor
      · rintro ⟨rfl, rfl⟩
        rw [hresult]
        exact h.gives_of_permanent hlast hkind hsuccess
      · intro hgives
        refine ⟨Eq.trans ?_ hresult.symm, (hgives.failed (by simp [hlast])).1⟩
        exact (hgives.rejected _).mpr ⟨e, hlast, hkind, rfl⟩

theorem write_gives_iff (hsuccess : ∀ reason, success ≠ .rejected reason) :
    Threaded.Talks replies (write request success change) w s result w' s' ↔
      ∃ outcomes n, Calls replies w request outcomes n s s' ∧ Gives w success change outcomes n result w' := by
  rw [write_talks_iff]
  constructor
  · rintro ⟨sent, hsend, hsettled⟩
    obtain ⟨outcomes, n, hcalls, rfl⟩ := send_talks_iff.mp hsend
    exact ⟨outcomes, n, hcalls, (hcalls.gives_iff hsuccess).mp hsettled⟩
  · rintro ⟨outcomes, n, hcalls, hgives⟩
    exact ⟨_, send_talks_iff.mpr ⟨outcomes, n, hcalls, rfl⟩, (hcalls.gives_iff hsuccess).mpr hgives⟩

theorem upsert_gives_iff {d : Document} : Threaded.Talks replies (upsert d) w s result w' s' ↔
    if w.ledger.get? d.identity = some d.digest then result = .ok .unchanged ∧ w' = w ∧ s' = s
    else ∃ outcomes n, Calls replies w (ask (.upsert d)) outcomes n s s' ∧
      Gives w .upserted (·.putSorted d.identity d.digest) outcomes n result w' := by
  rw [upsert, Threaded.talks_get_bind]
  split
  · exact Threaded.talks_pure
  · exact write_gives_iff (fun _ => by simp)

theorem delete_gives_iff {identity : String} : Threaded.Talks replies (delete identity) w s result w' s' ↔
    ∃ outcomes n, Calls replies w (ask (.delete w.index identity)) outcomes n s s' ∧
      Gives w .deleted (·.erase identity) outcomes n result w' := by
  rw [delete, Threaded.talks_get_bind]
  exact write_gives_iff (fun _ => by simp)

/-- A retried operation is called up to the first final outcome, or until the retries are used up, and gives the
outcome of its last call; whatever the outcomes are, it comes to an end.  A write that is not skipped is such an
operation: it changes the ledger exactly when its last call is accepted, rejects the record only for a permanent
error, and gives an error of the transport only when all its calls failed with transient ones. -/
theorem retries_end_with_last_call {σ ε α : Type} (replies : (call : Call) → σ → call.Answer → σ → Prop)
    (operation : Nat → Attempt ε α) (retryable : ε → Bool) (retries delay : Nat) (w : Writer) (d : Document)
    (identity : String) :
    (∀ s s' outcome, (retryFrom operation retryable 0 retries delay).run.Talks replies s outcome s' ↔
      ∃ outcomes n, CallCount retryable retries outcomes n ∧
        Called replies operation 0 delay ((List.range n).map outcomes) s s' ∧ outcome = outcomes (n - 1)) ∧
    (∀ outcomes, (∀ i s, ∃ s', (operation i).run.Talks replies s (outcomes i) s') →
      (∀ milliseconds s, ∃ s', replies (.clock (.sleep milliseconds)) s () s') →
      ∃ n, CallCount retryable retries outcomes n ∧ ∀ s, ∃ s',
        Called replies operation 0 delay ((List.range n).map outcomes) s s' ∧
        (retryFrom operation retryable 0 retries delay).run.Talks replies s (outcomes (n - 1)) s') ∧
    (∀ s s' result w', Threaded.Talks replies (upsert d) w s result w' s' ↔
      if w.ledger.get? d.identity = some d.digest then result = .ok .unchanged ∧ w' = w ∧ s' = s
      else ∃ outcomes n, Calls replies w (ask (.upsert d)) outcomes n s s' ∧
        Gives w .upserted (·.putSorted d.identity d.digest) outcomes n result w') ∧
    (∀ s s' result w', Threaded.Talks replies (delete identity) w s result w' s' ↔
      ∃ outcomes n, Calls replies w (ask (.delete w.index identity)) outcomes n s s' ∧
        Gives w .deleted (·.erase identity) outcomes n result w') := by
  refine ⟨fun s s' outcome => retryFrom_talks_iff, fun outcomes hcalls hsleeps => ?_,
    fun s s' result w' => upsert_gives_iff, fun s s' result w' => delete_gives_iff⟩
  obtain ⟨n, hcount⟩ := exists_callCount retryable retries outcomes
  refine ⟨n, hcount, fun s => ?_⟩
  have hfrom : ∀ i s, ∃ s', (operation (0 + i)).run.Talks replies s (outcomes i) s' := fun i s => by
    simpa only [Nat.zero_add] using hcalls i s
  obtain ⟨s', hcalled⟩ := exists_called hcount.pos hfrom hsleeps delay s
  exact ⟨s', hcalled, retryFrom_talks_iff.mpr ⟨outcomes, n, hcount, hcalled, rfl⟩⟩

/-! ### A sink that is busy at first -/

/-- The sink counts its calls, accepts no upsert at the first of them, and never answers a delete in time. -/
def busyAtFirst : (call : Call) → Nat → call.Answer → Nat → Prop
  | .sink (.upsert _), calls, answer, calls' =>
    calls' = calls + 1 ∧ answer = if calls = 0 then .error (.unavailable "busy") else .ok ()
  | .sink (.delete ..), calls, answer, calls' => calls' = calls + 1 ∧ answer = .error (.timeout "slow")
  | .clock (.sleep _), calls, _, calls' => calls' = calls
  | _, _, _, _ => False

def leaflet : Document := ⟨"a", "books", [("isbn", .string "a")]⟩

/-- A writer with one retry that wrote nothing yet. -/
def blankWriter : Writer := ⟨"books", ⟨1, 100⟩, []⟩

theorem leaflet_upserted : Threaded.Talks busyAtFirst (upsert leaflet) blankWriter 0 (.ok .upserted)
    { blankWriter with ledger := [("a", leaflet.digest)] } 2 := by
  have hfirst : busyAtFirst (.sink (.upsert leaflet)) 0 (.error (.unavailable "busy")) 1 := ⟨rfl, rfl⟩
  have hsleep : busyAtFirst (.clock (.sleep 100)) 1 () 1 := rfl
  have hsecond : busyAtFirst (.sink (.upsert leaflet)) 1 (.ok ()) 2 := ⟨rfl, rfl⟩
  rw [upsert, Threaded.talks_get_bind, if_neg (by simp [blankWriter])]
  exact .ask hfirst (.ask hsleep (.ask hsecond (.done _ _)))

theorem delete_late : Threaded.Talks busyAtFirst (delete "a") blankWriter 0 (.error (transport (.timeout "slow")))
    blankWriter 2 := by
  have hfirst : busyAtFirst (.sink (.delete "books" "a")) 0 (.error (.timeout "slow")) 1 := ⟨rfl, rfl⟩
  have hsleep : busyAtFirst (.clock (.sleep 100)) 1 () 1 := rfl
  have hsecond : busyAtFirst (.sink (.delete "books" "a")) 1 (.error (.timeout "slow")) 2 := ⟨rfl, rfl⟩
  exact .ask hfirst (.ask hsleep (.ask hsecond (.done _ _)))

/-- An operation whose first call fails is called twice; so are an upsert to the busy sink, which is then in the
ledger, and a delete that is never answered, which is an error of the transport. -/
theorem retries_end_with_last_call_of_busyAtFirst :
    let outcomes : Nat → Except String Nat := fun i => if i = 0 then .error "busy" else .ok i
    (∃ calls', (retryFrom (fun i => Attempt.ofRoutine (pure (outcomes i))) (· = "busy") 0 3 100).run.Talks
      busyAtFirst 0 (.ok 1) calls') ∧
    (∃ outcomes n, Calls busyAtFirst blankWriter (ask (.upsert leaflet)) outcomes n 0 2 ∧ outcomes (n - 1) = .ok ()) ∧
    (∃ outcomes, Calls busyAtFirst blankWriter (ask (.delete "books" "a")) outcomes 2 0 2 ∧
      ∀ i < 2, ∃ cause, outcomes i = .error cause ∧ cause.isTransient = true) := by
  intro outcomes
  obtain ⟨-, hends, hupsert, hdelete⟩ := retries_end_with_last_call busyAtFirst
    (fun i => Attempt.ofRoutine (pure (outcomes i))) (· = "busy") 3 100 blankWriter leaflet "a"
  refine ⟨?_, ?_, ?_⟩
  · obtain ⟨n, hcount, hended⟩ := hends outcomes (fun i s => ⟨s, .done _ _⟩) (fun _ s => ⟨s, rfl⟩)
    have hfailed : ¬ Final (fun e : String => decide (e = "busy")) (outcomes 0) := by simp [outcomes, Final]
    have hworked : Final (fun e : String => decide (e = "busy")) (outcomes (0 + 1)) := trivial
    obtain ⟨m, rfl⟩ : ∃ m, n = m + 1 := Nat.exists_eq_add_one.mpr hcount.pos
    obtain rfl : m = 1 := (callCount_of_final hworked).mp ((callCount_succ hfailed).mp hcount)
    obtain ⟨s', -, htalks⟩ := hended 0
    exact ⟨s', htalks⟩
  · have hcalls := (hupsert 0 2 _ _).mp leaflet_upserted
    rw [if_neg (by simp [blankWriter])] at hcalls
    obtain ⟨outcomes, n, hcalls, hgives⟩ := hcalls
    exact ⟨outcomes, n, hcalls, Classical.byContradiction fun hrefused => (hgives.failed hrefused).2 rfl⟩
  · obtain ⟨outcomes, n, hcalls, hgives⟩ := (hdelete 0 2 _ _).mp delete_late
    obtain ⟨-, -, -, hn, hall⟩ := (hgives.transport _).mp rfl
    obtain rfl : n = 2 := hn
    exact ⟨outcomes, hcalls, hall⟩

end Writer

end DocSync
