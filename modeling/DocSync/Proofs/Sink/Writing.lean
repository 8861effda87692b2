import DocSync.Proofs.Simulation.Sinks
import DocSync.Proofs.Sorting

/-!
Writing to a sink while others act who leave what it holds.  A write that is accepted has its effect,
and one that fails has none, so that a writer's ledger always tells the digests of what is stored.  Main
statement: where digests tell documents apart, whatever a writer of an index is asked to write, every
identity keeps what is stored under it or gets what is wanted there.
-/

namespace DocSync

/-! ### Operations of a sink -/

namespace MemorySink

/-- An operation of a sink: it fails for now, is refused for what the sink rejects, or has its effect on
what is stored. -/
def Performs (refuses : List String → Prop)
    (effect : Keyed (Keyed Document) → Keyed (Keyed Document))
    (operation : MemorySink → Except SinkError Unit × MemorySink) : Prop :=
  ∀ sink : MemorySink,
    operation sink =
        (.error (.unavailable "injected failure"), { sink with failures := sink.failures - 1 }) ∨
      (refuses sink.rejected ∧ ∃ e, operation sink = (.error e, sink)) ∨
      ∃ after : MemorySink, operation sink = (.ok (), after) ∧ sink.SameNature after ∧
        after.indices = effect sink.indices

/-- The documents after an upsert. -/
def upserted (d : Document) (indices : Keyed (Keyed Document)) : Keyed (Keyed Document) :=
  indices.put d.index ((indices.getD d.index []).putSorted d.identity d)

/-- The documents after a delete. -/
def deleted (index identity : String) (indices : Keyed (Keyed Document)) : Keyed (Keyed Document) :=
  if (indices.getD index []).contains identity then
    indices.put index ((indices.getD index []).erase identity)
  else indices

theorem upsert_performs (d : Document) :
    Performs (d.identity ∈ ·) (upserted d) (·.upsert d) := by
  intro sink
  by_cases hfailing : sink.failures = 0
  · by_cases hrejected : d.identity ∈ sink.rejected
    · refine .inr (.inl ⟨hrejected, .rejected d.identity "rejected by test sink", ?_⟩)
      simp [upsert, unlessFailing, hfailing, hrejected]
    · refine .inr (.inr ⟨{ sink with
        indices := upserted d sink.indices, upserts := sink.upserts + 1 }, ?_, ⟨rfl, rfl, rfl⟩, rfl⟩)
      simp [upsert, unlessFailing, hfailing, hrejected, upserted, stored]
  · refine .inl ?_
    simp only [upsert, unlessFailing, hfailing, if_false]

theorem delete_performs (index identity : String) :
    Performs (fun _ => False) (deleted index identity) (·.delete index identity) := by
  intro sink
  by_cases hfailing : sink.failures = 0
  · by_cases hstored : (sink.stored index).contains identity = true
    · refine .inr (.inr ⟨{ sink with
        indices := deleted index identity sink.indices, deletes := sink.deletes + 1 },
        ?_, ⟨rfl, rfl, rfl⟩, rfl⟩)
      have heffect : deleted index identity sink.indices =
          sink.indices.put index ((sink.stored index).erase identity) := if_pos hstored
      simp only [delete, unlessFailing, hfailing, if_true, hstored, heffect]
    · refine .inr (.inr ⟨sink, ?_, .refl sink, (if_neg hstored).symm⟩)
      simp only [delete, unlessFailing, hfailing, if_true, hstored]
      rfl
  · refine .inl ?_
    simp only [delete, unlessFailing, hfailing, if_false]

/-- What is stored under an identity of an index. -/
def storedAt (sink : MemorySink) (index identity : String) : Option Document :=
  (sink.stored index).get? identity

theorem Alike.storedAt {sink sink' : MemorySink} (h : sink.Alike sink') (index identity : String) :
    sink'.storedAt index identity = sink.storedAt index identity := by
  rw [MemorySink.storedAt, MemorySink.storedAt, h.stored]

/-- What is stored after an upsert. -/
theorem get?_upserted (d : Document) (indices : Keyed (Keyed Document)) (identity : String) :
    ((upserted d indices).getD d.index []).get? identity =
      if d.identity = identity then some d else (indices.getD d.index []).get? identity := by
  rw [upserted, Keyed.getD_put, if_pos rfl, Keyed.get?_putSorted]

/-- What is stored after a delete. -/
theorem get?_deleted (index deletedIdentity : String) (indices : Keyed (Keyed Document))
    (identity : String) :
    ((deleted index deletedIdentity indices).getD index []).get? identity =
      if deletedIdentity = identity then none else (indices.getD index []).get? identity := by
  unfold deleted
  split
  · rw [Keyed.getD_put, if_pos rfl, Keyed.get?_erase]
  · rename_i hnone
    split
    · rename_i hsame
      rw [← hsame]
      simpa [Keyed.contains] using hnone
    · rfl

/-- What became of one write: its effect on what a sink stores, or an error that may pass, unless the
write is refused. -/
def Tried (refuses : List String → Prop) (effect : Keyed (Keyed Document) → Keyed (Keyed Document))
    (sink sink' : MemorySink) : Except SinkError Unit → Prop
  | .ok () => sink.SameNature sink' ∧ sink'.indices = effect sink.indices
  | .error e => (e.isTransient = true ∨ refuses sink.rejected) ∧ sink.Alike sink'

theorem Tried.of_alike {refuses : List String → Prop}
    {effect : Keyed (Keyed Document) → Keyed (Keyed Document)} {sink sink₁ sink' : MemorySink}
    {r : Except SinkError Unit} (halike : sink.Alike sink₁) (h : Tried refuses effect sink₁ sink' r) :
    Tried refuses effect sink sink' r := by
  cases r with
  | ok => exact ⟨halike.toSameNature.trans h.1, h.2.trans (congrArg effect halike.indices)⟩
  | error e => exact ⟨halike.rejected ▸ h.1, halike.trans h.2⟩

end MemorySink

open MemorySink (Tried)

/-! ### Single writes -/

namespace Writer

variable {others : Site → Site → Prop} {wiring : Wiring} {refuses : List String → Prop}
  {effect : Keyed (Keyed Document) → Keyed (Keyed Document)}
  {operation : MemorySink → Except SinkError Unit × MemorySink}
  {request : Routine (Except SinkError Unit)}
  {writer writer' : Writer} {s s' : Site}

/-- The request is answered by an operation of the sink. -/
def AnsweredBy (others : Site → Site → Prop) (wiring : Wiring)
    (request : Routine (Except SinkError Unit))
    (operation : MemorySink → Except SinkError Unit × MemorySink) : Prop :=
  ∀ {s s' : Site} {r : Except SinkError Unit}, Routine.Runs others wiring request s r s' →
    ∃ s₁, others s s₁ ∧ r = (operation (s₁.1.sink wiring.sink)).1 ∧
      s'.1.sink wiring.sink = (operation (s₁.1.sink wiring.sink)).2

/-- A pause between two tries leaves what the sink holds. -/
theorem sleep_runs (hothers : Site.Spares wiring.sink others) {delay : Nat} {u : Unit}
    (h : Routine.Runs others wiring (Clock.sleep delay) s u s') :
    (s.1.sink wiring.sink).Alike (s'.1.sink wiring.sink) := by
  have hasks : (Clock.sleep delay).Asks fun call => ¬ call.Writes := ⟨id, fun _ => trivial⟩
  exact h.sink_alike hothers hasks

theorem request_runs (hothers : Site.Spares wiring.sink others)
    (hanswer : AnsweredBy others wiring request operation)
    (hperforms : MemorySink.Performs refuses effect operation) {r : Except SinkError Unit}
    (h : Routine.Runs others wiring request s r s') :
    Tried refuses effect (s.1.sink wiring.sink) (s'.1.sink wiring.sink) r := by
  obtain ⟨s₁, hacts, rfl, hsink⟩ := hanswer h
  rw [hsink]
  refine .of_alike (hothers _ _ hacts) ?_
  rcases hperforms (s₁.1.sink wiring.sink) with
    hfails | ⟨hrefused, e, hfails⟩ | ⟨after, hworks, hnature, hindices⟩
  · rw [hfails]
    exact ⟨.inl rfl, MemorySink.alike_failures _ _⟩
  · rw [hfails]
    exact ⟨.inr hrefused, .refl _⟩
  · rw [hworks]
    exact ⟨hnature, hindices⟩

/-- A request that is tried again still has its effect once, or none. -/
theorem send_runs (hothers : Site.Spares wiring.sink others)
    (hanswer : AnsweredBy others wiring request operation)
    (hperforms : MemorySink.Performs refuses effect operation) (writer : Writer)
    {r : Except SinkError Unit} (h : Routine.Runs others wiring (writer.send request) s r s') :
    Tried refuses effect (s.1.sink wiring.sink) (s'.1.sink wiring.sink) r := by
  have hretry : ∀ (retries attempt delay : Nat) {s s' : Site} {r : Except SinkError Unit},
      Routine.Runs others wiring (retryFrom (fun _ => Attempt.ofRoutine request)
        SinkError.isTransient attempt retries delay).run s r s' →
      Tried refuses effect (s.1.sink wiring.sink) (s'.1.sink wiring.sink) r := by
    intro retries
    induction retries with
    | zero => exact fun _ _ _ _ _ h => request_runs hothers hanswer hperforms h
    | succ retries ih =>
      intro attempt delay s s' r h
      obtain ⟨first, s₁, hfirst, hrest⟩ := Program.runs_bind.mp h
      have htried := request_runs hothers hanswer hperforms hfirst
      cases first with
      | ok =>
        obtain ⟨rfl, rfl⟩ := Program.runs_done.mp hrest
        exact htried
      | error e =>
        by_cases htransient : e.isTransient = true
        · simp only [htransient, if_true] at hrest
          obtain ⟨_, s₂, hsleep, hrest⟩ := Program.runs_bind.mp hrest
          exact .of_alike (htried.2.trans (sleep_runs hothers hsleep)) (ih _ _ hrest)
        · simp only [htransient] at hrest
          obtain ⟨rfl, rfl⟩ := Program.runs_done.mp hrest
          exact htried
  exact hretry _ _ _ h

/-- A write is accepted, or it fails or is refused and leaves everything as it was. -/
theorem write_runs (hothers : Site.Spares wiring.sink others)
    (hanswer : AnsweredBy others wiring request operation)
    (hperforms : MemorySink.Performs refuses effect operation)
    {accepted : WriteOutcome} {change : Keyed String → Keyed String}
    {result : Except SyncError WriteOutcome}
    (h : Stateful.Runs others wiring (write request accepted change) writer s result writer' s') :
    result = .ok accepted ∧ writer' = { writer with ledger := change writer.ledger } ∧
        Tried refuses effect (s.1.sink wiring.sink) (s'.1.sink wiring.sink) (.ok ()) ∨
      ((∃ e, result = .error e) ∨
          refuses (s.1.sink wiring.sink).rejected ∧ ∃ reason, result = .ok (.rejected reason)) ∧
        writer' = writer ∧ (s.1.sink wiring.sink).Alike (s'.1.sink wiring.sink) := by
  rw [write, Stateful.runs_get_bind] at h
  rcases Stateful.runs_bind.mp h with ⟨sent, w₁, s₁, hsend, hrest⟩ | ⟨e, hsend, -⟩
  · obtain ⟨_, hsend, hsent, rfl⟩ := Stateful.runs_lift.mp hsend
    obtain rfl := Except.ok.inj hsent
    have htried := send_runs hothers hanswer hperforms _ hsend
    cases sent with
    | ok =>
      rw [Stateful.runs_set_bind] at hrest
      obtain ⟨rfl, rfl, rfl⟩ := Stateful.runs_pure.mp hrest
      exact .inl ⟨rfl, rfl, htried⟩
    | error e =>
      obtain ⟨hresult, rfl⟩ := Program.runs_done.mp hrest
      obtain ⟨rfl, rfl⟩ := Prod.mk.inj hresult
      obtain ⟨hcause, halike⟩ := htried
      refine .inr ⟨?_, rfl, halike⟩
      by_cases htransient : e.isTransient = true
      · exact .inl ⟨transport e, by simp [outcomeOfError, htransient]⟩
      · exact .inr ⟨hcause.resolve_left htransient, e.message, by simp [outcomeOfError, htransient]⟩
  · obtain ⟨_, -, hsent, -⟩ := Stateful.runs_lift.mp hsend
    contradiction

/-! ### Upserts and deletes -/

theorem answeredBy_upsert (d : Document) :
    AnsweredBy others wiring (ask (.upsert d)) (·.upsert d) := by
  intro s s' r h
  obtain ⟨s₁, hacts, rfl, rfl⟩ := Program.runs_request.mp h
  exact ⟨s₁, hacts, rfl, World.sink_onSink_self s₁.1 wiring.sink (·.upsert d)⟩

theorem answeredBy_delete (index identity : String) :
    AnsweredBy others wiring (ask (.delete index identity)) (·.delete index identity) := by
  intro s s' r h
  obtain ⟨s₁, hacts, rfl, rfl⟩ := Program.runs_request.mp h
  exact ⟨s₁, hacts, rfl, World.sink_onSink_self s₁.1 wiring.sink (·.delete index identity)⟩

/-- A write that has its effect on one identity of the writer's index, in the sink and in the ledger, and
on nothing else. -/
structure Wrote (identity : String) (d : Option Document) (writer writer' : Writer)
    (sink sink' : MemorySink) : Prop where
  nature : sink.SameNature sink'
  index : writer'.index = writer.index
  stored : ∀ other, sink'.storedAt writer.index other =
    if identity = other then d else sink.storedAt writer.index other
  listed : ∀ other, writer'.ledger.get? other =
    if identity = other then d.map Document.digest else writer.ledger.get? other

/-- A document is written, or was the last one written under its identity, or the write fails or is
refused. -/
theorem upsert_ends (hothers : Site.Spares wiring.sink others) {d : Document}
    (hindex : d.index = writer.index) {result : Except SyncError WriteOutcome}
    (h : Stateful.Runs others wiring (upsert d) writer s result writer' s') :
    (writer.ledger.get? d.identity = some d.digest ∧ writer' = writer ∧ s' = s) ∨
      Wrote d.identity (some d) writer writer' (s.1.sink wiring.sink) (s'.1.sink wiring.sink) ∨
      ((∃ e, result = .error e) ∨
          d.identity ∈ (s.1.sink wiring.sink).rejected ∧ ∃ reason, result = .ok (.rejected reason)) ∧
        writer' = writer ∧ (s.1.sink wiring.sink).Alike (s'.1.sink wiring.sink) := by
  rw [upsert, Stateful.runs_get_bind] at h
  split at h
  · rename_i hledger
    obtain ⟨-, rfl, rfl⟩ := Stateful.runs_pure.mp h
    exact .inl ⟨hledger, rfl, rfl⟩
  refine .inr ((write_runs hothers (answeredBy_upsert d) (MemorySink.upsert_performs d) h).imp ?_ id)
  rintro ⟨-, rfl, hnature, hindices⟩
  refine ⟨hnature, rfl, fun other => ?_, fun other => ?_⟩
  · rw [MemorySink.storedAt, MemorySink.stored, hindices, ← hindex, MemorySink.get?_upserted]
    rfl
  · exact Keyed.get?_putSorted _ _ _ _

/-- Where nothing is refused, a document is written, or was the last one written under its identity, or
the write fails. -/
theorem upsert_cases (hothers : Site.Spares wiring.sink others) {d : Document}
    (hindex : d.index = writer.index) (hrejected : (s.1.sink wiring.sink).rejected = [])
    {result : Except SyncError WriteOutcome}
    (h : Stateful.Runs others wiring (upsert d) writer s result writer' s') :
    (writer.ledger.get? d.identity = some d.digest ∧ writer' = writer ∧ s' = s) ∨
      Wrote d.identity (some d) writer writer' (s.1.sink wiring.sink) (s'.1.sink wiring.sink) ∨
      (∃ e, result = .error e) ∧ writer' = writer ∧
        (s.1.sink wiring.sink).Alike (s'.1.sink wiring.sink) := by
  rcases upsert_ends hothers hindex h with hlisted | hwrote | ⟨hfailed | ⟨hrefused, -⟩, hleft⟩
  · exact .inl hlisted
  · exact .inr (.inl hwrote)
  · exact .inr (.inr ⟨hfailed, hleft⟩)
  · simp [hrejected] at hrefused

/-- A document is deleted, or the delete fails. -/
theorem delete_cases (hothers : Site.Spares wiring.sink others) {identity : String}
    {result : Except SyncError WriteOutcome}
    (h : Stateful.Runs others wiring (delete identity) writer s result writer' s') :
    Wrote identity none writer writer' (s.1.sink wiring.sink) (s'.1.sink wiring.sink) ∨
      (∃ e, result = .error e) ∧ writer' = writer ∧
        (s.1.sink wiring.sink).Alike (s'.1.sink wiring.sink) := by
  rw [delete, Stateful.runs_get_bind] at h
  rcases write_runs hothers (answeredBy_delete _ identity) (MemorySink.delete_performs _ identity) h with
    ⟨-, rfl, hnature, hindices⟩ | ⟨hfailed | ⟨hnever, -⟩, hleft⟩
  · refine .inl ⟨hnature, rfl, fun other => ?_, fun other => ?_⟩
    · rw [MemorySink.storedAt, MemorySink.stored, hindices, MemorySink.get?_deleted]
      rfl
    · exact Keyed.get?_erase _ _ _
  · exact .inr ⟨hfailed, hleft⟩
  · contradiction

/-! ### Sound ledgers -/

/-- The ledger tells digests of documents that are stored, all of them among the given ones. -/
def Sound (docs : Document → Prop) (writer : Writer) (sink : MemorySink) : Prop :=
  ∀ identity digest, writer.ledger.get? identity = some digest →
    ∃ d, sink.storedAt writer.index identity = some d ∧ d.digest = digest ∧ docs d

variable {docs : Document → Prop} {identity : String} {sink sink' sink₁ sink₂ sink₃ : MemorySink}

theorem Sound.alike (h : writer.Sound docs sink) (halike : sink.Alike sink') :
    writer.Sound docs sink' := by
  intro identity digest hdigest
  rw [halike.storedAt]
  exact h identity digest hdigest

/-- A write keeps a ledger sound. -/
theorem Sound.wrote {d : Option Document} (h : writer.Sound docs sink)
    (hdocs : ∀ written, d = some written → docs written)
    (hwrote : Wrote identity d writer writer' sink sink') : writer'.Sound docs sink' := by
  intro other digest hdigest
  rw [hwrote.index, hwrote.stored]
  rw [hwrote.listed] at hdigest
  split at hdigest
  · rename_i hidentity
    rw [if_pos hidentity]
    obtain ⟨written, rfl, hwritten⟩ := Option.map_eq_some_iff.mp hdigest
    exact ⟨written, rfl, hwritten, hdocs written rfl⟩
  · rename_i hother
    rw [if_neg hother]
    exact h other digest hdigest

end Writer

/-- Documents that their digests tell apart. -/
def Document.Apart (docs : Document → Prop) : Prop :=
  ∀ d d', docs d → docs d' → d.digest = d'.digest → d.text = d'.text

namespace Writer

/-! ### What is wanted -/

/-- Under an identity the wanted text is stored, and the ledger lists it where there is any. -/
structure Meets (want : String → Option String) (writer : Writer) (sink : MemorySink)
    (identity : String) : Prop where
  stored : (sink.storedAt writer.index identity).map Document.text = want identity
  listed : (want identity).isSome → (writer.ledger.get? identity).isSome

/-- What writes towards the wanted texts leave: every identity is as it was or has what is wanted, and
the ledger stays sound. -/
structure Toward (docs : Document → Prop) (want : String → Option String) (writer writer' : Writer)
    (sink sink' : MemorySink) : Prop where
  nature : sink.SameNature sink'
  index : writer'.index = writer.index
  settled : ∀ identity,
    (sink'.storedAt writer.index identity = sink.storedAt writer.index identity ∧
      writer'.ledger.get? identity = writer.ledger.get? identity) ∨
      writer'.Meets want sink' identity
  sound : writer.Sound docs sink → writer'.Sound docs sink'

variable {docs : Document → Prop} {want : String → Option String} {identity : String}
  {writer writer' writer₁ writer₂ writer₃ : Writer} {sink sink' sink₁ sink₂ sink₃ : MemorySink}

theorem Toward.of_alike (h : sink.Alike sink') : Toward docs want writer writer sink sink' :=
  ⟨h.toSameNature, rfl, fun identity => .inl ⟨h.storedAt _ identity, rfl⟩,
    fun hsound => hsound.alike h⟩

theorem Toward.refl (writer : Writer) (sink : MemorySink) :
    Toward docs want writer writer sink sink :=
  .of_alike (.refl sink)

theorem Toward.trans (h : Toward docs want writer₁ writer₂ sink₁ sink₂)
    (h' : Toward docs want writer₂ writer₃ sink₂ sink₃) :
    Toward docs want writer₁ writer₃ sink₁ sink₃ := by
  refine ⟨h.nature.trans h'.nature, h'.index.trans h.index, ?_,
    fun hsound => h'.sound (h.sound hsound)⟩
  intro identity
  have hlater := h'.settled identity
  rw [h.index] at hlater
  rcases hlater with ⟨hstored, hlisted⟩ | hmeets
  · rcases h.settled identity with ⟨hstored', hlisted'⟩ | hmeets
    · exact .inl ⟨hstored.trans hstored', hlisted.trans hlisted'⟩
    · refine .inr ⟨?_, ?_⟩
      · rw [h'.index, h.index, hstored, ← h.index]
        exact hmeets.stored
      · rw [hlisted]
        exact hmeets.listed
  · exact .inr hmeets

/-- What is met stays so. -/
theorem Toward.stays (h : Toward docs want writer writer' sink sink')
    (hmeets : writer.Meets want sink identity) : writer'.Meets want sink' identity := by
  rcases h.settled identity with ⟨hstored, hlisted⟩ | hmeets'
  · refine ⟨?_, ?_⟩
    · rw [h.index, hstored]
      exact hmeets.stored
    · rw [hlisted]
      exact hmeets.listed
  · exact hmeets'

/-- A write of what is wanted is one towards it, and it is met. -/
theorem Wrote.toward {d : Option Document} (h : Wrote identity d writer writer' sink sink')
    (hdocs : ∀ written, d = some written → docs written)
    (hwant : want identity = d.map Document.text) :
    Toward docs want writer writer' sink sink' ∧ writer'.Meets want sink' identity := by
  have hmeets : writer'.Meets want sink' identity := by
    refine ⟨?_, ?_⟩
    · rw [h.index, h.stored, if_pos rfl, hwant]
    · rw [h.listed, if_pos rfl, hwant]
      simp
  refine ⟨⟨h.nature, h.index, fun other => ?_, fun hsound => hsound.wrote hdocs h⟩, hmeets⟩
  by_cases hidentity : identity = other
  · exact .inr (hidentity ▸ hmeets)
  · refine .inl ⟨?_, ?_⟩
    · rw [h.stored, if_neg hidentity]
    · rw [h.listed, if_neg hidentity]

section

variable {others : Site → Site → Prop} {wiring : Wiring} {s s' : Site}

/-- An upsert of the wanted document settles its identity, or fails and leaves it. -/
theorem upsert_runs (hothers : Site.Spares wiring.sink others) {d : Document}
    (happart : Document.Apart docs) (hd : docs d) (hindex : d.index = writer.index)
    (hwant : want d.identity = some d.text) (hrejected : (s.1.sink wiring.sink).rejected = [])
    (hsound : writer.Sound docs (s.1.sink wiring.sink)) {result : Except SyncError WriteOutcome}
    (h : Stateful.Runs others wiring (upsert d) writer s result writer' s') :
    Toward docs want writer writer' (s.1.sink wiring.sink) (s'.1.sink wiring.sink) ∧
      ∀ outcome, result = .ok outcome →
        writer'.Meets want (s'.1.sink wiring.sink) d.identity := by
  rcases upsert_cases hothers hindex hrejected h with
    ⟨hledger, rfl, rfl⟩ | hwrote | ⟨⟨e, rfl⟩, rfl, halike⟩
  · obtain ⟨old, hold, hdigest, hdocs⟩ := hsound _ _ hledger
    have htext := happart old d hdocs hd hdigest
    refine ⟨.refl _ _, fun _ _ => ⟨?_, ?_⟩⟩
    · rw [hold, hwant, Option.map_some, htext]
    · rw [hledger]
      exact fun _ => rfl
  · have hdocs : ∀ written, some d = some written → docs written := by
      rintro _ ⟨⟩
      exact hd
    obtain ⟨htoward, hmeets⟩ := hwrote.toward hdocs hwant
    exact ⟨htoward, fun _ _ => hmeets⟩
  · exact ⟨.of_alike halike, fun _ hresult => by contradiction⟩

/-- A delete under an identity where nothing is wanted settles it, or fails and leaves it. -/
theorem delete_runs (docs : Document → Prop) (hothers : Site.Spares wiring.sink others)
    (hwant : want identity = none) {result : Except SyncError WriteOutcome}
    (h : Stateful.Runs others wiring (delete identity) writer s result writer' s') :
    Toward docs want writer writer' (s.1.sink wiring.sink) (s'.1.sink wiring.sink) ∧
      ∀ outcome, result = .ok outcome → writer'.Meets want (s'.1.sink wiring.sink) identity := by
  rcases delete_cases hothers h with hwrote | ⟨⟨e, rfl⟩, rfl, halike⟩
  · have hdocs : ∀ written, none = some written → docs written := by
      intro written hnone
      contradiction
    obtain ⟨htoward, hmeets⟩ := hwrote.toward hdocs hwant
    exact ⟨htoward, fun _ _ => hmeets⟩
  · exact ⟨.of_alike halike, fun _ hresult => by contradiction⟩

/-- What is known are the identities that the sink lists. -/
theorem known_runs (hothers : Site.Spares wiring.sink others)
    (henumerates : (s.1.sink wiring.sink).enumerates = true)
    {result : Except SyncError (List String)}
    (h : Attempt.Runs others wiring writer.known s result s') :
    result = .ok ((s.1.sink wiring.sink).stored writer.index).keys ∧
      (s.1.sink wiring.sink).Alike (s'.1.sink wiring.sink) := by
  have hlisted {r : Except SinkError (Option (List String))} {t : Site}
      (h : Routine.Runs others wiring (ask (.identities writer.index)) s r t) :
      r = .ok (some ((s.1.sink wiring.sink).stored writer.index).keys) ∧
        (s.1.sink wiring.sink).Alike (t.1.sink wiring.sink) := by
    obtain ⟨s₁, hacts, rfl, rfl⟩ := Program.runs_request.mp h
    have halike := hothers _ _ hacts
    refine ⟨?_, halike⟩
    change Except.ok ((s₁.1.sink wiring.sink).identities writer.index) = _
    rw [MemorySink.identities, halike.enumerates, if_pos henumerates, halike.stored]
  have hsent {r : Except SinkError (Option (List String))} {t : Site}
      (h : Routine.Runs others wiring (writer.send (ask (.identities writer.index))) s r t) :
      r = .ok (some ((s.1.sink wiring.sink).stored writer.index).keys) ∧
        (s.1.sink wiring.sink).Alike (t.1.sink wiring.sink) := by
    unfold send RetryPolicy.attempt at h
    cases hretries : writer.retry.retries with
    | zero =>
      rw [hretries] at h
      exact hlisted h
    | succ retries =>
      rw [hretries] at h
      obtain ⟨first, s₁, hfirst, hrest⟩ := Program.runs_bind.mp h
      obtain ⟨rfl, halike⟩ := hlisted hfirst
      obtain ⟨rfl, rfl⟩ := Program.runs_done.mp hrest
      exact ⟨rfl, halike⟩
  rcases Attempt.runs_bind.mp h with ⟨listed, s₁, hmapped, hrest⟩ | ⟨e, hmapped, -⟩
  · obtain ⟨hfound, halike⟩ := hsent (Attempt.runs_mapError_ok.mp hmapped)
    obtain rfl := Except.ok.inj hfound
    obtain ⟨rfl, rfl⟩ := Attempt.runs_pure.mp hrest
    exact ⟨rfl, halike⟩
  · obtain ⟨r, hmapped, he⟩ := Attempt.runs_mapError.mp hmapped
    obtain ⟨rfl, -⟩ := hsent hmapped
    contradiction

/-- Deletes under identities where nothing is wanted settle those they come to, and all when none
fails. -/
theorem deleteAll_runs (docs : Document → Prop) (hothers : Site.Spares wiring.sink others)
    {identities : List String} (hwant : ∀ identity ∈ identities, want identity = none)
    {result : Except SyncError Nat}
    (h : Stateful.Runs others wiring (deleteAll identities) writer s result writer' s') :
    Toward docs want writer writer' (s.1.sink wiring.sink) (s'.1.sink wiring.sink) ∧
      ∀ count, result = .ok count → ∀ identity ∈ identities,
        writer'.Meets want (s'.1.sink wiring.sink) identity := by
  induction identities generalizing writer s writer' s' result with
  | nil =>
    obtain ⟨-, rfl, rfl⟩ := Stateful.runs_pure.mp h
    exact ⟨.refl _ _, by simp⟩
  | cons first rest ih =>
    obtain ⟨hfirst, hrest⟩ := List.forall_mem_cons.mp hwant
    rw [deleteAll] at h
    rcases Stateful.runs_bind.mp h with ⟨outcome, writer₁, s₁, hdelete, h₁⟩ | ⟨e, hdelete, rfl⟩
    · obtain ⟨htoward, hdone⟩ := delete_runs docs hothers hfirst hdelete
      rcases Stateful.runs_bind.mp h₁ with ⟨count, writer₂, s₂, hdeletes, h₂⟩ | ⟨e, hdeletes, rfl⟩
      · obtain ⟨htoward', hdone'⟩ := ih hrest hdeletes
        obtain ⟨-, rfl, rfl⟩ := Stateful.runs_pure.mp h₂
        refine ⟨htoward.trans htoward', fun _ _ identity hidentity => ?_⟩
        rcases List.mem_cons.mp hidentity with rfl | hidentity
        · exact htoward'.stays (hdone _ rfl)
        · exact hdone' _ rfl identity hidentity
      · obtain ⟨htoward', -⟩ := ih hrest hdeletes
        exact ⟨htoward.trans htoward', fun _ hresult => by contradiction⟩
    · obtain ⟨htoward, -⟩ := delete_runs docs hothers hfirst hdelete
      exact ⟨htoward, fun _ hresult => by contradiction⟩

/-- Reconciling settles every identity that was not seen, where nothing is wanted under those. -/
theorem reconcile_runs (docs : Document → Prop) (hothers : Site.Spares wiring.sink others)
    {seen : List String} (hwant : ∀ identity, identity ∉ seen → want identity = none)
    (henumerates : (s.1.sink wiring.sink).enumerates = true) {result : Except SyncError Nat}
    (h : Stateful.Runs others wiring (reconcile seen) writer s result writer' s') :
    Toward docs want writer writer' (s.1.sink wiring.sink) (s'.1.sink wiring.sink) ∧
      ∀ count, result = .ok count → ∀ identity, identity ∉ seen →
        writer'.Meets want (s'.1.sink wiring.sink) identity := by
  rw [reconcile] at h
  rcases Stateful.runs_bind.mp h with ⟨known, writer₁, s₁, hknown, hdeletes⟩ | ⟨e, hknown, -⟩
  · obtain ⟨hknown, rfl⟩ := Writing.runs_reading.mp hknown
    obtain ⟨hlisted, halike⟩ := known_runs hothers henumerates hknown
    obtain rfl := Except.ok.inj hlisted
    have hunseen : ∀ identity ∈ sortStable (fun a b => decide (a ≤ b))
        ((((s.1.sink wiring.sink).stored writer₁.index).keys).filter
          fun identity => !seen.contains identity), want identity = none := by
      intro identity hidentity
      have hmem := (List.mem_filter.mp (mem_sortStable.mp hidentity)).2
      exact hwant identity (by simpa using hmem)
    obtain ⟨htoward, hdone⟩ :=
      deleteAll_runs docs hothers hunseen hdeletes
    refine ⟨.trans (.of_alike halike) htoward, fun count hcount identity hidentity => ?_⟩
    by_cases hstored : identity ∈ ((s.1.sink wiring.sink).stored writer₁.index).keys
    · refine hdone count hcount identity (mem_sortStable.mpr (List.mem_filter.mpr ⟨hstored, ?_⟩))
      simpa using hidentity
    · have hnone : (s.1.sink wiring.sink).storedAt writer₁.index identity = none := by
        rw [Keyed.mem_keys, not_exists] at hstored
        exact Option.eq_none_iff_forall_ne_some.mpr hstored
      have hwanted := hwant identity hidentity
      refine htoward.stays ⟨?_, by simp [hwanted]⟩
      rw [halike.storedAt, hnone, hwanted]
      rfl
  · obtain ⟨hknown, -⟩ := Writing.runs_reading.mp hknown
    obtain ⟨hlisted, -⟩ := known_runs hothers henumerates hknown
    contradiction

end

end Writer

end DocSync
