import DocSync.Proofs.Conversation
import DocSync.Proofs.Sink.Writing

/-!
Writing to a sink whose failures may have taken effect.  A write that the sink accepts has landed; one
that it fails may have landed all the same, as when only its answer is lost.  A writer's ledger tells
the digest of the last accepted write, and keeps telling it after a failed write that landed.  Main
statement: a write that is skipped as unchanged finds its document in the sink exactly when the last
write that landed under its identity was accepted.
-/

namespace DocSync

/-- A write that took effect: the document it left under an identity, none for a delete, and whether
the sink accepted it. -/
structure Landing where
  identity : String
  content : Option Document
  accepted : Bool

/-- The writes that took effect on an index, the last one first. -/
abbrev Landings := List Landing

namespace Landings

def last? (landed : Landings) (identity : String) : Option Landing :=
  landed.find? (·.identity = identity)

/-- What a sink holds under an identity, after what it held before all the landings. -/
def held (landed : Landings) (before : String → Option Document) (identity : String) :
    Option Document :=
  match landed.last? identity with
  | some landing => landing.content
  | none => before identity

/-- The last write that landed under an identity was accepted. -/
def LastAccepted (landed : Landings) (identity : String) : Prop :=
  ∃ landing, landed.last? identity = some landing ∧ landing.accepted = true

theorem last?_cons_self (landing : Landing) (landed : Landings) :
    last? (landing :: landed) landing.identity = some landing := by
  simp [last?]

theorem last?_cons_other {landing : Landing} {identity : String}
    (hother : landing.identity ≠ identity) (landed : Landings) :
    last? (landing :: landed) identity = last? landed identity := by
  simp [last?, hother]

/-- The attempts of a write that failed and landed. -/
def unaccepted (count : Nat) (identity : String) (content : Option Document) : Landings :=
  List.replicate count ⟨identity, content, false⟩

end Landings

open Landings (unaccepted)

namespace Sink

/-- What an attempt to write does: it lands when it is accepted, and may land when it fails. -/
def Attempted (identity : String) (content : Option Document) (landed : Landings) :
    Except SinkError Unit → Landings → Prop
  | .ok (), landed' => landed' = ⟨identity, content, true⟩ :: landed
  | .error _, landed' => landed' = landed ∨ landed' = ⟨identity, content, false⟩ :: landed

/-- How a call may be answered, where nobody else writes the index. -/
def Answers (index : String) : (call : Call) → Landings → call.Answer → Landings → Prop
  | .sink (.upsert d), landed, answer, landed' =>
    if d.index = index then Attempted d.identity (some d) landed answer landed' else landed' = landed
  | .sink (.delete of identity), landed, answer, landed' =>
    if of = index then Attempted identity none landed answer landed' else landed' = landed
  | _, landed, _, landed' => landed' = landed

theorem answers_upsert {index : String} {d : Document} (hindex : d.index = index)
    {landed landed' : Landings} {answer : Except SinkError Unit} :
    Answers index (.sink (.upsert d)) landed answer landed' ↔
      Attempted d.identity (some d) landed answer landed' := by
  simp only [Answers, if_pos hindex]

theorem answers_delete {index identity : String} {landed landed' : Landings}
    {answer : Except SinkError Unit} :
    Answers index (.sink (.delete index identity)) landed answer landed' ↔
      Attempted identity none landed answer landed' := by
  simp only [Answers, if_true]

theorem Answers.eq_of_not_writes {index : String} {call : Call} (hwrites : ¬ call.Writes)
    (landed : Landings) (answer : call.Answer) (landed' : Landings)
    (h : Answers index call landed answer landed') : landed' = landed := by
  cases call with
  | sink call =>
    cases call with
    | upsert | delete => exact absurd trivial hwrites
    | _ => exact h
  | _ => exact h

end Sink

namespace Writer

variable {index identity : String} {content : Option Document} {writer writer' : Writer}
  {landed landed' : Landings}

/-! ### Attempts at one write -/

/-- The request writes `content` under `identity`. -/
def Attempts (index : String) (request : Routine (Except SinkError Unit)) (identity : String)
    (content : Option Document) : Prop :=
  ∀ landed answer landed', request.Talks (Sink.Answers index) landed answer landed' →
    Sink.Attempted identity content landed answer landed'

theorem attempts_upsert {d : Document} (hindex : d.index = index) :
    Attempts index (ask (.upsert d)) d.identity (some d) := by
  intro landed answer landed' h
  exact (Sink.answers_upsert hindex).mp (Program.talks_request.mp h)

theorem attempts_delete (index identity : String) :
    Attempts index (ask (.delete index identity)) identity none := by
  intro landed answer landed' h
  exact Sink.answers_delete.mp (Program.talks_request.mp h)

/-- What a write leaves that was tried any number of times: landings of the failed attempts, and the
accepted one last. -/
def Sent (identity : String) (content : Option Document) (landed : Landings) :
    Except SinkError Unit → Landings → Prop
  | .ok (), landed' => ∃ count,
      landed' = ⟨identity, content, true⟩ :: (unaccepted count identity content ++ landed)
  | .error _, landed' => ∃ count, landed' = unaccepted count identity content ++ landed

theorem Sent.of_attempted {answer : Except SinkError Unit}
    (h : Sink.Attempted identity content landed answer landed') :
    Sent identity content landed answer landed' := by
  cases answer with
  | ok => exact ⟨0, h⟩
  | error e =>
    rcases h with rfl | rfl
    · exact ⟨0, rfl⟩
    · exact ⟨1, rfl⟩

theorem unaccepted_append (count more : Nat) (landed : Landings) :
    unaccepted more identity content ++ (unaccepted count identity content ++ landed) =
      unaccepted (more + count) identity content ++ landed := by
  rw [unaccepted, unaccepted, unaccepted, ← List.append_assoc, List.replicate_append_replicate]

theorem Sent.after {count : Nat} {answer : Except SinkError Unit}
    (h : Sent identity content (unaccepted count identity content ++ landed) answer landed') :
    Sent identity content landed answer landed' := by
  cases answer with
  | ok =>
    obtain ⟨more, rfl⟩ := h
    refine ⟨more + count, ?_⟩
    rw [unaccepted_append]
  | error e =>
    obtain ⟨more, rfl⟩ := h
    exact ⟨more + count, unaccepted_append count more landed⟩

theorem send_talks {request : Routine (Except SinkError Unit)}
    (hattempts : Attempts index request identity content) {answer : Except SinkError Unit}
    (h : (writer.send request).Talks (Sink.Answers index) landed answer landed') :
    Sent identity content landed answer landed' := by
  have hretry : ∀ (retries attempt delay : Nat) {landed landed' : Landings}
      {answer : Except SinkError Unit},
      (retryFrom (fun _ => Attempt.ofRoutine request) SinkError.isTransient attempt retries
        delay).run.Talks (Sink.Answers index) landed answer landed' →
      Sent identity content landed answer landed' := by
    intro retries
    induction retries with
    | zero => exact fun _ _ _ _ _ h => .of_attempted (hattempts _ _ _ h)
    | succ retries ih =>
      intro attempt delay landed landed' answer h
      obtain ⟨first, landed₁, hfirst, hrest⟩ := Program.talks_bind.mp h
      have hsent := Sent.of_attempted (hattempts _ _ _ hfirst)
      cases first with
      | ok =>
        obtain ⟨rfl, rfl⟩ := Program.talks_done.mp hrest
        exact hsent
      | error e =>
        by_cases htransient : e.isTransient
        · simp only [htransient, if_true] at hrest
          obtain ⟨_, landed₂, hsleep, hagain⟩ := Program.talks_bind.mp hrest
          obtain rfl : landed₂ = landed₁ := Program.talks_request.mp hsleep
          obtain ⟨count, rfl⟩ := hsent
          exact (ih _ _ hagain).after
        · simp only [htransient] at hrest
          obtain ⟨rfl, rfl⟩ := Program.talks_done.mp hrest
          exact hsent
  exact hretry _ _ _ h

theorem write_talks {request : Routine (Except SinkError Unit)}
    (hattempts : Attempts index request identity content) {accepted : WriteOutcome}
    {change : Keyed String → Keyed String} {result : Except SyncError WriteOutcome}
    (h : Threaded.Talks (Sink.Answers index) (write request accepted change) writer landed result
      writer' landed') :
    (result = .ok accepted ∧ writer' = { writer with ledger := change writer.ledger } ∧
        Sent identity content landed (.ok ()) landed') ∨
      ∃ e, result = outcomeOfError e ∧ writer' = writer ∧
        Sent identity content landed (.error e) landed' := by
  rw [write, Threaded.talks_get_bind] at h
  rcases Threaded.talks_bind.mp h with ⟨sent, w₁, landed₁, hsend, hrest⟩ | ⟨e, hsend, -⟩
  · obtain ⟨_, hsend, hsent, rfl⟩ := Threaded.talks_lift.mp hsend
    obtain rfl := Except.ok.inj hsent
    have htried := send_talks hattempts hsend
    cases sent with
    | ok =>
      rw [Threaded.talks_set_bind] at hrest
      obtain ⟨rfl, rfl, rfl⟩ := Threaded.talks_pure.mp hrest
      exact .inl ⟨rfl, rfl, htried⟩
    | error e =>
      obtain ⟨hresult, rfl⟩ := Program.talks_done.mp hrest
      obtain ⟨rfl, rfl⟩ := Prod.mk.inj hresult
      exact .inr ⟨e, rfl, rfl, htried⟩
  · obtain ⟨_, -, hsent, -⟩ := Threaded.talks_lift.mp hsend
    contradiction

/-! ### What the ledger tells -/

/-- The last accepted landing under an identity left a document with the digest, and the failed ones
that landed since left another digest or nothing. -/
def Traced (docs : Document → Prop) (identity digest : String) : Landings → Prop
  | [] => False
  | landing :: landed =>
    if landing.identity = identity then
      if landing.accepted then ∃ d, landing.content = some d ∧ docs d ∧ d.digest = digest
      else landing.content.map Document.digest ≠ some digest ∧ Traced docs identity digest landed
    else Traced docs identity digest landed

/-- Every digest of the ledger can be traced to a landing. -/
def Truthful (docs : Document → Prop) (writer : Writer) (landed : Landings) : Prop :=
  ∀ identity digest, writer.ledger.get? identity = some digest →
    Traced docs identity digest landed

variable {docs : Document → Prop}

theorem traced_other {other digest : String} (hother : identity ≠ other) (count : Nat) :
    Traced docs other digest (unaccepted count identity content ++ landed) ↔
      Traced docs other digest landed := by
  induction count with
  | zero => rfl
  | succ count ih =>
    change Traced docs other digest
      (⟨identity, content, false⟩ :: (unaccepted count identity content ++ landed)) ↔ _
    rw [Traced, if_neg hother, ih]

theorem Traced.unaccepted {digest : String} (h : Traced docs identity digest landed)
    (hdiffers : content.map Document.digest ≠ some digest) (count : Nat) :
    Traced docs identity digest (unaccepted count identity content ++ landed) := by
  induction count with
  | zero => exact h
  | succ count ih =>
    change Traced docs identity digest
      (⟨identity, content, false⟩ :: (Landings.unaccepted count identity content ++ landed))
    rw [Traced, if_pos rfl]
    exact ⟨hdiffers, ih⟩

/-- A failed write of what the ledger does not tell keeps the ledger truthful. -/
theorem Truthful.failed (h : Truthful docs writer landed)
    (hdiffers : ∀ digest, writer.ledger.get? identity = some digest →
      content.map Document.digest ≠ some digest) (count : Nat) :
    Truthful docs writer (unaccepted count identity content ++ landed) := by
  intro other digest hdigest
  by_cases hidentity : identity = other
  · subst hidentity
    exact (h _ _ hdigest).unaccepted (hdiffers _ hdigest) count
  · rw [traced_other hidentity]
    exact h other digest hdigest

/-- An accepted write whose digest the ledger takes over keeps it truthful. -/
theorem Truthful.accepted (h : Truthful docs writer landed) (count : Nat)
    (hdocs : ∀ d, content = some d → docs d)
    (hlisted : ∀ other, writer'.ledger.get? other =
      if identity = other then content.map Document.digest else writer.ledger.get? other) :
    Truthful docs writer'
      (⟨identity, content, true⟩ :: (unaccepted count identity content ++ landed)) := by
  intro other digest hdigest
  rw [hlisted] at hdigest
  rw [Traced]
  by_cases hidentity : identity = other
  · rw [if_pos hidentity] at hdigest ⊢
    obtain ⟨d, hcontent, hdigest⟩ := Option.map_eq_some_iff.mp hdigest
    rw [if_pos rfl]
    exact ⟨d, hcontent, hdocs d hcontent, hdigest⟩
  · rw [if_neg hidentity] at hdigest ⊢
    rw [traced_other hidentity]
    exact h other digest hdigest

/-! ### Writes one after another -/

theorem upsert_truthful {d : Document} (hd : docs d) (hindex : d.index = index)
    (h : Truthful docs writer landed) {result : Except SyncError WriteOutcome}
    (htalks : Threaded.Talks (Sink.Answers index) (upsert d) writer landed result writer' landed') :
    writer'.index = writer.index ∧ Truthful docs writer' landed' ∧
      (result = .ok .unchanged →
        landed' = landed ∧ writer.ledger.get? d.identity = some d.digest) := by
  rw [upsert, Threaded.talks_get_bind] at htalks
  split at htalks
  · rename_i hledger
    obtain ⟨rfl, rfl, rfl⟩ := Threaded.talks_pure.mp htalks
    exact ⟨rfl, h, fun _ => ⟨rfl, hledger⟩⟩
  rename_i hledger
  have hdiffers : ∀ digest, writer.ledger.get? d.identity = some digest →
      (some d).map Document.digest ≠ some digest := by
    intro digest hdigest hsame
    rw [Option.map_some] at hsame
    exact hledger (hdigest.trans hsame.symm)
  rcases write_talks (attempts_upsert hindex) htalks with
    ⟨rfl, rfl, count, rfl⟩ | ⟨e, rfl, rfl, count, rfl⟩
  · refine ⟨rfl, h.accepted count ?_ fun other => ?_, fun hresult => by simp at hresult⟩
    · rintro _ ⟨⟩
      exact hd
    · exact Keyed.get?_putSorted _ _ _ _
  · refine ⟨rfl, h.failed hdiffers count, fun hresult => ?_⟩
    unfold outcomeOfError at hresult
    split at hresult <;> simp at hresult

theorem delete_truthful (h : Truthful docs writer landed) (hindex : writer.index = index)
    {result : Except SyncError WriteOutcome}
    (htalks : Threaded.Talks (Sink.Answers index) (delete identity) writer landed result writer'
      landed') :
    writer'.index = writer.index ∧ Truthful docs writer' landed' := by
  subst hindex
  rw [delete, Threaded.talks_get_bind] at htalks
  rcases write_talks (attempts_delete writer.index identity) htalks with
    ⟨-, rfl, count, rfl⟩ | ⟨e, -, rfl, count, rfl⟩
  · refine ⟨rfl, h.accepted count (fun _ hnone => by contradiction) fun other => ?_⟩
    exact Keyed.get?_erase _ _ _
  · exact ⟨rfl, h.failed (fun _ _ hnone => by contradiction) count⟩

theorem deleteAll_truthful {identities : List String} (h : Truthful docs writer landed)
    (hindex : writer.index = index) {result : Except SyncError Nat}
    (htalks : Threaded.Talks (Sink.Answers index) (deleteAll identities) writer landed result writer'
      landed') :
    writer'.index = writer.index ∧ Truthful docs writer' landed' := by
  induction identities generalizing writer landed writer' landed' result with
  | nil =>
    obtain ⟨-, rfl, rfl⟩ := Threaded.talks_pure.mp htalks
    exact ⟨rfl, h⟩
  | cons first rest ih =>
    rw [deleteAll] at htalks
    rcases Threaded.talks_bind.mp htalks with
      ⟨outcome, writer₁, landed₁, hdelete, htalks⟩ | ⟨e, hdelete, -⟩
    · obtain ⟨hindex₁, h₁⟩ := delete_truthful h hindex hdelete
      rcases Threaded.talks_bind.mp htalks with
        ⟨count, writer₂, landed₂, hdeletes, hdone⟩ | ⟨e, hdeletes, -⟩
      · obtain ⟨-, rfl, rfl⟩ := Threaded.talks_pure.mp hdone
        obtain ⟨hindex₂, h₂⟩ := ih h₁ (hindex₁.trans hindex) hdeletes
        exact ⟨hindex₂.trans hindex₁, h₂⟩
      · obtain ⟨hindex₂, h₂⟩ := ih h₁ (hindex₁.trans hindex) hdeletes
        exact ⟨hindex₂.trans hindex₁, h₂⟩
    · exact delete_truthful h hindex hdelete

theorem known_asks_no_write (w : Writer) : w.known.Asks fun call => ¬ call.Writes :=
  (Attempt.asks_mapError (send_asks (fun _ => id) w (ask_asks id))).bind fun _ =>
    Attempt.asks_pure _

theorem reconcile_truthful {seen : List String} (h : Truthful docs writer landed)
    (hindex : writer.index = index) {result : Except SyncError Nat}
    (htalks : Threaded.Talks (Sink.Answers index) (reconcile seen) writer landed result writer'
      landed') :
    writer'.index = writer.index ∧ Truthful docs writer' landed' := by
  have hlisting {r : Except SyncError (List String)} {w₁ : Writer} {landed₁ : Landings}
      (hknown : Threaded.Talks (Sink.Answers index) (reading known) writer landed r w₁ landed₁) :
      w₁ = writer ∧ landed₁ = landed := by
    obtain ⟨_, landed₂, hknown, hdone⟩ := Program.talks_bind.mp hknown
    obtain ⟨⟨⟩, rfl⟩ := Program.talks_done.mp hdone
    have hsame : landed = landed₁ :=
      hknown.keeps (fun _ => rfl) Eq.trans (known_asks_no_write writer) fun _ hwrites _ _ _ h =>
        (Sink.Answers.eq_of_not_writes hwrites _ _ _ h).symm
    exact ⟨rfl, hsame.symm⟩
  rw [reconcile] at htalks
  rcases Threaded.talks_bind.mp htalks with ⟨known, w₁, landed₁, hknown, hdeletes⟩ | ⟨e, hknown, -⟩
  · obtain ⟨rfl, rfl⟩ := hlisting hknown
    exact deleteAll_truthful h hindex hdeletes
  · obtain ⟨rfl, rfl⟩ := hlisting hknown
    exact ⟨rfl, h⟩

/-- What the only writer of an index comes to by upserts, deletes and reconciliations, one after
another and each with any answers, together with what landed in the sink since it was new. -/
inductive Used (docs : Document → Prop) (index : String) : Writer → Landings → Prop
  | fresh (retry : RetryPolicy) : Used docs index ⟨index, retry, []⟩ []
  | upsert {w w' : Writer} {landed landed' : Landings} {d : Document}
      {result : Except SyncError WriteOutcome} : Used docs index w landed → docs d →
        d.index = index →
        Threaded.Talks (Sink.Answers index) (upsert d) w landed result w' landed' →
          Used docs index w' landed'
  | delete {w w' : Writer} {landed landed' : Landings} {identity : String}
      {result : Except SyncError WriteOutcome} : Used docs index w landed →
        Threaded.Talks (Sink.Answers index) (delete identity) w landed result w' landed' →
          Used docs index w' landed'
  | reconcile {w w' : Writer} {landed landed' : Landings} {seen : List String}
      {result : Except SyncError Nat} : Used docs index w landed →
        Threaded.Talks (Sink.Answers index) (reconcile seen) w landed result w' landed' →
          Used docs index w' landed'

theorem Used.truthful (h : Used docs index writer landed) :
    writer.index = index ∧ Truthful docs writer landed := by
  induction h with
  | fresh retry => exact ⟨rfl, fun _ _ hnone => by contradiction⟩
  | upsert _ hd hindex htalks ih =>
    obtain ⟨hindex', htruthful, -⟩ := upsert_truthful hd hindex ih.2 htalks
    exact ⟨hindex'.trans ih.1, htruthful⟩
  | delete _ htalks ih =>
    obtain ⟨hindex', htruthful⟩ := delete_truthful ih.2 ih.1 htalks
    exact ⟨hindex'.trans ih.1, htruthful⟩
  | reconcile _ htalks ih =>
    obtain ⟨hindex', htruthful⟩ := reconcile_truthful ih.2 ih.1 htalks
    exact ⟨hindex'.trans ih.1, htruthful⟩

/-- The last landing of a traced identity left the digest if it was accepted, and only then. -/
theorem Traced.last {digest : String} (h : Traced docs identity digest landed) :
    ∃ landing, landed.last? identity = some landing ∧
      if landing.accepted then ∃ d, landing.content = some d ∧ docs d ∧ d.digest = digest
      else landing.content.map Document.digest ≠ some digest := by
  induction landed with
  | nil => exact h.elim
  | cons landing landed ih =>
    rw [Traced] at h
    by_cases hidentity : landing.identity = identity
    · rw [if_pos hidentity] at h
      refine ⟨landing, hidentity ▸ Landings.last?_cons_self landing landed, ?_⟩
      by_cases haccepted : landing.accepted = true
      · rw [if_pos haccepted] at h ⊢
        exact h
      · rw [if_neg haccepted] at h ⊢
        exact h.1
    · rw [if_neg hidentity] at h
      rw [Landings.last?_cons_other hidentity]
      exact ih h

section

/-- The document of book a. -/
def book : Document := ⟨"a", "books", [("isbn", .string "a")]⟩

/-- A writer that wrote the book last. -/
def shelved : Writer := ⟨"books", .none, [("a", book.digest)]⟩

theorem book_upserted :
    Threaded.Talks (Sink.Answers "books") (upsert book) ⟨"books", .none, []⟩ [] (.ok .upserted)
      shelved [⟨"a", some book, true⟩] := by
  have hanswer : Sink.Answers "books" (.sink (.upsert book)) [] (.ok ()) [⟨"a", some book, true⟩] :=
    (Sink.answers_upsert rfl).mpr rfl
  exact .ask hanswer (.done _ _)

theorem book_delete_lost (landed : Landings) :
    Threaded.Talks (Sink.Answers "books") (delete "a") shelved landed
      (.error (transport (.timeout "no answer"))) shelved (⟨"a", none, false⟩ :: landed) := by
  have hanswer : Sink.Answers "books" (.sink (.delete "books" "a")) landed
      (.error (.timeout "no answer")) (⟨"a", none, false⟩ :: landed) :=
    Sink.answers_delete.mpr (.inr rfl)
  exact .ask hanswer (.done _ _)

theorem book_unchanged (landed : Landings) :
    Threaded.Talks (Sink.Answers "books") (upsert book) shelved landed (.ok .unchanged) shelved
      landed := by
  have hledger : shelved.ledger.get? book.identity = some book.digest := Keyed.get?_put [] _ _ _
  rw [upsert, Threaded.talks_get_bind, if_pos hledger]
  exact Threaded.talks_pure.mpr ⟨rfl, rfl, rfl⟩

theorem shelved_used : Used (· = book) "books" shelved [⟨"a", some book, true⟩] :=
  .upsert (.fresh .none) rfl rfl book_upserted

end

end Writer

end DocSync
