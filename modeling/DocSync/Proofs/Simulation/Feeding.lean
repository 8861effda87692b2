import DocSync.Proofs.Simulation.Buffers
import DocSync.Proofs.Simulation.Users

/-!
What a buffer in memory has pending of the log.  A buffer that commits feed has the log from some point on,
and one that nothing feeds has nothing; draining and acknowledging only move that point.
-/

namespace DocSync

namespace World

/-- The buffer is in memory and has pending what the log has from some point on, each record as often as
it is fed.  What the last drain handed out stands at the front, until it is acknowledged. -/
structure Fed (name : String) (taken later : List ChangeRecord) (w : World) : Prop where
  logged : taken ++ later <:+ w.database.log
  store : (w.buffer name).store = .memory
    ⟨(taken ++ later).flatMap (List.replicate (w.feeds.count name)),
      (taken.flatMap (List.replicate (w.feeds.count name))).length⟩
  quiet : (w.buffer name).writes = []

def IsFed (name : String) (w : World) : Prop := ∃ taken later, Fed name taken later w

variable {name : String} {taken later : List ChangeRecord} {w w' : World}

theorem Fed.of_same (h : Fed name taken later w) (hbuffer : w'.buffer name = w.buffer name)
    (hfeeds : w'.feeds = w.feeds) (hlog : w'.database.log = w.database.log) :
    Fed name taken later w' := by
  refine ⟨hlog ▸ h.logged, ?_, ?_⟩
  · rw [hbuffer, hfeeds]
    exact h.store
  · rw [hbuffer]
    exact h.quiet

theorem IsFed.of_same (h : w.IsFed name) (hbuffer : w'.buffer name = w.buffer name)
    (hfeeds : w'.feeds = w.feeds) (hlog : w'.database.log = w.database.log) : w'.IsFed name := by
  obtain ⟨taken, later, h⟩ := h
  exact ⟨taken, later, h.of_same hbuffer hfeeds hlog⟩

theorem IsFed.quiet (h : w.IsFed name) : (w.buffer name).writes = [] := by
  obtain ⟨_, _, h⟩ := h
  exact h.quiet

/-- A call that may be made to fail changes nothing of a buffer. -/
theorem IsFed.withFaults (h : w.IsFed name) (faults : Faults) : { w with faults := faults }.IsFed name :=
  h.of_same rfl rfl rfl

/-- What a commit logs is pending behind what was. -/
theorem IsFed.commit (h : w.IsFed name) {queries : List Query} (hcommit : w.commit queries = .ok w') :
    w'.IsFed name := by
  obtain ⟨taken, later, h⟩ := h
  unfold World.commit at hcommit
  cases hdb : w.database.commit queries with
  | error e => simp [hdb, Except.map] at hcommit
  | ok result =>
    obtain ⟨rows, logged, db⟩ := result
    simp only [hdb, Except.map] at hcommit
    obtain rfl := Except.ok.inj hcommit
    have hstore := UserCall.store_feed (w := { w with database := db }) logged h.store
    refine ⟨taken, later ++ logged, ?_, ?_, ?_⟩
    · obtain ⟨before, hlog⟩ := h.logged
      rw [(backlog_feed "" { w with database := db } logged).2, Database.log_commit hdb, ← hlog]
      exact ⟨before, by simp only [List.append_assoc]⟩
    · rw [hstore, UserCall.feeds_feed, ← List.append_assoc,
        @List.flatMap_append _ _ (taken ++ later)]
    · exact (writes_feed _ _ _).trans h.quiet

theorem IsFed.others (h : w.IsFed name) (hothers : Others w w') : w'.IsFed name := by
  induction hothers with
  | refl => exact h
  | step hfirst _ ih =>
    refine ih ?_
    cases hfirst with
    | commit queries hcommit => exact h.commit hcommit
    | failSink => exact h.of_same rfl rfl rfl
    | arm => exact h.withFaults _

/-- A drain hands out all that is pending. -/
theorem IsFed.drain (h : w.IsFed name) :
    (w.drain name).2.IsFed name ∧ ∀ records, (w.drain name).1 = .ok records → ∃ since,
      since <:+ (w.drain name).2.database.log ∧
        records = since.flatMap (List.replicate ((w.drain name).2.feeds.count name)) := by
  obtain ⟨taken, later, h⟩ := h
  simp only [World.drain]
  rcases hstrike : w.strike .drain with ⟨_ | failure, w₁⟩
  · obtain ⟨faults, rfl⟩ : ∃ faults, w₁ = { w with faults := faults } :=
      ⟨_, (congrArg Prod.snd hstrike).symm⟩
    have hstruck : Fed name taken later { w with faults := faults } := h.of_same rfl rfl rfl
    have hwrite : writeOnDrain { w with faults := faults } name =
        (.ok (), { w with faults := faults }) := by
      simp only [writeOnDrain, hstruck.quiet]
    simp only [hwrite, hstruck.store, MemoryBuffer.drain]
    refine ⟨⟨taken ++ later, [], ?_, ?_, ?_⟩, ?_⟩
    · rw [List.append_nil]
      exact h.logged
    · rw [buffer_putBuffer, if_pos rfl, List.append_nil]
      rfl
    · rw [buffer_putBuffer, if_pos rfl]
      exact h.quiet
    · exact fun records hrecords => ⟨taken ++ later, h.logged, (Except.ok.inj hrecords).symm⟩
  · obtain ⟨faults, rfl⟩ : ∃ faults, w₁ = { w with faults := faults } :=
      ⟨_, (congrArg Prod.snd hstrike).symm⟩
    exact ⟨⟨taken, later, h.of_same rfl rfl rfl⟩, fun records hrecords => by contradiction⟩

/-- An acknowledgement takes away what was handed out, and leaves what came after. -/
theorem IsFed.ack (h : w.IsFed name) : (w.ack name).2.IsFed name := by
  obtain ⟨taken, later, h⟩ := h
  simp only [World.ack]
  rcases hstrike : w.strike .ack with ⟨_ | failure, w₁⟩
  · obtain ⟨faults, rfl⟩ : ∃ faults, w₁ = { w with faults := faults } :=
      ⟨_, (congrArg Prod.snd hstrike).symm⟩
    have hstruck : Fed name taken later { w with faults := faults } := h.of_same rfl rfl rfl
    simp only [hstruck.store, MemoryBuffer.ack]
    refine ⟨[], later, (List.suffix_append taken later).trans h.logged, ?_, ?_⟩
    · rw [buffer_putBuffer, if_pos rfl, List.flatMap_append, List.drop_left]
      rfl
    · rw [buffer_putBuffer, if_pos rfl]
      exact h.quiet
  · obtain ⟨faults, rfl⟩ : ∃ faults, w₁ = { w with faults := faults } :=
      ⟨_, (congrArg Prod.snd hstrike).symm⟩
    exact ⟨taken, later, h.of_same rfl rfl rfl⟩

/-- Of the calls that run no statement only those to the buffer change buffers. -/
theorem answer_buffers {wiring : Wiring} {call : Call} (hcall : call.IsRestful)
    (hbuffer : ∀ c, call ≠ .buffer c) (s : Site) :
    (answer wiring call s).2.1.buffers = s.1.buffers ∧ (answer wiring call s).2.1.feeds = s.1.feeds := by
  have hstruck {p : FaultPoint} {r : Option Failure × World}
      (h : (if wiring.failing then s.1.strike p else (none, s.1)) = r) :
      ∃ faults, r.2 = { s.1 with faults := faults } := by
    obtain ⟨faults, hfaults⟩ := struck_eq wiring.failing p s.1
    exact ⟨faults, h ▸ hfaults⟩
  cases call with
  | buffer call => exact absurd rfl (hbuffer call)
  | clock => exact ⟨rfl, rfl⟩
  | sink call => cases call <;> exact ⟨rfl, rfl⟩
  | session call =>
    cases call with
    | transactionId =>
      change (answerSession wiring .transactionId s).2.1.buffers = _ ∧
        (answerSession wiring .transactionId s).2.1.feeds = _
      obtain ⟨faults, hfaults⟩ := strikeIf_eq wiring.failing .transactionId s
      simp only [answerSession]
      split <;> rename_i hstrike <;> rw [hstrike] at hfaults <;> subst hfaults <;> exact ⟨rfl, rfl⟩
    | execute | begin | commit | rollback | enter | leave => exact hcall.elim
  | store call =>
    cases call with
    | load index =>
      change (s.1.loadMark wiring.store index).2.buffers = _ ∧
        (s.1.loadMark wiring.store index).2.feeds = _
      simp only [loadMark]
      split <;> rename_i hstrike <;> obtain rfl := congrArg Prod.snd hstrike <;> exact ⟨rfl, rfl⟩
    | save index txid =>
      change (s.1.saveMark wiring.store index txid).2.buffers = _ ∧
        (s.1.saveMark wiring.store index txid).2.feeds = _
      obtain ⟨_, _, _, hsaved⟩ := saveMark_eq s.1 wiring.store index txid
      rw [hsaved]
      exact ⟨rfl, rfl⟩
  | source call =>
    change (answerSource wiring call s.1).2.buffers = _ ∧ (answerSource wiring call s.1).2.feeds = _
    cases call with
    | openSlot | pull | reclaim =>
      simp only [answerSource]
      split
      · rename_i h
        obtain ⟨faults, rfl⟩ := hstruck h
        exact ⟨rfl, rfl⟩
      · rename_i h
        obtain ⟨faults, rfl⟩ := hstruck h
        first
        | exact ⟨rfl, rfl⟩
        | split <;> exact ⟨rfl, rfl⟩

end World

/-- The calls that neither run a statement nor wait. -/
def Call.IsPrompt (call : Call) : Prop :=
  call.IsRestful ∧ ∀ milliseconds, call ≠ .buffer (.wait milliseconds)

theorem World.IsFed.answer {wiring : Wiring} {s : Site} (h : s.1.IsFed wiring.buffer) {call : Call}
    (hcall : call.IsPrompt) : (World.answer wiring call s).2.1.IsFed wiring.buffer := by
  by_cases hbuffer : ∃ c, call = .buffer c
  · obtain ⟨c, rfl⟩ := hbuffer
    cases c with
    | drain => exact h.drain.1
    | ack => exact h.ack
    | wait milliseconds => exact absurd rfl (hcall.2 milliseconds)
  · obtain ⟨hbuffers, hfeeds⟩ := answer_buffers hcall.1 (not_exists.mp hbuffer) s
    refine h.of_same ?_ hfeeds (answer_rests hcall.1 h.quiet).log
    rw [World.buffer, World.buffer, hbuffers]

/-- A routine of such calls leaves a buffer fed, whoever commits meanwhile. -/
theorem Program.Runs.isFed {α : Type} {wiring : Wiring} {p : Routine α} {s s' : Site} {value : α}
    (hasks : p.Asks Call.IsPrompt) (h : Routine.Runs Site.Others wiring p s value s')
    (hfed : s.1.IsFed wiring.buffer) : s'.1.IsFed wiring.buffer := by
  let Keeps (s t : Site) : Prop := s.1.IsFed wiring.buffer → t.1.IsFed wiring.buffer
  refine (Program.Runs.keeps ?_ ?_ ?_ ?_ hasks h : Keeps s s') hfed
  · exact fun _ => id
  · exact fun h h' => h' ∘ h
  · exact fun hothers hfed => hfed.others hothers.1
  · exact fun s hcall hfed => hfed.answer hcall

end DocSync
