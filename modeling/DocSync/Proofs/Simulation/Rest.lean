import DocSync.Proofs.Simulation.Outage

/-!
Sites at rest.  While nobody commits and the buffer causes no writes, a routine that runs no statement
of its session leaves the database but for its slots, and the session.
-/

namespace DocSync

/-- From one site to a later one no transaction was committed: the database is the same but for its
slots, the session is as it was, and the next drains cause the same writes. -/
structure Site.Rests (wiring : Wiring) (s s' : Site) : Prop where
  database : ∃ slots, s'.1.database = { s.1.database with slots := slots }
  writes : (s'.1.buffer wiring.buffer).writes = (s.1.buffer wiring.buffer).writes
  frames : s'.2 = s.2

namespace Site.Rests

variable {wiring : Wiring} {s s' s₁ s₂ s₃ : Site}

theorem refl (s : Site) : s.Rests wiring s := ⟨⟨_, rfl⟩, rfl, rfl⟩

theorem trans (h : s₁.Rests wiring s₂) (h' : s₂.Rests wiring s₃) : s₁.Rests wiring s₃ := by
  obtain ⟨slots, hdatabase⟩ := h.database
  obtain ⟨slots', hdatabase'⟩ := h'.database
  refine ⟨⟨slots', ?_⟩, h'.writes.trans h.writes, h'.frames.trans h.frames⟩
  rw [hdatabase', hdatabase]

theorem of_sameElse (h : s.SameElse s') : s.Rests wiring s' := by
  refine ⟨⟨s.1.database.slots, h.database⟩, ?_, h.frames⟩
  have hbuffer := congrArg (fun w : World => (w.buffer wiring.buffer).writes) h.world
  exact hbuffer

theorem tables (h : s.Rests wiring s') : s'.1.database.tables = s.1.database.tables := by
  obtain ⟨slots, hdatabase⟩ := h.database
  rw [hdatabase]

theorem schema (h : s.Rests wiring s') : s'.1.database.schema = s.1.database.schema := by
  obtain ⟨slots, hdatabase⟩ := h.database
  rw [hdatabase]

theorem lastTxid (h : s.Rests wiring s') : s'.1.database.lastTxid = s.1.database.lastTxid := by
  obtain ⟨slots, hdatabase⟩ := h.database
  rw [hdatabase]

theorem log (h : s.Rests wiring s') : s'.1.database.log = s.1.database.log := by
  obtain ⟨slots, hdatabase⟩ := h.database
  rw [hdatabase]

end Site.Rests

/-- The calls that run no statement, and open or close no scope. -/
def Call.IsRestful : Call → Prop
  | .session .transactionId => True
  | .session _ => False
  | _ => True

namespace World

variable {wiring : Wiring}

/-- A world that was only touched in its buffers and in what is armed. -/
theorem rests_of_buffer {s : Site} {faults : Faults} {queues : Keyed ChangeQueue} (b : NamedBuffer)
    (h : b.writes = (s.1.buffer wiring.buffer).writes) :
    s.Rests wiring
      ({ s.1 with faults := faults, queues := queues }.putBuffer wiring.buffer b, s.2) := by
  refine ⟨⟨_, rfl⟩, ?_, rfl⟩
  rw [buffer_putBuffer, if_pos rfl, h]

theorem drain_rests {s : Site} (hwrites : (s.1.buffer wiring.buffer).writes = []) :
    s.Rests wiring ((s.1.drain wiring.buffer).2, s.2) := by
  simp only [drain]
  rcases hstrike : s.1.strike .drain with ⟨_ | failure, w₁⟩
  · obtain ⟨faults, rfl⟩ : ∃ faults, w₁ = { s.1 with faults := faults } :=
      ⟨_, (congrArg Prod.snd hstrike).symm⟩
    have hwrite : writeOnDrain { s.1 with faults := faults } wiring.buffer =
        (.ok (), { s.1 with faults := faults }) := by
      have hbuffer : (buffer { s.1 with faults := faults } wiring.buffer).writes = [] := hwrites
      simp only [writeOnDrain, hbuffer]
    simp only [hwrite]
    split <;> exact rests_of_buffer _ rfl
  · exact ⟨⟨_, (congrArg (·.2.database) hstrike).symm⟩,
      (congrArg (fun r => (r.2.buffer wiring.buffer).writes) hstrike).symm, rfl⟩

theorem ack_rests (s : Site) : s.Rests wiring ((s.1.ack wiring.buffer).2, s.2) := by
  simp only [ack]
  rcases hstrike : s.1.strike .ack with ⟨_ | failure, w₁⟩
  · obtain ⟨faults, rfl⟩ : ∃ faults, w₁ = { s.1 with faults := faults } :=
      ⟨_, (congrArg Prod.snd hstrike).symm⟩
    dsimp only
    split
    · exact rests_of_buffer _ rfl
    · exact rests_of_buffer _ rfl
  · exact ⟨⟨_, (congrArg (·.2.database) hstrike).symm⟩,
      (congrArg (fun r => (r.2.buffer wiring.buffer).writes) hstrike).symm, rfl⟩

theorem wait_rests (s : Site) : s.Rests wiring ((s.1.wait wiring.buffer).2, s.2) := by
  simp only [wait]
  rcases hstrike : s.1.strike .wait with ⟨_ | failure, w₁⟩
  · obtain ⟨faults, rfl⟩ : ∃ faults, w₁ = { s.1 with faults := faults } :=
      ⟨_, (congrArg Prod.snd hstrike).symm⟩
    dsimp only
    split
    · exact ⟨⟨_, rfl⟩, rfl, rfl⟩
    · exact rests_of_buffer _ rfl
  · exact ⟨⟨_, (congrArg (·.2.database) hstrike).symm⟩,
      (congrArg (fun r => (r.2.buffer wiring.buffer).writes) hstrike).symm, rfl⟩

theorem answerSource_rests (call : SourceCall) (s : Site) :
    s.Rests wiring ((answerSource wiring call s.1).2, s.2) := by
  have hstruck {p : FaultPoint} {r : Option Failure × World}
      (h : (if wiring.failing then s.1.strike p else (none, s.1)) = r) :
      ∃ faults, r.2 = { s.1 with faults := faults } := by
    obtain ⟨faults, hfaults⟩ := struck_eq wiring.failing p s.1
    exact ⟨faults, h ▸ hfaults⟩
  cases call with
  | openSlot name =>
    simp only [answerSource]
    split
    · rename_i h
      obtain ⟨faults, rfl⟩ := hstruck h
      exact ⟨⟨_, rfl⟩, rfl, rfl⟩
    · rename_i h
      obtain ⟨faults, rfl⟩ := hstruck h
      simp only [Database.openSlot]
      split <;> exact ⟨⟨_, rfl⟩, rfl, rfl⟩
  | pull slot window most offset =>
    simp only [answerSource]
    split
    · rename_i h
      obtain ⟨faults, rfl⟩ := hstruck h
      exact ⟨⟨_, rfl⟩, rfl, rfl⟩
    · rename_i h
      obtain ⟨faults, rfl⟩ := hstruck h
      split <;> exact ⟨⟨_, rfl⟩, rfl, rfl⟩
  | reclaim slot upTo =>
    simp only [answerSource]
    split
    · rename_i h
      obtain ⟨faults, rfl⟩ := hstruck h
      exact ⟨⟨_, rfl⟩, rfl, rfl⟩
    · rename_i h
      obtain ⟨faults, rfl⟩ := hstruck h
      simp only [Database.reclaim]
      split
      · rename_i db hdb
        split at hdb
        · contradiction
        · exact ⟨⟨_, (Except.ok.inj hdb).symm⟩, rfl, rfl⟩
      · exact ⟨⟨_, rfl⟩, rfl, rfl⟩

/-- Every call that runs no statement leaves a site at rest, if a drain causes no writes. -/
theorem answer_rests {call : Call} (h : call.IsRestful) {s : Site}
    (hwrites : (s.1.buffer wiring.buffer).writes = []) :
    s.Rests wiring (answer wiring call s).2 := by
  cases call with
  | session call =>
    cases call with
    | transactionId =>
      change s.Rests wiring (answerSession wiring .transactionId s).2
      obtain ⟨faults, hfaults⟩ := strikeIf_eq wiring.failing .transactionId s
      have hstruck : (answerSession wiring .transactionId s).2 =
          (strikeIf wiring.failing .transactionId s).2 := by
        simp only [answerSession]
        split <;> rename_i hstrike <;> rw [hstrike]
      rw [hstruck, hfaults]
      exact ⟨⟨_, rfl⟩, rfl, rfl⟩
    | execute => exact h.elim
    | begin => exact h.elim
    | commit => exact h.elim
    | rollback => exact h.elim
    | enter => exact h.elim
    | leave => exact h.elim
  | source call => exact answerSource_rests call s
  | buffer call =>
    cases call with
    | drain => exact drain_rests hwrites
    | ack => exact ack_rests s
    | wait => exact wait_rests s
  | sink call => cases call <;> exact ⟨⟨_, rfl⟩, rfl, rfl⟩
  | store call =>
    cases call with
    | load index =>
      change s.Rests wiring ((s.1.loadMark wiring.store index).2, s.2)
      simp only [loadMark]
      split <;> rename_i hstrike <;> obtain rfl := congrArg Prod.snd hstrike <;>
        exact ⟨⟨_, rfl⟩, rfl, rfl⟩
    | save index txid =>
      change s.Rests wiring ((s.1.saveMark wiring.store index txid).2, s.2)
      obtain ⟨faults, stores, files, hsaved⟩ := saveMark_eq s.1 wiring.store index txid
      rw [hsaved]
      exact ⟨⟨_, rfl⟩, rfl, rfl⟩
  | clock => exact .refl s

end World

/-- Amid outages a routine that runs no statement leaves a site at rest. -/
theorem Program.Runs.rests {α : Type} {wiring : Wiring} {p : Routine α} {s s' : Site} {value : α}
    (hasks : p.Asks Call.IsRestful) (hwrites : (s.1.buffer wiring.buffer).writes = [])
    (h : Routine.Runs (Site.Outages wiring.sink) wiring p s value s') : s.Rests wiring s' := by
  let Keeps (s t : Site) : Prop :=
    (s.1.buffer wiring.buffer).writes = [] → s.Rests wiring t
  refine (Program.Runs.keeps ?_ ?_ ?_ ?_ hasks h : Keeps s s') hwrites
  · exact fun s _ => .refl s
  · intro s t u hst htu hwrites
    have hrests := hst hwrites
    exact hrests.trans (htu (hrests.writes.trans hwrites))
  · exact fun hothers _ => .of_sameElse hothers.alike.toSameElse
  · exact fun s hcall hwrites => World.answer_rests hcall hwrites

/-- A routine that acknowledges nothing leaves what is pending, as long as nothing is committed. -/
theorem Program.Runs.backlog_eq {α : Type} {wiring : Wiring} {p : Routine α} {s s' : Site} {value : α}
    (hasks : p.Asks fun call => call ≠ .buffer .ack)
    (h : Routine.Runs Site.Others wiring p s value s')
    (hlog : s'.1.database.log = s.1.database.log) (name : String) :
    s'.1.backlog name = s.1.backlog name := by
  let Keeps (s t : Site) : Prop := World.Gathers name s.1 t.1
  have hgathers : Keeps s s' := by
    refine Program.Runs.keeps ?_ ?_ ?_ ?_ hasks h
    · exact fun s => .refl s.1
    · exact fun h h' => h.trans h'
    · exact fun hothers => hothers.1.gathers
    · exact fun s hcall => World.answer_gathers wiring _ hcall s
  exact hgathers.quiet hlog

end DocSync
