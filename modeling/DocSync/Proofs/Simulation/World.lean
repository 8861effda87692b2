import DocSync.Proofs.Job.Calls
import DocSync.Proofs.Relation.History
import Mathlib.Data.List.Basic

/-!
What goes on in a world around a job.  Others, and every call but three, leave slots and checkpoints
as they are and move the database by commits only; opening a slot, releasing the log and saving a
checkpoint are described one by one.
-/

namespace DocSync

namespace World

variable {w w' : World}

/-- What leaves the checkpoints of a world alone. -/
structure KeepsMarks (w w' : World) : Prop where
  stores : w'.stores = w.stores
  files : w'.files = w.files
  directory : w'.directory = w.directory
  sourceUrl : w'.sourceUrl = w.sourceUrl

theorem KeepsMarks.refl (w : World) : KeepsMarks w w := ⟨rfl, rfl, rfl, rfl⟩

theorem KeepsMarks.trans {w₁ w₂ w₃ : World} (h : KeepsMarks w₁ w₂) (h' : KeepsMarks w₂ w₃) :
    KeepsMarks w₁ w₃ :=
  ⟨h'.stores.trans h.stores, h'.files.trans h.files, h'.directory.trans h.directory,
    h'.sourceUrl.trans h.sourceUrl⟩

theorem KeepsMarks.mark (h : KeepsMarks w w') (store index : String) :
    w'.mark store index = w.mark store index := by
  simp only [World.mark, checkpointsIn, file, filePath, h.stores, h.files, h.directory, h.sourceUrl]

/-- What also leaves its slots alone, and moves its database by commits. -/
structure Advances (w w' : World) : Prop where
  database : Database.Extends w.database w'.database
  marks : KeepsMarks w w'

theorem Advances.refl (w : World) : Advances w w := ⟨.refl _, .refl w⟩

theorem Advances.trans {w₁ w₂ w₃ : World} (h : Advances w₁ w₂) (h' : Advances w₂ w₃) :
    Advances w₁ w₃ :=
  ⟨h.database.trans h'.database, h.marks.trans h'.marks⟩

theorem advances_strike (w : World) (p : FaultPoint) : Advances w (w.strike p).2 :=
  ⟨.refl _, rfl, rfl, rfl, rfl⟩

/-- A call that may be made to fail changes what is armed, and nothing else. -/
theorem struck_eq (enabled : Bool) (p : FaultPoint) (w : World) :
    ∃ faults, (if enabled then w.strike p else (none, w)).2 = { w with faults := faults } := by
  split
  · exact ⟨_, rfl⟩
  · exact ⟨w.faults, rfl⟩

theorem advances_putBuffer (w : World) (name : String) (b : NamedBuffer) :
    Advances w (w.putBuffer name b) :=
  ⟨.refl _, rfl, rfl, rfl, rfl⟩

theorem advances_putQueue (w : World) (file : String) (q : ChangeQueue) :
    Advances w (w.putQueue file q) :=
  ⟨.refl _, rfl, rfl, rfl, rfl⟩

theorem advances_onSink {α : Type} (w : World) (name : String)
    (operation : MemorySink → α × MemorySink) : Advances w (w.onSink name operation).2 :=
  ⟨.refl _, rfl, rfl, rfl, rfl⟩

theorem advances_push (w : World) (name : String) (r : ChangeRecord) :
    Advances w (w.push name r) := by
  simp only [push]
  split
  · exact advances_putBuffer w _ _
  · exact (advances_putQueue w _ _).trans (advances_putBuffer _ _ _)

theorem advances_feed (w : World) (records : List ChangeRecord) : Advances w (w.feed records) := by
  have hnames : ∀ (names : List String) (w : World) (r : ChangeRecord),
      Advances w (names.foldl (fun w name => w.push name r) w) := by
    intro names
    induction names with
    | nil => exact fun w _ => .refl w
    | cons name rest ih => exact fun w r => (advances_push w name r).trans (ih _ r)
  unfold feed
  induction records generalizing w with
  | nil => exact .refl w
  | cons r rest ih => exact (hnames w.feeds w r).trans (ih _)

/-- A committed change is fed to the buffers after the database has it. -/
theorem advances_logged {queries : List Query} {rows : List Row} {logged : List ChangeRecord}
    {db : Database} (h : w.database.commit queries = .ok (rows, logged, db)) :
    Advances w ({ w with database := db }.feed logged) := by
  have hcommit : Advances w { w with database := db } :=
    ⟨.of_commit h, rfl, rfl, rfl, rfl⟩
  exact hcommit.trans (advances_feed _ logged)

theorem advances_commit {queries : List Query} (h : w.commit queries = .ok w') : Advances w w' := by
  unfold commit at h
  cases hdb : w.database.commit queries with
  | error e => simp [hdb, Except.map] at h
  | ok result =>
    obtain ⟨rows, logged, db⟩ := result
    simp only [hdb, Except.map] at h
    exact Except.ok.inj h ▸ advances_logged hdb

theorem Interferes.advances (h : Interferes w w') : Advances w w' := by
  cases h with
  | commit queries hc => exact advances_commit hc
  | failSink name count => exact advances_onSink w name _
  | arm point count => exact ⟨.refl _, rfl, rfl, rfl, rfl⟩

theorem Others.advances (h : Others w w') : Advances w w' := by
  induction h with
  | refl w => exact .refl w
  | step hi _ ih => exact hi.advances.trans ih

/-- Others may commit one write after another. -/
theorem others_commitEach (queries : List Query) (w : World) : Others w (w.commitEach queries).2 := by
  induction queries generalizing w with
  | nil => exact .refl w
  | cons query rest ih =>
    simp only [commitEach]
    split
    · rename_i w₁ hcommit
      exact .step (.commit _ hcommit) (ih w₁)
    · exact .refl w

/-! ### Answers -/

theorem advances_writeOnDrain (w : World) (name : String) : Advances w (w.writeOnDrain name).2 := by
  simp only [writeOnDrain]
  split
  · exact .refl w
  · exact (advances_putBuffer w _ _).trans (others_commitEach _ _).advances

theorem advances_drain (w : World) (name : String) : Advances w (w.drain name).2 := by
  simp only [drain]
  rcases hstrike : w.strike .drain with ⟨_ | failure, w₁⟩
  · have hw₁ : Advances w w₁ := by simpa [hstrike] using advances_strike w .drain
    dsimp only
    rcases hwrite : w₁.writeOnDrain name with ⟨e | ⟨⟩, w₂⟩
    · have hw₂ : Advances w₁ w₂ := by simpa [hwrite] using advances_writeOnDrain w₁ name
      exact hw₁.trans hw₂
    · have hw₂ : Advances w₁ w₂ := by simpa [hwrite] using advances_writeOnDrain w₁ name
      dsimp only
      split <;> exact (hw₁.trans hw₂).trans (advances_putBuffer w₂ _ _)
  · simpa [hstrike] using advances_strike w .drain

theorem advances_ack (w : World) (name : String) : Advances w (w.ack name).2 := by
  simp only [ack]
  rcases hstrike : w.strike .ack with ⟨_ | failure, w₁⟩
  · have hw₁ : Advances w w₁ := by simpa [hstrike] using advances_strike w .ack
    dsimp only
    split
    · exact hw₁.trans (advances_putBuffer w₁ _ _)
    · exact hw₁.trans ((advances_putQueue w₁ _ _).trans (advances_putBuffer _ _ _))
  · simpa [hstrike] using advances_strike w .ack

theorem advances_wait (w : World) (name : String) : Advances w (w.wait name).2 := by
  simp only [wait]
  rcases hstrike : w.strike .wait with ⟨_ | failure, w₁⟩
  · have hw₁ : Advances w w₁ := by simpa [hstrike] using advances_strike w .wait
    dsimp only
    split
    · exact hw₁
    · exact hw₁.trans (advances_putBuffer w₁ _ _)
  · simpa [hstrike] using advances_strike w .wait

theorem advances_loadMark (w : World) (store index : String) :
    Advances w (w.loadMark store index).2 := by
  simp only [loadMark]
  rcases hstrike : w.strike .load with ⟨_ | failure, w₁⟩
  · have hw₁ : Advances w w₁ := by simpa [hstrike] using advances_strike w .load
    exact hw₁
  · simpa [hstrike] using advances_strike w .load

theorem advances_strikeIf (enabled : Bool) (p : FaultPoint) (s : Site) :
    Advances s.1 (strikeIf enabled p s).2.1 := by
  unfold strikeIf
  split
  · exact advances_strike s.1 p
  · exact .refl s.1

/-- A call of a session leaves the world as it was, or it succeeds and commits statements. -/
def StaysOrCommits {α : Type} (s : Site) (queries : List Query) (answer : Except Failure α × Site) : Prop :=
  answer.2.1 = s.1 ∨ ∃ rows logged db value, s.1.database.commit queries = .ok (rows, logged, db) ∧
    answer.1 = .ok value ∧ answer.2.1 = { s.1 with database := db }.feed logged

theorem execute_staysOrCommits (s : Site) (query : Query) :
    StaysOrCommits s (if s.2.isEmpty then [query] else []) (execute s query) := by
  simp only [execute]
  cases hresult : s.2.execute s.1.database query with
  | error e => exact .inl rfl
  | ok result =>
    unfold Frames.execute at hresult
    split at hresult
    · obtain ⟨rows, -, hresult⟩ := Except.bind_eq_ok hresult
      exact Except.ok.inj hresult ▸ .inl rfl
    · split at hresult
      · rename_i hclosed
        obtain ⟨⟨rows, logged, db⟩, hcommit, hresult⟩ := Except.bind_eq_ok hresult
        obtain rfl := Except.ok.inj hresult
        rw [if_pos hclosed]
        exact .inr ⟨rows, logged, db, rows, hcommit, rfl, rfl⟩
      · obtain ⟨tables, -, hresult⟩ := Except.bind_eq_ok hresult
        obtain ⟨effect, -, hresult⟩ := Except.bind_eq_ok hresult
        exact Except.ok.inj hresult ▸ .inl rfl

theorem commitScope_staysOrCommits (s : Site) : StaysOrCommits s
    (match s.2 with
      | [frame] => frame
      | _ => [])
    (commitScope s) := by
  unfold commitScope Frames.commit
  rcases List.eq_nil_or_concat' s.2 with hnil | ⟨base, frame, hframes⟩
  · simp only [hnil, List.getLast?_nil]
    exact .inl rfl
  · simp only [hframes, List.getLast?_concat, List.dropLast_concat]
    cases base with
    | nil =>
      cases hcommit : s.1.database.commit frame with
      | error e => exact .inl rfl
      | ok result => exact .inr ⟨_, _, _, (), hcommit, rfl, rfl⟩
    | cons => exact .inl rfl

theorem StaysOrCommits.advances {α : Type} {s : Site} {queries : List Query}
    {answer : Except Failure α × Site} (h : StaysOrCommits s queries answer) : Advances s.1 answer.2.1 := by
  rcases h with hsame | ⟨rows, logged, db, value, hcommit, -, hworld⟩
  · exact hsame ▸ .refl s.1
  · exact hworld ▸ advances_logged hcommit

theorem advances_execute (s : Site) (query : Query) : Advances s.1 (execute s query).2.1 :=
  (execute_staysOrCommits s query).advances

theorem advances_commitScope (s : Site) : Advances s.1 (commitScope s).2.1 :=
  (commitScope_staysOrCommits s).advances

theorem advances_answerSession (wiring : Wiring) (call : SessionCall) (s : Site) :
    Advances s.1 (answerSession wiring call s).2.1 := by
  have hstruck {p : FaultPoint} {r : Option Failure × Site}
      (h : strikeIf wiring.failing p s = r) : Advances s.1 r.2.1 :=
    h ▸ advances_strikeIf wiring.failing p s
  cases call with
  | execute query =>
    simp only [answerSession]
    split
    · rename_i h
      exact hstruck h
    · rename_i h
      exact (hstruck h).trans (advances_execute _ _)
  | transactionId =>
    simp only [answerSession]
    split
    · rename_i h
      exact hstruck h
    · rename_i h
      exact hstruck h
  | begin =>
    simp only [answerSession]
    split
    · rename_i h
      exact hstruck h
    · rename_i h
      exact hstruck h
  | commit => exact advances_commitScope s
  | rollback =>
    simp only [answerSession, rollbackScope]
    split <;> exact .refl s.1
  | enter => exact .refl s.1
  | leave => exact .refl s.1

theorem advances_pull (wiring : Wiring) (w : World) (slot : String) (window : TxWindow)
    (most offset : Nat) : Advances w (answerSource wiring (.pull slot window most offset) w).2 := by
  have hstruck : Advances w (if wiring.failing then w.strike .pull else (none, w)).2 := by
    obtain ⟨faults, hfaults⟩ := struck_eq wiring.failing .pull w
    exact hfaults ▸ ⟨.refl _, rfl, rfl, rfl, rfl⟩
  simp only [answerSource]
  split
  · rename_i h
    rwa [h] at hstruck
  · rename_i h
    rw [h] at hstruck
    split <;> exact hstruck

end World

/-- The calls that neither open a slot, nor release the log, nor save a checkpoint. -/
def Call.IsQuiet : Call → Prop
  | .source (.openSlot _) => False
  | .source (.reclaim ..) => False
  | .store (.save ..) => False
  | _ => True

theorem Call.IsApply.isQuiet {call : Call} (h : call.IsApply) : call.IsQuiet := by
  cases call with
  | session => trivial
  | sink => trivial
  | clock => trivial
  | source => exact h.elim
  | buffer => exact h.elim
  | store => exact h.elim

namespace World

theorem answer_advances (wiring : Wiring) (call : Call) (h : call.IsQuiet) (s : Site) :
    Advances s.1 (answer wiring call s).2.1 := by
  cases call with
  | session call => exact advances_answerSession wiring call s
  | source call =>
    cases call with
    | pull slot window most offset => exact advances_pull wiring s.1 slot window most offset
    | openSlot => exact h.elim
    | reclaim => exact h.elim
  | buffer call =>
    cases call with
    | drain => exact advances_drain s.1 wiring.buffer
    | ack => exact advances_ack s.1 wiring.buffer
    | wait => exact advances_wait s.1 wiring.buffer
  | sink call =>
    cases call with
    | upsert d => exact advances_onSink s.1 wiring.sink (·.upsert d)
    | delete index identity => exact advances_onSink s.1 wiring.sink (·.delete index identity)
    | refresh => exact advances_onSink s.1 wiring.sink (·.refresh)
    | findByMeta => exact .refl s.1
    | identities => exact .refl s.1
  | store call =>
    cases call with
    | load index => exact advances_loadMark s.1 wiring.store index
    | save => exact h.elim
  | clock => exact .refl s.1

/-- A routine that makes quiet calls only advances the world. -/
theorem advances_of_runs {α : Type} {wiring : Wiring} {p : Routine α} {s s' : Site} {value : α}
    (hasks : p.Asks Call.IsQuiet) (h : Routine.Runs Site.Others wiring p s value s') :
    Advances s.1 s'.1 := by
  let Keeps (s t : Site) : Prop := Advances s.1 t.1
  refine (Program.Runs.keeps ?_ ?_ ?_ ?_ hasks h : Keeps s s')
  · exact fun s => .refl s.1
  · exact fun h h' => h.trans h'
  · exact fun h => h.1.advances
  · exact fun s h => answer_advances wiring _ h s

/-! ### Single calls -/

theorem strikeIf_eq (enabled : Bool) (p : FaultPoint) (s : Site) :
    ∃ faults, (strikeIf enabled p s).2 = ({ s.1 with faults := faults }, s.2) := by
  unfold strikeIf
  split
  · exact ⟨_, rfl⟩
  · exact ⟨s.1.faults, rfl⟩

/-- The transaction id that a session reads is the last one. -/
theorem answer_transactionId {wiring : Wiring} {s : Site} {txid : Nat}
    (h : (answer wiring (.session .transactionId) s).1 = .ok txid) :
    txid = s.1.database.lastTxid := by
  change (answerSession wiring .transactionId s).1 = .ok txid at h
  obtain ⟨faults, hfaults⟩ := strikeIf_eq wiring.failing .transactionId s
  simp only [answerSession] at h
  split at h
  · contradiction
  · rename_i hstruck
    rw [hstruck] at hfaults
    subst hfaults
    exact (Except.ok.inj h).symm

theorem answer_load {wiring : Wiring} {s : Site} {index : String} {found : Option Nat}
    (h : (answer wiring (.store (.load index)) s).1 = .ok found) :
    s.1.mark wiring.store index = .ok found := by
  change (s.1.loadMark wiring.store index).1 = .ok found at h
  simp only [loadMark] at h
  split at h
  · contradiction
  · rename_i w₁ hstrike
    have hw₁ : Advances s.1 w₁ := by simpa [hstrike] using advances_strike s.1 .load
    rw [← hw₁.marks.mark]
    exact h

/-- A slot that is opened is there; its log is released to it as it was, or up to the last transaction
where it is new. -/
theorem answer_openSlot {wiring : Wiring} {s : Site} {name slot : String}
    (h : (answer wiring (.source (.openSlot name)) s).1 = .ok slot) :
    slot = name ∧ (answer wiring (.source (.openSlot name)) s).2.1.database =
      s.1.database.openSlot name ∧
      KeepsMarks s.1 (answer wiring (.source (.openSlot name)) s).2.1 := by
  change (answerSource wiring (.openSlot name) s.1).1 = .ok slot at h
  change slot = name ∧ (answerSource wiring (.openSlot name) s.1).2.database = _ ∧
    KeepsMarks s.1 (answerSource wiring (.openSlot name) s.1).2
  obtain ⟨faults, hfaults⟩ := struck_eq wiring.failing .openSlot s.1
  simp only [answerSource] at h ⊢
  split at h
  · contradiction
  · rename_i hstruck
    rw [hstruck] at hfaults
    subst hfaults
    exact ⟨(Except.ok.inj h).symm, rfl, ⟨rfl, rfl, rfl, rfl⟩⟩

theorem answer_reclaim (wiring : Wiring) (s : Site) (slot : String) (upTo : Nat) :
    Database.Reaches s.1.database
      (answer wiring (.source (.reclaim slot upTo)) s).2.1.database ∧
    KeepsMarks s.1 (answer wiring (.source (.reclaim slot upTo)) s).2.1 := by
  change Database.Reaches s.1.database (answerSource wiring (.reclaim slot upTo) s.1).2.database ∧
    KeepsMarks s.1 (answerSource wiring (.reclaim slot upTo) s.1).2
  have hstruck : Advances s.1 (if wiring.failing then s.1.strike .reclaim else (none, s.1)).2 := by
    obtain ⟨faults, hfaults⟩ := struck_eq wiring.failing .reclaim s.1
    exact hfaults ▸ ⟨.refl _, rfl, rfl, rfl, rfl⟩
  simp only [answerSource]
  split
  · rename_i h
    rw [h] at hstruck
    exact ⟨hstruck.database.reaches, hstruck.marks⟩
  · rename_i h
    rw [h] at hstruck
    split
    · rename_i db hreclaim
      exact ⟨hstruck.database.reaches.tail (.reclaim hreclaim),
        hstruck.marks.trans ⟨rfl, rfl, rfl, rfl⟩⟩
    · exact ⟨hstruck.database.reaches, hstruck.marks⟩

/-- A page is a part of what the slot has of the window. -/
theorem answer_pull {wiring : Wiring} {s : Site} {slot : String} {window : TxWindow}
    {most offset : Nat} {page : ChangePage}
    (h : (answer wiring (.source (.pull slot window most offset)) s).1 = .ok page) :
    ∃ found, s.1.database.slots.get? slot = some found ∧
      page = pageThrough wiring
        (((Database.Slot.within found window s.1.database.log).drop offset).take most) := by
  change (answerSource wiring (.pull slot window most offset) s.1).1 = .ok page at h
  obtain ⟨faults, hfaults⟩ := struck_eq wiring.failing .pull s.1
  simp only [answerSource] at h
  split at h
  · contradiction
  · rename_i hstruck
    rw [hstruck] at hfaults
    subst hfaults
    simp only [Database.pull] at h
    cases hslot : s.1.database.slots.get? slot with
    | none => simp [hslot] at h
    | some found =>
      simp only [hslot] at h
      exact ⟨found, rfl, (Except.ok.inj h).symm⟩

theorem saveMark_database (w : World) (store index : String) (txmin : Nat) :
    (w.saveMark store index txmin).2.database = w.database := by
  simp only [saveMark]
  split
  · rename_i w₁ hstrike
    exact congrArg (·.2.database) hstrike.symm
  · rename_i w₁ hstrike
    have hw₁ : w₁.database = w.database := congrArg (·.2.database) hstrike.symm
    split
    · split
      · exact hw₁
      · split
        · rename_i w₂ hstored
          unfold storeCheckpoints at hstored
          split at hstored
          · contradiction
          · exact Except.ok.inj hstored ▸ hw₁
        · exact hw₁
    · exact hw₁

/-- A file that was written is read back. -/
theorem checkpointsIn_putFile (w : World) (store sourceUrl : String) (file : CheckpointFile) :
    (w.putFile store (.readable file)).checkpointsIn store sourceUrl = .ok file := by
  simp [checkpointsIn, World.file, putFile, Keyed.get?_put]

/-- A checkpoint that is saved is the greatest that was saved so far. -/
theorem saveMark_mark {w : World} {store index : String} {txmin saved : Nat}
    (h : (w.saveMark store index txmin).1 = .ok saved) :
    ∃ before, w.mark store index = .ok before ∧
      (w.saveMark store index txmin).2.mark store index =
        .ok (some (max txmin (before.getD 0))) := by
  simp only [saveMark] at h ⊢
  split at h
  · contradiction
  rename_i w₁ hstrike
  have hw₁ : Advances w w₁ := by simpa [hstrike] using advances_strike w .save
  simp only [← hw₁.marks.mark store index]
  by_cases hfile : isFile store
  · simp only [hfile, if_true] at h ⊢
    cases hread : w₁.checkpointsIn store w₁.sourceUrl with
    | error e => simp [hread] at h
    | ok file =>
      simp only [hread] at h ⊢
      split at h
      · rename_i w₂ hstored
        unfold storeCheckpoints at hstored
        split at hstored
        · contradiction
        obtain rfl := Except.ok.inj hstored
        refine ⟨file.marks.get? index, by simp [mark, hfile, hread, Except.map], ?_⟩
        simp [mark, hfile, checkpointsIn_putFile, Except.map, CheckpointFile.advance, raiseMark,
          Keyed.get?_put, Keyed.getD]
      · simp at h
  · refine ⟨(w₁.stores.getD store []).get? index, by simp [mark, hfile], ?_⟩
    simp [hfile, mark, raiseMark, Keyed.get?_put, Keyed.getD]

end World

end DocSync
