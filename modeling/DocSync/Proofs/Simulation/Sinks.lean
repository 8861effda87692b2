import DocSync.Proofs.Job.Calls
import DocSync.Proofs.Keyed
import DocSync.Proofs.Simulation.Backlog

/-!
What reaches the sinks of a world.  Only an upsert or a delete changes what a sink holds: others, and
every other call, leave it alike.
-/

namespace DocSync

namespace MemorySink

/-- Sinks that refuse the same documents, and can do the same. -/
structure SameNature (sink sink' : MemorySink) : Prop where
  rejected : sink'.rejected = sink.rejected
  looksUp : sink'.looksUp = sink.looksUp
  enumerates : sink'.enumerates = sink.enumerates

/-- Sinks that are the same but for what they have counted and let fail next. -/
structure Alike (sink sink' : MemorySink) : Prop extends SameNature sink sink' where
  indices : sink'.indices = sink.indices

variable {sink sink' sink₁ sink₂ sink₃ : MemorySink}

theorem SameNature.refl (sink : MemorySink) : SameNature sink sink := ⟨rfl, rfl, rfl⟩

theorem SameNature.trans (h : SameNature sink₁ sink₂) (h' : SameNature sink₂ sink₃) :
    SameNature sink₁ sink₃ :=
  ⟨h'.rejected.trans h.rejected, h'.looksUp.trans h.looksUp, h'.enumerates.trans h.enumerates⟩

theorem Alike.refl (sink : MemorySink) : Alike sink sink := ⟨.refl sink, rfl⟩

theorem Alike.trans (h : Alike sink₁ sink₂) (h' : Alike sink₂ sink₃) : Alike sink₁ sink₃ :=
  ⟨h.toSameNature.trans h'.toSameNature, h'.indices.trans h.indices⟩

theorem Alike.of_eq (h : sink' = sink) : Alike sink sink' := h ▸ .refl sink

theorem Alike.stored (h : Alike sink sink') (index : String) :
    sink'.stored index = sink.stored index := by
  rw [MemorySink.stored, MemorySink.stored, h.indices]

theorem alike_failures (sink : MemorySink) (count : Nat) :
    Alike sink { sink with failures := count } :=
  ⟨⟨rfl, rfl, rfl⟩, rfl⟩

theorem alike_refresh (sink : MemorySink) : Alike sink sink.refresh.2 := by
  unfold refresh unlessFailing
  split
  · exact ⟨⟨rfl, rfl, rfl⟩, rfl⟩
  · exact alike_failures sink _

end MemorySink

namespace World

variable {w w' : World}

/-- After an operation on a sink, the sink is as the operation left it, and every other as it was. -/
theorem sink_onSink {α : Type} (w : World) (name other : String)
    (operation : MemorySink → α × MemorySink) :
    (w.onSink name operation).2.sink other =
      if name = other then (operation (w.sink name)).2 else w.sink other := by
  simp only [onSink, sink, Keyed.getD_put]

theorem sink_onSink_self {α : Type} (w : World) (name : String)
    (operation : MemorySink → α × MemorySink) :
    (w.onSink name operation).2.sink name = (operation (w.sink name)).2 := by
  rw [sink_onSink, if_pos rfl]

/-- An operation that leaves its sink alike leaves every sink alike. -/
theorem alike_onSink {α : Type} (w : World) (name other : String)
    {operation : MemorySink → α × MemorySink}
    (h : (w.sink name).Alike (operation (w.sink name)).2) :
    (w.sink other).Alike ((w.onSink name operation).2.sink other) := by
  rw [sink_onSink]
  split
  · rename_i heq
    exact heq ▸ h
  · exact .refl _

theorem sink_eq_of_sinks (h : w'.sinks = w.sinks) (name : String) : w'.sink name = w.sink name := by
  rw [sink, sink, h]

/-! ### What does not depend on sinks -/

theorem feed_sinks (w : World) (sinks : Keyed MemorySink) (records : List ChangeRecord) :
    { w with sinks := sinks }.feed records = { w.feed records with sinks := sinks } := by
  have hpush (w : World) (r : ChangeRecord) (name : String) :
      { w with sinks := sinks }.push name r = { w.push name r with sinks := sinks } := by
    have hbuffer : { w with sinks := sinks }.buffer name = w.buffer name := rfl
    simp only [push, hbuffer]
    split <;> rfl
  have hnames : ∀ (names : List String) (w : World) (r : ChangeRecord),
      names.foldl (fun w name => w.push name r) { w with sinks := sinks } =
        { names.foldl (fun w name => w.push name r) w with sinks := sinks } := by
    intro names
    induction names with
    | nil => exact fun _ _ => rfl
    | cons name rest ih =>
      intro w r
      rw [List.foldl_cons, List.foldl_cons, hpush, ih]
  unfold feed
  induction records generalizing w with
  | nil => rfl
  | cons r rest ih =>
    rw [List.foldl_cons, List.foldl_cons]
    change List.foldl _ (w.feeds.foldl _ _) rest = _
    rw [hnames, ih]

theorem sinks_feed (w : World) (records : List ChangeRecord) : (w.feed records).sinks = w.sinks := by
  have hfeed := congrArg World.sinks (feed_sinks w w.sinks records)
  exact hfeed

/-- A session answers the same whatever sinks hold, and leaves them as they are. -/
theorem answerSession_sinks (wiring : Wiring) (call : SessionCall) (w : World) (frames : Frames)
    (sinks : Keyed MemorySink) :
    answerSession wiring call ({ w with sinks := sinks }, frames) =
      ((answerSession wiring call (w, frames)).1,
        ({ (answerSession wiring call (w, frames)).2.1 with sinks := sinks },
          (answerSession wiring call (w, frames)).2.2)) := by
  have hstruck (p : FaultPoint) :
      strikeIf wiring.failing p ({ w with sinks := sinks }, frames) =
        ((strikeIf wiring.failing p (w, frames)).1,
          ({ (strikeIf wiring.failing p (w, frames)).2.1 with sinks := sinks },
            (strikeIf wiring.failing p (w, frames)).2.2)) := by
    unfold strikeIf
    split <;> rfl
  have hexecute (w : World) (frames : Frames) (query : Query) :
      execute ({ w with sinks := sinks }, frames) query =
        ((execute (w, frames) query).1, ({ (execute (w, frames) query).2.1 with sinks := sinks },
          (execute (w, frames) query).2.2)) := by
    simp only [execute]
    cases hresult : Frames.execute frames w.database query with
    | error e => rfl
    | ok result =>
      have hfeed := feed_sinks { w with database := result.database } sinks result.logged
      simp only
      rw [← hfeed]
  cases call with
  | execute query =>
    simp only [answerSession, hstruck]
    rcases strikeIf wiring.failing .execute (w, frames) with ⟨_ | failure, w₁, frames₁⟩
    · exact hexecute w₁ frames₁ _
    · rfl
  | transactionId =>
    simp only [answerSession, hstruck]
    rcases strikeIf wiring.failing .transactionId (w, frames) with ⟨_ | failure, w₁, frames₁⟩ <;> rfl
  | begin =>
    simp only [answerSession, hstruck]
    rcases strikeIf wiring.failing .begin (w, frames) with ⟨_ | failure, w₁, frames₁⟩ <;> rfl
  | commit =>
    simp only [answerSession, commitScope]
    rcases Frames.commit frames w.database with ⟨e | ⟨logged, db⟩, frames₁⟩
    · rfl
    · have hfeed := feed_sinks { w with database := db } sinks logged
      simp only
      rw [← hfeed]
  | rollback =>
    simp only [answerSession, rollbackScope]
    cases Frames.rollback frames <;> rfl
  | enter => rfl
  | leave => rfl

theorem sinks_answerSession (wiring : Wiring) (call : SessionCall) (s : Site) :
    (answerSession wiring call s).2.1.sinks = s.1.sinks :=
  congrArg (·.2.1.sinks) (answerSession_sinks wiring call s.1 s.2 s.1.sinks)

/-! ### What leaves sinks alike -/

theorem sinks_commit {queries : List Query} (h : w.commit queries = .ok w') : w'.sinks = w.sinks := by
  unfold commit at h
  cases hdb : w.database.commit queries with
  | error e => simp [hdb, Except.map] at h
  | ok result =>
    simp only [hdb, Except.map] at h
    rw [← Except.ok.inj h]
    exact sinks_feed _ _

theorem Interferes.sink_alike (h : Interferes w w') (name : String) :
    (w.sink name).Alike (w'.sink name) := by
  cases h with
  | commit queries hcommit => exact .of_eq (sink_eq_of_sinks (sinks_commit hcommit) name)
  | failSink other count => exact alike_onSink w other name (MemorySink.alike_failures _ count)
  | arm point count => exact .refl _

theorem Others.sink_alike (h : Others w w') (name : String) : (w.sink name).Alike (w'.sink name) := by
  induction h with
  | refl w => exact .refl _
  | step hfirst _ ih => exact (hfirst.sink_alike name).trans ih

theorem sinks_drain (w : World) (name : String) : (w.drain name).2.sinks = w.sinks := by
  have heach : ∀ (queries : List Query) (w : World), (w.commitEach queries).2.sinks = w.sinks := by
    intro queries
    induction queries with
    | nil => exact fun _ => rfl
    | cons query rest ih =>
      intro w
      simp only [commitEach]
      split
      · rename_i w₁ hcommit
        exact (ih w₁).trans (sinks_commit hcommit)
      · rfl
  have hwrite (w : World) : (w.writeOnDrain name).2.sinks = w.sinks := by
    simp only [writeOnDrain]
    split
    · rfl
    · exact heach _ _
  simp only [drain]
  rcases hstrike : w.strike .drain with ⟨_ | failure, w₁⟩
  · have hw₁ : w₁.sinks = w.sinks := (congrArg (·.2.sinks) hstrike).symm
    dsimp only
    rcases hdrain : w₁.writeOnDrain name with ⟨e | ⟨⟩, w₂⟩
    · exact (congrArg (·.2.sinks) hdrain).symm.trans ((hwrite w₁).trans hw₁)
    · have hw₂ : w₂.sinks = w.sinks :=
        (congrArg (·.2.sinks) hdrain).symm.trans ((hwrite w₁).trans hw₁)
      dsimp only
      split <;> exact hw₂
  · exact (congrArg (·.2.sinks) hstrike).symm

theorem sinks_ack (w : World) (name : String) : (w.ack name).2.sinks = w.sinks := by
  simp only [ack]
  rcases hstrike : w.strike .ack with ⟨_ | failure, w₁⟩
  · have hw₁ : w₁.sinks = w.sinks := (congrArg (·.2.sinks) hstrike).symm
    dsimp only
    split <;> exact hw₁
  · exact (congrArg (·.2.sinks) hstrike).symm

theorem sinks_wait (w : World) (name : String) : (w.wait name).2.sinks = w.sinks := by
  simp only [wait]
  rcases hstrike : w.strike .wait with ⟨_ | failure, w₁⟩
  · have hw₁ : w₁.sinks = w.sinks := (congrArg (·.2.sinks) hstrike).symm
    dsimp only
    split <;> exact hw₁
  · exact (congrArg (·.2.sinks) hstrike).symm

theorem sinks_answerSource (wiring : Wiring) (call : SourceCall) (w : World) :
    (answerSource wiring call w).2.sinks = w.sinks := by
  have hstruck {p : FaultPoint} {r : Option Failure × World}
      (h : (if wiring.failing then w.strike p else (none, w)) = r) : r.2.sinks = w.sinks := by
    obtain ⟨faults, hfaults⟩ := struck_eq wiring.failing p w
    rw [← h, hfaults]
  cases call with
  | openSlot name =>
    simp only [answerSource]
    split
    · rename_i h
      exact hstruck h
    · rename_i h
      exact hstruck h
  | pull slot window most offset =>
    simp only [answerSource]
    split
    · rename_i h
      exact hstruck h
    · rename_i h
      split <;> exact hstruck h
  | reclaim slot upTo =>
    simp only [answerSource]
    split
    · rename_i h
      exact hstruck h
    · rename_i h
      split <;> exact hstruck h

end World

/-- The calls that change what a sink holds. -/
def Call.Writes : Call → Prop
  | .sink (.upsert _) => True
  | .sink (.delete ..) => True
  | _ => False

theorem Call.IsLookup.not_writes {call : Call} (h : call.IsLookup) : ¬ call.Writes := by
  cases call with
  | sink call =>
    cases call with
    | findByMeta => exact id
    | _ => exact h.elim
  | _ => exact id

theorem Call.IsFetch.not_writes {call : Call} (h : call.IsFetch) : ¬ call.Writes :=
  h.isLookup.not_writes

/-- Every call but an upsert or a delete leaves sinks alike. -/
theorem World.answer_sink_alike (wiring : Wiring) (call : Call) (h : ¬ call.Writes) (s : Site)
    (name : String) : (s.1.sink name).Alike ((answer wiring call s).2.1.sink name) := by
  cases call with
  | session call => exact .of_eq (sink_eq_of_sinks (sinks_answerSession wiring call s) name)
  | source call => exact .of_eq (sink_eq_of_sinks (sinks_answerSource wiring call s.1) name)
  | buffer call =>
    cases call with
    | drain => exact .of_eq (sink_eq_of_sinks (sinks_drain s.1 wiring.buffer) name)
    | ack => exact .of_eq (sink_eq_of_sinks (sinks_ack s.1 wiring.buffer) name)
    | wait => exact .of_eq (sink_eq_of_sinks (sinks_wait s.1 wiring.buffer) name)
  | sink call =>
    cases call with
    | upsert => exact absurd trivial h
    | delete => exact absurd trivial h
    | refresh => exact alike_onSink s.1 wiring.sink name (MemorySink.alike_refresh _)
    | findByMeta => exact .refl _
    | identities => exact .refl _
  | store call =>
    cases call with
    | load index =>
      obtain ⟨_, hfaults⟩ : ∃ faults,
          (s.1.loadMark wiring.store index).2 = { s.1 with faults := faults } := by
        simp only [loadMark]
        split
        · rename_i w₁ hstrike
          exact ⟨_, (congrArg (·.2) hstrike).symm⟩
        · rename_i w₁ hstrike
          exact ⟨_, (congrArg (·.2) hstrike).symm⟩
      exact .of_eq (sink_eq_of_sinks (congrArg World.sinks hfaults) name)
    | save index txid =>
      obtain ⟨_, _, _, hsaved⟩ := saveMark_eq s.1 wiring.store index txid
      exact .of_eq (sink_eq_of_sinks (congrArg World.sinks hsaved) name)
  | clock => exact .refl _

/-- Those who act leave what a sink holds. -/
def Site.Spares (name : String) (others : Site → Site → Prop) : Prop :=
  ∀ s s' : Site, others s s' → (s.1.sink name).Alike (s'.1.sink name)

theorem Site.others_spares (name : String) : Spares name Others :=
  fun _ _ h => h.1.sink_alike name

/-- A routine that neither upserts nor deletes leaves what a sink holds, if those who act meanwhile
do. -/
theorem Program.Runs.sink_alike {α : Type} {others : Site → Site → Prop} {wiring : Wiring}
    {p : Routine α} {s s' : Site} {value : α} {name : String} (hothers : Site.Spares name others)
    (hasks : p.Asks fun call => ¬ call.Writes) (h : Routine.Runs others wiring p s value s') :
    (s.1.sink name).Alike (s'.1.sink name) := by
  let Keeps (s t : Site) : Prop := (s.1.sink name).Alike (t.1.sink name)
  refine (Program.Runs.keeps ?_ ?_ ?_ ?_ hasks h : Keeps s s')
  · exact fun s => .refl _
  · exact fun h h' => h.trans h'
  · exact fun h => hothers _ _ h
  · exact fun s h => World.answer_sink_alike wiring _ h s name

end DocSync
