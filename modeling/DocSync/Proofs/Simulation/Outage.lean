import DocSync.Proofs.Simulation.Quiet
import DocSync.Proofs.Simulation.Sinks

/-!
Runs amid outages of a sink: before each request others may make its next writes fail, or stop failing.
Outages do not reach what a routine reads.  Main statement: a routine that only looks up gives, amid
outages, what it gives alone.
-/

namespace DocSync

/-- Others let the next writes of a sink fail or succeed, and do nothing else. -/
inductive World.Unsettles (name : String) : World → World → Prop
  | nothing (w : World) : Unsettles name w w
  | failing (w : World) (count : Nat) :
      Unsettles name w (w.onSink name fun sink => ((), { sink with failures := count })).2

namespace Site

/-- Outages of a sink, which leave the session at hand alone. -/
def Outages (name : String) (s s' : Site) : Prop := World.Unsettles name s.1 s'.1 ∧ s'.2 = s.2

/-- Sites that differ in their sinks only. -/
structure SameElse (s s' : Site) : Prop where
  world : s'.1 = { s.1 with sinks := s'.1.sinks }
  frames : s'.2 = s.2

/-- Sites that also have one sink that is alike. -/
structure Alike (name : String) (s s' : Site) : Prop extends SameElse s s' where
  sink : (s.1.sink name).Alike (s'.1.sink name)

variable {name : String} {s s' s₁ s₂ s₃ : Site}

theorem SameElse.refl (s : Site) : SameElse s s := ⟨rfl, rfl⟩

theorem SameElse.trans (h : SameElse s₁ s₂) (h' : SameElse s₂ s₃) : SameElse s₁ s₃ := by
  refine ⟨h'.world.trans ?_, h'.frames.trans h.frames⟩
  exact congrArg (fun w : World => { w with sinks := s₃.1.sinks }) h.world

theorem SameElse.database (h : SameElse s s') : s'.1.database = s.1.database := by
  have hdatabase := congrArg World.database h.world
  exact hdatabase

theorem Alike.refl (s : Site) : Alike name s s := ⟨.refl s, .refl _⟩

theorem Alike.trans (h : Alike name s₁ s₂) (h' : Alike name s₂ s₃) : Alike name s₁ s₃ :=
  ⟨h.toSameElse.trans h'.toSameElse, h.sink.trans h'.sink⟩

theorem Outages.refl (s : Site) : Outages name s s := ⟨.nothing _, rfl⟩

theorem Outages.alike (h : Outages name s s') : Alike name s s' := by
  obtain ⟨w, frames⟩ := s
  obtain ⟨w', frames'⟩ := s'
  obtain ⟨hworld, hframes⟩ := h
  cases hworld with
  | nothing => exact ⟨⟨rfl, hframes⟩, .refl _⟩
  | failing count =>
    have hsink : (w.sink name).Alike
        ((w.onSink name fun sink => ((), { sink with failures := count })).2.sink name) :=
      World.alike_onSink w name name (MemorySink.alike_failures _ count)
    exact ⟨⟨rfl, hframes⟩, hsink⟩

theorem outages_spares (name : String) : Spares name (Outages name) := fun _ _ h => h.alike.sink

/-- Whoever causes outages is one of those who commit and make calls fail. -/
theorem Outages.others (h : Outages name s s') : Others s s' := by
  obtain ⟨w, frames⟩ := s
  obtain ⟨w', frames'⟩ := s'
  obtain ⟨hworld, hframes⟩ := h
  refine ⟨?_, hframes⟩
  cases hworld with
  | nothing => exact .refl _
  | failing count => exact .step (.failSink _ name count) (.refl _)

end Site

/-- The calls of a writer: those to the sink, and the pauses between their retries. -/
def Call.IsWriting : Call → Prop
  | .sink _ => True
  | .clock _ => True
  | _ => False

/-- Amid outages a routine that asks nothing but the sink leaves everything else as it is. -/
theorem Program.Runs.sameElse {α : Type} {wiring : Wiring} {p : Routine α} {s s' : Site} {value : α}
    (hasks : p.Asks Call.IsWriting)
    (h : Routine.Runs (Site.Outages wiring.sink) wiring p s value s') : s.SameElse s' := by
  refine Program.Runs.keeps Site.SameElse.refl Site.SameElse.trans (fun h => h.alike.toSameElse)
    (fun {call} s hcall => ?_) hasks h
  cases call with
  | sink call => cases call <;> exact ⟨rfl, rfl⟩
  | clock => exact .refl s
  | session => exact hcall.elim
  | source => exact hcall.elim
  | buffer => exact hcall.elim
  | store => exact hcall.elim

namespace Writer

theorem write_asks {request : Routine (Except SinkError Unit)} (h : request.Asks Call.IsWriting)
    (accepted : WriteOutcome) (change : Keyed String → Keyed String) :
    Stateful.Asks Call.IsWriting (write request accepted change) := by
  refine Stateful.asks_get.bind fun w => ?_
  refine (Stateful.asks_lift (send_asks (fun _ => trivial) w h)).bind fun result => ?_
  cases result with
  | ok => exact (Stateful.asks_set _).bind fun _ => Stateful.asks_pure _
  | error e => exact fun _ => trivial

theorem upsert_asks (d : Document) : Stateful.Asks Call.IsWriting (upsert d) := by
  refine Stateful.asks_get.bind fun w => ?_
  split
  · exact Stateful.asks_pure _
  · exact write_asks (ask_asks trivial) _ _

theorem delete_asks (identity : String) : Stateful.Asks Call.IsWriting (delete identity) :=
  Stateful.asks_get.bind fun _ => write_asks (ask_asks trivial) _ _

theorem deleteAll_asks (identities : List String) :
    Stateful.Asks Call.IsWriting (deleteAll identities) := by
  induction identities with
  | nil => exact Stateful.asks_pure _
  | cons identity rest ih =>
    exact (delete_asks identity).bind fun _ => ih.bind fun _ => Stateful.asks_pure _

theorem reconcile_asks (seen : List String) : Stateful.Asks Call.IsWriting (reconcile seen) := by
  have hknown (w : Writer) : w.known.Asks Call.IsWriting :=
    (Attempt.asks_mapError (send_asks (fun _ => trivial) w (ask_asks trivial))).bind fun _ =>
      Attempt.asks_pure _
  exact (Writing.asks_reading hknown).bind fun _ => deleteAll_asks _

theorem refresh_asks_writing (writer : Writer) : writer.refresh.Asks Call.IsWriting :=
  Attempt.asks_mapError (send_asks (fun _ => trivial) writer (ask_asks trivial))

end Writer

/-- Lookups are answered the same at sites that are alike, which they stay. -/
theorem World.answer_lookup {wiring : Wiring} {call : Call} (h : call.IsLookup) {s s₁ : Site}
    (halike : s.Alike wiring.sink s₁) :
    (answer wiring call s₁).1 = (answer wiring call s).1 ∧
      (answer wiring call s).2.Alike wiring.sink (answer wiring call s₁).2 := by
  cases call with
  | session call =>
    have hanswer := answerSession_sinks wiring call s.1 s.2 s₁.1.sinks
    have hsite : s₁ = ({ s.1 with sinks := s₁.1.sinks }, s.2) :=
      Prod.ext halike.world halike.frames
    rw [← hsite] at hanswer
    change (answerSession wiring call s₁).1 = (answerSession wiring call s).1 ∧
      (answerSession wiring call s).2.Alike wiring.sink (answerSession wiring call s₁).2
    have hsinks : (answerSession wiring call s₁).2.1.sinks = s₁.1.sinks :=
      sinks_answerSession wiring call s₁
    refine ⟨congrArg (·.1) hanswer, ⟨?_, congrArg (·.2.2) hanswer⟩, ?_⟩
    · rw [hsinks]
      exact congrArg (·.2.1) hanswer
    · rw [sink_eq_of_sinks hsinks, sink_eq_of_sinks (sinks_answerSession wiring call s)]
      exact halike.sink
  | sink call =>
    cases call with
    | findByMeta index table key =>
      refine ⟨congrArg Except.ok ?_, halike⟩
      rw [MemorySink.findByMeta, MemorySink.findByMeta, MemorySink.documents, MemorySink.documents,
        halike.sink.stored, halike.sink.looksUp]
    | upsert => exact h.elim
    | delete => exact h.elim
    | refresh => exact h.elim
    | identities => exact h.elim
  | clock call => exact ⟨rfl, halike⟩
  | source => exact h.elim
  | buffer => exact h.elim
  | store => exact h.elim

/-- A program that only looks up does amid outages what it does alone at a site that is alike. -/
theorem Program.Runs.run_of_outages {α : Type} {wiring : Wiring} {p : Routine α} {s s₁ s' : Site}
    {value : α} (hasks : p.Asks Call.IsLookup)
    (h : Routine.Runs (Site.Outages wiring.sink) wiring p s₁ value s')
    (halike : s.Alike wiring.sink s₁) :
    ∃ t, p.run (World.answer wiring) s = (some value, t) ∧ t.Alike wiring.sink s' := by
  induction h generalizing s with
  | done value s₁ => exact ⟨s, rfl, halike⟩
  | @ask r next s₁ s₂ s' value hothers _ ih =>
    obtain ⟨hanswer, halike'⟩ := World.answer_lookup hasks.1 (halike.trans hothers.alike)
    rw [run, ← hanswer]
    exact ih (hasks.2 _) halike'

/-- A routine that only looks up gives amid outages what it gives alone. -/
theorem Attempt.Gives.of_outages {ε α : Type} {wiring : Wiring} {a : Attempt ε α} {s s' : Site}
    {result found : Except ε α} (h : Gives wiring s.1 a result) (hasks : a.Asks Call.IsLookup)
    (hruns : Runs (Site.Outages wiring.sink) wiring a s found s') (hpending : s.2.pending = []) :
    found = result ∧ s.Alike wiring.sink s' := by
  obtain ⟨t, hrun, halike⟩ := Program.Runs.run_of_outages hasks hruns (.refl s)
  have hgives := (h s.2 hpending).symm.trans hrun
  obtain ⟨hresult, rfl⟩ := Prod.mk.inj hgives
  exact ⟨(Option.some.inj hresult).symm, halike⟩

end DocSync
