import DocSync.Proofs.Relation.Frames
import DocSync.Proofs.Simulation.Backlog
import DocSync.Simulation.Work

/-!
Programs of nested transaction scopes on a session in memory.  Between the calls that a program waits for, other
sessions commit as they like, and at each of these calls the whole program may be dropped.  Main statement: a
program that is dropped or fails leaves nothing behind, and one that succeeds has committed, as one transaction,
what was accepted in scopes that neither failed nor lie in one that failed.
-/

namespace DocSync

namespace World

variable {w : World} {base : Frames} {frame outer : List Query}

theorem commitScope_inner :
    commitScope (w, base ++ [outer] ++ [frame]) = (.ok (), (w, base ++ [outer ++ frame])) := by
  have hcommit : Frames.commit (base ++ [outer] ++ [frame]) w.database =
      (.ok ([], w.database), base ++ [outer ++ frame]) := by
    simp only [Frames.commit, List.getLast?_concat, List.dropLast_concat, List.isEmpty_iff,
      List.append_eq_nil_iff, List.cons_ne_self, and_false, if_false, Frames.mergeIntoLast_append]
  simp only [commitScope, hcommit]
  rfl

theorem rollbackScope_append : rollbackScope (w, base ++ [frame]) = (.ok (), (w, base)) := by
  simp [rollbackScope, Frames.rollback]

/-- The outermost scope is closed also where its commit is refused, which leaves the world alone. -/
theorem commitScope_outermost {a : Except Failure Unit} {site' : Site}
    (h : (a, site') = commitScope (w, [frame])) :
    site'.2 = [] ∧ (a = .ok () ∧ w.commit frame = .ok site'.1 ∨ (∃ e, a = .error e) ∧ site'.1 = w) := by
  have hframes : Frames.commit [frame] w.database = ((w.database.commit frame).map Prod.snd, []) := rfl
  simp only [commitScope, hframes] at h
  cases hcommit : w.database.commit frame with
  | error e =>
    rw [hcommit] at h
    obtain ⟨rfl, rfl⟩ := Prod.mk.inj h
    exact ⟨rfl, .inr ⟨⟨_, rfl⟩, rfl⟩⟩
  | ok committed =>
    rw [hcommit] at h
    obtain ⟨rfl, rfl⟩ := Prod.mk.inj h
    exact ⟨rfl, .inl ⟨rfl, by rw [commit, hcommit]; rfl⟩⟩

theorem commit_database {w' : World} {queries : List Query} (h : w.commit queries = .ok w') :
    ∃ rows logged, w.database.commit queries = .ok (rows, logged, w'.database) := by
  cases hcommit : w.database.commit queries with
  | error e => rw [commit, hcommit] at h; contradiction
  | ok committed =>
    obtain ⟨rows, logged, db⟩ := committed
    rw [commit, hcommit] at h
    obtain rfl := Except.ok.inj h
    refine ⟨rows, logged, ?_⟩
    dsimp only
    rw [(backlog_feed "" _ _).2]

/-- Another session comes to a commit, which may be refused. -/
def tries (w : World) (queries : List Query) : World :=
  match w.commit queries with
  | .ok w => w
  | .error _ => w

/-- The state of a scoped program after another session came to a commit. -/
def ScopeState.tries (s : ScopeState) (queries : List Query) : ScopeState :=
  { s with site := (s.site.1.tries queries, s.site.2) }

end World

namespace Scope

open World (ScopeState answerScoped)

/-- Whether a program waits for the answer: what it notes, and the marks of a guarded scope, take no time. -/
def Call.waits : Call → Bool
  | .session .enter => false
  | .session .leave => false
  | .session _ => true
  | .hang => true
  | _ => false

/-- What happens while a program runs: another session comes to a commit, or the program's own session answers. -/
inductive Moment where
  | other (queries : List Query)
  | answered (call : SessionCall) (answer : call.Answer)

/-- What is seen of a call. -/
def moments : (call : Call) → call.Answer → List Moment
  | .session call, answer => if (Call.session call).waits then [.answered call answer] else []
  | _, _ => []

/-- A program is played up to its result, or up to a call at which it is dropped, while other sessions commit
before the calls that it waits for. -/
inductive Plays {α : Type} : Program Call Call.Answer α → ScopeState → List Moment → Option α → ScopeState → Prop
  | done (value : α) (s : ScopeState) : Plays (.done value) s [] (some value) s
  | other {call : Call} {next : call.Answer → Program Call Call.Answer α} {s s' : ScopeState}
      {queries : List Query} {trace : List Moment} {r : Option α} : call.waits = true →
      Plays (.ask call next) (s.tries queries) trace r s' →
      Plays (.ask call next) s (.other queries :: trace) r s'
  | answered {call : Call} {next : call.Answer → Program Call Call.Answer α} {s s₁ s' : ScopeState}
      {a : call.Answer} {trace : List Moment} {r : Option α} : answerScoped call s = (some a, s₁) →
      Plays (next a) s₁ trace r s' → Plays (.ask call next) s (moments call a ++ trace) r s'
  | dropped {call : Call} {next : call.Answer → Program Call Call.Answer α} {s : ScopeState} :
      call.waits = true → Plays (.ask call next) s [] none s

/-- How a body in a scope may end: with a result, or dropped, which abandons every guarded scope. -/
inductive Ends (body : List Step) (site : Site) : List Moment → World.ScopeEnd → Site → Prop
  | finished {trace : List Moment} {result : Except Failure Unit} {s : ScopeState} :
      Plays (run body).run ⟨site, [], 0⟩ trace (some result) s → Ends body site trace (.finished result) s.site
  | dropped {trace : List Moment} {s : ScopeState} : Plays (run body).run ⟨site, [], 0⟩ trace none s →
      Ends body site trace .dropped (s.site.1, Nat.repeat Frames.abandon s.guarded s.site.2)

/-- The world after what other sessions committed. -/
def others (w : World) (trace : List Moment) : World :=
  trace.foldl (fun w moment => match moment with
    | .other queries => w.tries queries
    | .answered _ _ => w) w

/-- The write of a statement, where it was accepted. -/
def accepted (query : Query) : Except Failure (List Row) → List Query
  | .ok _ => [query].filter Query.writes
  | .error _ => []

/-- What a stretch of a program keeps: the writes that were accepted, without those in scopes that failed. -/
inductive Keeps : List Moment → List Query → Prop
  | nil : Keeps [] []
  | other {queries kept : List Query} {rest : List Moment} : Keeps rest kept → Keeps (.other queries :: rest) kept
  | statement {query : Query} {result : Except Failure (List Row)} {rest : List Moment} {kept : List Query} :
      Keeps rest kept → Keeps (.answered (.execute query) result :: rest) (accepted query result ++ kept)
  | succeeded {body rest : List Moment} {inner kept : List Query} : Keeps body inner → Keeps rest kept →
      Keeps (.answered .begin (.ok ()) :: body ++ .answered .commit (.ok ()) :: rest) (inner ++ kept)
  | failed {body rest : List Moment} {inner kept : List Query} : Keeps body inner → Keeps rest kept →
      Keeps (.answered .begin (.ok ()) :: body ++ .answered .rollback (.ok ()) :: rest) kept

/-! ### Stretches -/

@[simp] theorem others_nil (w : World) : others w [] = w := rfl

@[simp] theorem others_answered (w : World) (call : SessionCall) (answer : call.Answer)
    (trace : List Moment) : others w (.answered call answer :: trace) = others w trace := rfl

@[simp] theorem others_append (w : World) (front back : List Moment) :
    others w (front ++ back) = others (others w front) back := List.foldl_append

theorem Keeps.append {front back : List Moment} {first second : List Query} (hfront : Keeps front first)
    (hback : Keeps back second) : Keeps (front ++ back) (first ++ second) := by
  induction hfront with
  | nil => exact hback
  | other _ ih => exact .other ih
  | statement _ ih =>
    rw [List.append_assoc]
    exact .statement ih
  | succeeded hbody _ _ ih =>
    rw [List.append_assoc, List.append_assoc]
    exact .succeeded hbody ih
  | failed hbody _ _ ih =>
    rw [List.append_assoc]
    exact .failed hbody ih

/-- Inside what a program keeps, no commit was refused. -/
theorem Keeps.commit_ok {trace : List Moment} {kept : List Query} (h : Keeps trace kept) (e : Failure) :
    .answered .commit (.error e) ∉ trace := by
  induction h with
  | nil => simp
  | other _ ih => simpa using ih
  | statement _ ih => simpa using ih
  | succeeded _ _ hbody hrest => simp [hbody, hrest]
  | failed _ _ hbody hrest => simp [hbody, hrest]

/-! ### Plays -/

variable {α β : Type} {s s' : ScopeState} {trace : List Moment}

/-- A play of a bind plays its parts one after the other, or is dropped in the first. -/
theorem plays_bind {p : Program Call Call.Answer β} {f : β → Program Call Call.Answer α} {r : Option α}
    (h : Plays (p.bind f) s trace r s') :
    (∃ value s₁ front back, trace = front ++ back ∧ Plays p s front (some value) s₁ ∧
      Plays (f value) s₁ back r s') ∨ (r = none ∧ Plays p s trace none s') := by
  -- The induction is on the play of the whole, and says at each point how far the first part has come.
  generalize hq : p.bind f = q at h
  induction h generalizing p with
  | done value s =>
    cases p with
    | done first => exact .inl ⟨first, s, [], [], rfl, .done first s, (show f first = _ from hq) ▸ .done value s⟩
    | _ => cases hq
  | @other call next s s' queries trace r hwaits h ih =>
    cases p with
    | done first => exact .inl ⟨first, s, [], _, rfl, .done first s, (show f first = _ from hq) ▸ .other hwaits h⟩
    | spent => cases hq
    | ask first rest =>
      obtain ⟨rfl, -⟩ := Program.ask.inj hq
      rcases ih hq with ⟨value, s₁, front, back, rfl, hfirst, hrest⟩ | ⟨rfl, hdropped⟩
      · exact .inl ⟨value, s₁, .other queries :: front, back, rfl, .other hwaits hfirst, hrest⟩
      · exact .inr ⟨rfl, .other hwaits hdropped⟩
  | @answered call next s s₁ s' a trace r hanswer h ih =>
    cases p with
    | done first => exact .inl ⟨first, s, [], _, rfl, .done first s, (show f first = _ from hq) ▸ .answered hanswer h⟩
    | spent => cases hq
    | ask first rest =>
      obtain ⟨rfl, hnext⟩ := Program.ask.inj hq
      obtain rfl := eq_of_heq hnext
      rcases ih rfl with ⟨value, s₂, front, back, rfl, hfirst, hrest⟩ | ⟨rfl, hdropped⟩
      · exact .inl ⟨value, s₂, moments first a ++ front, back, (List.append_assoc _ _ _).symm,
          .answered hanswer hfirst, hrest⟩
      · exact .inr ⟨rfl, .answered hanswer hdropped⟩
  | @dropped call next s hwaits =>
    cases p with
    | done first => exact .inl ⟨first, s, [], [], rfl, .done first s, (show f first = _ from hq) ▸ .dropped hwaits⟩
    | spent => cases hq
    | ask first rest =>
      obtain ⟨rfl, -⟩ := Program.ask.inj hq
      exact .inr ⟨rfl, .dropped hwaits⟩

theorem plays_done {value : α} {r : Option α} (h : Plays (.done value) s trace r s') :
    trace = [] ∧ r = some value ∧ s' = s := by
  cases h
  exact ⟨rfl, rfl, rfl⟩

/-- The state after what other sessions did. -/
def after (s : ScopeState) (lead : List Moment) : ScopeState :=
  { s with site := (others s.site.1 lead, s.site.2) }

/-- A call that is waited for is answered after what others did, or the program is dropped at it. -/
theorem plays_waiting (call : SessionCall) (hwaits : (Call.session call).waits = true)
    {f : call.Answer → Program Call Call.Answer α} {r : Option α}
    (h : Plays ((ask call).bind f) s trace r s') :
    (r = none ∧ Keeps trace [] ∧ s' = after s trace) ∨
      ∃ lead a s₁ back, trace = lead ++ .answered call a :: back ∧ Keeps lead [] ∧
        answerScoped (.session call) (after s lead) = (some a, s₁) ∧ Plays (f a) s₁ back r s' := by
  change Plays (.ask (.session call) f) s trace r s' at h
  generalize hq : (Program.ask (.session call) f : Program Call Call.Answer α) = q at h
  induction h with
  | done => cases hq
  | @other _ _ s s' queries trace r _ _ ih =>
    rcases ih hq with ⟨rfl, hkeeps, rfl⟩ | ⟨lead, a, s₁, back, rfl, hkeeps, hanswer, hback⟩
    · exact .inl ⟨rfl, .other hkeeps, rfl⟩
    · exact .inr ⟨.other queries :: lead, a, s₁, back, rfl, .other hkeeps, hanswer, hback⟩
  | @answered _ _ s s₁ s' a trace r hanswer h _ =>
    obtain ⟨rfl, hnext⟩ := Program.ask.inj hq
    obtain rfl := eq_of_heq hnext
    refine .inr ⟨[], a, s₁, trace, ?_, .nil, hanswer, h⟩
    rw [moments, if_pos hwaits]
    rfl
  | dropped => exact .inl ⟨rfl, .nil, rfl⟩

/-- A call that is not waited for is answered at once, and is not seen. -/
theorem plays_noting (call : Call) (hwaits : call.waits = false) {f : call.Answer → Program Call Call.Answer α}
    {r : Option α} (h : Plays ((Program.request call).bind f) s trace r s') :
    ∃ a s₁, answerScoped call s = (some a, s₁) ∧ Plays (f a) s₁ trace r s' := by
  change Plays (.ask call f) s trace r s' at h
  cases h with
  | other hwaits' => rw [hwaits] at hwaits'; contradiction
  | @answered _ _ _ s₁ _ a trace _ hanswer h =>
    have hunseen : moments call a = [] := by
      cases call with
      | session call => exact if_neg (by simp [hwaits])
      | _ => rfl
    rw [hunseen]
    exact ⟨a, s₁, hanswer, h⟩
  | dropped hwaits' => rw [hwaits] at hwaits'; contradiction

/-- Who waits for ever only sees what others do. -/
theorem plays_hang {f : Unit → Program Call Call.Answer α} {r : Option α} (h : Plays (.ask .hang f) s trace r s') :
    r = none ∧ s' = after s trace := by
  generalize hq : (Program.ask .hang f : Program Call Call.Answer α) = q at h
  induction h with
  | done => cases hq
  | other _ _ ih =>
    obtain ⟨rfl, rfl⟩ := ih hq
    exact ⟨rfl, rfl⟩
  | answered hanswer =>
    obtain ⟨rfl, -⟩ := Program.ask.inj hq
    cases hanswer
  | dropped => exact ⟨rfl, rfl⟩

/-! ### Scopes -/

/-- A scope after the end of its body. -/
def finishing (result : Except Failure α) : Program Call Call.Answer (Except Failure α) :=
  match result with
  | .ok value => (ask .commit).bind fun closed => (ask .leave).bind fun _ => .done (closed.map fun _ => value)
  | .error e => (ask .rollback).bind fun _ => (ask .leave).bind fun _ => .done (.error e)

theorem transaction_eq (body : Scoped α) :
    (transaction ask body).run = (ask .begin).bind fun
      | .error e => .done (.error e)
      | .ok () => (ask .enter).bind fun _ => body.run.bind finishing := by
  change (ask .begin).bind _ = _
  congr 1
  funext begun
  cases begun with
  | error e => rfl
  | ok =>
    change (ask .enter).bind _ = _
    congr 1
    funext _
    change Program.bind body.run _ = Program.bind body.run _
    congr 1
    funext result
    cases result with
    | error e => rfl
    | ok value =>
      change (ask .commit).bind _ = (ask .commit).bind _
      congr 1
      funext closed
      cases closed <;> rfl

/-- The state in a scope that was just opened. -/
def entered (s : ScopeState) : ScopeState :=
  { s with site := (s.site.1, s.site.2.begin), guarded := s.guarded + 1 }

/-- A scope is dropped before it opens, or in its body, or its body ends and it is closed. -/
theorem plays_transaction {body : Scoped α} {r : Option (Except Failure α)}
    (h : Plays (transaction ask body).run s trace r s') :
    (r = none ∧ Keeps trace [] ∧ s' = after s trace) ∨
      ∃ lead back, trace = lead ++ .answered .begin (.ok ()) :: back ∧ Keeps lead [] ∧
        ((r = none ∧ Plays body.run (entered (after s lead)) back none s') ∨
          ∃ result s₁ inner rest, back = inner ++ rest ∧
            Plays body.run (entered (after s lead)) inner (some result) s₁ ∧
            Plays (finishing result) s₁ rest r s') := by
  rw [transaction_eq] at h
  rcases plays_waiting .begin rfl h with hdropped | ⟨lead, a, s₁, back, rfl, hlead, hbegin, h⟩
  · exact .inl hdropped
  · obtain ⟨ha, rfl⟩ := Prod.mk.inj hbegin
    obtain rfl := Option.some.inj ha
    refine .inr ⟨lead, back, rfl, hlead, ?_⟩
    obtain ⟨_, s₂, henter, h⟩ := plays_noting (.session .enter) rfl h
    obtain ⟨-, rfl⟩ := Prod.mk.inj henter
    rcases plays_bind h with ⟨result, s₃, inner, rest, rfl, hbody, hrest⟩ | ⟨rfl, hbody⟩
    · exact .inr ⟨result, s₃, inner, rest, rfl, hbody, hrest⟩
    · exact .inl ⟨rfl, hbody⟩

/-- A scope whose body succeeded is dropped, or its commit is answered. -/
theorem plays_finishing_ok {value : α} {r : Option (Except Failure α)}
    (h : Plays (finishing (.ok value)) s trace r s') :
    (r = none ∧ Keeps trace [] ∧ s' = after s trace) ∨
      ∃ lead a, trace = lead ++ [.answered .commit a] ∧ Keeps lead [] ∧ r = some (a.map fun _ => value) ∧
        (a, s'.site) = World.commitScope (after s lead).site ∧ s'.guarded = s.guarded - 1 := by
  rcases plays_waiting .commit rfl h with hdropped | ⟨lead, a, s₁, back, rfl, hlead, hcommit, h⟩
  · exact .inl hdropped
  · obtain ⟨ha, rfl⟩ := Prod.mk.inj hcommit
    obtain ⟨_, s₂, hleave, h⟩ := plays_noting (.session .leave) rfl h
    obtain ⟨-, rfl⟩ := Prod.mk.inj hleave
    obtain ⟨rfl, rfl, rfl⟩ := plays_done h
    exact .inr ⟨lead, a, rfl, hlead, rfl, Prod.ext (Option.some.inj ha).symm rfl, rfl⟩

/-- A scope whose body failed is dropped, or rolled back. -/
theorem plays_finishing_error {e : Failure} {r : Option (Except Failure α)}
    (h : Plays (finishing (.error e)) s trace r s') :
    (r = none ∧ Keeps trace [] ∧ s' = after s trace) ∨
      ∃ lead a, trace = lead ++ [.answered .rollback a] ∧ Keeps lead [] ∧ r = some (.error e) ∧
        (a, s'.site) = World.rollbackScope (after s lead).site ∧ s'.guarded = s.guarded - 1 := by
  rcases plays_waiting .rollback rfl h with hdropped | ⟨lead, a, s₁, back, rfl, hlead, hrollback, h⟩
  · exact .inl hdropped
  · obtain ⟨ha, rfl⟩ := Prod.mk.inj hrollback
    obtain ⟨_, s₂, hleave, h⟩ := plays_noting (.session .leave) rfl h
    obtain ⟨-, rfl⟩ := Prod.mk.inj hleave
    obtain ⟨rfl, rfl, rfl⟩ := plays_done h
    exact .inr ⟨lead, a, rfl, hlead, rfl, Prod.ext (Option.some.inj ha).symm rfl, rfl⟩

theorem finishing_dropped {result : Except Failure α} (h : Plays (finishing result) s trace none s') :
    s' = after s trace := by
  cases result with
  | ok =>
    rcases plays_finishing_ok h with ⟨-, -, hs'⟩ | ⟨_, _, _, _, hr, _⟩
    · exact hs'
    · cases hr
  | error =>
    rcases plays_finishing_error h with ⟨-, -, hs'⟩ | ⟨_, _, _, _, hr, _⟩
    · exact hs'
    · cases hr

/-- What a stretch of a program does to its session in an open scope: when it is over, the innermost frame has
what the stretch keeps, and when it is dropped, each scope that it opened is still guarded. -/
structure Within (base : Frames) (frame : List Query) (s : ScopeState) (trace : List Moment) (r : Option α)
    (s' : ScopeState) : Prop where
  world : s'.site.1 = others s.site.1 trace
  finished : ∀ result, r = some result → ∃ kept, Keeps trace kept ∧
    s'.site.2 = base ++ [frame ++ kept] ∧ s'.guarded = s.guarded
  dropped : r = none → ∃ top inner, s'.site.2 = base ++ top :: inner ∧ s'.guarded = s.guarded + inner.length

/-! ### Steps -/

variable {base : Frames} {frame : List Query}

/-- A statement in a scope adds what is accepted of it to the innermost frame. -/
theorem statement_answer {query : Query} {a : Except Failure (List Row)} {s₁ : ScopeState}
    (hframes : s.site.2 = base ++ [frame])
    (h : answerScoped (.session (.execute query)) s = (some a, s₁)) :
    s₁ = { s with site := (s.site.1, base ++ [frame ++ accepted query a]) } := by
  have hanswer : World.execute s.site query = (a, s₁.site) ∧ s₁ = { s with site := s₁.site } := by
    obtain ⟨ha, rfl⟩ := Prod.mk.inj h
    exact ⟨Prod.ext (Option.some.inj ha) rfl, rfl⟩
  obtain ⟨hanswer, hs₁⟩ := hanswer
  rcases hsite : s.site with ⟨w, frames⟩
  obtain rfl : frames = base ++ [frame] := by simpa [hsite] using hframes
  rw [hsite] at hanswer
  rw [hs₁]
  congr 1
  unfold World.execute at hanswer
  split at hanswer
  · rename_i result hexecute
    obtain ⟨hlogged, hresult, hdatabase⟩ := Frames.execute_append hexecute
    obtain ⟨rfl, hsite₁⟩ := Prod.mk.inj hanswer
    rw [← hsite₁, hlogged, hresult, hdatabase]
    rfl
  · obtain ⟨rfl, hsite₁⟩ := Prod.mk.inj hanswer
    rw [← hsite₁]
    simp [accepted]

theorem Within.of_dropped (hframes : s.site.2 = base ++ [frame]) :
    Within base frame s trace (none : Option α) (after s trace) where
  world := rfl
  finished := by simp
  dropped _ := ⟨frame, [], hframes, rfl⟩

/-- One stretch after another. -/
theorem Within.trans {front back : List Moment} {value : β} {s₁ : ScopeState} {r : Option α}
    (hfront : Within base frame s front (some value) s₁)
    (hback : ∀ kept, s₁.site.2 = base ++ [frame ++ kept] → Within base (frame ++ kept) s₁ back r s') :
    Within base frame s (front ++ back) r s' := by
  obtain ⟨kept, hkeeps, hframes, hguarded⟩ := hfront.finished value rfl
  have hrest := hback kept hframes
  refine ⟨?_, ?_, ?_⟩
  · rw [hrest.world, hfront.world, others_append]
  · intro result hr
    obtain ⟨more, hmore, hframes', hguarded'⟩ := hrest.finished result hr
    exact ⟨kept ++ more, hkeeps.append hmore, by rw [hframes', List.append_assoc], hguarded'.trans hguarded⟩
  · intro hr
    obtain ⟨top, inner, hframes', hguarded'⟩ := hrest.dropped hr
    exact ⟨top, inner, hframes', hguarded' ▸ hguarded ▸ rfl⟩

/-- A scope inside another: its writes join the frame around it where it succeeds. -/
theorem within_transaction {body : Scoped α}
    (hbody : ∀ {base : Frames} {frame : List Query} {s : ScopeState} {trace : List Moment}
      {r : Option (Except Failure α)} {s' : ScopeState}, s.site.2 = base ++ [frame] →
      Plays body.run s trace r s' → Within base frame s trace r s')
    {r : Option (Except Failure α)} (hframes : s.site.2 = base ++ [frame])
    (h : Plays (transaction ask body).run s trace r s') : Within base frame s trace r s' := by
  rcases plays_transaction h with ⟨rfl, -, rfl⟩ | ⟨lead, back, rfl, hlead, hopened⟩
  · exact .of_dropped hframes
  have hentered : (entered (after s lead)).site.2 = (base ++ [frame]) ++ [[]] := congrArg (· ++ [[]]) hframes
  rcases hopened with ⟨rfl, hplays⟩ | ⟨result, s₁, inner, rest, rfl, hplays, hfinish⟩
  -- Dropped in its body, the scope is one more of those to be abandoned.
  · have hin := hbody hentered hplays
    obtain ⟨top, others, hframes', hguarded⟩ := hin.dropped rfl
    refine ⟨?_, by simp, fun _ => ⟨frame, top :: others, by simp [hframes'], ?_⟩⟩
    · rw [hin.world, others_append]
      rfl
    · rw [hguarded]
      show s.guarded + 1 + others.length = s.guarded + (others.length + 1)
      omega
  have hin := hbody hentered hplays
  obtain ⟨kept, hkeeps, hframes₁, hguarded₁⟩ := hin.finished result rfl
  rw [List.nil_append] at hframes₁
  have hguarded₁ : s₁.guarded = s.guarded + 1 := hguarded₁
  have hworld (last : List Moment) : others s₁.site.1 last =
      others s.site.1 (lead ++ .answered .begin (.ok ()) :: (inner ++ last)) := by
    rw [hin.world, others_append, others_answered, others_append]
    rfl
  -- Dropped where it is closed, it has what its body kept in a frame of its own.
  have hdropped : r = none → s' = after s₁ rest →
      Within base frame s (lead ++ .answered .begin (.ok ()) :: (inner ++ rest)) r s' := by
    rintro rfl rfl
    refine ⟨hworld rest, by simp, fun _ => ⟨frame, [kept], ?_, hguarded₁⟩⟩
    show s₁.site.2 = _
    rw [hframes₁]
    simp
  cases result with
  | ok value =>
    rcases plays_finishing_ok hfinish with ⟨hr, -, hs'⟩ | ⟨last, a, rfl, hlast, rfl, hcommit, hguarded⟩
    · exact hdropped hr hs'
    have hsite : (after s₁ last).site = (others s₁.site.1 last, base ++ [frame] ++ [kept]) :=
      Prod.ext rfl hframes₁
    rw [hsite, World.commitScope_inner] at hcommit
    obtain ⟨rfl, hcommitted⟩ := Prod.mk.inj hcommit
    refine ⟨by simp [hcommitted, hworld], ?_, by simp⟩
    rintro _ -
    refine ⟨kept, ?_, by rw [hcommitted], by omega⟩
    simpa using hlead.append (.succeeded (hkeeps.append hlast) .nil)
  | error e =>
    rcases plays_finishing_error hfinish with ⟨hr, -, hs'⟩ | ⟨last, a, rfl, hlast, rfl, hrollback, hguarded⟩
    · exact hdropped hr hs'
    have hsite : (after s₁ last).site = (others s₁.site.1 last, (base ++ [frame]) ++ [kept]) :=
      Prod.ext rfl hframes₁
    rw [hsite, World.rollbackScope_append] at hrollback
    obtain ⟨rfl, hrolled⟩ := Prod.mk.inj hrollback
    refine ⟨by simp [hrolled, hworld], ?_, by simp⟩
    rintro _ -
    refine ⟨[], ?_, by rw [hrolled, List.append_nil], by omega⟩
    simpa using hlead.append (.failed (hkeeps.append hlast) .nil)

theorem Within.of_same {value : α} (hframes : s.site.2 = base ++ [frame]) (hsite : s'.site = s.site)
    (hguarded : s'.guarded = s.guarded) : Within base frame s [] (some value) s' where
  world := by rw [hsite, others_nil]
  finished _ _ := ⟨[], .nil, by rw [hsite, hframes, List.append_nil], hguarded⟩
  dropped := by simp

theorem within_settle {tried : Bool} {result : Except Failure Unit} {r : Option (Except Failure Unit)}
    (hframes : s.site.2 = base ++ [frame]) (h : Plays (settle tried result).run s trace r s') :
    Within base frame s trace r s' := by
  cases result with
  | ok =>
    obtain ⟨rfl, rfl, rfl⟩ := plays_done h
    exact .of_same hframes rfl rfl
  | error e =>
    obtain ⟨_, s₁, hnoted, h⟩ := plays_noting (.failed e) rfl h
    obtain ⟨-, rfl⟩ := Prod.mk.inj hnoted
    cases tried with
    | true =>
      obtain ⟨rfl, rfl, rfl⟩ := plays_done h
      exact .of_same hframes rfl rfl
    | false =>
      obtain ⟨rfl, rfl, rfl⟩ := plays_done h
      exact .of_same hframes rfl rfl

mutual

theorem within_step : ∀ (step : Step) {base : Frames} {frame : List Query} {s s' : ScopeState}
    {trace : List Moment} {r : Option (Except Failure Unit)}, s.site.2 = base ++ [frame] →
    Plays (runStep step).run s trace r s' → Within base frame s trace r s'
  | .execute query tried, base, frame, s, s', trace, r, hframes, h => by
    rw [runStep] at h
    rcases plays_waiting (.execute query) rfl h with
      ⟨rfl, -, rfl⟩ | ⟨lead, a, s₁, back, rfl, hlead, hanswer, h⟩
    · exact .of_dropped hframes
    have hs₁ := statement_answer (s := after s lead) hframes hanswer
    have hfront : Within base frame s (lead ++ [.answered (.execute query) a]) (some a) s₁ := by
      subst hs₁
      refine ⟨by simp [after], ?_, by simp⟩
      rintro _ -
      exact ⟨accepted query a, by simpa using hlead.append (.statement .nil), rfl, rfl⟩
    rw [show lead ++ .answered (.execute query) a :: back = (lead ++ [.answered (.execute query) a]) ++ back by simp]
    refine hfront.trans fun kept hkept => ?_
    cases a with
    | ok rows =>
      obtain ⟨_, s₂, hnoted, h⟩ := plays_noting (.rows rows) rfl h
      obtain ⟨-, rfl⟩ := Prod.mk.inj hnoted
      obtain ⟨rfl, rfl, rfl⟩ := plays_done h
      exact .of_same hkept rfl rfl
    | error e => exact within_settle hkept h
  | .scope body tried, base, frame, s, s', trace, r, hframes, h => by
    rw [runStep] at h
    obtain ⟨_, s₁, hnoted, h⟩ := plays_noting .entered rfl h
    obtain ⟨-, rfl⟩ := Prod.mk.inj hnoted
    change Plays (ExceptT.lift (transaction ask (runSteps body)).run >>= _).run _ _ _ _ at h
    rw [ExceptT.run_bind_lift] at h
    have hnote {trace : List Moment} {s' : ScopeState} {r : Option (Except Failure Unit)}
        (h : Within base frame (s.note .entered) trace r s') : Within base frame s trace r s' :=
      ⟨h.world, h.finished, h.dropped⟩
    rcases plays_bind h with ⟨result, s₁, front, back, rfl, hscope, hrest⟩ | ⟨rfl, hscope⟩
    · refine (hnote (within_transaction (within_steps body) hframes hscope)).trans fun kept hkept => ?_
      obtain ⟨_, s₂, hnoted, h⟩ := plays_noting .left rfl hrest
      obtain ⟨-, rfl⟩ := Prod.mk.inj hnoted
      have hsettled := within_settle (s := s₁.note (.left s₁.site.2.depth)) hkept h
      exact ⟨hsettled.world, hsettled.finished, hsettled.dropped⟩
    · exact hnote (within_transaction (within_steps body) hframes hscope)
  | .fail text tried, base, frame, s, s', trace, r, hframes, h => by
    rw [runStep] at h
    exact within_settle hframes h
  | .hang, base, frame, s, s', trace, r, hframes, h => by
    rw [runStep] at h
    obtain ⟨rfl, rfl⟩ := plays_hang h
    exact .of_dropped hframes

theorem within_steps : ∀ (steps : List Step) {base : Frames} {frame : List Query} {s s' : ScopeState}
    {trace : List Moment} {r : Option (Except Failure Unit)}, s.site.2 = base ++ [frame] →
    Plays (runSteps steps).run s trace r s' → Within base frame s trace r s'
  | [], base, frame, s, s', trace, r, hframes, h => by
    rw [runSteps] at h
    obtain ⟨rfl, rfl, rfl⟩ := plays_done h
    exact .of_same hframes rfl rfl
  | step :: rest, base, frame, s, s', trace, r, hframes, h => by
    rw [runSteps] at h
    rcases plays_bind h with ⟨result, s₁, front, back, rfl, hstep, hrest⟩ | ⟨rfl, hstep⟩
    · refine (within_step step hframes hstep).trans fun kept hkept => ?_
      cases result with
      | ok => exact within_steps rest hkept hrest
      | error e =>
        obtain ⟨rfl, rfl, rfl⟩ := plays_done hrest
        exact .of_same hkept rfl rfl
    · exact within_step step hframes hstep

end

/-! ### Undisturbed plays -/

/-- Answered without others and to the end, a program is in a play of it. -/
def Playable (p : Program Call Call.Answer α) : Prop :=
  ∀ s, ∃ trace, Plays p s trace (p.runWhile answerScoped s).1 (p.runWhile answerScoped s).2

theorem Plays.bind {p : Program Call Call.Answer β} {f : β → Program Call Call.Answer α} {value : β}
    {s₁ : ScopeState} {front back : List Moment} {r : Option α} (h : Plays p s front (some value) s₁)
    (hrest : Plays (f value) s₁ back r s') : Plays (p.bind f) s (front ++ back) r s' := by
  generalize hr : some value = ended at h
  induction h with
  | done first s =>
    obtain rfl := Option.some.inj hr
    exact hrest
  | other hwaits _ ih => exact .other hwaits (ih hrest hr)
  | answered hanswer _ ih =>
    rw [List.append_assoc]
    exact .answered hanswer (ih hrest hr)
  | dropped => cases hr

theorem Plays.bind_dropped {p : Program Call Call.Answer β} (f : β → Program Call Call.Answer α)
    (h : Plays p s trace none s') : Plays (p.bind f) s trace none s' := by
  generalize hr : (none : Option β) = ended at h
  induction h with
  | done => cases hr
  | other hwaits _ ih => exact .other hwaits (ih hr)
  | answered hanswer _ ih => exact .answered hanswer (ih hr)
  | dropped hwaits => exact .dropped hwaits

theorem runWhile_bind (p : Program Call Call.Answer β) (f : β → Program Call Call.Answer α) (s : ScopeState) :
    (p.bind f).runWhile answerScoped s =
      match p.runWhile answerScoped s with
      | (some value, s₁) => (f value).runWhile answerScoped s₁
      | (none, s₁) => (none, s₁) := by
  induction p generalizing s with
  | done => rfl
  | spent => rfl
  | ask call next ih =>
    simp only [Program.bind, Program.runWhile]
    split
    · exact ih _ _
    · rfl

theorem playable_done (value : α) : Playable (.done value) := fun s => ⟨[], .done value s⟩

theorem playable_request (call : Call) : Playable (Program.request call) := by
  intro s
  cases call with
  | hang => exact ⟨[], .dropped rfl⟩
  | session call => cases call <;> exact ⟨_, .answered rfl (.done _ _)⟩
  | _ => exact ⟨_, .answered rfl (.done _ _)⟩

theorem Playable.bind {p : Program Call Call.Answer β} {f : β → Program Call Call.Answer α} (hp : Playable p)
    (hf : ∀ value, Playable (f value)) : Playable (p.bind f) := by
  intro s
  obtain ⟨front, hfront⟩ := hp s
  rw [runWhile_bind]
  split
  · rename_i value s₁ hran
    rw [hran] at hfront
    obtain ⟨back, hback⟩ := hf value s₁
    exact ⟨front ++ back, hfront.bind hback⟩
  · rename_i s₁ hran
    rw [hran] at hfront
    exact ⟨front, hfront.bind_dropped f⟩

theorem playable_finishing (result : Except Failure α) : Playable (finishing result) := by
  have hleave (r : Except Failure α) : Playable ((ask .leave).bind fun _ => .done r) :=
    (playable_request (.session .leave)).bind fun _ => playable_done r
  cases result with
  | ok value => exact (playable_request (.session .commit)).bind fun _ => hleave _
  | error e => exact (playable_request (.session .rollback)).bind fun _ => hleave _

theorem playable_transaction {body : Scoped α} (hbody : Playable body.run) :
    Playable (transaction ask body).run := by
  rw [transaction_eq]
  refine (playable_request (.session .begin)).bind fun begun => ?_
  cases begun with
  | error e => exact playable_done _
  | ok => exact (playable_request (.session .enter)).bind fun _ => hbody.bind playable_finishing

theorem playable_settle (tried : Bool) (result : Except Failure Unit) : Playable (settle tried result).run := by
  cases result with
  | ok => exact playable_done _
  | error e =>
    refine (playable_request (.failed e)).bind fun _ => ?_
    cases tried <;> exact playable_done _

mutual

theorem playable_step : ∀ step : Step, Playable (runStep step).run
  | .execute query tried => by
    rw [runStep]
    refine (playable_request (.session (.execute query))).bind fun result => ?_
    cases result with
    | ok rows => exact (playable_request (.rows rows)).bind fun _ => playable_done _
    | error e => exact playable_settle tried _
  | .scope body tried => by
    rw [runStep]
    refine (playable_request .entered).bind fun _ => ?_
    change Playable (ExceptT.lift (transaction ask (runSteps body)).run >>= _).run
    rw [ExceptT.run_bind_lift]
    refine (playable_transaction (playable_steps body)).bind fun result => ?_
    exact (playable_request .left).bind fun _ => playable_settle tried result
  | .fail text tried => by
    rw [runStep]
    exact playable_settle tried _
  | .hang => by
    rw [runStep]
    exact (playable_request .hang).bind fun _ => playable_done _

theorem playable_steps : ∀ steps : List Step, Playable (runSteps steps).run
  | [] => playable_done _
  | step :: rest => by
    rw [runSteps]
    refine (playable_step step).bind fun result => ?_
    cases result with
    | ok => exact playable_steps rest
    | error e => exact playable_done _

end

/-- What a scope does where nobody else acts is one of the ways to end it. -/
theorem runScope_ends (body : List Step) (site : Site) :
    ∃ trace, Ends body site trace (World.runScope body site).1.1 (World.runScope body site).2 := by
  obtain ⟨trace, h⟩ := playable_transaction (playable_steps body) ⟨site, [], 0⟩
  refine ⟨trace, ?_⟩
  unfold World.runScope
  split
  · rename_i result s hran
    rw [show transaction ask (runSteps body) = run body from rfl, hran] at h
    exact .finished h
  · rename_i s hran
    rw [show transaction ask (runSteps body) = run body from rfl, hran] at h
    exact .dropped h

/-! ### Endings -/

variable {body : List Step} {w : World} {ending : World.ScopeEnd} {site' : Site}

/-- Where the outermost scope is dropped, each scope that is open is guarded. -/
theorem outermost_dropped {events : List Event}
    (h : Plays (run body).run ⟨(w, []), events, 0⟩ trace none s') :
    s'.site.1 = others w trace ∧ s'.guarded = s'.site.2.length := by
  rcases plays_transaction h with ⟨-, -, rfl⟩ | ⟨lead, back, rfl, -, hopened⟩
  · exact ⟨rfl, rfl⟩
  rw [others_append, others_answered]
  rcases hopened with ⟨-, hplays⟩ | ⟨result, s₁, inner, rest, rfl, hplays, hfinish⟩
  · have hin := within_steps body (show _ = ([] : Frames) ++ [[]] from rfl) hplays
    obtain ⟨top, others, hframes, hguarded⟩ := hin.dropped rfl
    refine ⟨hin.world, ?_⟩
    rw [hframes, hguarded]
    exact Nat.add_comm _ _
  · have hin := within_steps body (show _ = ([] : Frames) ++ [[]] from rfl) hplays
    obtain ⟨kept, -, hframes, hguarded⟩ := hin.finished result rfl
    obtain rfl := finishing_dropped hfinish
    refine ⟨?_, ?_⟩
    · rw [others_append]
      exact congrArg (others · rest) hin.world
    · show s₁.guarded = s₁.site.2.length
      rw [hframes, hguarded]
      rfl

/-- The outermost scope commits what its body keeps, or leaves the world as it is. -/
theorem outermost_finished {events : List Event} {result : Except Failure Unit}
    (h : Plays (run body).run ⟨(w, []), events, 0⟩ trace (some result) s') :
    s'.site.2 = [] ∧
      (result = .ok () ∧ (∃ kept, Keeps trace kept ∧ (others w trace).commit kept = .ok s'.site.1) ∨
        result ≠ .ok () ∧ s'.site.1 = others w trace) := by
  rcases plays_transaction h with ⟨hr, -, -⟩ | ⟨lead, back, rfl, hlead, hopened⟩
  · cases hr
  rcases hopened with ⟨hr, -⟩ | ⟨ended, s₁, inner, rest, rfl, hplays, hfinish⟩
  · cases hr
  have hin := within_steps body (show _ = ([] : Frames) ++ [[]] from rfl) hplays
  obtain ⟨kept, hkeeps, hframes, -⟩ := hin.finished ended rfl
  have hworld (last : List Moment) (call : SessionCall) (a : call.Answer) : others s₁.site.1 last =
      others w (lead ++ .answered .begin (.ok ()) :: (inner ++ (last ++ [.answered call a]))) := by
    rw [hin.world, others_append, others_answered, others_append, others_append]
    rfl
  cases ended with
  | ok value =>
    rcases plays_finishing_ok hfinish with ⟨hr, -, -⟩ | ⟨last, a, rfl, hlast, hr, hcommit, -⟩
    · cases hr
    obtain rfl := Option.some.inj hr
    have hsite : (after s₁ last).site = (others s₁.site.1 last, [kept]) := Prod.ext rfl hframes
    rw [hsite] at hcommit
    obtain ⟨hclosed, ⟨rfl, hcommitted⟩ | ⟨⟨e, rfl⟩, hsame⟩⟩ := World.commitScope_outermost hcommit
    · refine ⟨hclosed, .inl ⟨rfl, kept, ?_, by rw [← hworld, hcommitted]⟩⟩
      simpa using hlead.append (.succeeded (hkeeps.append hlast) .nil)
    · exact ⟨hclosed, .inr ⟨nofun, by rw [hsame, hworld]⟩⟩
  | error e =>
    rcases plays_finishing_error hfinish with ⟨hr, -, -⟩ | ⟨last, a, rfl, hlast, hr, hrollback, -⟩
    · cases hr
    obtain rfl := Option.some.inj hr
    have hsite : (after s₁ last).site = (others s₁.site.1 last, [] ++ [kept]) := Prod.ext rfl hframes
    rw [hsite, World.rollbackScope_append] at hrollback
    have hrolled := (Prod.mk.inj hrollback).2
    exact ⟨by rw [hrolled], .inr ⟨nofun, by rw [hrolled, hworld]⟩⟩

/-- A scope inside another leaves the frames below it, and no more than one above them. -/
theorem inside_ended (h : Ends body (w, base ++ [frame]) trace ending site') :
    ∃ top, site'.2 = base ++ [top] := by
  cases h with
  | finished h =>
    obtain ⟨kept, -, hframes, -⟩ := (within_transaction (within_steps body) rfl h).finished _ rfl
    exact ⟨_, hframes⟩
  | @dropped s' h =>
    obtain ⟨top, inner, hframes, hguarded⟩ := (within_transaction (within_steps body) rfl h).dropped rfl
    have hguarded : s'.guarded = inner.length := by simpa using hguarded
    refine ⟨top, ?_⟩
    dsimp only
    rw [hframes, hguarded, List.append_cons, Frames.repeat_abandon]

/-- However a scope ends, its session has the depth that it had.  In a session without open scopes, one that
does not succeed leaves nothing behind, and one that succeeds has committed what it keeps, at once; where its
commit was refused it has committed nothing. -/
theorem all_or_nothing {frames : Frames} (h : Ends body (w, frames) trace ending site') :
    site'.2.depth = frames.depth ∧
      (frames = [] →
        (ending ≠ .finished (.ok ()) → site'.1 = others w trace) ∧
        (ending = .finished (.ok ()) → ∃ kept, Keeps trace kept ∧
          (others w trace).commit kept = .ok site'.1 ∧
          (others w trace).database.AppliedAtOnce kept site'.1.database) ∧
        ∀ e, .answered .commit (.error e) ∈ trace → site'.1 = others w trace) := by
  obtain rfl | ⟨base, frame, rfl⟩ := List.eq_nil_or_concat frames
  · have houtermost : site'.2 = [] ∧
        (ending = .finished (.ok ()) ∧ (∃ kept, Keeps trace kept ∧ (others w trace).commit kept = .ok site'.1) ∨
          ending ≠ .finished (.ok ()) ∧ site'.1 = others w trace) := by
      cases h with
      | finished h =>
        obtain ⟨hclosed, ⟨rfl, hkept⟩ | ⟨hresult, hworld⟩⟩ := outermost_finished h
        · exact ⟨hclosed, .inl ⟨rfl, hkept⟩⟩
        · exact ⟨hclosed, .inr ⟨by simpa using hresult, hworld⟩⟩
      | dropped h =>
        obtain ⟨hworld, hguarded⟩ := outermost_dropped h
        exact ⟨by rw [hguarded]; exact Frames.repeat_abandon [] _, .inr ⟨nofun, hworld⟩⟩
    obtain ⟨hclosed, ⟨rfl, kept, hkeeps, hcommit⟩ | ⟨hending, hworld⟩⟩ := houtermost
    · refine ⟨by rw [hclosed], fun _ => ⟨(absurd rfl ·), fun _ => ?_, fun e hrefused => ?_⟩⟩
      · obtain ⟨rows, logged, hdatabase⟩ := World.commit_database hcommit
        exact ⟨kept, hkeeps, hcommit, Database.appliedAtOnce_of_commit hdatabase⟩
      · exact absurd hrefused (hkeeps.commit_ok e)
    · exact ⟨by rw [hclosed], fun _ => ⟨fun _ => hworld, fun hok => absurd hok hending, fun _ _ => hworld⟩⟩
  · rw [List.concat_eq_append] at h ⊢
    obtain ⟨top, hframes⟩ := inside_ended h
    refine ⟨by simp [hframes, Frames.depth], fun hnone => ?_⟩
    simp at hnone

/-- A world with one table of notes. -/
def notes : World :=
  let schema := .ofTables [⟨"note", [⟨"id", "integer"⟩], ["id"], []⟩]
  .empty schema schema "" ""

def writesNote (id : Int) : Query := .insert "note" [("id", .number (.integer id))]

/-- Three notes, of which the second is written in a scope that fails. -/
def noting : List Step :=
  [.execute (writesNote 1) false, .scope [.execute (writesNote 2) false, .fail "no" false] true,
    .execute (writesNote 3) false]

theorem all_or_nothing_noting :
    ∃ trace site', Ends noting (notes, []) (.answered .begin (.ok ()) :: .other [writesNote 4] :: trace)
        (.finished (.ok ())) site' ∧
      site'.2.depth = 0 ∧ ∃ kept, Keeps (.answered .begin (.ok ()) :: .other [writesNote 4] :: trace) kept ∧
        (others (notes.tries [writesNote 4]) trace).commit kept = .ok site'.1 := by
  let entered : ScopeState := ⟨(notes.tries [writesNote 4], [[]]), [], 1⟩
  obtain ⟨trace, h⟩ := ((playable_steps noting).bind playable_finishing) entered
  obtain ⟨s', hrest⟩ : ∃ s', Plays ((runSteps noting).run.bind finishing) entered trace (some (.ok ())) s' :=
    ⟨_, h⟩
  have hends : Ends noting (notes, []) (.answered .begin (.ok ()) :: .other [writesNote 4] :: trace)
      (.finished (.ok ())) s'.site := by
    refine .finished ?_
    rw [run, transaction_eq]
    exact .answered rfl (.answered rfl (.other rfl hrest))
  obtain ⟨hdepth, hoften⟩ := all_or_nothing hends
  obtain ⟨kept, hkeeps, hcommit, -⟩ := (hoften rfl).2.1 rfl
  exact ⟨trace, _, hends, hdepth, kept, hkeeps, hcommit⟩

end Scope

end DocSync
