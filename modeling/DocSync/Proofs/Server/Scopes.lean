import DocSync.Proofs.Server.Transactions
import DocSync.Proofs.Simulation.Backlog
import DocSync.Proofs.Simulation.Scopes

/-!
Programs of nested transaction scopes, where a scope ends with a success, ends with a failure, or is
dropped while its body waits and the scope around it goes on.  A session on a server rolls a dropped
scope back only before its next statement or scope, so a scope that succeeds right after it dropped
another ends the wrong one.  Main statement: where no scope does that, the outermost scope commits the
statements of the scopes that succeeded, and of no others, as a session in memory does.
-/

namespace DocSync

/-- What a program of scopes asks: its session, or that the innermost guarded scope be dropped. -/
inductive ScopeCall where
  | session (call : SessionCall)
  | abandon

@[reducible] def ScopeCall.Answer : ScopeCall → Type
  | session call => call.Answer
  | abandon => Unit

abbrev Scoping := Program ScopeCall ScopeCall.Answer

namespace Scope

/-! ### Scopes that end, and scopes that are dropped -/

def askSession (call : SessionCall) : Scoping call.Answer := Program.request (ScopeCall.session call)

/-- A scope whose body ends with a result. -/
def ended (body : Scoping Unit) (result : Except Failure Unit) : Scoping (Except Failure Unit) :=
  (transaction askSession (ExceptT.mk (body.bind fun _ => .done result))).run

/-- A scope up to the end of its body: it may fail to begin. -/
def opening (body : Scoping Unit) : Scoping (Except Failure Unit) :=
  (askSession .begin).bind fun
    | .error e => .done (.error e)
    | .ok () => (askSession .enter).bind fun _ => body.bind fun _ => .done (.ok ())

/-- A scope after the end of its body. -/
def closing (result : Except Failure Unit) : Scoping (Except Failure Unit) :=
  match result with
  | .ok () => (askSession .commit).bind fun closed => (askSession .leave).bind fun _ => .done closed
  | .error e => (askSession .rollback).bind fun _ => (askSession .leave).bind fun _ => .done (.error e)

theorem ended_eq (body : Scoping Unit) (result : Except Failure Unit) :
    ended body result = (opening body).bind fun
      | .error e => .done (.error e)
      | .ok () => closing result := by
  unfold opening
  rw [Program.bind_assoc]
  change (askSession .begin).bind _ = _
  congr 1
  funext begun
  cases begun with
  | error e => rfl
  | ok =>
    rw [Program.bind_assoc]
    change (askSession .enter).bind _ = _
    congr 1
    funext _
    change Program.bind (Program.bind body fun _ => .done result) _ = _
    rw [Program.bind_assoc, Program.bind_assoc]
    congr 1
    funext _
    cases result with
    | error e => rfl
    | ok =>
      change (askSession .commit).bind _ = (askSession .commit).bind _
      congr 1
      funext closed
      cases closed <;> rfl

/-- A scope that is dropped while its body waits: what was opened is abandoned. -/
def dropped (body : Scoping Unit) : Scoping Unit :=
  (opening body).bind fun
    | .error _ => .done ()
    | .ok () => Program.request ScopeCall.abandon

end Scope

/-- How a scope ends. -/
inductive Ending where
  | succeeded
  | failed (e : Failure)
  | dropped

/-- A part of a body: a statement, or a scope with its own body. -/
inductive Nested where
  | statement (query : Query)
  | scope (body : List Nested) (ending : Ending)

namespace Nested

mutual

/-- The program of one part; what it gives is passed over. -/
def run : Nested → Scoping Unit
  | statement query => (Scope.askSession (.execute query)).bind fun _ => .done ()
  | scope body .succeeded => (Scope.ended (runAll body) (.ok ())).bind fun _ => .done ()
  | scope body (.failed e) => (Scope.ended (runAll body) (.error e)).bind fun _ => .done ()
  | scope body .dropped => Scope.dropped (runAll body)

def runAll : List Nested → Scoping Unit
  | [] => .done ()
  | part :: rest => part.run.bind fun _ => runAll rest

end

mutual

/-- The statements that are to stay: those of no scope that failed or was dropped. -/
def kept : Nested → List Query
  | statement query => [query]
  | scope body .succeeded => keptAll body
  | scope _ (.failed _) => []
  | scope _ .dropped => []

def keptAll : List Nested → List Query
  | [] => []
  | part :: rest => part.kept ++ keptAll rest

end

mutual

/-- After the part some scope was dropped and waits to be rolled back. -/
def waits : Nested → Bool
  | statement _ => false
  | scope _ .succeeded => false
  | scope body (.failed _) => waitsAll body
  | scope _ .dropped => true

def waitsAll : List Nested → Bool
  | [] => false
  | [part] => part.waits
  | _ :: rest => waitsAll rest

end

mutual

/-- No scope of the part succeeds while a scope inside it waits to be rolled back. -/
def settles : Nested → Bool
  | statement _ => true
  | scope body .succeeded => settlesAll body && !waitsAll body
  | scope body (.failed _) => settlesAll body
  | scope body .dropped => settlesAll body

def settlesAll : List Nested → Bool
  | [] => true
  | part :: rest => part.settles && settlesAll rest

end

end Nested

/-! ### On a server -/

namespace ServerSession

open Backend (scopeName)

/-- How a session on a server that accepts every statement may answer a program of scopes. -/
def Replies : (call : ScopeCall) → Connection → call.Answer → Connection → Prop
  | .session call, x, a, x' => (answer call x.1).Talks Backend.Replies x.2 (a, x'.1) x'.2
  | .abandon, x, _, x' => x' = (x.1.abandon, x.2)

variable {schema : String} {committed : List String} {level : Level} {levels rest : List Level}
  {x x' : Connection} {body : Scoping Unit}

theorem enter_talks {u : Unit} (h : (Scope.askSession .enter).Talks Replies x u x') : x' = x := by
  obtain ⟨hsession, hserver⟩ := Program.talks_done.mp (Program.talks_request.mp h)
  exact Prod.ext (Prod.mk.inj hsession).2 hserver

theorem leave_talks {u : Unit} (h : (Scope.askSession .leave).Talks Replies x u x') : x' = x := by
  obtain ⟨hsession, hserver⟩ := Program.talks_done.mp (Program.talks_request.mp h)
  exact Prod.ext (Prod.mk.inj hsession).2 hserver

/-- A scope opens on top of those that do not wait, and runs its body there. -/
theorem opening_talks {r : Except Failure Unit} (h : Stands schema committed levels x)
    (htalks : (Scope.opening body).Talks Replies x r x') :
    r = .ok () ∧ ∃ x₁ u, Stands schema committed (⟨scopeName levels.length, []⟩ :: levels) x₁ ∧
      x₁.1.abandoned = 0 ∧ body.Talks Replies x₁ u x' := by
  obtain ⟨begun, x₁, hbegin, hopened⟩ := Program.talks_bind.mp htalks
  obtain ⟨rfl, hstands, hnone⟩ := begin_talks h (Program.talks_request.mp hbegin)
  obtain ⟨_, x₂, henter, hentered⟩ := Program.talks_bind.mp hopened
  obtain rfl := enter_talks henter
  obtain ⟨u, x₃, hbody, hdone⟩ := Program.talks_bind.mp hentered
  obtain ⟨rfl, rfl⟩ := Program.talks_done.mp hdone
  exact ⟨rfl, x₂, u, hstands, hnone, hbody⟩

theorem closing_ok_talks {r : Except Failure Unit}
    (htalks : (Scope.closing (.ok ())).Talks Replies x r x') :
    Talks commit x r x' := by
  obtain ⟨closed, x₁, hcommit, hrest⟩ := Program.talks_bind.mp htalks
  obtain ⟨_, x₂, hleave, hdone⟩ := Program.talks_bind.mp hrest
  obtain rfl := leave_talks hleave
  obtain ⟨rfl, rfl⟩ := Program.talks_done.mp hdone
  exact Program.talks_request.mp hcommit

theorem closing_error_talks {e : Failure} {r : Except Failure Unit}
    (htalks : (Scope.closing (.error e)).Talks Replies x r x') :
    ∃ r', Talks rollback x r' x' := by
  obtain ⟨closed, x₁, hrollback, hrest⟩ := Program.talks_bind.mp htalks
  obtain ⟨_, x₂, hleave, hdone⟩ := Program.talks_bind.mp hrest
  obtain rfl := leave_talks hleave
  obtain ⟨rfl, rfl⟩ := Program.talks_done.mp hdone
  exact ⟨closed, Program.talks_request.mp hrollback⟩

/-- A scope that ends, taken apart. -/
theorem ended_talks {result r : Except Failure Unit} (h : Stands schema committed levels x)
    (htalks : (Scope.ended body result).Talks Replies x r x') :
    ∃ x₁ u x₂, Stands schema committed (⟨scopeName levels.length, []⟩ :: levels) x₁ ∧
      x₁.1.abandoned = 0 ∧ body.Talks Replies x₁ u x₂ ∧
      (Scope.closing result).Talks Replies x₂ r x' := by
  rw [Scope.ended_eq] at htalks
  obtain ⟨opened, x₂, hopening, hclosing⟩ := Program.talks_bind.mp htalks
  obtain ⟨rfl, x₁, u, hstands, hnone, hbody⟩ := opening_talks h hopening
  exact ⟨x₁, u, x₂, hstands, hnone, hbody, hclosing⟩

/-- The innermost scope after some statements. -/
def added (schema : String) (level : Level) (queries : List Query) : Level :=
  ⟨level.name, level.statements ++ queries.map (Sql.render schema)⟩

theorem added_append (schema : String) (level : Level) (queries more : List Query) :
    added schema (added schema level queries) more = added schema level (queries ++ more) := by
  simp [added]

mutual

/-- A part leaves the scopes around it as they were, and adds the statements that are to stay to the
innermost. -/
theorem run_talks : ∀ (part : Nested) {level : Level} {rest : List Level} {x x' : Connection} {u : Unit},
    part.settles = true → Stands schema committed (level :: rest) x → part.run.Talks Replies x u x' →
    Stands schema committed (added schema level part.kept :: rest) x' ∧
      (part.waits = false → x'.1.abandoned = 0)
  | .statement query, level, rest, x, x', u, _, h, htalks => by
    rw [Nested.run] at htalks
    obtain ⟨rows, x₁, hexecute, hdone⟩ := Program.talks_bind.mp htalks
    obtain ⟨-, rfl⟩ := Program.talks_done.mp hdone
    obtain ⟨hstands, hnone⟩ := statement_talks h (Program.talks_request.mp hexecute)
    exact ⟨hstands, fun _ => hnone⟩
  | .scope body .succeeded, level, rest, x, x', u, hsettles, h, htalks => by
    rw [Nested.run] at htalks
    rw [Nested.settles, Bool.and_eq_true, Bool.not_eq_true'] at hsettles
    obtain ⟨r, x₁, hended, hdone⟩ := Program.talks_bind.mp htalks
    obtain ⟨-, rfl⟩ := Program.talks_done.mp hdone
    obtain ⟨x₂, _, x₃, hstands, hnone, hbody, hclosing⟩ := ended_talks h hended
    obtain ⟨hinner, hwaits⟩ := runAll_talks body hsettles.1 hstands hbody
    have hnone' := hwaits (fun _ => hnone) hsettles.2
    obtain ⟨-, houter, hnone''⟩ := commit_talks hinner hnone' (closing_ok_talks hclosing)
    exact ⟨houter, fun _ => hnone''⟩
  | .scope body (.failed e), level, rest, x, x', u, hsettles, h, htalks => by
    rw [Nested.run] at htalks
    rw [Nested.settles] at hsettles
    obtain ⟨r, x₁, hended, hdone⟩ := Program.talks_bind.mp htalks
    obtain ⟨-, rfl⟩ := Program.talks_done.mp hdone
    obtain ⟨x₂, _, x₃, hstands, hnone, hbody, hclosing⟩ := ended_talks h hended
    obtain ⟨hinner, hwaits⟩ := runAll_talks body hsettles hstands hbody
    obtain ⟨_, hrollback⟩ := closing_error_talks hclosing
    -- what waits inside is rolled back in place of the scope itself, which waits then in its place
    obtain ⟨-, houter, hsame⟩ := rollback_talks hinner hrollback
    rw [Nested.kept, Nested.waits]
    refine ⟨by simpa [added] using houter, fun hbodyWaits => ?_⟩
    rw [hsame]
    exact hwaits (fun _ => hnone) hbodyWaits
  | .scope body .dropped, level, rest, x, x', u, hsettles, h, htalks => by
    rw [Nested.run] at htalks
    rw [Nested.settles] at hsettles
    obtain ⟨opened, x₁, hopening, hrest⟩ := Program.talks_bind.mp htalks
    obtain ⟨rfl, x₂, _, hstands, hnone, hbody⟩ := opening_talks h hopening
    obtain ⟨hinner, -⟩ := runAll_talks body hsettles hstands hbody
    obtain rfl := Program.talks_request.mp hrest
    rw [Nested.kept, Nested.waits]
    exact ⟨by simpa [added] using hinner.abandon, fun hfalse => by contradiction⟩

theorem runAll_talks : ∀ (parts : List Nested) {level : Level} {rest : List Level} {x x' : Connection}
    {u : Unit}, Nested.settlesAll parts = true → Stands schema committed (level :: rest) x →
    (Nested.runAll parts).Talks Replies x u x' →
    Stands schema committed (added schema level (Nested.keptAll parts) :: rest) x' ∧
      ((parts = [] → x.1.abandoned = 0) → Nested.waitsAll parts = false → x'.1.abandoned = 0)
  | [], level, rest, x, x', u, _, h, htalks => by
    rw [Nested.runAll] at htalks
    obtain ⟨-, rfl⟩ := Program.talks_done.mp htalks
    rw [Nested.keptAll]
    exact ⟨by simpa [added] using h, fun hnone _ => hnone rfl⟩
  | part :: parts, level, rest, x, x', u, hsettles, h, htalks => by
    rw [Nested.runAll] at htalks
    rw [Nested.settlesAll, Bool.and_eq_true] at hsettles
    obtain ⟨_, x₁, hpart, hparts⟩ := Program.talks_bind.mp htalks
    obtain ⟨hstands, hwaits⟩ := run_talks part hsettles.1 h hpart
    obtain ⟨hstands', hwaits'⟩ := runAll_talks parts hsettles.2 hstands hparts
    rw [added_append] at hstands'
    rw [Nested.keptAll]
    refine ⟨hstands', fun _ hnone => ?_⟩
    cases parts with
    | nil => exact hwaits' (fun _ => hwaits hnone) rfl
    | cons next parts => exact hwaits' (fun hnil => by contradiction) hnone

end

end ServerSession

/-! ### In memory -/

namespace World

/-- How a session in memory may answer a program of scopes, where it accepts every statement. -/
def ScopeReplies : (call : ScopeCall) → Site → call.Answer → Site → Prop
  | .session (.execute query), s, a, s' =>
    (∃ rows, a = .ok rows) ∧ (a, s') = answerSession (.ofSink "") (.execute query) s
  | .session call, s, a, s' => (a, s') = answerSession (.ofSink "") call s
  | .abandon, s, _, s' => s' = (s.1, s.2.abandon)

variable {w : World} {base : Frames} {frame outer : List Query} {s' : Site} {body : Scoping Unit}

theorem statement_replies {query : Query} {a : Except Failure (List Row)}
    (h : (Scope.askSession (.execute query)).Talks ScopeReplies (w, base ++ [frame]) a s') :
    s' = (w, base ++ [frame ++ [query].filter Query.writes]) := by
  obtain ⟨⟨rows, rfl⟩, hanswer⟩ := Program.talks_request.mp h
  change (_, s') = execute (w, base ++ [frame]) query at hanswer
  unfold execute at hanswer
  split at hanswer
  · rename_i result hexecute
    obtain ⟨hlogged, hframes, hdatabase⟩ := Frames.execute_append hexecute
    rw [hlogged, hframes, hdatabase] at hanswer
    exact (Prod.mk.inj hanswer).2
  · obtain ⟨hfalse, -⟩ := Prod.mk.inj hanswer
    contradiction

theorem opening_replies {f : Frames} {r : Except Failure Unit}
    (h : (Scope.opening body).Talks ScopeReplies (w, f) r s') :
    r = .ok () ∧ ∃ u, body.Talks ScopeReplies (w, f ++ [[]]) u s' := by
  obtain ⟨begun, s₁, hbegin, hopened⟩ := Program.talks_bind.mp h
  obtain ⟨rfl, rfl⟩ := Prod.mk.inj (Program.talks_request.mp hbegin)
  obtain ⟨_, s₂, henter, hentered⟩ := Program.talks_bind.mp hopened
  obtain ⟨-, rfl⟩ := Prod.mk.inj (Program.talks_request.mp henter)
  obtain ⟨u, s₃, hbody, hdone⟩ := Program.talks_bind.mp hentered
  obtain ⟨rfl, rfl⟩ := Program.talks_done.mp hdone
  exact ⟨rfl, u, hbody⟩

theorem closing_ok_replies {s : Site} {r : Except Failure Unit}
    (h : (Scope.closing (.ok ())).Talks ScopeReplies s r s') : (r, s') = commitScope s := by
  obtain ⟨closed, s₁, hcommit, hclosed⟩ := Program.talks_bind.mp h
  obtain ⟨_, s₂, hleave, hdone⟩ := Program.talks_bind.mp hclosed
  obtain ⟨-, rfl⟩ := Prod.mk.inj (Program.talks_request.mp hleave)
  obtain ⟨rfl, rfl⟩ := Program.talks_done.mp hdone
  exact Program.talks_request.mp hcommit

theorem closing_error_replies {f : Frames} {e : Failure} {r : Except Failure Unit}
    (h : (Scope.closing (.error e)).Talks ScopeReplies (w, f ++ [frame]) r s') : s' = (w, f) := by
  obtain ⟨closed, s₁, hrollback, hclosed⟩ := Program.talks_bind.mp h
  obtain ⟨_, s₂, hleave, hdone⟩ := Program.talks_bind.mp hclosed
  obtain ⟨-, rfl⟩ := Prod.mk.inj (Program.talks_request.mp hleave)
  obtain ⟨rfl, rfl⟩ := Program.talks_done.mp hdone
  have hanswer : (closed, s') = rollbackScope (w, f ++ [frame]) := Program.talks_request.mp hrollback
  rw [rollbackScope_append] at hanswer
  exact (Prod.mk.inj hanswer).2

theorem ended_replies {f : Frames} {result r : Except Failure Unit}
    (h : (Scope.ended body result).Talks ScopeReplies (w, f) r s') :
    ∃ u s₁, body.Talks ScopeReplies (w, f ++ [[]]) u s₁ ∧
      (Scope.closing result).Talks ScopeReplies s₁ r s' := by
  rw [Scope.ended_eq] at h
  obtain ⟨opened, s₁, hopening, hclosing⟩ := Program.talks_bind.mp h
  obtain ⟨rfl, u, hbody⟩ := opening_replies hopening
  exact ⟨u, s₁, hbody, hclosing⟩

mutual

/-- A part adds the writes that are to stay to the frame around it. -/
theorem run_replies : ∀ (part : Nested) {base : Frames} {frame : List Query} {s' : Site} {u : Unit},
    part.run.Talks ScopeReplies (w, base ++ [frame]) u s' →
    s' = (w, base ++ [frame ++ part.kept.filter Query.writes])
  | .statement query, base, frame, s', u, h => by
    rw [Nested.run] at h
    obtain ⟨rows, s₁, hexecute, hdone⟩ := Program.talks_bind.mp h
    obtain ⟨-, rfl⟩ := Program.talks_done.mp hdone
    exact statement_replies hexecute
  | .scope body .succeeded, base, frame, s', u, h => by
    rw [Nested.run] at h
    obtain ⟨r, s₁, hended, hdone⟩ := Program.talks_bind.mp h
    obtain ⟨-, rfl⟩ := Program.talks_done.mp hdone
    obtain ⟨_, s₂, hbody, hclosing⟩ := ended_replies hended
    obtain rfl := runAll_replies body hbody
    have hcommit := closing_ok_replies hclosing
    rw [commitScope_inner] at hcommit
    exact (Prod.mk.inj hcommit).2
  | .scope body (.failed e), base, frame, s', u, h => by
    rw [Nested.run] at h
    obtain ⟨r, s₁, hended, hdone⟩ := Program.talks_bind.mp h
    obtain ⟨-, rfl⟩ := Program.talks_done.mp hdone
    obtain ⟨_, s₂, hbody, hclosing⟩ := ended_replies hended
    obtain rfl := runAll_replies body hbody
    rw [closing_error_replies hclosing, Nested.kept]
    simp
  | .scope body .dropped, base, frame, s', u, h => by
    rw [Nested.run] at h
    obtain ⟨opened, s₁, hopening, hrest⟩ := Program.talks_bind.mp h
    obtain ⟨rfl, _, hbody⟩ := opening_replies hopening
    obtain rfl := runAll_replies body hbody
    obtain rfl := Program.talks_request.mp hrest
    rw [Nested.kept]
    simp [Frames.abandon]

theorem runAll_replies : ∀ (parts : List Nested) {base : Frames} {frame : List Query} {s' : Site}
    {u : Unit}, (Nested.runAll parts).Talks ScopeReplies (w, base ++ [frame]) u s' →
    s' = (w, base ++ [frame ++ (Nested.keptAll parts).filter Query.writes])
  | [], base, frame, s', u, h => by
    rw [Nested.runAll] at h
    obtain ⟨-, rfl⟩ := Program.talks_done.mp h
    rw [Nested.keptAll]
    simp
  | part :: parts, base, frame, s', u, h => by
    rw [Nested.runAll] at h
    obtain ⟨_, s₁, hpart, hparts⟩ := Program.talks_bind.mp h
    obtain rfl := run_replies part hpart
    rw [runAll_replies parts hparts, Nested.keptAll, List.filter_append, List.append_assoc]

end

end World

namespace Scope

/-- A book is added. -/
def adds (isbn : String) : Nested := .statement (.insert "book" [("isbn", .string isbn)])

end Scope

end DocSync
