/-!
Programs that ask their surroundings.  A program either has its value, or asks something and goes on
with the answer, or has used up the allowance of steps it was given.  Who answers is left open: a
database in memory, a script, or anyone at all.
-/

namespace DocSync

/-- A program with requests `Request`, each with its own type of answers. -/
inductive Program (Request : Type) (Answer : Request → Type) (α : Type) where
  | done (value : α)
  | ask (request : Request) (next : Answer request → Program Request Answer α)
  | spent

namespace Program

variable {Request : Type} {Answer : Request → Type} {α β σ : Type}

def bind : Program Request Answer α → (α → Program Request Answer β) → Program Request Answer β
  | done value, f => f value
  | ask request next, f => ask request fun answer => (next answer).bind f
  | spent, _ => spent

instance : Monad (Program Request Answer) where
  pure := done
  bind := bind

/-- Asks and returns the answer. -/
def request (r : Request) : Program Request Answer (Answer r) := ask r done

@[simp] theorem done_bind (a : α) (f : α → Program Request Answer β) :
    (done a).bind f = f a := rfl

theorem bind_done (p : Program Request Answer α) : p.bind done = p := by
  induction p with
  | done => rfl
  | ask r next ih => simp [bind, ih]
  | spent => rfl

theorem bind_assoc {γ : Type} (p : Program Request Answer α) (f : α → Program Request Answer β)
    (g : β → Program Request Answer γ) : (p.bind f).bind g = p.bind fun a => (f a).bind g := by
  induction p with
  | done => rfl
  | ask r next ih => simp [bind, ih]
  | spent => rfl

instance : LawfulMonad (Program Request Answer) :=
  LawfulMonad.mk' _ (fun p => bind_done p) (fun _ _ => rfl) bind_assoc

/-- The value of a program and the state of whoever answered it, or nothing when it spent its
allowance. -/
def run (answer : (r : Request) → σ → Answer r × σ) :
    Program Request Answer α → σ → Option α × σ
  | done value, s => (some value, s)
  | ask r next, s => run answer (next (answer r s).1) (answer r s).2
  | spent, s => (none, s)

/-- Runs a program as long as its requests are answered; one that is not leaves it hanging there. -/
def runWhile (answer : (r : Request) → σ → Option (Answer r) × σ) :
    Program Request Answer α → σ → Option α × σ
  | done value, s => (some value, s)
  | ask r next, s =>
    match answer r s with
    | (some a, s') => runWhile answer (next a) s'
    | (none, s') => (none, s')
  | spent, s => (none, s)

/-- Answers each request by a program over other requests, with a state of its own. -/
def interpret {Request' : Type} {Answer' : Request' → Type}
    (answer : (r : Request) → σ → Program Request' Answer' (Answer r × σ)) :
    Program Request Answer α → σ → Program Request' Answer' (α × σ)
  | done value, s => done (value, s)
  | ask r next, s => (answer r s).bind fun (a, s') => interpret answer (next a) s'
  | spent, _ => spent

end Program

end DocSync
