import DocSync.Service.Call

/-!
Retrying with a delay that doubles.
-/

namespace DocSync

/-- How often to retry, and how long to wait before the first time. -/
structure RetryPolicy where
  retries : Nat
  delay : Nat
deriving DecidableEq, Repr, Inhabited

namespace RetryPolicy

/-- Three retries, the first after half a second. -/
def standard : RetryPolicy := ⟨3, 500⟩

def none : RetryPolicy := ⟨0, 0⟩

end RetryPolicy

/-- Runs an operation until it succeeds, fails with an error that is not worth retrying, or has been
retried `retries` times; the operation is told how often it ran before. -/
def retryFrom {ε α : Type} (operation : Nat → Attempt ε α) (retryable : ε → Bool) (attempt : Nat) :
    Nat → Nat → Attempt ε α
  | 0, _ => operation attempt
  | retries + 1, delay => .ofRoutine do
    match ← (operation attempt).run with
    | .ok value => return .ok value
    | .error e =>
      if retryable e then
        Clock.sleep delay
        (retryFrom operation retryable (attempt + 1) retries (2 * delay)).run
      else return .error e

/-- Runs an operation under a policy. -/
def RetryPolicy.attempt {ε α : Type} (policy : RetryPolicy) (operation : Attempt ε α)
    (retryable : ε → Bool) : Attempt ε α :=
  retryFrom (fun _ => operation) retryable 0 policy.retries policy.delay

end DocSync
