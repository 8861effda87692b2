import DocSync.Failure

/-!
Failures on demand: the next calls at a point fail.
-/

namespace DocSync

/-- Where a call can be made to fail. -/
inductive FaultPoint where
  | execute
  | transactionId
  | begin
  | openSlot
  | pull
  | reclaim
  | drain
  | ack
  | wait
  | load
  | save
deriving DecidableEq, Repr, Inhabited

namespace FaultPoint

def name : FaultPoint → String
  | execute => "execute"
  | transactionId => "txid"
  | begin => "begin"
  | openSlot => "open_slot"
  | pull => "pull"
  | reclaim => "reclaim"
  | drain => "drain"
  | ack => "ack"
  | wait => "wait"
  | load => "load"
  | save => "save"

def all : List FaultPoint :=
  [execute, transactionId, begin, openSlot, pull, reclaim, drain, ack, wait, load, save]

def ofName? (text : String) : Option FaultPoint := all.find? (·.name == text)

def failure (p : FaultPoint) : Failure := .ofText ("injected " ++ p.name ++ " failure")

end FaultPoint

/-- How many of the next calls fail, point by point. -/
structure Faults where
  armed : List (FaultPoint × Nat)
deriving Repr, Inhabited

namespace Faults

def none : Faults := ⟨[]⟩

def count (f : Faults) (p : FaultPoint) : Nat :=
  match f.armed.find? (·.1 == p) with
  | some (_, n) => n
  | Option.none => 0

/-- Lets the next `count` calls at a point fail. -/
def arm (f : Faults) (p : FaultPoint) (count : Nat) : Faults :=
  ⟨(p, count) :: f.armed.filter (·.1 != p)⟩

/-- Makes a call at a point: whether it fails, and what is left armed. -/
def strike (f : Faults) (p : FaultPoint) : Bool × Faults :=
  match f.count p with
  | 0 => (false, f)
  | n + 1 => (true, f.arm p n)

end Faults

end DocSync
