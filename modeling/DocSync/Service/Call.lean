import DocSync.Change.Record
import DocSync.Change.Window
import DocSync.Document.Compile
import DocSync.Program
import DocSync.Service.Session
import DocSync.Sink.Error

/-!
What a sync job asks of its surroundings: a relational session, the slot of a change log, a buffer of
notifications, a document sink, a checkpoint store, and a clock.
-/

namespace DocSync

/-- A page of a log: how many entries it covers, and the records left of them. -/
structure ChangePage where
  records : List ChangeRecord
  consumed : Nat
deriving Repr, Inhabited

/-- A page where every entry became a record. -/
def ChangePage.unfiltered (records : List ChangeRecord) : ChangePage := ⟨records, records.length⟩

/-- Requests to a change log: open a slot by name, read `most` entries of a window after the first
`offset`, and release the log up to a transaction. -/
inductive SourceCall where
  | openSlot (name : String)
  | pull (slot : String) (window : TxWindow) (most offset : Nat)
  | reclaim (slot : String) (upTo : Nat)

@[reducible] def SourceCall.Answer : SourceCall → Type
  | openSlot _ => Except Failure String
  | pull .. => Except Failure ChangePage
  | reclaim .. => Except Failure Unit

/-- Requests to a buffer: read what is pending, remove what was read last, and wait for more. -/
inductive BufferCall where
  | drain
  | ack
  | wait (milliseconds : Nat)

@[reducible] def BufferCall.Answer : BufferCall → Type
  | drain => Except Failure (List ChangeRecord)
  | ack => Except Failure Unit
  | wait _ => Except Failure Bool

/-- Requests to a sink.  A lookup finds the documents whose `_meta` lists every value of a key under
its table; sinks that cannot look up or enumerate answer nothing. -/
inductive SinkCall where
  | upsert (document : Document)
  | delete (index identity : String)
  | refresh (index : String)
  | findByMeta (index table : String) (key : List (String × Json))
  | identities (index : String)

@[reducible] def SinkCall.Answer : SinkCall → Type
  | upsert _ => Except SinkError Unit
  | delete .. => Except SinkError Unit
  | refresh _ => Except SinkError Unit
  | findByMeta .. => Except SinkError (Option (List String))
  | identities _ => Except SinkError (Option (List String))

/-- Requests to a checkpoint store: the stored transaction id of an index, and to raise it. -/
inductive StoreCall where
  | load (index : String)
  | save (index : String) (txmin : Nat)

@[reducible] def StoreCall.Answer : StoreCall → Type
  | load _ => Except Failure (Option Nat)
  | save .. => Except Failure Nat

/-- How a wait ended that the stop signal may cut short. -/
inductive Wakening (α : Type) where
  | stopped
  | woken (answer : α)
deriving Repr

/-- Requests to the clock.  A sleep lasts the given time and a jitter of up to a tenth; a pause and an
idle wait on the buffer end early at the stop signal. -/
inductive ClockCall where
  | sleep (milliseconds : Nat)
  | pause (milliseconds : Nat)
  | idle (milliseconds : Nat)

@[reducible] def ClockCall.Answer : ClockCall → Type
  | sleep _ => Unit
  | pause _ => Wakening Unit
  | idle _ => Wakening (Except Failure Bool)

/-- A request of a job. -/
inductive Call where
  | session (call : SessionCall)
  | source (call : SourceCall)
  | buffer (call : BufferCall)
  | sink (call : SinkCall)
  | store (call : StoreCall)
  | clock (call : ClockCall)

@[reducible] def Call.Answer : Call → Type
  | session call => call.Answer
  | source call => call.Answer
  | buffer call => call.Answer
  | sink call => call.Answer
  | store call => call.Answer
  | clock call => call.Answer

/-- A program of job requests. -/
abbrev Routine := Program Call Call.Answer

/-- A routine that may fail. -/
abbrev Attempt (ε α : Type) := ExceptT ε Routine α

namespace Attempt

variable {ε ε' α : Type}

/-- Runs a routine whose answer is a success or a failure. -/
def ofRoutine (r : Routine (Except ε α)) : Attempt ε α := ExceptT.mk r

def mapError (f : ε → ε') (a : Attempt ε α) : Attempt ε' α :=
  ExceptT.mk do
    match ← a.run with
    | .ok value => return .ok value
    | .error e => return .error (f e)

end Attempt

namespace Session

def execute (query : Query) : Attempt Failure (List Row) :=
  .ofRoutine (Program.request (Call.session (.execute query)))

def transactionId : Attempt Failure Nat :=
  .ofRoutine (Program.request (Call.session .transactionId))

/-- Runs `body` in a transaction scope of the job's session. -/
def transaction {α : Type} (body : Attempt Failure α) : Attempt Failure α :=
  Scope.transaction (fun call => Program.request (Call.session call)) body

end Session

namespace Source

def openSlot (name : String) : Attempt Failure String :=
  .ofRoutine (Program.request (Call.source (.openSlot name)))

def pull (slot : String) (window : TxWindow) (most offset : Nat) : Attempt Failure ChangePage :=
  .ofRoutine (Program.request (Call.source (.pull slot window most offset)))

def reclaim (slot : String) (upTo : Nat) : Attempt Failure Unit :=
  .ofRoutine (Program.request (Call.source (.reclaim slot upTo)))

end Source

namespace Buffer

def drain : Attempt Failure (List ChangeRecord) :=
  .ofRoutine (Program.request (Call.buffer .drain))

def ack : Attempt Failure Unit := .ofRoutine (Program.request (Call.buffer .ack))

def wait (milliseconds : Nat) : Attempt Failure Bool :=
  .ofRoutine (Program.request (Call.buffer (.wait milliseconds)))

end Buffer

namespace Checkpoints

def load (index : String) : Attempt Failure (Option Nat) :=
  .ofRoutine (Program.request (Call.store (.load index)))

def save (index : String) (txmin : Nat) : Attempt Failure Nat :=
  .ofRoutine (Program.request (Call.store (.save index txmin)))

end Checkpoints

namespace Clock

def sleep (milliseconds : Nat) : Routine Unit :=
  Program.request (Call.clock (.sleep milliseconds))

def pause (milliseconds : Nat) : Routine (Wakening Unit) :=
  Program.request (Call.clock (.pause milliseconds))

def idle (milliseconds : Nat) : Routine (Wakening (Except Failure Bool)) :=
  Program.request (Call.clock (.idle milliseconds))

end Clock

end DocSync
