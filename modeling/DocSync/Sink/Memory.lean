import DocSync.Document.Compile
import DocSync.Json.Order
import DocSync.Sink.Error

/-!
A document sink in memory, which counts its calls and fails on demand.
-/

namespace DocSync

structure MemorySink where
  /-- Documents by index, then by identity in order. -/
  indices : Keyed (Keyed Document)
  upserts : Nat
  deletes : Nat
  refreshes : Nat
  /-- How many of the next writes and refreshes fail. -/
  failures : Nat
  /-- Identities whose upserts are refused. -/
  rejected : List String
  /-- Whether it looks up `_meta`, and whether it lists identities. -/
  looksUp : Bool
  enumerates : Bool
deriving Repr, Inhabited

namespace MemorySink

def empty (looksUp enumerates : Bool) : MemorySink := ⟨[], 0, 0, 0, 0, [], looksUp, enumerates⟩

/-- The documents of an index by identity. -/
def stored (s : MemorySink) (index : String) : Keyed Document := s.indices.getD index []

def documents (s : MemorySink) (index : String) : List Document := (s.stored index).values

/-- Upserts and deletes that reached the store. -/
def writes (s : MemorySink) : Nat := s.upserts + s.deletes

/-- Runs an operation unless it is to fail. -/
def unlessFailing (s : MemorySink) (operation : Except SinkError Unit × MemorySink) :
    Except SinkError Unit × MemorySink :=
  if s.failures = 0 then operation
  else (.error (.unavailable "injected failure"), { s with failures := s.failures - 1 })

def upsert (s : MemorySink) (d : Document) : Except SinkError Unit × MemorySink :=
  s.unlessFailing <|
    if s.rejected.contains d.identity then
      (.error (.rejected d.identity "rejected by test sink"), s)
    else
      (.ok (), { s with
        indices := s.indices.put d.index ((s.stored d.index).putSorted d.identity d)
        upserts := s.upserts + 1 })

/-- Deletes a document; one that is not there is no error. -/
def delete (s : MemorySink) (index identity : String) : Except SinkError Unit × MemorySink :=
  s.unlessFailing <|
    if (s.stored index).contains identity then
      (.ok (), { s with
        indices := s.indices.put index ((s.stored index).erase identity)
        deletes := s.deletes + 1 })
    else (.ok (), s)

def refresh (s : MemorySink) : Except SinkError Unit × MemorySink :=
  s.unlessFailing (.ok (), { s with refreshes := s.refreshes + 1 })

/-- Whether a document lists every value of a key under a table. -/
def lists (table : String) (key : List (String × Json)) (d : Document) : Bool :=
  match (d.meta?.bind fun found => found.get? table).bind Json.object? with
  | none => false
  | some columns =>
    key.all fun (column, value) =>
      match (Keyed.get? columns column).bind Json.array? with
      | none => false
      | some values => values.any fun v => Json.compare v value == .eq

def findByMeta (s : MemorySink) (index table : String) (key : List (String × Json)) :
    Option (List String) :=
  if s.looksUp then
    some (((s.documents index).filter (lists table key)).map Document.identity)
  else none

def identities (s : MemorySink) (index : String) : Option (List String) :=
  if s.enumerates then some (s.stored index).keys else none

end MemorySink

end DocSync
