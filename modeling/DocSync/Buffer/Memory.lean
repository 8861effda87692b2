import DocSync.Change.Record

/-!
A buffer of change notifications in memory.
-/

namespace DocSync

/-- Pending records in order of arrival, and how many of them the last drain returned. -/
structure MemoryBuffer where
  pending : List ChangeRecord
  drained : Nat
deriving Repr, Inhabited

namespace MemoryBuffer

def empty : MemoryBuffer := ⟨[], 0⟩

def push (b : MemoryBuffer) (r : ChangeRecord) : MemoryBuffer :=
  { b with pending := b.pending ++ [r] }

/-- Every pending record; they stay pending until they are acknowledged. -/
def drain (b : MemoryBuffer) : List ChangeRecord × MemoryBuffer :=
  (b.pending, { b with drained := b.pending.length })

/-- Removes what the last drain returned. -/
def ack (b : MemoryBuffer) : MemoryBuffer :=
  { b with pending := b.pending.drop b.drained, drained := 0 }

end MemoryBuffer

end DocSync
