import DocSync.Change.Record
import DocSync.Document.Identity

/-!
A durable queue of change notifications, one first-in first-out line per channel, and the buffer of
one channel.
-/

namespace DocSync

/-- A notification before it is queued; its payload is opaque text. -/
structure NewEntry where
  table : String
  kind : ChangeKind
  primaryKey : String
  payload : Option String
  txid : Option Int
deriving DecidableEq, Repr, Inhabited

/-- A queued notification. -/
structure QueueEntry where
  id : Nat
  channel : String
  entry : NewEntry
  acked : Bool
deriving DecidableEq, Repr, Inhabited

/-- Entries in the order of their ids, which grow and are never used again. -/
structure ChangeQueue where
  entries : List QueueEntry
  lastId : Nat
deriving DecidableEq, Repr, Inhabited

namespace ChangeQueue

def empty : ChangeQueue := ⟨[], 0⟩

def push (q : ChangeQueue) (channel : String) (entry : NewEntry) : Nat × ChangeQueue :=
  (q.lastId + 1, ⟨q.entries ++ [⟨q.lastId + 1, channel, entry, false⟩], q.lastId + 1⟩)

/-- The entries of a channel that are not acknowledged. -/
def pending (q : ChangeQueue) (channel : String) : List QueueEntry :=
  q.entries.filter fun e => e.channel == channel && !e.acked

/-- The first pending entries of a channel, all of them without a limit. -/
def fetch (q : ChangeQueue) (channel : String) (limit : Option Nat) : List QueueEntry :=
  match limit with
  | some n => (q.pending channel).take n
  | none => q.pending channel

/-- A batch of the first pending entries of a channel.  The database reads the limit as a signed word, and a
negative one is no limit. -/
def fetchBatch (q : ChangeQueue) (channel : String) (limit : Nat) : List QueueEntry :=
  q.fetch channel (if limit < 1 <<< 63 then some limit else none)

/-- Whether an acknowledgement up to `id` covers an entry. -/
def covers (channel : String) (id : Int) (e : QueueEntry) : Bool :=
  e.channel == channel && !e.acked && (e.id : Int) ≤ id

/-- Acknowledges the pending entries of a channel up to an id; gives how many. -/
def ackUpTo (q : ChangeQueue) (channel : String) (id : Int) : Nat × ChangeQueue :=
  (q.entries.countP (covers channel id),
    { q with entries := q.entries.map fun e =>
        if covers channel id e then { e with acked := true } else e })

def pendingCount (q : ChangeQueue) (channel : String) : Nat := (q.pending channel).length

/-- Removes acknowledged entries of every channel; gives how many. -/
def vacuum (q : ChangeQueue) : Nat × ChangeQueue :=
  (q.entries.countP (·.acked), { q with entries := q.entries.filter (!·.acked) })

end ChangeQueue

/-- The buffer of one channel of a queue: at most `limit` entries are drained at a time, and the last
one drained is remembered until it is acknowledged. -/
structure QueueBuffer where
  channel : String
  limit : Nat
  lastDrained : Option Nat
deriving DecidableEq, Repr, Inhabited

namespace QueueBuffer

/-- A buffer that drains at least one entry at a time. -/
def onChannel (channel : String) (limit : Nat) : QueueBuffer := ⟨channel, max limit 1, none⟩

/-- A 64-bit transaction id as the queue stores it, signed. -/
def signedTxid (txid : Nat) : Int := (txid : Int).bmod (1 <<< 64)

/-- A record as an entry, with the record's JSON as payload. -/
def entryOf (r : ChangeRecord) : NewEntry :=
  ⟨r.table, r.kind, Identity.ofKey r.key.values, some r.toJson.render, some (signedTxid r.txid)⟩

def push (b : QueueBuffer) (q : ChangeQueue) (r : ChangeRecord) : ChangeQueue :=
  (q.push b.channel (entryOf r)).2

/-- The records of the first pending entries; an entry that holds no record is passed over. -/
def drain (b : QueueBuffer) (q : ChangeQueue) : List ChangeRecord × QueueBuffer :=
  let entries := q.fetch b.channel (some b.limit)
  (entries.filterMap fun e => e.entry.payload.bind ChangeRecord.ofText?,
    { b with lastDrained := entries.getLast?.map QueueEntry.id })

/-- Removes what the last drain covered. -/
def ack (b : QueueBuffer) (q : ChangeQueue) : QueueBuffer × ChangeQueue :=
  match b.lastDrained with
  | some id => ({ b with lastDrained := none }, (q.ackUpTo b.channel id).2.vacuum.2)
  | none => (b, q)

end QueueBuffer

end DocSync
