import DocSync.Job.Basic

/-!
The cycles of a job.  A full resync re-derives every root and deletes what has no root any more; a
receive cycle re-derives the roots that a window of the log and the buffer touch.  Either writes the
documents first, then saves the checkpoint, then releases the log, and last acknowledges the buffer.

Loops over pages take an allowance of pages; a program that needs more is `spent`.
-/

namespace DocSync.Job

open Working

/-- Opens the job's slot, once. -/
def openSlot : Working String := do
  let job ← get
  match job.slot with
  | some slot => return slot
  | none =>
    let name := job.options.slotName
    let slot ← orFatal ((Source.openSlot name).mapError
      (·.within ("Failed to open replication slot " ++ name)))
    set { job with slot := some slot, phase := .slotReady }
    return slot

/-- The stored transaction id up to which everything is applied, if there is one. -/
def checkpoint : Working (Option Nat) := do
  let job ← get
  orFatal (Checkpoints.load job.options.index)

/-- The highest transaction id whose effects are final. -/
def currentTxmax : Working Nat :=
  transported (Session.transactionId.mapError (·.within "Failed to read current transaction id"))

def drain : Working (List ChangeRecord) := transported Buffer.drain

def ack : Working Unit := transported Buffer.ack

/-- Saves the checkpoint first and then releases the log behind it. -/
def persist (slot : String) (txmax : Nat) : Working Unit := do
  let job ← get
  let _ ← orFatal ((Checkpoints.save job.options.index txmax).mapError
    (·.within "Failed to persist checkpoint"))
  transported ((Source.reclaim slot txmax).mapError
    (·.within ("Failed to reclaim slot " ++ slot ++ " up to " ++ toString txmax)))

/-- Reads a window page by page.  A page that covers fewer entries than asked for is the last; entries
that left no record count too. -/
def pullPages (slot : String) (window : TxWindow) (most : Nat) : Nat → Nat →
    Attempt Failure (List ChangeRecord)
  | 0, _ => ExceptT.mk .spent
  | pages + 1, offset => do
    let page ← (Source.pull slot window most offset).mapError
      (·.within ("Failed to pull changes in " ++ window.text ++ " from " ++ slot))
    if page.consumed < most then return page.records
    let others ← pullPages slot window most pages (offset + page.consumed)
    return page.records ++ others

def pullWindow (pages : Nat) (slot : String) (window : TxWindow) : Working (List ChangeRecord) := do
  let job ← get
  transported (pullPages slot window (max job.options.maxChanges 1) pages 0)

/-- Writes the document of a root row; one that does not compile is skipped. -/
def writeTree (stats : CycleStats) (seen : List String) (tree : RowTree) :
    Working (CycleStats × List String) := do
  let job ← get
  match job.plan.compile job.options.index tree with
  | .error e => return (stats.skip e.message, seen)
  | .ok document =>
    let outcome ← writing (Writer.upsert document)
    return (stats.record outcome, seen ++ [document.identity])

def writeTrees : List RowTree → CycleStats → List String → Working (CycleStats × List String)
  | [], stats, seen => return (stats, seen)
  | tree :: rest, stats, seen => do
    let (stats, seen) ← writeTree stats seen tree
    writeTrees rest stats seen

/-- Writes the pages of a scan; gives the identities written. -/
def scanPages (scan : RootScan) : Nat → CycleStats → List String →
    Working (CycleStats × List String)
  | 0, _, _ => attempt (ExceptT.mk .spent)
  | pages + 1, stats, seen => do
    let job ← get
    let (page, scan) ← transported (scan.nextPage job.plan)
    match page with
    | none => return (stats, seen)
    | some trees =>
      let (stats, seen) ← writeTrees trees stats seen
      scanPages scan pages stats seen

/-- Writes every root document. -/
def scanAll (pages : Nat) (stats : CycleStats) : Working (CycleStats × List String) := do
  let job ← get
  scanPages (.start job.options.batchSize) pages stats []

/-- Re-derives every root and deletes documents without a root. -/
def rederive (pages : Nat) : Working CycleStats := do
  let (stats, seen) ← scanAll pages .empty
  let deleted ← writing (Writer.reconcile seen)
  attempt (← get).writer.refresh
  return { stats with deleted := stats.deleted + deleted }

/-- Re-derives every root, deletes documents without a root, and moves the checkpoint to the
transaction id read before the scan. -/
def fullResync (pages : Nat) : Working CycleStats := do
  let slot ← openSlot
  let _ ← drain
  let txmax ← currentTxmax
  enter .applying
  let stats ← rederive pages
  enter .reclaiming
  persist slot txmax
  ack
  enter .idle
  return stats

/-- Whether a fetched key is the one asked for. -/
def keyMatches (actual expected : List Json) : Bool :=
  actual.length == expected.length
    && (actual.zip expected).all fun (a, e) => a.sqlMatches e

/-- Removes an item by putting the last one in its place. -/
def swapRemove (items : List α) (position : Nat) : List α :=
  match items.getLast? with
  | none => items
  | some last =>
    if position + 1 = items.length then items.dropLast else (items.set position last).dropLast

/-- Takes the document whose root key matches `key` out of those fetched. -/
def takeMatching (fetched : List (List Json × Document)) (key : List Json) :
    Option Document × List (List Json × Document) :=
  match fetched.findIdx? fun entry => keyMatches entry.1 key with
  | some position =>
    (fetched[position]?.map Prod.snd, swapRemove fetched position)
  | none => (none, fetched)

/-- Matches the operations of a chunk in turn with what was fetched for it. -/
def matchOps : List RootOp → List (List Json × Document) →
    List (RootOp × Option Document) × List (List Json × Document)
  | [], fetched => ([], fetched)
  | op :: rest, fetched =>
    let (document, left) := takeMatching fetched op.key
    let (matched, left) := matchOps rest left
    ((op, document) :: matched, left)

/-- Compiles fetched trees; one that does not compile is skipped. -/
def compileTrees (job : Job) : List RowTree → CycleStats →
    CycleStats × List (List Json × Document)
  | [], stats => (stats, [])
  | tree :: rest, stats =>
    match job.plan.compile job.options.index tree with
    | .error e => compileTrees job rest (stats.skip e.message)
    | .ok document =>
      let (stats, others) := compileTrees job rest stats
      (stats, (tree.row.tuple job.plan.node.primaryKey, document) :: others)

def fetchKeys (keys : List (List Json)) : Working (List RowTree) := do
  let job ← get
  transported (fetchRoots job.plan (.among job.plan.node.primaryKey keys))

/-- Fetches and compiles the one root an operation names, if its row exists. -/
def fetchOne (op : RootOp) (stats : CycleStats) : Working (Option Document × CycleStats) := do
  let job ← get
  match ← fetchKeys [op.key] with
  | [] => return (none, stats)
  | tree :: _ =>
    match job.plan.compile job.options.index tree with
    | .ok document => return (some document, stats)
    | .error e => return (none, stats.skip e.message)

/-- Fetches one by one the roots that a chunk's fetch did not match, for rows whose key is written
differently in the change record. -/
def fetchUnmatched : List (RootOp × Option Document) → CycleStats →
    Working (List (RootOp × Option Document) × CycleStats)
  | [], stats => return ([], stats)
  | (op, some document) :: rest, stats => do
    let (others, stats) ← fetchUnmatched rest stats
    return ((op, some document) :: others, stats)
  | (op, none) :: rest, stats => do
    let (document, stats) ← fetchOne op stats
    let (others, stats) ← fetchUnmatched rest stats
    return ((op, document) :: others, stats)

/-- Upserts the roots that have a document and deletes the others, in order. -/
def settle : List (RootOp × Option Document) → CycleStats → Working CycleStats
  | [], stats => return stats
  | (op, document) :: rest, stats => do
    let outcome ← match document with
      | some document => writing (Writer.upsert document)
      | none => writing (Writer.delete op.identity)
    settle rest (stats.record outcome)

/-- Re-derives the roots of one chunk. -/
def applyChunk (ops : List RootOp) (stats : CycleStats) : Working CycleStats := do
  let trees ← fetchKeys (ops.map RootOp.key)
  let (stats, fetched) := compileTrees (← get) trees stats
  let (matched, left) := matchOps ops fetched
  if left.isEmpty then settle matched stats
  else
    let (matched, stats) ← fetchUnmatched matched stats
    settle matched stats

def applyChunks : List (List RootOp) → CycleStats → Working CycleStats
  | [], stats => return stats
  | ops :: rest, stats => do
    let stats ← applyChunk ops stats
    applyChunks rest stats

/-- Re-derives the given roots in order, those without a null in their key. -/
def applyOps (ops : List RootOp) (stats : CycleStats) : Working CycleStats := do
  let job ← get
  applyChunks
    (chunks (max job.options.batchSize 1) (ops.filter fun op => !op.key.any Json.isNull)) stats

/-- What a receive cycle reads before it applies anything: its slot, the window after the checkpoint,
and the records of the slot's log and of the buffer. -/
structure Reading where
  slot : String
  window : TxWindow
  pulled : List ChangeRecord
  buffered : List ChangeRecord
deriving Repr, Inhabited

namespace Reading

/-- Whether there is nothing to apply. -/
def isEmpty (r : Reading) : Bool := r.window.isEmpty && r.buffered.isEmpty

/-- The records that are coalesced: those of the log, then those of the buffer. -/
def records (r : Reading) : List ChangeRecord := r.pulled ++ r.buffered

end Reading

/-- Reads the transactions after the checkpoint and what the buffer holds. -/
def readChanges (pages : Nat) : Working Reading := do
  let slot ← openSlot
  let txmin := (← checkpoint).getD 0
  let txmax ← currentTxmax
  let window : TxWindow := ⟨txmin, max txmax txmin⟩
  enter .windowOpen
  let buffered ← drain
  if window.isEmpty && buffered.isEmpty then return ⟨slot, window, [], []⟩
  enter .applying
  let pulled ← if window.isEmpty then pure [] else pullWindow pages slot window
  return ⟨slot, window, pulled, buffered⟩

/-- Re-derives the roots that records touch, every root where the sink cannot look them up. -/
def applyRecords (pages : Nat) (records : List ChangeRecord) (stats : CycleStats) :
    Working CycleStats := do
  let job ← get
  let resolution ← attempt (resolve job.plan job.writer (coalesce job.plan records))
  let stats ← applyOps resolution.ops { stats with changes := records.length }
  let stats ← if resolution.rederiveAll then Prod.fst <$> scanAll pages stats else pure stats
  if stats.mutations > 0 then attempt (← get).writer.refresh
  return stats

/-- Applies what was read, then moves the checkpoint to the end of the window and acknowledges. -/
def applyReading (pages : Nat) (reading : Reading) : Working CycleStats := do
  let stats := { CycleStats.empty with window := some reading.window }
  if reading.isEmpty then
    enter .idle
    return stats
  let stats ← applyRecords pages reading.records stats
  enter .reclaiming
  if !reading.window.isEmpty then persist reading.slot reading.window.txmax
  ack
  enter .idle
  return stats

/-- One receive cycle over the transactions after the checkpoint and what the buffer holds.  A failure
before the checkpoint is saved leaves the window to the next cycle. -/
def receiveOnce (pages : Nat) : Working CycleStats := do
  let reading ← readChanges pages
  applyReading pages reading

/-- Waits for buffered activity, then runs one receive cycle. -/
def step (pages milliseconds : Nat) : Working CycleStats := do
  let _ ← transported (Buffer.wait milliseconds)
  receiveOnce pages

end DocSync.Job
