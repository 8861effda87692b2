import DocSync.Proofs.Run

/-!
What the parts of a cycle ask.  Fetching reads the session in scopes, resolving also looks documents
up, and applying also writes to the sink; none of them touches slots, buffers or checkpoints.
-/

namespace DocSync

namespace Call

def IsSelect : Call → Prop
  | .session (.execute (.select _)) => True
  | _ => False

/-- Selects and the transaction scopes around them. -/
def IsFetch : Call → Prop
  | .session (.execute (.select _)) => True
  | .session (.execute _) => False
  | .session .transactionId => False
  | .session _ => True
  | _ => False

/-- What resolving asks: selects, lookups in the index, and the pauses between their retries. -/
def IsRead (index : String) : Call → Prop
  | .session call => IsSelect (.session call)
  | .sink (.findByMeta within ..) => within = index
  | .clock _ => True
  | _ => False

/-- What resolving and fetching ask. -/
def IsLookup : Call → Prop
  | .session call => IsFetch (.session call)
  | .sink (.findByMeta ..) => True
  | .clock _ => True
  | _ => False

/-- What applying asks: selects, the sink, and the pauses between its retries. -/
def IsApply : Call → Prop
  | .session call => IsFetch (.session call)
  | .sink _ => True
  | .clock _ => True
  | _ => False

theorem IsSelect.isFetch {call : Call} (h : call.IsSelect) : call.IsFetch := by
  cases call with
  | session call =>
    cases call with
    | execute query => cases query <;> exact h
    | _ => exact h.elim
  | _ => exact h.elim

theorem IsSelect.isRead {call : Call} (index : String) (h : call.IsSelect) : call.IsRead index := by
  cases call <;> first | exact h | exact h.elim

theorem IsRead.isLookup {index : String} {call : Call} (h : call.IsRead index) : call.IsLookup := by
  cases call with
  | session call => exact IsSelect.isFetch h
  | sink call =>
    cases call with
    | findByMeta => trivial
    | _ => exact h.elim
  | clock => trivial
  | _ => exact h.elim

theorem IsFetch.isLookup {call : Call} (h : call.IsFetch) : call.IsLookup := by
  cases call <;> first | exact h | exact h.elim

theorem IsLookup.isApply {call : Call} (h : call.IsLookup) : call.IsApply := by
  cases call <;> first | exact h | exact h.elim | trivial

theorem IsFetch.isApply {call : Call} (h : call.IsFetch) : call.IsApply := h.isLookup.isApply

end Call

/-- A state with the part of it that applying leaves as it is. -/
class Framed (σ : Type) where
  Same : σ → σ → Prop
  refl : ∀ st, Same st st
  trans : ∀ {st₁ st₂ st₃}, Same st₁ st₂ → Same st₂ st₃ → Same st₁ st₃

/-- Of a writer only the ledger changes. -/
instance : Framed Writer where
  Same w w' := w'.index = w.index ∧ w'.retry = w.retry
  refl _ := ⟨rfl, rfl⟩
  trans h h' := ⟨h'.1.trans h.1, h'.2.trans h.2⟩

/-- Of a job only the ledger of its writer changes. -/
instance : Framed Job where
  Same job job' := Framed.Same job.writer job'.writer ∧ job' = { job with writer := job'.writer }
  refl _ := ⟨Framed.refl _, rfl⟩
  trans h h' := ⟨Framed.trans h.1 h'.1, by rw [h'.2, h.2]⟩

namespace Stateful

variable {σ α β : Type} [Framed σ]

/-- A routine that applies: it asks the session and the sink only, and leaves its state the same but
for ledgers, whatever the answers. -/
structure Applies (a : Stateful σ α) : Prop where
  asks : Asks Call.IsApply a
  yields : ∀ st, (a.run.run st).Yields fun r => Framed.Same st r.2

theorem Applies.keeps {a : Stateful σ α} (ha : Applies a) {others : Site → Site → Prop}
    {wiring : Wiring} {st st' : σ} {s s' : Site} {result : Except SyncError α}
    (h : Runs others wiring a st s result st' s') : Framed.Same st st' :=
  (ha.yields st).of_runs h

theorem applies_pure (value : α) : Applies (pure value : Stateful σ α) :=
  ⟨asks_pure value, fun st => Framed.refl st⟩

theorem applies_get : Applies (get : Stateful σ σ) :=
  ⟨asks_get, fun st => Framed.refl st⟩

theorem Applies.bind {a : Stateful σ β} {f : β → Stateful σ α} (ha : Applies a)
    (hf : ∀ b, Applies (f b)) : Applies (a >>= f) := by
  refine ⟨ha.asks.bind fun b => (hf b).asks, fun st => ?_⟩
  refine Program.Yields.bind ((ha.yields st).mono fun r hr => ?_)
  obtain ⟨e | b, st₁⟩ := r
  · exact hr
  · exact ((hf b).yields st₁).mono fun _ h => Framed.trans hr h

theorem Applies.map {a : Stateful σ β} (ha : Applies a) (f : β → α) : Applies (f <$> a) := by
  rw [← bind_pure_comp]
  exact ha.bind fun b => applies_pure (f b)

end Stateful

open Stateful (Applies applies_pure applies_get)

namespace Working

variable {α : Type}

theorem applies_attempt {a : Attempt SyncError α} (ha : a.Asks Call.IsApply) :
    Applies (attempt a) :=
  ⟨asks_attempt ha, fun job =>
    .bind (Program.yields_of_forall (fun _ => Framed.refl job) a.run)⟩

theorem applies_transported {a : Attempt Failure α} (ha : a.Asks Call.IsApply) :
    Applies (transported a) :=
  applies_attempt (Attempt.asks_mapError ha)

theorem applies_writing {a : Writing α} (ha : Applies a) : Applies (writing a) :=
  ⟨asks_writing ha.asks, fun job => .bind ((ha.yields job.writer).mono fun _ h => ⟨h, rfl⟩)⟩

end Working

theorem Writing.applies_reading {α : Type} {f : Writer → Attempt SyncError α}
    (hf : ∀ w, (f w).Asks Call.IsApply) : Applies (Writer.reading f) :=
  ⟨asks_reading hf, fun w =>
    .bind (Program.yields_of_forall (fun _ => Framed.refl w) (f w).run)⟩

/-! ### Fetching -/

theorem execute_asks (select : Select) : (Session.execute (.select select)).Asks Call.IsSelect :=
  ⟨trivial, fun _ => trivial⟩

theorem transaction_asks {α : Type} {body : Attempt Failure α} (h : body.Asks Call.IsFetch) :
    (Session.transaction body).Asks Call.IsFetch := by
  refine ⟨trivial, fun begun => ?_⟩
  cases begun with
  | error e => trivial
  | ok =>
    refine ⟨trivial, fun _ => Program.Asks.bind (p := body.run) h fun finished => ?_⟩
    cases finished with
    | error e => exact ⟨trivial, fun _ => ⟨trivial, fun _ => trivial⟩⟩
    | ok value =>
      refine ⟨trivial, fun committed => ?_⟩
      cases committed <;> exact ⟨trivial, fun _ => trivial⟩

namespace Fetch

theorem readRows_asks (select : Select) : (readRows select).Asks Call.IsSelect :=
  Attempt.asks_mapError (execute_asks select)

theorem childRows_asks (node : PlanNode) (join : Join) (keys : List (List (List Json))) :
    (childRows node join keys).Asks Call.IsSelect := by
  induction keys with
  | nil => exact Attempt.asks_pure _
  | cons first rest ih =>
    exact (readRows_asks _).bind fun _ => ih.bind fun _ => Attempt.asks_pure _

mutual

theorem attach_asks : ∀ (plan : Plan) (rows : List Row), (attach plan rows).Asks Call.IsSelect
  | ⟨_, children⟩, rows => by
    rw [attach]
    split
    · exact Attempt.asks_pure _
    · exact (attachSlots_asks children rows).bind fun _ => Attempt.asks_pure _

theorem attachSlots_asks : ∀ (plans : List Plan) (rows : List Row),
    (attachSlots plans rows).Asks Call.IsSelect
  | [], _ => Attempt.asks_pure _
  | child :: rest, rows => by
    rw [attachSlots]
    split
    · exact (attachSlots_asks rest rows).bind fun _ => Attempt.asks_pure _
    · exact (childRows_asks _ _ _).bind fun found => (attach_asks child _).bind fun trees =>
        (attachSlots_asks rest rows).bind fun _ => Attempt.asks_pure _

end

theorem trees_asks (plan : Plan) (select : Select) : (trees plan select).Asks Call.IsFetch :=
  transaction_asks (((readRows_asks select).bind fun rows => attach_asks plan rows).mono fun _ h => h.isFetch)

end Fetch

theorem fetchRoots_asks (plan : Plan) (filter : Filter) :
    (fetchRoots plan filter).Asks Call.IsFetch := by
  unfold fetchRoots
  split
  · exact Attempt.asks_pure _
  · exact Fetch.trees_asks _ _

theorem nextPage_asks (scan : RootScan) (plan : Plan) :
    (scan.nextPage plan).Asks Call.IsFetch := by
  unfold RootScan.nextPage
  split
  · exact Attempt.asks_pure _
  · refine (Fetch.trees_asks _ _).bind fun page => ?_
    dsimp only
    split <;> exact Attempt.asks_pure _

/-! ### Writing -/

theorem retryFrom_asks {ε α : Type} {allowed : Call → Prop} {operation : Nat → Attempt ε α}
    {retryable : ε → Bool} (hclock : ∀ call, allowed (.clock call))
    (h : ∀ n, (operation n).Asks allowed) (attempt retries delay : Nat) :
    (retryFrom operation retryable attempt retries delay).Asks allowed := by
  induction retries generalizing attempt delay with
  | zero => exact h attempt
  | succ retries ih =>
    refine Program.Asks.bind (h attempt) fun result => ?_
    cases result with
    | ok value => trivial
    | error e =>
      dsimp only
      split
      · exact ⟨hclock _, fun _ => ih (attempt + 1) (2 * delay)⟩
      · trivial

namespace Writer

variable {allowed : Call → Prop}

theorem send_asks {α : Type} (hclock : ∀ call, allowed (.clock call)) (w : Writer)
    {request : Routine (Except SinkError α)} (h : request.Asks allowed) :
    (w.send request).Asks allowed :=
  retryFrom_asks hclock (fun _ => h) _ _ _

theorem ask_asks {call : SinkCall} (h : allowed (.sink call)) : (ask call).Asks allowed :=
  ⟨h, fun _ => trivial⟩

theorem write_applies {call : Routine (Except SinkError Unit)} (h : call.Asks Call.IsApply)
    (accepted : WriteOutcome) (change : Keyed String → Keyed String) :
    Applies (write call accepted change) := by
  constructor
  · refine Stateful.asks_get.bind fun w => ?_
    refine (Stateful.asks_lift (send_asks (fun _ => trivial) w h)).bind fun result => ?_
    cases result with
    | ok => exact (Stateful.asks_set _).bind fun _ => Stateful.asks_pure _
    | error e => exact fun _ => trivial
  · refine fun w => Program.Yields.bind (p := (liftM (w.send call) : Writing _).run.run w) ?_
    rw [Stateful.lift_run]
    refine Program.Yields.bind (Program.yields_of_forall (fun result => ?_) _)
    cases result with
    | ok => exact ⟨rfl, rfl⟩
    | error e => exact Framed.refl w

theorem upsert_applies (d : Document) : Applies (upsert d) := by
  refine applies_get.bind fun w => ?_
  split
  · exact applies_pure _
  · exact write_applies (ask_asks trivial) _ _

theorem delete_applies (identity : String) : Applies (delete identity) :=
  applies_get.bind fun _ => write_applies (ask_asks trivial) _ _

theorem refresh_asks (w : Writer) : w.refresh.Asks Call.IsApply :=
  Attempt.asks_mapError (send_asks (fun _ => trivial) w (ask_asks trivial))

theorem findByMeta_asks (w : Writer) (table : String) (key : List (String × Json)) :
    (w.findByMeta table key).Asks (Call.IsRead w.index) :=
  Attempt.asks_mapError (send_asks (fun _ => trivial) w (ask_asks rfl))

theorem known_asks (w : Writer) : w.known.Asks Call.IsApply :=
  (Attempt.asks_mapError (send_asks (fun _ => trivial) w (ask_asks trivial))).bind fun _ =>
    Attempt.asks_pure _

theorem deleteAll_applies (identities : List String) :
    Applies (deleteAll identities) := by
  induction identities with
  | nil => exact applies_pure _
  | cons identity rest ih =>
    exact (delete_applies identity).bind fun _ => ih.bind fun _ => applies_pure _

theorem reconcile_applies (seen : List String) : Applies (reconcile seen) :=
  (Writing.applies_reading known_asks).bind fun _ => deleteAll_applies _

end Writer

/-! ### Resolving -/

namespace Resolve

variable {index : String}

theorem executeTransported_asks (select : Select) :
    (executeTransported select).Asks (Call.IsRead index) :=
  (Attempt.asks_mapError (execute_asks select)).mono fun _ h => h.isRead index

theorem climb_asks (root node : PlanNode) (rows : List Row) (above : List PlanNode) :
    (climb root node rows above).Asks (Call.IsRead index) := by
  induction above generalizing node rows with
  | nil => exact Attempt.asks_pure _
  | cons parent above ih =>
    rw [climb]
    split
    · exact Attempt.asks_pure _
    · dsimp only
      split
      · exact Attempt.asks_pure _
      · exact (executeTransported_asks _).bind fun parents => ih parent parents

theorem changedRow_asks (node : PlanNode) (r : ChangeRecord) :
    (changedRow node r).Asks (Call.IsRead index) := by
  unfold changedRow
  split
  · exact Attempt.asks_pure _
  · exact (executeTransported_asks _).bind fun _ => Attempt.asks_pure _

theorem walkToRoots_asks (root : PlanNode) (path : List PlanNode) (r : ChangeRecord) :
    (walkToRoots root path r).Asks (Call.IsRead index) := by
  unfold walkToRoots
  split
  · exact Attempt.asks_pure _
  · refine (changedRow_asks _ r).bind fun row => ?_
    split
    · exact Attempt.asks_pure _
    · exact climb_asks _ _ _ _

theorem lookUp_asks (writer : Writer) (root node : PlanNode) (keys : List Row)
    (found : Resolution) : (lookUp writer root node keys found).Asks (Call.IsRead writer.index) := by
  induction keys generalizing found with
  | nil => exact Attempt.asks_pure _
  | cons key rest ih => exact (Writer.findByMeta_asks _ _ _).bind fun _ => ih _

theorem resolveNested_asks (writer : Writer) (root : PlanNode) (r : ChangeRecord)
    (paths : List (List PlanNode)) (found : Resolution) :
    (resolveNested writer root r paths found).Asks (Call.IsRead writer.index) := by
  induction paths generalizing found with
  | nil => exact Attempt.asks_pure _
  | cons path rest ih =>
    cases path with
    | nil => exact ih found
    | cons node above =>
      exact (lookUp_asks _ _ _ _ _).bind fun _ => (walkToRoots_asks _ _ _).bind fun _ => ih _

theorem resolveFrom_asks (plan : Plan) (writer : Writer) (records : List ChangeRecord)
    (found : Resolution) : (resolveFrom plan writer records found).Asks (Call.IsRead writer.index) := by
  induction records generalizing found with
  | nil => exact Attempt.asks_pure _
  | cons r rest ih =>
    rw [resolveFrom]
    split
    · exact (Attempt.asks_pure _).bind fun found => ih found
    · exact (resolveNested_asks _ _ _ _ _).bind fun found => ih found

end Resolve

theorem resolve_reads (plan : Plan) (writer : Writer) (records : List ChangeRecord) :
    (resolve plan writer records).Asks (Call.IsRead writer.index) :=
  Resolve.resolveFrom_asks _ _ _ _

theorem resolve_asks (plan : Plan) (writer : Writer) (records : List ChangeRecord) :
    (resolve plan writer records).Asks Call.IsLookup :=
  (resolve_reads plan writer records).mono fun _ h => h.isLookup

/-! ### Applying -/

namespace Job

open Working

theorem fetchKeys_applies (keys : List (List Json)) : Applies (fetchKeys keys) :=
  applies_get.bind fun _ =>
    applies_transported ((fetchRoots_asks _ _).mono fun _ h => h.isApply)

theorem writeTree_applies (stats : CycleStats) (seen : List String) (tree : RowTree) :
    Applies (writeTree stats seen tree) := by
  refine applies_get.bind fun job => ?_
  split
  · exact applies_pure _
  · exact (applies_writing (Writer.upsert_applies _)).bind fun _ => applies_pure _

theorem writeTrees_applies (trees : List RowTree) (stats : CycleStats) (seen : List String) :
    Applies (writeTrees trees stats seen) := by
  induction trees generalizing stats seen with
  | nil => exact applies_pure _
  | cons tree rest ih => exact (writeTree_applies _ _ _).bind fun (stats, seen) => ih stats seen

theorem scanPages_applies (scan : RootScan) (pages : Nat) (stats : CycleStats) (seen : List String) :
    Applies (scanPages scan pages stats seen) := by
  induction pages generalizing scan stats seen with
  | zero => exact applies_attempt trivial
  | succ pages ih =>
    refine applies_get.bind fun job => ?_
    refine (applies_transported ((nextPage_asks _ _).mono fun _ h => h.isApply)).bind
      fun (page, scan) => ?_
    dsimp only
    split
    · exact applies_pure _
    · exact (writeTrees_applies _ _ _).bind fun (stats, seen) => ih scan stats seen

theorem scanAll_applies (pages : Nat) (stats : CycleStats) :
    Applies (scanAll pages stats) :=
  applies_get.bind fun _ => scanPages_applies _ _ _ _

theorem rederive_applies (pages : Nat) : Applies (rederive pages) := by
  refine (scanAll_applies _ _).bind fun (stats, seen) => ?_
  refine (applies_writing (Writer.reconcile_applies _)).bind fun deleted => ?_
  exact applies_get.bind fun _ => (applies_attempt (Writer.refresh_asks _)).bind fun _ =>
    applies_pure _

theorem fetchOne_applies (op : RootOp) (stats : CycleStats) :
    Applies (fetchOne op stats) := by
  refine applies_get.bind fun job => (fetchKeys_applies _).bind fun trees => ?_
  split
  · exact applies_pure _
  · split <;> exact applies_pure _

theorem fetchUnmatched_applies (ops : List (RootOp × Option Document)) (stats : CycleStats) :
    Applies (fetchUnmatched ops stats) := by
  induction ops generalizing stats with
  | nil => exact applies_pure _
  | cons first rest ih =>
    obtain ⟨op, _ | document⟩ := first
    · exact (fetchOne_applies _ _).bind fun (document, stats) =>
        (ih stats).bind fun _ => applies_pure _
    · exact (ih stats).bind fun _ => applies_pure _

theorem settle_applies (ops : List (RootOp × Option Document)) (stats : CycleStats) :
    Applies (settle ops stats) := by
  induction ops generalizing stats with
  | nil => exact applies_pure _
  | cons first rest ih =>
    obtain ⟨op, _ | document⟩ := first
    · exact (applies_writing (Writer.delete_applies _)).bind fun _ => ih _
    · exact (applies_writing (Writer.upsert_applies _)).bind fun _ => ih _

theorem applyChunk_applies (ops : List RootOp) (stats : CycleStats) :
    Applies (applyChunk ops stats) := by
  refine (fetchKeys_applies _).bind fun trees => applies_get.bind fun job => ?_
  dsimp only
  split
  · exact settle_applies _ _
  · exact (fetchUnmatched_applies _ _).bind fun (matched, stats) => settle_applies _ _

theorem applyChunks_applies (ops : List (List RootOp)) (stats : CycleStats) :
    Applies (applyChunks ops stats) := by
  induction ops generalizing stats with
  | nil => exact applies_pure _
  | cons first rest ih => exact (applyChunk_applies _ _).bind fun stats => ih stats

theorem applyOps_applies (ops : List RootOp) (stats : CycleStats) :
    Applies (applyOps ops stats) :=
  applies_get.bind fun _ => applyChunks_applies _ _

theorem applyRecords_applies (pages : Nat) (records : List ChangeRecord) (stats : CycleStats) :
    Applies (applyRecords pages records stats) := by
  refine applies_get.bind fun job => ?_
  refine (applies_attempt ((resolve_asks _ _ _).mono fun _ h => h.isApply)).bind fun resolution => ?_
  have hrefresh (stats : CycleStats) : Applies (do
      if stats.mutations > 0 then attempt (← get).writer.refresh
      return stats : Working CycleStats) := by
    split
    · exact applies_get.bind fun _ => (applies_attempt (Writer.refresh_asks _)).bind fun _ =>
        applies_pure _
    · exact applies_pure _
  refine (applyOps_applies _ _).bind fun stats => ?_
  split
  · exact ((scanAll_applies _ _).map _).bind hrefresh
  · exact (applies_pure _).bind hrefresh

end Job

end DocSync
