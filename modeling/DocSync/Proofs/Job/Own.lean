import DocSync.Proofs.Job.Aside
import DocSync.Proofs.Job.Parts

/-!
What a job keeps to.  Main statement: whatever it is answered, a cycle uses the slot and the index of its
job and no others, runs no statement but selects, and closes the scopes that it opens and no others.
-/

namespace DocSync

/-- The calls that keep to the index and the slot of a job, and open or close nothing. -/
def Call.IsSteady (opts : SyncOptions) : Call → Prop
  | .session (.execute query) => IsSelect (.session (.execute query))
  | .session .transactionId => True
  | .session .enter => True
  | .session .leave => True
  | .session _ => False
  | .source (.openSlot _) => False
  | .source (.pull slot ..) => slot = opts.slotName
  | .source (.reclaim slot _) => slot = opts.slotName
  | .buffer .drain => True
  | .buffer .ack => True
  | .buffer (.wait _) => False
  | .sink (.upsert d) => d.index = opts.index
  | .sink (.delete index _) => index = opts.index
  | .sink (.refresh _) => True
  | .sink (.findByMeta index ..) => index = opts.index
  | .sink (.identities index) => index = opts.index
  | .store (.load index) => index = opts.index
  | .store (.save index _) => index = opts.index
  | .clock _ => True

theorem Call.IsSelect.isSteady {call : Call} {opts : SyncOptions} (h : call.IsSelect) :
    call.IsSteady opts := by
  cases call with
  | session call => cases call <;> first | exact h | exact h.elim
  | _ => exact h.elim

theorem Call.IsRead.isSteady {call : Call} {opts : SyncOptions} (h : call.IsRead opts.index) :
    call.IsSteady opts := by
  cases call with
  | session call => exact IsSelect.isSteady h
  | sink call => cases call <;> first | exact h | exact h.elim
  | clock => trivial
  | _ => exact h.elim

/-- The calls that are a job's own where it has `depth` scopes open. -/
def Call.IsOwn (opts : SyncOptions) (depth : Nat) : Call → Prop
  | .session .begin => True
  | .session .commit => 0 < depth
  | .session .rollback => 0 < depth
  | .source (.openSlot name) => name = opts.slotName
  | call => call.IsSteady opts

namespace Own

/-- How many scopes are open after an answer; nothing where a slot was opened that was not asked for. -/
def next (opts : SyncOptions) (depth : Nat) : (call : Call) → call.Answer → Option Nat
  | .session .begin, .ok () => some (depth + 1)
  | .session .commit, _ => some (depth - 1)
  | .session .rollback, _ => some (depth - 1)
  | .source (.openSlot _), .ok slot => if slot = opts.slotName then some depth else none
  | _, _ => some depth

/-- A job makes its own calls as long as it is given its own slot. -/
def rules (opts : SyncOptions) : CallRules (Option Nat) where
  -- After another slot anything is allowed: a source in memory never gives one.
  allows stage call := ∀ depth, stage = some depth → call.IsOwn opts depth
  next stage call answer := stage.bind fun depth => next opts depth call answer

variable {opts : SyncOptions} {depth : Nat} {σ ε ε' α β : Type}

theorem allows_some {call : Call} :
    (rules opts).allows (some depth) call ↔ call.IsOwn opts depth := by
  simp [rules]

theorem allows_of_steady {call : Call} (h : call.IsSteady opts) : call.IsOwn opts depth := by
  cases call with
  | session call => cases call <;> first | exact h | exact h.elim
  | source call => cases call <;> first | exact h | exact h.elim
  | _ => exact h

theorem next_of_steady {call : Call} (h : call.IsSteady opts) (answer : call.Answer) :
    next opts depth call answer = some depth := by
  cases call with
  | session call => cases call <;> first | rfl | exact h.elim
  | source call => cases call <;> first | rfl | exact h.elim
  | _ => rfl

/-- Nothing is asked of a program that was given another slot. -/
theorem follows_lost {ends : α → Option Nat → Prop} (hends : ∀ value, ends value none) (p : Routine α) :
    p.Follows (rules opts) ends none := by
  induction p with
  | done value => exact hends value
  | spent => trivial
  | ask call next ih => exact ⟨nofun, fun answer => ih answer⟩

theorem follows_steady {ends : α → Option Nat → Prop} {p : Routine α} (hasks : p.Asks (Call.IsSteady opts))
    (hends : ∀ value, ends value (some depth)) : p.Follows (rules opts) ends (some depth) := by
  have hyields : p.Yields fun _ => True := Program.yields_of_forall (fun _ => trivial) p
  refine Program.Follows.of_asks hasks hyields ?_ ?_ fun value _ => hends value
  · exact fun call hcall => allows_some.mpr (allows_of_steady hcall)
  · exact fun call hcall answer => next_of_steady hcall answer

/-- A result comes where as many scopes are open as before, and is as it should be. -/
def Level (depth : Nat) (inv : σ → Prop) (ends : α → Prop) :
    Except ε α × σ → Option Nat → Prop :=
  fun r stage => stage = none ∨ stage = some depth ∧ inv r.2 ∧ ∀ value, r.1 = .ok value → ends value

/-- From a state as it should be the routine makes its job's own calls, closes what it opens, and leaves
state and value as they should be. -/
def Keeps (opts : SyncOptions) (inv : σ → Prop) (ends : α → Prop) (a : Stateful σ α) : Prop :=
  ∀ depth st, inv st → (a.run.run st).Follows (rules opts) (Level depth inv ends) (some depth)

/-- The same for a routine without a state. -/
def Closes (opts : SyncOptions) (ends : α → Prop) (a : Attempt ε α) : Prop :=
  ∀ depth, a.run.Follows (rules opts)
    (fun r stage => stage = none ∨ stage = some depth ∧ ∀ value, r = .ok value → ends value) (some depth)

section

variable {inv : σ → Prop} {ends : α → Prop} {begins : β → Prop}

theorem keeps_pure {value : α} (h : ends value) : Keeps opts inv ends (pure value : Stateful σ α) :=
  fun _ _ hinv => .inr ⟨rfl, hinv, fun _ hvalue => Except.ok.inj hvalue ▸ h⟩

theorem Keeps.bind {a : Stateful σ β} {f : β → Stateful σ α} (ha : Keeps opts inv begins a)
    (hf : ∀ b, begins b → Keeps opts inv ends (f b)) : Keeps opts inv ends (a >>= f) := by
  intro depth st hinv
  refine Program.Follows.bind (Program.Follows.mono (fun r stage hr => ?_) (ha depth st hinv))
  obtain ⟨e | b, st₁⟩ := r
  · rcases hr with rfl | ⟨rfl, hinv₁, -⟩
    · exact .inl rfl
    · exact .inr ⟨rfl, hinv₁, nofun⟩
  · rcases hr with rfl | ⟨rfl, hinv₁, hb⟩
    · exact follows_lost (fun _ => .inl rfl) _
    · exact hf b (hb b rfl) depth st₁ hinv₁

theorem keeps_get_bind {f : σ → Stateful σ α} (h : ∀ st, inv st → Keeps opts inv ends (f st)) :
    Keeps opts inv ends (get >>= f) :=
  fun depth st hinv => h st hinv depth st hinv

theorem keeps_set {st : σ} (h : inv st) : Keeps opts inv (fun _ => True) (set st : Stateful σ PUnit) :=
  fun _ _ _ => .inr ⟨rfl, h, fun _ _ => trivial⟩

theorem keeps_lift {p : Routine α} (hasks : p.Asks (Call.IsSteady opts)) :
    Keeps opts inv (fun _ => True) (liftM p : Stateful σ α) := by
  intro depth st hinv
  rw [Stateful.lift_run]
  refine Program.Follows.bind (follows_steady hasks fun value => ?_)
  exact .inr ⟨rfl, hinv, fun _ _ => trivial⟩

theorem closes_pure {value : α} : Closes opts (fun _ => True) (pure value : Attempt ε α) :=
  fun _ => .inr ⟨rfl, fun _ _ => trivial⟩

theorem closes_steady {a : Attempt ε α} (hasks : a.Asks (Call.IsSteady opts)) :
    Closes opts (fun _ => True) a :=
  fun _ => follows_steady hasks fun _ => .inr ⟨rfl, fun _ _ => trivial⟩

theorem Closes.bind {a : Attempt ε β} {f : β → Attempt ε α} (ha : Closes opts (fun _ => True) a)
    (hf : ∀ b, Closes opts ends (f b)) : Closes opts ends (a >>= f) := by
  intro depth
  refine Program.Follows.bind (Program.Follows.mono (fun r stage hr => ?_) (ha depth))
  rcases hr with rfl | ⟨rfl, -⟩
  · cases r with
    | ok b => exact follows_lost (fun _ => .inl rfl) _
    | error e => exact .inl rfl
  · cases r with
    | ok b => exact hf b depth
    | error e => exact .inr ⟨rfl, nofun⟩

theorem Closes.mapError {a : Attempt ε α} (ha : Closes opts ends a) (f : ε → ε') :
    Closes opts ends (a.mapError f) := by
  intro depth
  refine Program.Follows.bind (Program.Follows.mono (fun r stage hr => ?_) (ha depth))
  rcases hr with rfl | ⟨rfl, hends⟩
  · cases r <;> exact .inl rfl
  · cases r with
    | ok value => exact .inr ⟨rfl, fun _ hvalue => hends _ (congrArg _ (Except.ok.inj hvalue))⟩
    | error e => exact .inr ⟨rfl, nofun⟩

/-- A scope around selects is closed, however it ends. -/
theorem closes_transaction {body : Attempt Failure α} (hasks : body.Asks Call.IsSelect) :
    Closes opts (fun _ => True) (Session.transaction body) := by
  intro depth
  refine ⟨allows_some.mpr trivial, fun begun => ?_⟩
  cases begun with
  | error e => exact .inr ⟨rfl, fun _ _ => trivial⟩
  | ok =>
    have hbody : body.run.Asks (Call.IsSteady opts) :=
      Program.Asks.mono (fun _ hcall => hcall.isSteady) hasks
    refine ⟨allows_some.mpr trivial, fun _ => ?_⟩
    refine Program.Follows.bind (p := body.run) (follows_steady hbody fun finished => ?_)
    cases finished with
    | error e =>
      refine ⟨allows_some.mpr (Nat.succ_pos depth), fun _ => ⟨allows_some.mpr trivial, fun _ => ?_⟩⟩
      exact .inr ⟨rfl, fun _ _ => trivial⟩
    | ok value =>
      refine ⟨allows_some.mpr (Nat.succ_pos depth), fun committed => ?_⟩
      cases committed <;>
        exact ⟨allows_some.mpr trivial, fun _ => .inr ⟨rfl, fun _ _ => trivial⟩⟩

/-! ### Writers -/

/-- The writer of the job's index. -/
def Writes (opts : SyncOptions) (w : Writer) : Prop := w.index = opts.index

theorem write_keeps {request : Routine (Except SinkError Unit)} (hrequest : request.Asks (Call.IsSteady opts))
    (accepted : WriteOutcome) (change : Keyed String → Keyed String) :
    Keeps opts (Writes opts) (fun _ => True) (Writer.write request accepted change) := by
  refine keeps_get_bind fun w hw => ?_
  refine (keeps_lift (Writer.send_asks (fun _ => trivial) w hrequest)).bind fun result _ => ?_
  cases result with
  | ok =>
    have hset : Writes opts { w with ledger := change w.ledger } := hw
    exact (keeps_set hset).bind fun _ _ => keeps_pure trivial
  | error e => exact fun _ _ hinv => .inr ⟨rfl, hinv, fun _ _ => trivial⟩

theorem upsert_keeps {d : Document} (hindex : d.index = opts.index) :
    Keeps opts (Writes opts) (fun _ => True) (Writer.upsert d) := by
  refine keeps_get_bind fun w _ => ?_
  split
  · exact keeps_pure trivial
  · exact write_keeps (Writer.ask_asks hindex) _ _

theorem delete_keeps (identity : String) :
    Keeps opts (Writes opts) (fun _ => True) (Writer.delete identity) :=
  keeps_get_bind fun _ hw => write_keeps (Writer.ask_asks hw) _ _

theorem deleteAll_keeps (identities : List String) :
    Keeps opts (Writes opts) (fun _ => True) (Writer.deleteAll identities) := by
  induction identities with
  | nil => exact keeps_pure trivial
  | cons identity rest ih =>
    exact (delete_keeps identity).bind fun _ _ => ih.bind fun _ _ => keeps_pure trivial

theorem known_keeps :
    Keeps opts (Writes opts) (fun _ => True) (Writer.reading Writer.known) := by
  intro depth w hw
  have hlisted : (Writer.ask (.identities w.index)).Asks (Call.IsSteady opts) := Writer.ask_asks hw
  have hknown : w.known.Asks (Call.IsSteady opts) :=
    (Attempt.asks_mapError (Writer.send_asks (fun _ => trivial) w hlisted)).bind fun _ => Attempt.asks_pure _
  refine Program.Follows.bind (follows_steady hknown fun result => ?_)
  exact .inr ⟨rfl, hw, fun _ _ => trivial⟩

theorem reconcile_keeps (seen : List String) :
    Keeps opts (Writes opts) (fun _ => True) (Writer.reconcile seen) :=
  known_keeps.bind fun _ _ => deleteAll_keeps _

/-! ### Jobs -/

/-- The job of an index and a slot. -/
structure IsJob (opts : SyncOptions) (job : Job) : Prop where
  options : job.options = opts
  index : job.writer.index = opts.index
  slot : ∀ slot, job.slot = some slot → slot = opts.slotName

theorem isJob_ofPlan (plan : Plan) (opts : SyncOptions) : IsJob opts (.ofPlan plan opts) :=
  ⟨rfl, rfl, nofun⟩

theorem keeps_attempt {a : Attempt SyncError α} (ha : Closes opts ends a) :
    Keeps opts (IsJob opts) ends (Working.attempt a) := by
  intro depth job hjob
  refine Program.Follows.bind (Program.Follows.mono (fun r stage hr => ?_) (ha depth))
  rcases hr with rfl | ⟨rfl, hends⟩
  · exact .inl rfl
  · exact .inr ⟨rfl, hjob, hends⟩

theorem keeps_transported {a : Attempt Failure α} (ha : Closes opts ends a) :
    Keeps opts (IsJob opts) ends (Working.transported a) :=
  keeps_attempt (ha.mapError _)

theorem keeps_orFatal {a : Attempt Failure α} (ha : Closes opts ends a) :
    Keeps opts (IsJob opts) ends (Working.orFatal a) :=
  keeps_attempt (ha.mapError _)

theorem keeps_writing {a : Writing α} (ha : Keeps opts (Writes opts) ends a) :
    Keeps opts (IsJob opts) ends (Working.writing a) := by
  intro depth job hjob
  refine Program.Follows.bind (Program.Follows.mono (fun r stage hr => ?_) (ha depth job.writer hjob.index))
  rcases hr with rfl | ⟨rfl, hwriter, hends⟩
  · exact .inl rfl
  · exact .inr ⟨rfl, ⟨hjob.options, hwriter, hjob.slot⟩, hends⟩

theorem fetchRoots_closes (plan : Plan) (filter : Filter) :
    Closes opts (fun _ => True) (fetchRoots plan filter) := by
  unfold fetchRoots
  split
  · exact closes_pure
  · exact closes_transaction ((Fetch.readRows_asks _).bind fun rows => Fetch.attach_asks plan rows)

theorem nextPage_closes (scan : RootScan) (plan : Plan) :
    Closes opts (fun _ => True) (scan.nextPage plan) := by
  unfold RootScan.nextPage
  split
  · exact closes_pure
  · have htrees (select : Select) : Closes opts (fun _ => True) (Fetch.trees plan select) :=
      closes_transaction ((Fetch.readRows_asks _).bind fun rows => Fetch.attach_asks plan rows)
    refine (htrees _).bind fun page => ?_
    dsimp only
    split <;> exact closes_pure

theorem openSlot_keeps :
    Keeps opts (IsJob opts) (fun slot => slot = opts.slotName) Job.openSlot := by
  refine keeps_get_bind fun job hjob => ?_
  split
  · rename_i slot hslot
    exact keeps_pure (hjob.slot slot hslot)
  · have hopens : Closes opts (fun slot => slot = opts.slotName) (Source.openSlot job.options.slotName) := by
      intro depth
      refine ⟨allows_some.mpr (congrArg SyncOptions.slotName hjob.options), fun answer => ?_⟩
      cases answer with
      | error e => exact .inr ⟨rfl, nofun⟩
      | ok slot =>
        by_cases hslot : slot = opts.slotName
        · exact .inr ⟨if_pos hslot, fun _ hvalue => (Except.ok.inj hvalue) ▸ hslot⟩
        · exact .inl (if_neg hslot)
    refine (keeps_orFatal (hopens.mapError _)).bind fun slot hslot => ?_
    have hset : IsJob opts { job with slot := some slot, phase := .slotReady } :=
      ⟨hjob.options, hjob.index, fun _ hsome => (Option.some.inj hsome) ▸ hslot⟩
    exact (keeps_set hset).bind fun _ _ => keeps_pure hslot

theorem persist_keeps {slot : String} (txmax : Nat) (hslot : slot = opts.slotName) :
    Keeps opts (IsJob opts) (fun _ => True) (Job.persist slot txmax) := by
  refine keeps_get_bind fun job hjob => ?_
  have hsave : (Checkpoints.save job.options.index txmax).Asks (Call.IsSteady opts) :=
    ⟨congrArg SyncOptions.index hjob.options, fun _ => trivial⟩
  have hreclaim : (Source.reclaim slot txmax).Asks (Call.IsSteady opts) := ⟨hslot, fun _ => trivial⟩
  refine (keeps_orFatal ((closes_steady hsave).mapError _)).bind fun _ _ => ?_
  exact keeps_transported ((closes_steady hreclaim).mapError _)

theorem keeps_parts : Job.Parts opts (fun slot => slot = opts.slotName) fun {_} => Keeps opts (IsJob opts) where
  pure h := keeps_pure h
  bind ha hf := ha.bind hf
  get_bind h := keeps_get_bind fun job hjob => h job hjob.options hjob.index
  enter _ := fun _ _ hjob => .inr ⟨rfl, ⟨hjob.options, hjob.index, hjob.slot⟩, fun _ _ => trivial⟩
  spent := fun _ _ _ => trivial
  fetchRoots plan filter := keeps_transported (fetchRoots_closes plan filter)
  nextPage scan plan := keeps_transported (nextPage_closes scan plan)
  resolve plan writer records hindex :=
    keeps_attempt (closes_steady ((resolve_reads plan writer records).mono fun _ hcall =>
      Call.IsRead.isSteady (hindex ▸ hcall)))
  upsert _ hindex := keeps_writing (upsert_keeps hindex)
  delete identity := keeps_writing (delete_keeps identity)
  reconcile seen := keeps_writing (reconcile_keeps seen)
  refresh writer :=
    keeps_attempt (closes_steady
      (Attempt.asks_mapError (Writer.send_asks (fun _ => trivial) writer (Writer.ask_asks trivial))))
  openSlot := openSlot_keeps
  checkpoint := keeps_get_bind fun job hjob =>
    have hload : (Checkpoints.load job.options.index).Asks (Call.IsSteady opts) :=
      ⟨congrArg SyncOptions.index hjob.options, fun _ => trivial⟩
    keeps_orFatal (closes_steady hload)
  currentTxmax :=
    have htxid : Session.transactionId.Asks (Call.IsSteady opts) := ⟨trivial, fun _ => trivial⟩
    keeps_transported ((closes_steady htxid).mapError _)
  drain :=
    have hdrain : Buffer.drain.Asks (Call.IsSteady opts) := ⟨trivial, fun _ => trivial⟩
    keeps_transported (closes_steady hdrain)
  pullWindow _ _ _ hslot :=
    keeps_get_bind fun _ _ => keeps_transported (closes_steady (Job.pullPages_asks (fun _ => hslot) _ _))
  persist _ txmax hslot := persist_keeps txmax hslot
  ack :=
    have hack : Buffer.ack.Asks (Call.IsSteady opts) := ⟨trivial, fun _ => trivial⟩
    keeps_transported (closes_steady hack)

end

end Own

end DocSync
