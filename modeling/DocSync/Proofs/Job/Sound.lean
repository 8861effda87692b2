import DocSync.Proofs.Job.Progress
import DocSync.Proofs.Simulation.Backlog

/-!
The checkpoint, the log and the buffer in the course of a cycle, while others act and calls fail.  Main
statement: each call keeps the checkpoint behind the last transaction and the release of the log behind
the checkpoint, and until the checkpoint is saved everything that was read is still there.
-/

namespace DocSync

open World

/-- An answer that reports a failure. -/
def Call.Fails : (call : Call) → call.Answer → Prop
  | .session (.execute _), .error _ => True
  | .session .transactionId, .error _ => True
  | .session .begin, .error _ => True
  | .session .commit, .error _ => True
  | .session .rollback, .error _ => True
  | .source (.openSlot _), .error _ => True
  | .source (.pull ..), .error _ => True
  | .source (.reclaim ..), .error _ => True
  | .buffer .drain, .error _ => True
  | .buffer .ack, .error _ => True
  | .buffer (.wait _), .error _ => True
  | .sink (.upsert _), .error _ => True
  | .sink (.delete ..), .error _ => True
  | .sink (.refresh _), .error _ => True
  | .sink (.findByMeta ..), .error _ => True
  | .sink (.identities _), .error _ => True
  | .store (.load _), .error _ => True
  | .store (.save ..), .error _ => True
  | _, _ => False

/-- The world answers a call, or the call fails and nothing happens. -/
inductive World.Replies (wiring : Wiring) (call : Call) (s : Site) : call.Answer → Site → Prop
  | answers : Replies wiring call s (answer wiring call s).1 (answer wiring call s).2
  | fails {a : call.Answer} : call.Fails a → Replies wiring call s a s

/-- The checkpoint and the slot of a job are safe: the checkpoint is at most the last transaction, and
the log is released up to the later of the checkpoint and the transaction where the slot was opened. -/
structure Site.Safe (wiring : Wiring) (options : SyncOptions) (s : Site) : Prop where
  reached : s.1.database.Reached
  marked : ∃ mark, s.1.mark wiring.store options.index = .ok mark ∧
    mark.getD 0 ≤ s.1.database.lastTxid ∧
    ∀ slot, s.1.database.slots.get? options.slotName = some slot →
      slot.reclaimedUpTo ≤ max (mark.getD 0) (s.1.database.openedAt slot)

/-- Nothing is lost since a cycle began: its checkpoint and the release of the log are as they were, and
what was pending is still pending. -/
structure Site.Kept (wiring : Wiring) (options : SyncOptions) (began s : Site) : Prop where
  mark : s.1.mark wiring.store options.index = began.1.mark wiring.store options.index
  slot : ∀ slot, began.1.database.slots.get? options.slotName = some slot →
    s.1.database.slots.get? options.slotName = some slot
  opened : began.1.database.slots.get? options.slotName = none → ∀ slot,
    s.1.database.slots.get? options.slotName = some slot →
      slot.reclaimedUpTo = s.1.database.openedAt slot
  pending : Gathers wiring.buffer began.1 s.1

namespace Progress

/-- What a cycle has read, against the world in which it began. -/
structure Knows (wiring : Wiring) (options : SyncOptions) (began : Site) (p : Progress) : Prop where
  slot : ∀ name, p.slot = some name → name = options.slotName
  loaded : ∀ m, p.loaded = some m →
    ∃ mark, began.1.mark wiring.store options.index = .ok mark ∧ m = mark.getD 0
  seen : ∀ txid, p.seen = some txid → began.1.database.lastTxid ≤ txid
  drained : ∀ records, p.drained = some records →
    (began.1.backlog wiring.buffer).drained ⊆ records
  pulled : p.exhausted = true → ∀ slot,
    began.1.database.slots.get? options.slotName = some slot →
      (pageThrough wiring (Database.Slot.within slot p.window began.1.database.log)).records ⊆ p.pulled

/-- The pages so far are the front of what the slot has of the window. -/
structure Paged (wiring : Wiring) (options : SyncOptions) (p : Progress) (db : Database) : Prop where
  loaded : p.loaded.isSome
  seen : p.seen.isSome
  within : ∃ slot, db.slots.get? options.slotName = some slot ∧
    p.pulled = (pageThrough wiring
      ((Database.Slot.within slot p.window db.log).take p.consumed)).records ∧
    (p.exhausted = true → (Database.Slot.within slot p.window db.log).length ≤ p.consumed)

/-- What a cycle has read is still there to be read. -/
structure Holds (wiring : Wiring) (options : SyncOptions) (p : Progress) (s : Site) : Prop where
  loaded : ∀ m, p.loaded = some m → m ≤ s.1.database.lastTxid
  seen : ∀ txid, p.seen = some txid → txid ≤ s.1.database.lastTxid
  drained : ∀ records, p.drained = some records → records ⊆ (s.1.backlog wiring.buffer).drained
  pulled : p.pulled = [] ∧ p.consumed = 0 ∧ p.exhausted = false ∨ p.Paged wiring options s.1.database

/-- What holds throughout a cycle. -/
structure Sound (wiring : Wiring) (options : SyncOptions) (began : Site) (p : Progress) (s : Site) :
    Prop where
  safe : s.Safe wiring options
  since : Database.Reaches began.1.database s.1.database
  knows : p.Knows wiring options began
  unsaved : p.stage = .working ∨ p.stage = .unsaved →
    began.Kept wiring options s ∧ p.Holds wiring options s
  saved : ∀ txid, p.stage = .saved txid →
    ∃ mark, s.1.mark wiring.store options.index = .ok mark ∧ txid ≤ mark.getD 0

end Progress

section

variable {wiring : Wiring} {options : SyncOptions} {kind : CycleKind} {began s s' : Site} {p : Progress}

theorem Site.Safe.advances (h : s.Safe wiring options) (hs : Advances s.1 s'.1) :
    s'.Safe wiring options := by
  obtain ⟨hreached, mark, hmark, hle, hslot⟩ := h
  refine ⟨hreached.trans hs.database.reaches, mark, (hs.marks.mark _ _).trans hmark,
    Nat.le_trans hle hs.database.reaches.log.1, fun slot hfound => ?_⟩
  rw [hs.database.slots] at hfound
  rw [hs.database.reaches.openedAt (hreached.logKept.start_le _ _ hfound)]
  exact hslot slot hfound

theorem Site.Kept.advances (h : began.Kept wiring options s) (hreached : s.1.database.Reached)
    (hs : Advances s.1 s'.1) (hpending : Gathers wiring.buffer s.1 s'.1) :
    began.Kept wiring options s' := by
  refine ⟨(hs.marks.mark _ _).trans h.mark, fun slot hslot => ?_, fun hnone slot hslot => ?_,
    h.pending.trans hpending⟩
  · rw [hs.database.slots]
    exact h.slot slot hslot
  · rw [hs.database.slots] at hslot
    rw [hs.database.reaches.openedAt (hreached.logKept.start_le _ _ hslot)]
    exact h.opened hnone slot hslot

namespace Progress

theorem Holds.window_le (h : p.Holds wiring options s) : p.window.txmax ≤ s.1.database.lastTxid := by
  have hloaded : p.loaded.getD 0 ≤ s.1.database.lastTxid := by
    cases hm : p.loaded with
    | none => exact Nat.zero_le _
    | some m => exact h.loaded m hm
  have hseen : p.seen.getD 0 ≤ s.1.database.lastTxid := by
    cases ht : p.seen with
    | none => exact Nat.zero_le _
    | some txid => exact h.seen txid ht
  exact Nat.max_le.mpr ⟨hseen, hloaded⟩

theorem Holds.advances (h : p.Holds wiring options s) (hs : Advances s.1 s'.1)
    (hpending : Gathers wiring.buffer s.1 s'.1) : p.Holds wiring options s' := by
  have hle := hs.database.reaches.log.1
  refine ⟨fun m hm => Nat.le_trans (h.loaded m hm) hle,
    fun txid ht => Nat.le_trans (h.seen txid ht) hle, fun records hr => List.Subset.trans (h.drained records hr) hpending.grows.drained, ?_⟩
  rcases h.pulled with hnone | ⟨hloaded, hseen, slot, hslot, hpulled, hlast⟩
  · exact .inl hnone
  · refine .inr ⟨hloaded, hseen, slot, hs.database.slots ▸ hslot, ?_⟩
    rw [hs.database.reaches.within h.window_le]
    exact ⟨hpulled, hlast⟩

theorem Sound.advances (h : p.Sound wiring options began s) (hs : Advances s.1 s'.1)
    (hpending : Gathers wiring.buffer s.1 s'.1) : p.Sound wiring options began s' := by
  refine ⟨h.safe.advances hs, h.since.trans hs.database.reaches, h.knows, fun hstage => ?_, fun txid hstage => ?_⟩
  · obtain ⟨hkept, hholds⟩ := h.unsaved hstage
    exact ⟨hkept.advances h.safe.reached hs hpending, hholds.advances hs hpending⟩
  · obtain ⟨mark, hmark, hle⟩ := h.saved txid hstage
    exact ⟨mark, (hs.marks.mark _ _).trans hmark, hle⟩

/-! ### One call -/

/-- Another stage that is not later. -/
theorem Sound.withStage (h : p.Sound wiring options began s) {stage : Stage}
    (hunsaved : stage = .working ∨ stage = .unsaved → p.stage = .working ∨ p.stage = .unsaved)
    (hsaved : ∀ txid, stage ≠ .saved txid) : { p with stage := stage }.Sound wiring options began s :=
  ⟨h.safe, h.since, ⟨h.knows.slot, h.knows.loaded, h.knows.seen, h.knows.drained, h.knows.pulled⟩,
    fun hstage => ⟨(h.unsaved (hunsaved hstage)).1, by
      obtain ⟨hloaded, hseen, hdrained, hpulled⟩ := (h.unsaved (hunsaved hstage)).2
      exact ⟨hloaded, hseen, hdrained, hpulled.imp_right fun hpaged => ⟨hpaged.1, hpaged.2, hpaged.3⟩⟩⟩,
    fun txid hstage => (hsaved txid hstage).elim⟩

/-- A call that fails tells nothing, and leaves the end of the cycle at most where it is. -/
theorem Sound.next_of_fails (h : p.Sound wiring options began s) {call : Call}
    (hallows : p.Allows options kind call) {a : call.Answer} (hfails : call.Fails a) :
    (p.next call a).Sound wiring options began s := by
  cases call with
  | session call => cases call <;> cases a <;> first | exact h | exact hfails.elim
  | sink call => cases call <;> exact h
  | clock call => cases call <;> exact hfails.elim
  | source call =>
    cases call with
    | reclaim slot txid =>
      cases a with
      | ok => exact hfails.elim
      | error e => exact h.withStage (by simp) (by simp)
    | _ => cases a <;> first | exact h | exact hfails.elim
  | store call =>
    cases call with
    | load => cases a <;> first | exact h | exact hfails.elim
    | save index txid =>
      cases a with
      | ok => exact hfails.elim
      | error e => exact h.withStage (fun _ => .inl hallows.1) (by simp)
  | buffer call =>
    cases call with
    | ack =>
      cases a with
      | ok => exact hfails.elim
      | error e =>
        rcases hallows.1 with hstage | ⟨hstage, -⟩ <;> simp only [Progress.next, hstage]
        · exact h.withStage (by simp) (by simp)
        · exact h.withStage (fun _ => .inl hstage) (by simp)
    | _ => cases a <;> first | exact h | exact hfails.elim

end Progress

end

/-! ### Calls that fail -/

namespace World

variable {wiring : Wiring} {s : Site}

/-- A checkpoint that could not be saved is as it was. -/
theorem saveMark_error {w : World} {store index : String} {txmin : Nat} {e : Failure}
    (h : (w.saveMark store index txmin).1 = .error e) :
    Advances w (w.saveMark store index txmin).2 := by
  have hstruck := advances_strike w .save
  simp only [saveMark] at h ⊢
  split
  · rename_i hstrike
    rwa [hstrike] at hstruck
  rename_i w₁ hstrike
  rw [hstrike] at hstruck
  simp only [hstrike] at h
  split
  · rename_i hfile
    simp only [hfile, if_true] at h
    split
    · exact hstruck
    · rename_i file hread
      simp only [hread] at h
      split
      · rename_i hstored
        simp [hstored] at h
      · exact hstruck
  · rename_i hfile
    simp [hfile] at h

/-- A call that the world answers with a failure changes nothing but what others may change. -/
theorem answer_fails {call : Call} (h : call.Fails (answer wiring call s).1) (name : String) :
    Advances s.1 (answer wiring call s).2.1 ∧ Gathers name s.1 (answer wiring call s).2.1 := by
  have hstruck (p : FaultPoint) :
      Advances s.1 (if wiring.failing then s.1.strike p else (none, s.1)).2 := by
    obtain ⟨faults, hfaults⟩ := struck_eq wiring.failing p s.1
    exact hfaults ▸ ⟨.refl _, rfl, rfl, rfl, rfl⟩
  by_cases hack : call = .buffer .ack
  · subst hack
    refine ⟨answer_advances wiring (.buffer .ack) trivial s, ?_⟩
    change Call.Fails (.buffer .ack) (s.1.ack wiring.buffer).1 at h
    change Gathers name s.1 (s.1.ack wiring.buffer).2
    simp only [ack] at h ⊢
    split
    · rename_i hstrike
      have hsame : Gathers name s.1 (s.1.strike .ack).2 := .of_same rfl rfl rfl
      rwa [hstrike] at hsame
    · rename_i hstrike
      simp only [hstrike] at h
      split at h <;> exact h.elim
  refine ⟨?_, answer_gathers wiring call hack s⟩
  cases call with
  | session call => exact answer_advances wiring (.session call) trivial s
  | buffer call => exact answer_advances wiring (.buffer call) trivial s
  | sink call => exact answer_advances wiring (.sink call) trivial s
  | clock call => exact answer_advances wiring (.clock call) trivial s
  | store call =>
    cases call with
    | load index => exact answer_advances wiring (.store (.load index)) trivial s
    | save index txid =>
      change Call.Fails (.store (.save index txid)) (s.1.saveMark wiring.store index txid).1 at h
      change Advances s.1 (s.1.saveMark wiring.store index txid).2
      cases hsaved : (s.1.saveMark wiring.store index txid).1 with
      | error e => exact saveMark_error hsaved
      | ok mark =>
        rw [hsaved] at h
        exact h.elim
  | source call =>
    cases call with
    | pull slot window most offset =>
      exact answer_advances wiring (.source (.pull slot window most offset)) trivial s
    | openSlot name =>
      have hstruck := hstruck .openSlot
      change Call.Fails (.source (.openSlot name)) (answerSource wiring (.openSlot name) s.1).1 at h
      change Advances s.1 (answerSource wiring (.openSlot name) s.1).2
      simp only [answerSource] at h ⊢
      split
      · rename_i hstrike
        rwa [hstrike] at hstruck
      · rename_i hstrike
        rw [hstrike] at h
        exact h.elim
    | reclaim slot txid =>
      have hstruck := hstruck .reclaim
      change Call.Fails (.source (.reclaim slot txid)) (answerSource wiring (.reclaim slot txid) s.1).1 at h
      change Advances s.1 (answerSource wiring (.reclaim slot txid) s.1).2
      simp only [answerSource] at h ⊢
      split
      · rename_i hstrike
        rwa [hstrike] at hstruck
      · rename_i hstrike
        rw [hstrike] at hstruck
        simp only [hstrike] at h
        split
        · rename_i hreclaim
          rw [hreclaim] at h
          exact h.elim
        · exact hstruck

end World

/-! ### Calls that succeed -/

namespace Progress

open Database (Slot.within)

variable {wiring : Wiring} {options : SyncOptions} {kind : CycleKind} {began s s' : Site} {p : Progress}

/-- A page of a part of a log is a part of its page. -/
theorem records_pageThrough_subset {records records' : List ChangeRecord} (h : records ⊆ records') :
    (pageThrough wiring records).records ⊆ (pageThrough wiring records').records := by
  have hkept : (records.filter fun r => !wiring.ignored.contains r.table) ⊆
      records'.filter fun r => !wiring.ignored.contains r.table := by
    intro r hr
    obtain ⟨hmem, hlet⟩ := List.mem_filter.mp hr
    exact List.mem_filter.mpr ⟨h hmem, hlet⟩
  simp only [pageThrough]
  split
  · exact List.map_subset _ hkept
  · exact hkept

theorem records_pageThrough_append (records records' : List ChangeRecord) :
    (pageThrough wiring (records ++ records')).records =
      (pageThrough wiring records).records ++ (pageThrough wiring records').records := by
  simp only [pageThrough, List.filter_append]
  split
  · exact List.map_append
  · rfl

/-- What a slot has of a window only grows. -/
theorem within_subset {slot : Slot} {window : TxWindow} {log log' : List ChangeRecord}
    (h : log <+: log') : Slot.within slot window log ⊆ Slot.within slot window log' := by
  obtain ⟨more, rfl⟩ := h
  simp only [Slot.within, Database.Slot.retained, List.filter_append]
  exact List.subset_append_left _ _

theorem Sound.loads (h : p.Sound wiring options began s) {mark : Option Nat}
    (hallows : p.Allows options kind (.store (.load options.index)))
    (ha : (answer wiring (.store (.load options.index)) s).1 = .ok mark) :
    { p with loaded := some (mark.getD 0) }.Sound wiring options began s := by
  obtain ⟨hstage, -, hloaded, -⟩ := hallows
  have hmark := answer_load ha
  obtain ⟨hkept, hholds⟩ := h.unsaved (.inl hstage)
  obtain ⟨stored, hstored, hle, -⟩ := h.safe.marked
  rw [hmark] at hstored
  obtain rfl := Except.ok.inj hstored
  have hnone : p.pulled = [] ∧ p.consumed = 0 ∧ p.exhausted = false := by
    refine hholds.pulled.resolve_right fun hpaged => ?_
    simpa [hloaded] using hpaged.loaded
  refine ⟨h.safe, h.since, ⟨h.knows.slot, ?_, h.knows.seen, h.knows.drained, ?_⟩,
    fun _ => ⟨hkept, ?_, hholds.seen, hholds.drained, .inl hnone⟩, ?_⟩
  · intro m hm
    exact ⟨mark, hkept.mark ▸ hmark, (Option.some.inj hm).symm⟩
  · intro hexhausted
    simp [hnone.2.2] at hexhausted
  · intro m hm
    exact Option.some.inj hm ▸ hle
  · intro txid hsaved
    simp [hstage] at hsaved

theorem Sound.sees (h : p.Sound wiring options began s) {txid : Nat}
    (hallows : p.Allows options kind (.session .transactionId))
    (ha : (answer wiring (.session .transactionId) s).1 = .ok txid) :
    { p with seen := some txid }.Sound wiring options began s := by
  obtain ⟨hstage, hseen⟩ := hallows
  obtain rfl := answer_transactionId ha
  obtain ⟨hkept, hholds⟩ := h.unsaved (.inl hstage)
  have hnone : p.pulled = [] ∧ p.consumed = 0 ∧ p.exhausted = false := by
    refine hholds.pulled.resolve_right fun hpaged => ?_
    simpa [hseen] using hpaged.seen
  refine ⟨h.safe, h.since, ⟨h.knows.slot, h.knows.loaded, ?_, h.knows.drained, ?_⟩,
    fun _ => ⟨hkept, hholds.loaded, ?_, hholds.drained, .inl hnone⟩, ?_⟩
  · intro txid htxid
    exact Option.some.inj htxid ▸ h.since.log.1
  · intro hexhausted
    simp [hnone.2.2] at hexhausted
  · intro txid htxid
    exact Nat.le_of_eq (Option.some.inj htxid).symm
  · intro txid hsaved
    simp [hstage] at hsaved

theorem Sound.drains (h : p.Sound wiring options began s) {records : List ChangeRecord}
    (hallows : p.Allows options kind (.buffer .drain))
    (hrecords : records = (s.1.backlog wiring.buffer).drained) :
    { p with drained := some records }.Sound wiring options began s := by
  obtain ⟨hstage, -⟩ := hallows
  obtain ⟨hkept, hholds⟩ := h.unsaved (.inl hstage)
  subst hrecords
  refine ⟨h.safe, h.since, ⟨h.knows.slot, h.knows.loaded, h.knows.seen, ?_, h.knows.pulled⟩,
    fun _ => ⟨hkept, hholds.loaded, hholds.seen, ?_,
      hholds.pulled.imp_right fun hpaged => ⟨hpaged.1, hpaged.2, hpaged.3⟩⟩, ?_⟩
  · intro records hrecords
    exact Option.some.inj hrecords ▸ hkept.pending.grows.drained
  · intro records hrecords
    exact Option.some.inj hrecords ▸ List.Subset.refl _
  · intro txid hsaved
    simp [hstage] at hsaved

theorem Sound.pulls (h : p.Sound wiring options began s) {slot : String} {window : TxWindow}
    {most offset : Nat} {page : ChangePage}
    (hallows : p.Allows options kind (.source (.pull slot window most offset)))
    (ha : (answer wiring (.source (.pull slot window most offset)) s).1 = .ok page) :
    (p.next (.source (.pull slot window most offset)) (.ok page)).Sound wiring options began s := by
  obtain ⟨hstage, -, hslot, hloaded, hseen, rfl, -, -, rfl, -⟩ := hallows
  obtain ⟨hkept, hholds⟩ := h.unsaved (.inl hstage)
  obtain rfl := h.knows.slot slot hslot
  obtain ⟨found, hfound, rfl⟩ := answer_pull ha
  generalize hlogged : Slot.within found p.window s.1.database.log = logged
  have hpulled : p.pulled = (pageThrough wiring (logged.take p.consumed)).records := by
    rcases hholds.pulled with ⟨hpulled, hconsumed, -⟩ | ⟨-, -, other, hother, hpulled, -⟩
    · rw [hpulled, hconsumed]
      simp [pageThrough]
    · obtain rfl := Option.some.inj (hfound.symm.trans hother)
      rw [hpulled, hlogged]
  -- the entries that a page covers are the next ones
  have hcovered : logged.take (p.consumed + (((logged.drop p.consumed).take most).length)) =
      logged.take p.consumed ++ (logged.drop p.consumed).take most := by
    rw [List.take_add, List.length_take, ← List.take_eq_take_min]
  have hpaged : Paged wiring options (p.next (.source (.pull options.slotName p.window most p.consumed))
      (.ok (pageThrough wiring ((logged.drop p.consumed).take most)))) s.1.database := by
    refine ⟨hloaded, hseen, found, hfound, ?_, ?_⟩
    · change p.pulled ++ (pageThrough wiring ((logged.drop p.consumed).take most)).records =
        (pageThrough wiring ((Slot.within found p.window s.1.database.log).take
          (p.consumed + ((logged.drop p.consumed).take most).length))).records
      rw [hlogged, hcovered, records_pageThrough_append, hpulled]
    · intro hlast
      change (Slot.within found p.window s.1.database.log).length ≤
        p.consumed + ((logged.drop p.consumed).take most).length
      change decide (((logged.drop p.consumed).take most).length < most) = true at hlast
      rw [hlogged]
      simp only [List.length_take, List.length_drop, decide_eq_true_eq] at hlast ⊢
      omega
  refine ⟨h.safe, h.since, ⟨h.knows.slot, h.knows.loaded, h.knows.seen, h.knows.drained, ?_⟩,
    fun _ => ⟨hkept, hholds.loaded, hholds.seen, hholds.drained, .inr hpaged⟩, ?_⟩
  · intro hlast other hother
    obtain rfl := Option.some.inj (hfound.symm.trans (hkept.slot other hother))
    obtain ⟨-, -, again, hagain, hall, hlength⟩ := hpaged
    obtain rfl := Option.some.inj (hfound.symm.trans hagain)
    rw [hall, List.take_of_length_le (hlength hlast)]
    exact records_pageThrough_subset (within_subset hkept.pending.log)
  · intro txid hsaved
    change p.stage = _ at hsaved
    simp [hstage] at hsaved

theorem Sound.withSlot (h : p.Sound wiring options began s) (hstage : p.stage = .working) :
    { p with slot := some options.slotName }.Sound wiring options began s := by
  obtain ⟨hkept, hholds⟩ := h.unsaved (.inl hstage)
  refine ⟨h.safe, h.since, ⟨?_, h.knows.loaded, h.knows.seen, h.knows.drained, h.knows.pulled⟩,
    fun _ => ⟨hkept, hholds.loaded, hholds.seen, hholds.drained,
      hholds.pulled.imp_right fun hpaged => ⟨hpaged.1, hpaged.2, hpaged.3⟩⟩, ?_⟩
  · intro name hname
    exact (Option.some.inj hname).symm
  · intro txid hsaved
    simp [hstage] at hsaved

/-- A slot that is new is released up to where it was opened. -/
theorem Sound.opensNew (h : p.Sound wiring options began s) (hstage : p.stage = .working)
    (hnew : s.1.database.slots.get? options.slotName = none)
    (hdatabase : s'.1.database = s.1.database.openSlot options.slotName)
    (hmarks : KeepsMarks s.1 s'.1) (hpending : Gathers wiring.buffer s.1 s'.1) :
    p.Sound wiring options began s' := by
  obtain ⟨hkept, hholds⟩ := h.unsaved (.inl hstage)
  have hreaches : Database.Reaches s.1.database s'.1.database := by
    rw [hdatabase]
    exact .single (.openSlot _ _)
  have hle := hreaches.log.1
  have hopened (slot : Slot) (hslot : s'.1.database.slots.get? options.slotName = some slot) :
      slot.reclaimedUpTo = s'.1.database.openedAt slot := by
    rw [hdatabase] at hslot ⊢
    obtain ⟨hreleased, hopened⟩ := h.safe.reached.openedAt_openSlot hnew hslot
    exact hreleased.trans hopened.symm
  have hbegan : began.1.database.slots.get? options.slotName = none := by
    rw [Option.eq_none_iff_forall_ne_some]
    intro slot hslot
    simpa [hnew] using hkept.slot slot hslot
  refine ⟨⟨h.safe.reached.trans hreaches, ?_⟩, h.since.trans hreaches, h.knows, fun _ => ⟨⟨?_, ?_, ?_, ?_⟩,
    fun m hm => Nat.le_trans (hholds.loaded m hm) hle,
    fun txid ht => Nat.le_trans (hholds.seen txid ht) hle,
    fun records hr => List.Subset.trans (hholds.drained records hr) hpending.grows.drained,
    .inl (hholds.pulled.resolve_right fun hpaged => ?_)⟩, ?_⟩
  · obtain ⟨mark, hmark, hbound, -⟩ := h.safe.marked
    refine ⟨mark, (hmarks.mark _ _).trans hmark, Nat.le_trans hbound hle, fun slot hslot => ?_⟩
    exact Nat.le_trans (Nat.le_of_eq (hopened slot hslot)) (Nat.le_max_right _ _)
  · exact (hmarks.mark _ _).trans hkept.mark
  · intro slot hslot
    simp [hbegan] at hslot
  · exact fun _ => hopened
  · exact hkept.pending.trans hpending
  · obtain ⟨slot, hslot, -⟩ := hpaged.within
    simp [hnew] at hslot
  · intro txid hsaved
    simp [hstage] at hsaved

theorem Sound.opens (h : p.Sound wiring options began s) {slot : String}
    (hallows : p.Allows options kind (.source (.openSlot options.slotName)))
    (ha : (answer wiring (.source (.openSlot options.slotName)) s).1 = .ok slot) :
    { p with slot := some slot }.Sound wiring options began
      (answer wiring (.source (.openSlot options.slotName)) s).2 := by
  have hstage := hallows.1
  obtain ⟨rfl, hdatabase, hmarks⟩ := answer_openSlot ha
  have hpending : Gathers wiring.buffer s.1
      (answer wiring (.source (.openSlot options.slotName)) s).2.1 :=
    answer_gathers wiring (.source (.openSlot options.slotName)) (by simp) s
  cases hslot : s.1.database.slots.get? options.slotName with
  | none => exact (h.opensNew hstage hslot hdatabase hmarks hpending).withSlot hstage
  | some found =>
    have hsame : s.1.database.openSlot options.slotName = s.1.database := by
      simp [Database.openSlot, Keyed.contains, hslot]
    rw [hsame] at hdatabase
    refine (h.advances ⟨?_, hmarks⟩ hpending).withSlot hstage
    rw [hdatabase]
    exact .refl _

theorem Sound.saves (h : p.Sound wiring options began s) {txid mark : Nat}
    (hallows : p.Allows options kind (.store (.save options.index txid)))
    (ha : (answer wiring (.store (.save options.index txid)) s).1 = .ok mark) :
    { p with stage := .saved txid }.Sound wiring options began
      (answer wiring (.store (.save options.index txid)) s).2 := by
  obtain ⟨hstage, -, -, hseen⟩ := hallows
  have htxid := (h.unsaved (.inl hstage)).2.seen txid hseen
  obtain ⟨before, hbefore, hafter⟩ := saveMark_mark ha
  have hdatabase : (answer wiring (.store (.save options.index txid)) s).2.1.database =
      s.1.database := saveMark_database _ _ _ _
  obtain ⟨stored, hstored, hle, hslot⟩ := h.safe.marked
  obtain rfl := Except.ok.inj (hbefore.symm.trans hstored)
  refine ⟨⟨?_, _, hafter, ?_, ?_⟩, ?_, ⟨h.knows.slot, h.knows.loaded, h.knows.seen, h.knows.drained,
    h.knows.pulled⟩, ?_, ?_⟩
  · rw [hdatabase]
    exact h.safe.reached
  · rw [hdatabase]
    exact Nat.max_le.mpr ⟨htxid, hle⟩
  · rw [hdatabase]
    intro slot hfound
    refine Nat.le_trans (hslot slot hfound) (Nat.max_le.mpr ⟨?_, Nat.le_max_right _ _⟩)
    exact Nat.le_trans (Nat.le_max_right _ _) (Nat.le_max_left _ _)
  · rw [hdatabase]
    exact h.since
  · rintro (hnever | hnever) <;> contradiction
  · intro saved hsaved
    obtain rfl := Stage.saved.inj hsaved
    exact ⟨_, hafter, Nat.le_max_left _ _⟩

/-- What is released is what was released before, or up to the transaction given. -/
theorem answer_reclaim_ok {slot : String} {txid : Nat}
    (ha : (answer wiring (.source (.reclaim slot txid)) s).1 = .ok ()) :
    s.1.database.reclaim slot txid =
      .ok (answer wiring (.source (.reclaim slot txid)) s).2.1.database := by
  change (answerSource wiring (.reclaim slot txid) s.1).1 = .ok () at ha
  change _ = Except.ok (answerSource wiring (.reclaim slot txid) s.1).2.database
  obtain ⟨faults, hfaults⟩ := struck_eq wiring.failing .reclaim s.1
  simp only [answerSource] at ha ⊢
  split at ha
  · contradiction
  · rename_i hstruck
    rw [hstruck] at hfaults
    subst hfaults
    dsimp only at ha ⊢
    split at ha
    · rename_i db hreclaim
      rw [hreclaim]
    · contradiction

theorem Sound.releases (h : p.Sound wiring options began s) {slot : String} {txid : Nat}
    (hallows : p.Allows options kind (.source (.reclaim slot txid)))
    (ha : (answer wiring (.source (.reclaim slot txid)) s).1 = .ok ()) :
    { p with stage := .released }.Sound wiring options began
      (answer wiring (.source (.reclaim slot txid)) s).2 := by
  obtain ⟨hreaches, hmarks⟩ := answer_reclaim wiring s slot txid
  obtain ⟨found, hfound, hdatabase⟩ := Database.reclaim_eq_ok (answer_reclaim_ok ha)
  obtain ⟨mark, hmark, hle, hslot⟩ := h.safe.marked
  obtain ⟨saved, hsaved, htxid⟩ := h.saved txid hallows.1
  obtain rfl := Except.ok.inj (hmark.symm.trans hsaved)
  refine ⟨⟨h.safe.reached.trans hreaches, mark, (hmarks.mark _ _).trans hmark,
    Nat.le_trans hle hreaches.log.1, ?_⟩, h.since.trans hreaches, ⟨h.knows.slot, h.knows.loaded,
    h.knows.seen, h.knows.drained, h.knows.pulled⟩, ?_, ?_⟩
  · rw [hdatabase]
    intro other hother
    rw [Keyed.get?_put] at hother
    split at hother
    · rename_i hname
      obtain rfl := Option.some.inj hother
      have hbound := hslot found (hname ▸ hfound)
      change max found.reclaimedUpTo txid ≤ max (mark.getD 0) (s.1.database.openedAt found)
      exact Nat.max_le.mpr ⟨hbound, Nat.le_trans htxid (Nat.le_max_left _ _)⟩
    · exact hslot other hother
  · rintro (hnever | hnever) <;> contradiction
  · intro saved hsaved
    contradiction

theorem Sound.acknowledges (h : p.Sound wiring options began s) :
    { p with stage := .acknowledged }.Sound wiring options began
      (answer wiring (.buffer .ack) s).2 := by
  have hadvances := answer_advances wiring (.buffer .ack) trivial s
  refine ⟨h.safe.advances hadvances, h.since.trans hadvances.database.reaches,
    ⟨h.knows.slot, h.knows.loaded, h.knows.seen, h.knows.drained, h.knows.pulled⟩, ?_, ?_⟩
  · rintro (hnever | hnever) <;> contradiction
  · intro txid hsaved
    contradiction

/-- A call that tells nothing. -/
theorem Sound.passes (h : p.Sound wiring options began s) {call : Call} (hcall : call.IsApply) :
    p.Sound wiring options began (answer wiring call s).2 := by
  have hack : call ≠ .buffer .ack := by
    rintro rfl
    exact hcall.elim
  exact h.advances (answer_advances wiring call hcall.isQuiet s) (answer_gathers wiring call hack s)

theorem Sound.next_of_answers (h : p.Sound wiring options began s) {call : Call}
    (hallows : p.Allows options kind call) :
    (p.next call (answer wiring call s).1).Sound wiring options began (answer wiring call s).2 := by
  by_cases hfails : call.Fails (answer wiring call s).1
  · obtain ⟨hadvances, hpending⟩ := answer_fails hfails wiring.buffer
    exact (h.next_of_fails hallows hfails).advances hadvances hpending
  cases call with
  | session call =>
    cases call with
    | transactionId =>
      cases ha : (answer wiring (.session .transactionId) s).1 with
      | error e => simp [ha, Call.Fails] at hfails
      | ok txid =>
        exact (h.sees hallows ha).advances (answer_advances wiring (.session .transactionId) trivial s)
          (answer_gathers wiring (.session .transactionId) (by simp) s)
    | _ => exact h.passes hallows.2.1
  | sink call => exact h.passes hallows.2.1
  | clock call => exact h.passes hallows.2.1
  | source call =>
    cases call with
    | openSlot name =>
      obtain rfl := hallows.2.2
      cases ha : (answer wiring (.source (.openSlot options.slotName)) s).1 with
      | error e => simp [ha, Call.Fails] at hfails
      | ok slot => exact h.opens hallows ha
    | pull slot window most offset =>
      cases ha : (answer wiring (.source (.pull slot window most offset)) s).1 with
      | error e => simp [ha, Call.Fails] at hfails
      | ok page =>
        exact (h.pulls hallows ha).advances
          (answer_advances wiring (.source (.pull slot window most offset)) trivial s)
          (answer_gathers wiring (.source (.pull slot window most offset)) (by simp) s)
    | reclaim slot txid =>
      cases ha : (answer wiring (.source (.reclaim slot txid)) s).1 with
      | error e => simp [ha, Call.Fails] at hfails
      | ok => exact h.releases hallows ha
  | buffer call =>
    cases call with
    | drain =>
      cases ha : (answer wiring (.buffer .drain) s).1 with
      | error e => simp [ha, Call.Fails] at hfails
      | ok records =>
        have hlater := h.advances (answer_advances wiring (.buffer .drain) trivial s)
          (answer_gathers wiring (.buffer .drain) (by simp) s)
        exact hlater.drains hallows ((gathers_drain wiring.buffer s.1 wiring.buffer).2 _ ha)
    | ack =>
      cases ha : (answer wiring (.buffer .ack) s).1 with
      | error e => simp [ha, Call.Fails] at hfails
      | ok => exact h.acknowledges
    | wait => exact hallows.2.1.elim
  | store call =>
    cases call with
    | load index =>
      obtain rfl := hallows.2.2.2
      cases ha : (answer wiring (.store (.load options.index)) s).1 with
      | error e => simp [ha, Call.Fails] at hfails
      | ok mark =>
        exact (h.loads hallows ha).advances
          (answer_advances wiring (.store (.load options.index)) trivial s)
          (answer_gathers wiring (.store (.load options.index)) (by simp) s)
    | save index txid =>
      obtain rfl := hallows.2.2.1
      cases ha : (answer wiring (.store (.save options.index txid)) s).1 with
      | error e => simp [ha, Call.Fails] at hfails
      | ok mark => exact h.saves hallows ha

/-- A call that is allowed keeps what holds in a cycle. -/
theorem Sound.next (h : p.Sound wiring options began s) {call : Call}
    (hallows : p.Allows options kind call) {a : call.Answer} (hreplies : Replies wiring call s a s') :
    (p.next call a).Sound wiring options began s' := by
  cases hreplies with
  | fails hfails => exact h.next_of_fails hallows hfails
  | answers => exact h.next_of_answers hallows

end Progress

end DocSync
