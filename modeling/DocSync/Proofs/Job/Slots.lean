import DocSync.Proofs.Job.Aside
import DocSync.Proofs.Server.SlotReading

/-!
Receive cycles of a job on a server with a slot, while transactions start and end there in any order.  A
cycle reads the commits between the checkpoint and the oldest transaction in progress, in the order of
their commits, and releases the slot behind them.  Main statement: cycles that succeed read each
transaction up to their last checkpoint exactly once, and release none after it.
-/

namespace DocSync

open Upstream (Rests Grows Proceeds)

/-- What a job on a slot works with: its session, the server, and its stored checkpoint. -/
structure SlotSite where
  session : ServerSession
  upstream : Upstream
  stored : Option Nat

namespace SlotSite

/-- The id up to which everything was applied. -/
def mark (s : SlotSite) : Nat := s.stored.getD 0

/-- How the calls of a job may be answered once its slot is open: what reads or releases the slot, and
what asks for the last transaction id, in a conversation with the server, what asks the store by the
checkpoint, and all others in any way.  Transactions may start and end before each answer. -/
def Replies (r : SlotReader) : (call : Call) → SlotSite → call.Answer → SlotSite → Prop
  | .source (.pull slot window most offset), s, a, s' =>
    (r.answer (.pull slot window most offset)).Talks Upstream.Replies s.upstream a s'.upstream ∧
      s'.stored = s.stored
  | .source (.reclaim slot upTo), s, a, s' =>
    (r.answer (.reclaim slot upTo)).Talks Upstream.Replies s.upstream a s'.upstream ∧
      s'.stored = s.stored
  | .session .transactionId, s, a, s' =>
    (ServerSession.answer .transactionId s.session).Talks Upstream.Replies s.upstream (a, s'.session)
      s'.upstream ∧ s'.stored = s.stored
  | .store (.load _), s, a, s' =>
    (∀ stored, a = .ok stored → stored = s.stored) ∧ s.upstream.Proceeds s'.upstream ∧
      s'.stored = s.stored
  | .store (.save _ txid), s, a, s' =>
    (∀ stored, a = .ok stored → stored = max txid s.mark ∧ s'.stored = some stored) ∧
      s.upstream.Proceeds s'.upstream
  | _, s, _, s' => s.upstream.Proceeds s'.upstream ∧ s'.stored = s.stored

/-- Time passes on the server, and the slot and the checkpoint stay where they are. -/
structure Rests (s s' : SlotSite) : Prop where
  upstream : s.upstream.Rests s'.upstream
  stored : s'.stored = s.stored

variable {r : SlotReader} {s s' s'' : SlotSite}

theorem Rests.refl (s : SlotSite) : Rests s s := ⟨.refl _, rfl⟩

theorem Rests.trans (h : Rests s s') (h' : Rests s' s'') : Rests s s'' :=
  ⟨h.upstream.trans h'.upstream, h'.stored.trans h.stored⟩

theorem Rests.mark (h : Rests s s') : s'.mark = s.mark := by
  rw [SlotSite.mark, SlotSite.mark, h.stored]

end SlotSite

/-- The calls at which a slot and a checkpoint rest. -/
def Call.IsRest : Call → Prop
  | .source (.openSlot _) => True
  | .source _ => False
  | .session .transactionId => False
  | .store (.save ..) => False
  | _ => True

theorem Call.IsApply.isRest {call : Call} (h : call.IsApply) : call.IsRest := by
  cases call with
  | session call =>
    cases call with
    | transactionId => exact h.elim
    | _ => trivial
  | sink | clock => trivial
  | _ => exact h.elim

namespace SlotSite

variable {r : SlotReader} {s s' : SlotSite}

theorem rests_of_replies {call : Call} (hcall : call.IsRest) {a : call.Answer}
    (h : Replies r call s a s') : Rests s s' := by
  cases call with
  | source call =>
    cases call with
    | openSlot => exact ⟨h.1.rests.1, h.2⟩
    | _ => exact hcall.elim
  | session call =>
    cases call with
    | transactionId => exact hcall.elim
    | _ => exact ⟨h.1.rests.1, h.2⟩
  | store call =>
    cases call with
    | load => exact ⟨h.2.1.rests.1, h.2.2⟩
    | save => exact hcall.elim
  | _ => exact ⟨h.1.rests.1, h.2⟩

/-- A routine that makes no other calls lets the slot and the checkpoint rest. -/
theorem rests_of_asks {α : Type} {a : Stateful Job α} (hasks : Stateful.Asks Call.IsRest a)
    {job job' : Job} {result : Except SyncError α}
    (h : Threaded.Talks (Replies r) a job s result job' s') : Rests s s' :=
  Program.Talks.keeps Rests.refl Rests.trans (hasks job)
    (fun _ hcall _ _ _ hreply => rests_of_replies hcall hreply) h

end SlotSite

/-! ### What a cycle reads -/

namespace SlotReader

/-- The records of a transaction's changes. -/
def changesOf (r : SlotReader) (c : Commit) : List ChangeRecord :=
  c.lines.filterMap fun line => r.lineRecord? (c.id, line)

theorem found_append (r : SlotReader) (window : TxWindow) (entries more : List (Nat × String)) :
    r.found window (entries ++ more) = r.found window entries ++ r.found window more := by
  simp [found]

/-- A listing of a window holds the changes of the commits in it. -/
theorem found_listing (r : SlotReader) (window : TxWindow) (u : Upstream) :
    r.found window (u.listing window.idCondition) =
      (u.retained.filter fun c => window.contains c.id).flatMap r.changesOf := by
  have hlisting : (u.listing window.idCondition).filter (fun entry => window.contains entry.1) =
      u.lines.filter fun entry => window.contains entry.1 := by
    rw [Upstream.listing, List.filter_filter]
    refine List.filter_congr fun entry _ => ?_
    by_cases hin : window.contains entry.1 = true
    · rw [hin, TxWindow.holds_of_contains hin]
      rfl
    · simp [hin]
  rw [found, hlisting, Upstream.lines]
  induction u.retained with
  | nil => rfl
  | cons c rest ih =>
    rw [List.flatMap_cons, List.filter_append, List.filterMap_append, ih, List.filter_cons]
    by_cases hin : window.contains c.id = true
    · rw [if_pos hin, List.flatMap_cons, List.filter_map]
      congr 1
      simp [hin, changesOf, List.filterMap_map, Function.comp_def]
    · rw [if_neg hin, List.filter_map]
      simp [hin, Function.comp_def]

end SlotReader

/-- A page that is full stays the same when more comes after it. -/
theorem take_drop_of_prefix {α : Type} {entries more : List α} {offset most : Nat}
    (h : entries <+: more) (hfull : most ≤ ((entries.drop offset).take most).length) :
    (entries.drop offset).take most = (more.drop offset).take most := by
  obtain ⟨rest, rfl⟩ := h
  rw [List.length_take] at hfull
  rw [List.drop_append, List.take_append_of_le_length (by omega)]

namespace Job

open Working

variable {r : SlotReader} {job job' : Job} {s s' : SlotSite}

/-- The pages of a window hold the changes of all commits in it that the slot shows at the last page. -/
theorem pullPages_talks {slot : String} {window : TxWindow} {most pages offset : Nat}
    {records : List ChangeRecord} (hwindow : window.isEmpty = false)
    (h : (pullPages slot window most pages offset).run.Talks (SlotSite.Replies r) s (.ok records) s') :
    Rests s.upstream s'.upstream ∧ s'.stored = s.stored ∧
      records.map ChangeRecord.unplaced =
        r.found window ((s'.upstream.listing window.idCondition).drop offset) := by
  induction pages generalizing s offset records with
  | zero => exact (Program.not_talks_spent h).elim
  | succ pages ih =>
    rw [pullPages] at h
    obtain ⟨page, s₁, hpage, hrest⟩ := Program.talks_run_bind_ok.mp h
    obtain ⟨hpull, hstored⟩ := Program.talks_request.mp (Attempt.talks_mapError_ok.mp hpage)
    obtain ⟨hrests, hconsumed, hrecords⟩ := SlotReader.pull_talks hwindow hpull
    split at hrest
    · rename_i hshort
      obtain ⟨hdone, rfl⟩ := Program.talks_done.mp hrest
      obtain rfl := Except.ok.inj hdone
      refine ⟨hrests, hstored, ?_⟩
      rw [hconsumed, List.length_take] at hshort
      rw [hrecords, List.take_of_length_le (by omega)]
    · rename_i hfull
      obtain ⟨others, s₂, hothers, hdone⟩ := Program.talks_run_bind_ok.mp hrest
      obtain ⟨hall, rfl⟩ := Program.talks_done.mp hdone
      obtain rfl := Except.ok.inj hall
      obtain ⟨hrests', hstored', hrecords'⟩ := ih hothers
      refine ⟨hrests.trans hrests', hstored'.trans hstored, ?_⟩
      rw [hconsumed] at hfull
      have hpage := take_drop_of_prefix (hrests'.listing window.idCondition) (Nat.le_of_not_lt hfull)
      have hmost : page.consumed = most := by
        rw [hconsumed]
        have := List.length_take_le most ((s₁.upstream.listing window.idCondition).drop offset)
        omega
      rw [List.map_append, hrecords, hrecords', hpage, ← SlotReader.found_append, hmost,
        ← List.drop_drop, List.take_append_drop]

/-- What a cycle has read from a slot between the checkpoint and the oldest transaction in progress: the
changes of all commits there, in the order of their commits. -/
structure ReadsSlot (r : SlotReader) (s : SlotSite) (reading : Reading) (s' : SlotSite) : Prop where
  rests : s.Rests s'
  txmin : reading.window.txmin = s.mark
  txmax : s.mark ≤ reading.window.txmax
  settled : s.mark < reading.window.txmax → s'.upstream.Settled reading.window.txmax
  pulled : reading.pulled.map ChangeRecord.unplaced =
    (s'.upstream.retained.filter fun c => reading.window.contains c.id).flatMap r.changesOf

/-- A window without ids has no changes. -/
theorem changes_of_isEmpty {window : TxWindow} (h : window.isEmpty = true) (u : Upstream) :
    (u.retained.filter fun c => window.contains c.id).flatMap r.changesOf = [] := by
  have hnone : u.retained.filter (fun c => window.contains c.id) = [] := by
    refine List.filter_eq_nil_iff.mpr fun c _ hin => ?_
    have hle : window.txmax ≤ window.txmin := by simpa [TxWindow.isEmpty] using h
    have hin : window.txmin < c.id ∧ c.id ≤ window.txmax := by simpa [TxWindow.contains] using hin
    omega
  rw [hnone]
  rfl

theorem checkpoint_talks {before : Option Nat}
    (h : Threaded.Talks (SlotSite.Replies r) checkpoint job s (.ok before) job' s') :
    s.Rests s' ∧ before.getD 0 = s.mark := by
  obtain ⟨hload, -⟩ := talks_orFatal_ok.mp (Threaded.talks_get_bind.mp h)
  obtain ⟨hstored, -⟩ := Program.talks_request.mp hload
  exact ⟨SlotSite.rests_of_asks (checkpoint_asks fun _ => trivial) h, by
    rw [hstored before rfl, SlotSite.mark]⟩

theorem currentTxmax_talks {txmax : Nat}
    (h : Threaded.Talks (SlotSite.Replies r) currentTxmax job s (.ok txmax) job' s') :
    s.Rests s' ∧ (0 < txmax → s'.upstream.Settled txmax) := by
  obtain ⟨htxid, -⟩ := talks_transported_ok.mp h
  obtain ⟨hsession, hstored⟩ := Program.talks_request.mp (Attempt.talks_mapError_ok.mp htxid)
  obtain ⟨hrests, hsettled⟩ := ServerSession.transactionId_talks hsession
  exact ⟨⟨hrests, hstored⟩, hsettled⟩

theorem readChanges_talks {pages : Nat} {reading : Reading}
    (h : Threaded.Talks (SlotSite.Replies r) (readChanges pages) job s (.ok reading) job' s') :
    ReadsSlot r s reading s' := by
  obtain ⟨slot, job₁, s₁, hopen, h₁⟩ := Threaded.talks_bind_ok.mp h
  have hopened := SlotSite.rests_of_asks (openSlot_asks fun _ => trivial) hopen
  obtain ⟨before, job₂, s₂, hload, h₂⟩ := Threaded.talks_bind_ok.mp h₁
  obtain ⟨hloaded, hmark⟩ := checkpoint_talks hload
  rw [hopened.mark] at hmark
  obtain ⟨txmax, job₃, s₃, htxid, h₃⟩ := Threaded.talks_bind_ok.mp h₂
  obtain ⟨hsnapshot, hsettled⟩ := currentTxmax_talks htxid
  rw [talks_enter_bind] at h₃
  obtain ⟨buffered, job₄, s₄, hdrain, h₄⟩ := Threaded.talks_bind_ok.mp h₃
  have hdrained := SlotSite.rests_of_asks (drain_asks trivial) hdrain
  have hrests : s.Rests s₄ := ((hopened.trans hloaded).trans hsnapshot).trans hdrained
  have hends : s.mark < max txmax s.mark → s₄.upstream.Settled (max txmax s.mark) := by
    intro hlt
    have hmax : max txmax s.mark = txmax := by omega
    rw [hmax]
    exact (hsettled (by omega)).mono hdrained.upstream.grows
  rw [hmark] at h₄
  generalize hwindow : (⟨s.mark, max txmax s.mark⟩ : TxWindow) = window at h₄
  have hmin : window.txmin = s.mark := by rw [← hwindow]
  have hmax : window.txmax = max txmax s.mark := by rw [← hwindow]
  rw [← hmax] at hends
  have hle : s.mark ≤ window.txmax := by omega
  have hempty (hnone : window.isEmpty = true) (slot : String) (buffered : List ChangeRecord) :
      ReadsSlot r s ⟨slot, window, [], buffered⟩ s₄ :=
    ⟨hrests, hmin, hle, hends, (changes_of_isEmpty hnone s₄.upstream).symm⟩
  split at h₄
  · rename_i hnothing
    obtain ⟨hreading, -, rfl⟩ := Threaded.talks_pure.mp h₄
    rw [Except.ok.inj hreading]
    exact hempty (Bool.and_eq_true_iff.mp hnothing).1 _ _
  rw [talks_enter_bind] at h₄
  dsimp only at h₄
  split at h₄
  · rename_i hnone
    obtain ⟨hreading, -, rfl⟩ := Threaded.talks_pure.mp h₄
    rw [Except.ok.inj hreading]
    exact hempty hnone _ _
  · rename_i hsome
    obtain ⟨pulled, job₅, s₅, hpull, h₅⟩ := Threaded.talks_bind_ok.mp h₄
    obtain ⟨hreading, -, rfl⟩ := Threaded.talks_pure.mp h₅
    rw [Except.ok.inj hreading]
    obtain ⟨hpages, -⟩ := talks_transported_ok.mp (Threaded.talks_get_bind.mp hpull)
    obtain ⟨hpulled, hkept, hrecords⟩ := pullPages_talks (by simpa using hsome) hpages
    rw [List.drop_zero, SlotReader.found_listing] at hrecords
    exact ⟨hrests.trans ⟨hpulled, hkept⟩, hmin, hle,
      fun hlt => (hends hlt).mono hpulled.grows, hrecords⟩

/-- What a cycle that succeeds does to a slot after it has read it: the checkpoint moves to the end of
the window, and the slot is released behind it. -/
structure ReleasesSlot (s : SlotSite) (reading : Reading) (s' : SlotSite) : Prop where
  grows : s.upstream.Grows s'.upstream
  mark : s'.mark = reading.window.txmax
  dropped : ∀ c ∈ s'.upstream.dropped, c ∈ s.upstream.dropped ∨ c.id ≤ reading.window.txmax

theorem persist_talks {slot : String} {txmax : Nat}
    (h : Threaded.Talks (SlotSite.Replies r) (persist slot txmax) job s (.ok ()) job' s') :
    s.upstream.Grows s'.upstream ∧ s'.mark = max txmax s.mark ∧
      ∀ c ∈ s'.upstream.dropped, c ∈ s.upstream.dropped ∨ c.id ≤ txmax := by
  obtain ⟨saved, job₁, s₁, hsave, hrest⟩ := Threaded.talks_bind_ok.mp (Threaded.talks_get_bind.mp h)
  obtain ⟨hsaves, -⟩ := talks_orFatal_ok.mp hsave
  obtain ⟨hsaved, hproceeds⟩ := Program.talks_request.mp (Attempt.talks_mapError_ok.mp hsaves)
  obtain ⟨hmax, hstored⟩ := hsaved saved rfl
  obtain ⟨hreclaims, -⟩ := talks_transported_ok.mp hrest
  obtain ⟨hreclaim, hkept⟩ := Program.talks_request.mp (Attempt.talks_mapError_ok.mp hreclaims)
  obtain ⟨hgrows, hdropped⟩ := SlotReader.reclaim_talks hreclaim
  have hrests := hproceeds.rests.1
  refine ⟨hrests.grows.trans hgrows, ?_, ?_⟩
  · rw [SlotSite.mark, hkept, hstored, hmax]
    rfl
  · rw [← hrests.dropped]
    exact hdropped

theorem applyReading_talks {pages : Nat} {reading : Reading} {stats : CycleStats}
    (hmin : reading.window.txmin = s.mark) (hmax : s.mark ≤ reading.window.txmax)
    (h : Threaded.Talks (SlotSite.Replies r) (applyReading pages reading) job s (.ok stats) job' s') :
    ReleasesSlot s reading s' := by
  have hrested {s' : SlotSite} (hnone : reading.window.isEmpty = true) (hrests : s.Rests s') :
      ReleasesSlot s reading s' := by
    have hle : reading.window.txmax ≤ reading.window.txmin := by simpa [TxWindow.isEmpty] using hnone
    refine ⟨hrests.upstream.grows, ?_, fun c hc => .inl (hrests.upstream.dropped ▸ hc)⟩
    rw [hrests.mark]
    omega
  unfold applyReading at h
  dsimp only at h
  split at h
  · rename_i hempty
    rw [talks_enter_bind] at h
    obtain ⟨-, -, rfl⟩ := Threaded.talks_pure.mp h
    exact hrested (Bool.and_eq_true_iff.mp hempty).1 (.refl _)
  obtain ⟨applied, job₁, s₁, happly, h₁⟩ := Threaded.talks_bind_ok.mp h
  have happlied : s.Rests s₁ :=
    SlotSite.rests_of_asks (fun job => ((applyRecords_applies _ _ _).asks job).mono
      fun _ hcall => hcall.isRest) happly
  rw [talks_enter_bind] at h₁
  have hacked {job : Job} {s₁ s' : SlotSite} {job' : Job} (hack : Threaded.Talks (SlotSite.Replies r)
      (do
        ack
        enter .idle
        return applied) job s₁ (.ok stats) job' s') : s₁.Rests s' := by
    obtain ⟨_, job₂, s₂, hack, hdone⟩ := Threaded.talks_bind_ok.mp hack
    rw [talks_enter_bind] at hdone
    obtain ⟨-, -, rfl⟩ := Threaded.talks_pure.mp hdone
    exact SlotSite.rests_of_asks (ack_asks trivial) hack
  split at h₁
  · obtain ⟨_, job₂, s₂, hpersist, hack⟩ := Threaded.talks_bind_ok.mp h₁
    obtain ⟨hgrows, hmark, hdropped⟩ := persist_talks hpersist
    have hrests := hacked hack
    refine ⟨(happlied.upstream.grows.trans hgrows).trans hrests.upstream.grows, ?_, ?_⟩
    · rw [hrests.mark, hmark, happlied.mark]
      omega
    · rw [hrests.upstream.dropped, ← happlied.upstream.dropped]
      exact hdropped
  · rename_i hnone
    exact hrested (by simpa using hnone) (happlied.trans (hacked h₁))

/-! ### Cycles one after another -/

/-- The records of a transaction that a cycle has read. -/
def Reading.returned (reading : Reading) (id : Nat) : List ChangeRecord :=
  (reading.pulled.filter (·.txid = id)).map ChangeRecord.unplaced

/-- Exactly one of the cycles read the changes of a transaction, and no other read any of them. -/
def ReadOnce (r : SlotReader) (readings : List Reading) (c : Commit) : Prop :=
  ∃ before reading after, readings = before ++ reading :: after ∧
    reading.returned c.id = r.changesOf c ∧ ∀ other ∈ before ++ after, other.returned c.id = []

namespace ReadOnce

variable {readings : List Reading} {reading : Reading} {c : Commit}

/-- A cycle after the one that read the transaction reads nothing of it. -/
theorem append (h : ReadOnce r readings c) (hnone : reading.returned c.id = []) :
    ReadOnce r (readings ++ [reading]) c := by
  obtain ⟨before, found, after, rfl, hfound, hothers⟩ := h
  refine ⟨before, found, after ++ [reading], by simp, hfound, fun other hother => ?_⟩
  rw [← List.append_assoc] at hother
  rcases List.mem_append.mp hother with hother | hother
  · exact hothers other hother
  · rw [List.mem_singleton.mp hother]
    exact hnone

/-- The last cycle reads the transaction, and none before it did. -/
theorem last (hnone : ∀ other ∈ readings, other.returned c.id = [])
    (h : reading.returned c.id = r.changesOf c) : ReadOnce r (readings ++ [reading]) c :=
  ⟨readings, reading, [], rfl, h, by simpa using hnone⟩

end ReadOnce

theorem txid_of_mem_changesOf {c : Commit} {record : ChangeRecord} (h : record ∈ r.changesOf c) :
    record.txid = c.id := by
  obtain ⟨line, -, hline⟩ := List.mem_filterMap.mp h
  unfold SlotReader.lineRecord? at hline
  split at hline
  · split at hline
    · unfold Log.Change.record? at hline
      split at hline
      · contradiction
      · split at hline
        · contradiction
        · rw [← Option.some.inj hline]
    · contradiction
  · contradiction

theorem filter_changesOf (c : Commit) (id : Nat) :
    (r.changesOf c).filter (·.txid = id) = if c.id = id then r.changesOf c else [] := by
  split
  · rename_i hid
    exact List.filter_eq_self.mpr fun record h => by simp [txid_of_mem_changesOf h, hid]
  · rename_i hid
    exact List.filter_eq_nil_iff.mpr fun record h => by simp [txid_of_mem_changesOf h, hid]

/-- Among transactions with different ids, the records under an id are those of the one that has it. -/
theorem filter_flatMap_changesOf {commits : List Commit} (hids : (commits.map Commit.id).Nodup)
    {c : Commit} (hc : c ∈ commits) :
    (commits.flatMap r.changesOf).filter (·.txid = c.id) = r.changesOf c := by
  rw [List.filter_flatMap]
  simp only [filter_changesOf]
  induction commits with
  | nil => exact absurd hc List.not_mem_nil
  | cons d rest ih =>
    rw [List.map_cons, List.nodup_cons] at hids
    rw [List.flatMap_cons]
    rcases List.mem_cons.mp hc with rfl | hc
    · have hnone : rest.flatMap (fun d => if d.id = c.id then r.changesOf d else []) = [] := by
        refine List.flatMap_eq_nil_iff.mpr fun d hd => if_neg fun hsame => hids.1 ?_
        exact hsame ▸ List.mem_map_of_mem hd
      rw [hnone, if_pos rfl, List.append_nil]
    · have hother : d.id ≠ c.id := fun hsame => hids.1 (hsame ▸ List.mem_map_of_mem hc)
      rw [if_neg hother, List.nil_append]
      exact ih hids.2 hc

namespace ReadsSlot

variable {reading : Reading}

theorem mem_window (h : ReadsSlot r s reading s') {record : ChangeRecord}
    (hrecord : record ∈ reading.pulled) :
    s.mark < record.txid ∧ record.txid ≤ reading.window.txmax := by
  have hunplaced : record.unplaced ∈ reading.pulled.map ChangeRecord.unplaced :=
    List.mem_map_of_mem hrecord
  rw [h.pulled] at hunplaced
  obtain ⟨c, hc, hchange⟩ := List.mem_flatMap.mp hunplaced
  have hin : reading.window.txmin < c.id ∧ c.id ≤ reading.window.txmax := by
    simpa [TxWindow.contains] using (List.mem_filter.mp hc).2
  have hid : record.unplaced.txid = c.id := txid_of_mem_changesOf hchange
  change record.txid = c.id at hid
  rw [hid, ← h.txmin]
  exact hin

theorem returned_eq (h : ReadsSlot r s reading s') {c : Commit} (hc : c ∈ s'.upstream.retained)
    (hmin : s.mark < c.id) (hmax : c.id ≤ reading.window.txmax) :
    reading.returned c.id = r.changesOf c := by
  have hin : reading.window.contains c.id = true := by
    simp [TxWindow.contains, h.txmin, hmin, hmax]
  have hids : (s'.upstream.retained.map Commit.id).Nodup :=
    s'.upstream.ids.sublist ((List.drop_sublist _ _).map _)
  have hfilter : (reading.pulled.filter (·.txid = c.id)).map ChangeRecord.unplaced =
      (reading.pulled.map ChangeRecord.unplaced).filter (·.txid = c.id) := by
    rw [List.filter_map]
    rfl
  rw [Reading.returned, hfilter, h.pulled]
  exact filter_flatMap_changesOf (hids.sublist (List.filter_sublist.map _))
    (List.mem_filter.mpr ⟨hc, hin⟩)

end ReadsSlot

theorem returned_eq_nil {reading : Reading} {id : Nat}
    (h : ∀ record ∈ reading.pulled, record.txid ≠ id) : reading.returned id = [] := by
  rw [Reading.returned, List.filter_eq_nil_iff.mpr fun record hrecord => by simpa using h record hrecord]
  rfl

/-- The books of cycles from the checkpoint `first` on. -/
structure Accounts (r : SlotReader) (first : Nat) (readings : List Reading) (s : SlotSite) : Prop where
  first_le : first ≤ s.mark
  settled : first < s.mark → s.upstream.Settled s.mark
  dropped : ∀ c ∈ s.upstream.dropped, c.id ≤ s.mark
  within : ∀ reading ∈ readings, ∀ record ∈ reading.pulled, record.txid ≤ s.mark
  once : ∀ c ∈ s.upstream.commits, first < c.id → c.id ≤ s.mark → ReadOnce r readings c

namespace Accounts

variable {first : Nat} {readings : List Reading} {reading : Reading} {s₁ : SlotSite}

theorem proceeds (h : Accounts r first readings s) (hrests : s.Rests s') :
    Accounts r first readings s' := by
  have hmark := hrests.mark
  refine ⟨hmark ▸ h.first_le, fun hlt => ?_, fun c hc => ?_, hmark ▸ h.within, fun c hc hlt hle => ?_⟩
  · rw [hmark] at hlt ⊢
    exact (h.settled hlt).mono hrests.upstream.grows
  · rw [hmark]
    exact h.dropped c (hrests.upstream.dropped ▸ hc)
  · rw [hmark] at hle
    exact h.once c ((h.settled (by omega)).mem_commits hrests.upstream.grows hc hle) hlt hle

theorem cycle (h : Accounts r first readings s) (hreads : ReadsSlot r s reading s₁)
    (hreleases : ReleasesSlot s₁ reading s') : Accounts r first (readings ++ [reading]) s' := by
  have hmark := hreleases.mark
  have hle := hreads.txmax
  have hfirst := h.first_le
  have hgrows : s.upstream.Grows s'.upstream := hreads.rests.upstream.grows.trans hreleases.grows
  have hsettled (hlt : first < reading.window.txmax) :
      s₁.upstream.Settled reading.window.txmax := by
    by_cases hmoves : s.mark < reading.window.txmax
    · exact hreads.settled hmoves
    · have hsame : reading.window.txmax = s.mark := by omega
      rw [hsame] at hlt ⊢
      exact (h.settled hlt).mono hreads.rests.upstream.grows
  refine ⟨by omega, fun hlt => ?_, fun c hc => ?_, fun other hother record hrecord => ?_,
    fun c hc hlt hupTo => ?_⟩
  · rw [hmark] at hlt ⊢
    exact (hsettled hlt).mono hreleases.grows
  · rw [hmark]
    rcases hreleases.dropped c hc with hdropped | hupTo
    · rw [hreads.rests.upstream.dropped] at hdropped
      have := h.dropped c hdropped
      omega
    · exact hupTo
  · rw [hmark]
    rcases List.mem_append.mp hother with hother | hother
    · have := h.within other hother record hrecord
      omega
    · rw [List.mem_singleton.mp hother] at hrecord
      exact (hreads.mem_window hrecord).2
  rw [hmark] at hupTo
  by_cases hold : c.id ≤ s.mark
  · -- an earlier cycle read it, and this one reads only later ids
    have hcommits : c ∈ s.upstream.commits := (h.settled (by omega)).mem_commits hgrows hc hold
    refine (h.once c hcommits hlt hold).append (returned_eq_nil fun record hrecord hid => ?_)
    have := (hreads.mem_window hrecord).1
    omega
  · -- it had ended when this cycle read the slot, which still showed it
    have hcommits : c ∈ s₁.upstream.commits :=
      (hsettled (by omega)).mem_commits hreleases.grows hc hupTo
    have hretained : c ∈ s₁.upstream.retained := by
      rw [← List.take_append_drop s₁.upstream.released s₁.upstream.commits] at hcommits
      rcases List.mem_append.mp hcommits with hdropped | hretained
      · have hdropped : c ∈ s₁.upstream.dropped := hdropped
        rw [hreads.rests.upstream.dropped] at hdropped
        exact absurd (h.dropped c hdropped) hold
      · exact hretained
    refine .last (fun other hother => returned_eq_nil fun record hrecord hid => ?_)
      (hreads.returned_eq hretained (by omega) hupTo)
    have := h.within other hother record hrecord
    omega

end Accounts

/-- Receive cycles that succeed, one after another, with what each has read; transactions start and end
during cycles and between them. -/
inductive Cycles (r : SlotReader) (job : Job) (s : SlotSite) : List Reading → Job → SlotSite → Prop
  | nothing : Cycles r job s [] job s
  | proceeds {readings : List Reading} {job₁ : Job} {s₁ : SlotSite} {u : Upstream} :
      Cycles r job s readings job₁ s₁ → s₁.upstream.Proceeds u →
        Cycles r job s readings job₁ { s₁ with upstream := u }
  | cycle {readings : List Reading} {reading : Reading} {stats : CycleStats} {job₁ job₂ job₃ : Job}
      {s₁ s₂ s₃ : SlotSite} (pages : Nat) : Cycles r job s readings job₁ s₁ →
        Threaded.Talks (SlotSite.Replies r) (readChanges pages) job₁ s₁ (.ok reading) job₂ s₂ →
          Threaded.Talks (SlotSite.Replies r) (applyReading pages reading) job₂ s₂ (.ok stats) job₃ s₃ →
            Cycles r job s (readings ++ [reading]) job₃ s₃

theorem Cycles.accounts {readings : List Reading} (hopened : s.upstream.commits = [])
    (h : Cycles r job s readings job' s') :
    Accounts r s.mark readings s' := by
  induction h with
  | nothing =>
    refine ⟨Nat.le_refl _, fun hlt => absurd hlt (Nat.lt_irrefl _), fun c hc => ?_, by simp,
      fun c hc => ?_⟩
    · rw [Upstream.dropped, hopened] at hc
      exact absurd hc (by simp)
    · rw [hopened] at hc
      exact absurd hc List.not_mem_nil
  | proceeds _ hproceeds ih => exact ih.proceeds ⟨hproceeds.rests.1, rfl⟩
  | cycle pages _ hread happly ih =>
    have hreads := readChanges_talks hread
    exact ih.cycle hreads (applyReading_talks (hreads.txmin.trans hreads.rests.mark.symm)
      (hreads.rests.mark ▸ hreads.txmax) happly)

/-- **Each transaction is read once.**  Let a job run receive cycles that succeed, from when its slot was
opened on, while transactions start, commit and abort on the server in any order and the ids that the
slot shows stay in reach.  Then the changes of each transaction that has committed since, with an id
after the first checkpoint and not after the last, were read in exactly one cycle; a job without a
checkpoint starts at 0, before every id.  And whenever a slot is released up to an id, it is advanced past
no commit after that id, not even past one that came before commits of smaller ids. -/
theorem transactions_read_once {readings : List Reading} (hopened : s.upstream.commits = [])
    (h : Cycles r job s readings job' s') :
    (∀ c ∈ s'.upstream.commits, s.mark < c.id → c.id ≤ s'.mark → ReadOnce r readings c) ∧
    ∀ (u u' : Upstream) (slot : String) (upTo : Nat) (result : Except Failure Unit),
      (SlotReader.reclaim slot upTo).run.Talks Upstream.Replies u result u' →
        ∀ c ∈ u'.dropped, c ∈ u.dropped ∨ c.id ≤ upTo :=
  ⟨(h.accounts hopened).once, fun _ _ _ _ _ hreclaim => (SlotReader.reclaim_talks hreclaim).2⟩

/-! A job over notes reads a slot on which a book was deleted. -/

def notesJob : Job :=
  .ofPlan ⟨⟨"note", none, ["id"], [], ["id"], ["id"], none⟩, []⟩ ⟨"notes", "slot", 10, 10, 0, .none⟩

def shelfReader : SlotReader := ⟨"public", ⟨[("book", ⟨"book", [⟨"isbn", "text"⟩], ["isbn"], []⟩)]⟩⟩

/-- One transaction is in progress when the slot is opened. -/
def shelf : Upstream := ⟨4, [3], [], 0, 0, by simp, by simp, by simp, by simp, Nat.le_refl 0⟩

def shelfWith (u : Upstream) (stored : Option Nat) : SlotSite := ⟨.new "public", u, stored⟩

def bookGone : Commit := ⟨3, ["table public.book: DELETE: (no-tuple-data)"], "0/1"⟩

def shelfCommitted : Upstream := shelf.commit bookGone (by decide) (by decide)

def shelfReading : Reading where
  slot := "slot"
  window := ⟨0, 3⟩
  pulled := [⟨"book", .delete, [("isbn", .null)], none, none, 3, 0⟩]
  buffered := []

theorem shelf_snapshot : shelfCommitted.Snapshot 4 4 :=
  ⟨by decide, by decide, by decide, by decide, by decide⟩

/-- The server with its reference, and released behind the commit. -/
def shelfTold : Upstream := { shelfCommitted with told := 4 }

def shelfReleased : Upstream := { shelfTold with released := 1, released_le := by decide }

theorem shelf_txid : (ServerSession.answer .transactionId (.new "public")).Talks Upstream.Replies
    shelfCommitted (.ok 3, .new "public") shelfCommitted :=
  .ask (a := .ok [[("int8", .integer (4 : Nat))]])
    (Upstream.replies_of_read SlotCommand.read_oldest (.oldest shelf_snapshot)) (.done _ _)

theorem shelf_reference {u : Upstream} (h : u.Snapshot 4 4) :
    SlotReader.reference.run.Talks Upstream.Replies u (.ok 4) { u with told := 4 } :=
  .ask (a := .ok [[("int8", .integer (4 : Nat))]])
    (Upstream.replies_of_read SlotCommand.read_newest (.newest h)) (.done _ _)

theorem shelf_reach : shelfTold.InReach := by
  intro c hc
  obtain rfl : c = bookGone := by simpa [Upstream.retained, shelfTold, shelfCommitted,
    Upstream.commit, shelf] using hc
  exact .inr ⟨by decide, by decide⟩

theorem shelf_pull : (shelfReader.pull "slot" ⟨0, 3⟩ 10 0).run.Talks Upstream.Replies shelfCommitted
    (.ok ⟨shelfReading.pulled, 1⟩) shelfTold := by
  rw [SlotReader.pull, if_neg (by decide)]
  refine Program.talks_run_bind_ok.mpr ⟨4, shelfTold, shelf_reference shelf_snapshot, ?_⟩
  have hread := SlotCommand.read_peekText ⟨0, 3⟩ 10 0 [.text "slot"]
  refine .ask (Upstream.replies_of_read hread (.changes _ 0 10 shelf_reach)) ?_
  exact .done _ _

theorem shelf_reclaim : (SlotReader.reclaim "slot" 3).run.Talks Upstream.Replies shelfTold (.ok ())
    shelfReleased := by
  have hsnapshot : shelfTold.Snapshot 4 4 := ⟨by decide, by decide, by decide, by decide, by decide⟩
  refine Program.talks_run_bind_ok.mpr ⟨4, shelfTold, shelf_reference hsnapshot, ?_⟩
  refine .ask (Upstream.replies_of_read (SlotCommand.read_commits _) (.commits shelf_reach)) ?_
  exact .ask (Upstream.replies_of_read (SlotCommand.read_advance _ "0/1") (.advance _ _)) (.done _ _)

theorem shelf_reads : Threaded.Talks (SlotSite.Replies shelfReader) (readChanges 1) notesJob
    (shelfWith shelfCommitted none) (.ok shelfReading)
    { notesJob with slot := some "slot", phase := .applying } (shelfWith shelfTold none) := by
  have htxid : SlotSite.Replies shelfReader (.session .transactionId) (shelfWith shelfCommitted none)
      (.ok 3) (shelfWith shelfCommitted none) := ⟨shelf_txid, rfl⟩
  have hpull : SlotSite.Replies shelfReader (.source (.pull "slot" ⟨0, 3⟩ 10 0))
      (shelfWith shelfCommitted none) (.ok ⟨shelfReading.pulled, 1⟩) (shelfWith shelfTold none) :=
    ⟨shelf_pull, rfl⟩
  refine .ask (a := .ok "slot") ⟨.refl, rfl⟩ ?_
  refine .ask (a := .ok none) ⟨fun _ hstored => (Except.ok.inj hstored).symm, .refl, rfl⟩ ?_
  refine .ask htxid ?_
  refine .ask (a := .ok []) ⟨.refl, rfl⟩ ?_
  exact .ask hpull (.done _ _)

theorem shelf_applies : Threaded.Talks (SlotSite.Replies shelfReader) (applyReading 1 shelfReading)
    { notesJob with slot := some "slot", phase := .applying } (shelfWith shelfTold none)
    (.ok { CycleStats.empty with changes := 1, window := some ⟨0, 3⟩ })
    { notesJob with slot := some "slot" } (shelfWith shelfReleased (some 3)) := by
  have hsave : SlotSite.Replies shelfReader (.store (.save "notes" 3)) (shelfWith shelfTold none)
      (.ok 3) (shelfWith shelfTold (some 3)) :=
    ⟨fun stored hstored => by rw [← Except.ok.inj hstored]; exact ⟨rfl, rfl⟩, .refl⟩
  have hreclaim : SlotSite.Replies shelfReader (.source (.reclaim "slot" 3))
      (shelfWith shelfTold (some 3)) (.ok ()) (shelfWith shelfReleased (some 3)) := ⟨shelf_reclaim, rfl⟩
  exact .ask hsave (.ask hreclaim (.ask (a := .ok ()) ⟨.refl, rfl⟩ (.done _ _)))

theorem transactions_read_once_of_shelf : ∃ job s,
    Cycles shelfReader notesJob (shelfWith shelf none) [shelfReading] job s ∧
      bookGone ∈ s.upstream.commits ∧ ReadOnce shelfReader [shelfReading] bookGone := by
  have hstep : shelf.Proceeds shelfCommitted := .single (.commit _ bookGone _ _)
  have hcycles : Cycles shelfReader notesJob (shelfWith shelf none) [shelfReading] _
      (shelfWith shelfReleased (some 3)) :=
    .cycle 1 (.proceeds .nothing hstep) shelf_reads shelf_applies
  have hmem : bookGone ∈ shelfReleased.commits := List.mem_singleton_self _
  exact ⟨_, _, hcycles, hmem,
    (transactions_read_once rfl hcycles).1 bookGone hmem (by decide) (by decide)⟩

end Job

end DocSync

