import DocSync.Proofs.Job.Reading
import DocSync.Proofs.Simulation.Quiet

/-!
Paged pulls.  A source covers the log page by page and may drop entries of a page; a pull goes on behind
what a page covers and ends at the first page that covers less than was asked for.  So it ends, and gives
what is left of each entry of the window once, in the order of the log, whatever the size of the pages.
-/

namespace DocSync

/-- An entry of a log: its transaction, and the record that a source makes of it unless it drops it. -/
structure LogEntry where
  txid : Nat
  record? : Option ChangeRecord

namespace LogEntry

/-- The entries of a window, in the order of the log. -/
def inWindow (window : TxWindow) (log : List LogEntry) : List LogEntry :=
  log.filter fun entry => window.contains entry.txid

/-- The records of the entries that are not dropped. -/
def records (entries : List LogEntry) : List ChangeRecord := entries.filterMap LogEntry.record?

/-- The page of at most `most` entries of a window after the first `offset`; entries that are dropped
count too. -/
def page (log : List LogEntry) (window : TxWindow) (most offset : Nat) : ChangePage :=
  let covered := ((inWindow window log).drop offset).take most
  ⟨records covered, covered.length⟩

/-- The entry of a record of a database, as a wiring lets it pass. -/
def through (wiring : Wiring) (r : ChangeRecord) : LogEntry :=
  ⟨r.txid, if wiring.ignored.contains r.table then none
    else some (if wiring.textKeys then World.respelled r else r)⟩

@[simp] theorem records_append (front back : List LogEntry) :
    records (front ++ back) = records front ++ records back := List.filterMap_append

theorem records_through (wiring : Wiring) (rs : List ChangeRecord) :
    records (rs.map (through wiring)) = (World.pageThrough wiring rs).records := by
  induction rs with
  | nil => simp [records, World.pageThrough]
  | cons r rest ih =>
    simp only [World.pageThrough] at ih ⊢
    by_cases hignored : r.table ∈ wiring.ignored <;> cases htext : wiring.textKeys <;>
      simpa [records, through, hignored, htext] using ih

theorem inWindow_through (wiring : Wiring) (window : TxWindow) (rs : List ChangeRecord) :
    inWindow window (rs.map (through wiring)) =
      (rs.filter fun r => window.contains r.txid).map (through wiring) := by
  rw [inWindow, List.filter_map]
  rfl

end LogEntry

/-- A program that has used up its allowance does not go on. -/
theorem Program.run_bind_spent {Request : Type} {Answer : Request → Type} {α β σ : Type}
    {answer : (r : Request) → σ → Answer r × σ} (p : Program Request Answer α)
    (f : α → Program Request Answer β) {s s' : σ} (h : p.run answer s = (none, s')) :
    (p.bind f).run answer s = (none, s') := by
  induction p generalizing s with
  | done value => simp [run] at h
  | spent =>
    obtain rfl : s = s' := by simpa [run] using h
    rfl
  | ask r next ih => exact ih _ h

/-- A source that pages through a log: in the states in which it is ready it answers a pull by the page
asked for, and is ready again. -/
structure ServesLog {σ : Type} (answer : (call : Call) → σ → call.Answer × σ) (slot : String)
    (log : List LogEntry) (ready : σ → Prop) : Prop where
  page : ∀ {s}, ready s → ∀ window most offset,
    (answer (.source (.pull slot window most offset)) s).1 = .ok (LogEntry.page log window most offset)
  again : ∀ {s}, ready s → ∀ window most offset,
    ready (answer (.source (.pull slot window most offset)) s).2

namespace Job

open LogEntry

variable {σ : Type} {answer : (call : Call) → σ → call.Answer × σ} {slot : String} {log : List LogEntry}
  {ready : σ → Prop}

/-- The program that goes on behind a page. -/
theorem pullPages_run_page {window : TxWindow} {most pages offset : Nat} {s s₁ : σ} {page : ChangePage}
    (h : answer (.source (.pull slot window most offset)) s = (.ok page, s₁)) :
    (pullPages slot window most (pages + 1) offset).run.run answer s =
      (ExceptT.run (if page.consumed < most then pure page.records
        else pullPages slot window most pages (offset + page.consumed) >>= fun others =>
          pure (page.records ++ others) : Attempt Failure (List ChangeRecord))).run answer s₁ := by
  have hpull : ((Source.pull slot window most offset).mapError
      (·.within ("Failed to pull changes in " ++ window.text ++ " from " ++ slot))).run.run answer s =
        (some (.ok page), s₁) :=
    Program.run_request_bind _ h
  rw [pullPages]
  exact Program.run_bind _ _ hpull

/-- A page that covers less than asked for is the last one. -/
theorem pullPages_run_last {window : TxWindow} {most pages offset : Nat} {s s₁ : σ} {page : ChangePage}
    (h : answer (.source (.pull slot window most offset)) s = (.ok page, s₁))
    (hlast : page.consumed < most) :
    (pullPages slot window most (pages + 1) offset).run.run answer s = (some (.ok page.records), s₁) := by
  rw [pullPages_run_page h, if_pos hlast]
  rfl

/-- Behind any other page the pull goes on. -/
theorem pullPages_run_more {window : TxWindow} {most pages offset : Nat} {s s₁ s' : σ} {page : ChangePage}
    {others : Option (List ChangeRecord)}
    (h : answer (.source (.pull slot window most offset)) s = (.ok page, s₁))
    (hmore : ¬ page.consumed < most)
    (hothers : (pullPages slot window most pages (offset + page.consumed)).run.run answer s₁ =
      (others.map .ok, s')) :
    (pullPages slot window most (pages + 1) offset).run.run answer s =
      (others.map fun others => .ok (page.records ++ others), s') := by
  rw [pullPages_run_page h, if_neg hmore]
  cases others with
  | none => exact Program.run_bind_spent _ _ hothers
  | some others => exact Program.run_bind _ _ hothers

/-- The pages from an offset on give what is left of the entries behind it, if the allowance is more than
the number of full pages among them. -/
theorem pullPages_run (h : ServesLog answer slot log ready) (window : TxWindow) {most : Nat}
    (hmost : 0 < most) (pages offset : Nat) {s : σ} (hs : ready s) :
    ∃ s', ready s' ∧ (pullPages slot window most pages offset).run.run answer s =
      ((if ((inWindow window log).drop offset).length / most < pages then
        some (records ((inWindow window log).drop offset)) else none).map .ok, s') := by
  induction pages generalizing offset s with
  | zero => exact ⟨s, hs, rfl⟩
  | succ pages ih =>
    have hanswer : answer (.source (.pull slot window most offset)) s =
        (.ok (page log window most offset), (answer (.source (.pull slot window most offset)) s).2) :=
      Prod.ext (h.page hs window most offset) rfl
    have hready := h.again hs window most offset
    rw [page] at hanswer
    generalize hrest : (inWindow window log).drop offset = rest at hanswer ⊢
    rcases Nat.lt_or_ge rest.length most with hlast | hmore
    · have hcovered : rest.take most = rest := List.take_of_length_le hlast.le
      rw [hcovered] at hanswer
      refine ⟨_, hready, ?_⟩
      rw [pullPages_run_last hanswer hlast, Nat.div_eq_of_lt hlast, if_pos pages.succ_pos]
      rfl
    · have hfull : (rest.take most).length = most := List.length_take_of_le hmore
      obtain ⟨s', hready', hothers⟩ := ih (offset + most) hready
      rw [← List.drop_drop, hrest] at hothers
      refine ⟨s', hready', ?_⟩
      rw [pullPages_run_more hanswer (by simp [hfull]) (by simpa only [hfull] using hothers),
        Nat.div_eq_sub_div hmost hmore, ← List.length_drop]
      by_cases hpages : (rest.drop most).length / most < pages
      · rw [if_pos hpages, if_pos (by omega)]
        simp [← records_append]
      · rw [if_neg hpages, if_neg (by omega)]
        rfl

/-- A pull of a whole window. -/
theorem pullWindow_run (h : ServesLog answer slot log ready) (window : TxWindow) (job : Job) (pages : Nat)
    {s : σ} (hs : ready s) :
    ∃ s', ready s' ∧ ((pullWindow pages slot window).run.run job).run answer s =
      (if (inWindow window log).length / max job.options.maxChanges 1 < pages then
        some (.ok (records (inWindow window log)), job) else none, s') := by
  have hmost : 0 < max job.options.maxChanges 1 := by omega
  obtain ⟨s', hready, hrun⟩ := pullPages_run h window hmost pages 0 hs
  rw [List.drop_zero] at hrun
  refine ⟨s', hready, ?_⟩
  change (Program.bind (Program.bind (pullPages slot window _ pages 0).run _) _).run answer s = _
  rw [Program.bind_assoc]
  split at hrun
  · rename_i hpages
    rw [if_pos hpages]
    exact Program.run_bind _ _ hrun
  · rename_i hpages
    rw [if_neg hpages]
    exact Program.run_bind_spent _ _ hrun

/-- A database whose pulls do not fail pages through what a slot has of its log. -/
theorem servesLog_database (wiring : Wiring) {s : Site} {found : Slot}
    (hcalm : s.1.faults.count .pull = 0) (hslot : s.1.database.slots.get? slot = some found) :
    ServesLog (World.answer wiring) slot
      ((Database.Slot.retained found s.1.database.log).map (through wiring)) (· = s) := by
  have hstrike : (if wiring.failing then s.1.strike .pull else (none, s.1)) = (none, s.1) := by
    simp [World.strike, Faults.strike, hcalm]
  have hanswer (window : TxWindow) (most offset : Nat) :
      World.answer wiring (.source (.pull slot window most offset)) s =
        (.ok (World.pageThrough wiring
          (((Database.Slot.within found window s.1.database.log).drop offset).take most)), s) := by
    simp only [World.answer, World.answerSource, hstrike, Database.pull, hslot]
    rfl
  constructor
  · rintro s rfl window most offset
    rw [hanswer, LogEntry.page, inWindow_through, ← List.map_drop, ← List.map_take, records_through,
      List.length_map]
    rfl
  · rintro s rfl window most offset
    rw [hanswer]

/-- **A pull reads the whole window once.**  From any source that pages through a log, whatever entries it
drops, it gives what is left of the entries of the window, each once and in the order of the log, for
every size of the pages; it ends, and takes one page more than the window has full pages.  From a database
it gives the records of the log inside the window, above the release of the slot and from its start on. -/
theorem pullWindow_reads_window (slot : String) (window : TxWindow) (job : Job) (pages : Nat) :
    (∀ {σ : Type} {answer : (call : Call) → σ → call.Answer × σ} {log : List LogEntry} {ready : σ → Prop},
      ServesLog answer slot log ready → ∀ s, ready s →
        ∃ s', ready s' ∧ ((pullWindow pages slot window).run.run job).run answer s =
          (if (inWindow window log).length / max job.options.maxChanges 1 < pages then
            some (.ok (records (inWindow window log)), job) else none, s')) ∧
    ∀ {wiring : Wiring} {s : Site} {found : Slot}, wiring.Faithful →
      s.1.faults.count .pull = 0 → s.1.database.slots.get? slot = some found →
        let read := s.1.database.log.filter fun r => (window.txmin < r.txid ∧ r.txid ≤ window.txmax) ∧
          found.reclaimedUpTo < r.txid ∧ found.start ≤ r.position
        World.runRoutine wiring ((pullWindow pages slot window).run.run job) s =
          (if read.length / max job.options.maxChanges 1 < pages then some (.ok read, job) else none, s) := by
  refine ⟨fun h s hs => pullWindow_run h window job pages hs, fun {wiring s found} hwiring hcalm hslot => ?_⟩
  obtain ⟨s', hs', hrun⟩ := pullWindow_run (servesLog_database wiring hcalm hslot) window job pages rfl
  have hread : (Database.Slot.retained found s.1.database.log).filter (fun r => window.contains r.txid) =
      s.1.database.log.filter fun r => (window.txmin < r.txid ∧ r.txid ≤ window.txmax) ∧
        found.reclaimedUpTo < r.txid ∧ found.start ≤ r.position := by
    rw [Database.Slot.retained, List.filter_filter]
    refine List.filter_congr fun r _ => Bool.eq_iff_iff.mpr ?_
    simp only [TxWindow.contains, Bool.and_eq_true, decide_eq_true_eq]
    omega
  rw [inWindow_through, hread, List.length_map, records_through, pageThrough_faithful hwiring, hs']
    at hrun
  exact hrun

/-- Two books, a note between them, and a third book; a slot has them all. -/
def notedBooks : Site :=
  let written (table : String) (txid : Nat) : ChangeRecord :=
    ⟨table, .insert, [("isbn", .ofNat txid)], none, none, txid, txid⟩
  bookSite { Database.empty bookSchema with
    log := [written "book" 1, written "note" 2, written "book" 3, written "book" 4]
    slots := [("books", ⟨0, 0⟩)] }

/-- A wiring that leaves out the notes. -/
def noteless : Wiring := { bookWiring with ignored := ["note"] }

/-- A job that pulls two entries at a time. -/
def pairwiseJob : Job :=
  { bookJob "books" with options := { (bookJob "books").options with maxChanges := 2 } }

/-- The last page is full, and the first one has a note that is dropped: the pull goes on behind both. -/
theorem pullWindow_reads_noted_books :
    ServesLog (World.answer noteless) "books"
      (notedBooks.1.database.log.map (through noteless)) (· = notedBooks) ∧
    bookWiring.Faithful ∧ notedBooks.1.faults.count .pull = 0 ∧
    notedBooks.1.database.slots.get? "books" = some ⟨0, 0⟩ ∧
    ((((pullWindow 3 "books" ⟨0, 4⟩).run.run pairwiseJob).run
      (World.answer noteless) notedBooks).1.map fun result =>
        result.1.map (·.map ChangeRecord.txid)) = some (.ok [1, 3, 4]) ∧
    ((World.runRoutine bookWiring ((pullWindow 3 "books" ⟨0, 4⟩).run.run pairwiseJob) notedBooks).1.map
      fun result => result.1.map (·.map ChangeRecord.txid)) = some (.ok [1, 2, 3, 4]) := by
  have hcalm : notedBooks.1.faults.count .pull = 0 := rfl
  have hslot : notedBooks.1.database.slots.get? "books" = some ⟨0, 0⟩ := rfl
  have hfaithful : bookWiring.Faithful := ⟨rfl, rfl⟩
  have hserves : ServesLog (World.answer noteless) "books"
      (notedBooks.1.database.log.map (through noteless)) (· = notedBooks) :=
    servesLog_database noteless hcalm hslot
  obtain ⟨hsource, hdatabase⟩ := pullWindow_reads_window "books" ⟨0, 4⟩ pairwiseJob 3
  obtain ⟨s', -, hdropped⟩ := hsource hserves notedBooks rfl
  have hall := hdatabase hfaithful hcalm hslot
  refine ⟨hserves, hfaithful, hcalm, hslot, ?_, ?_⟩
  · rw [hdropped]
    rfl
  · rw [hall]
    rfl

end Job

end DocSync
