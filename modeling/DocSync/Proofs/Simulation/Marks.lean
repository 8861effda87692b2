import DocSync.Proofs.Simulation.Views
import DocSync.Simulation.Answer
import Mathlib.Data.List.Basic

/-!
Checkpoint stores in use.  A store in memory, and a file that is closed and opened again between calls, are
called for any indices in any order.  Main statement: a call is answered by the greatest transaction id that
was saved for its index so far, so both kinds of store give the same answers, and a file that cannot be read
fails every call and stays as it is.
-/

namespace DocSync

abbrev StoreTurn := (call : StoreCall) × call.Answer

namespace StoreCall

/-- The greatest transaction id that calls save for an index. -/
def greatest (index : String) (calls : List StoreCall) : Option Nat :=
  (calls.filterMap fun
    | save other txmin => if other = index then some txmin else none
    | load _ => none).max?

theorem greatest_concat_load (index other : String) (calls : List StoreCall) :
    greatest index (calls ++ [load other]) = greatest index calls := by
  simp [greatest]

theorem max?_concat (marks : List Nat) (mark : Nat) :
    (marks ++ [mark]).max? = some (max mark (marks.max?.getD 0)) := by
  cases marks with
  | nil => simp
  | cons first rest =>
    rw [List.cons_append, List.max?_cons', List.max?_cons', List.foldl_append]
    exact congrArg some (Nat.max_comm _ _)

theorem greatest_concat_save (index other : String) (txmin : Nat) (calls : List StoreCall) :
    greatest index (calls ++ [save other txmin]) =
      if other = index then some (max txmin ((greatest index calls).getD 0))
      else greatest index calls := by
  unfold greatest
  rw [List.filterMap_append]
  split
  · rename_i heq
    simp [heq, max?_concat]
  · rename_i hne
    simp [hne]

/-- The answer to a call after others: the greatest transaction id saved for its index, what the call itself
saves included. -/
def due (before : List StoreCall) : (call : StoreCall) → call.Answer
  | load index => .ok (greatest index before)
  | save index txmin => .ok ((greatest index (before ++ [save index txmin])).getD 0)

/-- Calls in turn after others, each with the answer that is due. -/
def answered (before : List StoreCall) : List StoreCall → List StoreTurn
  | [] => []
  | call :: rest => ⟨call, due before call⟩ :: answered (before ++ [call]) rest

theorem answered_concat (before calls : List StoreCall) (call : StoreCall) :
    answered before (calls ++ [call]) = answered before calls ++ [⟨call, due (before ++ calls) call⟩] := by
  induction calls generalizing before with
  | nil => simp [answered]
  | cons first rest ih => simp [answered, ih]

end StoreCall

def StoreTurn.Fails : StoreTurn → Prop
  | ⟨.load _, answer⟩ => ∃ e, answer = .error e
  | ⟨.save .., answer⟩ => ∃ e, answer = .error e

namespace World

open StoreCall

/-- A store is called in turn.  Between calls a file may be closed and opened again, under any path of its
place and for any source. -/
inductive Uses (start : World × String) : List StoreTurn → World × String → Prop
  | opened : Uses start [] start
  | call {turns : List StoreTurn} {w : World} {store : String} (call : StoreCall) :
      Uses start turns (w, store) →
        Uses start (turns ++ [⟨call, (answerStore store call w).1⟩]) ((answerStore store call w).2, store)
  | reopen {turns : List StoreTurn} {w : World} {store path : String} (sourceUrl : String) :
      Uses start turns (w, store) → isFile store → isFile path → pathParts path = pathParts store →
        Uses start turns ({ w with sourceUrl := sourceUrl }, path)

/-! ### Stores that work -/

/-- Calls of stores are not made to fail. -/
def StoresCalm (w : World) : Prop := w.faults.count .load = 0 ∧ w.faults.count .save = 0

/-- A store that works and holds what calls saved. -/
structure HoldsMarks (calls : List StoreCall) (w : World) (store : String) : Prop where
  marks : ∀ index, w.mark store index = .ok (greatest index calls)
  room : (isFile store && w.isBelowFile store) = false
  calm : w.StoresCalm

variable {calls : List StoreCall} {w : World} {store : String}

theorem HoldsMarks.load (h : HoldsMarks calls w store) (index : String) :
    w.loadMark store index = (.ok (greatest index calls), w) := by
  have hstrike : w.strike .load = (none, w) := by simp [strike, Faults.strike, h.calm.1]
  simp only [loadMark, hstrike, h.marks]

theorem saveMark_faults_calm (h : w.StoresCalm) (index : String) (txmin : Nat) :
    (w.saveMark store index txmin).2.faults = w.faults := by
  have hstrike : w.strike .save = (none, w) := by simp [strike, Faults.strike, h.2]
  simp only [saveMark, hstrike, storeCheckpoints]
  split
  · split
    · rfl
    · split
      · rename_i hstored
        split at hstored
        · contradiction
        · rw [← Except.ok.inj hstored]
          rfl
      · rfl
  · rfl

theorem HoldsMarks.save (h : HoldsMarks calls w store) (index : String) (txmin : Nat) :
    (w.saveMark store index txmin).1 = .ok (max txmin ((greatest index calls).getD 0)) ∧
      HoldsMarks (calls ++ [.save index txmin]) (w.saveMark store index txmin).2 store := by
  have hanswer : (w.saveMark store index txmin).1 = .ok (max txmin ((greatest index calls).getD 0)) := by
    rw [saveMark_calm h.calm.2, h.marks, h.room]
    rfl
  refine ⟨hanswer, fun other => ?_, ?_, ?_⟩
  · rw [mark_saveMark, hanswer, greatest_concat_save]
    split
    · rename_i heq
      rw [heq]
    · exact h.marks other
  · rw [isBelowFile_saveMark]
    exact h.room
  · rw [StoresCalm, saveMark_faults_calm h.calm]
    exact h.calm

theorem HoldsMarks.call (h : HoldsMarks calls w store) (call : StoreCall) :
    (answerStore store call w).1 = due calls call ∧
      HoldsMarks (calls ++ [call]) (answerStore store call w).2 store := by
  cases call with
  | load index =>
    simp only [answerStore, h.load]
    refine ⟨rfl, fun other => ?_, h.room, h.calm⟩
    rw [greatest_concat_load]
    exact h.marks other
  | save index txmin =>
    obtain ⟨hanswer, hholds⟩ := h.save index txmin
    refine ⟨?_, hholds⟩
    simp only [answerStore, due, hanswer, greatest_concat_save]
    rfl

/-- Only the place of a file counts, and what is to be a new file's source counts for no mark. -/
theorem file_reopen {path : String} (hparts : pathParts path = pathParts store) (sourceUrl : String) :
    file { w with sourceUrl := sourceUrl } path = w.file store := by
  simp only [file, filePlace, hparts]

theorem HoldsMarks.reopen (h : HoldsMarks calls w store) {path : String} (hstore : isFile store)
    (hpath : isFile path) (hparts : pathParts path = pathParts store) (sourceUrl : String) :
    HoldsMarks calls { w with sourceUrl := sourceUrl } path := by
  refine ⟨fun index => ?_, ?_, h.calm⟩
  · -- A file that is there keeps its own source; only a missing one takes the source at hand.
    have hmark := h.marks index
    simp only [mark, hstore, hpath, if_true, checkpointsIn, file_reopen hparts] at hmark ⊢
    cases hfile : w.file store with
    | missing =>
      rw [hfile] at hmark
      exact hmark
    | readable found => simpa only [hfile] using hmark
    | directory | unreadable =>
      rw [hfile] at hmark
      contradiction
  · have hroom := h.room
    simp only [hstore, hpath, Bool.true_and, isBelowFile, filePlace, hparts] at hroom ⊢
    exact hroom

theorem Uses.answered {start s : World × String} {turns : List StoreTurn} (h : Uses start turns s)
    (hstart : HoldsMarks [] start.1 start.2) :
    turns = StoreCall.answered [] (turns.map Sigma.fst) ∧ HoldsMarks (turns.map Sigma.fst) s.1 s.2 := by
  induction h with
  | opened => exact ⟨rfl, hstart⟩
  | call call _ ih =>
    obtain ⟨hturns, hholds⟩ := ih
    obtain ⟨hanswer, hafter⟩ := hholds.call call
    rw [List.map_append]
    refine ⟨?_, hafter⟩
    rw [List.map_singleton, answered_concat, ← hturns, List.nil_append, hanswer]
  | reopen sourceUrl _ hstore hpath hparts ih => exact ⟨ih.1, ih.2.reopen hstore hpath hparts sourceUrl⟩

theorem holdsMarks_missing {file : String} (hfile : isFile file) (hmissing : w.file file = .missing)
    (hroom : w.isBelowFile file = false) (hcalm : w.StoresCalm) : HoldsMarks [] w file := by
  refine ⟨fun index => ?_, by rw [hroom, Bool.and_false], hcalm⟩
  rw [mark, if_pos hfile, checkpointsIn, hmissing]
  rfl

theorem holdsMarks_memory {memory : String} (hmemory : isFile memory = false)
    (hnew : w.stores.get? memory = none) (hcalm : w.StoresCalm) : HoldsMarks [] w memory := by
  refine ⟨fun index => ?_, by rw [hmemory, Bool.false_and], hcalm⟩
  simp only [mark, hmemory, Bool.false_eq_true, if_false, Keyed.getD, hnew]
  rfl

/-! ### Files that cannot be read -/

theorem answerStore_unreadable (hfile : isFile store) (hunreadable : w.file store = .unreadable)
    (call : StoreCall) :
    StoreTurn.Fails ⟨call, (answerStore store call w).1⟩ ∧ (answerStore store call w).2.files = w.files := by
  have hread (sourceUrl : String) (faults : Faults) :
      checkpointsIn { w with faults := faults } store sourceUrl =
        .error (pathFailure "Failed to parse checkpoints from" (w.filePath store)) := by
    have hsame : file { w with faults := faults } store = .unreadable := hunreadable
    rw [checkpointsIn, hsame]
    rfl
  cases call with
  | load index =>
    simp only [answerStore, loadMark]
    rcases hstrike : w.strike .load with ⟨failure, w₁⟩
    obtain ⟨faults, rfl⟩ : ∃ faults, w₁ = { w with faults := faults } :=
      ⟨_, (congrArg Prod.snd hstrike).symm⟩
    cases failure with
    | some failure => exact ⟨⟨failure, rfl⟩, rfl⟩
    | none =>
      simp only [mark, hfile, if_true, hread]
      exact ⟨⟨_, rfl⟩, trivial⟩
  | save index txmin =>
    simp only [answerStore, saveMark]
    rcases hstrike : w.strike .save with ⟨failure, w₁⟩
    obtain ⟨faults, rfl⟩ : ∃ faults, w₁ = { w with faults := faults } :=
      ⟨_, (congrArg Prod.snd hstrike).symm⟩
    cases failure with
    | some failure => exact ⟨⟨failure, rfl⟩, rfl⟩
    | none =>
      simp only [hfile, if_true, hread]
      exact ⟨⟨_, rfl⟩, trivial⟩

theorem Uses.unreadable {start s : World × String} {turns : List StoreTurn} (h : Uses start turns s)
    (hfile : isFile start.2) (hunreadable : start.1.file start.2 = .unreadable) :
    (isFile s.2 ∧ s.1.file s.2 = .unreadable ∧ s.1.files = start.1.files) ∧
      ∀ turn ∈ turns, turn.Fails := by
  induction h with
  | opened => exact ⟨⟨hfile, hunreadable, rfl⟩, by simp⟩
  | @call turns w store call _ ih =>
    obtain ⟨⟨hstore, hbroken, hfiles⟩, hfails⟩ := ih
    obtain ⟨hfail, hsame⟩ := answerStore_unreadable hstore hbroken call
    have hplace : (answerStore store call w).2.file store = w.file store := by simp only [file, hsame]
    refine ⟨⟨hstore, hplace.trans hbroken, hsame.trans hfiles⟩, fun turn hturn => ?_⟩
    rcases List.mem_append.mp hturn with hturn | hturn
    · exact hfails turn hturn
    · rw [List.mem_singleton.mp hturn]
      exact hfail
  | reopen sourceUrl _ _ hpath hparts ih =>
    obtain ⟨⟨_, hbroken, hfiles⟩, hfails⟩ := ih
    exact ⟨⟨hpath, (file_reopen hparts sourceUrl).trans hbroken, hfiles⟩, hfails⟩

/-- **Checkpoint stores hold the running maximum.**  A new store in memory and a new file, which may be closed
and opened again between calls, answer every load with the greatest transaction id saved for the index so far
and every save with the greatest including its own, so the same calls have the same answers.  While the text of
a file is none of a checkpoint file, every call of it fails and the file stays as it is. -/
theorem stores_hold_running_maximum {w w' : World} {file memory : String} {turns turns' : List StoreTurn}
    {s s' : World × String} (hfile : isFile file = true) (hmissing : w.file file = .missing)
    (hroom : w.isBelowFile file = false) (hcalm : w.StoresCalm) (hmemory : isFile memory = false)
    (hnew : w'.stores.get? memory = none) (hcalm' : w'.StoresCalm) (h : Uses (w, file) turns s)
    (h' : Uses (w', memory) turns' s') :
    turns = StoreCall.answered [] (turns.map Sigma.fst) ∧
    turns' = StoreCall.answered [] (turns'.map Sigma.fst) ∧
    (turns.map Sigma.fst = turns'.map Sigma.fst → turns = turns') ∧
    ∀ (broken : World) (text : String), CheckpointFile.ofText? text = none →
      ∀ attempts after, Uses (broken.putFile file (.ofText text), file) attempts after →
        (∀ turn ∈ attempts, turn.Fails) ∧ after.1.files = (broken.putFile file (.ofText text)).files := by
  obtain ⟨hturns, -⟩ := h.answered (holdsMarks_missing hfile hmissing hroom hcalm)
  obtain ⟨hturns', -⟩ := h'.answered (holdsMarks_memory hmemory hnew hcalm')
  refine ⟨hturns, hturns', fun hsame => ?_, fun broken text htext attempts after hattempts => ?_⟩
  · rw [hturns, hturns', hsame]
  · have hunreadable : (broken.putFile file (.ofText text)).file file = .unreadable := by
      simp [World.file, putFile, Keyed.get?_put, StoredFile.ofText, htext]
    obtain ⟨⟨-, -, hfiles⟩, hfails⟩ := hattempts.unreadable hfile hunreadable
    exact ⟨hfails, hfiles⟩

/-- A stale save and an index that is never saved, with the file opened again in between. -/
theorem stores_hold_running_maximum_reopened :
    let w := World.empty default default "data" "postgres://localhost/shop"
    let calls : List StoreCall := [.save "books" 5, .save "books" 3, .load "books", .load "authors"]
    ∃ turns turns' s s', Uses (w, "shop.json") turns s ∧ Uses (w, "memory") turns' s' ∧
      turns.map Sigma.fst = calls ∧ turns = turns' ∧
      turns = [⟨.save "books" 5, .ok 5⟩, ⟨.save "books" 3, .ok 5⟩, ⟨.load "books", .ok (some 5)⟩,
        ⟨.load "authors", .ok none⟩] := by
  intro w calls
  obtain ⟨turns, s, h, hcalls⟩ : ∃ turns s, Uses (w, "shop.json") turns s ∧ turns.map Sigma.fst = calls := by
    have hsaved : Uses (w, "shop.json") _ _ := .call (.save "books" 3) (.call (.save "books" 5) .opened)
    have hreopened : Uses (w, "shop.json") _ (_, "./shop.json") :=
      .reopen "postgres://localhost/other" hsaved (by decide +kernel) (by decide +kernel) (by decide +kernel)
    exact ⟨_, _, .call (.load "authors") (.call (.load "books") hreopened), rfl⟩
  obtain ⟨turns', s', h', hcalls'⟩ : ∃ turns s, Uses (w, "memory") turns s ∧ turns.map Sigma.fst = calls :=
    ⟨_, _, .call (.load "authors") (.call (.load "books") (.call (.save "books" 3)
      (.call (.save "books" 5) .opened))), rfl⟩
  obtain ⟨hturns, -, hagree, -⟩ := stores_hold_running_maximum (by decide +kernel) rfl rfl ⟨rfl, rfl⟩
    (by decide +kernel) rfl ⟨rfl, rfl⟩ h h'
  refine ⟨turns, turns', s, s', h, h', hcalls, hagree (hcalls.trans hcalls'.symm), ?_⟩
  rw [hturns, hcalls]
  rfl

end World

end DocSync
