import DocSync.Proofs.Change.Window
import DocSync.Proofs.Relation.History
import Mathlib.Data.List.TakeWhile

/-!
What a reader of a slot gets from a server while transactions start and end.  A page of a window holds
the next change lines whose low halves lie in it, each under its whole id; releasing the slot advances
it past commits up to an id, and past no other.
-/

namespace DocSync

/-! ### Time passing on the server -/

namespace Upstream

/-- Time has passed on a server: what is in progress or committed and was not before had not ended yet. -/
structure Grows (u u' : Upstream) : Prop where
  next : u.next ≤ u'.next
  commits : ∃ more, u'.commits = u.commits ++ more ∧ ∀ c ∈ more, c.id ∈ u.running ∨ u.next ≤ c.id
  running : ∀ id ∈ u'.running, id ∈ u.running ∨ u.next ≤ id

/-- Every id up to `n` was handed out and has ended. -/
def Settled (u : Upstream) (n : Nat) : Prop := n < u.next ∧ ∀ id ∈ u.running, n < id

variable {u v w : Upstream}

theorem Grows.refl (u : Upstream) : Grows u u :=
  ⟨Nat.le_refl _, ⟨[], by simp, by simp⟩, fun _ h => .inl h⟩

theorem Grows.trans (h : Grows u v) (h' : Grows v w) : Grows u w := by
  have hopen {id : Nat} (hid : id ∈ v.running ∨ v.next ≤ id) : id ∈ u.running ∨ u.next ≤ id := by
    rcases hid with hid | hid
    · exact h.running id hid
    · exact .inr (Nat.le_trans h.next hid)
  obtain ⟨more, hv, hmore⟩ := h.commits
  obtain ⟨later, hw, hlater⟩ := h'.commits
  refine ⟨Nat.le_trans h.next h'.next, ⟨more ++ later, by rw [hw, hv, List.append_assoc], ?_⟩,
    fun id hid => hopen (h'.running id hid)⟩
  intro c hc
  rcases List.mem_append.mp hc with hc | hc
  · exact hmore c hc
  · exact hopen (hlater c hc)

theorem Settled.mono {n : Nat} (h : u.Settled n) (hgrows : Grows u v) : v.Settled n := by
  refine ⟨Nat.lt_of_lt_of_le h.1 hgrows.next, fun id hid => ?_⟩
  rcases hgrows.running id hid with hid | hid
  · exact h.2 id hid
  · exact Nat.lt_of_lt_of_le h.1 hid

/-- No transaction commits any more under an id that has ended. -/
theorem Settled.mem_commits {n : Nat} {c : Commit} (h : u.Settled n) (hgrows : Grows u v)
    (hc : c ∈ v.commits) (hid : c.id ≤ n) : c ∈ u.commits := by
  obtain ⟨more, hcommits, hmore⟩ := hgrows.commits
  rw [hcommits] at hc
  rcases List.mem_append.mp hc with hc | hc
  · exact hc
  · rcases hmore c hc with hrunning | hnext
    · have := h.2 _ hrunning
      omega
    · have := h.1
      omega

/-- Time has passed, and the slot was not advanced. -/
structure Rests (u v : Upstream) : Prop where
  grows : Grows u v
  released : v.released = u.released

theorem Rests.refl (u : Upstream) : Rests u u := ⟨.refl u, rfl⟩

theorem Rests.trans (h : Rests u v) (h' : Rests v w) : Rests u w :=
  ⟨h.grows.trans h'.grows, h'.released.trans h.released⟩

theorem Rests.tell (h : Rests u v) (reference : Nat) : Rests u { v with told := reference } :=
  ⟨⟨h.grows.next, h.grows.commits, h.grows.running⟩, h.released⟩

theorem Step.rests (h : Step u v) : Rests u v ∧ v.told = u.told := by
  cases h with
  | start =>
    refine ⟨⟨⟨Nat.le_succ _, ⟨[], (List.append_nil _).symm, by simp⟩, fun id hid => ?_⟩, rfl⟩, rfl⟩
    rcases List.mem_cons.mp hid with rfl | hid
    · exact .inr (Nat.le_refl _)
    · exact .inl hid
  | abort id =>
    exact ⟨⟨⟨Nat.le_refl _, ⟨[], (List.append_nil _).symm, by simp⟩,
      fun _ hid => .inl (List.mem_filter.mp hid).1⟩, rfl⟩, rfl⟩
  | commit c hrunning hplace =>
    refine ⟨⟨⟨Nat.le_refl _, ⟨[c], rfl, fun d hd => ?_⟩,
      fun _ hid => .inl (List.mem_filter.mp hid).1⟩, rfl⟩, rfl⟩
    rw [List.mem_singleton.mp hd]
    exact .inl hrunning

theorem Proceeds.rests (h : Proceeds u v) : Rests u v ∧ v.told = u.told := by
  induction h with
  | refl => exact ⟨.refl u, rfl⟩
  | tail _ hstep ih => exact ⟨ih.1.trans hstep.rests.1, hstep.rests.2.trans ih.2⟩

/-- What a slot shows stays where it is, and more comes after it. -/
theorem Rests.retained (h : Rests u v) : u.retained <+: v.retained := by
  obtain ⟨more, hcommits, -⟩ := h.grows.commits
  rw [Upstream.retained, Upstream.retained, h.released, hcommits, List.drop_append]
  exact List.prefix_append _ _

theorem Rests.listing (h : Rests u v) (condition : IdCondition) :
    u.listing condition <+: v.listing condition := by
  obtain ⟨more, hmore⟩ := h.retained
  rw [Upstream.listing, Upstream.listing, lines, lines, ← hmore, List.flatMap_append,
    List.filter_append]
  exact List.prefix_append _ _

theorem InReach.of_mem_listing (h : u.InReach) {condition : IdCondition} {entry : Nat × String}
    (hentry : entry ∈ u.listing condition) : Reaches u.told entry.1 := by
  obtain ⟨c, hc, hline⟩ := List.mem_flatMap.mp (List.mem_filter.mp hentry).1
  obtain ⟨line, -, rfl⟩ := List.mem_map.mp hline
  exact h c hc

/-- What a slot was advanced past, while it rests. -/
theorem Rests.dropped (h : Rests u v) : v.dropped = u.dropped := by
  obtain ⟨more, hcommits, -⟩ := h.grows.commits
  rw [Upstream.dropped, Upstream.dropped, h.released, hcommits,
    List.take_append_of_le_length u.released_le]

theorem advance_grows (u : Upstream) (place : String) : Grows u (u.advance place) := by
  unfold advance
  split
  · exact ⟨Nat.le_refl _, ⟨[], (List.append_nil _).symm, by simp⟩, fun _ h => .inl h⟩
  · exact .refl u

/-- A slot that is advanced past a commit is advanced past what it showed before it, and no further. -/
theorem advance_dropped {before after : List Commit} {c : Commit}
    (h : u.retained = before ++ c :: after) :
    (u.advance c.place).dropped = u.dropped ++ before ++ [c] := by
  have hlength : u.dropped.length = u.released := List.length_take_of_le u.released_le
  have hwhole : u.commits = u.dropped ++ before ++ c :: after := by
    rw [List.append_assoc, ← h]
    exact (List.take_append_drop _ _).symm
  have hfind : u.commits.findIdx? (·.place = c.place) = some (u.dropped ++ before).length := by
    have hplaces := u.places
    rw [hwhole, List.map_append, List.map_cons, List.nodup_append] at hplaces
    rw [hwhole, List.findIdx?_append, List.findIdx?_eq_none_iff.mpr, List.findIdx?_cons]
    · simp
    · intro d hd
      simpa using hplaces.2.2 _ (List.mem_map_of_mem hd) c.place (by simp)
  unfold advance
  split
  · rename_i i hi
    obtain rfl := Option.some.inj (hi.symm.trans hfind)
    have hmax : max u.released ((u.dropped ++ before).length + 1) =
        (u.dropped ++ before ++ [c]).length := by
      simp only [List.length_append, List.length_singleton]
      omega
    have hsplit : u.commits = (u.dropped ++ before ++ [c]) ++ after := by rw [hwhole]; simp
    change u.commits.take (max u.released ((u.dropped ++ before).length + 1)) = _
    rw [hmax, hsplit, List.take_left]
  · rename_i hnone
    rw [hfind] at hnone
    contradiction

/-- A slot that is advanced past the last commit up to an id, found before, is advanced past no commit
after that id. -/
theorem advance_spares {upTo : Nat} {c : Commit} (hrests : Rests u v)
    (hlast : (u.retained.takeWhile (·.id ≤ upTo)).getLast? = some c) :
    ∀ d ∈ (v.advance c.place).dropped, d ∈ u.dropped ∨ d.id ≤ upTo := by
  obtain ⟨before, hbefore⟩ := List.getLast?_eq_some_iff.mp hlast
  obtain ⟨more, hmore⟩ := hrests.retained
  have hwhole : before ++ [c] ++ u.retained.dropWhile (·.id ≤ upTo) = u.retained :=
    hbefore ▸ List.takeWhile_append_dropWhile
  have hsplit : v.retained = before ++ c :: (u.retained.dropWhile (·.id ≤ upTo) ++ more) := by
    calc v.retained
      _ = u.retained ++ more := hmore.symm
      _ = before ++ [c] ++ u.retained.dropWhile (·.id ≤ upTo) ++ more := by rw [hwhole]
      _ = _ := by simp
  rw [advance_dropped hsplit, hrests.dropped, List.append_assoc, ← hbefore]
  intro d hd
  rcases List.mem_append.mp hd with hd | hd
  · exact .inl hd
  · exact .inr (by simpa using List.mem_takeWhile_imp hd)

end Upstream

/-! ### Conversations with the server -/

namespace Dialogue

open Upstream (Proceeds Answers)

variable {u u' : Upstream} {context text : String} {parameters : List Parameter}

theorem rows_talks {result : Except Failure (List ResultRow)}
    (h : (rows context text parameters).run.Talks Upstream.Replies u result u') :
    ∃ v answer, Proceeds u v ∧ Answers (SlotCommand.read ⟨text, parameters⟩) v answer u' ∧
      result = answer.mapError fun _ => .ofText context := by
  obtain ⟨answer, u₁, hsend, hrest⟩ := Program.talks_bind.mp h
  obtain ⟨v, hproceeds, hanswer⟩ := Program.talks_request.mp hsend
  cases answer with
  | ok found =>
    obtain ⟨rfl, rfl⟩ := Program.talks_done.mp hrest
    exact ⟨v, _, hproceeds, hanswer, rfl⟩
  | error e =>
    obtain ⟨rfl, rfl⟩ := Program.talks_done.mp hrest
    exact ⟨v, _, hproceeds, hanswer, rfl⟩

theorem rows_talks_ok {found : List ResultRow}
    (h : (rows context text parameters).run.Talks Upstream.Replies u (.ok found) u') :
    ∃ v, Proceeds u v ∧ Answers (SlotCommand.read ⟨text, parameters⟩) v (.ok found) u' := by
  obtain ⟨v, answer, hproceeds, hanswer, hfound⟩ := rows_talks h
  cases answer with
  | ok rows => exact ⟨v, hproceeds, Except.ok.inj hfound ▸ hanswer⟩
  | error e => contradiction

theorem expect_talks {α : Type} {found : Option α} {result : Except Failure α}
    (h : (expect context found).run.Talks Upstream.Replies u result u') :
    u' = u ∧ ∀ value, result = .ok value → found = some value := by
  cases found with
  | some a =>
    obtain ⟨rfl, rfl⟩ := Program.talks_done.mp h
    exact ⟨rfl, fun value hvalue => congrArg some (Except.ok.inj hvalue)⟩
  | none =>
    obtain ⟨rfl, rfl⟩ := Program.talks_done.mp h
    exact ⟨rfl, fun value hvalue => by contradiction⟩

theorem oneRow_talks {result : Except Failure ResultRow}
    (h : (oneRow context text parameters).run.Talks Upstream.Replies u result u') :
    ∃ v answer, Proceeds u v ∧ Answers (SlotCommand.read ⟨text, parameters⟩) v answer u' ∧
      ∀ row, result = .ok row → answer = .ok [row] := by
  rcases Program.talks_run_bind.mp h with ⟨found, u₁, hrows, hrest⟩ | ⟨e, hrows, rfl⟩
  · obtain ⟨v, hproceeds, hanswer⟩ := rows_talks_ok hrows
    split at hrest
    · obtain ⟨rfl, rfl⟩ := Program.talks_done.mp hrest
      exact ⟨v, _, hproceeds, hanswer, fun row hrow => by rw [Except.ok.inj hrow]⟩
    · obtain ⟨rfl, rfl⟩ := Program.talks_done.mp hrest
      exact ⟨v, _, hproceeds, hanswer, fun row hrow => by contradiction⟩
  · obtain ⟨v, answer, hproceeds, hanswer, hfound⟩ := rows_talks hrows
    exact ⟨v, answer, hproceeds, hanswer, fun row hrow => by contradiction⟩

end Dialogue

/-! ### Ids of a snapshot -/

namespace ServerSession

open Upstream (Proceeds Rests)

variable {u u' : Upstream} {result : Except Failure Nat}

theorem snapshotId_talks {function : String}
    (h : (snapshotId function).run.Talks Upstream.Replies u result u') :
    ∃ v answer, Proceeds u v ∧
      Upstream.Answers (SlotCommand.read
        ⟨"SELECT " ++ function ++ "(txid_current_snapshot())::text::bigint", []⟩) v answer u' ∧
      ∀ id, result = .ok id → ∃ (row : ResultRow) (i : Int), answer = .ok [row] ∧
        row.integer? 0 = some i ∧ id = unsignedWord i := by
  rcases Program.talks_run_bind.mp h with ⟨row, u₁, hrow, hrest⟩ | ⟨e, hrow, rfl⟩
  · obtain ⟨v, answer, hproceeds, hanswer, hone⟩ := Dialogue.oneRow_talks hrow
    rcases Program.talks_run_bind.mp hrest with ⟨i, u₂, hexpect, hdone⟩ | ⟨e, hexpect, rfl⟩
    · obtain ⟨rfl, hvalue⟩ := Dialogue.expect_talks hexpect
      obtain ⟨rfl, rfl⟩ := Program.talks_done.mp hdone
      exact ⟨v, answer, hproceeds, hanswer, fun id hid =>
        ⟨row, i, hone row rfl, hvalue i rfl, (Except.ok.inj hid).symm⟩⟩
    · obtain ⟨rfl, -⟩ := Dialogue.expect_talks hexpect
      exact ⟨v, answer, hproceeds, hanswer, fun id hid => by contradiction⟩
  · obtain ⟨v, answer, hproceeds, hanswer, -⟩ := Dialogue.oneRow_talks hrow
    exact ⟨v, answer, hproceeds, hanswer, fun id hid => by contradiction⟩

theorem unsignedWord_ofNat {n : Nat} (h : n < 1 <<< 63) : unsignedWord n = n := by
  have hbound : n < 9223372036854775808 := h
  change ((n : Int) % (18446744073709551616 : Nat)).toNat = n
  omega

/-- Before the oldest id in progress every transaction has ended. -/
theorem oldest_talks (h : (snapshotId "txid_snapshot_xmin").run.Talks Upstream.Replies u result u') :
    Rests u u' ∧ ∀ id, result = .ok id → id ≤ u'.next ∧ ∀ other ∈ u'.running, id ≤ other := by
  obtain ⟨v, answer, hproceeds, hanswer, hresult⟩ := snapshotId_talks h
  rw [SlotCommand.read_oldest] at hanswer
  cases hanswer with
  | refused =>
    refine ⟨hproceeds.rests.1, fun id hid => ?_⟩
    obtain ⟨_, _, hrow, -⟩ := hresult id hid
    contradiction
  | @oldest _ xmin xmax hsnapshot =>
    refine ⟨hproceeds.rests.1, fun id hid => ?_⟩
    obtain ⟨row, i, hrow, hi, rfl⟩ := hresult id hid
    obtain rfl : [("int8", Cell.integer xmin)] = row := by simpa using hrow
    obtain rfl : (xmin : Int) = i := Option.some.inj hi
    have hbigint : xmin < 1 <<< 63 := Nat.lt_of_le_of_lt hsnapshot.order hsnapshot.bigint
    rw [unsignedWord_ofNat hbigint]
    exact ⟨Nat.le_trans hsnapshot.order hsnapshot.handed, hsnapshot.running⟩

/-- A reference is noted by the server. -/
theorem newest_talks (h : (snapshotId "txid_snapshot_xmax").run.Talks Upstream.Replies u result u') :
    Rests u u' ∧ ∀ id, result = .ok id → u'.told = id := by
  obtain ⟨v, answer, hproceeds, hanswer, hresult⟩ := snapshotId_talks h
  rw [SlotCommand.read_newest] at hanswer
  cases hanswer with
  | refused =>
    refine ⟨hproceeds.rests.1, fun id hid => ?_⟩
    obtain ⟨_, _, hrow, -⟩ := hresult id hid
    contradiction
  | @newest _ xmin xmax hsnapshot =>
    refine ⟨hproceeds.rests.1.tell xmax, fun id hid => ?_⟩
    obtain ⟨row, i, hrow, hi, rfl⟩ := hresult id hid
    obtain rfl : [("int8", Cell.integer xmax)] = row := by simpa using hrow
    obtain rfl : (xmax : Int) = i := Option.some.inj hi
    exact (unsignedWord_ofNat hsnapshot.bigint).symm

/-! ### The last id that a session gives -/

variable {st st' : ServerSession}

/-- A statement that does not advance the slot leaves it resting. -/
theorem rows_rests {context text : String} {parameters : List Parameter}
    {result : Except Failure (List ResultRow)}
    (htext : ∀ place, SlotCommand.read ⟨text, parameters⟩ ≠ .advance place)
    (h : (Dialogue.rows context text parameters).run.Talks Upstream.Replies u result u') :
    Rests u u' := by
  obtain ⟨v, answer, hproceeds, hanswer, -⟩ := Dialogue.rows_talks h
  generalize SlotCommand.read ⟨text, parameters⟩ = command at htext hanswer
  have hrests := hproceeds.rests.1
  cases hanswer with
  | newest => exact hrests.tell _
  | advance place => exact absurd rfl (htext _)
  | _ => exact hrests

theorem read_ne_advance (text place : String) : SlotCommand.read ⟨text, []⟩ ≠ .advance place := by
  have hchanges : SlotCommand.readChanges text.toList ≠ some (.advance place) := by
    intro h
    unfold SlotCommand.readChanges at h
    simp only [Option.bind_eq_bind, Option.bind_eq_some_iff, Option.pure_def, Option.some.injEq,
      reduceCtorEq, and_false, exists_false] at h
  unfold SlotCommand.read
  dsimp only
  split
  · simp
  split
  · simp
  split
  · simp
  split
  · simp
  · cases hread : SlotCommand.readChanges text.toList with
    | none => simp
    | some command => exact fun hadvance => hchanges (hread.trans (congrArg some hadvance))

theorem execute_rests {context text : String} {result : Except Failure Unit}
    (h : (Dialogue.execute context text).run.Talks Upstream.Replies u result u') : Rests u u' := by
  obtain ⟨answer, u₁, hrows, hrest⟩ := Program.talks_bind.mp h
  have hrests := rows_rests (read_ne_advance text) hrows
  cases answer with
  | ok => exact (Program.talks_done.mp hrest).2 ▸ hrests
  | error => exact (Program.talks_done.mp hrest).2 ▸ hrests

theorem rollback_rests {result : Except Failure Unit}
    (h : Threaded.Talks Upstream.Replies rollback st u result st' u') : Rests u u' := by
  rw [rollback, close, Threaded.talks_get_bind] at h
  by_cases hdepth : st.depth = 0
  · rw [if_pos hdepth] at h
    exact (Program.talks_done.mp h).2 ▸ .refl u
  · rw [if_neg hdepth] at h
    exact execute_rests (talks_talk.mp (Threaded.talks_set_bind.mp h)).1

theorem settleAll_rests {n : Nat} {result : Except Failure Unit}
    (h : Threaded.Talks Upstream.Replies (settleAll n) st u result st' u') : Rests u u' := by
  induction n generalizing st u with
  | zero =>
    obtain ⟨-, -, rfl⟩ := Threaded.talks_pure.mp h
    exact .refl _
  | succ n ih =>
    rw [settleAll, Threaded.talks_modify_bind] at h
    rcases Threaded.talks_bind.mp h with ⟨_, st₁, u₁, hrollback, hrest⟩ | ⟨e, hrollback, -⟩
    · exact (rollback_rests hrollback).trans (ih hrest)
    · exact rollback_rests hrollback

/-- Up to the id that a session gives, every transaction has ended. -/
theorem transactionId_talks {txid : Nat}
    (h : Threaded.Talks Upstream.Replies transactionId st u (.ok txid) st' u') :
    Rests u u' ∧ (0 < txid → u'.Settled txid) := by
  obtain ⟨_, st₁, u₁, hsettle, hread⟩ := Threaded.talks_bind_ok.mp h
  obtain ⟨xmin, st₂, u₂, htalk, hdone⟩ := Threaded.talks_bind_ok.mp hread
  obtain ⟨holdest, -⟩ := talks_talk.mp htalk
  obtain ⟨htxid, -, rfl⟩ := Threaded.talks_pure.mp hdone
  obtain rfl := Except.ok.inj htxid
  obtain ⟨hrests, hbelow⟩ := oldest_talks holdest
  obtain ⟨hnext, hrunning⟩ := hbelow xmin rfl
  have hsettled : Rests u u₁ := settleAll_rests (Threaded.talks_get_bind.mp hsettle)
  refine ⟨hsettled.trans hrests, fun hpos => ⟨by omega, fun id hid => ?_⟩⟩
  have := hrunning id hid
  omega

end ServerSession

/-! ### Pages of changes -/

/-- A record without its place among others. -/
def ChangeRecord.unplaced (r : ChangeRecord) : ChangeRecord := { r with position := 0 }

theorem Log.Change.record?_unplaced (change : Log.Change) (described : Option Table)
    (txid position : Nat) : (change.record? described txid position).map ChangeRecord.unplaced =
      change.record? described txid 0 := by
  unfold Log.Change.record?
  split
  · rfl
  · split <;> rfl

namespace SlotReader

open Upstream (Rests Grows Reaches lineRow commitRow)

variable {u u' : Upstream}

/-- The record of a change line under the id of its transaction. -/
def lineRecord? (r : SlotReader) (entry : Nat × String) : Option ChangeRecord :=
  match Log.readLine entry.2 with
  | .ok (.change change) =>
    if change.schema = r.schema then change.record? (r.tables.table? change.table) entry.1 0 else none
  | _ => none

/-- The records of those change lines whose ids lie in a window. -/
def found (r : SlotReader) (window : TxWindow) (entries : List (Nat × String)) : List ChangeRecord :=
  (entries.filter fun entry => window.contains entry.1).filterMap r.lineRecord?

/-- What a server gives of a change line: the low half of its id, and its text. -/
def halved (entry : Nat × String) : Int × String := ((entry.1 % epochSize : Nat), entry.2)

theorem lowHalf_halved (id : Nat) : lowHalf (id % epochSize : Nat) = id % epochSize := by
  unfold lowHalf
  rw [epochSize_eq]
  omega

theorem mapM_line?_lineRow (entries : List (Nat × String)) :
    (entries.map lineRow).mapM line? = some (entries.map halved) := by
  induction entries with
  | nil => rfl
  | cons entry rest ih =>
    rw [List.map_cons, List.mapM_cons, ih]
    rfl

theorem record?_unplaced {r : SlotReader} {window : TxWindow} {reference position : Nat}
    {entry : Nat × String} {record : Option ChangeRecord} (hreach : Reaches reference entry.1)
    (h : r.record? window reference position (halved entry) = .ok record) :
    record.map ChangeRecord.unplaced =
      if window.contains entry.1 then r.lineRecord? entry else none := by
  unfold SlotReader.record? halved at h
  dsimp only at h
  rw [lowHalf_halved, Upstream.widen_eq_iff.mpr hreach] at h
  by_cases hin : window.contains entry.1 = true
  · rw [if_pos hin] at h ⊢
    unfold lineRecord?
    generalize Log.readLine entry.2 = line at h ⊢
    rcases line with e | line
    · contradiction
    cases line with
    | change change =>
      rw [← Except.ok.inj h]
      dsimp only
      split
      · exact change.record?_unplaced _ _ _
      · rfl
    | _ =>
      rw [← Except.ok.inj h]
      rfl
  · rw [if_neg hin] at h ⊢
    rw [← Except.ok.inj h]
    rfl

theorem records_unplaced {r : SlotReader} {window : TxWindow} {reference : Nat}
    {entries : List (Nat × String)} (hreach : ∀ entry ∈ entries, Reaches reference entry.1) :
    ∀ {position : Nat} {records : List ChangeRecord},
      r.records window reference position (entries.map halved) = .ok records →
      records.map ChangeRecord.unplaced = r.found window entries := by
  induction entries with
  | nil =>
    intro position records h
    rw [← Except.ok.inj h]
    rfl
  | cons entry rest ih =>
    intro position records h
    obtain ⟨record, hrecord, hrest⟩ := Except.bind_eq_ok h
    obtain ⟨others, hothers, hdone⟩ := Except.bind_eq_ok hrest
    have hhead := record?_unplaced (hreach entry (by simp)) hrecord
    have htail := ih (fun e he => hreach e (List.mem_cons_of_mem _ he)) hothers
    rw [← Except.ok.inj hdone, List.map_append, htail, ← Option.toList_map, hhead, found, found]
    by_cases hin : window.contains entry.1 = true
    · rw [if_pos hin, List.filter_cons, if_pos hin, List.filterMap_cons]
      cases r.lineRecord? entry <;> rfl
    · rw [if_neg hin, List.filter_cons, if_neg hin]
      rfl

theorem changes_talks {context : String} {window : TxWindow} {most offset : Nat}
    {parameters : List Parameter} {rows : List ResultRow}
    (h : (Dialogue.rows context (peekText window most offset) parameters).run.Talks Upstream.Replies u
      (.ok rows) u') :
    Rests u u' ∧ u'.told = u.told ∧ u'.InReach ∧
      rows = (((u'.listing window.idCondition).drop offset).take most).map lineRow := by
  obtain ⟨v, hproceeds, hanswer⟩ := Dialogue.rows_talks_ok h
  obtain ⟨hrests, htold⟩ := hproceeds.rests
  rw [SlotCommand.read_peekText] at hanswer
  cases hanswer with
  | changes _ _ _ hreach => exact ⟨hrests, htold, hreach, rfl⟩

/-- A page of a window holds the next change lines whose ids meet its condition. -/
theorem pull_talks {r : SlotReader} {slot : String} {window : TxWindow} {most offset : Nat}
    {page : ChangePage} (hwindow : window.isEmpty = false)
    (h : (r.pull slot window most offset).run.Talks Upstream.Replies u (.ok page) u') :
    Rests u u' ∧
      page.consumed = (((u'.listing window.idCondition).drop offset).take most).length ∧
      page.records.map ChangeRecord.unplaced =
        r.found window (((u'.listing window.idCondition).drop offset).take most) := by
  rw [pull, hwindow] at h
  obtain ⟨reference, u₁, hreference, hpeek⟩ := Program.talks_run_bind_ok.mp h
  obtain ⟨hbefore, hnoted⟩ := ServerSession.newest_talks hreference
  obtain ⟨rows, u₂, hrows, hrest⟩ := Program.talks_run_bind_ok.mp hpeek
  obtain ⟨hafter, htold, hreach, rfl⟩ := changes_talks hrows
  rw [hnoted reference rfl] at htold
  obtain ⟨lines, u₃, hlines, hlast⟩ := Program.talks_run_bind_ok.mp hrest
  obtain ⟨rfl, hread⟩ := Dialogue.expect_talks hlines
  obtain rfl := Option.some.inj ((mapM_line?_lineRow _).symm.trans (hread lines rfl))
  obtain ⟨records, u₄, hrecords, hdone⟩ := Program.talks_run_bind_ok.mp hlast
  obtain ⟨hfound, rfl⟩ := Program.talks_done.mp hrecords
  obtain ⟨hpage, rfl⟩ := Program.talks_done.mp hdone
  obtain rfl := Except.ok.inj hpage
  refine ⟨hbefore.trans hafter, List.length_map _, records_unplaced (fun entry hentry => ?_) hfound.symm⟩
  exact htold ▸ hreach.of_mem_listing (List.mem_of_mem_drop (List.mem_of_mem_take hentry))

/-! ### Releasing -/

theorem mapM_commit?_commitRow (commits : List Commit) :
    (commits.map commitRow).mapM commit? =
      some (commits.map fun c => (c.place, ((c.id % epochSize : Nat) : Int))) := by
  induction commits with
  | nil => rfl
  | cons c rest ih =>
    rw [List.map_cons, List.mapM_cons, ih]
    rfl

theorem target?_eq {reference upTo : Nat} {commits : List Commit}
    (hreach : ∀ c ∈ commits, Reaches reference c.id) :
    target? reference upTo (commits.map fun c => (c.place, ((c.id % epochSize : Nat) : Int))) =
      (commits.takeWhile (·.id ≤ upTo)).getLast?.map Commit.place := by
  have htake : (commits.map fun c => (c.place, ((c.id % epochSize : Nat) : Int))).takeWhile
      (fun commit => Txid.widen (lowHalf commit.2) reference ≤ upTo) =
      (commits.takeWhile (·.id ≤ upTo)).map fun c => (c.place, ((c.id % epochSize : Nat) : Int)) := by
    induction commits with
    | nil => rfl
    | cons c rest ih =>
      rw [List.map_cons, List.takeWhile_cons, List.takeWhile_cons, lowHalf_halved,
        Upstream.widen_eq_iff.mpr (hreach c (by simp))]
      split
      · rw [ih fun d hd => hreach d (List.mem_cons_of_mem _ hd), List.map_cons]
      · rfl
  rw [target?, htake, List.getLast?_map, Option.map_map]
  rfl

theorem commits_talks {context slot : String} {result : Except Failure (List ResultRow)}
    (h : (Dialogue.rows context commitsText [.text slot]).run.Talks Upstream.Replies u result u') :
    Rests u u' ∧ ∀ rows, result = .ok rows →
      u'.told = u.told ∧ u'.InReach ∧ rows = u'.retained.map commitRow := by
  obtain ⟨v, answer, hproceeds, hanswer, rfl⟩ := Dialogue.rows_talks h
  obtain ⟨hrests, htold⟩ := hproceeds.rests
  rw [SlotCommand.read_commits] at hanswer
  cases hanswer with
  | refused => exact ⟨hrests, fun rows hrows => by contradiction⟩
  | commits hreach => exact ⟨hrests, fun rows hrows => ⟨htold, hreach, (Except.ok.inj hrows).symm⟩⟩

theorem advance_talks {context slot place : String} {result : Except Failure ResultRow}
    (h : (Dialogue.oneRow context
      "SELECT end_lsn::text FROM pg_replication_slot_advance($1, $2::text::pg_lsn)"
      [.text slot, .text place]).run.Talks Upstream.Replies u result u') :
    ∃ v, Rests u v ∧ (u' = v ∨ u' = v.advance place) := by
  obtain ⟨v, answer, hproceeds, hanswer, -⟩ := Dialogue.oneRow_talks h
  rw [SlotCommand.read_advance] at hanswer
  cases hanswer with
  | refused => exact ⟨_, hproceeds.rests.1, .inl rfl⟩
  | advance => exact ⟨v, hproceeds.rests.1, .inr rfl⟩

/-- Releasing a slot advances it past no commit after the given id. -/
theorem reclaim_talks {slot : String} {upTo : Nat} {result : Except Failure Unit}
    (h : (reclaim slot upTo).run.Talks Upstream.Replies u result u') :
    Grows u u' ∧ ∀ c ∈ u'.dropped, c ∈ u.dropped ∨ c.id ≤ upTo := by
  have hkept {v : Upstream} (hrests : Rests u v) :
      Grows u v ∧ ∀ c ∈ v.dropped, c ∈ u.dropped ∨ c.id ≤ upTo :=
    ⟨hrests.grows, fun c hc => .inl (hrests.dropped ▸ hc)⟩
  rcases (Program.talks_run_bind.mp h).symm with ⟨e, hreference, -⟩ | ⟨reference, u₁, hreference, h₁⟩
  · exact hkept (ServerSession.newest_talks hreference).1
  obtain ⟨hbefore, hnoted⟩ := ServerSession.newest_talks hreference
  rcases (Program.talks_run_bind.mp h₁).symm with ⟨e, hrows, -⟩ | ⟨rows, u₂, hrows, h₂⟩
  · exact hkept (hbefore.trans (commits_talks hrows).1)
  obtain ⟨hafter, hshown⟩ := commits_talks hrows
  obtain ⟨htold, hreach, rfl⟩ := hshown rows rfl
  rw [hnoted reference rfl] at htold
  have hpeeked := hbefore.trans hafter
  rcases (Program.talks_run_bind.mp h₂).symm with ⟨e, hcommits, -⟩ | ⟨commits, u₃, hcommits, h₃⟩
  · exact (Dialogue.expect_talks hcommits).1 ▸ hkept hpeeked
  obtain ⟨rfl, hread⟩ := Dialogue.expect_talks hcommits
  obtain rfl := Option.some.inj ((mapM_commit?_commitRow _).symm.trans (hread commits rfl))
  rw [target?_eq fun c hc => htold ▸ hreach c hc] at h₃
  split at h₃
  · exact (Program.talks_done.mp h₃).2 ▸ hkept hpeeked
  rename_i place hplace
  obtain ⟨c, hlast, rfl⟩ := Option.map_eq_some_iff.mp hplace
  obtain ⟨advanced, u₄, hadvance, hdone⟩ := Program.talks_bind.mp h₃
  obtain rfl : u' = u₄ := by
    cases advanced with
    | ok => exact (Program.talks_done.mp hdone).2
    | error => exact (Program.talks_done.mp hdone).2
  obtain ⟨v, hagain, rfl | rfl⟩ := advance_talks hadvance
  · exact hkept (hpeeked.trans hagain)
  · refine ⟨(hpeeked.trans hagain).grows.trans (Upstream.advance_grows v c.place), ?_⟩
    rw [← hpeeked.dropped]
    exact Upstream.advance_spares hagain hlast

end SlotReader

end DocSync
