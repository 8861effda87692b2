import DocSync.Proofs.Conversation
import DocSync.Server.Slot
import DocSync.Text.Split
import Mathlib.Logic.Relation

/-!
A server with a replication slot.  Transactions get their ids in order, and commit or abort in any order;
the slot shows those that have committed since it was opened, in the order of their commits, until it is
advanced past them.  The server reads what it is asked for from the text of a statement.
-/

namespace DocSync

open Text (after? after?_append)

/-! ### What a slot is asked for -/

/-- A condition on the low halves of ids. -/
inductive IdCondition where
  | every
  | within (low high : Nat)
  | around (low high : Nat)
deriving DecidableEq

namespace IdCondition

def holds : IdCondition → Nat → Bool
  | every, _ => true
  | within low high, xid => low < xid && xid ≤ high
  | around low high, xid => low < xid || xid ≤ high

end IdCondition

/-- What a statement asks of a server with a slot. -/
inductive SlotCommand where
  /-- The oldest id in progress. -/
  | oldest
  /-- The first id that was not handed out. -/
  | newest
  | changes (condition : IdCondition) (offset most : Nat)
  | commits
  | advance (place : String)
  | other
deriving DecidableEq

namespace SlotCommand

/-- The number that a text starts with. -/
def number (text : List Char) : Nat := Nat.ofDigitChars 10 (text.takeWhile Char.isDigit) 0

def pastNumber (text : List Char) : List Char := text.dropWhile Char.isDigit

/-- The condition that a text starts with, and what follows it. -/
def readCondition (text : List Char) : Option (IdCondition × List Char) :=
  match after? "TRUE".toList text with
  | some rest => some (.every, rest)
  | none => do
    let first ← after? "(xid::text::bigint > ".toList text
    let low := number first
    match after? " AND xid::text::bigint <= ".toList (pastNumber first) with
    | some second => return (.within low (number second), ← after? [')'] (pastNumber second))
    | none =>
      let second ← after? " OR xid::text::bigint <= ".toList (pastNumber first)
      return (.around low (number second), ← after? [')'] (pastNumber second))

def readChanges (text : List Char) : Option SlotCommand := do
  let start ← after? ("SELECT xid::text::bigint, data FROM pg_logical_slot_peek_changes($1, NULL, NULL)"
    ++ " WHERE data LIKE 'table %' AND ").toList text
  let (condition, rest) ← readCondition start
  let offset ← after? " OFFSET ".toList rest
  let most ← after? " LIMIT ".toList (pastNumber offset)
  return changes condition (number offset) (number most)

def read (asked : Statement) : SlotCommand :=
  if asked.text = "SELECT txid_snapshot_xmin(txid_current_snapshot())::text::bigint" then oldest
  else if asked.text = "SELECT txid_snapshot_xmax(txid_current_snapshot())::text::bigint" then newest
  else if asked.text = "SELECT lsn::text, xid::text::bigint, data FROM "
      ++ "pg_logical_slot_peek_changes($1, NULL, NULL) WHERE data LIKE 'COMMIT%'" then commits
  else if asked.text =
      "SELECT end_lsn::text FROM pg_replication_slot_advance($1, $2::text::pg_lsn)" then
    match asked.parameters with
    | [_, .text place] => advance place
    | _ => other
  else (readChanges asked.text.toList).getD other

/-! ### The texts of a reader -/

theorem takeWhile_number (n : Nat) {rest : List Char} (hrest : ∀ c ∈ rest.head?, c.isDigit = false) :
    ((toString n).toList ++ rest).takeWhile Char.isDigit = Nat.toDigits 10 n := by
  have hnone : rest.takeWhile Char.isDigit = [] := by
    cases rest with
    | nil => rfl
    | cons c rest => simp [hrest c rfl]
  rw [Nat.toString_eq_repr, Nat.toList_repr, List.takeWhile_append_of_pos, hnone, List.append_nil]
  exact fun c hc => Nat.isDigit_of_mem_toDigits (by omega) (by omega) hc

theorem number_append (n : Nat) {rest : List Char} (hrest : ∀ c ∈ rest.head?, c.isDigit = false) :
    number ((toString n).toList ++ rest) = n := by
  rw [number, takeWhile_number n hrest]
  exact Nat.ofDigitChars_toDigits (by omega) (by omega)

theorem pastNumber_append (n : Nat) {rest : List Char} (hrest : ∀ c ∈ rest.head?, c.isDigit = false) :
    pastNumber ((toString n).toList ++ rest) = rest := by
  have hwhole := List.takeWhile_append_dropWhile
    (p := Char.isDigit) (l := (toString n).toList ++ rest)
  rw [takeWhile_number n hrest, Nat.toString_eq_repr, Nat.toList_repr] at hwhole
  rw [pastNumber, Nat.toString_eq_repr, Nat.toList_repr]
  exact List.append_cancel_left hwhole

end SlotCommand

/-- The condition that a window puts on ids. -/
def TxWindow.idCondition (w : TxWindow) : IdCondition :=
  if w.txmax - w.txmin ≥ epochSize then .every
  else if w.txmin / epochSize = w.txmax / epochSize then
    .within (w.txmin % epochSize) (w.txmax % epochSize)
  else .around (w.txmin % epochSize) (w.txmax % epochSize)

namespace IdCondition

open SlotCommand (number pastNumber number_append pastNumber_append)

/-- The condition on a column of ids that a text starts with, and what follows it. -/
def read (column : String) (text : List Char) : Option (IdCondition × List Char) :=
  match after? "TRUE".toList text with
  | some rest => some (.every, rest)
  | none => do
    let first ← after? ("(" ++ column ++ "::text::bigint > ").toList text
    let low := number first
    match after? (" AND " ++ column ++ "::text::bigint <= ").toList (pastNumber first) with
    | some second => return (.within low (number second), ← after? [')'] (pastNumber second))
    | none =>
      let second ← after? (" OR " ++ column ++ "::text::bigint <= ").toList (pastNumber first)
      return (.around low (number second), ← after? [')'] (pastNumber second))

/-- The two bounds of a condition, taken apart. -/
theorem bounds_append (column joint : String) (low high : Nat) (rest : List Char) :
    ("(" ++ (column ++ "::text::bigint") ++ " > " ++ toString low ++ joint
        ++ (column ++ "::text::bigint") ++ " <= " ++ toString high ++ ")").toList ++ rest =
      ("(" ++ column ++ "::text::bigint > ").toList ++ ((toString low).toList ++
        ((joint ++ column ++ "::text::bigint <= ").toList ++ ((toString high).toList ++ ')' :: rest))) := by
  simp

/-- The condition of a window is read as it is meant, whatever the column is called. -/
theorem read_append (w : TxWindow) (column : String) (rest : List Char) :
    read column ((w.condition column).toList ++ rest) = some (w.idCondition, rest) := by
  unfold TxWindow.condition TxWindow.idCondition
  dsimp only
  generalize w.txmin % epochSize = low
  generalize w.txmax % epochSize = high
  have hhigh : pastNumber ((toString high).toList ++ ')' :: rest) = ')' :: rest :=
    pastNumber_append high (by simp)
  split
  · rfl
  have hnone (tail : List Char) :
      after? "TRUE".toList (("(" ++ column ++ "::text::bigint > ").toList ++ tail) = none := by
    simp [after?]
  generalize htail : (toString high).toList ++ ')' :: rest = tail at hhigh
  have hread : number tail = high := htail ▸ number_append high (by simp)
  -- what stands between the bounds starts with a blank, which ends the lower one
  have hblank (joint : String) (hjoint : ∃ more, joint.toList = ' ' :: more) :
      ∀ c ∈ ((joint ++ column ++ "::text::bigint <= ").toList ++ tail).head?, c.isDigit = false := by
    obtain ⟨more, hmore⟩ := hjoint
    simp [hmore]
  split
  · have hlow := hblank " AND " ⟨_, rfl⟩
    rw [bounds_append, htail, read, hnone, after?_append]
    dsimp only [Option.bind_eq_bind, Option.bind_some]
    rw [pastNumber_append low hlow, number_append low hlow, after?_append]
    simp [hhigh, hread, after?]
  · have hlow := hblank " OR " ⟨_, rfl⟩
    have hother : after? (" AND " ++ column ++ "::text::bigint <= ").toList
        ((" OR " ++ column ++ "::text::bigint <= ").toList ++ tail) = none := by simp [after?]
    rw [bounds_append, htail, read, hnone, after?_append]
    dsimp only [Option.bind_eq_bind, Option.bind_some]
    rw [pastNumber_append low hlow, number_append low hlow, hother, after?_append]
    simp [hhigh, hread, after?]

end IdCondition

namespace SlotCommand

theorem readCondition_append (w : TxWindow) (rest : List Char) :
    readCondition ((w.condition "xid").toList ++ rest) = some (w.idCondition, rest) :=
  IdCondition.read_append w "xid" rest

theorem peekText_toList (w : TxWindow) (most offset : Nat) :
    (SlotReader.peekText w most offset).toList =
      ("SELECT xid::text::bigint, data FROM pg_logical_slot_peek_changes($1, NULL, NULL)"
        ++ " WHERE data LIKE 'table %' AND ").toList ++ ((w.condition "xid").toList ++
          (" OFFSET ".toList ++ ((toString offset).toList ++ (" LIMIT ".toList ++
            (toString most).toList)))) := by
  -- the literals are kept out of sight of the simplifier, which would take them apart
  have happend (start condition skip offset limit most : String) :
      (start ++ condition ++ skip ++ offset ++ limit ++ most).toList = start.toList ++
        (condition.toList ++ (skip.toList ++ (offset.toList ++ (limit.toList ++ most.toList)))) := by
    simp
  exact happend _ _ _ _ _ _

theorem readChanges_peekText (w : TxWindow) (most offset : Nat) :
    readChanges (SlotReader.peekText w most offset).toList =
      some (changes w.idCondition offset most) := by
  have hoffset : pastNumber ((toString offset).toList ++
      (" LIMIT ".toList ++ (toString most).toList)) = _ := pastNumber_append offset (by simp)
  have hmost : number ((toString most).toList ++ []) = most := number_append most (by simp)
  rw [List.append_nil] at hmost
  rw [peekText_toList, readChanges, after?_append]
  simp only [Option.bind_eq_bind, Option.bind_some, readCondition_append, after?_append, hoffset]
  rw [number_append offset (by simp), hmost]
  rfl

/-- No other statement of a reader starts as the peek at changes does. -/
theorem peekText_ne (w : TxWindow) (most offset : Nat) {other : String}
    (h : other.toList.take 9 ≠ "SELECT xi".toList) : SlotReader.peekText w most offset ≠ other := by
  rintro rfl
  apply h
  rw [peekText_toList]
  rfl

theorem read_peekText (w : TxWindow) (most offset : Nat) (parameters : List Parameter) :
    read ⟨SlotReader.peekText w most offset, parameters⟩ = changes w.idCondition offset most := by
  unfold read
  dsimp only
  rw [if_neg, if_neg, if_neg, if_neg, readChanges_peekText]
  · rfl
  all_goals exact peekText_ne w most offset (by simp)

theorem read_oldest : read ⟨"SELECT " ++ "txid_snapshot_xmin" ++
    "(txid_current_snapshot())::text::bigint", []⟩ = oldest := rfl

theorem read_newest : read ⟨"SELECT " ++ "txid_snapshot_xmax" ++
    "(txid_current_snapshot())::text::bigint", []⟩ = newest := rfl

theorem read_commits (slot : Parameter) : read ⟨SlotReader.commitsText, [slot]⟩ = commits := rfl

theorem read_advance (slot : Parameter) (place : String) :
    read ⟨"SELECT end_lsn::text FROM pg_replication_slot_advance($1, $2::text::pg_lsn)",
      [slot, .text place]⟩ = advance place := rfl

end SlotCommand

/-! ### The server -/

/-- A transaction that committed: its id, the change lines that a slot shows of it, and the place of its
commit in the log. -/
structure Commit where
  id : Nat
  lines : List String
  place : String

/-- A server with a slot: the first id that was not handed out, the ids in progress, the transactions
that committed since the slot was opened, in the order of their commits, and how many of them the slot
was advanced past.  It also notes the last id that it told as not handed out. -/
structure Upstream where
  next : Nat
  running : List Nat
  commits : List Commit
  released : Nat
  told : Nat
  running_lt : ∀ id ∈ running, id < next
  finished : ∀ c ∈ commits, c.id < next ∧ c.id ∉ running
  ids : (commits.map Commit.id).Nodup
  places : (commits.map Commit.place).Nodup
  released_le : released ≤ commits.length

namespace Upstream

/-- The commits that the slot still shows. -/
def retained (u : Upstream) : List Commit := u.commits.drop u.released

/-- The commits that the slot was advanced past. -/
def dropped (u : Upstream) : List Commit := u.commits.take u.released

/-- A transaction starts. -/
def start (u : Upstream) : Upstream where
  next := u.next + 1
  running := u.next :: u.running
  commits := u.commits
  released := u.released
  told := u.told
  running_lt := by
    intro id hid
    rcases List.mem_cons.mp hid with rfl | hid
    · omega
    · have := u.running_lt id hid
      omega
  finished := by
    intro c hc
    obtain ⟨hlt, hfinished⟩ := u.finished c hc
    refine ⟨by omega, fun hid => ?_⟩
    rcases List.mem_cons.mp hid with hid | hid
    · omega
    · exact hfinished hid
  ids := u.ids
  places := u.places
  released_le := u.released_le

/-- A transaction ends without a commit. -/
def abort (u : Upstream) (id : Nat) : Upstream where
  next := u.next
  running := u.running.filter (· ≠ id)
  commits := u.commits
  released := u.released
  told := u.told
  running_lt := fun id hid => u.running_lt id (List.mem_filter.mp hid).1
  finished := fun c hc => ⟨(u.finished c hc).1, fun hid => (u.finished c hc).2 (List.mem_filter.mp hid).1⟩
  ids := u.ids
  places := u.places
  released_le := u.released_le

/-- A transaction in progress commits, at a new place in the log. -/
def commit (u : Upstream) (c : Commit) (hrunning : c.id ∈ u.running)
    (hplace : c.place ∉ u.commits.map Commit.place) : Upstream where
  next := u.next
  running := u.running.filter (· ≠ c.id)
  commits := u.commits ++ [c]
  released := u.released
  told := u.told
  running_lt := fun id hid => u.running_lt id (List.mem_filter.mp hid).1
  finished := by
    intro d hd
    rcases List.mem_append.mp hd with hd | hd
    · obtain ⟨hlt, hfinished⟩ := u.finished d hd
      exact ⟨hlt, fun hid => hfinished (List.mem_filter.mp hid).1⟩
    · obtain rfl := List.mem_singleton.mp hd
      exact ⟨u.running_lt _ hrunning, by simp⟩
  ids := by
    rw [List.map_append, List.nodup_append]
    refine ⟨u.ids, by simp, fun id hid other hother => ?_⟩
    obtain ⟨d, hd, rfl⟩ := List.mem_map.mp hid
    obtain rfl : other = c.id := by simpa using hother
    exact fun hsame => (u.finished d hd).2 (hsame ▸ hrunning)
  places := by
    rw [List.map_append, List.nodup_append]
    refine ⟨u.places, by simp, fun place hmem other hother => ?_⟩
    obtain rfl : other = c.place := by simpa using hother
    exact fun hsame => hplace (hsame ▸ hmem)
  released_le := by
    have := u.released_le
    rw [List.length_append]
    omega

/-- The slot is advanced past the commit at a place and all before it. -/
def advance (u : Upstream) (place : String) : Upstream :=
  match h : u.commits.findIdx? (·.place = place) with
  | some i =>
    { u with
      released := max u.released (i + 1)
      released_le := Nat.max_le.mpr ⟨u.released_le, (List.findIdx?_eq_some_iff_getElem.mp h).1⟩ }
  | none => u

/-- A transaction starts or ends. -/
inductive Step : Upstream → Upstream → Prop
  | start (u : Upstream) : Step u u.start
  | abort (u : Upstream) (id : Nat) : Step u (u.abort id)
  | commit (u : Upstream) (c : Commit) (hrunning : c.id ∈ u.running)
      (hplace : c.place ∉ u.commits.map Commit.place) : Step u (u.commit c hrunning hplace)

/-- Any number of transactions start and end. -/
abbrev Proceeds : Upstream → Upstream → Prop := Relation.ReflTransGen Step

/-- What a snapshot tells: no id before `xmin` is in progress, no id from `xmax` on has committed. -/
structure Snapshot (u : Upstream) (xmin xmax : Nat) : Prop where
  order : xmin ≤ xmax
  handed : xmax ≤ u.next
  running : ∀ id ∈ u.running, xmin ≤ id
  commits : ∀ c ∈ u.commits, c.id < xmax
  bigint : xmax < 1 <<< 63

/-- The id lies within an epoch below the reference, or there are no other epochs yet.  An id after the
reference is in reach in the first epoch only. -/
def Reaches (reference id : Nat) : Prop :=
  id ≤ reference ∧ reference < id + epochSize ∨ reference < epochSize ∧ id < epochSize

/-- The ids that the slot shows are in reach of the last id that was told as not handed out. -/
def InReach (u : Upstream) : Prop := ∀ c ∈ u.retained, Reaches u.told c.id

/-- The change lines that the slot shows, each with the id of its transaction. -/
def lines (u : Upstream) : List (Nat × String) :=
  u.retained.flatMap fun c => c.lines.map fun line => (c.id, line)

/-- The change lines whose ids meet a condition. -/
def listing (u : Upstream) (condition : IdCondition) : List (Nat × String) :=
  u.lines.filter fun entry => condition.holds (entry.1 % epochSize)

def lineRow (entry : Nat × String) : ResultRow :=
  [("xid", .integer (entry.1 % epochSize : Nat)), ("data", .text entry.2)]

def commitRow (c : Commit) : ResultRow :=
  [("lsn", .text c.place), ("xid", .integer (c.id % epochSize : Nat)), ("data", .text "COMMIT")]

/-- How the server may answer what it is asked.  It shows its slot only while the ids there are in
reach. -/
inductive Answers : SlotCommand → Upstream → Except ServerFailure (List ResultRow) → Upstream → Prop
  | refused (command : SlotCommand) (u : Upstream) (e : ServerFailure) : Answers command u (.error e) u
  | oldest {u : Upstream} {xmin xmax : Nat} : u.Snapshot xmin xmax →
      Answers .oldest u (.ok [[("int8", .integer xmin)]]) u
  | newest {u : Upstream} {xmin xmax : Nat} : u.Snapshot xmin xmax →
      Answers .newest u (.ok [[("int8", .integer xmax)]]) { u with told := xmax }
  | changes {u : Upstream} (condition : IdCondition) (offset most : Nat) : u.InReach →
      Answers (.changes condition offset most) u
        (.ok ((((u.listing condition).drop offset).take most).map lineRow)) u
  | commits {u : Upstream} : u.InReach → Answers .commits u (.ok (u.retained.map commitRow)) u
  | advance (u : Upstream) (place : String) :
      Answers (.advance place) u (.ok [[("end_lsn", .text place)]]) (u.advance place)
  | other (u : Upstream) (rows : List ResultRow) : Answers .other u (.ok rows) u

/-- How the server may answer a connection: transactions may start and end before it does. -/
def Replies : (call : ServerCall) → Upstream → call.Answer → Upstream → Prop
  | .run asked, u, answer, u' => ∃ v, Proceeds u v ∧ Answers (SlotCommand.read asked) v answer u'
  | .hear, u, _, u' => Proceeds u u'

theorem replies_of_read {asked : Statement} {command : SlotCommand} {u u' : Upstream}
    {answer : Except ServerFailure (List ResultRow)} (hread : SlotCommand.read asked = command)
    (h : Answers command u answer u') : Replies (.run asked) u answer u' :=
  ⟨u, .refl, hread ▸ h⟩

end Upstream

end DocSync
