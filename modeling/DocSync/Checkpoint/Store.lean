import DocSync.Json.Parser
import DocSync.Text.Timestamp
import DocSync.Url.Parser

/-!
Checkpoints: per index the transaction id up to which everything is applied.  A store only raises
them.
-/

namespace DocSync

/-- Raises the mark of an index, and gives the mark it then has. -/
def raiseMark (marks : Keyed Nat) (index : String) (txmin : Nat) : Nat × Keyed Nat :=
  let mark := max txmin (marks.getD index 0)
  (mark, marks.put index mark)

/-- The checkpoints of a file. -/
structure CheckpointFile where
  version : Nat
  /-- Where the changes come from; no password stands in it. -/
  sourceUrl : String
  marks : Keyed Nat
deriving Repr, Inhabited

namespace CheckpointFile

/-- A file that holds no checkpoint yet. -/
def fresh (sourceUrl : String) : CheckpointFile := ⟨1, Url.sanitize sourceUrl, []⟩

def advance (f : CheckpointFile) (index : String) (txmin : Nat) : Nat × CheckpointFile :=
  let (mark, marks) := raiseMark f.marks index txmin
  (mark, { f with marks := marks })

/-- A number of at most `most`. -/
def number? (most : Nat) : Json → Option Nat
  | .number n => n.unsigned?.filter (· ≤ most)
  | _ => none

def timestamp? (value : Json) : Option Timestamp := value.string?.bind Timestamp.ofText?

def markMembers : List String := ["txmin", "updated_at"]

/-- One checkpoint: its mark, and when it was stored. -/
def mark? (value : Json) : Option Nat := do
  let [some txmin, some stored] ← value.fields? markMembers 2 | none
  let _ ← timestamp? stored
  number? ((1 <<< 64) - 1) txmin

/-- The marks by index; a repeated index takes its last mark. -/
def marks? : Json → Option (Keyed Nat)
  | .object entries => do
    let marks ← entries.mapM fun (index, value) => (mark? value).map fun mark => (index, mark)
    return Keyed.ofEntries marks
  | _ => none

/-- The members that a file has, in order, and what is read of them. -/
def shape : List (String × Json.Shape) :=
  [("version", .whole), ("source_url", .whole), ("indices", .entries (.ofNames markMembers)),
    ("created_at", .whole), ("updated_at", .whole)]

/-- Reads a file from its text. -/
def ofText? (text : String) : Option CheckpointFile := do
  let [some version, some url, some indices, some created, some updated] ←
    (← Json.parseShaped? (.record shape) text).fields? (shape.map (·.1)) 5
    | none
  let _ ← timestamp? created
  let _ ← timestamp? updated
  return ⟨← number? ((1 <<< 32) - 1) version, ← url.string?, ← marks? indices⟩

end CheckpointFile

/-- What stands at the place of a file: nothing, a directory, a text that is no checkpoint file, or
checkpoints. -/
inductive StoredFile where
  | missing
  | directory
  | unreadable
  | readable (file : CheckpointFile)
deriving Repr, Inhabited

def StoredFile.ofText (text : String) : StoredFile :=
  match CheckpointFile.ofText? text with
  | some file => readable file
  | none => unreadable

end DocSync
