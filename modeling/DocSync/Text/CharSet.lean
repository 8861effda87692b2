import DocSync.Text.Digit
import DocSync.Text.Split

/-!
Sets of characters, and tables of characters as texts.  A table has words between blanks, which write
characters and ranges of characters in hexadecimal digits, and rows of words between semicolons.
-/

namespace DocSync

namespace CharTable

/-- The number of a character. -/
def number (word : List Char) : Nat := (Text.numberIn? 16 word).getD 0

def words (cs : List Char) : List (List Char) :=
  (Text.pieces (fun c => c == ' ' || c == '\n') cs).filter fun word => !word.isEmpty

def rows (text : String) : List (List (List Char)) :=
  (Text.pieces (· == ';') text.toList).map words

end CharTable

/-- The characters from the first to the last number. -/
structure CharRange where
  first : Nat
  last : Nat
deriving DecidableEq, Repr, Inhabited

namespace CharRange

def contains (r : CharRange) (c : Char) : Bool := r.first ≤ c.toNat && c.toNat ≤ r.last

/-- Reads one number, or the first and the last with a mark between them. -/
def ofWord (mark : Char) (word : List Char) : CharRange :=
  match Text.pieces (· == mark) word with
  | first :: last :: _ => ⟨CharTable.number first, CharTable.number last⟩
  | _ => ⟨CharTable.number word, CharTable.number word⟩

end CharRange

/-- A set of characters as the ranges that it is made of. -/
structure CharSet where
  ranges : List CharRange
deriving Repr, Inhabited

namespace CharSet

def contains (s : CharSet) (c : Char) : Bool := s.ranges.any fun r => r.contains c

/-- Reads words that write characters, or ranges with a dash in them. -/
def ofWords (words : List (List Char)) : CharSet := ⟨words.map (CharRange.ofWord '-')⟩

def ofText (text : String) : CharSet := ofWords (CharTable.words text.toList)

end CharSet

end DocSync
