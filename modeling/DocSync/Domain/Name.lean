import DocSync.Domain.Direction
import DocSync.Domain.Folding
import DocSync.Domain.Joiner
import DocSync.Domain.Punycode

/-!
Names of domains in ASCII.  A name is folded and composed, its labels are checked, and a label with
characters outside ASCII is written in Punycode behind a sign.
-/

namespace DocSync.Domain

/-- A label as it is shown, and as it is written in ASCII. -/
structure Label where
  shown : List Char
  ascii : List Char
deriving Repr, Inhabited

namespace Label

/-- What a label in Punycode starts with. -/
def sign : List Char := ['x', 'n', '-', '-']

def isAscii (cs : List Char) : Bool := cs.all (·.toNat < 0x80)

/-- How long a label with characters outside ASCII may be, and how long one in Punycode without its
sign. -/
def mostShown : Nat := 1000
def mostEncoded : Nat := 2000

/-- Whether a folded text may be shown as a label: it does not start with a mark, its joiners are in place,
and it is not too long. -/
def mayBeShown (cs : List Char) : Bool :=
  !(cs.head?.map Text.isMark).getD false && joinersFit [] cs
    && (isAscii cs || cs.length ≤ mostShown)

/-- The text that Punycode stands for; it is refused when it ends in a dash, or when folding and
composing would change the text. -/
def decode? (cs : List Char) : Option (List Char) := do
  if cs.isEmpty || cs.getLast? == some '-' || cs.length > mostEncoded then none
  let shown ← Punycode.decode? cs
  if shown.all isSettled && Text.composed shown == shown then return shown else none

/-- Reads a label from its folded text. -/
def ofFolded? (cs : List Char) : Option Label := do
  let label ← match Text.after? sign cs with
    | some encoded => (decode? encoded).map fun shown => ⟨shown, cs⟩
    | none => some ⟨cs, if isAscii cs then cs else sign ++ Punycode.encode cs⟩
  if mayBeShown label.shown then return label else none

def directions (l : Label) : List Direction := l.shown.map Direction.of

end Label

/-- What a name must not have in ASCII, controls apart: what delimits the parts of an address. -/
def delimiters : List Char :=
  [' ', '#', '%', '/', ':', '<', '>', '?', '@', '[', '\\', ']', '^', '|', '\x7f']

def isForbidden (c : Char) : Bool := c.toNat < 0x20 || delimiters.contains c

/-- The labels of a name, folded and checked. -/
def labels? (name : List Char) : Option (List Label) := do
  let folded := Text.composed (← name.mapM fold?).flatten
  if folded.any isForbidden then none
  let labels ← (Text.pieces (· == '.') folded).mapM Label.ofFolded?
  let isRightToLeft := labels.any fun l => l.directions.any Direction.isRightToLeft
  if isRightToLeft && !labels.all fun l => Direction.agree l.directions then none
  return labels

/-- A name in ASCII and in small letters; nothing where it is none or empty. -/
def toAscii? (name : List Char) : Option (List Char) := do
  let ascii := ['.'].intercalate ((← labels? name).map Label.ascii)
  if ascii.isEmpty then none else return ascii

end DocSync.Domain
