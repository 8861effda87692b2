import DocSync.Json.Basic
import DocSync.Text.Digit

/-!
Reading JSON text.  A numeral that is no integer of 64 bits is read by rounding its leading digits to
a binary64 number and scaling that by a power of ten, so its last bit may differ from the nearest
number's.
-/

namespace DocSync

/-- The parts of a decimal numeral: digits before and after the point, and the exponent. -/
structure Numeral where
  negative : Bool
  whole : List Char
  fraction : Option (List Char)
  exponent : Option (Bool × List Char)

namespace Numeral

def digitValue (c : Char) : Nat := c.toNat - 48

/-- Adds leading digits while the significand fits 64 bits; returns how many were left out. -/
def accumulate : Nat → List Char → Nat × Nat
  | significand, [] => (significand, 0)
  | significand, c :: rest =>
    let next := significand * 10 + digitValue c
    if next < 1 <<< 64 then accumulate next rest else (significand, rest.length + 1)

/-- Divides by `10^308` while the exponent is too small for one power of ten. -/
def scale (d : Double) : Nat → Int → Option Double
  | 0, _ => some d
  | steps + 1, exponent =>
    if exponent.natAbs ≤ 308 then
      if exponent < 0 then d.scaleDown? (Double.powerOfTen exponent.natAbs)
      else d.scaleUp? (Double.powerOfTen exponent.natAbs)
    else if d.units == 0 then some d
    else if exponent < 0 then
      match d.scaleDown? (Double.powerOfTen 308) with
      | some smaller => scale smaller steps (exponent + 308)
      | none => none
    else none

def natOfDigits (digits : List Char) : Nat := digits.foldl (fun n c => n * 10 + digitValue c) 0

/-- The significand of 64 bits and its power of ten, before the written exponent. -/
def significand (n : Numeral) : Nat × Int :=
  let (whole, dropped) := accumulate 0 n.whole
  match n.fraction with
  | none => (whole, dropped)
  | some digits =>
    let (all, left) := accumulate whole digits
    (all, (dropped : Int) - (digits.length - left : Nat))

/-- A written exponent past 32 bits makes zero, or nothing when it is positive. -/
def toDouble? (n : Numeral) : Option Double :=
  let (digits, power) := n.significand
  let start : Double := ⟨n.negative, (Double.ofInt digits).units⟩
  match n.exponent with
  | none => scale start 4 power
  | some (negative, exponentDigits) =>
    let exponent := natOfDigits exponentDigits
    if exponent ≥ 1 <<< 31 then
      if digits != 0 && !negative then none else some ⟨n.negative, 0⟩
    else
      let total := if negative then power - exponent else power + exponent
      scale start 4 (max (-(1 <<< 31 : Nat)) (min total ((1 <<< 31 : Nat) - 1)))

/-- A numeral without point and exponent is an integer where 64 bits hold it; minus zero is not. -/
def toNumber? (n : Numeral) : Option Number :=
  let integer : Int := if n.negative then -(natOfDigits n.whole : Int) else natOfDigits n.whole
  let fits := Number.leastInteger ≤ integer && integer ≤ Number.greatestInteger
    && !(n.negative && integer == 0)
  match n.fraction, n.exponent with
  | none, none => if fits then some (.integer integer) else (n.toDouble?).map .double
  | _, _ => (n.toDouble?).map .double

end Numeral

namespace Json

def isBlank (c : Char) : Bool := c == ' ' || c == '\n' || c == '\t' || c == '\r'

def skipBlanks (cs : List Char) : List Char := cs.dropWhile isBlank

/-- The unit of 16 bits that four digits write. -/
def hexUnit? (a b c d : Char) : Option Nat := Text.numberIn? 16 [a, b, c, d]

/-- The character after a backslash. -/
def simpleEscape? (c : Char) : Option Char :=
  match c with
  | '"' => some '"'
  | '\\' => some '\\'
  | '/' => some '/'
  | 'b' => some '\x08'
  | 'f' => some '\x0c'
  | 'n' => some '\n'
  | 'r' => some '\r'
  | 't' => some '\t'
  | _ => none

/-- The rest of a string after its opening quote: its characters in reverse, and what follows the
closing quote.  Control characters and lone surrogates are refused. -/
def scanString : List Char → List Char → Option (List Char × List Char)
  | [], _ => none
  | '"' :: rest, acc => some (acc, rest)
  | '\\' :: 'u' :: a :: b :: c :: d :: '\\' :: 'u' :: e :: f :: g :: h :: rest, acc =>
    match hexUnit? a b c d with
    | none => none
    | some high =>
      if 0xD800 ≤ high ∧ high < 0xDC00 then
        match hexUnit? e f g h with
        | none => none
        | some low =>
          if 0xDC00 ≤ low ∧ low < 0xE000 then
            scanString rest (Char.ofNat (0x10000 + (high - 0xD800) * 1024 + (low - 0xDC00)) :: acc)
          else none
      else if 0xDC00 ≤ high ∧ high < 0xE000 then none
      else scanString ('\\' :: 'u' :: e :: f :: g :: h :: rest) (Char.ofNat high :: acc)
  | '\\' :: 'u' :: a :: b :: c :: d :: rest, acc =>
    match hexUnit? a b c d with
    | none => none
    | some unit =>
      if 0xD800 ≤ unit ∧ unit < 0xE000 then none else scanString rest (Char.ofNat unit :: acc)
  | '\\' :: c :: rest, acc =>
    match simpleEscape? c with
    | none => none
    | some e => scanString rest (e :: acc)
  | c :: rest, acc => if c.toNat < 32 || c == '\\' then none else scanString rest (c :: acc)
termination_by cs => cs.length

/-- A string after its opening quote. -/
def readString? (cs : List Char) : Option (String × List Char) :=
  (scanString cs []).map fun (acc, rest) => (String.ofList acc.reverse, rest)

/-- The exponent part, where one starts. -/
def readExponent? (cs : List Char) : Option (Option (Bool × List Char) × List Char) :=
  let digits (negative : Bool) (cs : List Char) :=
    let ds := cs.takeWhile Char.isDigit
    if ds.isEmpty then none else some (some (negative, ds), cs.dropWhile Char.isDigit)
  match cs with
  | 'e' :: rest | 'E' :: rest =>
    match rest with
    | '+' :: rest => digits false rest
    | '-' :: rest => digits true rest
    | _ => digits false rest
  | _ => some (none, cs)

/-- A numeral: no leading zeros, digits on both sides of a point. -/
def readNumeral? (cs : List Char) : Option (Numeral × List Char) := do
  let (negative, cs) := match cs with
    | '-' :: rest => (true, rest)
    | _ => (false, cs)
  let whole := cs.takeWhile Char.isDigit
  let rest := cs.dropWhile Char.isDigit
  if whole.isEmpty || (whole.head? == some '0' && whole.length > 1) then none
  let (fraction, rest) ← match rest with
    | '.' :: rest =>
      let digits := rest.takeWhile Char.isDigit
      if digits.isEmpty then none else some (some digits, rest.dropWhile Char.isDigit)
    | _ => some (none, rest)
  let (exponent, rest) ← readExponent? rest
  return (⟨negative, whole, fraction, exponent⟩, rest)

/-- A number; one too large for a binary64 number is refused. -/
def readNumber? (cs : List Char) : Option (Number × List Char) := do
  let (numeral, rest) ← readNumeral? cs
  return (← numeral.toNumber?, rest)

/-- What follows a string whose opening quote is passed.  A character may be written by any four digits,
also by those of a lone surrogate. -/
def skipString : List Char → Option (List Char)
  | [] => none
  | '"' :: rest => some rest
  | '\\' :: 'u' :: a :: b :: c :: d :: rest =>
    match hexUnit? a b c d with
    | none => none
    | some _ => skipString rest
  | '\\' :: c :: rest =>
    match simpleEscape? c with
    | none => none
    | some _ => skipString rest
  | c :: rest => if c.toNat < 32 || c == '\\' then none else skipString rest

/-- What a bracket that is still open belongs to. -/
inductive Enclosure where
  | array
  | object
deriving DecidableEq, Repr, Inhabited

/-- Where a reader that passes over a value stands: before a value, before the key of a member, or behind
a value. -/
inductive Stand where
  | atValue
  | atKey
  | behindValue
deriving DecidableEq, Repr, Inhabited

/-- What follows a value, passed over without being read: its numbers may be of any size and its
brackets of any depth.  The innermost open bracket comes first. -/
def skip : Nat → Stand → List Enclosure → List Char → Option (List Char)
  | 0, _, _, _ => none
  | fuel + 1, .atValue, enclosures, cs =>
    match skipBlanks cs with
    | 'n' :: 'u' :: 'l' :: 'l' :: rest => skip fuel .behindValue enclosures rest
    | 't' :: 'r' :: 'u' :: 'e' :: rest => skip fuel .behindValue enclosures rest
    | 'f' :: 'a' :: 'l' :: 's' :: 'e' :: rest => skip fuel .behindValue enclosures rest
    | '"' :: rest =>
      match skipString rest with
      | none => none
      | some rest => skip fuel .behindValue enclosures rest
    | '[' :: rest =>
      match skipBlanks rest with
      | ']' :: rest => skip fuel .behindValue enclosures rest
      | rest => skip fuel .atValue (.array :: enclosures) rest
    | '\x7b' :: rest =>
      match skipBlanks rest with
      | '\x7d' :: rest => skip fuel .behindValue enclosures rest
      | rest => skip fuel .atKey (.object :: enclosures) rest
    | rest =>
      match readNumeral? rest with
      | none => none
      | some (_, rest) => skip fuel .behindValue enclosures rest
  | fuel + 1, .atKey, enclosures, cs =>
    match skipBlanks cs with
    | '"' :: rest =>
      match (skipString rest).map skipBlanks with
      | some (':' :: rest) => skip fuel .atValue enclosures rest
      | _ => none
    | _ => none
  | _ + 1, .behindValue, [], cs => some cs
  | fuel + 1, .behindValue, .array :: outer, cs =>
    match skipBlanks cs with
    | ',' :: rest => skip fuel .atValue (.array :: outer) rest
    | ']' :: rest => skip fuel .behindValue outer rest
    | _ => none
  | fuel + 1, .behindValue, .object :: outer, cs =>
    match skipBlanks cs with
    | ',' :: rest => skip fuel .atKey (.object :: outer) rest
    | '\x7d' :: rest => skip fuel .behindValue outer rest
    | _ => none

/-- What is read of a value: the whole, the named members of an object, or of every member the same.  The
items of an array count as the named members in order. -/
inductive Shape where
  | whole
  | record (members : List (String × Shape))
  | entries (value : Shape)
deriving Repr, Inhabited

namespace Shape

/-- What is read of a member, if it is read. -/
def member? (shape : Shape) (key : String) : Option Shape :=
  match shape with
  | whole => some whole
  | record members => Keyed.get? members key
  | entries value => some value

/-- What is read of an item by its place, if there may be one. -/
def item? (shape : Shape) (place : Nat) : Option Shape :=
  match shape with
  | whole => some whole
  | record members => members[place]?.map (·.2)
  | entries _ => none

/-- A record of whole members. -/
def ofNames (names : List String) : Shape := record (names.map fun name => (name, whole))

end Shape

def nestingLimit : Nat := 127

mutual

/-- A value as far as its shape asks for it, its nesting at most `depth`. -/
def readValue (fuel depth : Nat) (shape : Shape) (cs : List Char) : Option (Json × List Char) :=
  match fuel with
  | 0 => none
  | fuel + 1 =>
    match skipBlanks cs with
    | 'n' :: 'u' :: 'l' :: 'l' :: rest => some (null, rest)
    | 't' :: 'r' :: 'u' :: 'e' :: rest => some (bool true, rest)
    | 'f' :: 'a' :: 'l' :: 's' :: 'e' :: rest => some (bool false, rest)
    | '"' :: rest => (readString? rest).map fun (s, rest) => (string s, rest)
    | '[' :: rest =>
      match depth with
      | 0 => none
      | depth + 1 =>
        match skipBlanks rest with
        | ']' :: rest => some (array [], rest)
        | rest => (readItems fuel depth shape 0 rest []).map fun (items, rest) => (array items, rest)
    | '\x7b' :: rest =>
      match depth with
      | 0 => none
      | depth + 1 =>
        match skipBlanks rest with
        | '\x7d' :: rest => some (object [], rest)
        | rest => (readMembers fuel depth shape rest []).map fun (entries, rest) =>
            (object entries, rest)
    | rest => (readNumber? rest).map fun (n, rest) => (number n, rest)

/-- The items from a place on up to the closing bracket. -/
def readItems (fuel depth : Nat) (shape : Shape) (place : Nat) (cs : List Char) (acc : List Json) :
    Option (List Json × List Char) :=
  match fuel with
  | 0 => none
  | fuel + 1 =>
    match shape.item? place with
    | none => none
    | some part =>
      match readValue fuel depth part cs with
      | none => none
      | some (item, rest) =>
        match skipBlanks rest with
        | ',' :: rest => readItems fuel depth shape (place + 1) rest (item :: acc)
        | ']' :: rest => some ((item :: acc).reverse, rest)
        | _ => none

/-- The members up to the closing brace, repeated keys included and members not asked for left out. -/
def readMembers (fuel depth : Nat) (shape : Shape) (cs : List Char) (acc : List (String × Json)) :
    Option (List (String × Json) × List Char) :=
  match fuel with
  | 0 => none
  | fuel + 1 =>
    match skipBlanks cs with
    | '"' :: rest =>
      match readString? rest with
      | none => none
      | some (key, rest) =>
        match skipBlanks rest with
        | ':' :: rest =>
          let read := match shape.member? key with
            | some part => (readValue fuel depth part rest).map fun (value, rest) =>
                ((key, value) :: acc, rest)
            | none => (skip (2 * rest.length + 2) .atValue [] rest).map fun rest => (acc, rest)
          match read with
          | none => none
          | some (acc, rest) =>
            match skipBlanks rest with
            | ',' :: rest => readMembers fuel depth shape rest acc
            | '\x7d' :: rest => some (acc.reverse, rest)
            | _ => none
        | _ => none
    | _ => none

end

/-- The value of a whole text as far as a shape asks for it, blanks around it allowed; repeated members
are all kept. -/
def parseShaped? (shape : Shape) (text : String) : Option Json :=
  let cs := text.toList
  match readValue (2 * cs.length + 2) nestingLimit shape cs with
  | some (value, rest) => if (skipBlanks rest).isEmpty then some value else none
  | none => none

mutual

/-- Keeps of repeated members the first place and the last value. -/
def distinctMembers : Json → Json
  | array items => array (distinctItems items)
  | object members => object (Keyed.ofEntries (distinctEntries members))
  | other => other

def distinctItems : List Json → List Json
  | [] => []
  | item :: rest => distinctMembers item :: distinctItems rest

def distinctEntries : List (String × Json) → List (String × Json)
  | [] => []
  | (key, value) :: rest => (key, distinctMembers value) :: distinctEntries rest

end

/-- The value of a whole text. -/
def parse? (text : String) : Option Json := (parseShaped? .whole text).map distinctMembers

/-- The values of named fields: from an object in which no field is repeated, where other members are
passed over, or from an array of at least `least` values in the order of the names. -/
def fields? (names : List String) (least : Nat) : Json → Option (List (Option Json))
  | object members =>
    if names.any fun name => 1 < members.countP (·.1 == name) then none
    else some (names.map (Keyed.get? members))
  | array items =>
    if least ≤ items.length ∧ items.length ≤ names.length then
      some (items.map some ++ List.replicate (names.length - items.length) none)
    else none
  | _ => none

end Json

end DocSync
