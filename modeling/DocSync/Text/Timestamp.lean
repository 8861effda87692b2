import DocSync.Text.Blank
import DocSync.Text.Calendar

/-!
Timestamps as texts: a date, a time of day and an offset from universal time.  Blanks may stand before
every number, mark and sign, and after the whole.
-/

namespace DocSync

/-- A point in time: the local date, the whole seconds passed of that day, and the seconds by which local
time is ahead of universal time. -/
structure Timestamp where
  date : Calendar.Date
  second : Nat
  offset : Int
deriving DecidableEq, Repr, Inhabited

namespace Timestamp

def secondsOfDay : Nat := 86400

/-- How many days the date in universal time is ahead of the local one. -/
def dayShift (t : Timestamp) : Int := ((t.second : Int) - t.offset).fdiv secondsOfDay

/-- Whether the date is in range, also in universal time, and the offset is shorter than a day. -/
def isInRange (t : Timestamp) : Bool :=
  t.offset.natAbs < secondsOfDay && t.date.isInRange
    && !(t.dayShift == -1 && t.date == ⟨Calendar.leastYear, 1, 1⟩)
    && !(t.dayShift == 1 && t.date == ⟨Calendar.greatestYear, 12, 31⟩)

def number (digits : List Char) : Nat := digits.foldl (fun n c => n * 10 + (c.toNat - 48)) 0

/-- Reads one or two digits, as a number between `least` and `most`. -/
def takePair (least most : Nat) (cs : List Char) : Option (Nat × List Char) :=
  let digits := (cs.takeWhile Char.isDigit).take 2
  if digits.isEmpty || number digits < least || most < number digits then none
  else some (number digits, cs.drop digits.length)

/-- Expects a character, with blanks around it or not. -/
def expect (c : Char) (cs : List Char) : Option (List Char) :=
  match Text.trimStart cs with
  | d :: rest => if d == c then some (Text.trimStart rest) else none
  | [] => none

/-- Reads a year: up to four digits, or a sign and any number of them. -/
def takeYear (cs : List Char) : Option (Int × List Char) :=
  let (negative, digits, rest) := match cs with
    | '-' :: rest => (true, rest.takeWhile Char.isDigit, rest)
    | '+' :: rest => (false, rest.takeWhile Char.isDigit, rest)
    | _ => (false, (cs.takeWhile Char.isDigit).take 4, cs)
  if digits.isEmpty then none
  else some (if negative then -(number digits : Int) else number digits, rest.drop digits.length)

/-- Reads a date: year, month and day of the month with dashes between them. -/
def takeDate (cs : List Char) : Option (Calendar.Date × List Char) := do
  let (year, rest) ← takeYear (Text.trimStart cs)
  let (month, rest) ← takePair 1 12 (← expect '-' rest)
  let (day, rest) ← takePair 1 (Calendar.daysOfMonth year month) (← expect '-' rest)
  return (⟨year, month, day⟩, rest)

/-- Skips a fraction of a second. -/
def skipFraction : List Char → Option (List Char)
  | '.' :: rest => if (rest.head?.map Char.isDigit).getD false then some (rest.dropWhile Char.isDigit) else none
  | rest => some rest

/-- Reads a time of day, as its whole seconds.  A leap second counts as the one before it. -/
def takeTime (cs : List Char) : Option (Nat × List Char) := do
  let (hour, rest) ← takePair 0 23 (Text.trimStart cs)
  let (minute, rest) ← takePair 0 59 (← expect ':' rest)
  let (second, rest) ← takePair 0 60 (← expect ':' rest)
  return (hour * 3600 + minute * 60 + min second 59, ← skipFraction rest)

/-- Reads exactly two digits. -/
def takeTwoDigits : List Char → Option (Nat × List Char)
  | a :: b :: rest => if a.isDigit && b.isDigit then some (number [a, b], rest) else none
  | _ => none

/-- Reads hours and minutes, as seconds; blanks and colons may stand between them. -/
def takeSpan (cs : List Char) : Option (Nat × List Char) := do
  let (hours, rest) ← takeTwoDigits cs
  let (minutes, rest) ← takeTwoDigits (rest.dropWhile fun c => c == ':' || Text.isBlank c)
  if minutes > 59 then none else return (hours * 3600 + minutes * 60, rest)

/-- Reads an offset: the name of universal time, or a sign before hours and minutes. -/
def takeOffset : List Char → Option (Int × List Char)
  | 'Z' :: rest | 'z' :: rest => some (0, rest)
  | '+' :: rest => (takeSpan rest).map fun (span, rest) => ((span : Int), rest)
  | '-' :: rest | '\u2212' :: rest => (takeSpan rest).map fun (span, rest) => (-(span : Int), rest)
  | a :: b :: c :: rest => if [a, b, c].map Char.toUpper == ['U', 'T', 'C'] then some (0, rest) else none
  | _ => none

/-- Reads a point in time: a date, a `T` or a space, a time and an offset. -/
def ofText? (text : String) : Option Timestamp := do
  let (date, mark :: rest) ← takeDate text.toList | none
  if !(mark == 'T' || mark == 't' || mark == ' ') then none
  let (second, rest) ← takeTime rest
  let (offset, rest) ← takeOffset (Text.trimStart rest)
  let t : Timestamp := ⟨date, second, offset⟩
  if (Text.trimStart rest).isEmpty && t.isInRange then return t else none

end Timestamp

end DocSync
