import DocSync.Decimal.Double

/-!
The shortest decimal text that reads back as the same binary64 number.  The digits come from exact
integer arithmetic on the interval of reals that round to the number; a layout record says how the
digits are written.
-/

namespace DocSync

/-- Decimal digits `digits` with the point after the first one, times `10^exponent`. -/
structure DecimalDigits where
  digits : List Char
  exponent : Int
deriving DecidableEq, Repr

namespace Double

/-- The power of ten just above the number: the least `k` with `units * 2^-1074 < 10^k`. -/
def decimalScale (units : Nat) : Int :=
  ((Nat.toDigits 10 (units * Nat.pow 10 324 / one)).length : Int) - 324

/-- Whether `num / den` units lie in the interval of reals that round to `units`; its ends belong to
it when the significand is even. -/
def roundsTo (units num den : Nat) : Bool :=
  let step := spacing units
  let below := if units == 1 <<< units.log2 && step > 1 then step else 2 * step
  let low := (4 * units - below) * den
  let high := (4 * units + 2 * step) * den
  if units / step % 2 == 0 then low ≤ 4 * num && 4 * num ≤ high
  else low < 4 * num && 4 * num < high

/-- The multiple of `10^place` nearest to `units` among those that round to it, as a count of
`10^place`; a tie goes to the even count. -/
def gridPoint? (units : Nat) (place : Int) : Option Nat :=
  let num := if place < 0 then Nat.pow 10 place.natAbs * units else units
  let den := if place < 0 then one else one * Nat.pow 10 place.natAbs
  let inUnits (n : Nat) : Nat × Nat :=
    if place < 0 then (n * one, Nat.pow 10 place.natAbs) else (n * one * Nat.pow 10 place.natAbs, 1)
  let fits (n : Nat) : Bool := roundsTo units (inUnits n).1 (inUnits n).2
  let nearest := roundHalfEven num den
  let other := if nearest == num / den then nearest + 1 else num / den
  if fits nearest then some nearest else if fits other then some other else none

/-- Tries grids of `count`, `count + 1`, … digits until one holds a number that reads back. -/
def searchDigits (units : Nat) (scale : Int) : Nat → Nat → Option (Nat × Int)
  | 0, _ => none
  | tries + 1, count =>
    let place := scale - count
    match gridPoint? units place with
    | some n => some (n, place)
    | none => searchDigits units scale tries (count + 1)

/-- Digits without the zeros at their end. -/
def trimZeros (digits : List Char) : List Char := (digits.reverse.dropWhile (· == '0')).reverse

/-- The shortest digits that read back as a nonzero number, nearest of those. -/
def shortestDigits (units : Nat) : DecimalDigits :=
  match searchDigits units (decimalScale units) 17 1 with
  | some (n, place) =>
    let digits := Nat.toDigits 10 n
    ⟨trimZeros digits, place + digits.length - 1⟩
  | none => ⟨['0'], 0⟩

end Double

/-- How digits and exponent are laid out. -/
structure NumeralLayout where
  /-- Decimal exponents written positionally. -/
  leastPositional : Int
  mostPositional : Int
  /-- The mark and the sign that a positive exponent carries. -/
  positiveExponent : String
  negativeExponent : String

namespace NumeralLayout

def zeros (n : Nat) : String := String.ofList (List.replicate n '0')

/-- A positional numeral has at least one digit on each side of the point. -/
def positional (d : DecimalDigits) : String :=
  if d.exponent < 0 then
    "0." ++ zeros (d.exponent.natAbs - 1) ++ String.ofList d.digits
  else
    let whole := d.exponent.natAbs + 1
    if d.digits.length ≤ whole then
      String.ofList d.digits ++ zeros (whole - d.digits.length) ++ ".0"
    else String.ofList (d.digits.take whole) ++ "." ++ String.ofList (d.digits.drop whole)

/-- A scientific numeral has a point only where more than one digit is written. -/
def scientific (layout : NumeralLayout) (d : DecimalDigits) : String :=
  let mantissa := match d.digits with
    | [] => "0"
    | [c] => String.ofList [c]
    | c :: rest => String.ofList (c :: '.' :: rest)
  let mark := if d.exponent < 0 then layout.negativeExponent else layout.positiveExponent
  mantissa ++ mark ++ toString d.exponent.natAbs

/-- The text of a finite number. -/
def render (layout : NumeralLayout) (d : Double) : String :=
  let sign := if d.negative then "-" else ""
  if d.units == 0 then sign ++ "0.0"
  else
    let digits := Double.shortestDigits d.units
    if layout.leastPositional ≤ digits.exponent && digits.exponent ≤ layout.mostPositional then
      sign ++ positional digits
    else sign ++ layout.scientific digits

end NumeralLayout

end DocSync
