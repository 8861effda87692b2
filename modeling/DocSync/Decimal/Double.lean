/-!
Finite binary64 numbers, held exactly as a sign and a whole number of units of `2^-1074`.  Rounding
goes to the nearest representable number, a tie to the one whose significand is even.
-/

namespace DocSync

/-- The quotient `num / den` rounded to the nearest natural number, a tie to the even one. -/
def roundHalfEven (num den : Nat) : Nat :=
  let q := num / den
  let twice := 2 * (num % den)
  if twice < den || (twice == den && q % 2 == 0) then q else q + 1

/-- A finite binary64 number: `±units * 2^-1074`. -/
structure Double where
  negative : Bool
  units : Nat
deriving DecidableEq, Repr, Inhabited

namespace Double

/-- The unit is `2^-unitExponent`. -/
def unitExponent : Nat := 1074

/-- One, counted in units. -/
def one : Nat := 1 <<< unitExponent

/-- The first count of units past the largest finite number. -/
def overflow : Nat := 1 <<< 2098

/-- The distance between neighbouring numbers with as many units as `units`: significands have 53
bits. -/
def spacing (units : Nat) : Nat := 1 <<< (units.log2 - 52)

/-- The count of units of the number nearest to `num / den` units. -/
def roundUnits (num den : Nat) : Nat :=
  let step := spacing (num / den)
  roundHalfEven num (den * step) * step

/-- The finite number nearest to `num / den` units, or nothing past the largest one. -/
def ofUnits? (negative : Bool) (num den : Nat) : Option Double :=
  let units := roundUnits num den
  if units < overflow then some ⟨negative, units⟩ else none

/-- The finite number nearest to `±num / den`. -/
def ofFraction? (negative : Bool) (num den : Nat) : Option Double :=
  ofUnits? negative (num * one) den

/-- The number nearest to an integer that fits 64 bits. -/
def ofInt (i : Int) : Double := ⟨i < 0, roundUnits (i.natAbs * one) 1⟩

/-- The number as a signed count of units; both zeros count nothing. -/
def signedUnits (d : Double) : Int := if d.negative then -(d.units : Int) else d.units

/-- Comparison by value: the two zeros are equal. -/
def compare (a b : Double) : Ordering := Ord.compare a.signedUnits b.signedUnits

/-- Equality by value: the two zeros are equal. -/
def same (a b : Double) : Bool := a.signedUnits == b.signedUnits

/-- Product of magnitudes, rounded. -/
def scaleUp? (d factor : Double) : Option Double :=
  ofUnits? d.negative (d.units * factor.units) one

/-- Quotient of magnitudes, rounded. -/
def scaleDown? (d divisor : Double) : Option Double :=
  ofUnits? d.negative (d.units * one) divisor.units

/-- The number nearest to `10^k`. -/
def powerOfTen (k : Nat) : Double := ⟨false, roundUnits (Nat.pow 10 k * one) 1⟩

/-- The finite number nearest to `±digits * 10^exponent`. -/
def ofDecimal? (negative : Bool) (digits : Nat) (exponent : Int) : Option Double :=
  if exponent < 0 then ofFraction? negative digits (Nat.pow 10 exponent.natAbs)
  else ofFraction? negative (digits * Nat.pow 10 exponent.natAbs) 1

/-- A number rounded to a significand of 24 bits with the exponents of binary32, nothing past the
largest one. -/
def toSingle? (d : Double) : Option Double :=
  let least := 1 <<< (unitExponent - 149)
  let step := max least (1 <<< (d.units.log2 - 23))
  let units := roundHalfEven d.units step * step
  if units < 1 <<< (unitExponent + 128) then some ⟨d.negative, units⟩ else none

end Double

end DocSync
