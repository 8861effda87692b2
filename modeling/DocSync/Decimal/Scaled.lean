import DocSync.Decimal.Double

/-!
Decimal numbers that keep their scale: `1.50` has two places and is written with both.
-/

namespace DocSync

/-- The number `±digits * 10^-scale`. -/
structure ScaledDecimal where
  negative : Bool
  digits : Nat
  scale : Nat
deriving DecidableEq, Repr, Inhabited

namespace ScaledDecimal

/-- Digits have 96 bits. -/
def overflow : Nat := 1 <<< 96

/-- The most places. -/
def mostPlaces : Nat := 28

/-- A number rounded to at most the greatest scale, half up. -/
def capped (d : ScaledDecimal) : ScaledDecimal :=
  if d.scale ≤ mostPlaces then d
  else
    let unit := Nat.pow 10 (d.scale - mostPlaces)
    ⟨d.negative, (2 * d.digits + unit) / (2 * unit), mostPlaces⟩

/-- The number with as many places, up to `scale` of them, as leave it few enough digits; the places
that go are rounded half to even. -/
def fitted? (negative : Bool) (digits whole : Nat) : Nat → Option ScaledDecimal
  | 0 =>
    let rounded := roundHalfEven digits (Nat.pow 10 whole)
    if rounded < overflow then some ⟨negative, rounded, 0⟩ else none
  | scale + 1 =>
    let rounded := roundHalfEven digits (Nat.pow 10 (whole - (scale + 1)))
    if rounded < overflow then some ⟨negative, rounded, scale + 1⟩
    else fitted? negative digits whole scale

/-- The number as it can be held: with fewer places where it has too many, nothing where its whole part
alone is too large. -/
def held? (d : ScaledDecimal) : Option ScaledDecimal :=
  fitted? d.capped.negative d.capped.digits d.capped.scale d.capped.scale

/-- The digits with the point before the last `scale` of them. -/
def text (d : ScaledDecimal) : String :=
  let digits := toString d.digits
  let all := ("".pushn '0' (d.scale + 1 - digits.length) ++ digits).toList
  let whole := all.take (all.length - d.scale)
  let fraction := all.drop (all.length - d.scale)
  (if d.negative then "-" else "") ++ String.ofList whole
    ++ (if fraction.isEmpty then "" else "." ++ String.ofList fraction)

end ScaledDecimal

end DocSync
