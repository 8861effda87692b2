import DocSync.Keyed
import DocSync.Decimal.Double

/-!
JSON values.  Integers from `-2^63` to `2^64 - 1` are kept as integers, every other number as a
binary64 number, and the members of an object keep their order.
-/

namespace DocSync

/-- A JSON number. -/
inductive Number where
  | integer (value : Int)
  | double (value : Double)
deriving DecidableEq, Repr, Inhabited

namespace Number

/-- The least and the greatest integer that stay integers. -/
def leastInteger : Int := -(1 <<< 63 : Nat)
def greatestInteger : Int := (1 <<< 64 : Nat) - 1

/-- The integer, when it fits a signed 64-bit word. -/
def signed? : Number → Option Int
  | integer i => if i < (1 <<< 63 : Nat) then some i else none
  | double _ => none

/-- The integer, when it fits an unsigned 64-bit word. -/
def unsigned? : Number → Option Nat
  | integer i => if 0 ≤ i then some i.toNat else none
  | double _ => none

/-- The nearest binary64 number. -/
def toDouble : Number → Double
  | integer i => Double.ofInt i
  | double d => d

/-- Numbers are the same when both are integers, or both doubles, of one value. -/
def same : Number → Number → Bool
  | integer a, integer b => a == b
  | double a, double b => a.same b
  | _, _ => false

end Number

/-- A JSON value. -/
inductive Json where
  | null
  | bool (value : Bool)
  | number (value : Number)
  | string (value : String)
  | array (items : List Json)
  | object (members : List (String × Json))
deriving Repr, Inhabited

/-- Column values by column name, in projection order. -/
abbrev Row := Keyed Json

namespace Json

def ofInt (i : Int) : Json := number (.integer i)

def ofNat (n : Nat) : Json := number (.integer n)

def isNull : Json → Bool
  | null => true
  | _ => false

def string? : Json → Option String
  | string s => some s
  | _ => none

def array? : Json → Option (List Json)
  | array items => some items
  | _ => none

def object? : Json → Option (Keyed Json)
  | object members => some members
  | _ => none

def strings (items : List String) : Json := array (items.map string)

mutual

/-- Equality of values: objects are equal when they hold the same pairs in whatever order. -/
def same : Json → Json → Bool
  | null, null => true
  | bool a, bool b => a == b
  | number a, number b => a.same b
  | string a, string b => a == b
  | array a, array b => sameItems a b
  | object a, object b => a.length == b.length && membersIn a b
  | _, _ => false

def sameItems : List Json → List Json → Bool
  | [], [] => true
  | a :: as, b :: bs => same a b && sameItems as bs
  | _, _ => false

/-- Whether every pair of the first list is found in the second. -/
def membersIn : List (String × Json) → List (String × Json) → Bool
  | [], _ => true
  | (key, value) :: rest, other =>
    (match Keyed.get? other key with
      | some found => same value found
      | none => false) && membersIn rest other

end

end Json

namespace Row

/-- Rows are equal when they hold the same pairs in whatever order. -/
def same (a b : Row) : Bool := Json.same (.object a) (.object b)

/-- The value of a column, null where the row has none. -/
def value (row : Row) (column : String) : Json := Keyed.getD row column .null

/-- Values of `columns`, missing ones as null. -/
def tuple (row : Row) (columns : List String) : List Json := columns.map row.value

end Row

end DocSync
