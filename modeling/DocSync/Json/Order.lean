import DocSync.Json.Printer

/-!
The order of values used for keyset paging and for sorting, and the looser equality of an untyped
SQL literal with a typed column.
-/

namespace DocSync

namespace Json

/-- Null comes first, then booleans, numbers, strings, arrays and objects. -/
def rank : Json → Nat
  | null => 0
  | bool _ => 1
  | number _ => 2
  | string _ => 3
  | array _ => 4
  | object _ => 5

end Json

/-- Numbers compare as integers when both fit a signed 64-bit word, else as binary64 numbers. -/
def Number.compare (a b : Number) : Ordering :=
  match a.signed?, b.signed? with
  | some x, some y => Ord.compare x y
  | _, _ => a.toDouble.compare b.toDouble

namespace Json

/-- Order of values: by rank, then by value; arrays and objects by their text. -/
def compare : Json → Json → Ordering
  | bool a, bool b => Ord.compare a.toNat b.toNat
  | number a, number b => a.compare b
  | string a, string b => Ord.compare a b
  | array a, array b => Ord.compare (array a).render (array b).render
  | object a, object b => Ord.compare (object a).render (object b).render
  | a, b => Ord.compare a.rank b.rank

/-- The text by which a number or a boolean equals a string. -/
def scalarText? : Json → Option String
  | number n => some n.render
  | bool b => some (bool b).render
  | _ => none

/-- Equality as an untyped SQL literal has it: a string matches a number or a boolean of the same
text, and null matches nothing. -/
def sqlMatches (actual expected : Json) : Bool :=
  if actual.isNull || expected.isNull then false
  else
    match actual, expected with
    | string text, other =>
      match other.scalarText? with
      | some t => t == text
      | none => compare (string text) other == .eq
    | other, string text =>
      match other.scalarText? with
      | some t => t == text
      | none => compare other (string text) == .eq
    | a, b => compare a b == .eq

/-- Tuples compare at their first difference, then by length. -/
def compareTuples : List Json → List Json → Ordering
  | [], [] => .eq
  | [], _ :: _ => .lt
  | _ :: _, [] => .gt
  | a :: as, b :: bs =>
    match compare a b with
    | .eq => compareTuples as bs
    | other => other

end Json

/-- Inserts from the end into a list that is held in reverse order. -/
def insertDescending (le : α → α → Bool) (item : α) : List α → List α
  | [] => [item]
  | last :: rest => if le last item then item :: last :: rest
    else last :: insertDescending le item rest

/-- Stable insertion sort: each item moves left past those that come after it. -/
def sortStable (le : α → α → Bool) (items : List α) : List α :=
  (items.foldl (fun sorted item => insertDescending le item sorted) []).reverse

end DocSync
