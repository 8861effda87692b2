/-!
Names of replication slots: lower-case letters, digits and underscores, at most 63 of them.
-/

namespace DocSync.SlotName

/-- A character in lower case, as far as it matters for ASCII letters: the Kelvin sign becomes a `k`
and the dotted capital `I` an `i` with a combining dot; no other character outside ASCII has an ASCII
letter in its lower-case form. -/
def lower (c : Char) : List Char :=
  if c == '\u212a' then ['k'] else if c == '\u0130' then ['i', '\u0307'] else [c.toLower]

def isAllowed (c : Char) : Bool := c.isAlphanum || c == '_'

def most : Nat := 63

/-- The slot name of an index of a database; characters that a slot name cannot have become
underscores. -/
def ofIndex (database index : String) : String :=
  let raw := (database ++ "_" ++ index).toList.flatMap lower
  String.ofList ((raw.map fun c => if isAllowed c then c else '_').take most)

end DocSync.SlotName
