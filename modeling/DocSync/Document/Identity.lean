import DocSync.Json.Printer

/-!
Identities of documents: the texts of the primary-key values with a bar between them.
-/

namespace DocSync.Identity

def separator : Char := '|'

/-- Text as it is, null as nothing, any other value as JSON. -/
def part : Json → String
  | .string s => s
  | .null => ""
  | other => other.render

/-- The identity of a key, its values in the order of the primary-key columns. -/
def ofKey (key : List Json) : String := String.singleton separator |>.intercalate (key.map part)

/-- Splits at the first `splits` separators. -/
def splitFirst : Nat → List Char → List Char → List (List Char)
  | _, current, [] => [current.reverse]
  | 0, current, rest => [current.reverse ++ rest]
  | splits + 1, current, c :: rest =>
    if c = separator then current.reverse :: splitFirst splits [] rest
    else splitFirst (splits + 1) (c :: current) rest

/-- The key values an identity stands for, as texts: one per column, the last takes what is left. -/
def toKey (identity : String) (columns : Nat) : List Json :=
  if columns ≤ 1 then [.string identity]
  else (splitFirst (columns - 1) [] identity.toList).map fun cs => .string (String.ofList cs)

end DocSync.Identity
