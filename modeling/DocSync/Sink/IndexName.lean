/-!
Names of indices that are tables of a database: they stand in statements as they are.
-/

namespace DocSync.IndexName

def isFirst (c : Char) : Bool := c.isLower || c == '_'

def isFollowing (c : Char) : Bool := c.isLower || c.isDigit || c == '_' || c == '-'

/-- Whether a name has only lower-case letters, digits, underscores and dashes, a letter or an
underscore first. -/
def isPlain : List Char → Bool
  | [] => false
  | first :: rest => isFirst first && rest.all isFollowing

def most : Nat := 63

/-- Checks a name: its length in bytes first, then its characters. -/
def check (name : String) : Except String Unit :=
  if name.isEmpty || name.utf8ByteSize > most then
    .error ("Index name '" ++ name ++ "' must be 1-63 characters")
  else if isPlain name.toList then .ok ()
  else
    .error ("Index name '" ++ name
      ++ "' may only contain lower-case letters, digits, '_' and '-'")

end DocSync.IndexName
