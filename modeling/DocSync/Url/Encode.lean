import DocSync.Text.Digit

/-!
Percent-encoding.  Controls and everything outside ASCII are always escaped; each part of a URL adds
characters of its own.
-/

namespace DocSync.Url

def upperHexDigit (n : Nat) : Char := if n < 10 then Char.ofNat (48 + n) else Char.ofNat (55 + n)

/-- A byte as a percent sign and two digits. -/
def encodeByte (byte : UInt8) : List Char :=
  ['%', upperHexDigit (byte.toNat / 16), upperHexDigit (byte.toNat % 16)]

/-- Controls and characters outside ASCII. -/
def isAlwaysEscaped (c : Char) : Bool := c.toNat < 0x20 || c.toNat ≥ 0x7F

/-- A character, escaped where it must be or where `more` asks for it. -/
def encodeChar (more : List Char) (c : Char) : List Char :=
  if isAlwaysEscaped c || more.contains c then (String.singleton c).toUTF8.toList.flatMap encodeByte
  else [c]

def encode (more : List Char) (cs : List Char) : List Char := cs.flatMap (encodeChar more)

/-- What a fragment escapes. -/
def fragmentSet : List Char := [' ', '"', '<', '>', '\x60']

/-- What a query escapes. -/
def querySet : List Char := [' ', '"', '#', '<', '>']

/-- What the query of a special scheme escapes. -/
def specialQuerySet : List Char := '\'' :: querySet

/-- What a path escapes. -/
def pathSet : List Char := ['#', '?', '\x7b', '\x7d'] ++ fragmentSet

/-- What a segment escapes that is added to a path. -/
def segmentSet : List Char := ['/', '%'] ++ pathSet

/-- What a segment escapes that is added to the path of a special scheme. -/
def specialSegmentSet : List Char := '\\' :: segmentSet

/-- What a name or a password escapes. -/
def userinfoSet : List Char := ['/', ':', ';', '=', '@', '[', '\\', ']', '^', '|'] ++ pathSet

/-- The bytes of a text in which percent signs before two digits are read as escapes. -/
def decodeBytes : List Char → List UInt8
  | '%' :: a :: b :: rest =>
    match Text.hexDigit? a, Text.hexDigit? b with
    | some high, some low => UInt8.ofNat (high * 16 + low) :: decodeBytes rest
    | _, _ => 37 :: decodeBytes (a :: b :: rest)
  | c :: rest => (String.singleton c).toUTF8.toList ++ decodeBytes rest
  | [] => []

/-- The text that the escapes of a text stand for, where its bytes are UTF-8. -/
def decode? (cs : List Char) : Option (List Char) :=
  (String.fromUTF8? (ByteArray.mk (decodeBytes cs).toArray)).map String.toList

end DocSync.Url
