import DocSync.Toml.Scalar
import DocSync.Toml.Table

/-!
Reading TOML documents.
-/

namespace DocSync.Toml

def isSpace (c : Char) : Bool := c == ' ' || c == '\t'

def skipSpaces (cs : List Char) : List Char := cs.dropWhile isSpace

/-- What follows a line end. -/
def newline? : List Char → Option (List Char)
  | '\n' :: rest => some rest
  | '\r' :: '\n' :: rest => some rest
  | _ => none

/-- Whether a character may stand in a comment or in quotes. -/
def isText (c : Char) : Bool := c == '\t' || (c.toNat ≥ 0x20 && c.toNat != 0x7F)

/-- What follows a comment, if there is one. -/
def skipComment (cs : List Char) : List Char :=
  match cs with
  | '#' :: rest => rest.dropWhile isText
  | _ => cs

/-- What follows the end of a line; the last line needs none. -/
def endLine? (cs : List Char) : Option (List Char) :=
  match skipComment (skipSpaces cs) with
  | [] => some []
  | rest => newline? rest

/-- What follows spaces, line ends and comments. -/
def skipLines : Nat → List Char → List Char
  | 0, cs => cs
  | fuel + 1, cs =>
    let rest := skipComment (skipSpaces cs)
    match newline? rest with
    | some rest => skipLines fuel rest
    | none => rest

/-- A character by its number in hexadecimal digits. -/
def charOf? (digits : List Char) : Option Char :=
  let n := numberOf 16 digits
  if digits.all isHexDigit && n.isValidChar then some (Char.ofNat n) else none

/-- The character after a backslash, and the rest. -/
def escape? : List Char → Option (Char × List Char)
  | 'u' :: a :: b :: c :: d :: rest => (charOf? [a, b, c, d]).map fun ch => (ch, rest)
  | 'U' :: a :: b :: c :: d :: e :: f :: g :: h :: rest =>
    (charOf? [a, b, c, d, e, f, g, h]).map fun ch => (ch, rest)
  | 'b' :: rest => some ('\x08', rest)
  | 't' :: rest => some ('\t', rest)
  | 'n' :: rest => some ('\n', rest)
  | 'f' :: rest => some ('\x0c', rest)
  | 'r' :: rest => some ('\r', rest)
  | '"' :: rest => some ('"', rest)
  | '\\' :: rest => some ('\\', rest)
  | _ => none

/-- Reads up to a double quote. -/
def basicString? : Nat → List Char → Option (List Char × List Char)
  | 0, _ => none
  | fuel + 1, cs =>
    match cs with
    | '"' :: rest => some ([], rest)
    | '\\' :: rest => do
      let (c, rest) ← escape? rest
      let (text, rest) ← basicString? fuel rest
      return (c :: text, rest)
    | c :: rest =>
      if isText c then (basicString? fuel rest).map fun (text, rest) => (c :: text, rest) else none
    | [] => none

/-- Reads up to a single quote. -/
def literalString? (cs : List Char) : Option (List Char × List Char) :=
  let text := cs.takeWhile fun c => isText c && c != '\''
  match cs.dropWhile fun c => isText c && c != '\'' with
  | '\'' :: rest => some (text, rest)
  | _ => none

/-- The quotes that end a text of several lines: up to two of them belong to it. -/
def closing? (quote : Char) (cs : List Char) : Option (List Char × List Char) :=
  let count := (cs.takeWhile (· == quote)).length
  if count < 3 then none
  else
    let own := min (count - 3) 2
    some (List.replicate own quote, cs.drop (own + 3))

/-- What follows a backslash at the end of a line: the first text of a later line. -/
def joinLines? (fuel : Nat) (cs : List Char) : Option (List Char) :=
  (newline? (skipSpaces cs)).map (skipBlankLines fuel)
where
  skipBlankLines : Nat → List Char → List Char
    | 0, cs => cs
    | fuel + 1, cs =>
      match newline? (skipSpaces cs) with
      | some rest => skipBlankLines fuel rest
      | none => skipSpaces cs

/-- Reads a text of several lines up to its three quotes; only one in double quotes has escapes. -/
def linesString? (quote : Char) : Nat → List Char → Option (List Char × List Char)
  | 0, _ => none
  | fuel + 1, cs =>
    match closing? quote cs with
    | some result => some result
    | none =>
      match newline? cs, cs with
      | some rest, _ => (linesString? quote fuel rest).map fun (text, rest) => ('\n' :: text, rest)
      | none, c :: rest =>
        if c == '\\' && quote == '"' then
          match joinLines? fuel rest with
          | some rest => linesString? quote fuel rest
          | none => do
            let (c, rest) ← escape? rest
            let (text, rest) ← linesString? quote fuel rest
            return (c :: text, rest)
        else if isText c then
          (linesString? quote fuel rest).map fun (text, rest) => (c :: text, rest)
        else none
      | none, [] => none

/-- A line end right after the opening quotes does not count. -/
def skipFirstLine (cs : List Char) : List Char := (newline? cs).getD cs

/-- Reads a text in quotes of any kind. -/
def quoted? (fuel : Nat) (cs : List Char) : Option (List Char × List Char) :=
  match cs with
  | '"' :: '"' :: '"' :: rest => linesString? '"' fuel (skipFirstLine rest)
  | '\'' :: '\'' :: '\'' :: rest => linesString? '\'' fuel (skipFirstLine rest)
  | '"' :: rest => basicString? fuel rest
  | '\'' :: rest => literalString? rest
  | _ => none

def isBareKeyChar (c : Char) : Bool := c.isAlphanum || c == '_' || c == '-'

/-- Reads one part of a key. -/
def keyPart? (fuel : Nat) (cs : List Char) : Option (String × List Char) :=
  match cs with
  | '"' :: rest => (basicString? fuel rest).map fun (text, rest) => (String.ofList text, rest)
  | '\'' :: rest => (literalString? rest).map fun (text, rest) => (String.ofList text, rest)
  | _ =>
    let part := cs.takeWhile isBareKeyChar
    if part.isEmpty then none else some (String.ofList part, cs.dropWhile isBareKeyChar)

/-- How many brackets may stand in each other, and how many parts a key may have. -/
def nestingLimit : Nat := 79

/-- Reads a key of at most so many parts, with points between them, and the spaces after it. -/
def keyWithin? (fuel : Nat) : Nat → List Char → Option (List String × List Char)
  | 0, _ => none
  | most + 1, cs => do
    let (part, rest) ← keyPart? fuel (skipSpaces cs)
    match skipSpaces rest with
    | '.' :: rest =>
      let (parts, rest) ← keyWithin? fuel most rest
      return (part :: parts, rest)
    | rest => return ([part], rest)

def key? (fuel : Nat) (cs : List Char) : Option (List String × List Char) :=
  keyWithin? fuel nestingLimit cs

/-- Whether a value without quotes ends before a character. -/
def endsScalar (c : Char) : Bool :=
  isSpace c || c == '\n' || c == '\r' || c == ',' || c == ']' || c == '\x7d' || c == '#'

/-- Reads a value without quotes; a date may be followed by a space and a time. -/
def takeScalar? (cs : List Char) : Option (Json × List Char) :=
  let text := cs.takeWhile fun c => !endsScalar c
  let rest := cs.dropWhile fun c => !endsScalar c
  let longer := match rest with
    | ' ' :: more =>
      if isDay text then
        (moment? (text ++ ' ' :: more.takeWhile fun c => !endsScalar c)).map fun m =>
          (m, more.dropWhile fun c => !endsScalar c)
      else none
    | _ => none
  match longer with
  | some (m, rest) => some (.object [(momentMember, .string m)], rest)
  | none => (scalar? text).map fun value => (value, rest)

mutual

/-- Reads a value, its nesting at most `depth`. -/
def value? : Nat → Nat → List Char → Option (Json × List Char)
  | 0, _, _ => none
  | fuel + 1, depth, cs =>
    match cs, depth with
    | '"' :: _, _ | '\'' :: _, _ =>
      (quoted? fuel cs).map fun (text, rest) => (.string (String.ofList text), rest)
    | '[' :: _, 0 | '\x7b' :: _, 0 => none
    | '[' :: rest, depth + 1 =>
      (items? fuel depth (skipLines fuel rest)).map fun (items, rest) => (.array items, rest)
    | '\x7b' :: rest, depth + 1 =>
      match skipSpaces rest with
      | '\x7d' :: rest => some (.object [], rest)
      | rest =>
        (pairs? fuel depth rest []).map fun (entries, rest) => (.object (entriesJson entries), rest)
    | _, _ => takeScalar? cs

/-- Reads the items of an array up to its bracket; a comma may follow the last. -/
def items? : Nat → Nat → List Char → Option (List Json × List Char)
  | 0, _, _ => none
  | fuel + 1, depth, cs =>
    match cs with
    | ']' :: rest => some ([], rest)
    | _ => do
      let (item, rest) ← value? fuel depth cs
      match skipLines fuel rest with
      | ',' :: rest =>
        let (items, rest) ← items? fuel depth (skipLines fuel rest)
        return (item :: items, rest)
      | ']' :: rest => return ([item], rest)
      | _ => none

/-- Reads the pairs of a table in braces, on one line and without a last comma. -/
def pairs? : Nat → Nat → List Char → Entries → Option (Entries × List Char)
  | 0, _, _, _ => none
  | fuel + 1, depth, cs, entries => do
    let (key, rest) ← key? fuel cs
    let '=' :: rest := rest | none
    let (value, rest) ← value? fuel depth (skipSpaces rest)
    let entries ← entries.set key.dropLast (key.getLastD "") value
    match skipSpaces rest with
    | ',' :: rest => pairs? fuel depth rest entries
    | '\x7d' :: rest => return (entries, rest)
    | _ => none

end

/-- Reads a header after its first bracket. -/
def header? (fuel : Nat) (d : Draft) : List Char → Option (Draft × List Char)
  | '[' :: rest => do
    let (key, rest) ← key? fuel rest
    let ']' :: ']' :: rest := rest | none
    return (← d.openRepeated key, ← endLine? rest)
  | cs => do
    let (key, rest) ← key? fuel cs
    let ']' :: rest := rest | none
    return (← d.openTable key, ← endLine? rest)

/-- Reads the lines of a document. -/
def lines? : Nat → Draft → List Char → Option Draft
  | 0, _, _ => none
  | fuel + 1, d, cs =>
    match skipSpaces cs with
    | [] => some d
    | '[' :: rest => do
      let (d, rest) ← header? fuel d rest
      lines? fuel d rest
    | rest =>
      match endLine? rest with
      | some rest => lines? fuel d rest
      | none => do
        let (key, rest) ← key? fuel rest
        let '=' :: rest := rest | none
        let (value, rest) ← value? fuel nestingLimit (skipSpaces rest)
        let d ← d.set key.dropLast (key.getLastD "") value
        lines? fuel d (← endLine? rest)

/-- Reads a document as an object. -/
def parse? (text : String) : Option (Keyed Json) := do
  let cs := match text.toList with
    | '\ufeff' :: rest => rest
    | cs => cs
  let d ← lines? (2 * cs.length + 4) .empty cs
  return entriesJson (← d.close)

end DocSync.Toml
