import DocSync.Domain.Name
import DocSync.Text.Split
import DocSync.Url.Encode

/-!
Hosts: domains, addresses in dots and addresses in colons, as they are written in a URL.
-/

namespace DocSync.Url

/-- A part of an address in dots: decimal, octal after a zero, or hexadecimal after `0x`. -/
def dottedNumber? (cs : List Char) : Option Nat :=
  match cs with
  | [] => none
  | '0' :: x :: rest =>
    if x == 'x' || x == 'X' then if rest.isEmpty then some 0 else Text.numberIn? 16 rest
    else Text.numberIn? 8 (x :: rest)
  | _ => Text.numberIn? 10 cs

/-- The parts of a domain without the empty one at its end. -/
def dottedParts (cs : List Char) : List (List Char) :=
  let parts := Text.pieces (· == '.') cs
  if parts.length > 1 && parts.getLast? == some [] then parts.dropLast else parts

/-- Whether the last part of a domain is a number. -/
def endsInNumber (cs : List Char) : Bool :=
  match (dottedParts cs).getLast? with
  | some last => (!last.isEmpty && last.all Char.isDigit) || (dottedNumber? last).isSome
  | none => false

/-- The four bytes of an address in dots; its last part fills all bytes that are left. -/
def dotted? (cs : List Char) : Option (List Nat) := do
  let numbers ← (dottedParts cs).mapM dottedNumber?
  let last ← numbers.getLast?
  let others := numbers.dropLast
  if numbers.length > 4 || others.any (· > 255) || last ≥ Nat.pow 256 (4 - others.length) then none
  let address := others.zipIdx.foldl (fun sum (n, i) => sum + n * Nat.pow 256 (3 - i)) last
  return [address >>> 24, (address >>> 16) % 256, (address >>> 8) % 256, address % 256]

def dottedText (bytes : List Nat) : List Char := (".".intercalate (bytes.map toString)).toList

/-- A piece of an address in colons: one to four digits. -/
def piece? (cs : List Char) : Option Nat :=
  if cs.isEmpty || cs.length > 4 then none else Text.numberIn? 16 cs

/-- A decimal byte without leading zeros. -/
def plainByte? (cs : List Char) : Option Nat :=
  if cs.isEmpty || (cs.head? == some '0' && cs.length > 1) then none
  else (Text.numberIn? 10 cs).filter (· ≤ 255)

/-- The pieces on one side of a gap; the last may be an address in dots, which makes two. -/
def pieces? (isLastSide : Bool) (cs : List Char) : Option (List Nat) :=
  if cs.isEmpty then some []
  else do
    let parts := Text.pieces (· == ':') cs
    let last ← parts.getLast?
    if isLastSide && last.contains '.' then
      let [a, b, c, d] ← (Text.pieces (· == '.') last).mapM plainByte? | none
      let front ← parts.dropLast.mapM piece?
      return front ++ [a * 256 + b, c * 256 + d]
    else parts.mapM piece?

/-- The eight pieces of an address in colons; a double colon stands for at least one zero. -/
def colons? (cs : List Char) : Option (List Nat) :=
  match Text.cut? "::".toList cs with
  | some (before, after) => do
    let front ← pieces? false before
    let back ← pieces? true after
    if front.length + back.length > 7 then none
    return front ++ List.replicate (8 - front.length - back.length) 0 ++ back
  | none => do
    let all ← pieces? true cs
    if all.length = 8 then some all else none

/-- The longest run of zeros, the first of them: where it starts and how long it is. -/
def longestZeros (pieces : List Nat) : Nat × Nat :=
  (List.range 8).foldl (fun (best : Nat × Nat) start =>
    let run := ((pieces.drop start).takeWhile (· == 0)).length
    if run > best.2 then (start, run) else best) (0, 0)

def colonText (pieces : List Nat) : List Char :=
  let write (ps : List Nat) : String := ":".intercalate (ps.map fun p => String.ofList (Nat.toDigits 16 p))
  let (start, run) := longestZeros pieces
  (if run < 2 then write pieces
  else write (pieces.take start) ++ "::" ++ write (pieces.drop (start + run))).toList

/-- A host in brackets. -/
def bracketed? (cs : List Char) : Option (List Char) := do
  let inner := cs.drop 1
  if inner.getLast? != some ']' then none
  let pieces ← colons? inner.dropLast
  return ['['] ++ colonText pieces ++ [']']

/-- What a host of any scheme must not have. -/
def isForbiddenInHost (c : Char) : Bool :=
  ['\x00', '\t', '\n', '\r', ' ', '#', '/', ':', '<', '>', '?', '@', '[', '\\', ']', '^', '|'].contains c

/-- The host of a special scheme. -/
def specialHost? (cs : List Char) : Option (List Char) :=
  if cs.head? == some '[' then bracketed? cs
  else do
    let domain ← Domain.toAscii? (← decode? cs)
    if endsInNumber domain then return dottedText (← dotted? domain) else return domain

/-- The host of any other scheme, which may be empty. -/
def plainHost? (cs : List Char) : Option (List Char) :=
  if cs.head? == some '[' then bracketed? cs
  else if cs.any isForbiddenInHost then none
  else some (encode [] cs)

end DocSync.Url
