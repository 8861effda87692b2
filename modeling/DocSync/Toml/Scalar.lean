import DocSync.Json.Parser
import DocSync.Text.Calendar

/-!
Values of a TOML document that are written without quotes or brackets.
-/

namespace DocSync.Toml

/-- Digits with single underscores between them, without the underscores. -/
def digits? (isDigit : Char → Bool) (cs : List Char) : Option (List Char) :=
  go false cs
where
  go (afterDigit : Bool) : List Char → Option (List Char)
    | [] => if afterDigit then some [] else none
    | '_' :: rest => if afterDigit then go false rest else none
    | c :: rest => if isDigit c then (go true rest).map (c :: ·) else none

def numberOf (base : Nat) (digits : List Char) : Nat :=
  (Text.numberIn? base digits).getD 0

def isHexDigit (c : Char) : Bool := (Text.hexDigit? c).isSome

def isOctalDigit (c : Char) : Bool := '0' ≤ c && c ≤ '7'

def isBinaryDigit (c : Char) : Bool := c == '0' || c == '1'

/-- Digits without leading zeros. -/
def plainDigits? (cs : List Char) : Option (List Char) :=
  (digits? Char.isDigit cs).filter fun ds => ds.length ≤ 1 || ds.head? != some '0'

def signOf (cs : List Char) : Bool × List Char :=
  match cs with
  | '-' :: rest => (true, rest)
  | '+' :: rest => (false, rest)
  | _ => (false, cs)

/-- An integer of 64 bits with a sign. -/
def integer? (cs : List Char) : Option Int := do
  let value : Int ← match cs with
    | '0' :: 'x' :: rest => (digits? isHexDigit rest).map fun ds => (numberOf 16 ds : Int)
    | '0' :: 'o' :: rest => (digits? isOctalDigit rest).map fun ds => (numberOf 8 ds : Int)
    | '0' :: 'b' :: rest => (digits? isBinaryDigit rest).map fun ds => (numberOf 2 ds : Int)
    | _ =>
      let (negative, rest) := signOf cs
      (plainDigits? rest).map fun ds =>
        if negative then -(numberOf 10 ds : Int) else (numberOf 10 ds : Int)
  if -(1 <<< 63 : Nat) ≤ value && value < (1 <<< 63 : Nat) then some value else none

/-- The exponent of a float, where it has one. -/
def exponent? : List Char → Option (Option (Bool × List Char))
  | [] => some none
  | c :: rest =>
    if c == 'e' || c == 'E' then
      let (negative, ds) := signOf rest
      (digits? Char.isDigit ds).map fun ds => some (negative, ds)
    else none

/-- A float: the double nearest to it, or nothing inside where it is not finite. -/
def float? (cs : List Char) : Option (Option Double) := do
  let (negative, rest) := signOf cs
  if rest == "inf".toList || rest == "nan".toList then return none
  let whole ← plainDigits? (rest.takeWhile fun c => c.isDigit || c == '_')
  let rest := rest.dropWhile fun c => c.isDigit || c == '_'
  let (fraction, rest) ← match rest with
    | '.' :: rest => do
      let ds ← digits? Char.isDigit (rest.takeWhile fun c => c.isDigit || c == '_')
      pure (ds, rest.dropWhile fun c => c.isDigit || c == '_')
    | _ => if rest.isEmpty then none else pure ([], rest)
  let power : Int := match ← exponent? rest with
    | some (true, ds) => -(numberOf 10 ds : Int)
    | some (false, ds) => numberOf 10 ds
    | none => 0
  let power := max (-100000) (min power 100000)
  match Double.ofDecimal? negative (numberOf 10 (whole ++ fraction)) (power - fraction.length) with
  | some d => return some d
  | none => if negative then return none else none

/-- Two digits that make a number in a range. -/
def pair? (least most : Nat) : List Char → Option Nat
  | [a, b] =>
    if a.isDigit && b.isDigit then (some (numberOf 10 [a, b])).filter fun n => least ≤ n && n ≤ most
    else none
  | _ => none

/-- A day: year, month and day with dashes. -/
def isDay (cs : List Char) : Bool :=
  match cs with
  | [a, b, c, d, '-', e, f, '-', g, h] =>
    [a, b, c, d].all Char.isDigit &&
      match pair? 1 12 [e, f] with
      | some month =>
        (pair? 1 (Calendar.daysOfMonth (numberOf 10 [a, b, c, d]) month) [g, h]).isSome
      | none => false
  | _ => false

/-- A time of day without what follows it: its text and the rest, a fraction without its last zeros. -/
def takeClock? (cs : List Char) : Option (List Char × List Char) :=
  match cs with
  | a :: b :: ':' :: c :: d :: ':' :: e :: f :: rest =>
    if (pair? 0 23 [a, b]).isSome && (pair? 0 59 [c, d]).isSome && (pair? 0 60 [e, f]).isSome then
      let written := [a, b, ':', c, d, ':', e, f]
      match rest with
      | '.' :: rest =>
        let ds := rest.takeWhile Char.isDigit
        let kept := ((ds.take 9).reverse.dropWhile (· == '0')).reverse
        if ds.isEmpty then none
        else some (written ++ (if kept.isEmpty then [] else '.' :: kept), rest.dropWhile Char.isDigit)
      | _ => some (written, rest)
    else none
  | _ => none

/-- An offset from universal time.  None at all has a plus sign. -/
def offset? (cs : List Char) : Option (List Char) :=
  match cs with
  | [] => some []
  | ['Z'] | ['z'] => some ['Z']
  | [sign, a, b, ':', c, d] =>
    if (sign == '+' || sign == '-') && (pair? 0 23 [a, b]).isSome && (pair? 0 59 [c, d]).isSome then
      some ((if [a, b, c, d].all (· == '0') then '+' else sign) :: cs.drop 1)
    else none
  | _ => none

/-- A date, a time, or both, in its usual form. -/
def moment? (cs : List Char) : Option String :=
  let day := cs.take 10
  if isDay day then
    match cs.drop 10 with
    | [] => some (String.ofList day)
    | mark :: rest =>
      if mark == 'T' || mark == 't' || mark == ' ' then do
        let (clock, rest) ← takeClock? rest
        return String.ofList (day ++ ['T'] ++ clock ++ (← offset? rest))
      else none
  else
    match takeClock? cs with
    | some (clock, []) => some (String.ofList clock)
    | _ => none

/-- The member under which a date or time stands as an object. -/
def momentMember : String := "$__toml_private_datetime"

/-- A value without quotes or brackets. -/
def scalar? (cs : List Char) : Option Json :=
  if cs == "true".toList then some (.bool true)
  else if cs == "false".toList then some (.bool false)
  else
    match integer? cs, float? cs, moment? cs with
    | some i, _, _ => some (.ofInt i)
    | _, some (some d), _ => some (.number (.double d))
    | _, some none, _ => some .null
    | _, _, some text => some (.object [(momentMember, .string text)])
    | _, _, _ => none

end DocSync.Toml
