/-!
Punycode: the characters of a label outside ASCII as differences, smallest first, written in digits of
base 36 behind the ASCII ones.
-/

namespace DocSync.Domain.Punycode

def digit (d : Nat) : Char := if d < 26 then Char.ofNat (97 + d) else Char.ofNat (22 + d)

/-- The threshold of the digit at place `k`. -/
def threshold (k bias : Nat) : Nat := if k ≤ bias then 1 else if bias + 26 ≤ k then 26 else k - bias

theorem threshold_pos (k bias : Nat) : 1 ≤ threshold k bias := by
  unfold threshold
  split
  · omega
  · split <;> omega

/-- Divides by 35 until at most 455 is left, adding 36 each time. -/
def shrink (delta k : Nat) : Nat × Nat :=
  if 455 < delta then shrink (delta / 35) (k + 36) else (delta, k)
termination_by delta
decreasing_by exact Nat.div_lt_self (by omega) (by omega)

/-- The bias after a difference. -/
def adapt (delta count : Nat) (first : Bool) : Nat :=
  let halved := if first then delta / 700 else delta / 2
  let (left, k) := shrink (halved + halved / count) 0
  k + 36 * left / (left + 38)

/-- A difference in digits from place `k` on. -/
def digits (bias k delta : Nat) : List Char :=
  let t := threshold k bias
  if delta < t then [digit delta]
  else digit (t + (delta - t) % (36 - t)) :: digits bias (k + 36) ((delta - t) / (36 - t))
termination_by delta
decreasing_by
  have := threshold_pos k bias
  calc (delta - threshold k bias) / (36 - threshold k bias)
      ≤ delta - threshold k bias := Nat.div_le_self _ _
    _ < delta := by omega

/-- The value of a digit. -/
def digit? (c : Char) : Option Nat :=
  if c.isDigit then some (c.toNat - 22)
  else if c.isAlpha then some (c.toLower.toNat - 97)
  else none

/-- What is written so far, the difference that runs up, and how many characters are done. -/
structure State where
  written : List Char
  delta : Nat
  bias : Nat
  done : Nat

/-- Passes a character on the round for the character number `m`. -/
def pass (basic m : Nat) (s : State) (c : Char) : State :=
  if c.toNat < m then { s with delta := s.delta + 1 }
  else if c.toNat = m then
    ⟨s.written ++ digits s.bias 36 s.delta, 0, adapt s.delta (s.done + 1) (s.done == basic),
      s.done + 1⟩
  else s

/-- Goes round once for each of the character numbers, which ascend from `n`. -/
def rounds (cs : List Char) (basic : Nat) : List Nat → Nat → State → State
  | [], _, s => s
  | m :: rest, n, s =>
    let s := cs.foldl (pass basic m) { s with delta := s.delta + (m - n) * (s.done + 1) }
    rounds cs basic rest (m + 1) { s with delta := s.delta + 1 }

/-- Adds a number to an ascending list, once. -/
def insertOnce (n : Nat) : List Nat → List Nat
  | [] => [n]
  | m :: rest => if n < m then n :: m :: rest else if n = m then m :: rest else m :: insertOnce n rest

/-- A label with characters outside ASCII in ASCII. -/
def encode (cs : List Char) : List Char :=
  let basic := cs.filter (·.toNat < 0x80)
  let numbers := (cs.filter (·.toNat ≥ 0x80)).foldl (fun ns c => insertOnce c.toNat ns) []
  let start := if basic.isEmpty then [] else basic ++ ['-']
  (rounds cs basic.length numbers 0x80 ⟨start, 0, 72, basic.length⟩).written

/-- What a word of 32 bits does not hold. -/
def wordLimit : Nat := 1 <<< 32

/-- Reads a difference from place `k` on and adds it to `sum`, each digit times its weight; gives the sum
and what follows.  No number on the way may be larger than a word. -/
def readDigits? (bias : Nat) : List Char → Nat → Nat → Nat → Option (Nat × List Char)
  | [], _, _, _ => none
  | c :: rest, k, weight, sum => do
    let d ← digit? c
    let sum := sum + d * weight
    if sum ≥ wordLimit then none
    else if d < threshold k bias then some (sum, rest)
    else
      let weight := weight * (36 - threshold k bias)
      if weight ≥ wordLimit then none else readDigits? bias rest (k + 36) weight sum

theorem length_readDigits?_lt {bias : Nat} {cs : List Char} {k weight sum : Nat}
    {read : Nat × List Char} (h : readDigits? bias cs k weight sum = some read) :
    read.2.length < cs.length := by
  induction cs generalizing k weight sum with
  | nil => simp [readDigits?] at h
  | cons c rest ih =>
    simp only [readDigits?, Option.bind_eq_bind, Option.bind_eq_some_iff] at h
    obtain ⟨d, -, h⟩ := h
    split at h
    · simp at h
    · split at h
      · obtain rfl := Option.some.inj h
        simp
      · split at h
        · simp at h
        · have := ih h
          simp only [List.length_cons]
          omega

/-- Reads the characters outside ASCII into `text`: the differences say how far to go round, where each
round over the text passes on to the next character number. -/
def insertAll? (bias number place : Nat) (text cs : List Char) : Option (List Char) :=
  match cs with
  | [] => some text
  | c :: rest =>
    match h : readDigits? bias (c :: rest) 36 1 place with
    | none => none
    | some (sum, left) =>
      let count := text.length + 1
      let number := number + sum / count
      let place' := sum % count
      if number.isValidChar then
        insertAll? (adapt (sum - place) count (place == 0)) number (place' + 1)
          (text.insertIdx place' (Char.ofNat number)) left
      else none
termination_by cs.length
decreasing_by exact length_readDigits?_lt h

/-- The label that a text in ASCII stands for. -/
def decode? (cs : List Char) : Option (List Char) :=
  let digits := (cs.reverse.takeWhile (· != '-')).reverse
  let basic := (cs.take (cs.length - digits.length)).dropLast
  if basic.isEmpty then insertAll? 72 0x80 0 [] cs else insertAll? 72 0x80 0 basic digits

end DocSync.Domain.Punycode
