import DocSync.Text.Unprintable

/-!
Text between quotes.  `delimited` reads a token whose quote is written twice inside; `display` writes
a text the way messages show it, with backslash escapes.
-/

namespace DocSync.Text

/-- Reads up to the closing quote; a quote written twice stands for one.  Gives the text read and
what follows, or nothing when the quote is never closed. -/
def delimited (quote : Char) : List Char → Option (List Char × List Char)
  | [] => none
  | [c] => if c = quote then some ([], []) else none
  | c :: d :: rest =>
    if c = quote then
      if d = quote then (delimited quote rest).map fun (text, after) => (quote :: text, after)
      else some ([], d :: rest)
    else (delimited quote (d :: rest)).map fun (text, after) => (c :: text, after)

theorem length_delimited_lt {quote : Char} {cs text after : List Char}
    (h : delimited quote cs = some (text, after)) : after.length < cs.length := by
  fun_induction delimited quote cs generalizing text after with
  | case1 => simp at h
  | case2 => simp_all
  | case3 => simp_all
  | case4 rest ih =>
    simp only [Option.map_eq_some_iff, Prod.exists, Prod.mk.injEq] at h
    obtain ⟨t, a, hr, -, rfl⟩ := h
    have := ih hr
    simp only [List.length_cons]
    omega
  | case5 => simp_all
  | case6 c d rest hc ih =>
    simp only [Option.map_eq_some_iff, Prod.exists, Prod.mk.injEq] at h
    obtain ⟨t, a, hr, -, rfl⟩ := h
    have := ih hr
    simp only [List.length_cons] at this ⊢
    omega

/-- One character as messages show it. -/
def displayChar (c : Char) : List Char :=
  match c with
  | '"' => ['\\', '"']
  | '\\' => ['\\', '\\']
  | '\n' => ['\\', 'n']
  | '\t' => ['\\', 't']
  | '\r' => ['\\', 'r']
  | '\x00' => ['\\', '0']
  | c =>
    if isUnprintable c then ['\\', 'u', '\x7b'] ++ Nat.toDigits 16 c.toNat ++ ['\x7d'] else [c]

/-- A text in double quotes, its quotes, backslashes and unprintable characters escaped. -/
def display (cs : List Char) : String := String.ofList ('"' :: cs.flatMap displayChar ++ ['"'])

end DocSync.Text
