/-!
Cutting text at the first place where a pattern stands, and at every separator.
-/

namespace DocSync.Text

/-- What follows `pattern`, where the text starts with it. -/
def after? : List Char → List Char → Option (List Char)
  | [], cs => some cs
  | _ :: _, [] => none
  | p :: ps, c :: cs => if p = c then after? ps cs else none

/-- The text before and after the first place where `pattern` stands. -/
def cut? (pattern : List Char) : List Char → Option (List Char × List Char)
  | [] => (after? pattern []).map fun rest => ([], rest)
  | c :: cs =>
    match after? pattern (c :: cs) with
    | some rest => some ([], rest)
    | none => (cut? pattern cs).map fun (before, rest) => (c :: before, rest)

theorem after?_eq_some {pattern cs rest : List Char} (h : after? pattern cs = some rest) :
    cs = pattern ++ rest := by
  induction pattern generalizing cs with
  | nil => simpa [after?] using h
  | cons p ps ih =>
    cases cs with
    | nil => simp [after?] at h
    | cons c cs =>
      by_cases hp : p = c
      · subst hp
        simp only [after?, if_true] at h
        simp [ih h]
      · simp [after?, hp] at h

theorem after?_append (pattern rest : List Char) : after? pattern (pattern ++ rest) = some rest := by
  induction pattern with
  | nil => rfl
  | cons p ps ih => simp [after?, ih]

/-- Cutting loses nothing but the pattern. -/
theorem cut?_eq_some {pattern cs before rest : List Char}
    (h : cut? pattern cs = some (before, rest)) : cs = before ++ pattern ++ rest := by
  induction cs generalizing before with
  | nil =>
    simp only [cut?, Option.map_eq_some_iff] at h
    obtain ⟨r, hr, heq⟩ := h
    simp only [Prod.mk.injEq] at heq
    obtain ⟨rfl, rfl⟩ := heq
    simpa using after?_eq_some hr
  | cons c cs ih =>
    simp only [cut?] at h
    split at h
    · rename_i r hr
      simp only [Option.some.injEq, Prod.mk.injEq] at h
      obtain ⟨rfl, rfl⟩ := h
      simpa using after?_eq_some hr
    · simp only [Option.map_eq_some_iff] at h
      obtain ⟨⟨b, r⟩, hr, heq⟩ := h
      simp only [Prod.mk.injEq] at heq
      obtain ⟨rfl, rfl⟩ := heq
      simp [ih hr]

theorem length_cut?_le {pattern cs before rest : List Char}
    (h : cut? pattern cs = some (before, rest)) : rest.length + pattern.length ≤ cs.length := by
  have := congrArg List.length (cut?_eq_some h)
  simp only [List.length_append] at this
  omega

/-- Puts a character in front of the first piece. -/
def pushToFirst (c : Char) : List (List Char) → List (List Char)
  | piece :: rest => (c :: piece) :: rest
  | [] => [[c]]

/-- The pieces of a text between separators; there is always at least one. -/
def pieces (isSeparator : Char → Bool) (cs : List Char) : List (List Char) :=
  cs.foldr (fun c found => if isSeparator c then [] :: found else pushToFirst c found) [[]]

@[simp]
theorem pieces_nil (isSeparator : Char → Bool) : pieces isSeparator [] = [[]] := rfl

theorem pieces_cons (isSeparator : Char → Bool) (c : Char) (cs : List Char) :
    pieces isSeparator (c :: cs) =
      if isSeparator c then [] :: pieces isSeparator cs else pushToFirst c (pieces isSeparator cs) :=
  rfl

theorem pieces_ne_nil (isSeparator : Char → Bool) (cs : List Char) : pieces isSeparator cs ≠ [] := by
  cases cs with
  | nil => simp
  | cons c cs =>
    rw [pieces_cons]
    split
    · simp
    · cases pieces isSeparator cs <;> simp [pushToFirst]

end DocSync.Text
