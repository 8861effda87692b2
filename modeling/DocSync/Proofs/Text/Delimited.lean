import DocSync.Relation.Sql
import DocSync.Text.Quoted
import DocSync.Text.Split
import Mathlib.Data.List.Infix

/-!
Delimiters and quotes.  A text is cut at the first place of a delimiter; a delimiter that stands in a text
that is put together stands in one of its parts, or it runs over the place where they meet.  A text between
quotes has its own quotes doubled, which adds no delimiter that has no quote in it.
-/

namespace DocSync.Text

open List

open Sql (doubled)

variable {pattern cs before rest : List Char}

/-! ### Cuts -/

theorem after?_eq_some_iff : after? pattern cs = some rest ↔ cs = pattern ++ rest :=
  ⟨after?_eq_some, fun h => h ▸ after?_append pattern rest⟩

theorem not_infix_dropLast (hne : pattern ≠ []) : ¬ pattern <:+: pattern.dropLast := fun h => by
  have hlength := h.length_le
  rw [length_dropLast] at hlength
  have := length_pos_iff.mpr hne
  omega

/-- A cut is made at a place of the delimiter before which the delimiter does not stand. -/
theorem cut?_eq_some_iff (hne : pattern ≠ []) : cut? pattern cs = some (before, rest) ↔
    cs = before ++ pattern ++ rest ∧ ¬ pattern <:+: before ++ pattern.dropLast := by
  induction cs generalizing before with
  | nil =>
    obtain ⟨p, ps, rfl⟩ := exists_cons_of_ne_nil hne
    simp [cut?, after?]
  | cons c cs ih =>
    cases hafter : after? pattern (c :: cs) with
    | some r =>
      have hcs := after?_eq_some hafter
      simp only [cut?, hafter, Option.some.injEq, Prod.mk.injEq]
      constructor
      · rintro ⟨rfl, rfl⟩
        exact ⟨hcs, not_infix_dropLast hne⟩
      · rintro ⟨heq, hfirst⟩
        cases before with
        | nil => exact ⟨rfl, append_cancel_left (hcs.symm.trans heq)⟩
        | cons b before =>
          -- The delimiter at the front ends before the end of a later one.
          refine absurd (IsPrefix.isInfix ?_) hfirst
          have hlater : (b :: before) ++ pattern.dropLast <+: c :: cs := by
            rw [heq, append_assoc, prefix_append_right_inj]
            exact ( dropLast_prefix pattern).trans (prefix_append _ _)
          refine prefix_of_prefix_length_le (hcs ▸ prefix_append _ _) hlater ?_
          rw [length_append, length_cons, length_dropLast]
          omega
    | none =>
      simp only [cut?, hafter, Option.map_eq_some_iff, Prod.exists, Prod.mk.injEq]
      constructor
      · rintro ⟨b, r, hcut, rfl, rfl⟩
        obtain ⟨rfl, hfirst⟩ := (ih).mp hcut
        refine ⟨rfl, fun h => ?_⟩
        rcases infix_cons_iff.mp h with h | h
        · obtain ⟨tail, htail⟩ := h
          have hplace : after? pattern (c :: (b ++ pattern ++ r)) =
              some (tail ++ pattern.getLast hne :: r) := by
            rw [after?_eq_some_iff, ← append_assoc, htail]
            conv_lhs => rw [← dropLast_append_getLast hne]
            simp
          rw [hplace] at hafter
          contradiction
        · exact hfirst h
      · rintro ⟨heq, hfirst⟩
        cases before with
        | nil =>
          have := after?_eq_some_iff.mpr heq
          simp [hafter] at this
        | cons b before =>
          obtain ⟨rfl, rfl⟩ := cons.inj heq
          exact ⟨before, rest, ih.mpr ⟨rfl, fun h => hfirst (infix_cons h)⟩, rfl, rfl⟩

/-- A cut at a single character. -/
theorem cut?_singleton_eq_some_iff {c : Char} :
    cut? [c] cs = some (before, rest) ↔ cs = before ++ c :: rest ∧ c ∉ before := by
  rw [cut?_eq_some_iff (cons_ne_nil c []), dropLast_singleton, append_nil, singleton_infix_iff, append_assoc]
  rfl

/-- A cut at two characters that differ. -/
theorem cut?_pair {c d : Char} (hne : c ≠ d) (h : ¬ [c, d] <:+: before) (rest : List Char) :
    cut? [c, d] (before ++ c :: d :: rest) = some (before, rest) := by
  refine (cut?_eq_some_iff (cons_ne_nil c [d])).mpr ⟨by simp, fun hwithin => ?_⟩
  have hlast : [c, d].dropLast = [c] := rfl
  rw [hlast] at hwithin
  rcases infix_concat_iff.mp hwithin with hend | hinside
  · rcases suffix_concat_iff.mp hend with hnil | ⟨t, ht, -⟩
    · contradiction
    · have hends := congrArg getLast? ht
      exact hne (by simpa using hends.symm)
  · exact h hinside

theorem cut?_append (hne : pattern ≠ []) (h : cut? pattern cs = some (before, rest)) (more : List Char) :
    cut? pattern (cs ++ more) = some (before, rest ++ more) := by
  obtain ⟨rfl, hfirst⟩ := (cut?_eq_some_iff hne).mp h
  exact (cut?_eq_some_iff hne).mpr ⟨by simp, hfirst⟩

theorem exists_cut? (h : pattern <:+: cs) : ∃ before rest, cut? pattern cs = some (before, rest) := by
  induction cs with
  | nil =>
    obtain rfl := infix_nil.mp h
    exact ⟨[], [], rfl⟩
  | cons c cs ih =>
    cases hafter : after? pattern (c :: cs) with
    | some rest => exact ⟨[], rest, by simp [cut?, hafter]⟩
    | none =>
      rcases infix_cons_iff.mp h with ⟨rest, hfront⟩ | h
      · rw [after?_eq_some_iff.mpr hfront.symm] at hafter
        contradiction
      · obtain ⟨before, rest, hcut⟩ := ih h
        exact ⟨c :: before, rest, by simp [cut?, hafter, hcut]⟩

/-! ### Places in a text of several parts -/

variable {front back : List Char} {c : Char}

/-- A delimiter in a text of two parts around a character. -/
theorem infix_append_cons (h : pattern <:+: front ++ c :: back) :
    pattern <:+: front ∨ pattern <:+: back ∨
      ∃ left right, pattern = left ++ c :: right ∧ left <:+ front ∧ right <+: back := by
  obtain ⟨s, t, h⟩ := h
  rw [append_assoc] at h
  rcases append_eq_append_iff.mp h with ⟨rest, rfl, hrest⟩ | ⟨skipped, rfl, hback⟩
  · rcases append_eq_append_iff.mp hrest with ⟨tail, rfl, -⟩ | ⟨excess, rfl, hexcess⟩
    · exact .inl (infix_append' s pattern tail)
    · cases excess with
      | nil => exact .inl (by simpa using (suffix_append s rest).isInfix)
      | cons d right =>
        obtain ⟨rfl, rfl⟩ := cons.inj hexcess
        exact .inr (.inr ⟨rest, right, rfl, suffix_append s rest, prefix_append right t⟩)
  · cases skipped with
    | nil =>
      cases pattern with
      | nil => exact .inl nil_infix
      | cons d right =>
        obtain ⟨rfl, rfl⟩ := cons.inj hback
        exact .inr (.inr ⟨[], right, rfl, nil_suffix, prefix_append right t⟩)
    | cons d skipped =>
      obtain ⟨-, rfl⟩ := cons.inj hback
      exact .inr (.inl (infix_append' skipped pattern t))

/-- A delimiter without a character stands on one side of it. -/
theorem infix_append_cons_iff (hc : c ∉ pattern) :
    pattern <:+: front ++ c :: back ↔ pattern <:+: front ∨ pattern <:+: back := by
  constructor
  · intro h
    rcases infix_append_cons h with h | h | ⟨left, right, rfl, -⟩
    · exact .inl h
    · exact .inr h
    · simp at hc
  · rintro (h | h)
    · exact h.trans (prefix_append front (c :: back)).isInfix
    · exact h.trans ((suffix_cons c back).trans (suffix_append front _)).isInfix

/-- Text at the end without a character stands behind it. -/
theorem suffix_append_cons_iff (hc : c ∉ pattern) : pattern <:+ front ++ c :: back ↔ pattern <:+ back := by
  constructor
  · rintro ⟨s, h⟩
    rcases append_eq_append_iff.mp h with ⟨rest, rfl, rfl⟩ | ⟨skipped, rfl, hback⟩
    · simp at hc
    · cases skipped with
      | nil =>
        obtain rfl : c :: back = pattern := hback
        simp at hc
      | cons d skipped =>
        obtain ⟨-, rfl⟩ := cons.inj hback
        exact suffix_append skipped pattern
  · exact fun h => h.trans ((suffix_cons c back).trans (suffix_append front _))

/-! ### Quotes -/

variable {mark : Char} {text : List Char}

/-- A text between quotes. -/
def quote (mark : Char) (text : List Char) : List Char := mark :: doubled mark text ++ [mark]

theorem doubled_cons (mark c : Char) (text : List Char) :
    doubled mark (c :: text) = (if c = mark then [mark, mark] else [c]) ++ doubled mark text := rfl

/-- What stands between quotes is read as it was written. -/
theorem delimited_doubled (hrest : rest.head? ≠ some mark) :
    delimited mark (doubled mark text ++ mark :: rest) = some (text, rest) := by
  induction text with
  | nil =>
    cases rest with
    | nil => simp [doubled, delimited]
    | cons d rest =>
      have hd : d ≠ mark := fun h => hrest (by simp [h])
      simp [doubled, delimited, hd]
  | cons c text ih =>
    rw [doubled_cons]
    split
    · rename_i hc
      simp only [cons_append, nil_append, delimited, if_true]
      rw [ih, hc]
      rfl
    · rename_i hc
      obtain ⟨d, more, hd⟩ : ∃ d more, doubled mark text ++ mark :: rest = d :: more :=
        exists_cons_of_ne_nil (by simp)
      rw [cons_append, nil_append, cons_append, hd, delimited, if_neg hc, ← hd, ih]
      rfl

/-- What follows the closing quote does not matter, as long as it is no quote. -/
theorem delimited_append (h : delimited mark cs = some (text, rest)) (more : List Char)
    (hmore : more.head? ≠ some mark) : delimited mark (cs ++ more) = some (text, rest ++ more) := by
  fun_induction delimited mark cs generalizing text rest with
  | case1 => simp at h
  | case2 =>
    obtain ⟨rfl, rfl⟩ : [] = text ∧ [] = rest := by simpa using h
    cases more with
    | nil => simp [delimited]
    | cons d more =>
      have hd : d ≠ mark := fun h => hmore (by simp [h])
      simp [delimited, hd]
  | case3 => simp at h
  | case4 cs ih =>
    simp only [Option.map_eq_some_iff, Prod.exists, Prod.mk.injEq] at h
    obtain ⟨t, r, hr, rfl, rfl⟩ := h
    simp [delimited, ih hr]
  | case5 d cs hd =>
    obtain ⟨rfl, rfl⟩ : [] = text ∧ d :: cs = rest := by simpa using h
    simp [delimited, hd]
  | case6 c d cs hc ih =>
    simp only [Option.map_eq_some_iff, Prod.exists, Prod.mk.injEq] at h
    obtain ⟨t, r, hr, rfl, rfl⟩ := h
    have := ih hr
    rw [cons_append] at this
    simp [delimited, hc, this]

/-- Text without a quote that starts where a quote stands is empty. -/
theorem eq_nil_of_prefix_cons (hmark : mark ∉ pattern) (h : pattern <+: mark :: cs) : pattern = [] := by
  rcases prefix_cons_iff.mp h with h | ⟨tail, rfl, -⟩
  · exact h
  · simp at hmark

theorem prefix_doubled_iff (hmark : mark ∉ pattern) : pattern <+: doubled mark text ↔ pattern <+: text := by
  induction text generalizing pattern with
  | nil => rfl
  | cons c text ih =>
    rw [doubled_cons]
    split
    · rename_i hc
      subst hc
      constructor <;> exact fun h => eq_nil_of_prefix_cons hmark h ▸ nil_prefix
    · rw [cons_append, nil_append, prefix_cons_iff, prefix_cons_iff]
      refine or_congr_right (exists_congr fun tail => and_congr_right fun heq => ih fun hmem => hmark ?_)
      exact heq ▸ mem_cons_of_mem c hmem

/-- A delimiter without quotes stands where it stood before the quotes were doubled. -/
theorem infix_doubled_iff (hmark : mark ∉ pattern) : pattern <:+: doubled mark text ↔ pattern <:+: text := by
  induction text with
  | nil => rfl
  | cons c text ih =>
    rw [infix_cons_iff, ← prefix_doubled_iff hmark, ← ih, doubled_cons]
    split
    · rw [cons_append, cons_append, nil_append, infix_cons_iff, infix_cons_iff]
      refine or_congr_right (or_iff_right_of_imp fun h => ?_)
      exact eq_nil_of_prefix_cons hmark h ▸ nil_infix
    · rw [cons_append, nil_append, infix_cons_iff]

theorem infix_quote_iff (hmark : mark ∉ pattern) : pattern <:+: quote mark text ↔ pattern <:+: text := by
  rw [quote, cons_append, ← nil_append (mark :: _), infix_append_cons_iff hmark,
    infix_append_cons_iff hmark, infix_doubled_iff hmark]
  constructor
  · rintro (h | h | h)
    · exact infix_nil.mp h ▸ nil_infix
    · exact h
    · exact infix_nil.mp h ▸ nil_infix
  · exact fun h => .inr (.inl h)

end DocSync.Text
