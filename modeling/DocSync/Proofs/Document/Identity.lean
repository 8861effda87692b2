import DocSync.Proofs.Json.Text
import Mathlib

/-!
What an identity says about its key.  An identity is the texts of the key columns with separators
between them, and no column escapes a separator of its own.  Main statement: a key of several columns is
told apart from all others exactly when none of its columns holds a separator, and is read back from its
identity exactly when no column but the last does.
-/

namespace DocSync

namespace Json

/-- A text, a boolean, or a number that a JSON value can have. -/
def IsScalar : Json → Prop
  | bool _ => True
  | string _ => True
  | number n => n.IsHeld
  | _ => False

variable {a b v : Json}

theorem IsScalar.isHeld (h : v.IsScalar) : v.IsHeld := by
  cases v <;> first | exact h | trivial

theorem IsScalar.isNull (h : v.IsScalar) : v.isNull = false := by
  cases v <;> first | rfl | exact h.elim

/-- A scalar matches a text exactly when its own text is this one. -/
theorem IsScalar.sqlMatches_string_iff (h : v.IsScalar) (text : String) :
    v.sqlMatches (.string text) ↔ Identity.part v = text := by
  cases v with
  | string s =>
    have hcompare : compare (string s) (string text) = .eq ↔ s = text := by
      rw [compare, Std.LawfulEqCmp.compare_eq_iff_eq]
    rw [Identity.part, ← hcompare]
    simp [sqlMatches, Json.isNull, scalarText?]
  | number n => simp [sqlMatches, Json.isNull, scalarText?, Identity.part, render]
  | bool value => simp [sqlMatches, Json.isNull, scalarText?, Identity.part]
  | null => exact h.elim
  | array => exact h.elim
  | object => exact h.elim

/-- Scalars of one text match. -/
theorem IsScalar.sqlMatches_of_part_eq (ha : a.IsScalar) (hb : b.IsScalar)
    (h : Identity.part a = Identity.part b) : a.sqlMatches b = true := by
  have hrender (hrender : a.render = b.render) : a.sqlMatches b = true :=
    sqlMatches_of_render_eq ha.isHeld hb.isHeld ha.isNull hrender
  cases b with
  | string text => exact (ha.sqlMatches_string_iff text).mpr h
  | null => exact hb.elim
  | array => exact hb.elim
  | object => exact hb.elim
  | bool value =>
    cases a with
    | string text => simpa [sqlMatches, Json.isNull, scalarText?, Identity.part] using h.symm
    | null => exact ha.elim
    | _ => exact hrender h
  | number n =>
    cases a with
    | string text => simpa [sqlMatches, Json.isNull, scalarText?, Identity.part, render] using h.symm
    | null => exact ha.elim
    | _ => exact hrender h

end Json

namespace Identity

open List (Forall₂)

/-- The texts between the separators in the text of a value. -/
def pieces (v : Json) : List (List Char) := (part v).toList.splitOn separator

/-- A value whose text has no separator. -/
def Plain (v : Json) : Prop := separator ∉ (part v).toList

variable {key other rest : List Json} {u v : Json}

theorem pieces_of_plain (h : Plain v) : pieces v = [(part v).toList] := List.splitOn_eq_singleton h

theorem part_eq_of_pieces {text : List Char} (h : pieces v = [text]) : (part v).toList = text := by
  have hjoined : [separator].intercalate ((part v).toList.splitOn separator) = (part v).toList :=
    List.intercalate_splitOn separator
  rw [pieces] at h
  rw [← hjoined, h]
  simp

theorem toList_ofKey (key : List Json) :
    (ofKey key).toList = [separator].intercalate (key.map fun v => (part v).toList) := by
  simp [ofKey, String.toList_intercalate, Function.comp_def]

theorem toList_ofKey_cons (v : Json) (h : rest ≠ []) :
    (ofKey (v :: rest)).toList = (part v).toList ++ separator :: (ofKey rest).toList := by
  obtain ⟨w, others, rfl⟩ := List.exists_cons_of_ne_nil h
  simp [toList_ofKey]

/-- Splitting an identity at every separator gives the pieces of its columns. -/
theorem splitOn_ofKey (h : key ≠ []) : (ofKey key).toList.splitOn separator = key.flatMap pieces := by
  induction key with
  | nil => contradiction
  | cons v rest ih =>
    by_cases hrest : rest = []
    · subst hrest
      simp [toList_ofKey, pieces]
    · rw [toList_ofKey_cons v hrest, List.splitOn_append_cons_self, ih hrest, List.flatMap_cons, pieces]

/-- Keys have one identity exactly when their columns fall into the same pieces. -/
theorem ofKey_eq_iff (hkey : key ≠ []) (hother : other ≠ []) :
    ofKey key = ofKey other ↔ key.flatMap pieces = other.flatMap pieces := by
  rw [← splitOn_ofKey hkey, ← splitOn_ofKey hother]
  constructor
  · exact fun h => by rw [h]
  · intro h
    have hjoined := congrArg [separator].intercalate h
    rw [List.intercalate_splitOn, List.intercalate_splitOn] at hjoined
    exact String.toList_injective hjoined

/-- Every column has at least one piece. -/
theorem length_le_pieces (key : List Json) : key.length ≤ (key.flatMap pieces).length := by
  induction key with
  | nil => simp
  | cons v rest ih =>
    have hpos := List.length_pos_iff.mpr (List.splitOn_ne_nil separator (part v).toList)
    rw [List.flatMap_cons, List.length_append, List.length_cons, pieces]
    omega

/-! ### Reading a key back -/

theorem splitFirst_zero (cs : List Char) : splitFirst 0 [] cs = [cs] := by
  cases cs <;> rfl

theorem toKey_succ (identity : String) (columns : Nat) : toKey identity (columns + 1) =
    (splitFirst columns [] identity.toList).map fun cs => .string (String.ofList cs) := by
  cases columns with
  | zero => simp [toKey, splitFirst_zero]
  | succ columns => simp [toKey]

theorem splitFirst_append {text : List Char} (h : separator ∉ text) (splits : Nat)
    (current cs : List Char) : splitFirst (splits + 1) current (text ++ separator :: cs) =
      (current.reverse ++ text) :: splitFirst splits [] cs := by
  induction text generalizing current with
  | nil => simp [splitFirst]
  | cons c text ih =>
    rw [List.mem_cons, not_or] at h
    rw [List.cons_append, splitFirst, if_neg (Ne.symm h.1), ih h.2]
    simp

theorem length_splitFirst (splits : Nat) (current cs : List Char) :
    (splitFirst splits current cs).length = min (splits + 1) (cs.splitOn separator).length := by
  induction cs generalizing splits current with
  | nil => cases splits <;> simp [splitFirst]
  | cons c cs ih =>
    have hpos := List.length_pos_iff.mpr (List.splitOn_ne_nil separator cs)
    rw [List.splitOn_cons_eq_if_modifyHead]
    simp only [beq_iff_eq]
    cases splits with
    | zero =>
      rw [splitFirst.eq_2 _ _ (List.cons_ne_nil c cs), List.length_singleton]
      split_ifs
      · rw [List.length_cons]
        omega
      · rw [List.length_modifyHead]
        omega
    | succ splits =>
      rw [splitFirst]
      split_ifs with hc
      · rw [List.length_cons, List.length_cons, ih]
        omega
      · rw [ih, List.length_modifyHead]

/-- An identity gives as many texts as its key has columns, whatever they hold. -/
theorem length_toKey_ofKey (hne : key ≠ []) : (toKey (ofKey key) key.length).length = key.length := by
  obtain ⟨columns, hcolumns⟩ := Nat.exists_eq_succ_of_ne_zero
    (fun hzero => hne (List.length_eq_zero_iff.mp hzero))
  have hpieces := length_le_pieces key
  rw [hcolumns, Nat.succ_eq_add_one, toKey_succ, List.length_map, length_splitFirst, splitOn_ofKey hne]
  omega

/-- All that is split off has no separator. -/
theorem not_mem_of_mem_splitFirst {splits : Nat} {current cs piece : List Char}
    (hcurrent : separator ∉ current) (h : piece ∈ (splitFirst splits current cs).dropLast) :
    separator ∉ piece := by
  induction cs generalizing splits current with
  | nil => cases splits <;> simp [splitFirst] at h
  | cons c cs ih =>
    cases splits with
    | zero => simp [splitFirst] at h
    | succ splits =>
      rw [splitFirst] at h
      split_ifs at h with hc
      · cases hsplit : splitFirst splits [] cs with
        | nil => simp [hsplit] at h
        | cons first others =>
          rw [hsplit, List.dropLast_cons_of_ne_nil (List.cons_ne_nil _ _), List.mem_cons] at h
          rcases h with rfl | h
          · simpa using hcurrent
          · have hempty : separator ∉ ([] : List Char) := List.not_mem_nil
            exact ih hempty (hsplit ▸ h)
      · exact ih (by simpa [Ne.symm hc] using hcurrent) h

/-- A key, column by column, against the texts that its identity is split into. -/
theorem toKey_ofKey_of_plain (h : ∀ v ∈ key.dropLast, Plain v) (hne : key ≠ []) :
    toKey (ofKey key) key.length = key.map fun v => .string (part v) := by
  induction key with
  | nil => contradiction
  | cons v rest ih =>
    rw [List.length_cons, toKey_succ]
    by_cases hrest : rest = []
    · subst hrest
      rw [List.length_nil, ← toKey_succ]
      simp [toKey, ofKey]
    · rw [List.dropLast_cons_of_ne_nil hrest] at h
      obtain ⟨hv, hothers⟩ := List.forall_mem_cons.mp h
      obtain ⟨columns, hcolumns⟩ := Nat.exists_eq_succ_of_ne_zero
        (fun hzero => hrest (List.length_eq_zero_iff.mp hzero))
      have hread := ih hothers hrest
      rw [hcolumns, Nat.succ_eq_add_one, toKey_succ] at hread
      rw [hcolumns, Nat.succ_eq_add_one, toList_ofKey_cons v hrest, splitFirst_append hv, List.map_cons,
        hread]
      simp

/-- Every column matches the text read back for it. -/
def ReadsBack (key : List Json) : Prop :=
  Forall₂ (fun v text : Json => v.sqlMatches text) key (toKey (ofKey key) key.length)

theorem readsBack_iff (hne : key ≠ []) (hkey : ∀ v ∈ key, v.IsScalar) :
    ReadsBack key ↔ ∀ v ∈ key.dropLast, Plain v := by
  constructor
  · intro h
    obtain ⟨columns, hcolumns⟩ := Nat.exists_eq_succ_of_ne_zero
      (fun hzero => hne (List.length_eq_zero_iff.mp hzero))
    rw [ReadsBack, hcolumns, Nat.succ_eq_add_one, toKey_succ, List.forall₂_map_right_iff] at h
    generalize hsplit : splitFirst columns [] (ofKey key).toList = texts at h
    have hparts : key.map (fun v => (part v).toList) = texts := by
      have hpart : Forall₂ (fun v text => (part v).toList = text) key texts := by
        refine (List.forall₂_iff_zip.mpr ⟨h.length_eq, fun {v text} hmem => ?_⟩)
        have hmatch := (List.forall₂_iff_zip.mp h).2 hmem
        rw [(hkey v (List.of_mem_zip hmem).1).sqlMatches_string_iff] at hmatch
        simp [hmatch]
      exact (List.forall₂_eq_eq_eq ▸ List.forall₂_map_left_iff.mpr hpart)
    intro v hv
    have hfirst : (part v).toList ∈ (splitFirst columns [] (ofKey key).toList).dropLast := by
      rw [hsplit, ← hparts, ← List.map_dropLast]
      exact List.mem_map_of_mem hv
    exact not_mem_of_mem_splitFirst List.not_mem_nil hfirst
  · intro h
    rw [ReadsBack, toKey_ofKey_of_plain h hne, List.forall₂_map_right_iff, List.forall₂_same]
    exact fun v hv => ((hkey v hv).sqlMatches_string_iff _).mpr rfl

/-! ### Telling keys apart -/

/-- Keys that match column by column. -/
def Matches (key other : List Json) : Prop := Forall₂ (fun a b : Json => a.sqlMatches b) key other

theorem matches_of_parts (hkey : ∀ v ∈ key, v.IsScalar) (hother : ∀ v ∈ other, v.IsScalar)
    (h : key.map part = other.map part) : Matches key other := by
  have hlength : key.length = other.length := by simpa using congrArg List.length h
  refine List.forall₂_iff_get.mpr ⟨hlength, fun i hi hi' => ?_⟩
  refine (hkey _ (List.get_mem ..)).sqlMatches_of_part_eq (hother _ (List.get_mem ..)) ?_
  have hpart := congrArg (·[i]?) h
  simpa [hi, hi'] using hpart

/-- Columns of one piece each leave room for no other key of their number. -/
theorem parts_eq_of_plain (hkey : ∀ v ∈ key, Plain v) (hlength : other.length = key.length)
    (h : other.flatMap pieces = key.flatMap pieces) : other.map part = key.map part := by
  induction key generalizing other with
  | nil =>
    obtain rfl := List.length_eq_zero_iff.mp hlength
    rfl
  | cons v rest ih =>
    obtain ⟨hv, hrest⟩ := List.forall_mem_cons.mp hkey
    obtain ⟨u, others, rfl⟩ := List.exists_cons_of_ne_nil (List.ne_nil_of_length_eq_add_one hlength)
    have hlength' : others.length = rest.length := by simpa using hlength
    have hplain : (rest.flatMap pieces).length = rest.length := by
      rw [List.length_flatMap, List.map_congr_left fun w hw => by rw [pieces_of_plain (hrest w hw)]]
      simp
    obtain ⟨piece, more, hu⟩ := List.exists_cons_of_ne_nil
      (List.splitOn_ne_nil separator (part u).toList)
    rw [List.flatMap_cons, List.flatMap_cons, pieces_of_plain hv, pieces, hu, List.cons_append,
      List.singleton_append, List.cons.injEq] at h
    have hnothing : more = [] := by
      have hlengths := congrArg List.length h.2
      have := length_le_pieces others
      rw [List.length_append] at hlengths
      exact List.length_eq_zero_iff.mp (by omega)
    subst hnothing
    have hpart : part u = part v := String.toList_injective (h.1 ▸ part_eq_of_pieces hu)
    rw [List.map_cons, List.map_cons, hpart, ih hrest hlength' h.2]

/-- A separator in one of two columns can be taken for the one between them. -/
theorem exists_other_pair (hu : u.IsScalar) (hv : v.IsScalar) (h : ¬ Plain u ∨ ¬ Plain v) :
    ∃ x y : String, pieces (.string x) ++ pieces (.string y) = pieces u ++ pieces v ∧
      ¬ (u.sqlMatches (.string x) ∧ v.sqlMatches (.string y)) := by
  have hpieces (text : String) : pieces (.string text) = text.toList.splitOn separator := rfl
  -- a column that is cut short matches the whole one no more
  have hdiffers {w : Json} (hw : w.IsScalar) {text : List Char}
      (htext : text.length < (part w).toList.length) :
      ¬ w.sqlMatches (.string (String.ofList text)) := by
    rw [hw.sqlMatches_string_iff]
    intro heq
    rw [heq, String.toList_ofList] at htext
    exact Nat.lt_irrefl _ htext
  rcases h with h | h
  all_goals obtain ⟨front, back, hsplit⟩ := List.append_of_mem (not_not.mp h)
  · refine ⟨.ofList front, .ofList (back ++ separator :: (part v).toList), ?_, fun hmatches => ?_⟩
    · rw [hpieces, hpieces, pieces, pieces, hsplit, String.toList_ofList, String.toList_ofList]
      simp only [List.splitOn_append_cons_self, List.append_assoc]
    · exact hdiffers hu (by simp [hsplit]) hmatches.1
  · refine ⟨.ofList ((part u).toList ++ separator :: front), .ofList back, ?_, fun hmatches => ?_⟩
    · rw [hpieces, hpieces, pieces, pieces, hsplit, String.toList_ofList, String.toList_ofList]
      simp only [List.splitOn_append_cons_self, List.append_assoc]
    · exact hdiffers hv (by rw [hsplit, List.length_append, List.length_cons]; omega) hmatches.2

theorem exists_pair_of_not_plain (hseveral : 2 ≤ key.length) (hmem : v ∈ key) (hv : ¬ Plain v) :
    ∃ before u w after, key = before ++ u :: w :: after ∧ (¬ Plain u ∨ ¬ Plain w) := by
  induction key with
  | nil => simp at hmem
  | cons first rest ih =>
    obtain ⟨second, others, rfl⟩ : ∃ second others, rest = second :: others :=
      List.exists_cons_of_length_pos (by rw [List.length_cons] at hseveral; omega)
    by_cases hfirst : Plain first ∧ Plain second
    · have hothers : v ∈ others := by
        rcases List.mem_cons.mp hmem with rfl | hmem
        · exact absurd hfirst.1 hv
        rcases List.mem_cons.mp hmem with rfl | hmem
        · exact absurd hfirst.2 hv
        exact hmem
      have hlonger : 2 ≤ (second :: others).length := Nat.succ_le_succ (List.length_pos_of_mem hothers)
      obtain ⟨before, u, w, after, hkey, hpair⟩ := ih hlonger (List.mem_cons_of_mem _ hothers)
      exact ⟨first :: before, u, w, after, by rw [hkey, List.cons_append], hpair⟩
    · exact ⟨[], first, second, others, rfl, not_and_or.mp hfirst⟩

/-- A key is told apart when every key of as many columns that has its identity matches it. -/
def ToldApart (key : List Json) : Prop :=
  ∀ other : List Json, other.length = key.length → (∀ v ∈ other, v.IsScalar) →
    ofKey other = ofKey key → Matches key other

theorem toldApart_iff (hne : key ≠ []) (hkey : ∀ v ∈ key, v.IsScalar) :
    ToldApart key ↔ key.length = 1 ∨ ∀ v ∈ key, Plain v := by
  have hpos := List.length_pos_iff.mpr hne
  constructor
  · intro h
    by_contra hnot
    rw [not_or, not_forall] at hnot
    obtain ⟨hseveral, v, hv⟩ := hnot
    obtain ⟨hmem, hv⟩ := Classical.not_imp.mp hv
    obtain ⟨before, u, w, after, rfl, hpair⟩ := exists_pair_of_not_plain (by omega) hmem hv
    have hu : u.IsScalar := hkey u (by simp)
    have hw : w.IsScalar := hkey w (by simp)
    obtain ⟨x, y, hpieces, hdiffers⟩ := exists_other_pair hu hw hpair
    have hmatches := h (before ++ .string x :: .string y :: after) (by simp) ?_ ?_
    · have hrest := List.forall₂_drop_append _ _ _ hmatches
      rw [List.drop_left, List.forall₂_cons, List.forall₂_cons] at hrest
      exact hdiffers ⟨hrest.1, hrest.2.1⟩
    · intro other hother
      simp only [List.mem_append, List.mem_cons] at hother
      rcases hother with hother | rfl | rfl | hother
      · exact hkey other (by simp [hother])
      · trivial
      · trivial
      · exact hkey other (by simp [hother])
    · rw [ofKey_eq_iff (by simp) (by simp)]
      simp only [List.flatMap_append, List.flatMap_cons]
      rw [← List.append_assoc (pieces (.string x)), hpieces, List.append_assoc]
  · rintro (hone | hplain) other hlength hother hsame
    · obtain ⟨v, rfl⟩ := List.length_eq_one_iff.mp hone
      obtain ⟨u, rfl⟩ := List.length_eq_one_iff.mp hlength
      refine matches_of_parts hkey hother ?_
      have hpart : part u = part v := by simpa [ofKey] using hsame
      simp [hpart]
    · have hother' : other ≠ [] := List.length_pos_iff.mp (hlength ▸ hpos)
      exact matches_of_parts hkey hother
        (parts_eq_of_plain hplain hlength ((ofKey_eq_iff hother' hne).mp hsame)).symm

/-- An identity tells its key apart from every other exactly when the key has one column or no column
holds a separator; it gives as many texts as the key has columns, and each matches its column exactly
when no column but the last holds a separator.  Keys that are read back do not share identities. -/
theorem identity_faithful_iff (hne : key ≠ []) (hkey : ∀ v ∈ key, v.IsScalar) :
    (ToldApart key ↔ key.length = 1 ∨ ∀ v ∈ key, Plain v) ∧
      (toKey (ofKey key) key.length).length = key.length ∧
      (ReadsBack key ↔ ∀ v ∈ key.dropLast, Plain v) ∧
      ∀ other : List Json, other.length = key.length → (∀ v ∈ other, v.IsScalar) →
        (∀ v ∈ key.dropLast, Plain v) → (∀ v ∈ other.dropLast, Plain v) →
        ¬ Matches key other → ofKey key ≠ ofKey other := by
  refine ⟨toldApart_iff hne hkey, length_toKey_ofKey hne, readsBack_iff hne hkey, ?_⟩
  intro other hlength hother hplain hplain' hdiffers hsame
  have hother' : other ≠ [] := List.length_pos_iff.mp (hlength ▸ List.length_pos_iff.mpr hne)
  refine hdiffers (matches_of_parts hkey hother ?_)
  have hread := toKey_ofKey_of_plain hplain hne
  rw [hsame, ← hlength, toKey_ofKey_of_plain hplain' hother'] at hread
  have htexts := congrArg (List.map part) hread
  rw [List.map_map, List.map_map] at htexts
  exact htexts.symm

/-- A shelf by its room and number: a bar in the room could be the one before the number. -/
theorem identity_faithful_of_room_with_bar :
    ([.string "x|y", .ofNat 7] : List Json) ≠ [] ∧
      (∀ v ∈ ([.string "x|y", .ofNat 7] : List Json), v.IsScalar) ∧
      ¬ ToldApart [.string "x|y", .ofNat 7] ∧ ¬ ReadsBack [.string "x|y", .ofNat 7] := by
  have hscalar : ∀ v ∈ ([.string "x|y", .ofNat 7] : List Json), v.IsScalar := by
    simp [Json.IsScalar, Json.ofNat, Number.IsHeld]
  have hbar : ¬ Plain (.string "x|y") := by
    simp [Plain, part, separator]
  obtain ⟨htold, -, hread, -⟩ := identity_faithful_iff (List.cons_ne_nil _ _) hscalar
  refine ⟨List.cons_ne_nil _ _, hscalar, ?_, ?_⟩
  · rw [htold]
    rintro (hone | hplain)
    · contradiction
    · exact hbar (hplain _ List.mem_cons_self)
  · rw [hread]
    exact fun hplain => hbar (hplain _ List.mem_cons_self)

/-- Two shelves of different rooms and codes share an identity, and it is read back as the key of the
second one only. -/
theorem shelves_share_identity :
    ¬ (∀ key other : List Json, key ≠ [] → other.length = key.length → (∀ v ∈ key, v.IsScalar) →
        (∀ v ∈ other, v.IsScalar) → ¬ Matches key other → ofKey key ≠ ofKey other) ∧
      ¬ ∀ key : List Json, key ≠ [] → (∀ v ∈ key, v.IsScalar) → ReadsBack key := by
  have hscalar (texts : List String) : ∀ v ∈ texts.map Json.string, v.IsScalar := by
    intro v hv
    obtain ⟨text, -, rfl⟩ := List.mem_map.mp hv
    trivial
  constructor
  · intro h
    refine h ([ "x|y", "z" ].map .string) ([ "x", "y|z" ].map .string) (by simp) rfl (hscalar _)
      (hscalar _) ?_ (by cbv)
    intro hmatches
    have hfirst := (List.forall₂_cons.mp hmatches).1
    exact absurd hfirst (by cbv; trivial)
  · intro h
    have hread := h ([ "x|y", "z" ].map .string) (by simp) (hscalar _)
    have hfirst : (Json.string "x|y").sqlMatches (.string "x") := by
      have htexts : toKey (ofKey ([ "x|y", "z" ].map .string)) 2 = [.string "x", .string "y|z"] := by cbv
      rw [ReadsBack, List.length_map, List.length_cons, List.length_singleton, htexts] at hread
      exact (List.forall₂_cons.mp hread).1
    exact absurd hfirst (by cbv; trivial)

end Identity

end DocSync
