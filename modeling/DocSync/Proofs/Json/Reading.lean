import DocSync.Proofs.Json.Text
import DocSync.Proofs.Keyed

/-!
Reading back what was printed.  A value without numbers whose brackets do not nest too deep, and whose members
have different keys, is read back from its text.
-/

namespace DocSync.Json

/-! ### Strings -/

theorem scanString_plain {c : Char} (hquote : c ≠ '"') (hslash : c ≠ '\\') (hc : ¬ c.toNat < 32)
    (rest acc : List Char) : scanString (c :: rest) acc = scanString rest (c :: acc) := by
  rw [scanString]
  · simp [hc, hslash]
  all_goals simp_all

theorem scanString_simple {c e : Char} (hc : c ≠ 'u') (h : simpleEscape? c = some e) (rest acc : List Char) :
    scanString ('\\' :: c :: rest) acc = scanString rest (e :: acc) := by
  rw [scanString]
  · simp [h]
  all_goals simp_all

/-- A unit that is no surrogate stands for a character, whatever follows. -/
theorem scanString_unit {high low : Char} {unit : Nat} (h : hexUnit? '0' '0' high low = some unit)
    (hunit : unit < 32) (rest acc : List Char) :
    scanString ('\\' :: 'u' :: '0' :: '0' :: high :: low :: rest) acc =
      scanString rest (Char.ofNat unit :: acc) := by
  have hplain : ¬ (0xD800 ≤ unit ∧ unit < 0xDC00) ∧ ¬ (0xDC00 ≤ unit ∧ unit < 0xE000) ∧
      ¬ (0xD800 ≤ unit ∧ unit < 0xE000) := by omega
  -- What follows may look like the second half of a pair, and is then left alone.
  by_cases hpair : ∃ e f g k tail, rest = '\\' :: 'u' :: e :: f :: g :: k :: tail
  · obtain ⟨e, f, g, k, tail, rfl⟩ := hpair
    rw [scanString]
    simp only [h, if_neg hplain.1, if_neg hplain.2.1]
  · rw [scanString]
    · simp only [h, if_neg hplain.2.2]
    · intro e f g k tail hrest
      exact hpair ⟨e, f, g, k, tail, hrest⟩

theorem scanString_escapeChar (c : Char) (rest acc : List Char) :
    scanString (escapeChar c ++ rest) acc = scanString rest (c :: acc) := by
  unfold escapeChar
  split
  case h_1 | h_2 | h_3 | h_4 | h_5 | h_6 | h_7 => exact scanString_simple (by decide) rfl rest acc
  case h_8 hquote hslash _ _ _ _ _ =>
    split
    · rename_i hcontrol
      have hdigits : ∀ n < 32, hexUnit? '0' '0' (hexDigit (n / 16)) (hexDigit (n % 16)) = some n := by decide
      have hunit := scanString_unit (hdigits c.toNat hcontrol) hcontrol rest acc
      rwa [Char.ofNat_toNat] at hunit
    · rename_i hplain
      exact scanString_plain hquote hslash hplain rest acc

theorem scanString_escaped (cs rest acc : List Char) :
    scanString (cs.flatMap escapeChar ++ '"' :: rest) acc = some (cs.reverse ++ acc, rest) := by
  induction cs generalizing acc with
  | nil => rw [List.flatMap_nil, List.nil_append, scanString]; rfl
  | cons c cs ih =>
    rw [List.flatMap_cons, List.append_assoc, scanString_escapeChar, ih, List.reverse_cons, List.append_assoc]
    rfl

/-- A string is read back behind its opening quote. -/
theorem readString?_escaped (s : String) (rest : List Char) :
    readString? (s.toList.flatMap escapeChar ++ '"' :: rest) = some (s, rest) := by
  simp [readString?, scanString_escaped]

/-! ### Values -/

/-- Values without numbers whose brackets nest at most so deep, and whose members have different keys. -/
inductive Plain : Nat → Json → Prop
  | null {depth : Nat} : Plain depth .null
  | bool {depth : Nat} (value : Bool) : Plain depth (.bool value)
  | string {depth : Nat} (s : String) : Plain depth (.string s)
  | array {depth : Nat} {items : List Json} (h : ∀ v ∈ items, Plain depth v) : Plain (depth + 1) (.array items)
  | object {depth : Nat} {members : List (String × Json)} (hkeys : (members.map Prod.fst).Nodup)
      (h : ∀ m ∈ members, Plain depth m.2) : Plain (depth + 1) (.object members)

theorem skipBlanks_cons {c : Char} (h : isBlank c = false) (rest : List Char) :
    skipBlanks (c :: rest) = c :: rest := by
  rw [skipBlanks, List.dropWhile_cons, h]
  rfl

/-- A value's text begins with no blank and closes nothing. -/
theorem exists_render_head (v : Json) :
    ∃ c rest, v.render.toList = c :: rest ∧ isBlank c = false ∧ c ≠ ']' := by
  obtain ⟨c, rest, htext, hkind⟩ := kindOf_render v
  have hseven := kind_ne_seven v
  refine ⟨c, rest, htext, ?_, ?_⟩
  · by_contra hblank
    have hcases : c = ' ' ∨ c = '\n' ∨ c = '\t' ∨ c = '\r' := by
      simp only [isBlank, Bool.not_eq_false, Bool.or_eq_true, beq_iff_eq, or_assoc] at hblank
      exact hblank
    rcases hcases with rfl | rfl | rfl | rfl
    all_goals exact hseven (hkind.symm.trans (by decide))
  · rintro rfl
    exact hseven (hkind.symm.trans (by decide))

/-- A value is read back from the front of a text, if the fuel is as much as its text is long. -/
def ReadsBack (depth : Nat) (v : Json) : Prop :=
  ∀ (fuel : Nat) (rest : List Char), v.render.toList.length ≤ fuel →
    readValue fuel depth .whole (v.render.toList ++ rest) = some (v, rest)

/-- A text is not empty, so there is fuel to begin with. -/
theorem ReadsBack.of_succ {depth : Nat} {v : Json}
    (h : ∀ (fuel : Nat) (rest : List Char), v.render.toList.length ≤ fuel + 1 →
      readValue (fuel + 1) depth .whole (v.render.toList ++ rest) = some (v, rest)) : ReadsBack depth v := by
  intro fuel rest hfuel
  cases fuel with
  | zero =>
    obtain ⟨c, tail, htext, -⟩ := exists_render_head v
    rw [htext] at hfuel
    contradiction
  | succ fuel => exact h fuel rest hfuel

variable {depth : Nat}

theorem readsBack_null : ReadsBack depth .null := by
  refine .of_succ fun fuel rest _ => ?_
  have htext : Json.null.render.toList ++ rest = 'n' :: 'u' :: 'l' :: 'l' :: rest := rfl
  rw [htext, readValue, skipBlanks_cons (by decide)]
  rfl

theorem readsBack_bool (value : Bool) : ReadsBack depth (.bool value) := by
  refine .of_succ fun fuel rest _ => ?_
  cases value with
  | true =>
    have htext : (Json.bool true).render.toList ++ rest = 't' :: 'r' :: 'u' :: 'e' :: rest := rfl
    rw [htext, readValue, skipBlanks_cons (by decide)]
    rfl
  | false =>
    have htext : (Json.bool false).render.toList ++ rest = 'f' :: 'a' :: 'l' :: 's' :: 'e' :: rest := rfl
    rw [htext, readValue, skipBlanks_cons (by decide)]
    rfl

theorem readsBack_string (s : String) : ReadsBack depth (.string s) := by
  refine .of_succ fun fuel rest _ => ?_
  have htext : (Json.string s).render.toList ++ rest = '"' :: (s.toList.flatMap escapeChar ++ '"' :: rest) := by
    rw [render, toList_renderString]
    simp
  rw [htext, readValue, skipBlanks_cons (by decide)]
  simp only [readString?_escaped, Option.map_some]

theorem readItems_render {items : List Json} (hne : items ≠ []) (h : ∀ v ∈ items, ReadsBack depth v)
    (fuel : Nat) (hfuel : (renderItems items).toList.length < fuel) (place : Nat) (rest : List Char)
    (acc : List Json) :
    readItems fuel depth .whole place ((renderItems items).toList ++ ']' :: rest) acc =
      some (acc.reverse ++ items, rest) := by
  induction items generalizing fuel place acc with
  | nil => contradiction
  | cons v others ih =>
    cases fuel with
    | zero => contradiction
    | succ fuel =>
      rw [toList_renderItems_cons, List.length_append] at hfuel
      have hread := h v List.mem_cons_self fuel (afterItem others ++ ']' :: rest) (by omega)
      rw [toList_renderItems_cons, List.append_assoc, readItems]
      simp only [Shape.item?, hread]
      cases others with
      | nil =>
        rw [afterItem, if_pos rfl, List.nil_append, skipBlanks_cons (by decide)]
        simp
      | cons w others =>
        rw [afterItem, if_neg (List.cons_ne_nil w others)] at hfuel ⊢
        rw [List.cons_append, skipBlanks_cons (by decide)]
        have hlength : (renderItems (w :: others)).toList.length < fuel := by
          rw [List.length_cons] at hfuel
          omega
        have hrest := ih (List.cons_ne_nil w others) (fun u hu => h u (List.mem_cons_of_mem _ hu)) fuel hlength
          (place + 1) (v :: acc)
        simpa using hrest

/-- Behind a bracket that is not closed at once stand items. -/
theorem readValue_bracket {c : Char} (hblank : isBlank c = false) (hclose : c ≠ ']') (fuel : Nat)
    (tail : List Char) :
    readValue (fuel + 1) (depth + 1) .whole ('[' :: c :: tail) =
      (readItems fuel depth .whole 0 (c :: tail) []).map fun (items, rest) => (array items, rest) := by
  rw [readValue, skipBlanks_cons (by decide)]
  simp only [skipBlanks_cons hblank]
  split
  · rename_i heq
    exact absurd (List.cons.inj heq).1 hclose
  · rfl

theorem readsBack_array {items : List Json} (h : ∀ v ∈ items, ReadsBack depth v) :
    ReadsBack (depth + 1) (.array items) := by
  refine .of_succ fun fuel rest hfuel => ?_
  have htext : (Json.array items).render.toList = '[' :: ((renderItems items).toList ++ [']']) := by
    rw [render]
    simp
  rw [htext] at hfuel ⊢
  rw [List.cons_append, List.append_assoc, List.singleton_append]
  cases items with
  | nil =>
    have hempty : (renderItems []).toList ++ ']' :: rest = ']' :: rest := rfl
    rw [hempty, readValue, skipBlanks_cons (by decide)]
    rfl
  | cons v others =>
    obtain ⟨c, tail, hhead, hblank, hclose⟩ := exists_render_head v
    have hlength : (renderItems (v :: others)).toList.length < fuel := by
      simp only [List.length_cons, List.length_append, List.length_nil] at hfuel
      omega
    have hitems := readItems_render (List.cons_ne_nil v others) h fuel hlength 0 rest []
    rw [toList_renderItems_cons, hhead, List.append_assoc, List.cons_append] at hitems ⊢
    rw [readValue_bracket hblank hclose, hitems]
    rfl

theorem readMembers_render {members : List (String × Json)} (hne : members ≠ [])
    (h : ∀ m ∈ members, ReadsBack depth m.2) (fuel : Nat)
    (hfuel : (renderMembers members).toList.length < fuel) (rest : List Char) (acc : List (String × Json)) :
    readMembers fuel depth .whole ((renderMembers members).toList ++ '\x7d' :: rest) acc =
      some (acc.reverse ++ members, rest) := by
  induction members generalizing fuel acc with
  | nil => contradiction
  | cons m others ih =>
    obtain ⟨key, v⟩ := m
    cases fuel with
    | zero => contradiction
    | succ fuel =>
      generalize hafter : (if others = [] then [] else ',' :: (renderMembers others).toList) = after at *
      have htext : (renderMembers ((key, v) :: others)).toList =
          '"' :: (key.toList.flatMap escapeChar ++ '"' :: ':' :: (v.render.toList ++ after)) := by
        rw [toList_renderMembers_cons, toList_renderString, afterKey, hafter]
        simp
      rw [htext] at hfuel ⊢
      simp only [List.length_cons, List.length_append] at hfuel
      have hread := h (key, v) List.mem_cons_self fuel (after ++ '\x7d' :: rest)
        (show v.render.toList.length ≤ fuel by omega)
      rw [List.cons_append, List.append_assoc, List.cons_append, List.cons_append, List.append_assoc, readMembers,
        skipBlanks_cons (by decide)]
      have hcolon (tail : List Char) : skipBlanks (':' :: tail) = ':' :: tail := skipBlanks_cons (by decide) tail
      simp only [readString?_escaped, hcolon, Shape.member?, hread, Option.map_some]
      subst hafter
      cases others with
      | nil =>
        rw [if_pos rfl, List.nil_append, skipBlanks_cons (by decide)]
        simp
      | cons w others =>
        rw [if_neg (List.cons_ne_nil w others)] at hfuel ⊢
        rw [List.cons_append, skipBlanks_cons (by decide)]
        have hlength : (renderMembers (w :: others)).toList.length < fuel := by
          rw [List.length_cons] at hfuel
          omega
        have hrest := ih (List.cons_ne_nil w others) (fun u hu => h u (List.mem_cons_of_mem _ hu)) fuel hlength
          ((key, v) :: acc)
        simpa using hrest

/-- Behind a brace that is not closed at once stand members. -/
theorem readValue_brace (fuel : Nat) (tail : List Char) :
    readValue (fuel + 1) (depth + 1) .whole ('\x7b' :: '"' :: tail) =
      (readMembers fuel depth .whole ('"' :: tail) []).map fun (members, rest) => (object members, rest) := by
  rw [readValue, skipBlanks_cons (by decide)]
  rfl

theorem readsBack_object {members : List (String × Json)} (h : ∀ m ∈ members, ReadsBack depth m.2) :
    ReadsBack (depth + 1) (.object members) := by
  refine .of_succ fun fuel rest hfuel => ?_
  have htext : (Json.object members).render.toList = '\x7b' :: ((renderMembers members).toList ++ ['\x7d']) := by
    rw [render]
    simp
  rw [htext] at hfuel ⊢
  rw [List.cons_append, List.append_assoc, List.singleton_append]
  cases members with
  | nil =>
    have hempty : (renderMembers []).toList ++ '\x7d' :: rest = '\x7d' :: rest := rfl
    rw [hempty, readValue, skipBlanks_cons (by decide)]
    rfl
  | cons m others =>
    have hlength : (renderMembers (m :: others)).toList.length < fuel := by
      simp only [List.length_cons, List.length_append, List.length_nil] at hfuel
      omega
    have hmembers := readMembers_render (List.cons_ne_nil m others) h fuel hlength rest []
    obtain ⟨key, v⟩ := m
    rw [toList_renderMembers_cons, toList_renderString, List.append_assoc, List.cons_append] at hmembers ⊢
    rw [readValue_brace, hmembers]
    rfl

theorem Plain.readsBack {v : Json} (h : Plain depth v) : ReadsBack depth v := by
  induction h with
  | null => exact readsBack_null
  | bool value => exact readsBack_bool value
  | string s => exact readsBack_string s
  | array _ ih => exact readsBack_array ih
  | object _ _ ih => exact readsBack_object ih

/-! ### Texts -/

theorem distinctItems_eq_map (items : List Json) : distinctItems items = items.map distinctMembers := by
  induction items with
  | nil => rfl
  | cons v rest ih => rw [distinctItems, ih, List.map_cons]

theorem distinctEntries_eq_map (members : List (String × Json)) :
    distinctEntries members = members.map fun m => (m.1, distinctMembers m.2) := by
  induction members with
  | nil => rfl
  | cons m rest ih => rw [distinctEntries, ih, List.map_cons]

theorem Plain.distinctMembers_eq {v : Json} (h : Plain depth v) : distinctMembers v = v := by
  induction h with
  | null | bool | string => rfl
  | array _ ih =>
    rw [distinctMembers, distinctItems_eq_map, List.map_congr_left ih, List.map_id']
  | @object depth members hkeys _ ih =>
    have hsame : members.map (fun m => (m.1, distinctMembers m.2)) = members := by
      rw [List.map_congr_left fun m hm => by rw [ih m hm]]
      exact List.map_id' members
    rw [distinctMembers, distinctEntries_eq_map, hsame, Keyed.ofEntries_of_nodup hkeys]

theorem parse?_render {v : Json} (h : Plain nestingLimit v) : parse? v.render = some v := by
  have hread := h.readsBack (2 * v.render.toList.length + 2) [] (by omega)
  rw [List.append_nil] at hread
  rw [parse?, parseShaped?, hread]
  simp [skipBlanks, h.distinctMembers_eq]

end DocSync.Json
