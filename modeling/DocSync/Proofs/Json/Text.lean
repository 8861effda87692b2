import DocSync.Document.Fetch
import DocSync.Json.Order
import DocSync.Proofs.Decimal.Numeral

/-!
The text of a value says where the value ends.  So the text of a tuple determines the texts of its
parts, and rows that are grouped by the text of their keys have keys that match.
-/

namespace DocSync.Json

/-- What may stand after a value in a text. -/
def Ends (rest : List Char) : Prop :=
  ∀ c, rest.head? = some c → c = ',' ∨ c = ']' ∨ c = '\x7d'

theorem ends_cons {c : Char} {rest : List Char} (h : c = ',' ∨ c = ']' ∨ c = '\x7d') :
    Ends (c :: rest) := by
  intro d hd
  obtain rfl : c = d := by simpa using hd
  exact h

/-! ### Strings -/

theorem escapeChar_cases (c : Char) : (escapeChar c = [c] ∧ c ≠ '"' ∧ c ≠ '\\') ∨
    (∃ x, x ≠ 'u' ∧ escapeChar c = ['\\', x]) ∨
      ∃ high low, escapeChar c = ['\\', 'u', '0', '0', high, low] := by
  unfold escapeChar
  split
  all_goals try exact .inr (.inl ⟨_, by decide, rfl⟩)
  split
  · exact .inr (.inr ⟨_, _, rfl⟩)
  · exact .inl ⟨rfl, by assumption, by assumption⟩

/-- No escaped character starts another one. -/
theorem escapeChar_append_inj {c d : Char} {s t : List Char}
    (h : escapeChar c ++ s = escapeChar d ++ t) : escapeChar c = escapeChar d ∧ s = t := by
  rcases escapeChar_cases c with ⟨hc, -, hc'⟩ | ⟨x, hx, hc⟩ | ⟨high, low, hc⟩ <;>
    rcases escapeChar_cases d with ⟨hd, -, hd'⟩ | ⟨y, hy, hd⟩ | ⟨high', low', hd⟩ <;>
    rw [hc, hd] at h ⊢ <;>
    simp only [List.cons_append, List.nil_append, List.cons.injEq] at h ⊢ <;> grind

theorem escapeChar_head (c : Char) : ∃ first rest, escapeChar c = first :: rest ∧ first ≠ '"' := by
  rcases escapeChar_cases c with ⟨hc, hquote, -⟩ | ⟨x, -, hc⟩ | ⟨high, low, hc⟩
  · exact ⟨c, [], hc, hquote⟩
  · exact ⟨'\\', _, hc, by decide⟩
  · exact ⟨'\\', _, hc, by decide⟩

/-- The character that was escaped. -/
def unescape : List Char → Char
  | [c] => c
  | ['\\', 'b'] => '\x08'
  | ['\\', 't'] => '\t'
  | ['\\', 'n'] => '\n'
  | ['\\', 'f'] => '\x0c'
  | ['\\', 'r'] => '\r'
  | ['\\', c] => c
  | ['\\', 'u', '0', '0', high, low] =>
    let digit (c : Char) : Nat := if c.isDigit then c.toNat - 48 else c.toNat - 87
    Char.ofNat (16 * digit high + digit low)
  | _ => '"'

theorem unescape_escapeChar (c : Char) : unescape (escapeChar c) = c := by
  have hcontrol : ∀ n < 32, unescape (escapeChar (Char.ofNat n)) = Char.ofNat n := by decide
  by_cases hc : c.toNat < 32
  · have := hcontrol c.toNat hc
    rwa [Char.ofNat_toNat] at this
  · unfold escapeChar
    split <;> first | rfl | (rw [if_neg hc]; rfl)

theorem escaped_inj {cs ds : List Char} (h : cs.flatMap escapeChar = ds.flatMap escapeChar) :
    cs = ds := by
  induction cs generalizing ds with
  | nil =>
    cases ds with
    | nil => rfl
    | cons d ds =>
      obtain ⟨first, rest, hd, -⟩ := escapeChar_head d
      simp [hd] at h
  | cons c cs ih =>
    cases ds with
    | nil =>
      obtain ⟨first, rest, hc, -⟩ := escapeChar_head c
      simp [hc] at h
    | cons d ds =>
      obtain ⟨hhead, htail⟩ := escapeChar_append_inj h
      rw [← unescape_escapeChar c, hhead, unescape_escapeChar, ih htail]

/-- A quote ends an escaped text. -/
theorem escaped_append_inj {cs ds s t : List Char}
    (h : cs.flatMap escapeChar ++ '"' :: s = ds.flatMap escapeChar ++ '"' :: t) :
    cs.flatMap escapeChar = ds.flatMap escapeChar ∧ s = t := by
  induction cs generalizing ds with
  | nil =>
    cases ds with
    | nil => simpa using h
    | cons d ds =>
      obtain ⟨first, rest, hd, hquote⟩ := escapeChar_head d
      simp [hd, Ne.symm hquote] at h
  | cons c cs ih =>
    cases ds with
    | nil =>
      obtain ⟨first, rest, hc, hquote⟩ := escapeChar_head c
      simp [hc, hquote] at h
    | cons d ds =>
      simp only [List.flatMap_cons, List.append_assoc] at h ⊢
      obtain ⟨hhead, htail⟩ := escapeChar_append_inj h
      obtain ⟨hrest, hst⟩ := ih htail
      exact ⟨by rw [hhead, hrest], hst⟩

theorem toList_renderString (s : String) :
    (renderString s).toList = '"' :: (s.toList.flatMap escapeChar ++ ['"']) := by
  simp [renderString]

theorem renderString_append_inj {s s' : String} {t t' : List Char}
    (h : (renderString s).toList ++ t = (renderString s').toList ++ t') :
    renderString s = renderString s' ∧ t = t' := by
  rw [toList_renderString, toList_renderString] at h
  obtain ⟨htext, hrest⟩ := escaped_append_inj (by simpa using h)
  refine ⟨String.toList_injective ?_, hrest⟩
  rw [toList_renderString, toList_renderString, htext]

/-! ### Numbers -/

theorem not_isNumeral_of_ends {c : Char} {rest : List Char} (h : Ends (c :: rest)) :
    Number.isNumeral c = false := by
  rcases h c rfl with rfl | rfl | rfl <;> rfl

theorem number_append_inj {a b : Number} {s t : List Char} (hs : Ends s) (ht : Ends t)
    (h : a.render.toList ++ s = b.render.toList ++ t) : a.render = b.render ∧ s = t := by
  have htake {n : Number} {rest : List Char} (hrest : Ends rest) :
      (n.render.toList ++ rest).takeWhile Number.isNumeral = n.render.toList := by
    rw [List.takeWhile_append_of_pos Number.isNumeral_of_mem_render.2]
    cases rest with
    | nil => simp
    | cons c rest => simp [not_isNumeral_of_ends hrest]
  have htext : a.render.toList = b.render.toList := by
    rw [← htake hs, h, htake ht]
  refine ⟨String.toList_injective htext, ?_⟩
  rw [htext] at h
  exact List.append_cancel_left h

/-! ### Values -/

/-- The kinds of values that their first character tells apart. -/
def kind : Json → Nat
  | null => 0
  | bool true => 1
  | bool false => 2
  | number _ => 3
  | string _ => 4
  | array _ => 5
  | object _ => 6

/-- The kind of value that a character begins; seven for none. -/
def kindOf (c : Char) : Nat :=
  if c = 'n' then 0 else if c = 't' then 1 else if c = 'f' then 2
  else if Number.isNumeral c then 3 else if c = '"' then 4 else if c = '[' then 5
  else if c = '\x7b' then 6 else 7

theorem kindOf_of_isNumeral {c : Char} (h : Number.isNumeral c = true) : kindOf c = 3 := by
  have hne {d : Char} (hd : Number.isNumeral d = false) : c ≠ d := by
    rintro rfl
    simp [h] at hd
  simp [kindOf, h, hne (d := 'n') rfl, hne (d := 't') rfl, hne (d := 'f') rfl]

theorem kindOf_of_ends {c : Char} {rest : List Char} (h : Ends (c :: rest)) : kindOf c = 7 := by
  rcases h c rfl with rfl | rfl | rfl <;> rfl

theorem kindOf_render (v : Json) :
    ∃ c rest, v.render.toList = c :: rest ∧ kindOf c = v.kind := by
  cases v with
  | null => exact ⟨'n', _, rfl, rfl⟩
  | bool value => cases value <;> exact ⟨_, _, rfl, rfl⟩
  | number n =>
    obtain ⟨hne, hnumeral⟩ := Number.isNumeral_of_mem_render (n := n)
    obtain ⟨c, rest, hcons⟩ := List.exists_cons_of_ne_nil hne
    refine ⟨c, rest, by rw [render]; exact hcons, kindOf_of_isNumeral (hnumeral c ?_)⟩
    rw [hcons]
    exact List.mem_cons_self
  | string s => exact ⟨'"', _, by rw [render]; exact toList_renderString s, rfl⟩
  | array items => exact ⟨'[', (renderItems items).toList ++ [']'], by rw [render]; simp, rfl⟩
  | object members =>
    exact ⟨'\x7b', (renderMembers members).toList ++ ['\x7d'], by rw [render]; simp, rfl⟩

theorem kind_ne_seven (v : Json) : v.kind ≠ 7 := by
  cases v with
  | bool value => cases value <;> simp [kind]
  | _ => simp [kind]

/-- A value's text never starts like what may stand after a value. -/
theorem render_append_ne {v : Json} {s t : List Char} (ht : Ends t) : v.render.toList ++ s ≠ t := by
  rintro rfl
  obtain ⟨c, rest, hcons, hkind⟩ := kindOf_render v
  rw [hcons] at ht
  exact kind_ne_seven v (hkind ▸ kindOf_of_ends ht)

/-- Texts that run together belong to values of one kind. -/
theorem kind_eq_of_append_eq {a b : Json} {s t : List Char}
    (h : a.render.toList ++ s = b.render.toList ++ t) : a.kind = b.kind := by
  obtain ⟨c, rest, hcons, hkind⟩ := kindOf_render a
  obtain ⟨d, rest', hcons', hkind'⟩ := kindOf_render b
  rw [hcons, hcons'] at h
  rw [← hkind, ← hkind', (List.cons.inj h).1]

/-- Induction over a value, with the claim for every item and every member. -/
theorem induct {motive : Json → Prop} (null : motive .null) (bool : ∀ value, motive (.bool value))
    (number : ∀ n, motive (.number n)) (string : ∀ s, motive (.string s))
    (array : ∀ items, (∀ v ∈ items, motive v) → motive (.array items))
    (object : ∀ members, (∀ m ∈ members, motive m.2) → motive (.object members)) (v : Json) :
    motive v :=
  @Json.rec motive (fun items => ∀ v ∈ items, motive v) (fun members => ∀ m ∈ members, motive m.2)
    (fun m => motive m.2) null bool number string array object (by simp)
    (fun _ _ hv hrest => List.forall_mem_cons.mpr ⟨hv, hrest⟩) (by simp)
    (fun _ _ hm hrest => List.forall_mem_cons.mpr ⟨hm, hrest⟩) (fun _ _ hv => hv) v

/-- A text that no other text of a value continues. -/
def Closed (a : Json) : Prop :=
  ∀ (b : Json) (s t : List Char), Ends s → Ends t →
    a.render.toList ++ s = b.render.toList ++ t → a.render = b.render ∧ s = t

theorem ends_bracket (rest : List Char) : Ends (']' :: rest) := ends_cons (.inr (.inl rfl))

theorem ends_comma (rest : List Char) : Ends (',' :: rest) := ends_cons (.inl rfl)

theorem ends_brace (rest : List Char) : Ends ('\x7d' :: rest) := ends_cons (.inr (.inr rfl))

/-- What follows the first of several items: a comma and the others. -/
def afterItem (rest : List Json) : List Char :=
  if rest = [] then [] else ',' :: (renderItems rest).toList

theorem toList_renderItems_cons (v : Json) (rest : List Json) :
    (renderItems (v :: rest)).toList = v.render.toList ++ afterItem rest := by
  cases rest <;> simp [renderItems, afterItem]

/-- Items of the same texts have the same text. -/
theorem renderItems_congr {items items' : List Json} (h : items.map render = items'.map render) :
    renderItems items = renderItems items' := by
  induction items generalizing items' with
  | nil =>
    cases items' with
    | nil => rfl
    | cons => simp at h
  | cons a rest ih =>
    cases items' with
    | nil => simp at h
    | cons b rest' =>
      obtain ⟨hfirst, hrest⟩ := List.cons.inj h
      refine String.toList_injective ?_
      rw [toList_renderItems_cons, toList_renderItems_cons, hfirst, afterItem, afterItem, ih hrest]
      have hnil : rest = [] ↔ rest' = [] := by
        rw [← List.map_eq_nil_iff (f := render), hrest, List.map_eq_nil_iff]
      simp only [hnil]

theorem renderItems_append_inj {items items' : List Json} (hclosed : ∀ v ∈ items, v.Closed)
    {s t : List Char} (h : (renderItems items).toList ++ ']' :: s =
      (renderItems items').toList ++ ']' :: t) : items.map render = items'.map render ∧ s = t := by
  have hends (rest : List Json) (s : List Char) : Ends (afterItem rest ++ ']' :: s) := by
    unfold afterItem
    split
    · exact ends_bracket s
    · exact ends_comma _
  induction items generalizing items' with
  | nil =>
    cases items' with
    | nil => simpa [renderItems] using h
    | cons b rest' =>
      rw [toList_renderItems_cons, List.append_assoc] at h
      exact absurd h.symm (render_append_ne (ends_bracket s))
  | cons a rest ih =>
    rw [toList_renderItems_cons, List.append_assoc] at h
    cases items' with
    | nil => exact absurd h (render_append_ne (ends_bracket t))
    | cons b rest' =>
      rw [toList_renderItems_cons, List.append_assoc] at h
      obtain ⟨hfirst, hrest⟩ := hclosed a List.mem_cons_self b _ _ (hends rest s) (hends rest' t) h
      have hothers : rest.map render = rest'.map render ∧ s = t := by
        by_cases hnil : rest = [] <;> by_cases hnil' : rest' = [] <;>
          simp only [afterItem, hnil, hnil', if_true, if_false] at hrest
        · exact ⟨by rw [hnil, hnil'], (List.cons.inj hrest).2⟩
        · exact absurd (List.cons.inj hrest).1 (by decide)
        · exact absurd (List.cons.inj hrest).1 (by decide)
        · exact ih (fun v hv => hclosed v (List.mem_cons_of_mem _ hv)) (List.cons.inj hrest).2
      exact ⟨by rw [List.map_cons, List.map_cons, hfirst, hothers.1], hothers.2⟩

/-- What follows the key of a member: a colon, its value and the other members. -/
def afterKey (value : Json) (rest : List (String × Json)) : List Char :=
  ':' :: (value.render.toList ++ if rest = [] then [] else ',' :: (renderMembers rest).toList)

theorem toList_renderMembers_cons (key : String) (value : Json) (rest : List (String × Json)) :
    (renderMembers ((key, value) :: rest)).toList =
      (renderString key).toList ++ afterKey value rest := by
  cases rest <;> simp [renderMembers, afterKey]

theorem renderString_inj {s s' : String} (h : renderString s = renderString s') : s = s' := by
  have htext := congrArg String.toList h
  simp only [toList_renderString, List.cons.injEq, true_and, List.append_cancel_right_eq] at htext
  exact String.toList_injective (escaped_inj htext)

/-- Each key with the text of its value. -/
def memberTexts (members : List (String × Json)) : List (String × String) :=
  members.map fun m => (m.1, m.2.render)

/-- Members of the same texts have the same text. -/
theorem renderMembers_congr {members members' : List (String × Json)}
    (h : memberTexts members = memberTexts members') :
    renderMembers members = renderMembers members' := by
  induction members generalizing members' with
  | nil =>
    cases members' with
    | nil => rfl
    | cons => simp [memberTexts] at h
  | cons m rest ih =>
    cases members' with
    | nil => simp [memberTexts] at h
    | cons m' rest' =>
      obtain ⟨key, value⟩ := m
      obtain ⟨key', value'⟩ := m'
      simp only [memberTexts, List.map_cons, List.cons.injEq, Prod.mk.injEq] at h
      obtain ⟨⟨rfl, hvalue⟩, hrest⟩ := h
      have hnil : rest = [] ↔ rest' = [] := by
        rw [← List.map_eq_nil_iff, hrest, List.map_eq_nil_iff]
      apply String.toList_injective
      rw [toList_renderMembers_cons, toList_renderMembers_cons, afterKey, afterKey, hvalue, ih hrest]
      simp only [hnil]

theorem renderMembers_append_inj {members members' : List (String × Json)}
    (hclosed : ∀ m ∈ members, m.2.Closed) {s t : List Char}
    (h : (renderMembers members).toList ++ '\x7d' :: s =
      (renderMembers members').toList ++ '\x7d' :: t) :
    memberTexts members = memberTexts members' ∧ s = t := by
  have hends (rest : List (String × Json)) (s : List Char) :
      Ends ((if rest = [] then [] else ',' :: (renderMembers rest).toList) ++ '\x7d' :: s) := by
    split
    · exact ends_brace s
    · exact ends_comma _
  induction members generalizing members' with
  | nil =>
    cases members' with
    | nil => exact ⟨rfl, by simpa using h⟩
    | cons m rest' =>
      rw [toList_renderMembers_cons, toList_renderString] at h
      simp [renderMembers] at h
  | cons m rest ih =>
    obtain ⟨key, value⟩ := m
    cases members' with
    | nil =>
      rw [toList_renderMembers_cons, toList_renderString] at h
      simp [renderMembers] at h
    | cons m' rest' =>
      obtain ⟨key', value'⟩ := m'
      rw [toList_renderMembers_cons, toList_renderMembers_cons, List.append_assoc,
        List.append_assoc] at h
      obtain ⟨hkey, hafter⟩ := renderString_append_inj h
      simp only [afterKey, List.cons_append, List.append_assoc, List.cons.injEq, true_and] at hafter
      obtain ⟨hvalue, hrest⟩ := hclosed (key, value) List.mem_cons_self value' _ _
        (hends rest s) (hends rest' t) hafter
      have hothers : memberTexts rest = memberTexts rest' ∧ s = t := by
        by_cases hnil : rest = [] <;> by_cases hnil' : rest' = [] <;>
          simp only [hnil, hnil', if_true, if_false] at hrest
        · exact ⟨by rw [hnil, hnil'], (List.cons.inj hrest).2⟩
        · exact absurd (List.cons.inj hrest).1 (by decide)
        · exact absurd (List.cons.inj hrest).1 (by decide)
        · exact ih (fun m hm => hclosed m (List.mem_cons_of_mem _ hm)) (List.cons.inj hrest).2
      refine ⟨?_, hothers.2⟩
      simp only [memberTexts, List.map_cons, renderString_inj hkey, hvalue]
      exact congrArg _ hothers.1

/-- No text of a value starts the text of another one. -/
theorem closed (a : Json) : a.Closed := by
  induction a using induct with
  | null =>
    intro b s t hs ht h
    have hkind := kind_eq_of_append_eq h
    cases b with
    | null => exact ⟨rfl, List.append_cancel_left h⟩
    | bool value => cases value <;> simp [kind] at hkind
    | _ => simp [kind] at hkind
  | bool value =>
    intro b s t hs ht h
    have hkind := kind_eq_of_append_eq h
    cases b with
    | bool value' =>
      cases value <;> cases value' <;> simp [kind] at hkind <;>
        exact ⟨rfl, List.append_cancel_left h⟩
    | _ => cases value <;> simp [kind] at hkind
  | number n =>
    intro b s t hs ht h
    have hkind := kind_eq_of_append_eq h
    cases b with
    | number n' =>
      rw [render, render] at h ⊢
      exact number_append_inj hs ht h
    | bool value => cases value <;> simp [kind] at hkind
    | _ => simp [kind] at hkind
  | string text =>
    intro b s t hs ht h
    have hkind := kind_eq_of_append_eq h
    cases b with
    | string text' =>
      rw [render, render] at h ⊢
      exact renderString_append_inj h
    | bool value => cases value <;> simp [kind] at hkind
    | _ => simp [kind] at hkind
  | array items ih =>
    intro b s t hs ht h
    have hkind := kind_eq_of_append_eq h
    cases b with
    | array items' =>
      simp only [render, String.toList_append, List.append_assoc] at h
      obtain ⟨htexts, hst⟩ := renderItems_append_inj ih (List.append_cancel_left h)
      exact ⟨by rw [render, render, renderItems_congr htexts], hst⟩
    | bool value => cases value <;> simp [kind] at hkind
    | _ => simp [kind] at hkind
  | object members ih =>
    intro b s t hs ht h
    have hkind := kind_eq_of_append_eq h
    cases b with
    | object members' =>
      simp only [render, String.toList_append, List.append_assoc] at h
      obtain ⟨htext, hst⟩ := renderMembers_append_inj ih (List.append_cancel_left h)
      exact ⟨by rw [render, render, renderMembers_congr htext], hst⟩
    | bool value => cases value <;> simp [kind] at hkind
    | _ => simp [kind] at hkind

/-! ### Equality by text -/

/-- Tuples of one text have items of the same texts. -/
theorem map_render_eq_of_keyText_eq {key key' : List Json}
    (h : Fetch.keyText key = Fetch.keyText key') : key.map render = key'.map render := by
  have htext := congrArg String.toList h
  simp only [Fetch.keyText, render, String.toList_append, List.append_assoc] at htext
  exact (renderItems_append_inj (fun v _ => closed v) (List.append_cancel_left htext)).1

/-- A value of the text of an array is an array, with items of the same texts. -/
theorem exists_of_render_array {items : List Json} {v : Json} (h : v.render = (array items).render) :
    ∃ items', v = array items' ∧ items'.map render = items.map render := by
  have htext : v.render.toList ++ [] = (array items).render.toList ++ [] := by rw [h]
  have hkind := kind_eq_of_append_eq htext
  cases v with
  | array items' => exact ⟨items', rfl, map_render_eq_of_keyText_eq h⟩
  | bool value => cases value <;> simp [kind] at hkind
  | _ => simp [kind] at hkind

/-- A value of the text of an object is an object, with members of the same texts. -/
theorem exists_of_render_object {members : List (String × Json)} {v : Json}
    (h : v.render = (object members).render) :
    ∃ members', v = object members' ∧ memberTexts members' = memberTexts members := by
  have htext : v.render.toList ++ [] = (object members).render.toList ++ [] := by rw [h]
  have hkind := kind_eq_of_append_eq htext
  cases v with
  | object members' =>
    simp only [render, String.toList_append, List.append_assoc] at htext
    exact ⟨members', rfl,
      (renderMembers_append_inj (fun m _ => closed m.2) (List.append_cancel_left htext)).1⟩
  | bool value => cases value <;> simp [kind] at hkind
  | _ => simp [kind] at hkind

/-- A value whose number, if it is one, binary64 has. -/
def IsHeld : Json → Prop
  | number n => n.IsHeld
  | _ => True

theorem compare_self (v : Json) : compare v v = .eq := by
  cases v with
  | number n =>
    simp only [compare, Number.compare]
    split
    · simp_all
    · simp [Double.compare]
  | _ => simp [compare]

theorem compare_swap (a b : Json) : compare a b = (compare b a).swap := by
  cases a <;> cases b
  case number.number a b =>
    simp only [compare, Number.compare]
    cases a.signed? <;> cases b.signed? <;> exact Std.OrientedOrd.eq_swap
  all_goals exact Std.OrientedOrd.eq_swap

theorem compareTuples_self (as : List Json) : compareTuples as as = .eq := by
  induction as with
  | nil => rfl
  | cons a as ih => rw [compareTuples, compare_self, ih]

theorem compareTuples_swap (as bs : List Json) : compareTuples as bs = (compareTuples bs as).swap := by
  induction as generalizing bs with
  | nil => cases bs <;> rfl
  | cons a as ih =>
    cases bs with
    | nil => rfl
    | cons b bs =>
      rw [compareTuples, compareTuples, compare_swap a b, ih]
      cases compare b a <;> rfl

theorem compareTuples_le_total (as bs : List Json) :
    compareTuples as bs ≠ .gt ∨ compareTuples bs as ≠ .gt := by
  rw [compareTuples_swap as bs]
  cases compareTuples bs as <;> decide

theorem sqlMatches_comm (a b : Json) : a.sqlMatches b = b.sqlMatches a := by
  have hcompare (a b : Json) : (compare a b == .eq) = (compare b a == .eq) := by
    rw [compare_swap a b]
    cases compare b a <;> rfl
  cases a <;> cases b <;> first | rfl | exact hcompare _ _

theorem sqlMatches_self {v : Json} (h : v.isNull = false) : v.sqlMatches v = true := by
  cases v with
  | null => simp [isNull] at h
  | _ => simp [sqlMatches, isNull, scalarText?, compare_self]

/-- Values of one text match, unless they are null. -/
theorem sqlMatches_of_render_eq {a b : Json} (ha : a.IsHeld) (hb : b.IsHeld)
    (hnull : a.isNull = false) (h : a.render = b.render) : a.sqlMatches b = true := by
  have hkind : a.kind = b.kind := by
    refine kind_eq_of_append_eq (s := []) (t := []) ?_
    rw [h]
  cases a with
  | null => simp [isNull] at hnull
  | bool value =>
    cases b with
    | bool value' => cases value <;> cases value' <;> simp [kind] at hkind <;> rfl
    | _ => cases value <;> simp [kind] at hkind
  | number n =>
    cases b with
    | number n' =>
      rw [render, render] at h
      rw [Number.render_inj ha hb h]
      exact sqlMatches_self rfl
    | bool value => cases value <;> simp [kind] at hkind
    | _ => simp [kind] at hkind
  | string text =>
    cases b with
    | string text' =>
      rw [render, render] at h
      rw [renderString_inj h]
      exact sqlMatches_self rfl
    | bool value => cases value <;> simp [kind] at hkind
    | _ => simp [kind] at hkind
  | array items =>
    cases b with
    | array items' => simp [sqlMatches, isNull, compare, h]
    | bool value => cases value <;> simp [kind] at hkind
    | _ => simp [kind] at hkind
  | object members =>
    cases b with
    | object members' => simp [sqlMatches, isNull, compare, h]
    | bool value => cases value <;> simp [kind] at hkind
    | _ => simp [kind] at hkind

end DocSync.Json
