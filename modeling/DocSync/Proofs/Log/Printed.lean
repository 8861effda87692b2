import DocSync.Log.Line
import DocSync.Proofs.Except
import DocSync.Proofs.Keyed
import DocSync.Proofs.Text.Delimited

/-!
Tuples as a slot prints them.  An item is a name, a type in brackets and a literal; names that are no plain
words and texts stand between quotes.  Main statements: the items that are printed are read, and they make up the
row of the columns that were sent.
-/

namespace DocSync.Log

open Text

open Sql (doubled)

/-! ### What a slot prints -/

def isNameStart (c : Char) : Bool := c.isLower || c == '_'

def isNameChar (c : Char) : Bool := isNameStart c || c.isDigit

/-- Whether a name is printed as it is: lower-case letters, digits and underscores, no digit at the front. -/
def isPlainName : List Char → Bool
  | [] => false
  | c :: rest => isNameStart c && rest.all isNameChar

def printName (name : List Char) : List Char := if isPlainName name then name else quote '"' name

def Literal.print : Literal → List Char
  | quoted text => quote '\'' text
  | bare token => token

def Item.print (item : Item) : List Char :=
  printName item.name ++ '[' :: item.type ++ ']' :: ':' :: item.literal.print

def printTuple (items : List Item) : List Char := [' '].intercalate (items.map Item.print)

/-- A bare token has no white space, and nothing at its front that looks like a text. -/
def Literal.Printable : Literal → Prop
  | quoted _ => True
  | bare token => (∀ c ∈ token, isBlank c = false) ∧ token.head? ≠ some '\''

/-- A type's name does not have what closes it. -/
structure Item.Printable (item : Item) : Prop where
  type : ¬ "]:".toList <:+: item.type
  literal : item.literal.Printable

/-! ### Names -/

variable {name : List Char}

theorem isNameChar_of_mem (h : isPlainName name = true) : ∀ c ∈ name, isNameChar c = true := by
  cases name with
  | nil => contradiction
  | cons c rest =>
    simp only [isPlainName, Bool.and_eq_true, List.all_eq_true] at h
    exact List.forall_mem_cons.mpr ⟨by simp [isNameChar, h.1], h.2⟩

/-- The marks of the format are no characters of plain names. -/
theorem not_mem_plainName {c : Char} (hc : isNameChar c = false) (h : isPlainName name = true) :
    c ∉ name := fun hmem => by
  rw [isNameChar_of_mem h c hmem] at hc
  contradiction

theorem infix_printName_iff {pattern : List Char} (hquote : '"' ∉ pattern) :
    pattern <:+: printName name ↔ pattern <:+: name := by
  unfold printName
  split
  · rfl
  · exact infix_quote_iff hquote

theorem takeName_printName (name rest : List Char) :
    takeName (printName name ++ '[' :: rest) = .ok (name, '[' :: rest) := by
  unfold printName
  split
  · rename_i hplain
    have hbracket : ∀ c ∈ name, (decide (c ≠ '[')) = true := fun c hc =>
      decide_eq_true fun h => not_mem_plainName (by decide) hplain (h ▸ hc)
    obtain ⟨c, more, rfl⟩ : ∃ c more, name = c :: more :=
      List.exists_cons_of_ne_nil fun h => by simp [h, isPlainName] at hplain
    have hquote : c ≠ '"' := fun h => not_mem_plainName (c := '"') (by decide) hplain (by simp [h])
    unfold takeName
    split
    · rename_i heq
      exact absurd (List.cons.inj heq).1 hquote
    · rw [if_pos (by simp), List.takeWhile_append_of_pos hbracket, List.dropWhile_append_of_pos hbracket]
      simp
  · have hread : delimited '"' (doubled '"' name ++ '"' :: '[' :: rest) = some (name, '[' :: rest) :=
      delimited_doubled (by simp)
    simp [quote, takeName, hread]

theorem undouble_doubled (name : List Char) : unquoteName.undouble (doubled '"' name) = name := by
  induction name with
  | nil => rfl
  | cons c name ih =>
    rw [doubled_cons]
    split
    · rename_i hc
      simp [unquoteName.undouble, ih, hc]
    · rename_i hc
      rw [List.cons_append, List.nil_append, unquoteName.undouble, ih]
      exact fun rest h _ => hc h

theorem unquoteName_printName (name : List Char) : unquoteName (printName name) = name := by
  unfold printName
  split
  · rename_i hplain
    unfold unquoteName
    split
    · exact absurd (by simp) (not_mem_plainName (c := '"') (by decide) hplain)
    · rfl
  · simp [quote, unquoteName, undouble_doubled]

theorem prefix_of_prefix_undouble {pattern cs : List Char} (hquote : '"' ∉ pattern)
    (h : pattern <+: unquoteName.undouble cs) : pattern <+: cs := by
  fun_induction unquoteName.undouble cs generalizing pattern with
  | case1 rest ih => exact eq_nil_of_prefix_cons hquote h ▸ List.nil_prefix
  | case2 c rest hpair ih =>
    rcases List.prefix_cons_iff.mp h with rfl | ⟨tail, rfl, htail⟩
    · exact List.nil_prefix
    · exact (List.prefix_cons_inj c).mpr (ih (fun hmem => hquote (List.mem_cons_of_mem c hmem)) htail)
  | case3 => exact h

/-- Taking the quotes off adds nothing. -/
theorem infix_of_infix_undouble {pattern cs : List Char} (hquote : '"' ∉ pattern)
    (h : pattern <:+: unquoteName.undouble cs) : pattern <:+: cs := by
  fun_induction unquoteName.undouble cs with
  | case1 rest ih =>
    rcases List.infix_cons_iff.mp h with h | h
    · exact eq_nil_of_prefix_cons hquote h ▸ List.nil_infix
    · exact List.infix_cons (List.infix_cons (ih h))
  | case2 c rest hpair ih =>
    rcases List.infix_cons_iff.mp h with h | h
    · refine (prefix_of_prefix_undouble hquote ?_).isInfix
      rwa [unquoteName.undouble]
      exact hpair
    · exact List.infix_cons (ih h)
  | case3 => exact h

theorem infix_of_infix_unquoteName {pattern : List Char} (hquote : '"' ∉ pattern)
    (h : pattern <:+: unquoteName name) : pattern <:+: name := by
  unfold unquoteName at h
  split at h
  · split at h
    · rename_i rest _
      exact List.infix_cons ((infix_of_infix_undouble hquote h).trans ( List.dropLast_prefix rest).isInfix)
    · exact h
  · exact h

/-! ### Items -/

variable {item : Item}

theorem takeLiteral_print {literal : Literal} (h : literal.Printable) {rest : List Char}
    (hrest : rest = [] ∨ rest.head? = some ' ') : takeLiteral (literal.print ++ rest) = .ok (literal, rest) := by
  have hhead : rest.head? ≠ some '\'' := by rcases hrest with rfl | h <;> simp [*]
  cases literal with
  | quoted text => simp [Literal.print, quote, takeLiteral, delimited_doubled hhead]
  | bare token =>
    have hblank : ∀ c ∈ token, (decide (c ≠ ' ')) = true := fun c hc =>
      decide_eq_true fun heq => by simpa [heq, isBlank] using h.1 c hc
    have hstop : rest.takeWhile (· ≠ ' ') = [] ∧ rest.dropWhile (· ≠ ' ') = rest := by
      cases rest with
      | nil => exact ⟨rfl, rfl⟩
      | cons c rest =>
        obtain rfl : c = ' ' := by simpa using hrest
        exact ⟨rfl, rfl⟩
    have hnone : (token ++ rest).head? ≠ some '\'' := by
      cases token with
      | nil => exact hhead
      | cons c token => exact h.2
    unfold takeLiteral
    split
    · rename_i heq
      rw [Literal.print] at heq
      simp [heq] at hnone
    · rw [Literal.print, List.takeWhile_append_of_pos hblank, List.dropWhile_append_of_pos hblank, hstop.1,
        hstop.2, List.append_nil]

theorem takeItem_print (h : item.Printable) {rest : List Char} (hrest : rest = [] ∨ rest.head? = some ' ') :
    takeItem (item.print ++ rest) = .ok (item, rest) := by
  have hname := takeName_printName item.name (item.type ++ ']' :: ':' :: item.literal.print ++ rest)
  have hprint : item.print ++ rest =
      printName item.name ++ '[' :: (item.type ++ ']' :: ':' :: item.literal.print ++ rest) := by
    simp [Item.print]
  have hcut : cut? "]:".toList (item.type ++ ']' :: ':' :: (item.literal.print ++ rest)) =
      some (item.type, item.literal.print ++ rest) := cut?_pair (by decide) h.type _
  rw [← List.cons_append, ← List.cons_append, ← List.append_assoc] at hcut
  simp only [takeItem, hprint, hname, hcut, takeLiteral_print h.literal hrest]

/-! ### Items side by side -/

variable {text more rest : List Char} {found : List Item}

/-- What stands before a stop is the same whatever follows a later stop. -/
theorem span_append_stop {p : Char → Bool} (stop : Char) (hstop : p stop = false) (text more : List Char) :
    (text ++ stop :: more).takeWhile p = text.takeWhile p ∧
      (text ++ stop :: more).dropWhile p = text.dropWhile p ++ stop :: more := by
  induction text with
  | nil => simp [hstop]
  | cons c text ih =>
    by_cases hc : p c = true
    · simpa [hc] using ih
    · simp [hc]

theorem takeName_append (h : takeName text = .ok (name, rest)) :
    takeName (text ++ ' ' :: more) = .ok (name, rest ++ ' ' :: more) := by
  unfold takeName at h
  split at h
  · rename_i inner
    split at h
    · rename_i result hread
      obtain rfl := Except.ok.inj h
      have := delimited_append hread (' ' :: more) (by simp)
      simp [takeName, this]
    · contradiction
  · rename_i hquote
    split at h
    · rename_i hbracket
      obtain ⟨rfl, rfl⟩ := Prod.mk.inj (Except.ok.inj h)
      obtain ⟨front, back, rfl, hfront⟩ := List.eq_append_cons_of_mem (List.contains_iff_mem.mp hbracket)
      have hall : ∀ c ∈ front, (decide (c ≠ '[')) = true := fun c hc =>
        decide_eq_true fun heq => hfront (heq ▸ hc)
      unfold takeName
      split
      · rename_i inner heq
        cases front with
        | nil => simp at heq
        | cons c front => exact absurd (by simp [(List.cons.inj heq).1]) (hquote (front ++ '[' :: back))
      · rw [if_pos (by simp), List.append_assoc, List.takeWhile_append_of_pos hall,
          List.takeWhile_append_of_pos hall, List.dropWhile_append_of_pos hall,
          List.dropWhile_append_of_pos hall]
        simp
    · contradiction

theorem takeLiteral_append {literal : Literal} (h : takeLiteral text = .ok (literal, rest)) :
    takeLiteral (text ++ ' ' :: more) = .ok (literal, rest ++ ' ' :: more) := by
  unfold takeLiteral at h
  split at h
  · split at h
    · rename_i value after hread
      obtain ⟨rfl, rfl⟩ := Prod.mk.inj (Except.ok.inj h)
      have := delimited_append hread (' ' :: more) (by simp)
      simp [takeLiteral, this]
    · contradiction
  · rename_i hquote
    obtain ⟨rfl, rfl⟩ := Prod.mk.inj (Except.ok.inj h)
    unfold takeLiteral
    split
    · rename_i inner heq
      cases text with
      | nil => simp at heq
      | cons c text => exact absurd (by simp [(List.cons.inj heq).1]) (hquote text)
    · obtain ⟨htake, hdrop⟩ := span_append_stop (p := (· ≠ ' ')) ' ' (by simp) text more
      rw [htake, hdrop]

/-- An item that is read at the front is read there whatever follows a space. -/
theorem takeItem_append (h : takeItem text = .ok (item, rest)) :
    takeItem (text ++ ' ' :: more) = .ok (item, rest ++ ' ' :: more) := by
  unfold takeItem at h
  split at h
  · contradiction
  · rename_i name after hname
    split at h
    · contradiction
    · rename_i type value hcut
      split at h
      · contradiction
      · rename_i literal last hliteral
        obtain ⟨rfl, rfl⟩ := Prod.mk.inj (Except.ok.inj h)
        have hcut' := cut?_append (by decide) hcut (' ' :: more)
        simp only [takeItem, takeName_append hname, List.cons_append, hcut', takeLiteral_append hliteral]
  · contradiction

theorem trimStart_append_blank (text more : List Char) : trimStart (text ++ ' ' :: more) =
    if trimStart text = [] then trimStart more else trimStart text ++ ' ' :: more := by
  rw [trimStart, trimStart, List.dropWhile_append]
  by_cases h : text.dropWhile isBlank = []
  · rw [if_pos (List.isEmpty_iff.mpr h), if_pos h]
    rfl
  · rw [if_neg fun hempty => h (List.isEmpty_iff.mp hempty), if_neg h]

theorem items_of_blank (h : trimStart text = []) : items text = .ok [] := by
  rw [items, if_pos h]

theorem items_of_takeItem (h : takeItem (trimStart text) = .ok (item, rest)) :
    items text = (items rest).map (item :: ·) := by
  have hne : trimStart text ≠ [] := fun hnil => by simp [hnil, takeItem, takeName] at h
  rw [items, if_neg hne]
  split
  · rename_i e he
    rw [h] at he
    contradiction
  · rename_i item' rest' hread
    obtain ⟨rfl, rfl⟩ := Prod.mk.inj (Except.ok.inj (h.symm.trans hread))
    rfl

/-- Blanks before a tuple do not matter. -/
theorem items_blank_cons (text : List Char) : items (' ' :: text) = items text := by
  rw [items, items]
  rfl

/-! ### Tuples -/

variable {columns : List Item} {pattern : List Char}

theorem printTuple_cons (item : Item) (hne : columns ≠ []) :
    printTuple (item :: columns) = item.print ++ ' ' :: printTuple columns := by
  have hmap : columns.map Item.print ≠ [] := by simpa using hne
  rw [printTuple, List.map_cons, List.intercalate_cons_of_ne_nil hmap, List.append_assoc]
  rfl

/-- A printed tuple is its first item, with the others behind a space. -/
theorem exists_printTuple_cons (item : Item) (columns : List Item) :
    ∃ tail, printTuple (item :: columns) = item.print ++ tail ∧
      ((columns = [] ∧ tail = []) ∨ (columns ≠ [] ∧ tail = ' ' :: printTuple columns)) := by
  by_cases hne : columns = []
  · exact ⟨[], by simp [hne, printTuple, List.intercalate], .inl ⟨hne, rfl⟩⟩
  · exact ⟨_, printTuple_cons item hne, .inr ⟨hne, rfl⟩⟩

/-- The first mark in a printed name with what follows is the bracket of the type or a quote. -/
theorem printName_mark (name rest : List Char) :
    ((printName name ++ '[' :: rest).dropWhile isNameChar).head? ∈ [some '[', some '"'] := by
  unfold printName
  split
  · rename_i hplain
    rw [List.dropWhile_append_of_pos (isNameChar_of_mem hplain)]
    simp [show isNameChar '[' = false by decide]
  · simp [quote, show isNameChar '"' = false by decide]

/-- Text that has another mark first does not stand at the front of a tuple. -/
theorem not_prefix_printTuple (mark : Char) (hfirst : (pattern.dropWhile isNameChar).head? = some mark)
    (hmark : mark ≠ '[' ∧ mark ≠ '"') (hmore : columns = [] → more = []) :
    ¬ pattern <+: printTuple columns ++ more := by
  rintro ⟨rest, hrest⟩
  obtain ⟨item, columns, rfl⟩ : ∃ item rest, columns = item :: rest := by
    refine List.exists_cons_of_ne_nil fun hnil => ?_
    rw [hmore hnil, hnil] at hrest
    rw [(List.append_eq_nil_iff.mp hrest).1] at hfirst
    contradiction
  obtain ⟨tail, htail, -⟩ := exists_printTuple_cons item columns
  have hname := printName_mark item.name (item.type ++ ']' :: ':' :: item.literal.print ++ tail ++ more)
  have htext : printTuple (item :: columns) ++ more =
      printName item.name ++ '[' :: (item.type ++ ']' :: ':' :: item.literal.print ++ tail ++ more) := by
    simp [htail, Item.print]
  have hpattern : ((pattern ++ rest).dropWhile isNameChar).head? = some mark := by
    rw [List.dropWhile_append]
    split
    · rename_i hempty
      simp [List.isEmpty_iff.mp hempty] at hfirst
    · rw [List.head?_append, hfirst]
      rfl
  rw [← htext, ← hrest, hpattern] at hname
  simp [hmark] at hname

theorem isNameChar_of_isBlank {c : Char} (h : isBlank c = true) : isNameChar c = false := by
  by_contra hname
  have hcode : (97 ≤ c.toNat ∧ c.toNat ≤ 122) ∨ c.toNat = 95 ∨ (48 ≤ c.toNat ∧ c.toNat ≤ 57) := by
    rw [Bool.not_eq_false, isNameChar, isNameStart, Bool.or_eq_true, Bool.or_eq_true, beq_iff_eq] at hname
    rcases hname with (hlower | rfl) | hdigit
    · have hbounds : (decide (c.val ≥ 'a'.val) && decide (c.val ≤ 'z'.val)) = true := hlower
      simp only [Bool.and_eq_true, decide_eq_true_eq, ge_iff_le, UInt32.le_iff_toNat_le] at hbounds
      exact .inl hbounds
    · exact .inr (.inl rfl)
    · have hbounds : (decide (c.val ≥ '0'.val) && decide (c.val ≤ '9'.val)) = true := hdigit
      simp only [Bool.and_eq_true, decide_eq_true_eq, ge_iff_le, UInt32.le_iff_toNat_le] at hbounds
      exact .inr (.inr hbounds)
  simp only [isBlank, Bool.or_eq_true, Bool.and_eq_true, decide_eq_true_eq, beq_iff_eq] at h
  omega

/-- A tuple has no white space at its front. -/
theorem trimStart_printTuple (columns : List Item) :
    trimStart (printTuple columns) = printTuple columns := by
  cases htext : printTuple columns with
  | nil => rfl
  | cons c rest =>
    refine List.dropWhile_cons_of_neg fun hblank => ?_
    have hmark := isNameChar_of_isBlank hblank
    have hprefix : [c] <+: printTuple columns ++ [] := by
      rw [List.append_nil, htext]
      exact List.prefix_append [c] rest
    refine not_prefix_printTuple c (by simp [hmark]) ⟨?_, ?_⟩ (fun _ => rfl) hprefix <;>
      rintro rfl <;> simp [isBlank] at hblank

/-- Reading takes the items of a printed tuple one by one. -/
theorem takeItem_printTuple (hitem : item.Printable) (columns : List Item) : ∃ tail,
    takeItem (printTuple (item :: columns)) = .ok (item, tail) ∧
      ((columns = [] ∧ tail = []) ∨ (columns ≠ [] ∧ tail = ' ' :: printTuple columns)) := by
  obtain ⟨tail, htail, hcases⟩ := exists_printTuple_cons item columns
  refine ⟨tail, ?_, hcases⟩
  rw [htail]
  exact takeItem_print hitem (hcases.imp And.right fun h => by simp [h.2])

/-- The items of a printed tuple are read. -/
theorem items_printTuple (h : ∀ item ∈ columns, item.Printable) : items (printTuple columns) = .ok columns := by
  induction columns with
  | nil => exact items_of_blank rfl
  | cons item columns ih =>
    obtain ⟨hitem, hcolumns⟩ := List.forall_mem_cons.mp h
    obtain ⟨tail, htake, htail⟩ := takeItem_printTuple hitem columns
    rw [items_of_takeItem ((trimStart_printTuple _).symm ▸ htake)]
    rcases htail with ⟨rfl, rfl⟩ | ⟨-, rfl⟩
    · rw [items_of_blank rfl]
      rfl
    · rw [items_blank_cons, ih hcolumns]
      rfl

/-- A printed tuple is read as the row of its columns. -/
theorem readTuple_printTuple (h : ∀ item ∈ columns, item.Printable) :
    readTuple (printTuple columns) = .ok (columns.foldl addItem ([], false)) := by
  rw [readTuple, items_printTuple h]
  rfl

/-- A space of a printed tuple behind text that reads as items is one between two items. -/
theorem exists_printTuple_of_items (h : ∀ item ∈ columns, item.Printable) (hread : items text = .ok found)
    (htext : text ++ ' ' :: more = printTuple columns) : ∃ later, more = printTuple later := by
  induction columns generalizing text found with
  | nil => simp [printTuple] at htext
  | cons item columns ih =>
    obtain ⟨hitem, hcolumns⟩ := List.forall_mem_cons.mp h
    obtain ⟨tail, htake, htail⟩ := takeItem_printTuple hitem columns
    have hstart := trimStart_printTuple (item :: columns)
    rw [← htext, trimStart_append_blank] at hstart
    by_cases hblank : trimStart text = []
    · rw [if_pos hblank] at hstart
      have := congrArg List.length hstart
      have := length_trimStart_le more
      simp only [List.length_append, List.length_cons] at *
      omega
    · rw [if_neg hblank] at hstart
      have hsame : trimStart text = text := List.append_cancel_right hstart
      rw [items, if_neg hblank, hsame] at hread
      split at hread
      · contradiction
      · rename_i item' rest hfront
        have hwhole : takeItem (text ++ ' ' :: more) = .ok (item', rest ++ ' ' :: more) := takeItem_append hfront
        rw [htext, htake] at hwhole
        obtain ⟨-, rfl⟩ := Prod.mk.inj (Except.ok.inj hwhole)
        rcases htail with ⟨-, hnil⟩ | ⟨-, hnext⟩
        · simp at hnil
        · cases rest with
          | nil => exact ⟨columns, (List.cons.inj hnext).2⟩
          | cons c rest =>
            obtain ⟨rfl, hlater⟩ := List.cons.inj hnext
            obtain ⟨_, hrest, -⟩ := Except.map_eq_ok hread
            exact ih hcolumns (items_blank_cons rest ▸ hrest) hlater

/-! ### Rows -/

/-- The value a column is printed with: nothing for one that did not change.  Only a bare word stands for null or
for an unchanged value; a text that reads the same is a value of the column's type. -/
def Item.value? (item : Item) : Option Json :=
  match item.literal with
  | .quoted text => some (typedValue (String.ofList item.type) text)
  | .bare token =>
    if token = unchangedMark then none
    else if token = "null".toList then some .null
    else some (typedValue (String.ofList item.type) token)

def Item.entry? (item : Item) : Option (String × Json) :=
  item.value?.map fun value => (String.ofList item.name, value)

theorem value?_eq_none_iff : item.value? = none ↔ item.literal = .bare unchangedMark := by
  unfold Item.value?
  split
  · rename_i text hliteral
    simp [hliteral]
  · rename_i token hliteral
    rw [hliteral, Literal.bare.injEq]
    by_cases hunchanged : token = unchangedMark
    · simp [hunchanged]
    · rw [if_neg hunchanged]
      split <;> simp [hunchanged]

theorem addItem_of_value {value : Json} (h : item.value? = some value) (row : Row × Bool) :
    addItem row item = (row.1.put (String.ofList item.name) value, row.2) := by
  unfold Item.value? at h
  unfold addItem
  cases hliteral : item.literal with
  | quoted text =>
    simp only [hliteral, Option.some.injEq] at h ⊢
    rw [h]
  | bare token =>
    simp only [hliteral] at h ⊢
    by_cases hunchanged : token = unchangedMark
    · rw [if_pos hunchanged] at h
      contradiction
    rw [if_neg hunchanged] at h ⊢
    split at h <;> rename_i hnull
    · rw [if_pos hnull, Option.some.inj h]
    · rw [if_neg hnull, Option.some.inj h]

theorem addItem_of_unchanged (h : item.value? = none) (row : Row × Bool) : addItem row item = (row.1, true) := by
  rw [addItem, value?_eq_none_iff.mp h]
  rfl

/-- Columns of different names are added behind those of the row. -/
theorem foldl_addItem (row : Row) (missing : Bool)
    (h : (row.map Prod.fst ++ columns.map fun item => String.ofList item.name).Nodup) :
    columns.foldl addItem (row, missing) = (row ++ columns.filterMap Item.entry?,
      missing || columns.any fun item => item.literal = .bare unchangedMark) := by
  induction columns generalizing row missing with
  | nil => simp
  | cons item columns ih =>
    rw [List.map_cons] at h
    rw [List.foldl_cons, List.any_cons]
    cases hvalue : item.value? with
    | none =>
      have hentry : item.entry? = none := by rw [Item.entry?, hvalue, Option.map_none]
      have hrest : (row.map Prod.fst ++ columns.map fun item => String.ofList item.name).Nodup :=
        h.sublist (List.Sublist.append_left (List.sublist_cons_self _ _) _)
      rw [addItem_of_unchanged hvalue, ih row true hrest, List.filterMap_cons_none hentry,
        value?_eq_none_iff.mp hvalue]
      simp
    | some value =>
      have hentry : item.entry? = some (String.ofList item.name, value) := by
        rw [Item.entry?, hvalue, Option.map_some]
      have hchanged : item.literal ≠ .bare unchangedMark := fun heq => by
        rw [value?_eq_none_iff.mpr heq] at hvalue
        contradiction
      have hnew : String.ofList item.name ∉ row.map Prod.fst := fun hmem =>
        (List.nodup_append.mp h).2.2 _ hmem _ List.mem_cons_self rfl
      rw [addItem_of_value hvalue, Keyed.put_of_not_mem hnew, ih _ missing (by simpa using h),
        List.filterMap_cons_some hentry]
      simp [hchanged]

/-- A printed tuple of differently named columns is read as the columns that were sent, in order, each with its value;
the row is incomplete exactly when a column was not sent. -/
theorem readTuple_sent_columns (hnames : (columns.map Item.name).Nodup) (h : ∀ item ∈ columns, item.Printable) :
    readTuple (printTuple columns) =
      .ok (columns.filterMap Item.entry?, columns.any fun item => item.literal = .bare unchangedMark) := by
  have hkeys : (columns.map fun item => String.ofList item.name).Nodup := by
    have hdistinct : ((columns.map Item.name).map String.ofList).Nodup :=
      List.Pairwise.map String.ofList (fun _ _ hne heq => hne (String.ofList_inj.mp heq)) hnames
    rwa [List.map_map] at hdistinct
  rw [readTuple_printTuple h, foldl_addItem [] false (by simpa using hkeys)]
  simp

/-- Marks of the format in a name and a text, a text that reads `null`, a null and an unchanged value. -/
theorem readTuple_sent_columns_of_marks :
    let columns : List Item := [⟨"id".toList, "integer".toList, .bare "7".toList⟩,
      ⟨"a \"b\"[c]:".toList, "text".toList, .quoted "it's [d]:'e'".toList⟩,
      ⟨"note".toList, "text".toList, .quoted "null".toList⟩,
      ⟨"blurb".toList, "text".toList, .bare "null".toList⟩,
      ⟨"body".toList, "text".toList, .bare unchangedMark⟩]
    (columns.map Item.name).Nodup ∧ (∀ item ∈ columns, item.Printable) ∧
    readTuple (printTuple columns) = .ok ([("id", .ofInt 7), ("a \"b\"[c]:", .string "it's [d]:'e'"),
      ("note", .string "null"), ("blurb", .null)], true) := by
  intro columns
  have hnames : (columns.map Item.name).Nodup := by decide
  have hprintable : ∀ item ∈ columns, item.Printable := by
    have hclear : ∀ {token : List Char}, token.all (!isBlank ·) = true → ∀ c ∈ token, isBlank c = false :=
      fun h => by simpa using h
    have htype : ¬ "]:".toList <:+: "text".toList := by decide
    have hinteger : ¬ "]:".toList <:+: "integer".toList := by decide
    refine List.forall_mem_cons.mpr ⟨⟨hinteger, hclear rfl, by decide⟩, ?_⟩
    refine List.forall_mem_cons.mpr ⟨⟨htype, trivial⟩, ?_⟩
    refine List.forall_mem_cons.mpr ⟨⟨htype, trivial⟩, ?_⟩
    refine List.forall_mem_cons.mpr ⟨⟨htype, hclear rfl, by decide⟩, ?_⟩
    exact List.forall_mem_singleton.mpr ⟨htype, hclear rfl, by decide⟩
  refine ⟨hnames, hprintable, (readTuple_sent_columns hnames hprintable).trans ?_⟩
  rfl

end DocSync.Log
