import DocSync.Proofs.Log.Printed

/-!
Change lines as a slot prints them.  A line is framed by delimiters that are searched for in the line, and
quoted parts may hold any of them.  Main statement: which lines read back as what was printed.
-/

namespace DocSync.Log

open Text

/-! ### What a slot prints -/

def printAction : ChangeKind → List Char
  | .insert => "INSERT".toList
  | .update => "UPDATE".toList
  | .delete => "DELETE".toList

/-- What stands between the two tuples of a line. -/
def newTupleMark : List Char := " new-tuple: ".toList

/-- The tuple of a line, behind the key that an update left. -/
def printBody (old : Option (List Item)) (new : List Item) : List Char :=
  match old with
  | some key => "old-key: ".toList ++ (printTuple key ++ newTupleMark ++ printTuple new)
  | none => printTuple new

def printQualified (schema table : String) : List Char :=
  printName schema.toList ++ '.' :: printName table.toList

def printLine (schema table : String) (kind : ChangeKind) (old : Option (List Item)) (new : List Item) :
    String :=
  String.ofList ("table ".toList ++ (printQualified schema table ++ ": ".toList ++
    (printAction kind ++ ':' :: ' ' :: printBody old new)))

/-- Whether a text stands in a name, a type or a quoted literal of an item. -/
def Item.Mentions (item : Item) (pattern : List Char) : Prop :=
  pattern <:+: item.name ∨ pattern <:+: item.type ∨
    ∃ text, item.literal = .quoted text ∧ pattern <:+: text

/-! ### The place between the tuples -/

variable {item : Item} {columns : List Item}

theorem infix_print_iff (h : item.Printable) : newTupleMark <:+: item.print ↔ item.Mentions newTupleMark := by
  have hcolon : newTupleMark <:+: ':' :: item.literal.print ↔ newTupleMark <:+: item.literal.print := by
    rw [List.infix_cons_iff, or_iff_right]
    rintro ⟨rest, hrest⟩
    exact absurd (List.cons.inj hrest).1 (by decide)
  have hliteral : newTupleMark <:+: item.literal.print ↔
      ∃ text, item.literal = .quoted text ∧ newTupleMark <:+: text := by
    cases hkind : item.literal with
    | quoted text => simp [Literal.print, infix_quote_iff (show '\'' ∉ newTupleMark by decide)]
    | bare token =>
      have htoken : Literal.Printable (.bare token) := hkind ▸ h.literal
      have hblank : ¬ newTupleMark <:+: token := fun hwithin => by
        have := htoken.1 ' ' (hwithin.mem (by decide))
        contradiction
      simpa [Literal.print] using hblank
  rw [Item.print, infix_append_cons_iff (by decide), infix_append_cons_iff (by decide), hcolon, hliteral,
    infix_printName_iff (by decide), or_assoc]
  rfl

theorem not_suffix_print (h : item.Printable) : ¬ " new-tuple:".toList <:+ item.print := by
  rw [Item.print, suffix_append_cons_iff (by decide)]
  cases hkind : item.literal with
  | quoted text =>
    rw [Literal.print, quote, ← List.cons_append, suffix_append_cons_iff (by decide)]
    decide
  | bare token =>
    have htoken : Literal.Printable (.bare token) := hkind ▸ h.literal
    intro hsuffix
    have hblank : ' ' ∈ ':' :: token := hsuffix.subset (by decide)
    have := htoken.1 ' ' (by simpa using hblank)
    contradiction

/-- The mark is its space, a word and a space: where it runs over a space, that is its first or its last
character. -/
theorem newTupleMark_split {left right : List Char} (h : newTupleMark = left ++ ' ' :: right) :
    (left = [] ∧ right = "new-tuple: ".toList) ∨ (left = " new-tuple:".toList ∧ right = []) := by
  cases left with
  | nil => exact .inl ⟨rfl, (List.cons.inj h).2.symm⟩
  | cons c left =>
    obtain ⟨rfl, hword⟩ := List.cons.inj h
    have hword : "new-tuple:".toList ++ [' '] = left ++ ' ' :: right := hword
    rcases List.append_eq_append_iff.mp hword with ⟨excess, rfl, hexcess⟩ | ⟨excess, hexcess, hright⟩
    · obtain ⟨rfl, rfl⟩ : excess = [] ∧ right = [] := by
        cases excess with
        | nil => exact ⟨rfl, (List.cons.inj hexcess).2.symm⟩
        | cons c excess => simp at hexcess
      exact .inr ⟨rfl, rfl⟩
    · cases excess with
      | nil =>
        rw [List.append_nil] at hexcess
        exact .inr ⟨hexcess ▸ rfl, (List.cons.inj hright).2⟩
      | cons c excess =>
        obtain ⟨rfl, -⟩ := List.cons.inj hright
        have hblank : ' ' ∈ "new-tuple:".toList := hexcess ▸ by simp
        exact absurd hblank (by decide)

/-- Before the mark that ends a key there is another one only inside of a part of an item. -/
theorem mentions_of_infix (h : ∀ item ∈ columns, item.Printable)
    (hwithin : newTupleMark <:+: printTuple columns ++ " new-tuple:".toList) :
    ∃ item ∈ columns, item.Mentions newTupleMark := by
  induction columns with
  | nil => exact absurd hwithin (by decide)
  | cons item columns ih =>
    obtain ⟨hitem, hcolumns⟩ := List.forall_mem_cons.mp h
    obtain ⟨tail, htail, hcases⟩ := exists_printTuple_cons item columns
    obtain ⟨later, hlater⟩ : ∃ later, tail ++ " new-tuple:".toList = ' ' :: later ∧
        ((columns = [] ∧ later = "new-tuple:".toList) ∨
          (columns ≠ [] ∧ later = printTuple columns ++ " new-tuple:".toList)) := by
      rcases hcases with ⟨hnil, rfl⟩ | ⟨hne, rfl⟩
      · exact ⟨_, rfl, .inl ⟨hnil, rfl⟩⟩
      · exact ⟨_, rfl, .inr ⟨hne, rfl⟩⟩
    rw [htail, List.append_assoc, hlater.1] at hwithin
    have hnext : ¬ "new-tuple: ".toList <+: later := by
      rcases hlater.2 with ⟨-, rfl⟩ | ⟨hne, rfl⟩
      · decide
      · exact not_prefix_printTuple '-' (by decide) (by decide) (absurd · hne)
    rcases infix_append_cons hwithin with hfront | hback | ⟨left, right, hsplit, hleft, hright⟩
    · exact ⟨item, List.mem_cons_self, (infix_print_iff hitem).mp hfront⟩
    · rcases hlater.2 with ⟨-, rfl⟩ | ⟨hne, rfl⟩
      · exact absurd hback (by decide)
      · obtain ⟨found, hmem, hmentions⟩ := ih hcolumns hback
        exact ⟨found, List.mem_cons_of_mem item hmem, hmentions⟩
    · rcases newTupleMark_split hsplit with ⟨rfl, rfl⟩ | ⟨rfl, rfl⟩
      · exact absurd hright hnext
      · exact absurd hleft (not_suffix_print hitem)

theorem print_infix_printTuple (hmem : item ∈ columns) : item.print <:+: printTuple columns := by
  induction columns with
  | nil => contradiction
  | cons first columns ih =>
    obtain ⟨tail, htail, hcases⟩ := exists_printTuple_cons first columns
    rw [htail]
    rcases List.mem_cons.mp hmem with rfl | hmem
    · exact (List.prefix_append item.print tail).isInfix
    · rcases hcases with ⟨rfl, -⟩ | ⟨-, rfl⟩
      · contradiction
      · exact (ih hmem).trans ((List.suffix_cons _ _).trans (List.suffix_append _ _)).isInfix

/-! ### Lines -/

theorem printAction_mark (kind : ChangeKind) : ':' ∉ printAction kind := by cases kind <;> decide

theorem kindOfAction?_printAction (kind : ChangeKind) : kindOfAction? (printAction kind) = some kind := by
  cases kind <;> rfl

variable {schema table : String} {kind : ChangeKind} {old : Option (List Item)} {new : List Item}

theorem trimStart_printBody (old : Option (List Item)) (new : List Item) :
    trimStart (' ' :: printBody old new) = printBody old new := by
  cases old with
  | some key => rfl
  | none => exact trimStart_printTuple new

/-- The names a line can be framed with. -/
structure Framed (schema table : String) : Prop where
  point : '.' ∉ schema.toList
  schema : ¬ ": ".toList <:+: schema.toList
  table : ¬ ": ".toList <:+: table.toList

theorem cut?_qualified (h : Framed schema table) (rest : List Char) :
    cut? ": ".toList (printQualified schema table ++ ": ".toList ++ rest) =
      some (printQualified schema table, rest) := by
  have hclear : ¬ ": ".toList <:+: printQualified schema table := by
    rw [printQualified, infix_append_cons_iff (by decide), infix_printName_iff (by decide),
      infix_printName_iff (by decide)]
    exact fun hwithin => hwithin.elim h.schema h.table
  rw [List.append_assoc]
  exact cut?_pair (by decide) hclear rest

theorem splitQualified_print (h : '.' ∉ schema.toList) :
    splitQualified (printQualified schema table) = .ok (schema.toList, table.toList) := by
  have hcut : cut? ['.'] (printQualified schema table) =
      some (printName schema.toList, printName table.toList) := by
    refine cut?_singleton_eq_some_iff.mpr ⟨rfl, ?_⟩
    rwa [← List.singleton_infix_iff, infix_printName_iff (by decide), List.singleton_infix_iff]
  rw [splitQualified, hcut]
  simp [unquoteName_printName]

/-- Behind well-framed names the change of a line is read from its body. -/
theorem readLine_printLine (h : Framed schema table) : readLine (printLine schema table kind old new) =
    (readChange (printLine schema table kind old new).toList schema.toList table.toList kind
      (printBody old new)).map .change := by
  have haction : cut? [':'] (printAction kind ++ ':' :: ' ' :: printBody old new) =
      some (printAction kind, ' ' :: printBody old new) :=
    cut?_singleton_eq_some_iff.mpr ⟨rfl, printAction_mark kind⟩
  have hline : (printLine schema table kind old new).toList = "table ".toList ++
      (printQualified schema table ++ ": ".toList ++ (printAction kind ++ ':' :: ' ' :: printBody old new)) :=
    String.toList_ofList
  have hrest : after? "table ".toList (printLine schema table kind old new).toList = some
      (printQualified schema table ++ ": ".toList ++ (printAction kind ++ ':' :: ' ' :: printBody old new)) := by
    rw [hline]
    exact after?_append _ _
  have hbegin : (after? "BEGIN".toList (printLine schema table kind old new).toList).isSome = false := by
    rw [hline]
    rfl
  have hcommit : (after? "COMMIT".toList (printLine schema table kind old new).toList).isSome = false := by
    rw [hline]
    rfl
  rw [readLine]
  simp only [hbegin, hcommit, hrest, cut?_qualified h, splitQualified_print h.point, haction,
    kindOfAction?_printAction, trimStart_printBody]
  rfl

/-- The parts of a body that are read, when a change is. -/
theorem exists_of_readChange {line s t body : List Char} {change : Change}
    (h : readChange line s t kind body = .ok change) :
    change.schema = String.ofList s ∧ change.table = String.ofList t ∧
      ∃ old new, splitBody line body = .ok (old, new) ∧ ∀ text ∈ old, ∃ found, items text = .ok found := by
  unfold readChange at h
  obtain ⟨⟨old, new⟩, hsplit, h⟩ := Except.bind_eq_ok h
  obtain ⟨tuple, h⟩ : ∃ tuple : Row × Bool, ((match old with
      | some text => (readTuple text).map fun (found : Row × Bool) => some found.1
      | none => .ok none) >>= fun (oldKey : Option Row) =>
        (.ok ⟨String.ofList s, String.ofList t, kind, oldKey, tuple.1, tuple.2⟩ :
          Except LineError Change)) = .ok change := by
    cases old <;> simp only at h <;> split at h <;>
      · obtain ⟨tuple, -, h⟩ := Except.bind_eq_ok h
        exact ⟨tuple, h⟩
  obtain ⟨key, hkey, h⟩ := Except.bind_eq_ok h
  obtain rfl := Except.ok.inj h
  refine ⟨rfl, rfl, old, new, hsplit, fun text hold => ?_⟩
  obtain rfl : old = some text := hold
  obtain ⟨_, htuple, -⟩ := Except.map_eq_ok hkey
  obtain ⟨found, hitems, -⟩ := Except.map_eq_ok htuple
  exact ⟨found, hitems⟩

theorem exists_of_splitQualified {qualified s t : List Char} (h : splitQualified qualified = .ok (s, t)) :
    ∃ front back, qualified = front ++ '.' :: back ∧ '.' ∉ front ∧ s = unquoteName front ∧ t = unquoteName back := by
  unfold splitQualified at h
  split at h
  · rename_i front back hcut
    obtain ⟨rfl, rfl⟩ := Prod.mk.inj (Except.ok.inj h)
    obtain ⟨rfl, hfirst⟩ := cut?_singleton_eq_some_iff.mp hcut
    exact ⟨front, back, rfl, hfirst, rfl, rfl⟩
  · contradiction

/-- No line is read as a change of a table whose names cannot be framed. -/
theorem framed_of_readLine {text : String} {change : Change} (h : readLine text = .ok (.change change)) :
    Framed change.schema change.table := by
  simp only [readLine] at h
  split at h
  · simp at h
  split at h
  · simp at h
  split at h
  · simp at h
  split at h
  · simp at h
  rename_i rest _ _ qualified action hqualified
  obtain ⟨⟨s, t⟩, hnames, h⟩ := Except.bind_eq_ok h
  simp only at h
  split at h
  · contradiction
  split at h
  · simp at h
  obtain ⟨change', hchange, heq⟩ := Except.map_eq_ok h
  obtain rfl := Line.change.inj heq
  obtain ⟨hschema, htable, -⟩ := exists_of_readChange hchange
  obtain ⟨front, back, rfl, hpoint, rfl, rfl⟩ := exists_of_splitQualified hnames
  obtain ⟨-, hfirst⟩ := (cut?_eq_some_iff (by decide)).mp hqualified
  have hschema : change'.schema.toList = unquoteName front := by rw [hschema, String.toList_ofList]
  have htable : change'.table.toList = unquoteName back := by rw [htable, String.toList_ofList]
  have hparts : ¬ (": ".toList <:+: front ∨ ": ".toList <:+: back) := fun h =>
    hfirst (((infix_append_cons_iff (c := '.') (by decide)).mpr h).trans (List.prefix_append _ _).isInfix)
  refine ⟨?_, ?_, ?_⟩
  · rw [hschema, ← List.singleton_infix_iff]
    exact fun h => hpoint ((List.singleton_infix_iff _ _).mp (infix_of_infix_unquoteName (by decide) h))
  · rw [hschema]
    exact fun h => hparts (.inl (infix_of_infix_unquoteName (by decide) h))
  · rw [htable]
    exact fun h => hparts (.inr (infix_of_infix_unquoteName (by decide) h))

/-! ### Bodies -/

theorem after?_printTuple {pattern : List Char} (mark : Char)
    (hfirst : (pattern.dropWhile isNameChar).head? = some mark) (hmark : mark ≠ '[' ∧ mark ≠ '"')
    (columns : List Item) : after? pattern (printTuple columns) = none := by
  refine Option.eq_none_iff_forall_ne_some.mpr fun rest h => ?_
  have hfront : ¬ pattern <+: printTuple columns ++ [] := not_prefix_printTuple mark hfirst hmark fun _ => rfl
  rw [List.append_nil, after?_eq_some h] at hfront
  exact hfront (List.prefix_append pattern rest)

theorem head?_printTuple (columns : List Item) : (printTuple columns).head? ≠ some '(' := fun h => by
  obtain ⟨rest, hrest⟩ := List.head?_eq_some_iff.mp h
  have : after? ['('] (printTuple columns) = none := after?_printTuple '(' (by decide) (by decide) columns
  simp [hrest, after?] at this

theorem splitBody_none (line : List Char) (new : List Item) :
    splitBody line (printBody none new) = .ok (none, printTuple new) := by
  have hkey : after? "old-key: ".toList (printTuple new) = none :=
    after?_printTuple '-' (by decide) (by decide) new
  have htuple : after? "new-tuple: ".toList (printTuple new) = none :=
    after?_printTuple '-' (by decide) (by decide) new
  unfold splitBody printBody
  rw [hkey, htuple]
  rfl

theorem splitBody_some {key new : List Item} {before rest : List Char} (line : List Char)
    (hcut : cut? newTupleMark (printTuple key ++ newTupleMark ++ printTuple new) = some (before, rest)) :
    splitBody line (printBody (some key) new) = .ok (some before, rest) := by
  unfold splitBody printBody
  rw [after?_append]
  unfold newTupleMark at hcut ⊢
  dsimp only
  rw [hcut]

/-- A body is taken apart at the mark behind its key. -/
theorem splitBody_printBody (line : List Char) (new : List Item) (hold : ∀ key ∈ old, ∀ item ∈ key, item.Printable)
    (hclear : ∀ key ∈ old, ∀ item ∈ key, ¬ item.Mentions newTupleMark) :
    splitBody line (printBody old new) = .ok (old.map printTuple, printTuple new) := by
  cases old with
  | none => exact splitBody_none line new
  | some key =>
    refine splitBody_some line ((cut?_eq_some_iff (by decide)).mpr ⟨rfl, fun hwithin => ?_⟩)
    obtain ⟨item, hmem, hmentions⟩ := mentions_of_infix (hold key rfl) hwithin
    exact hclear key rfl item hmem hmentions

/-- A key that is read does not mention the mark that is searched for behind it. -/
theorem not_mentions_of_splitBody {key new : List Item} (hkey : ∀ item ∈ key, item.Printable) {line new' : List Char}
    {old : Option (List Char)} (hsplit : splitBody line (printBody (some key) new) = .ok (old, new'))
    (hread : ∀ text ∈ old, ∃ found, items text = .ok found) : ∀ item ∈ key, ¬ item.Mentions newTupleMark := by
  intro item hmem hmentions
  have hwithin := ((infix_print_iff (hkey item hmem)).mpr hmentions).trans (print_infix_printTuple hmem)
  obtain ⟨before, more, hcut⟩ := exists_cut? hwithin
  have hwhole := cut?_append (by decide) hcut (newTupleMark ++ printTuple new)
  rw [← List.append_assoc] at hwhole
  have hbefore : some before = old :=
    (Prod.mk.inj (Except.ok.inj ((splitBody_some line hwhole).symm.trans hsplit))).1
  obtain ⟨found, hfound⟩ := hread before hbefore.symm
  have hplace := (cut?_eq_some_iff (by decide)).mp hcut
  have hspace : before ++ ' ' :: ("new-tuple: ".toList ++ more) = printTuple key := by
    rw [hplace.1, List.append_assoc]
    rfl
  obtain ⟨later, hlater⟩ := exists_printTuple_of_items hkey hfound hspace
  have hfront : after? "new-tuple: ".toList (printTuple later) = none :=
    after?_printTuple '-' (by decide) (by decide) later
  rw [← hlater, after?_append] at hfront
  contradiction

/-- A line that a slot prints reads back as what was printed exactly when no delimiter stands before the place
where it is searched for: no point and no colon with a space in the schema's name, no colon with a space in
the table's, and no mark of the new tuple in the old key. -/
theorem readLine_printLine_iff (hold : ∀ key ∈ old, ∀ item ∈ key, item.Printable)
    (hnew : ∀ item ∈ new, item.Printable) :
    (∃ (oldKey : Option (Row × Bool)) (tuple : Row × Bool),
      old.map (fun key => readTuple (printTuple key)) = oldKey.map .ok ∧ readTuple (printTuple new) = .ok tuple ∧
      readLine (printLine schema table kind old new) =
        .ok (.change ⟨schema, table, kind, oldKey.map Prod.fst, tuple.1, tuple.2⟩)) ↔
    Framed schema table ∧ ∀ key ∈ old, ∀ item ∈ key, ¬ item.Mentions newTupleMark := by
  constructor
  · rintro ⟨oldKey, tuple, -, -, hline⟩
    have hframed : Framed schema table := framed_of_readLine hline
    refine ⟨hframed, fun key hkey => ?_⟩
    rw [readLine_printLine hframed] at hline
    obtain ⟨change, hchange, -⟩ := Except.map_eq_ok hline
    obtain ⟨-, -, _, _, hsplit, hread⟩ := exists_of_readChange hchange
    obtain rfl : old = some key := hkey
    exact not_mentions_of_splitBody (hold key rfl) hsplit hread
  · rintro ⟨hframed, hclear⟩
    refine ⟨old.map (·.foldl addItem ([], false)), _, ?_, readTuple_printTuple hnew, ?_⟩
    · cases old with
      | none => rfl
      | some key => exact congrArg some (readTuple_printTuple (hold key rfl))
    · rw [readLine_printLine hframed, readChange, splitBody_printBody _ new hold hclear]
      cases old with
      | none =>
        simp [bind, Except.bind, head?_printTuple, readTuple_printTuple hnew, Except.map, pure, Except.pure]
      | some key =>
        simp [bind, Except.bind, head?_printTuple, readTuple_printTuple hnew, Except.map, pure, Except.pure,
          readTuple_printTuple (hold key rfl)]

/-- A column of a text. -/
def textItem (name text : String) : Item := ⟨name.toList, "text".toList, .quoted text.toList⟩

theorem printable_textItem (name text : String) : (textItem name text).Printable :=
  ⟨show ¬ "]:".toList <:+: "text".toList by decide, trivial⟩

/-- Points in a table's name, quotes and colons in the old key and marks in the new tuple are read. -/
theorem readLine_printLine_of_marks :
    let key := [textItem "isbn" "it's: a"]
    let new := [textItem "isbn" "a new-tuple: b"]
    (∀ item ∈ key ++ new, item.Printable) ∧ ∃ oldKey tuple,
      readTuple (printTuple key) = .ok oldKey ∧ readTuple (printTuple new) = .ok tuple ∧
      readLine (printLine "public" "book.old" .update (some key) new) =
        .ok (.change ⟨"public", "book.old", .update, some oldKey.1, tuple.1, tuple.2⟩) := by
  intro key new
  have hkey : ∀ item ∈ key, item.Printable :=
    List.forall_mem_singleton.mpr (printable_textItem "isbn" "it's: a")
  have hnew : ∀ item ∈ new, item.Printable :=
    List.forall_mem_singleton.mpr (printable_textItem "isbn" "a new-tuple: b")
  have hclear : ∀ item ∈ key, ¬ item.Mentions newTupleMark := by
    refine List.forall_mem_singleton.mpr ?_
    rintro (hname | htype | ⟨text, htext, hwithin⟩)
    · exact absurd hname (by decide)
    · exact absurd htype (by decide)
    · obtain rfl := Literal.quoted.inj htext
      exact absurd hwithin (by decide)
  obtain ⟨oldKey, tuple, hold, htuple, hline⟩ :=
    (@readLine_printLine_iff "public" "book.old" .update (some key) new (by rintro _ ⟨⟩; exact hkey) hnew).mpr
      ⟨⟨by decide, by decide, by decide⟩, by rintro _ ⟨⟩; exact hclear⟩
  cases oldKey with
  | none => contradiction
  | some oldKey =>
    exact ⟨List.forall_mem_append.mpr ⟨hkey, hnew⟩, oldKey, tuple, Option.some.inj hold, htuple, hline⟩

set_option maxRecDepth 100000 in
/-- An old key with the mark in its text is cut inside of it. -/
theorem readLine_cuts_key :
    readLine (printLine "public" "book" .update (some [textItem "isbn" "a new-tuple: b"]) [textItem "isbn" "c"]) =
      .error (.unclosedLiteral "'a".toList) := by
  with_unfolding_all rfl

end DocSync.Log
