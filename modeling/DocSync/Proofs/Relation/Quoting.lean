import DocSync.Proofs.Text.Delimited
import DocSync.Relation.Sql

/-!
What a server reads in the text of a statement.  A scan goes through the text one character at a time and
takes the names and the literals out of it.  Main statement: the scan of a statement finds its names and
the texts of its values, all of them in their places, and nothing else of them.
-/

namespace DocSync

/-! ### Names, literals and shape of a statement -/

namespace Sql

/-- The text form of a value, which null has not. -/
def texts : Json → List String
  | .null => []
  | .string s => [s]
  | other => [other.render]

/-- Without what it says: whether it is null remains. -/
def blankValue : Json → Json
  | .null => .null
  | _ => .string ""

/-- A projected column without its name; the system column is another thing to project. -/
def blankColumn (column : String) : String := if column == "xmin" then column else ""

def blankRow (row : Row) : Row := row.map fun entry => ("", blankValue entry.2)

end Sql

namespace Filter

/-- The names that a filter writes: none when it has no tuple. -/
def names : Filter → List String
  | all => []
  | among _ [] => []
  | among columns _ => columns

def values : Filter → List Json
  | all => []
  | among _ tuples => tuples.flatten

def blank : Filter → Filter
  | all => all
  | among columns tuples => among (columns.map fun _ => "") (tuples.map (List.map Sql.blankValue))

end Filter

namespace Query

/-- The names of a statement in the order of its text. -/
def names (schema : String) : Query → List String
  | select s => s.columns ++ [schema, s.table]
      ++ (s.filter.names ++ if s.after.isSome then s.orderBy else []) ++ s.orderBy
  | insert table row => [schema, table] ++ row.keys
  | update table key values => [schema, table] ++ values.keys ++ key.keys
  | delete table key => [schema, table] ++ key.keys

/-- The texts of its values, in the order of its text. -/
def literals : Query → List String
  | select s => s.filter.values.flatMap Sql.texts ++ (s.after.getD []).flatMap Sql.texts
  | insert _ row => row.values.flatMap Sql.texts
  | update _ key values => values.values.flatMap Sql.texts ++ key.values.flatMap Sql.texts
  | delete _ key => key.values.flatMap Sql.texts

/-- The shape of a statement: its kind and limit, the lengths of its lists, which values are null and which
projected columns the system column.  All names and values are gone. -/
def blank : Query → Query
  | select s => select
      { table := ""
        columns := s.columns.map Sql.blankColumn
        filter := s.filter.blank
        orderBy := s.orderBy.map fun _ => ""
        after := s.after.map (List.map Sql.blankValue)
        limit := s.limit }
  | insert _ row => insert "" (Sql.blankRow row)
  | update _ key values => update "" (Sql.blankRow key) (Sql.blankRow values)
  | delete _ key => delete "" (Sql.blankRow key)

end Query

namespace Sql

/-! ### The scan -/

/-- What stands between quotes: a name in double ones, a literal in single ones. -/
inductive Token where
  | name
  | literal
deriving DecidableEq

def Token.quote : Token → Char
  | name => '"'
  | literal => '\''

def token? (c : Char) : Option Token :=
  if c = '"' then some .name else if c = '\'' then some .literal else none

/-- The tokens of a text, and the characters outside them; of a token only the opening quote is there. -/
structure Reading where
  names : List String
  literals : List String
  bare : List Char
deriving DecidableEq

namespace Reading

instance : Append Reading :=
  ⟨fun a b => ⟨a.names ++ b.names, a.literals ++ b.literals, a.bare ++ b.bare⟩⟩

/-- Characters outside quotes. -/
def ofBare (cs : List Char) : Reading := ⟨[], [], cs⟩

/-- The content of a token. -/
def ofToken (text : List Char) : Token → Reading
  | .name => ⟨[String.ofList text], [], []⟩
  | .literal => ⟨[], [String.ofList text], []⟩

theorem append_def (a b : Reading) :
    a ++ b = ⟨a.names ++ b.names, a.literals ++ b.literals, a.bare ++ b.bare⟩ := rfl

theorem append_assoc (a b c : Reading) : a ++ b ++ c = a ++ (b ++ c) := by
  simp [append_def]

theorem append_nil (a : Reading) : a ++ ofBare [] = a := by
  simp [append_def, ofBare]

theorem ofBare_append (cs ds : List Char) : ofBare (cs ++ ds) = ofBare cs ++ ofBare ds := rfl

end Reading

open Reading

/-- Where a scan stands. -/
inductive Mode where
  /-- Outside quotes; `joined` when the last character belongs to a word. -/
  | outside (joined : Bool)
  | inside (token : Token) (text : List Char)
  /-- Behind a quote that closes the token, unless another one follows. -/
  | closing (token : Token) (text : List Char)
  | stuck

/-- What has been read so far, and where the scan stands. -/
structure Scan where
  reading : Reading
  mode : Mode

def isWord (c : Char) : Bool := c.isAlphanum || c == '_'

/-- The characters that mean nothing to the scan.  Others may open a comment or a text in dollars, or
continue a literal on the next line. -/
def isPlain (c : Char) : Bool := isWord c || " .,()*=>:".toList.contains c

/-- A character outside quotes.  A quote at the end of a word, as in `E'a'` and `U&"a"`, has other rules. -/
def Reading.next (r : Reading) (joined : Bool) (c : Char) : Scan :=
  match token? c with
  | some token => ⟨r ++ ofBare [c], if joined then .stuck else .inside token []⟩
  | none => ⟨r ++ ofBare [c], if isPlain c then .outside (isWord c) else .stuck⟩

namespace Scan

def step (s : Scan) (c : Char) : Scan :=
  match s.mode with
  | .outside joined => s.reading.next joined c
  | .inside token text =>
    ⟨s.reading, if c = token.quote then .closing token text else .inside token (text ++ [c])⟩
  | .closing token text =>
    if c = token.quote then ⟨s.reading, .inside token (text ++ [c])⟩
    else (s.reading ++ ofToken text token).next false c
  | .stuck => s

def run (s : Scan) (cs : List Char) : Scan := cs.foldl step s

/-- What has been read, when the text may end here. -/
def finish (s : Scan) : Option Reading :=
  match s.mode with
  | .outside _ => some s.reading
  | .closing token text => some (s.reading ++ ofToken text token)
  | .inside .. | .stuck => none

/-- Outside quotes and not in a word. -/
def free (r : Reading) : Scan := ⟨r, .outside false⟩

end Scan

open Scan

/-- The reading of a text, when all its quotes are closed. -/
def scan? (text : String) : Option Reading := (run (free (ofBare [])) text.toList).finish

/-- The text outside quotes. -/
def outside (text : String) : List Char := ((scan? text).map bare).getD []

variable {s : Scan} {before r ra rb : Reading} {c : Char} {cs : List Char}

/-! ### Runs of a scan -/

theorem run_append (s : Scan) (cs ds : List Char) : s.run (cs ++ ds) = (s.run cs).run ds :=
  List.foldl_append

theorem token?_of_isPlain (h : isPlain c = true) : token? c = none := by
  have hname : c ≠ '"' := fun hc => absurd (hc ▸ h) (by decide)
  have hliteral : c ≠ '\'' := fun hc => absurd (hc ▸ h) (by decide)
  simp [token?, hname, hliteral]

theorem token?_quote (token : Token) : token? token.quote = some token := by
  cases token <;> rfl

/-- A plain character is read as it is wherever the text might end. -/
theorem step_of_isPlain (hc : isPlain c = true) (hs : s.finish = some before) :
    s.step c = ⟨before ++ ofBare [c], .outside (isWord c)⟩ := by
  have hnext (r : Reading) (joined : Bool) :
      r.next joined c = ⟨r ++ ofBare [c], .outside (isWord c)⟩ := by
    simp [next, token?_of_isPlain hc, hc]
  obtain ⟨reading, mode⟩ := s
  cases mode with
  | outside joined =>
    obtain rfl : reading = before := Option.some.inj hs
    exact hnext reading joined
  | closing token text =>
    obtain rfl : reading ++ ofToken text token = before := Option.some.inj hs
    -- A plain character is no quote, so the token is over and the character stands outside.
    have hne : c ≠ token.quote := fun h => by
      simpa [h, token?_quote] using token?_of_isPlain hc
    simp only [step, if_neg hne]
    exact hnext _ false
  | inside | stuck => contradiction

theorem finish_run_of_isPlain (hcs : cs.all isPlain = true) (hs : s.finish = some before) :
    (s.run cs).finish = some (before ++ ofBare cs) := by
  induction cs generalizing s before with
  | nil => rwa [append_nil]
  | cons c cs ih =>
    rw [List.all_cons, Bool.and_eq_true] at hcs
    obtain ⟨hc, hcs⟩ := hcs
    have hstep : (s.step c).finish = some (before ++ ofBare [c]) := by
      rw [step_of_isPlain hc hs]
      rfl
    have := ih hcs hstep
    rwa [append_assoc, ← ofBare_append] at this

def isBare (text : String) : Bool := text.toList.all isPlain

/-- A text between two tokens: plain characters with no word at their end. -/
def isGlue (text : String) : Bool := isBare text && text.toList.getLast?.any fun c => !isWord c

/-- Behind glue a token may begin. -/
theorem run_of_isGlue {glue : String} (hglue : isGlue glue = true) (hs : s.finish = some before) :
    s.run glue.toList = free (before ++ ofBare glue.toList) := by
  simp only [isGlue, isBare, Bool.and_eq_true, Option.any_eq_true, Bool.not_eq_true'] at hglue
  obtain ⟨hplain, c, hlast, hword⟩ := hglue
  obtain ⟨cs, hcs⟩ := List.getLast?_eq_some_iff.mp hlast
  simp only [hcs, List.all_append, List.all_cons, List.all_nil, Bool.and_true, Bool.and_eq_true] at hplain
  have hrun := finish_run_of_isPlain hplain.1 hs
  rw [hcs, run_append]
  calc ((s.run cs).run [c]) = (s.run cs).step c := rfl
    _ = ⟨before ++ ofBare cs ++ ofBare [c], .outside (isWord c)⟩ :=
        step_of_isPlain hplain.2 hrun
    _ = free (before ++ ofBare (cs ++ [c])) := by rw [hword, append_assoc, ← ofBare_append, free]

/-- Inside a token its characters are taken up, quotes and all. -/
theorem run_doubled (r : Reading) (token : Token) (text more : List Char) :
    run ⟨r, .inside token text⟩ (doubled token.quote more) = ⟨r, .inside token (text ++ more)⟩ := by
  induction more generalizing text with
  | nil => simp [doubled, run]
  | cons c more ih =>
    rw [Text.doubled_cons, run_append]
    have hc : run ⟨r, .inside token text⟩ (if c = token.quote then [token.quote, token.quote] else [c]) =
        ⟨r, .inside token (text ++ [c])⟩ := by
      split
      · rename_i h
        simp [run, step, h]
      · rename_i h
        simp [run, step, h]
    rw [hc, ih, List.append_assoc]
    rfl

/-! ### Texts that stand where a token may begin -/

/-- Where a token may begin, a text reads as `r`, and may end there. -/
def ReadsAs (text : String) (r : Reading) : Prop :=
  ∀ before, ((free before).run text.toList).finish = some (before ++ r)

theorem readsAs_quoted (token : Token) (text : String) :
    ReadsAs (quoted token.quote text) (ofBare [token.quote] ++ ofToken text.toList token) := by
  intro before
  have hopen : (free before).run [token.quote] = ⟨before ++ ofBare [token.quote], .inside token []⟩ := by
    simp [run, step, free, next, token?_quote]
  have htext : (quoted token.quote text).toList =
      [token.quote] ++ (doubled token.quote text.toList ++ [token.quote]) := by simp [quoted]
  rw [htext, run_append, run_append, hopen, run_doubled, List.nil_append]
  simp [run, step, finish, append_assoc]

theorem readsAs_ident (name : String) : ReadsAs (ident name) ⟨[name], [], ['"']⟩ := by
  have h := readsAs_quoted .name name
  rwa [append_def, ofToken, String.ofList_toList] at h

theorem readsAs_literal (text : String) : ReadsAs (literal text) ⟨[], [text], ['\'']⟩ := by
  have h := readsAs_quoted .literal text
  rwa [append_def, ofToken, String.ofList_toList] at h

theorem readsAs_of_isBare {text : String} (h : isBare text = true) : ReadsAs text (ofBare text.toList) :=
  fun _ => finish_run_of_isPlain h rfl

theorem ReadsAs.glued {a b glue : String} (ha : ReadsAs a ra) (hglue : isGlue glue = true)
    (hb : ReadsAs b rb) : ReadsAs (a ++ glue ++ b) (ra ++ ofBare glue.toList ++ rb) := fun before => by
  rw [String.toList_append, String.toList_append, run_append, run_append, run_of_isGlue hglue (ha before), hb]
  simp [append_assoc]

theorem ReadsAs.closed {a b : String} (ha : ReadsAs a ra) (hb : isBare b = true) :
    ReadsAs (a ++ b) (ra ++ ofBare b.toList) := fun before => by
  rw [String.toList_append, run_append, finish_run_of_isPlain hb (ha before), append_assoc]

/-! ### Texts with their blanks -/

/-- A text reads as these names and literals, and outside the tokens as `blank` does. -/
def Reads (text : String) (names literals : List String) (blank : String) : Prop :=
  ∃ bare blankNames blankLiterals,
    ReadsAs text ⟨names, literals, bare⟩ ∧ ReadsAs blank ⟨blankNames, blankLiterals, bare⟩

variable {a b a' b' : String} {ns ms ls ks : List String}

theorem reads_ident (name other : String) : Reads (ident name) [name] [] (ident other) :=
  ⟨['"'], [other], [], readsAs_ident name, readsAs_ident other⟩

theorem reads_literal (text other : String) : Reads (literal text) [] [text] (literal other) :=
  ⟨['\''], [], [other], readsAs_literal text, readsAs_literal other⟩

theorem reads_bare (h : isBare a = true) : Reads a [] [] a :=
  ⟨a.toList, [], [], readsAs_of_isBare h, readsAs_of_isBare h⟩

/-- Glue keeps the quotes of two texts apart, which would be read as a doubled one where they meet. -/
theorem Reads.glued (ha : Reads a ns ls a') (glue : String) (hglue : isGlue glue = true)
    (hb : Reads b ms ks b') : Reads (a ++ glue ++ b) (ns ++ ms) (ls ++ ks) (a' ++ glue ++ b') := by
  obtain ⟨bare, ns', ls', ha, ha'⟩ := ha
  obtain ⟨more, ms', ks', hb, hb'⟩ := hb
  refine ⟨bare ++ glue.toList ++ more, ns' ++ ms', ls' ++ ks', ?_, ?_⟩
  · simpa [append_def, ofBare] using ha.glued hglue hb
  · simpa [append_def, ofBare] using ha'.glued hglue hb'

theorem Reads.closed (ha : Reads a ns ls a') (b : String) (hb : isBare b = true) :
    Reads (a ++ b) ns ls (a' ++ b) := by
  obtain ⟨bare, ns', ls', ha, ha'⟩ := ha
  refine ⟨bare ++ b.toList, ns', ls', ?_, ?_⟩
  · simpa [append_def, ofBare] using ha.closed hb
  · simpa [append_def, ofBare] using ha'.closed hb

theorem Reads.behind (glue : String) (hglue : isGlue glue = true) (hb : Reads b ms ks b') :
    Reads (glue ++ b) ms ks (glue ++ b') := by
  have hempty : Reads "" [] [] "" := reads_bare rfl
  simpa using hempty.glued glue hglue hb

/-- A whole text is scanned from a place where a token may begin. -/
theorem Reads.scan (h : Reads a ns ls a') : scan? a = some ⟨ns, ls, outside a'⟩ := by
  obtain ⟨bare, ns', ls', ha, ha'⟩ := h
  have hblank : scan? a' = some ⟨ns', ls', bare⟩ := ha' (ofBare [])
  have hbare : outside a' = bare := by rw [outside, hblank]; rfl
  rw [hbare]
  exact ha (ofBare [])

/-! ### Lists -/

/-- Items of a list, one by one. -/
inductive AllRead : List String → List String → List String → List String → Prop
  | nil : AllRead [] [] [] []
  | cons {a a' : String} {ns ms ls ks items items' : List String} :
      Reads a ns ls a' → AllRead items ms ks items' →
      AllRead (a :: items) (ns ++ ms) (ls ++ ks) (a' :: items')

variable {items items' : List String}

theorem Reads.alone (ha : Reads a ns ls a') : AllRead [a] ns ls [a'] := by
  simpa using AllRead.cons ha .nil

theorem AllRead.append (h : AllRead items ns ls items') {more more' : List String}
    (hmore : AllRead more ms ks more') :
    AllRead (items ++ more) (ns ++ ms) (ls ++ ks) (items' ++ more') := by
  induction h with
  | nil => exact hmore
  | cons ha _ ih =>
    rw [List.append_assoc, List.append_assoc]
    exact .cons ha ih

theorem flatMap_const_nil {α β : Type} (xs : List α) : xs.flatMap (fun _ => ([] : List β)) = [] :=
  List.flatMap_eq_nil_iff.mpr fun _ _ => rfl

theorem allRead_map {α : Type} {f : α → String} {blank : α → α} {n l : α → List String}
    (h : ∀ x, Reads (f x) (n x) (l x) (f (blank x))) (xs : List α) :
    AllRead (xs.map f) (xs.flatMap n) (xs.flatMap l) ((xs.map blank).map f) := by
  induction xs with
  | nil => exact .nil
  | cons x xs ih => exact .cons (h x) ih

theorem AllRead.intercalate (h : AllRead items ns ls items') (separator : String)
    (hseparator : isGlue separator = true) :
    Reads (separator.intercalate items) ns ls (separator.intercalate items') := by
  induction h with
  | nil => exact reads_bare rfl
  | cons ha hrest ih =>
    cases hrest with
    | nil => simpa [String.intercalate_singleton] using ha
    | cons hb hrest =>
      rw [String.intercalate_cons_of_ne_nil (List.cons_ne_nil _ _),
        String.intercalate_cons_of_ne_nil (List.cons_ne_nil _ _)]
      exact ha.glued separator hseparator ih

theorem AllRead.commaSeparated (h : AllRead items ns ls items') :
    Reads (commaSeparated items) ns ls (commaSeparated items') :=
  h.intercalate ", " (by decide)

theorem AllRead.tuple (h : AllRead items ns ls items') : Reads (tuple items) ns ls (tuple items') := by
  have hbrackets : Reads ("(" ++ Sql.commaSeparated items ++ ")") ns ls
      ("(" ++ Sql.commaSeparated items' ++ ")") :=
    (Reads.behind "(" (by decide) h.commaSeparated).closed ")" (by decide)
  cases h with
  | nil => exact hbrackets
  | cons ha hrest =>
    cases hrest with
    | nil => simpa [Sql.tuple] using ha
    | cons => exact hbrackets

theorem Reads.clause (ha : Reads a ns ls a') (keyword separator : String) (hkeyword : isGlue keyword = true)
    (hseparator : isGlue separator = true) (h : AllRead items ms ks items') :
    Reads (a ++ clause keyword items separator) (ns ++ ms) (ls ++ ks)
      (a' ++ clause keyword items' separator) := by
  have hlist := ha.glued keyword hkeyword (h.intercalate separator hseparator)
  cases h with
  | nil => simpa [Sql.clause] using ha
  | cons => simpa [Sql.clause, String.append_assoc] using hlist

/-! ### Parts of statements -/

theorem reads_value (v : Json) : Reads (value v) [] (texts v) (value (blankValue v)) := by
  cases v with
  | null => exact reads_bare (by decide)
  | string s => exact reads_literal s ""
  | bool | number | array | object => exact reads_literal _ ""

theorem allRead_idents (names : List String) :
    AllRead (names.map ident) names [] ((names.map fun _ => "").map ident) := by
  have h := allRead_map (fun name => reads_ident name "") names
  simpa only [List.flatMap_singleton', flatMap_const_nil] using h

theorem allRead_values (vs : List Json) :
    AllRead (vs.map value) [] (vs.flatMap texts) ((vs.map blankValue).map value) := by
  have h := allRead_map reads_value vs
  simpa only [flatMap_const_nil] using h

theorem reads_qualified (schema table : String) :
    Reads (qualified schema table) [schema, table] [] (qualified "" "") :=
  (reads_ident schema "").glued "." (by decide) (reads_ident table "")

/-- The system column is a name too, behind the cast that reads it. -/
theorem reads_column (column : String) :
    Reads (if column == "xmin" then "xmin::text::bigint AS \"xmin\"" else ident column) [column] []
      (if blankColumn column == "xmin" then "xmin::text::bigint AS \"xmin\""
        else ident (blankColumn column)) := by
  unfold blankColumn
  split
  · rename_i hxmin
    obtain rfl : column = "xmin" := by simpa using hxmin
    have htext : "xmin::text::bigint AS \"xmin\"" = "xmin::text::bigint AS " ++ ident "xmin" := by decide
    rw [htext]
    exact Reads.behind _ (by decide) (reads_ident "xmin" "xmin")
  · exact reads_ident column ""

theorem reads_projection (columns : List String) :
    Reads (projection columns) columns [] (projection (columns.map blankColumn)) := by
  cases columns with
  | nil => exact reads_bare (by decide)
  | cons column columns =>
    have h := (allRead_map reads_column (column :: columns)).commaSeparated
    rwa [List.flatMap_singleton', flatMap_const_nil] at h

theorem keys_blankRow (row : Row) : (blankRow row).keys = row.keys.map fun _ => "" := by
  simp only [Keyed.keys, blankRow, List.map_map, Function.comp_def]

theorem values_blankRow (row : Row) : (blankRow row).values = row.values.map blankValue := by
  simp only [Keyed.values, blankRow, List.map_map, Function.comp_def]

theorem reads_equation (entry : String × Json) :
    Reads (equation entry) [entry.1] (texts entry.2) (equation ("", blankValue entry.2)) :=
  (reads_ident entry.1 "").glued " = " (by decide) (reads_value entry.2)

theorem allRead_equations (row : Row) :
    AllRead (row.map equation) row.keys (row.values.flatMap texts) ((blankRow row).map equation) := by
  have h := allRead_map reads_equation row
  have hkeys : row.flatMap (fun entry => [entry.1]) = row.keys := List.flatMap_pure_eq_map _ _
  have hvalues : row.flatMap (fun entry => texts entry.2) = row.values.flatMap texts :=
    (List.flatMap_map ..).symm
  rwa [hkeys, hvalues] at h

theorem reads_keyCondition (key : Row) :
    Reads (keyCondition key) key.keys (key.values.flatMap texts) (keyCondition (blankRow key)) := by
  cases key with
  | nil => exact reads_bare (by decide)
  | cons entry key => exact (allRead_equations (entry :: key)).intercalate " AND " (by decide)

theorem allRead_filterConditions (f : Filter) :
    AllRead (filterConditions f) f.names (f.values.flatMap texts) (filterConditions f.blank) := by
  match f with
  | .all => exact .nil
  | .among columns [] => exact (reads_bare (by decide)).alone
  | .among columns (t :: ts) =>
    have htuple (t : List Json) : Reads (tuple (t.map value)) [] (t.flatMap texts)
        (tuple ((t.map blankValue).map value)) := (allRead_values t).tuple
    have hvalues := (allRead_map htuple (t :: ts)).commaSeparated
    rw [flatMap_const_nil] at hvalues
    have hcondition := ((allRead_idents columns).tuple.glued " IN (" (by decide) hvalues).closed
      ")" (by decide)
    have htexts : (t :: ts).flatten.flatMap texts = (t :: ts).flatMap fun t => t.flatMap texts := by
      rw [List.flatten_eq_flatMap, List.flatMap_assoc]
      rfl
    rw [List.append_nil, List.nil_append, ← htexts] at hcondition
    exact hcondition.alone

theorem allRead_cursorConditions (orderBy : List String) (after : Option (List Json)) :
    AllRead (cursorConditions orderBy after) (if after.isSome then orderBy else [])
      ((after.getD []).flatMap texts)
      (cursorConditions (orderBy.map fun _ => "") (after.map (List.map blankValue))) := by
  cases after with
  | none => exact .nil
  | some after =>
    have horder := Reads.behind "(" (by decide) (allRead_idents orderBy).commaSeparated
    have hafter := (horder.glued ") > (" (by decide) (allRead_values after).commaSeparated).closed
      ")" (by decide)
    rw [List.append_nil, List.nil_append] at hafter
    exact hafter.alone

/-! ### Statements -/

theorem isBare_append (a b : String) : isBare (a ++ b) = (isBare a && isBare b) := by
  simp only [isBare, String.toList_append, List.all_append]

theorem isBare_toString (n : Nat) : isBare (toString n) = true := by
  refine List.all_eq_true.mpr fun c hc => ?_
  have hdigit : c.isDigit = true := by
    rw [Nat.toString_eq_repr, Nat.toList_repr] at hc
    exact Nat.isDigit_of_mem_toDigits (by decide) (by decide) hc
  simp [isPlain, isWord, Char.isAlphanum, hdigit]

theorem isBare_limit (limit : Option Nat) :
    isBare (match limit with | some n => " LIMIT " ++ toString n | none => "") = true := by
  cases limit with
  | none => rfl
  | some n =>
    have hkeyword : isBare " LIMIT " = true := by decide
    simp only [isBare_append, hkeyword, isBare_toString, Bool.and_self]

theorem reads_select (schema : String) (s : Select) :
    Reads (render schema (.select s)) ((Query.select s).names schema) (Query.select s).literals
      (render "" (Query.select s).blank) := by
  have hfrom := (Reads.behind "SELECT " (by decide) (reads_projection s.columns)).glued " FROM " (by decide)
    (reads_qualified schema s.table)
  have hwhere := hfrom.clause " WHERE " " AND " (by decide) (by decide)
    ((allRead_filterConditions s.filter).append (allRead_cursorConditions s.orderBy s.after))
  have horder := hwhere.clause " ORDER BY " ", " (by decide) (by decide) (allRead_idents s.orderBy)
  have hlimit := horder.closed _ (isBare_limit s.limit)
  simp only [List.nil_append, List.append_nil] at hlimit
  exact hlimit

/-- One case a kind of statement: its parts in the order of its text. -/
theorem reads_render (schema : String) (q : Query) :
    Reads (render schema q) (q.names schema) q.literals (render "" q.blank) := by
  cases q with
  | select s => exact reads_select schema s
  | insert table row =>
    have hcolumns := (Reads.behind "INSERT INTO " (by decide) (reads_qualified schema table)).glued " ("
      (by decide) (allRead_idents row.keys).commaSeparated
    have hvalues := (hcolumns.glued ") VALUES (" (by decide)
      (allRead_values row.values).commaSeparated).closed ") RETURNING *" (by decide)
    simp only [List.nil_append, List.append_nil, ← keys_blankRow, ← values_blankRow] at hvalues
    exact hvalues
  | update table key values =>
    have hset := (Reads.behind "UPDATE " (by decide) (reads_qualified schema table)).glued " SET " (by decide)
      (allRead_equations values).commaSeparated
    exact (hset.glued " WHERE " (by decide) (reads_keyCondition key)).closed " RETURNING *" (by decide)
  | delete table key =>
    have hfrom := Reads.behind "DELETE FROM " (by decide) (reads_qualified schema table)
    exact (hfrom.glued " WHERE " (by decide) (reads_keyCondition key)).closed " RETURNING *" (by decide)

/-- What the scan finds in the text of a statement: the names of its tables and columns, the texts of its
values, each whole and in its place, and outside the quotes what stands there for any statement of its
shape. -/
theorem scan_render (schema : String) (q : Query) :
    scan? (render schema q) = some ⟨q.names schema, q.literals, outside (render "" q.blank)⟩ :=
  (reads_render schema q).scan

example : scan? (render "s" (.delete "a\"" [("k", .string "'")])) =
    some ⟨["s", "a\"", "k"], ["'"], "DELETE FROM \".\" WHERE \" = ' RETURNING *".toList⟩ := by decide

end Sql

end DocSync
