import DocSync.Change.Record
import DocSync.Json.Parser
import DocSync.Relation.Schema
import DocSync.Text.Blank
import DocSync.Text.Quoted
import DocSync.Text.Split

/-!
Lines of a logical replication slot.  A change line names its table and kind and then lists
`name[type]:literal` items, after `old-key:` also those of the key that an update left.
-/

namespace DocSync.Log

/-- A `table …:` line. -/
structure Change where
  schema : String
  table : String
  kind : ChangeKind
  /-- The key that an update left. -/
  oldKey : Option Row
  /-- The new row; for a delete its key. -/
  tuple : Row
  /-- Whether some column was not sent because its stored value did not change. -/
  partialRow : Bool
deriving Repr, Inhabited

/-- What a line reports. -/
inductive Line where
  | begin
  | commit
  | change (change : Change)
  | other
deriving Repr, Inhabited

inductive LineError where
  | noTableEnd (line : List Char)
  | unqualifiedTable (name : List Char)
  | noAction (line : List Char)
  | oldKeyAlone (line : List Char)
  | noColumnType (text : List Char)
  | unclosedName (text : List Char)
  | noType (column : List Char)
  | unclosedType (column : List Char)
  | unclosedLiteral (text : List Char)
deriving DecidableEq, Repr

def LineError.message : LineError → String
  | noTableEnd line => "missing table terminator in " ++ Text.display line
  | unqualifiedTable name => "unqualified table name " ++ Text.display name
  | noAction line => "missing action in " ++ Text.display line
  | oldKeyAlone line => "old-key without new-tuple in " ++ Text.display line
  | noColumnType text => "missing column type in " ++ Text.display text
  | unclosedName text => "unterminated quoted identifier in " ++ Text.display text
  | noType column => "missing type for column " ++ String.ofList column
  | unclosedType column => "unterminated type for column " ++ String.ofList column
  | unclosedLiteral text => "unterminated literal in " ++ Text.display text

/-- The text of a value as it stands in a line. -/
inductive Literal where
  | quoted (text : List Char)
  | bare (token : List Char)
deriving DecidableEq, Repr

/-- A signed 64-bit integer: an optional sign and digits. -/
def integer? (text : List Char) : Option Int :=
  let (negative, digits) := match text with
    | '-' :: rest => (true, rest)
    | '+' :: rest => (false, rest)
    | _ => (false, text)
  if digits.isEmpty || !digits.all Char.isDigit then none
  else
    let n : Int := Numeral.natOfDigits digits
    let value := if negative then -n else n
    if -(1 <<< 63 : Nat) ≤ value ∧ value < (1 <<< 63 : Nat) then some value else none

/-- The exponent of a decimal numeral: nothing written counts as zero. -/
def exponent? : List Char → Option Int
  | [] => some 0
  | mark :: rest =>
    if mark == 'e' || mark == 'E' then
      let (negative, digits) := match rest with
        | '-' :: ds => (true, ds)
        | '+' :: ds => (false, ds)
        | _ => (false, rest)
      if digits.isEmpty || !digits.all Char.isDigit then none
      else
        let n : Int := Numeral.natOfDigits digits
        some (if negative then -n else n)
    else none

/-- Exponents further out than this make zero or no finite number, whatever 64-bit texts hold. -/
def exponentBound : Int := 100000

/-- A finite decimal numeral, rounded to the nearest binary64 number.  Digits may be missing on one
side of the point. -/
def double? (text : List Char) : Option Double :=
  let (negative, body) := match text with
    | '-' :: rest => (true, rest)
    | '+' :: rest => (false, rest)
    | _ => (false, text)
  let whole := body.takeWhile Char.isDigit
  let rest := body.dropWhile Char.isDigit
  let (fraction, rest) := match rest with
    | '.' :: rest => (rest.takeWhile Char.isDigit, rest.dropWhile Char.isDigit)
    | _ => ([], rest)
  if whole.isEmpty && fraction.isEmpty then none
  else
    match exponent? rest with
    | none => none
    | some e =>
      let digits := Numeral.natOfDigits (whole ++ fraction)
      let scale := e - fraction.length
      if digits == 0 then some ⟨negative, 0⟩
      else if scale > exponentBound then none
      else if scale + (whole ++ fraction).length < -exponentBound then some ⟨negative, 0⟩
      else Double.ofDecimal? negative digits scale

/-- The value of a literal's text by the column's type; a text its type cannot read stays text. -/
def typedValue (type : String) (text : List Char) : Json :=
  let asText := Json.string (String.ofList text)
  match type with
  | "smallint" | "integer" | "bigint" =>
    match integer? text with
    | some i => .ofInt i
    | none => asText
  | "real" | "double precision" =>
    match double? text with
    | some d => .number (.double d)
    | none => asText
  | "boolean" => .bool (text == "true".toList)
  | "json" | "jsonb" => (Json.parse? (String.ofList text)).getD asText
  | _ => asText

/-- A column's name: quoted, or what stands before the bracket. -/
def takeName (text : List Char) : Except LineError (List Char × List Char) :=
  match text with
  | '"' :: rest =>
    match Text.delimited '"' rest with
    | some result => .ok result
    | none => .error (.unclosedName text)
  | _ =>
    if text.contains '[' then .ok (text.takeWhile (· ≠ '['), text.dropWhile (· ≠ '['))
    else .error (.noColumnType text)

/-- A column's value: quoted, or what stands before the next space. -/
def takeLiteral (text : List Char) : Except LineError (Literal × List Char) :=
  match text with
  | '\'' :: rest =>
    match Text.delimited '\'' rest with
    | some (value, after) => .ok (.quoted value, after)
    | none => .error (.unclosedLiteral text)
  | _ => .ok (.bare (text.takeWhile (· ≠ ' ')), text.dropWhile (· ≠ ' '))

/-- One item of a tuple. -/
structure Item where
  name : List Char
  type : List Char
  literal : Literal
deriving DecidableEq, Repr

/-- The first item of a text and what follows it. -/
def takeItem (text : List Char) : Except LineError (Item × List Char) :=
  match takeName text with
  | .error e => .error e
  | .ok (name, '[' :: rest) =>
    match Text.cut? "]:".toList rest with
    | none => .error (.unclosedType name)
    | some (type, rest) =>
      match takeLiteral rest with
      | .error e => .error e
      | .ok (literal, rest) => .ok (⟨name, type, literal⟩, rest)
  | .ok (name, _) => .error (.noType name)

theorem length_takeName_le {text name rest : List Char} (h : takeName text = .ok (name, rest)) :
    rest.length ≤ text.length := by
  unfold takeName at h
  split at h
  · split at h
    · rename_i result hr
      simp only [Except.ok.injEq] at h
      subst h
      have := Text.length_delimited_lt hr
      simp only [List.length_cons]
      omega
    · simp at h
  · split at h
    · simp only [Except.ok.injEq, Prod.mk.injEq] at h
      rw [← h.2]
      exact (List.dropWhile_sublist _).length_le
    · simp at h

theorem length_takeLiteral_le {text rest : List Char} {literal : Literal}
    (h : takeLiteral text = .ok (literal, rest)) : rest.length ≤ text.length := by
  unfold takeLiteral at h
  split at h
  · split at h
    · rename_i hr
      simp only [Except.ok.injEq, Prod.mk.injEq] at h
      have := Text.length_delimited_lt hr
      rw [← h.2]
      simp only [List.length_cons]
      omega
    · simp at h
  · simp only [Except.ok.injEq, Prod.mk.injEq] at h
    rw [← h.2]
    exact (List.dropWhile_sublist _).length_le

/-- An item takes something off the text. -/
theorem length_takeItem_lt {text rest : List Char} {item : Item}
    (h : takeItem text = .ok (item, rest)) : rest.length < text.length := by
  unfold takeItem at h
  split at h
  · simp at h
  · rename_i name after hn
    split at h
    · simp at h
    · rename_i type value hc
      split at h
      · simp at h
      · rename_i literal last hl
        simp only [Except.ok.injEq, Prod.mk.injEq] at h
        have h1 := length_takeName_le hn
        have h2 := Text.length_cut?_le hc
        have h3 := length_takeLiteral_le hl
        rw [← h.2]
        simp only [List.length_cons] at h1
        omega
  · simp at h

/-- The items of a tuple, which stand apart by white space. -/
def items (text : List Char) : Except LineError (List Item) :=
  if Text.trimStart text = [] then .ok []
  else
    match _h : takeItem (Text.trimStart text) with
    | .error e => .error e
    | .ok (item, rest) => (items rest).map (item :: ·)
termination_by text.length
decreasing_by
  exact Nat.lt_of_lt_of_le (length_takeItem_lt ‹_›) (Text.length_trimStart_le text)

/-- What stands for a column whose stored value did not change. -/
def unchangedMark : List Char := "unchanged-toast-datum".toList

/-- Adds the columns of a tuple; an unchanged one is left out and makes the row incomplete. -/
def addItem (row : Row × Bool) (item : Item) : Row × Bool :=
  let put (value : Json) : Row × Bool := (row.1.put (String.ofList item.name) value, row.2)
  match item.literal with
  | .quoted text => put (typedValue (String.ofList item.type) text)
  | .bare token =>
    if token = "null".toList then put .null
    else if token = unchangedMark then (row.1, true)
    else put (typedValue (String.ofList item.type) token)

/-- A tuple and whether a column is missing from it. -/
def readTuple (text : List Char) : Except LineError (Row × Bool) :=
  (items text).map fun found => found.foldl addItem ([], false)

/-- A name without its double quotes, where it has both. -/
def unquoteName (name : List Char) : List Char :=
  match name with
  | '"' :: rest =>
    if rest.getLast? = some '"' then undouble rest.dropLast else name
  | _ => name
where
  undouble : List Char → List Char
    | '"' :: '"' :: rest => '"' :: undouble rest
    | c :: rest => c :: undouble rest
    | [] => []

/-- The schema and the table of a qualified name, cut at its first point. -/
def splitQualified (name : List Char) : Except LineError (List Char × List Char) :=
  match Text.cut? ['.'] name with
  | some (schema, table) => .ok (unquoteName schema, unquoteName table)
  | none => .error (.unqualifiedTable name)

def kindOfAction? (action : List Char) : Option ChangeKind :=
  if action = "INSERT".toList then some .insert
  else if action = "UPDATE".toList then some .update
  else if action = "DELETE".toList then some .delete
  else none

/-- The old key and the tuple of a line's body, as texts. -/
def splitBody (line body : List Char) : Except LineError (Option (List Char) × List Char) :=
  match Text.after? "old-key: ".toList body with
  | some rest =>
    match Text.cut? " new-tuple: ".toList rest with
    | some (old, new) => .ok (some old, new)
    | none => .error (.oldKeyAlone line)
  | none => .ok (none, (Text.after? "new-tuple: ".toList body).getD body)

/-- The change of a line after its action; a tuple in parentheses says that there is no data. -/
def readChange (line schema table : List Char) (kind : ChangeKind) (body : List Char) :
    Except LineError Change := do
  let (old, new) ← splitBody line body
  let (tuple, partialRow) ← if new.head? = some '(' then .ok ([], true) else readTuple new
  let oldKey ← match old with
    | some text => (readTuple text).map fun found => some found.1
    | none => .ok none
  return ⟨String.ofList schema, String.ofList table, kind, oldKey, tuple, partialRow⟩

/-- Reads a line. -/
def readLine (text : String) : Except LineError Line :=
  let line := text.toList
  if (Text.after? "BEGIN".toList line).isSome then .ok .begin
  else if (Text.after? "COMMIT".toList line).isSome then .ok .commit
  else
    match Text.after? "table ".toList line with
    | none => .ok .other
    | some rest =>
      match Text.cut? ": ".toList rest with
      | none => .error (.noTableEnd line)
      | some (qualified, rest) => do
        let (schema, table) ← splitQualified qualified
        match Text.cut? [':'] rest with
        | none => .error (.noAction line)
        | some (action, body) =>
          match kindOfAction? action with
          | none => .ok .other
          | some kind => (readChange line schema table kind (Text.trimStart body)).map .change

/-- The record of a change, keyed by the table's primary key.  A table that is not described or has
no primary key gives none. -/
def Change.record? (change : Change) (described : Option Table) (txid position : Nat) :
    Option ChangeRecord :=
  match described with
  | none => none
  | some table =>
    if table.primaryKey.isEmpty then none
    else
      let keyOf (tuple : Row) : Row :=
        Keyed.ofEntries (table.primaryKey.map fun c => (c, tuple.value c))
      let key := keyOf change.tuple
      let oldKey := (change.oldKey.map keyOf).filter fun old => !old.same key
      let values :=
        if change.kind ≠ .delete ∧ !change.partialRow then some change.tuple else none
      some ⟨change.table, change.kind, key, oldKey, values, txid, position⟩

end DocSync.Log
