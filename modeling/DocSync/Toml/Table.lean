import DocSync.Json.Basic

/-!
Tables of a TOML document while it is read.  A table may be opened by one header only, and no key may
be given twice.
-/

namespace DocSync.Toml

/-- How a table came to be: by its own header, by a longer header, or by a dotted key. -/
inductive TableKind where
  | header
  | implied
  | dotted
deriving DecidableEq, Repr, Inhabited

/-- What a key stands for: a value, a table, or the tables of a repeated header. -/
inductive Item where
  | value (json : Json)
  | table (kind : TableKind) (entries : List (String × Item))
  | tables (items : List (List (String × Item)))
deriving Repr, Inhabited

abbrev Entries := Keyed Item

namespace Entries

/-- Changes the table at the end of a path, where missing tables of kind `new` appear.  The path goes
through the last table of a repeated header; a dotted key goes through no table with a header. -/
def change (new : TableKind) (f : TableKind → Entries → Option Entries) :
    List String → TableKind → Entries → Option Entries
  | [], kind, entries => f kind entries
  | key :: path, _, entries =>
    match Keyed.get? entries key with
    | none => (change new f path new []).map fun inner => entries ++ [(key, .table new inner)]
    | some (.value _) => none
    | some (.table kind inner) =>
      if new = .dotted ∧ kind = .header then none
      else (change new f path kind inner).map fun inner => Keyed.put entries key (.table kind inner)
    | some (.tables items) =>
      match items.getLast? with
      | none => none
      | some last =>
        (change new f path .header last).map fun inner =>
          Keyed.put entries key (.tables (items.dropLast ++ [inner]))

/-- Adds a key that is not there yet. -/
def add (entries : Entries) (key : String) (item : Item) : Option Entries :=
  if entries.contains key then none else some (entries ++ [(key, item)])

/-- Sets a key with a path before it.  Tables of dotted keys take only keys with a path, all others
only keys without one. -/
def set (entries : Entries) (path : List String) (key : String) (json : Json) : Option Entries :=
  change .dotted (fun kind inner =>
    if (kind == .dotted) == path.isEmpty then none else add inner key (.value json)) path .header entries

end Entries

mutual

def Item.toJson : Item → Json
  | .value json => json
  | .table _ entries => .object (entriesJson entries)
  | .tables items => .array (tablesJson items)

def entriesJson : List (String × Item) → List (String × Json)
  | [] => []
  | (key, item) :: rest => (key, item.toJson) :: entriesJson rest

def tablesJson : List (List (String × Item)) → List Json
  | [] => []
  | entries :: rest => .object (entriesJson entries) :: tablesJson rest

end

/-- A document with the table that is being filled: where it belongs, and whether its header is a
repeated one. -/
structure Draft where
  root : Entries
  path : List String
  repeats : Bool
  current : Entries
deriving Repr, Inhabited

namespace Draft

def empty : Draft := ⟨[], [], false, []⟩

/-- Puts the current table in its place. -/
def close (d : Draft) : Option Entries :=
  match d.path.getLast? with
  | none => some d.current
  | some key =>
    Entries.change .implied (fun _ inner =>
      if d.repeats then
        match Keyed.get? inner key with
        | none => some (inner ++ [(key, .tables [d.current])])
        | some (.tables items) => some (Keyed.put inner key (.tables (items ++ [d.current])))
        | some _ => none
      else Entries.add inner key (.table .header d.current)) d.path.dropLast .header d.root

/-- Opens a table by its header; one that longer headers implied is taken over. -/
def openTable (d : Draft) (path : List String) : Option Draft := do
  let root ← d.close
  let key ← path.getLast?
  let find (_ : TableKind) (inner : Entries) : Option Entries :=
    match Keyed.get? inner key with
    | none | some (.table .implied _) => some inner
    | some _ => none
  let root ← Entries.change .implied find path.dropLast .header root
  let taken := lookUp path root
  let root ← Entries.change .implied (fun _ inner => some (Keyed.erase inner key)) path.dropLast
    .header root
  return ⟨root, path, false, taken⟩
where
  /-- The entries of the table at a path. -/
  lookUp : List String → Entries → Entries
    | [], entries => entries
    | key :: path, entries =>
      match Keyed.get? entries key with
      | some (.table _ inner) => lookUp path inner
      | some (.tables items) => lookUp path (items.getLastD [])
      | _ => []

/-- Opens a further table of a repeated header. -/
def openRepeated (d : Draft) (path : List String) : Option Draft := do
  let root ← d.close
  let key ← path.getLast?
  let root ← Entries.change .implied (fun _ inner =>
    match Keyed.get? inner key with
    | none | some (.tables _) => some inner
    | some _ => none) path.dropLast .header root
  return ⟨root, path, true, []⟩

/-- Sets a key of the current table. -/
def set (d : Draft) (path : List String) (key : String) (json : Json) : Option Draft :=
  (d.current.set path key json).map fun current => { d with current := current }

end Draft

end DocSync.Toml
