import DocSync.Node.Declaration
import DocSync.Proofs.Except
import DocSync.Proofs.Keyed
import Mathlib.Data.List.Forall2

/-!
Reading node declarations.  A declaration is a tree of levels, and each level is checked for a few things in a fixed
order.  Main statement: a declaration is read exactly if all its levels pass, the node then says what the declaration
says, and otherwise the error is that of the first level, in pre-order, that does not pass, at its first check that
fails.
-/

namespace DocSync

/-! ### The first fault of a list -/

/-- A fault of the first item of a list that does not pass. -/
inductive FirstFault {α ε : Type} (passes : α → Prop) (fault : α → ε → Prop) : List α → ε → Prop
  | here {a : α} {rest : List α} {e : ε} (h : fault a e) : FirstFault passes fault (a :: rest) e
  | later {a : α} {rest : List α} {e : ε} (ha : passes a) (h : FirstFault passes fault rest e) :
      FirstFault passes fault (a :: rest) e

/-- A result is a value exactly if what was read passes, and an error exactly if that is a fault of it. -/
structure Judges {ε γ : Type} (passes : Prop) (fault : ε → Prop) (result : Except ε γ) : Prop where
  ok : (∃ c, result = .ok c) ↔ passes
  error : ∀ e, result = .error e ↔ fault e

section FirstFault

variable {α ε γ δ : Type} {passes : α → Prop} {fault : α → ε → Prop} {a : α} {items others : List α} {e : ε}

theorem not_firstFault_nil : ¬ FirstFault passes fault [] e := fun h => nomatch h

theorem firstFault_cons :
    FirstFault passes fault (a :: items) e ↔ fault a e ∨ passes a ∧ FirstFault passes fault items e := by
  constructor
  · rintro (h | ⟨ha, h⟩)
    · exact .inl h
    · exact .inr ⟨ha, h⟩
  · rintro (h | ⟨ha, h⟩)
    · exact .here h
    · exact .later ha h

theorem firstFault_append : FirstFault passes fault (items ++ others) e ↔
    FirstFault passes fault items e ∨ (∀ a ∈ items, passes a) ∧ FirstFault passes fault others e := by
  induction items with
  | nil => simp [not_firstFault_nil]
  | cons a items ih => simp only [List.cons_append, firstFault_cons, ih, List.forall_mem_cons]; tauto

namespace Judges

theorem value {p : Prop} {f : ε → Prop} (c : γ) (hp : p) (hf : ∀ e, ¬ f e) : Judges p f (.ok c : Except ε γ) :=
  ⟨⟨fun _ => hp, fun _ => ⟨c, rfl⟩⟩, fun e => ⟨nofun, fun h => absurd h (hf e)⟩⟩

theorem failure {p : Prop} {f : ε → Prop} {e : ε} (hp : ¬ p) (he : f e) (hunique : ∀ e', f e' → e' = e) :
    Judges p f (.error e : Except ε γ) := by
  refine ⟨⟨nofun, fun h => absurd h hp⟩, fun e' => ⟨fun h => ?_, fun h => ?_⟩⟩
  · obtain rfl := Except.error.inj h
    exact he
  · rw [hunique e' h]

theorem done (c : γ) : Judges (∀ a ∈ [], passes a) (FirstFault passes fault []) (.ok c : Except ε γ) :=
  value c (by simp) fun _ => not_firstFault_nil

theorem congr {passes' : Prop} {fault' : ε → Prop} {p : Prop} {f : ε → Prop} {result : Except ε γ}
    (h : Judges p f result) (hp : p ↔ passes') (hf : ∀ e, f e ↔ fault' e) : Judges passes' fault' result :=
  ⟨h.ok.trans hp, fun e => (h.error e).trans (hf e)⟩

theorem map {p : Prop} {f : ε → Prop} {result : Except ε γ} (h : Judges p f result) (g : γ → δ) :
    Judges p f (result >>= fun c => .ok (g c)) := by
  cases result with
  | error e => exact .failure (fun hp => nomatch h.ok.mpr hp) ((h.error e).mp rfl) fun e' he =>
      (Except.error.inj ((h.error e').mpr he)).symm
  | ok c => exact .value (g c) (h.ok.mp ⟨c, rfl⟩) fun e he => nomatch (h.error e).mpr he

/-- One computation after the other: the second is reached where the first succeeds. -/
theorem bind {p q : Prop} {f g : ε → Prop} {first : Except ε γ} {next : γ → Except ε δ} (hfirst : Judges p f first)
    (hnext : ∀ c, first = .ok c → Judges q g (next c)) :
    Judges (p ∧ q) (fun e => f e ∨ p ∧ g e) (first >>= next) := by
  cases first with
  | error e =>
    have hp : ¬ p := fun h => nomatch hfirst.ok.mpr h
    refine ⟨⟨nofun, fun h => absurd h.1 hp⟩, fun e' => ?_⟩
    show _ ↔ f e' ∨ p ∧ g e'
    rw [or_iff_left fun h => hp h.1]
    refine Iff.trans ⟨fun h => ?_, fun h => ?_⟩ (hfirst.error e')
    · exact congrArg _ (Except.error.inj h)
    · exact congrArg _ (Except.error.inj h)
  | ok c =>
    have hp : p := hfirst.ok.mp ⟨c, rfl⟩
    refine ⟨(hnext c rfl).ok.trans ⟨fun h => ⟨hp, h⟩, And.right⟩, fun e => ((hnext c rfl).error e).trans ?_⟩
    exact ⟨fun h => .inr ⟨hp, h⟩, fun h => (h.resolve_left fun h => nomatch (hfirst.error e).mpr h).2⟩

/-- The checks of a list are made one after the other. -/
theorem cons {first : Except ε γ} {next : γ → Except ε δ} (hfirst : Judges (passes a) (fault a) first)
    (hnext : ∀ c, first = .ok c → Judges (∀ b ∈ items, passes b) (FirstFault passes fault items) (next c)) :
    Judges (∀ b ∈ a :: items, passes b) (FirstFault passes fault (a :: items)) (first >>= next) :=
  (hfirst.bind hnext).congr List.forall_mem_cons.symm fun _ => firstFault_cons.symm

theorem append {first : Except ε γ} {next : γ → Except ε δ}
    (hfirst : Judges (∀ b ∈ items, passes b) (FirstFault passes fault items) first)
    (hnext : ∀ c, first = .ok c → Judges (∀ b ∈ others, passes b) (FirstFault passes fault others) (next c)) :
    Judges (∀ b ∈ items ++ others, passes b) (FirstFault passes fault (items ++ others)) (first >>= next) :=
  (hfirst.bind hnext).congr List.forall_mem_append.symm fun _ => firstFault_append.symm

theorem foldlM {step : γ → α → Except ε γ} (h : ∀ c a, Judges (passes a) (fault a) (step c a)) (start : γ) :
    Judges (∀ a ∈ items, passes a) (FirstFault passes fault items) (items.foldlM step start) := by
  induction items generalizing start with
  | nil => exact done start
  | cons a items ih => exact (h start a).cons fun c _ => ih c

end Judges

end FirstFault

namespace Node

variable {path : String} {members : Keyed Json} {e : NodeError}

/-! ### The levels of a declaration -/

/-- The items of the children of a level. -/
def childItems (members : Keyed Json) : List Json :=
  match attribute? members "children" with
  | some (.array items) => items
  | _ => []

/-- The path of a level, once its table is known. -/
def named (path : String) (members : Keyed Json) : String :=
  match attribute? members "table" with
  | some (.string table) => path ++ "(" ++ table ++ ")"
  | _ => path

mutual

/-- The levels of a declaration in pre-order, each with its path. -/
def levels (path : String) : Json → List (String × Json)
  | .object members => (path, .object members) :: levelsOfMembers (named path members) members
  | v => [(path, v)]

def levelsOfMembers (path : String) : List (String × Json) → List (String × Json)
  | [] => []
  | (key, value) :: rest =>
    if key = "children" then
      match value with
      | .array items => levelsOfItems path 0 items
      | _ => []
    else levelsOfMembers path rest

def levelsOfItems (path : String) (index : Nat) : List Json → List (String × Json)
  | [] => []
  | item :: rest =>
    levels (path ++ ".children[" ++ toString index ++ "]") item ++ levelsOfItems path (index + 1) rest

end

/-- What the members of a level are checked for. -/
inductive Check where
  | attributes
  | table
  | columns
  | transform
  | label
  | children
deriving DecidableEq

/-- The checks of a level in their order. -/
def Check.all : List Check := [.attributes, .table, .columns, .transform, .label, .children]

/-- A column and the field that it is renamed to. -/
def IsRename (entry : String × Json) : Prop := ∃ field, entry.2 = .string field ∧ field ≠ ""

/-- A rule of a transform; there is but one. -/
def IsRule (rule : String × Json) : Prop :=
  rule.1 = "rename" ∧ ∃ entries, rule.2 = .object entries ∧ ∀ entry ∈ entries, IsRename entry

/-- What a check asks of the members of a level.  An attribute that is absent or null passes, other than the table. -/
def Check.Passes (members : Keyed Json) : Check → Prop
  | attributes => ∀ key ∈ members.keys, key ∈ Node.attributes
  | table => ∃ name, attribute? members "table" = some (.string name) ∧ name ≠ ""
  | columns => ∀ v, attribute? members "columns" = some v → ∃ names, v = Json.strings names
  | transform => ∀ v, attribute? members "transform" = some v → ∃ rules, v = .object rules ∧ ∀ rule ∈ rules, IsRule rule
  | label => ∀ v, attribute? members "label" = some v → ∃ text, v = .string text
  | children => ∀ v, attribute? members "children" = some v → ∃ items, v = .array items

/-- An object that passes every check. -/
inductive IsLevel : Json → Prop
  | object {members : Keyed Json} (h : ∀ check ∈ Check.all, check.Passes members) : IsLevel (.object members)

/-- A well-formed declaration: every level passes. -/
def WellFormed (v : Json) : Prop := ∀ level ∈ levels "root" v, IsLevel level.2

/-! ### What can be wrong -/

/-- What is wrong with an entry of renames. -/
inductive RenameFault (path : String) : String × Json → NodeError → Prop
  | target {column : String} {v : Json} (h : ¬ IsRename (column, v)) :
      RenameFault path (column, v) (.invalid path (.renameTargetNotText column))

/-- What is wrong with a rule of a transform. -/
inductive RuleFault (path : String) : String × Json → NodeError → Prop
  | unknown {rule : String} {v : Json} (h : rule ≠ "rename") :
      RuleFault path (rule, v) (.invalid path (.unknownRule rule))
  | notAnObject {v : Json} (h : v.object? = none) : RuleFault path ("rename", v) (.invalid path .renameNotObject)
  | entry {entries : Keyed Json} {e : NodeError} (h : FirstFault IsRename (RenameFault path) entries e) :
      RuleFault path ("rename", .object entries) e

/-- What is wrong with the value of a `transform`. -/
inductive TransformFault (path : String) : Json → NodeError → Prop
  | notAnObject {v : Json} (h : v.object? = none) : TransformFault path v (.invalid path .transformNotObject)
  | rule {rules : Keyed Json} {e : NodeError} (h : FirstFault IsRule (RuleFault path) rules e) :
      TransformFault path (.object rules) e

/-- What is wrong with the value of `columns`. -/
inductive ColumnsFault (path : String) : Json → NodeError → Prop
  | notAnArray {v : Json} (h : v.array? = none) : ColumnsFault path v (.invalid path .columnsNotArray)
  | notText {items : List Json} (h : ∃ item ∈ items, item.string? = none) :
      ColumnsFault path (.array items) (.invalid path .columnNotText)

/-- What is wrong with a level that fails a check.  Up to its table a level has the path that led to it. -/
inductive Check.Fault (path : String) (members : Keyed Json) : Check → NodeError → Prop
  | attributes {e : NodeError}
      (h : FirstFault (· ∈ Node.attributes) (fun key e => key ∉ Node.attributes ∧ e = .unknownAttribute path key)
        members.keys e) : Fault path members attributes e
  | missingTable (h : attribute? members "table" = none) : Fault path members table (.missingTable path)
  | tableNotText {v : Json} (h : attribute? members "table" = some v) (hv : ¬ ∃ name, v = .string name ∧ name ≠ "") :
      Fault path members table (.invalid path .tableNotText)
  | columns {v : Json} {e : NodeError} (h : attribute? members "columns" = some v)
      (hv : ColumnsFault (named path members) v e) : Fault path members columns e
  | transform {v : Json} {e : NodeError} (h : attribute? members "transform" = some v)
      (hv : TransformFault (named path members) v e) : Fault path members transform e
  | label {v : Json} (h : attribute? members "label" = some v) (hv : v.string? = none) :
      Fault path members label (.invalid (named path members) .labelNotText)
  | children {v : Json} (h : attribute? members "children" = some v) (hv : v.array? = none) :
      Fault path members children (.invalid (named path members) .childrenNotArray)

/-- What is wrong with a level: it is no object, or the first check fails that it does not pass. -/
inductive LevelFault (path : String) : Json → NodeError → Prop
  | notAnObject {v : Json} (h : v.object? = none) : LevelFault path v (.invalid path .notAnObject)
  | members {members : Keyed Json} {e : NodeError}
      (h : FirstFault (Check.Passes members) (Check.Fault path members) Check.all e) :
      LevelFault path (.object members) e

/-- What is wrong with the first of a list of levels that does not pass. -/
def LevelsFault : List (String × Json) → NodeError → Prop :=
  FirstFault (fun level => IsLevel level.2) fun level => LevelFault level.1 level.2

/-! ### What a node says -/

/-- The entries of all renames of a level. -/
def renameEntries (members : Keyed Json) : Keyed Json :=
  match attribute? members "transform" with
  | some (.object rules) => rules.flatMap fun rule => rule.2.object?.getD []
  | _ => []

/-- The node says what the members of a level say, its children apart.  Renames are kept in the order of their columns;
of a column that is renamed twice the last rename counts. -/
structure MirrorsLevel (members : Keyed Json) (n : Node) : Prop where
  table : attribute? members "table" = some (.string n.table)
  columns : (attribute? members "columns").getD (.array []) = Json.strings n.columns
  label : attribute? members "label" = n.label.map Json.string
  renames : ∃ fields : Keyed String, renameEntries members = fields.map (fun entry => (entry.1, .string entry.2)) ∧
    ∀ column, n.renames.get? column = Keyed.get? fields.reverse column
  sorted : n.renames.keys.Pairwise (· < ·)

/-- The node says what the declaration says, level by level, its children in the order of the items. -/
inductive Mirrors : Json → Node → Prop
  | level {members : Keyed Json} {n : Node} (head : MirrorsLevel members n)
      (children : List.Forall₂ Mirrors (childItems members) n.children) : Mirrors (.object members) n

/-! ### Each check -/

/-- The members of a level have no attribute but known ones. -/
def readAttributes (path : String) (members : Keyed Json) : Except NodeError Unit :=
  match unknownAttribute? members with
  | some key => .error (.unknownAttribute path key)
  | none => .ok ()

theorem firstFault_known {keys : List String} {fault : String → NodeError} :
    FirstFault (· ∈ attributes) (fun key e => key ∉ attributes ∧ e = fault key) keys e ↔
      (keys.find? fun key => !attributes.contains key).map fault = some e := by
  induction keys with
  | nil => simp [not_firstFault_nil]
  | cons key keys ih =>
    rw [firstFault_cons, ih]
    by_cases hkey : key ∈ attributes
    · simp [hkey]
    · simp [hkey, eq_comm]

theorem attributes_fault_iff : Check.Fault path members .attributes e ↔
    (unknownAttribute? members).map (.unknownAttribute path) = some e :=
  ⟨fun | .attributes h => firstFault_known.mp h, fun h => .attributes (firstFault_known.mpr h)⟩

theorem judges_attributes :
    Judges (Check.Passes members .attributes) (Check.Fault path members .attributes) (readAttributes path members) := by
  rw [readAttributes]
  split
  · rename_i key hkey
    refine .failure (fun h => ?_) (attributes_fault_iff.mpr (by rw [hkey]; rfl)) fun e h => ?_
    · have hunknown := List.find?_some hkey
      have hknown := h key (List.mem_of_find?_eq_some hkey)
      simp [hknown] at hunknown
    · rw [attributes_fault_iff, hkey] at h
      exact (Option.some.inj h).symm
  · rename_i hnone
    refine .value () (fun key hkey => ?_) fun e h => ?_
    · simpa using List.find?_eq_none.mp hnone key hkey
    · rw [attributes_fault_iff, hnone] at h
      contradiction

/-- A name that is not empty. -/
theorem readTable_eq_ok {table : String} (h : readTable path members = .ok table) :
    attribute? members "table" = some (.string table) ∧ table ≠ "" := by
  rw [readTable] at h
  split at h
  · contradiction
  · rename_i name hname
    split at h
    · contradiction
    · rename_i hempty
      obtain rfl := Except.ok.inj h
      exact ⟨hname, by simpa using hempty⟩
  · contradiction

theorem named_of_table {table : String} (h : attribute? members "table" = some (.string table)) :
    path ++ "(" ++ table ++ ")" = named path members := by
  rw [named, h]

theorem judges_table :
    Judges (Check.Passes members .table) (Check.Fault path members .table) (readTable path members) := by
  cases h : attribute? members "table" with
  | none =>
    rw [readTable, h]
    refine .failure (fun ⟨_, hname, _⟩ => by simp [h] at hname) (.missingTable h) fun e he => ?_
    cases he with
    | missingTable => rfl
    | tableNotText hv => simp [h] at hv
  | some v =>
    by_cases hv : ∃ name, v = .string name ∧ name ≠ ""
    · obtain ⟨name, rfl, hname⟩ := hv
      simp only [readTable, h, String.isEmpty_iff, hname, if_false]
      refine .value name ⟨name, h, hname⟩ fun e he => ?_
      cases he with
      | missingTable hnone => simp [h] at hnone
      | tableNotText hv hnot =>
        rw [h] at hv
        exact hnot ⟨name, (Option.some.inj hv).symm, hname⟩
    · have hread : readTable path members = .error (.invalid path .tableNotText) := by
        cases v with
        | string name =>
          have hempty : name = "" := by simpa using hv
          simp [readTable, h, hempty]
        | _ => simp [readTable, h]
      rw [hread]
      refine .failure (fun ⟨name, hname, hne⟩ => ?_) (.tableNotText h hv) fun e he => ?_
      · rw [h] at hname
        exact hv ⟨name, Option.some.inj hname, hne⟩
      · cases he with
        | missingTable hnone => simp [h] at hnone
        | tableNotText => rfl

/-- An attribute that need not be there: where it is, its value decides. -/
theorem Judges.attribute {γ : Type} {name : String} {p : Json → Prop} {f : Json → NodeError → Prop}
    {result : Except NodeError γ} (hnone : attribute? members name = none → ∃ c, result = .ok c)
    (hsome : ∀ v, attribute? members name = some v → Judges (p v) (f v) result) :
    Judges (∀ v, attribute? members name = some v → p v) (fun e => ∃ v, attribute? members name = some v ∧ f v e)
      result := by
  cases h : attribute? members name with
  | none =>
    obtain ⟨c, rfl⟩ := hnone h
    exact .value c (by simp) (by simp)
  | some v => exact (hsome v h).congr (by simp) (by simp)

theorem mapM_string?_strings (names : List String) : (names.map Json.string).mapM Json.string? = some names := by
  induction names with
  | nil => rfl
  | cons name names ih =>
    rw [List.map_cons, List.mapM_cons, ih]
    rfl

theorem eq_strings_of_mapM {items : List Json} {names : List String} (h : items.mapM Json.string? = some names) :
    items = names.map Json.string := by
  induction items generalizing names with
  | nil =>
    obtain rfl := Option.some.inj h
    rfl
  | cons item items ih =>
    rw [List.mapM_cons] at h
    obtain ⟨name, hname, h⟩ := Option.bind_eq_some_iff.mp h
    obtain ⟨rest, hrest, h⟩ := Option.bind_eq_some_iff.mp h
    obtain rfl := Option.some.inj h
    rw [ih hrest, List.map_cons]
    cases item with
    | string text =>
      obtain rfl := Option.some.inj hname
      rfl
    | _ => contradiction

theorem exists_not_text {items : List Json} (h : items.mapM Json.string? = none) :
    ∃ item ∈ items, item.string? = none := by
  by_contra hall
  push Not at hall
  have hstrings : items = (items.map fun item => item.string?.getD "").map Json.string := by
    rw [List.map_map]
    refine (List.map_id items).symm.trans (List.map_congr_left fun item hitem => ?_)
    cases item with
    | string text => rfl
    | _ => exact absurd rfl (hall _ hitem)
  rw [hstrings, mapM_string?_strings] at h
  contradiction

theorem judges_columns : Judges (Check.Passes members .columns) (Check.Fault path members .columns)
    (readColumns (named path members) members) := by
  refine (Judges.attribute (f := ColumnsFault (named path members)) (fun h => ⟨[], by rw [readColumns, h]⟩)
    fun v h => ?_).congr Iff.rfl fun e => ⟨fun ⟨v, h, hv⟩ => .columns h hv, fun | .columns h hv => ⟨_, h, hv⟩⟩
  rw [readColumns, h]
  cases v with
  | array items =>
    dsimp only
    split
    · rename_i names hnames
      obtain rfl := eq_strings_of_mapM hnames
      refine .value names ⟨names, rfl⟩ fun e he => ?_
      cases he with
      | notAnArray h => contradiction
      | notText h =>
        obtain ⟨item, hitem, hnone⟩ := h
        obtain ⟨name, -, rfl⟩ := List.mem_map.mp hitem
        contradiction
    · rename_i hnone
      refine .failure (fun ⟨names, hnames⟩ => ?_) (.notText (exists_not_text hnone)) fun e he => ?_
      · rw [Json.array.inj hnames, mapM_string?_strings] at hnone
        contradiction
      · cases he with
        | notAnArray h => contradiction
        | notText => rfl
  | _ => exact .failure nofun (.notAnArray rfl) fun e he => by cases he; rfl

theorem judges_label : Judges (Check.Passes members .label) (Check.Fault path members .label)
    (readLabel (named path members) members) := by
  refine (Judges.attribute (f := fun v e => v.string? = none ∧ e = .invalid (named path members) .labelNotText)
    (fun h => ⟨none, by rw [readLabel, h]⟩) fun v h => ?_).congr Iff.rfl
    fun e => ⟨fun ⟨v, h, hv, he⟩ => he ▸ .label h hv, fun | .label h hv => ⟨_, h, hv, rfl⟩⟩
  rw [readLabel, h]
  cases v with
  | string text => exact .value (some text) ⟨text, rfl⟩ nofun
  | _ => exact .failure nofun ⟨rfl, rfl⟩ fun e he => he.2

/-- The children of a level are an array, where there are any. -/
def readItems (path : String) (members : Keyed Json) : Except NodeError (List Json) :=
  match attribute? members "children" with
  | none => .ok []
  | some (.array items) => .ok items
  | some _ => .error (.invalid path .childrenNotArray)

theorem judges_items : Judges (Check.Passes members .children) (Check.Fault path members .children)
    (readItems (named path members) members) := by
  refine (Judges.attribute (f := fun v e => v.array? = none ∧ e = .invalid (named path members) .childrenNotArray)
    (fun h => ⟨[], by rw [readItems, h]⟩) fun v h => ?_).congr Iff.rfl
    fun e => ⟨fun ⟨v, h, hv, he⟩ => he ▸ .children h hv, fun | .children h hv => ⟨_, h, hv, rfl⟩⟩
  rw [readItems, h]
  cases v with
  | array items => exact .value items ⟨items, rfl⟩ nofun
  | _ => exact .failure nofun ⟨rfl, rfl⟩ fun e he => he.2

theorem readItems_eq_ok {items : List Json} (h : readItems path members = .ok items) : items = childItems members := by
  rw [readItems] at h
  rw [childItems]
  cases hchildren : attribute? members "children" with
  | none =>
    rw [hchildren] at h
    exact (Except.ok.inj h).symm
  | some v =>
    rw [hchildren] at h
    cases v with
    | array found => exact (Except.ok.inj h).symm
    | _ => contradiction

theorem judges_renames (entries : Keyed Json) (renames : Keyed String) :
    Judges (∀ entry ∈ entries, IsRename entry) (FirstFault IsRename (RenameFault path) entries)
      (readRenames path entries renames) := by
  refine .foldlM (fun renames (column, v) => ?_) renames
  have hfail (h : ¬ IsRename (column, v)) : Judges (γ := Keyed String) (IsRename (column, v))
      (RenameFault path (column, v)) (.error (.invalid path (.renameTargetNotText column))) :=
    .failure h (.target h) fun e he => by cases he; rfl
  cases v with
  | string field =>
    by_cases hfield : field = ""
    · simp only [hfield] at hfail ⊢
      exact hfail (by simp [IsRename])
    · simp only [String.isEmpty_iff, hfield, if_false]
      exact .value _ ⟨field, rfl, hfield⟩ fun e he => by
        cases he with
        | target h => exact h ⟨field, rfl, hfield⟩
  | _ => exact hfail nofun

/-- Adds the renames of a rule. -/
def readRule (path : String) (renames : Keyed String) : String × Json → Except NodeError (Keyed String)
  | (rule, body) =>
    if rule != "rename" then .error (.invalid path (.unknownRule rule))
    else
      match body with
      | .object entries => readRenames path entries renames
      | _ => .error (.invalid path .renameNotObject)

theorem judges_rule (renames : Keyed String) (rule : String × Json) :
    Judges (IsRule rule) (RuleFault path rule) (readRule path renames rule) := by
  obtain ⟨rule, body⟩ := rule
  by_cases hrule : rule = "rename"
  · subst hrule
    cases body with
    | object entries =>
      refine (judges_renames entries renames).congr ⟨fun h => ⟨rfl, entries, rfl, h⟩, fun ⟨_, _, he, h⟩ => ?_⟩
        fun e => ⟨.entry, fun h => ?_⟩
      · exact Json.object.inj he ▸ h
      · cases h with
        | unknown h => contradiction
        | notAnObject h => contradiction
        | entry h => exact h
    | _ =>
      refine .failure (fun ⟨_, _, h, _⟩ => nomatch h) (.notAnObject rfl) fun e he => ?_
      cases he with
      | unknown h => contradiction
      | notAnObject => rfl
  · have hread : readRule path renames (rule, body) = .error (.invalid path (.unknownRule rule)) := by
      simp [readRule, hrule]
    rw [hread]
    refine .failure (fun h => hrule h.1) (.unknown hrule) fun e he => ?_
    cases he with
    | unknown => rfl
    | notAnObject => contradiction
    | entry => contradiction

theorem judges_transform : Judges (Check.Passes members .transform) (Check.Fault path members .transform)
    (readTransform (named path members) members) := by
  refine (Judges.attribute (f := TransformFault (named path members)) (fun h => ⟨[], by rw [readTransform, h]⟩)
    fun v h => ?_).congr Iff.rfl fun e => ⟨fun ⟨v, h, hv⟩ => .transform h hv, fun | .transform h hv => ⟨_, h, hv⟩⟩
  rw [readTransform, h]
  cases v with
  | object rules =>
    have hrules : Judges (∀ rule ∈ rules, IsRule rule) (FirstFault IsRule (RuleFault (named path members)) rules)
        (rules.foldlM (readRule (named path members)) []) :=
      Judges.foldlM judges_rule []
    refine hrules.congr ⟨fun h => ⟨rules, rfl, h⟩, fun ⟨_, hr, h⟩ => Json.object.inj hr ▸ h⟩ fun e =>
      ⟨.rule, fun h => ?_⟩
    cases h with
    | notAnObject h => contradiction
    | rule h => exact h
  | _ => exact .failure nofun (.notAnObject rfl) fun e he => by cases he; rfl

/-! ### One level -/

/-- A level apart from its children. -/
def readHead (path : String) (members : Keyed Json) : Except NodeError Node := do
  readAttributes path members
  let table ← readTable path members
  let columns ← readColumns (named path members) members
  let renames ← readTransform (named path members) members
  let label ← readLabel (named path members) members
  let _ ← readItems (named path members) members
  return ⟨table, columns, renames, label, []⟩

theorem judges_head :
    Judges (IsLevel (.object members)) (LevelFault path (.object members)) (readHead path members) := by
  have hchecks : Judges (∀ check ∈ Check.all, check.Passes members)
      (FirstFault (Check.Passes members) (Check.Fault path members) Check.all) (readHead path members) :=
    judges_attributes.cons fun _ _ => judges_table.cons fun _ _ => judges_columns.cons fun _ _ =>
      judges_transform.cons fun _ _ => judges_label.cons fun _ _ => judges_items.cons fun _ _ => .done _
  refine hchecks.congr ⟨.object, fun | .object h => h⟩ fun e => ⟨.members, fun h => ?_⟩
  cases h with
  | notAnObject h => contradiction
  | members h => exact h

theorem childrenOfMembers_eq (path : String) (found : Keyed Json) :
    childrenOfMembers path found = readItems path found >>= childrenOfJson path 0 := by
  induction found with
  | nil => rfl
  | cons entry rest ih =>
    obtain ⟨key, v⟩ := entry
    by_cases hkey : key = "children"
    · subst hkey
      cases v <;> rfl
    · have hread : readItems path ((key, v) :: rest) = readItems path rest := by
        simp only [readItems, attribute?, Keyed.get?, hkey, if_false]
      rw [hread, ← ih]
      cases v <;> simp only [childrenOfMembers, hkey, if_false]

theorem ofJsonAt_object (path : String) (members : Keyed Json) : ofJsonAt path (.object members) =
    (readHead path members >>= fun head =>
      childrenOfJson (named path members) 0 (childItems members) >>= fun children =>
        .ok { head with children := children }) := by
  rw [ofJsonAt, readHead, readAttributes]
  cases unknownAttribute? members with
  | some key => rfl
  | none =>
    cases htable : readTable path members with
    | error e => rfl
    | ok table =>
      have hpath : path ++ "(" ++ table ++ ")" = named path members := named_of_table (readTable_eq_ok htable).1
      show (readColumns (path ++ "(" ++ table ++ ")") members >>= _) = _
      rw [hpath, childrenOfMembers_eq]
      cases readColumns (named path members) members with
      | error e => rfl
      | ok columns =>
        cases readTransform (named path members) members with
        | error e => rfl
        | ok renames =>
          cases readLabel (named path members) members with
          | error e => rfl
          | ok label =>
            cases hitems : readItems (named path members) members with
            | error e => rfl
            | ok items =>
              rw [readItems_eq_ok hitems]
              rfl

/-! ### What a level says -/

theorem readColumns_eq_ok {columns : List String} (h : readColumns path members = .ok columns) :
    (attribute? members "columns").getD (.array []) = Json.strings columns := by
  rw [readColumns] at h
  split at h
  · rename_i hnone
    obtain rfl := Except.ok.inj h
    rw [hnone]
    rfl
  · rename_i items hitems
    split at h
    · rename_i names hnames
      obtain rfl := Except.ok.inj h
      rw [hitems, eq_strings_of_mapM hnames]
      rfl
    · contradiction
  · contradiction

theorem readLabel_eq_ok {label : Option String} (h : readLabel path members = .ok label) :
    attribute? members "label" = label.map Json.string := by
  rw [readLabel] at h
  split at h
  · rename_i hnone
    obtain rfl := Except.ok.inj h
    exact hnone
  · rename_i text htext
    obtain rfl := Except.ok.inj h
    exact htext
  · contradiction

/-- Fields as the entries of renames. -/
def fieldEntries (fields : Keyed String) : Keyed Json := fields.map fun entry => (entry.1, .string entry.2)

/-- Renames with more of them put in turn. -/
def putFields (renames fields : Keyed String) : Keyed String :=
  fields.foldl (fun renames entry => renames.putSorted entry.1 entry.2) renames

theorem readRenames_eq_ok {entries : Keyed Json} {renames found : Keyed String}
    (h : readRenames path entries renames = .ok found) :
    ∃ fields, entries = fieldEntries fields ∧ found = putFields renames fields := by
  induction entries generalizing renames with
  | nil => exact ⟨[], rfl, (Except.ok.inj h).symm⟩
  | cons entry entries ih =>
    obtain ⟨column, v⟩ := entry
    rw [readRenames] at h
    obtain ⟨next, hnext, h⟩ := Except.bind_eq_ok h
    cases v with
    | string field =>
      dsimp only at hnext
      split at hnext
      · contradiction
      · obtain rfl := Except.ok.inj hnext
        obtain ⟨fields, rfl, rfl⟩ := ih h
        exact ⟨(column, field) :: fields, rfl, rfl⟩
    | _ => contradiction

theorem readRule_eq_ok {rule : String × Json} {renames found : Keyed String}
    (h : readRule path renames rule = .ok found) :
    ∃ fields, rule.2.object?.getD [] = fieldEntries fields ∧ found = putFields renames fields := by
  obtain ⟨rule, body⟩ := rule
  by_cases hrule : rule = "rename"
  · subst hrule
    cases body with
    | object entries => exact readRenames_eq_ok h
    | _ => contradiction
  · simp [readRule, hrule] at h

theorem readRules_eq_ok {rules : Keyed Json} {renames found : Keyed String}
    (h : rules.foldlM (readRule path) renames = .ok found) :
    ∃ fields, (rules.flatMap fun rule => rule.2.object?.getD []) = fieldEntries fields ∧
      found = putFields renames fields := by
  induction rules generalizing renames with
  | nil => exact ⟨[], rfl, (Except.ok.inj h).symm⟩
  | cons rule rules ih =>
    obtain ⟨next, hnext, h⟩ := Except.bind_eq_ok h
    obtain ⟨first, hfirst, rfl⟩ := readRule_eq_ok hnext
    obtain ⟨fields, hfields, rfl⟩ := ih h
    refine ⟨first ++ fields, ?_, ?_⟩
    · rw [List.flatMap_cons, hfirst, hfields, fieldEntries, fieldEntries, fieldEntries, List.map_append]
    · rw [putFields, putFields, putFields, List.foldl_append]

theorem readTransform_eq_ok {renames : Keyed String} (h : readTransform path members = .ok renames) :
    ∃ fields, renameEntries members = fieldEntries fields ∧ renames = putFields [] fields := by
  rw [readTransform] at h
  rw [renameEntries]
  cases htransform : attribute? members "transform" with
  | none =>
    rw [htransform] at h
    exact ⟨[], rfl, (Except.ok.inj h).symm⟩
  | some v =>
    rw [htransform] at h
    cases v with
    | object rules => exact readRules_eq_ok h
    | _ => contradiction

theorem get?_putFields (renames fields : Keyed String) (column : String) :
    Keyed.get? (putFields renames fields) column = (Keyed.get? fields.reverse column).or (renames.get? column) := by
  induction fields generalizing renames with
  | nil => rfl
  | cons entry fields ih =>
    rw [List.reverse_cons, Keyed.get?_append]
    show Keyed.get? (putFields (renames.putSorted entry.1 entry.2) fields) column = _
    rw [ih, Keyed.get?_putSorted]
    cases Keyed.get? fields.reverse column with
    | some field => rfl
    | none => by_cases hcolumn : entry.1 = column <;> simp [Keyed.get?, hcolumn]

theorem sorted_putFields {renames fields : Keyed String} (h : renames.keys.Pairwise (· < ·)) :
    (putFields renames fields).keys.Pairwise (· < ·) := by
  induction fields generalizing renames with
  | nil => exact h
  | cons entry fields ih => exact ih (Keyed.sorted_putSorted h entry.1 entry.2)

theorem mirrorsLevel_of_readHead {head : Node} (h : readHead path members = .ok head) (children : List Node) :
    MirrorsLevel members { head with children := children } := by
  obtain ⟨_, -, h⟩ := Except.bind_eq_ok h
  obtain ⟨table, htable, h⟩ := Except.bind_eq_ok h
  obtain ⟨columns, hcolumns, h⟩ := Except.bind_eq_ok h
  obtain ⟨renames, hrenames, h⟩ := Except.bind_eq_ok h
  obtain ⟨label, hlabel, h⟩ := Except.bind_eq_ok h
  obtain ⟨_, -, h⟩ := Except.bind_eq_ok h
  obtain rfl := Except.ok.inj h
  obtain ⟨fields, hfields, rfl⟩ := readTransform_eq_ok hrenames
  refine ⟨(readTable_eq_ok htable).1, readColumns_eq_ok hcolumns, readLabel_eq_ok hlabel,
    ⟨fields, hfields, fun column => ?_⟩,
    sorted_putFields .nil⟩
  rw [get?_putFields]
  exact Option.or_none

/-! ### The tree -/

theorem levelsOfMembers_eq (path : String) (found : Keyed Json) :
    levelsOfMembers path found = levelsOfItems path 0 (childItems found) := by
  induction found with
  | nil => rfl
  | cons entry rest ih =>
    obtain ⟨key, v⟩ := entry
    by_cases hkey : key = "children"
    · subst hkey
      cases v <;> rfl
    · have hitems : childItems ((key, v) :: rest) = childItems rest := by
        simp only [childItems, attribute?, Keyed.get?, hkey, if_false]
      rw [hitems, ← ih]
      cases v <;> simp only [levelsOfMembers, hkey, if_false]

theorem levels_object (path : String) (members : Keyed Json) : levels path (.object members) =
    (path, .object members) :: levelsOfItems (named path members) 0 (childItems members) := by
  rw [levels, levelsOfMembers_eq]

theorem sizeOf_childItems {item : Json} (h : item ∈ childItems members) :
    sizeOf item < sizeOf (Json.object members) := by
  rw [childItems] at h
  split at h
  · rename_i items hitems
    have hget : members.get? "children" = some (.array items) := by
      rw [attribute?] at hitems
      split at hitems
      · contradiction
      · exact hitems
    have hmember := List.sizeOf_lt_of_mem (Keyed.mem_of_get? hget)
    have hitem := List.sizeOf_lt_of_mem h
    simp only [Prod.mk.sizeOf_spec, Json.array.sizeOf_spec, Json.object.sizeOf_spec] at hmember ⊢
    omega
  · contradiction

/-- Induction along the children of levels. -/
theorem level_induction {motive : Json → Prop} (other : ∀ v, v.object? = none → motive v)
    (object : ∀ members, (∀ item ∈ childItems members, motive item) → motive (.object members)) (v : Json) :
    motive v := by
  match v with
  | .object members => exact object members fun item hitem => level_induction other object item
  | .null => exact other _ rfl
  | .bool _ => exact other _ rfl
  | .number _ => exact other _ rfl
  | .string _ => exact other _ rfl
  | .array _ => exact other _ rfl
termination_by sizeOf v
decreasing_by exact sizeOf_childItems hitem

theorem judges_children {items : List Json}
    (h : ∀ item ∈ items, ∀ path, Judges (∀ level ∈ levels path item, IsLevel level.2) (LevelsFault (levels path item))
      (ofJsonAt path item)) (index : Nat) :
    Judges (∀ level ∈ levelsOfItems path index items, IsLevel level.2) (LevelsFault (levelsOfItems path index items))
      (childrenOfJson path index items) := by
  induction items generalizing index with
  | nil => exact .done []
  | cons item rest ih =>
    obtain ⟨hitem, hrest⟩ := List.forall_mem_cons.mp h
    exact (hitem _).append fun child _ => (ih hrest (index + 1)).map (child :: ·)

theorem judges_ofJsonAt (v : Json) : ∀ path, Judges (∀ level ∈ levels path v, IsLevel level.2)
    (LevelsFault (levels path v)) (ofJsonAt path v) := by
  induction v using level_induction with
  | other v hv =>
    intro path
    have hread : ofJsonAt path v = .error (.invalid path .notAnObject) := by cases v <;> first | rfl | contradiction
    have hlevels : levels path v = [(path, v)] := by cases v <;> first | rfl | contradiction
    rw [hread, hlevels]
    refine .failure (fun h => ?_) (.here (.notAnObject hv)) fun e he => ?_
    · cases h _ (List.mem_singleton_self _) with
      | object => contradiction
    · cases he with
      | here h => cases h with
        | notAnObject => rfl
        | members => contradiction
      | later _ h => exact absurd h not_firstFault_nil
  | object members ih =>
    intro path
    rw [ofJsonAt_object, levels_object]
    show Judges _ (FirstFault (fun level : String × Json => IsLevel level.2) (fun level => LevelFault level.1 level.2)
      (_ :: _)) _
    exact Judges.cons judges_head fun head _ =>
      (judges_children ih 0).map fun children => { head with children := children }

theorem mirrors_children {items : List Json} (h : ∀ item ∈ items, ∀ path n, ofJsonAt path item = .ok n → Mirrors item n)
    {index : Nat} {children : List Node} (hread : childrenOfJson path index items = .ok children) :
    List.Forall₂ Mirrors items children := by
  induction items generalizing index children with
  | nil =>
    obtain rfl := Except.ok.inj hread
    exact .nil
  | cons item rest ih =>
    obtain ⟨hitem, hrest⟩ := List.forall_mem_cons.mp h
    obtain ⟨child, hchild, hread⟩ := Except.bind_eq_ok hread
    obtain ⟨others, hothers, hread⟩ := Except.bind_eq_ok hread
    obtain rfl := Except.ok.inj hread
    exact .cons (hitem _ _ hchild) (ih hrest hothers)

theorem mirrors_ofJsonAt (v : Json) : ∀ path n, ofJsonAt path v = .ok n → Mirrors v n := by
  induction v using level_induction with
  | other v hv =>
    intro path n h
    have hread : ofJsonAt path v = .error (.invalid path .notAnObject) := by cases v <;> first | rfl | contradiction
    rw [hread] at h
    contradiction
  | object members ih =>
    intro path n h
    rw [ofJsonAt_object] at h
    obtain ⟨head, hhead, h⟩ := Except.bind_eq_ok h
    obtain ⟨children, hchildren, h⟩ := Except.bind_eq_ok h
    obtain rfl := Except.ok.inj h
    exact .level (mirrorsLevel_of_readHead hhead children) (mirrors_children ih hchildren)

/-- **Declarations are read exactly if they are well-formed.**  The node read then says what the declaration says, and
otherwise the error is that of the first level, in pre-order, that does not pass, at its first check that fails. -/
theorem ofJson_reads_wellFormed (v : Json) :
    ((∃ n, ofJson v = .ok n) ↔ WellFormed v) ∧ (∀ n, ofJson v = .ok n → Mirrors v n) ∧
      ∀ e, ofJson v = .error e ↔ LevelsFault (levels "root" v) e :=
  ⟨(judges_ofJsonAt v "root").ok, mirrors_ofJsonAt v "root", (judges_ofJsonAt v "root").error⟩

/-- A book with its publisher and one renamed column. -/
def shelvedBook : Json := .object
  [("table", .string "book"), ("columns", Json.strings ["isbn", "title"]),
    ("transform", .object [("rename", .object [("isbn", .string "book_isbn")])]),
    ("children", .array [.object [("table", .string "publisher"), ("label", .null)]])]

theorem ofJson_reads_shelvedBook : WellFormed shelvedBook ∧
    ∃ n, ofJson shelvedBook = .ok n ∧ Mirrors shelvedBook n ∧ n.columns = ["isbn", "title"] := by
  obtain ⟨hiff, hmirrors, -⟩ := ofJson_reads_wellFormed shelvedBook
  exact ⟨hiff.mp ⟨_, rfl⟩, _, rfl, hmirrors _ rfl, rfl⟩

example : ofJson (.object [("table", .string "book"),
    ("children", .array [.object [("table", .string "publisher"), ("unknown", .string "xyz")]])]) =
    .error (.unknownAttribute "root(book).children[0]" "unknown") := rfl

end Node

end DocSync
