/-!
Values keyed by text.  `put` keeps the place of a key that is already there, so entries stay in the
order of first insertion; `putSorted` keeps them in the order of their keys.
-/

namespace DocSync

/-- Entries in a visible order. -/
abbrev Keyed (β : Type u) := List (String × β)

namespace Keyed

variable {β γ : Type u}

/-- The value of the first entry for `key`. -/
def get? : Keyed β → String → Option β
  | [], _ => none
  | (k, v) :: rest, key => if k = key then some v else get? rest key

def contains (m : Keyed β) (key : String) : Bool := (m.get? key).isSome

def keys (m : Keyed β) : List String := m.map Prod.fst

def values (m : Keyed β) : List β := m.map Prod.snd

/-- Replaces the value of `key` in place, or appends a new entry. -/
def put : Keyed β → String → β → Keyed β
  | [], key, value => [(key, value)]
  | (k, v) :: rest, key, value =>
    if k = key then (k, value) :: rest else (k, v) :: put rest key value

/-- Removes the entries of `key`. -/
def erase (m : Keyed β) (key : String) : Keyed β := m.filter (·.1 ≠ key)

/-- Replaces the value of `key`, or adds an entry before the first greater key. -/
def putSorted : Keyed β → String → β → Keyed β
  | [], key, value => [(key, value)]
  | (k, v) :: rest, key, value =>
    match compare key k with
    | .lt => (key, value) :: (k, v) :: rest
    | .eq => (key, value) :: rest
    | .gt => (k, v) :: putSorted rest key value

/-- Puts every entry in turn: a repeated key keeps its first place and its last value. -/
def ofEntries (entries : List (String × β)) : Keyed β :=
  entries.foldl (fun m (k, v) => put m k v) []

/-- The value of `key`, or `default` where there is none. -/
def getD (m : Keyed β) (key : String) (default : β) : β := (m.get? key).getD default

@[simp] theorem get?_nil (key : String) : get? ([] : Keyed β) key = none := rfl

theorem get?_put (m : Keyed β) (key other : String) (value : β) :
    get? (put m key value) other = if key = other then some value else get? m other := by
  induction m with
  | nil => simp [put, get?]
  | cons entry rest ih =>
    obtain ⟨k, v⟩ := entry
    by_cases hk : k = key
    · subst hk
      by_cases ho : k = other <;> simp [put, get?, ho]
    · by_cases ho : k = other
      · subst ho
        simp [put, get?, hk, Ne.symm hk]
      · simp [put, get?, hk, ho, ih]

theorem getD_put (m : Keyed β) (key other : String) (value fallback : β) :
    getD (put m key value) other fallback = if key = other then value else getD m other fallback := by
  simp only [getD, get?_put]
  split <;> rfl

end Keyed

end DocSync
