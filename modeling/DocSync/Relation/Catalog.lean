import DocSync.Relation.Schema

/-!
A read-through cache of table descriptions over another catalog.  An answer, also that a table does
not exist, is kept until it is invalidated.
-/

namespace DocSync

structure CachedCatalog where
  inner : Schema
  cache : Keyed (Option Table)
  /-- How often the inner catalog was asked. -/
  lookups : Nat
deriving Repr, Inhabited

namespace CachedCatalog

def ofSchema (inner : Schema) : CachedCatalog := ⟨inner, [], 0⟩

/-- Changes a table of the inner catalog. -/
def alter (c : CachedCatalog) (t : Table) : CachedCatalog := { c with inner := c.inner.insert t }

/-- Forgets one table. -/
def invalidate (c : CachedCatalog) (table : String) : CachedCatalog :=
  { c with cache := c.cache.erase table }

/-- Forgets every table. -/
def invalidateAll (c : CachedCatalog) : CachedCatalog := { c with cache := [] }

/-- Describes a table, from the cache where it has an answer. -/
def describe (c : CachedCatalog) (table : String) : Option Table × CachedCatalog :=
  match c.cache.get? table with
  | some answer => (answer, c)
  | none =>
    let answer := c.inner.table? table
    (answer, { c with cache := c.cache.put table answer, lookups := c.lookups + 1 })

/-- Describes tables in turn and keeps those that exist. -/
def load (c : CachedCatalog) (tables : List String) : Schema × CachedCatalog :=
  tables.foldl (fun (schema, c) table =>
    let (answer, c) := c.describe table
    ((match answer with
      | some t => schema.insert t
      | none => schema), c)) (Schema.empty, c)

end CachedCatalog

end DocSync
