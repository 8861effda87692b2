import DocSync.Change.Record
import DocSync.Document.Identity
import DocSync.Node.Plan

/-!
Coalescing: of the records of one row only the latest is kept, in the order of the latest ones.
-/

namespace DocSync

namespace Plan

/-- The primary-key columns of a table of the plan. -/
def primaryKeyOf? (p : Plan) (table : String) : Option (List String) :=
  (p.arena.find? (·.node.table == table)).map (·.node.primaryKey)

end Plan

/-- A row that records are about: its table and the identity of its key. -/
abbrev RowName := String × String

namespace ChangeRecord

/-- The row a record is about, where its table belongs to the plan. -/
def rowName? (plan : Plan) (r : ChangeRecord) : Option RowName :=
  (plan.primaryKeyOf? r.table).map fun columns => (r.table, Identity.ofKey (r.key.tuple columns))

/-- A record that takes over the old key of the record it replaces, unless it has one. -/
def carrying (r : ChangeRecord) (previous : Option ChangeRecord) : ChangeRecord :=
  match r.oldKey, previous with
  | none, some p => { r with oldKey := p.oldKey }
  | _, _ => r

end ChangeRecord

namespace Coalesce

/-- Adds a record to those kept so far: it replaces the one about the same row, at the end. -/
def add (plan : Plan) (kept : List (RowName × ChangeRecord)) (r : ChangeRecord) :
    List (RowName × ChangeRecord) :=
  match r.rowName? plan with
  | none => kept
  | some name =>
    let previous := (kept.find? (·.1 == name)).map Prod.snd
    kept.filter (·.1 != name) ++ [(name, r.carrying previous)]

end Coalesce

/-- Keeps the latest record of each row.  Records of other tables are dropped, and an old key is
carried over so that a row which changed its key and then changed again still leaves its first key. -/
def coalesce (plan : Plan) (records : List ChangeRecord) : List ChangeRecord :=
  (records.foldl (Coalesce.add plan) []).map Prod.snd

end DocSync
