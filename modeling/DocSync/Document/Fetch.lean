import DocSync.Document.RowTree
import DocSync.Node.Plan
import DocSync.Service.Call

/-!
Fetching row trees: root rows first, then level by level the child rows of all parents at once.
Everything is read in one transaction scope.
-/

namespace DocSync

/-- At most so many keys go into one query. -/
def keyChunk : Nat := 500

/-- Consecutive pieces of `size` items; the last may be shorter. -/
def chunks (size : Nat) (items : List α) : List (List α) :=
  go items.length items
where
  go : Nat → List α → List (List α)
    | 0, _ => []
    | _, [] => []
    | fuel + 1, items => items.take size :: go fuel (items.drop size)

namespace Fetch

/-- The text that child rows are grouped by. -/
def keyText (key : List Json) : String := (Json.array key).render

/-- Keys without nulls, each once. -/
def distinctKeys (keys : List (List Json)) : List (List Json) :=
  ((keys.filter fun key => !key.any Json.isNull).foldl (fun (kept : Keyed (List Json)) key =>
    let text := keyText key
    if kept.contains text then kept else kept ++ [(text, key)]) []).values

/-- Runs a query for rows of a table, naming the table when it fails. -/
def readRows (select : Select) : Attempt Failure (List Row) :=
  (Session.execute (.select select)).mapError (·.within ("Failed to read rows from " ++ select.table))

/-- The rows of a child node whose join columns equal one of `keys`. -/
def childRows (node : PlanNode) (join : Join) : List (List (List Json)) → Attempt Failure (List Row)
  | [] => return []
  | keys :: rest => do
    let rows ← readRows
      ⟨node.table, node.fetchColumns, .among join.child keys, node.primaryKey, none, none⟩
    let others ← childRows node join rest
    return rows ++ others

/-- Rows in primary-key order. -/
def inKeyOrder (primaryKey : List String) (rows : List Row) : List Row :=
  sortStable (fun a b => Json.compareTuples (a.tuple primaryKey) (b.tuple primaryKey) != .gt) rows

/-- Trees grouped by the text of their join columns. -/
def groupByKey (columns : List String) (trees : List RowTree) : Keyed (List RowTree) :=
  trees.foldl (fun (groups : Keyed (List RowTree)) tree =>
    let text := keyText (tree.row.tuple columns)
    groups.put text (groups.getD text [] ++ [tree])) []

/-- Puts the trees of one slot in front of the slots of each parent. -/
def consSlot (slot : List (List RowTree)) (slots : List (List (List RowTree))) :
    List (List (List RowTree)) :=
  List.zipWith (· :: ·) slot slots

mutual

/-- The trees of rows of a node. -/
def attach : Plan → List Row → Attempt Failure (List RowTree)
  | ⟨_, children⟩, rows => do
    if rows.isEmpty then return []
    let slots ← attachSlots children rows
    return List.zipWith RowTree.mk rows slots

/-- For each row the trees of its children, slot by slot. -/
def attachSlots : List Plan → List Row → Attempt Failure (List (List (List RowTree)))
  | [], rows => return rows.map fun _ => []
  | child :: rest, rows => do
    match child.node.join with
    | none =>
      let others ← attachSlots rest rows
      return consSlot (rows.map fun _ => []) others
    | some join =>
      let keys := distinctKeys (rows.map (·.tuple join.parent))
      let found ← childRows child.node join (chunks keyChunk keys)
      let trees ← attach child (inKeyOrder child.node.primaryKey found)
      let groups := groupByKey join.child trees
      let others ← attachSlots rest rows
      return consSlot (rows.map fun row => groups.getD (keyText (row.tuple join.parent)) []) others

end

/-- The trees of the root rows that a query reads, in one scope. -/
def trees (plan : Plan) (select : Select) : Attempt Failure (List RowTree) :=
  Session.transaction do
    let rows ← readRows select
    attach plan rows

end Fetch

/-- Fetches every root row that a filter accepts, in primary-key order, with its tree. -/
def fetchRoots (plan : Plan) (filter : Filter) : Attempt Failure (List RowTree) :=
  if filter.isEmpty then return []
  else
    Fetch.trees plan ⟨plan.node.table, plan.node.fetchColumns, filter, plan.node.primaryKey, none, none⟩

/-- A scan over every root row, page by page in primary-key order. -/
structure RootScan where
  batch : Nat
  cursor : Option (List Json)
  exhausted : Bool
deriving Repr, Inhabited

namespace RootScan

/-- A scan at its beginning; a page has at least one row. -/
def start (batch : Nat) : RootScan := ⟨max batch 1, none, false⟩

/-- The next page, nothing once the table is exhausted, and the scan after it. -/
def nextPage (scan : RootScan) (plan : Plan) :
    Attempt Failure (Option (List RowTree) × RootScan) := do
  if scan.exhausted then return (none, scan)
  let root := plan.node
  let page ← Fetch.trees plan
    ⟨root.table, root.fetchColumns, .all, root.primaryKey, scan.cursor, some scan.batch⟩
  let scan := { scan with exhausted := page.length < scan.batch }
  match page.getLast? with
  | some last => return (some page, { scan with cursor := some (last.row.tuple root.primaryKey) })
  | none => return (none, scan)

end RootScan

end DocSync
