import DocSync.Json.Basic

/-!
A row with the rows joined to it, level by level.
-/

namespace DocSync

/-- A fetched row and, for each child of its plan node in order, its child rows. -/
structure RowTree where
  row : Row
  children : List (List RowTree)
deriving Repr, Inhabited

/-- A row without child rows in any of its slots. -/
def RowTree.leaf (row : Row) (slots : Nat) : RowTree := ⟨row, List.replicate slots []⟩

end DocSync
