/-!
Defects of a node declaration, found when it is read or when it is planned against a schema.
-/

namespace DocSync

/-- What is wrong with one node. -/
inductive NodeDefect where
  | notAnObject
  | malformedJson
  | tableNotText
  | columnsNotArray
  | columnNotText
  | transformNotObject
  | unknownRule (rule : String)
  | renameNotObject
  | renameTargetNotText (column : String)
  | labelNotText
  | childrenNotArray
  | noPrimaryKey (table : String)
  | repeatedField (field : String)
deriving DecidableEq, Repr, Inhabited

def NodeDefect.message : NodeDefect → String
  | notAnObject => "a node must be an object"
  | malformedJson => "malformed JSON: ..."
  | tableNotText => "\"table\" must be a non-empty string"
  | columnsNotArray => "\"columns\" must be an array of strings"
  | columnNotText => "\"columns\" entries must be strings"
  | transformNotObject => "\"transform\" must be an object"
  | unknownRule rule => "unknown transform rule \"" ++ rule ++ "\""
  | renameNotObject => "\"transform.rename\" must map column names to strings"
  | renameTargetNotText column => "rename target for \"" ++ column ++ "\" must be a non-empty string"
  | labelNotText => "\"label\" must be a string"
  | childrenNotArray => "\"children\" must be an array of nodes"
  | noPrimaryKey table => "table \"" ++ table ++ "\" has no primary key"
  | repeatedField field => "output field \"" ++ field ++ "\" is produced more than once"

/-- A defect of a node tree; trying again cannot mend it. -/
inductive NodeError where
  | missingTable (path : String)
  | unknownAttribute (path key : String)
  | unknownColumn (column table : String)
  | unknownTable (table : String)
  | unrelated (parent child : String)
  | invalid (path : String) (defect : NodeDefect)
deriving DecidableEq, Repr, Inhabited

def NodeError.message : NodeError → String
  | missingTable path => "node " ++ path ++ " is missing required attribute \"table\""
  | unknownAttribute path key =>
    "unknown node attribute \"" ++ key ++ "\" on " ++ path
  | unknownColumn column table =>
    "Column \"" ++ column ++ "\" not present on table \"" ++ table ++ "\""
  | unknownTable table => "Table \"" ++ table ++ "\" not present in schema"
  | unrelated parent child =>
    "no foreign key relates table \"" ++ child ++ "\" to parent table \"" ++ parent ++ "\""
  | invalid path defect => "invalid node " ++ path ++ ": " ++ defect.message

end DocSync
