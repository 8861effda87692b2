import DocSync.Settings.Basic
import DocSync.Text.Quoted
import DocSync.Error

/-!
Settings and node declarations in files of a directory.
-/

namespace DocSync

/-- A directory: its name, and its files by their paths in it. -/
structure Directory where
  name : String
  files : Keyed String
deriving Repr, Inhabited

namespace Directory

def parts (path : String) : List String := (path.toList.splitOn '/').map String.ofList

/-- Whether a path, as its parts, is that of a directory with a file somewhere below. -/
def isDirectory (d : Directory) (path : List String) : Bool :=
  path.isEmpty || d.files.keys.any fun file => path.length < (parts file).length && path.isPrefixOf (parts file)

/-- Follows a path from a directory: a point stays, two points go up, and every part but the last must be a
directory. -/
def follow (d : Directory) : List String → List String → Option (List String)
  | at_, [] => some at_
  | at_, part :: rest =>
    if !d.isDirectory at_ then none
    else if part == "" || part == "." then follow d at_ rest
    else if part == ".." then if at_.isEmpty then none else follow d at_.dropLast rest
    else follow d (at_ ++ [part]) rest

/-- The content of the file at a path. -/
def read? (d : Directory) (path : String) : Option String :=
  if path.startsWith "/" then none
  else do
    let found ← d.follow [] (parts path)
    d.files.get? ("/".intercalate found)

/-- A path as messages show it, below the directory unless it starts at the root. -/
def shown (d : Directory) (path : String) : String :=
  Text.display (if path.startsWith "/" then path else d.name ++ "/" ++ path).toList

end Directory

/-- Why a job has no node: its file cannot be read, or its declaration has a defect. -/
inductive NodeSourceError where
  | unread (failure : Failure)
  | defect (error : NodeError)
deriving Repr, Inhabited

namespace JobSettings

/-- The node of a job; the path of a file starts at the directory. -/
def loadNode (job : JobSettings) (d : Directory) : Except NodeSourceError Node :=
  match job.node with
  | .inline declaration => (Node.ofJson declaration).mapError .defect
  | .file path =>
    match d.read? path with
    | none => .error (.unread ⟨"Failed to read node declaration " ++ d.shown path, ["..."]⟩)
    | some text => (Node.ofText text).mapError .defect

end JobSettings

namespace Settings

/-- Reads the settings of a file. -/
def load (d : Directory) (path : String) : Except Failure Settings :=
  match d.read? path with
  | none => .error ⟨"Failed to read settings from " ++ d.shown path, ["..."]⟩
  | some text => Except.within ("Invalid settings in " ++ d.shown path) (ofText text)

end Settings

end DocSync
