import DocSync.Text.Split
import DocSync.Url.Encode

/-!
Paths in segments.  A segment of one dot stays where it is and one of two dots steps back, though never
over a drive; the first segment of the path of a file may name a drive.
-/

namespace DocSync.Url

/-- Tabs and newlines do not count in a URL. -/
def isTabOrNewline (c : Char) : Bool := c == '\t' || c == '\n' || c == '\r'

def withoutTabs (cs : List Char) : List Char := cs.filter fun c => !isTabOrNewline c

/-- Whether a segment is one dot, written as it is or escaped. -/
def isDot (cs : List Char) : Bool :=
  [".", "%2e"].contains (String.ofList (cs.map Char.toLower))

/-- Whether a segment is two dots, each written as it is or escaped. -/
def isDoubleDot (cs : List Char) : Bool :=
  ["..", "%2e%2e", "%2e.", ".%2e"].contains (String.ofList (cs.map Char.toLower))

/-- A letter and a colon or a bar, which name a drive. -/
def isDrive : List Char → Bool
  | [letter, mark] => letter.isAlpha && (mark == ':' || mark == '|')
  | _ => false

/-- The segments that are left when two dots step back from them. -/
def stepBack (items : List String) : List String :=
  match items.getLast? with
  | some last => if isDrive last.toList then items else items.dropLast
  | none => []

/-- A drive in front of a tab, and what follows in its segment, where anything does: the tab ends the
segment there. -/
def driveBeforeTab? (raw : List Char) : Option (String × List Char) :=
  match raw.dropWhile isTabOrNewline with
  | letter :: rest =>
    match rest.dropWhile isTabOrNewline with
    | ':' :: tab :: rest =>
      let after := withoutTabs rest
      if letter.isAlpha && isTabOrNewline tab && !after.isEmpty then
        some (String.ofList [letter, ':'], after)
      else none
    | _ => none
  | [] => none

/-- The segments of a path that are passed, and whether the first was read as a drive. -/
structure PathWalk where
  items : List String
  hasDrive : Bool
deriving DecidableEq, Repr, Inhabited

namespace PathWalk

/-- Adds segments in turn.  Dots leave an empty segment behind when they are the last. -/
def follow (isFile : Bool) (w : PathWalk) : List (List Char) → PathWalk
  | [] => w
  | raw :: rest =>
    let escaped := encode pathSet (withoutTabs raw)
    let closing := if rest.isEmpty then [""] else []
    let mayNameDrive := isFile && w.items.isEmpty
    if isDoubleDot escaped then
      ({ w with items := stepBack w.items ++ closing } : PathWalk).follow isFile rest
    else if isDot escaped then
      ({ w with items := w.items ++ closing } : PathWalk).follow isFile rest
    else if mayNameDrive && isDrive escaped then
      (⟨[String.ofList (escaped.take 1 ++ [':'])], true⟩ : PathWalk).follow isFile rest
    else
      let added := match (if mayNameDrive then driveBeforeTab? raw else none) with
        | some (drive, after) => [drive, String.ofList (encode pathSet after)]
        | none => [String.ofList escaped]
      ({ w with items := w.items ++ added } : PathWalk).follow isFile rest

end PathWalk

def isSlash (special : Bool) (c : Char) : Bool := c == '/' || (special && c == '\\')

/-- The segments of a path without its first slash, if not of a file. -/
def readSegments (special : Bool) (cs : List Char) : List String :=
  (PathWalk.follow false ⟨[], false⟩ (Text.pieces (isSlash special) cs)).items

/-- The segments of a path that may lack its first slash, if not of a file. -/
def readPath (special : Bool) (cs : List Char) : List String :=
  match cs with
  | c :: rest => readSegments special (if isSlash special c then rest else cs)
  | [] => if special then [""] else []

/-- The path of a file without its first slash. -/
def readFilePath (cs : List Char) : PathWalk :=
  PathWalk.follow true ⟨[], false⟩ (Text.pieces (isSlash true) cs)

end DocSync.Url
