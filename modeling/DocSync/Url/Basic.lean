import DocSync.Url.Path

/-!
URLs in their normal form, and changes to them.
-/

namespace DocSync

/-- Who and where: the parts between two slashes and the path, already escaped. -/
structure Authority where
  username : String
  /-- A password that is empty counts as none. -/
  password : Option String
  host : String
  port : Option Nat
deriving DecidableEq, Repr, Inhabited

/-- A path: segments each behind a slash, or a text that no segment can be added to. -/
inductive UrlPath where
  | segments (items : List String)
  | fixed (text : String)
deriving DecidableEq, Repr, Inhabited

structure Url where
  scheme : String
  authority : Option Authority
  path : UrlPath
  query : Option String
  fragment : Option String
deriving DecidableEq, Repr, Inhabited

namespace Url

/-- Schemes that always have a host and a path. -/
def specialSchemes : List String := ["http", "https", "ws", "wss", "ftp", "file"]

def isSpecialScheme (scheme : String) : Bool := specialSchemes.contains scheme

/-- The port of a scheme that is not written. -/
def defaultPort? : String → Option Nat
  | "http" | "ws" => some 80
  | "https" | "wss" => some 443
  | "ftp" => some 21
  | _ => none

def authorityText (a : Authority) : String :=
  let password := match a.password with
    | some p => ":" ++ p
    | none => ""
  let user := a.username ++ password
  "//" ++ (if user.isEmpty then "" else user ++ "@") ++ a.host
    ++ (match a.port with
      | some p => ":" ++ toString p
      | none => "")

def segmentsText (items : List String) : String := String.join (items.map fun s => "/" ++ s)

/-- The path.  One without an authority does not start with two slashes. -/
def pathText (u : Url) : String :=
  match u.path with
  | .fixed text => text
  | .segments items =>
    (if u.authority.isNone && items.length > 1 && items.head? == some "" then "/." else "")
      ++ segmentsText items

def queryText (u : Url) : String :=
  match u.query with
  | some q => "?" ++ q
  | none => ""

/-- The URL as text. -/
def render (u : Url) : String :=
  u.scheme ++ ":" ++ (u.authority.map authorityText).getD "" ++ u.pathText ++ u.queryText
    ++ (match u.fragment with
      | some f => "#" ++ f
      | none => "")

/-- The path and the query, as a request names them. -/
def target (u : Url) : String := u.pathText ++ u.queryText

def password? (u : Url) : Option String := u.authority.bind Authority.password

def username (u : Url) : String := (u.authority.map Authority.username).getD ""

/-- The URL with its password hidden. -/
def masked (u : Url) : Url :=
  { u with authority := u.authority.map fun a => { a with password := a.password.map fun _ => "***" } }

/-- The URL without name and password. -/
def anonymous (u : Url) : Url :=
  { u with authority := u.authority.map fun a => { a with username := "", password := none } }

/-- The first segment of the path. -/
def firstSegment? (u : Url) : Option String :=
  match u.path with
  | .segments items => items.head?
  | .fixed _ => none

/-- A path whose last segment is not empty, or that has only one. -/
def dropEmptyLast (items : List String) : List String :=
  if items.length > 1 && items.getLast? == some "" then items.dropLast else items

/-- A lone empty segment gives way to what is added. -/
def withoutRoot (items : List String) : List String := if items == [""] then [] else items

/-- Adds a segment, escaped.  Tabs and newlines vanish; what is then one dot or two dots is read as a
step, though a segment that was so written is passed over. -/
def addSegment (isSpecial : Bool) (items : List String) (segment : String) : List String :=
  if segment == "." || segment == ".." then items
  else
    let escaped := Url.encode (if isSpecial then specialSegmentSet else segmentSet)
      (withoutTabs segment.toList)
    if isDoubleDot escaped then stepBack (withoutRoot items) ++ [""]
    else if isDot escaped then withoutRoot items ++ [""]
    else withoutRoot items ++ [String.ofList escaped]

/-- The URL with segments added to its path; nothing where none can be added. -/
def extended? (u : Url) (segments : List String) : Option Url :=
  match u.path with
  | .fixed _ => none
  | .segments items =>
    let special := isSpecialScheme u.scheme
    some { u with path := .segments (segments.foldl (addSegment special) (dropEmptyLast items)) }

/-- The URL with an item added to its query. -/
def withQueryItem (u : Url) (item : String) : Url :=
  { u with query := match u.query with
    | none => some item
    | some "" => some item
    | some q => some (q ++ "&" ++ item) }

end Url

end DocSync
