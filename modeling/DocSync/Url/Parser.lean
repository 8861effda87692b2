import DocSync.Url.Basic
import DocSync.Url.Host

/-!
Reading URLs as browsers do.  Blanks around a URL and tabs and newlines in it vanish, and what the
path steps over is gone.
-/

namespace DocSync.Url

/-- The text without controls and spaces at its ends. -/
def trimmed (cs : List Char) : List Char :=
  let isEdge (c : Char) : Bool := c.toNat ≤ 0x20
  ((cs.dropWhile isEdge).reverse.dropWhile isEdge).reverse

def isSchemeChar (c : Char) : Bool := c.isAlphanum || c == '+' || c == '-' || c == '.'

/-- A text cut at the first place of a character, which is left out. -/
def cutAt (c : Char) (cs : List Char) : List Char × Option (List Char) :=
  match cs.dropWhile (· != c) with
  | _ :: rest => (cs.takeWhile (· != c), some rest)
  | [] => (cs, none)

/-- A text cut at the last place of a character, which is left out. -/
def cutAtLast? (c : Char) (cs : List Char) : Option (List Char × List Char) :=
  let after := (cs.reverse.takeWhile (· != c)).reverse
  if after.length = cs.length then none else some (cs.take (cs.length - after.length - 1), after)

/-- The scheme in lower case, and what follows its colon. -/
def takeScheme? (cs : List Char) : Option (String × List Char) :=
  match cutAt ':' cs with
  | (before, some rest) =>
    let scheme := withoutTabs before
    if (scheme.head?.map Char.isAlpha).getD false && scheme.all isSchemeChar then
      some (String.ofList (scheme.map Char.toLower), rest)
    else none
  | (_, none) => none

/-- The name and the password of a text before the sign `@`. -/
def readUser (cs : List Char) : String × Option String :=
  let (name, password) := cutAt ':' cs
  (String.ofList (encode userinfoSet name),
    match password with
    | some (c :: rest) => some (String.ofList (encode userinfoSet (c :: rest)))
    | _ => none)

/-- A host and what follows it; a colon in brackets is part of it. -/
def takeHost : Bool → List Char → List Char × List Char
  | _, [] => ([], [])
  | inside, c :: rest =>
    if c == ':' && !inside then ([], c :: rest)
    else
      let (host, after) := takeHost (c == '[' || (inside && c != ']')) rest
      (c :: host, after)

/-- The port behind a host, unless it is the usual one, and what follows; only a backslash may. -/
def takePort? (scheme : String) : List Char → Option (Option Nat × List Char)
  | ':' :: rest =>
    let digits := rest.takeWhile Char.isDigit
    let after := rest.dropWhile Char.isDigit
    let port := (Text.numberIn? 10 digits).getD 0
    if port > 65535 || !(after.isEmpty || after.head? == some '\\') then none
    else
      let written := !digits.isEmpty && defaultPort? scheme != some port
      some (if written then some port else none, after)
  | after => some (none, after)

/-- What follows two slashes: an authority and a path. -/
def readAuthority? (scheme : String) (cs : List Char) (ends : Bool) :
    Option (Authority × List Char) := do
  let special := isSpecialScheme scheme
  let text := cs.takeWhile fun c => !isSlash special c
  let path := cs.dropWhile fun c => !isSlash special c
  let ((username, password), place) ← match cutAtLast? '@' text with
    | none => some (("", none), text)
    | some ([], place) =>
      if place.isEmpty && !(path.isEmpty && ends) then none else some (("", none), place)
    | some (user, place) => some (readUser user, place)
  let (host, after) := takeHost false place
  let host ← if special then specialHost? host else plainHost? host
  if host.isEmpty && (!after.isEmpty || !username.isEmpty || password.isSome) then none
  let (port, after) ← takePort? scheme after
  return (⟨username, password, String.ofList host, port⟩, after ++ path)

/-- A path of a file starts with no empty segments. -/
def filePath (items : List String) : UrlPath :=
  match items.dropWhile String.isEmpty with
  | [] => .segments [""]
  | kept => .segments kept

/-- The host of a file, empty for this machine, and its path behind two slashes.  A drive is no host, and a
host before a drive is dropped; without a host the slash before the path makes a segment of its own. -/
def readFileHost? (cs : List Char) : Option (String × UrlPath) := do
  let isSlash := isSlash true
  let host := withoutTabs (cs.takeWhile fun c => !isSlash c)
  let path := cs.dropWhile fun c => !isSlash c
  if isDrive host then return ("", filePath (readFilePath cs).items)
  let host ← if host.isEmpty then some "" else (specialHost? host).map String.ofList
  if host.isEmpty || host == "localhost" then return ("", filePath (readFilePath path).items)
  let walk := readFilePath (path.drop 1)
  return (if walk.hasDrive then "" else host, filePath walk.items)

/-- What follows the scheme of a file, tabs included, up to query and fragment. -/
def readFile? (cs : List Char) : Option (String × UrlPath) :=
  match cs.dropWhile isTabOrNewline with
  | a :: rest =>
    if isSlash true a then
      match rest.dropWhile isTabOrNewline with
      | b :: after =>
        if isSlash true b then readFileHost? after else some ("", filePath (readFilePath rest).items)
      | [] => some ("", filePath (readFilePath rest).items)
    else some ("", filePath (readFilePath cs).items)
  | [] => some ("", filePath [])

/-- What follows any other scheme, up to query and fragment. -/
def readBody? (scheme : String) (cs : List Char) (ends : Bool) : Option (Option Authority × UrlPath) :=
  let special := isSpecialScheme scheme
  if special then do
    let (authority, path) ← readAuthority? scheme (cs.dropWhile (isSlash true)) ends
    return (some authority, .segments (readPath special path))
  else
    match cs with
    | '/' :: '/' :: rest => do
      let (authority, path) ← readAuthority? scheme rest ends
      return (some authority, .segments (readPath special path))
    | '/' :: rest => some (none, .segments (readSegments special rest))
    | _ => some (none, .fixed (String.ofList (encode [] cs)))

/-- Reads a URL. -/
def parse? (text : String) : Option Url := do
  let (scheme, rest) ← takeScheme? (trimmed text.toList)
  let (rest, fragment) := cutAt '#' rest
  let (body, query) := cutAt '?' rest
  let (authority, path) ←
    if scheme == "file" then
      (readFile? body).map fun (host, path) => (some ⟨"", none, host, none⟩, path)
    else readBody? scheme (withoutTabs body) (query.isNone && fragment.isNone)
  let queryEscapes := if isSpecialScheme scheme then specialQuerySet else querySet
  return ⟨scheme, authority, path,
    query.map fun q => String.ofList (encode queryEscapes (withoutTabs q)),
    fragment.map fun f => String.ofList (encode fragmentSet (withoutTabs f))⟩

/-- A URL with its password hidden; a text that is no URL stays as it is. -/
def sanitize (text : String) : String :=
  match parse? text with
  | some u => u.masked.render
  | none => text

/-- The database of a connection URL that names none. -/
def defaultDatabase : String := "postgres"

/-- The database a connection URL names. -/
def databaseName (text : String) : String :=
  match (parse? text).bind firstSegment? with
  | some name => if name.isEmpty then defaultDatabase else name
  | none => defaultDatabase

end DocSync.Url
