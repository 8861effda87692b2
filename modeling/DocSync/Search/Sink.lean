import DocSync.Document.Compile
import DocSync.Json.Parser
import DocSync.Search.Base64
import DocSync.Search.Http
import DocSync.Service.Call
import DocSync.Url.Parser

/-!
A document sink on a search server: documents are put and deleted under an address of their own,
looked up by the terms of their `_meta`, and listed page by page with a scroll.
-/

namespace DocSync

/-- A search server and how requests to it are authorized. -/
structure SearchSink where
  base : Url
  username : Option String
  password : Option String
  apiKey : Option String
deriving DecidableEq, Repr, Inhabited

/-- A routine of the sink. -/
abbrev Searching (α : Type) := ExceptT SinkError Exchange α

namespace SearchSink

/-- Sets up a sink; name and password of the URL travel apart from it. -/
def connect (url : String) (apiKey : Option String) : Except Failure SearchSink :=
  match Url.parse? url with
  | none => .error ⟨"Invalid sink URL: " ++ Url.sanitize url, ["..."]⟩
  | some u =>
    .ok ⟨u.anonymous, if u.username.isEmpty then none else some u.username, u.password?, apiKey⟩

/-- The header that authorizes a request: the key where there is one, else name and password. -/
def authorization (s : SearchSink) : Option String :=
  match s.apiKey, s.username with
  | some key, _ => some ("ApiKey " ++ key)
  | none, some user =>
    some ("Basic " ++ String.ofList
      (Base64.encode (user ++ ":" ++ s.password.getD "").toUTF8.toList))
  | none, none => none

/-- An address below the base. -/
def address (s : SearchSink) (segments : List String) : Except SinkError Url :=
  match s.base.extended? segments with
  | some u => .ok u
  | none => .error (.other (.ofText "sink URL cannot be a base"))

/-- Sends a request and waits for the response, whatever its status. -/
def send (s : SearchSink) (method : String) (url : Url) (body : Option Json) :
    Searching HttpResponse := ExceptT.mk do
  match ← Program.request (⟨method, url, s.authorization, body⟩ : HttpRequest) with
  | .ok response => return .ok response
  | .error (.timeout text) => return .error (.timeout text)
  | .error (.connection text) => return .error (.unavailable text)

/-- The error of a response that is no success. -/
def statusError (r : HttpResponse) (identity : String) : SinkError :=
  let reason := HttpStatus.text r.status ++ ": " ++ r.body
  if HttpStatus.isTransient r.status then .unavailable reason else .rejected identity reason

/-- Accepts a success, and a missing target where that is as good. -/
def accept (r : HttpResponse) (missingIsFine : Bool) (identity : String) : Except SinkError Unit :=
  if HttpStatus.isSuccess r.status || (missingIsFine && r.status == HttpStatus.notFound) then .ok ()
  else .error (statusError r identity)

/-- The JSON body of a success. -/
def readBody (r : HttpResponse) (index : String) : Except SinkError Json :=
  if HttpStatus.isSuccess r.status then
    match Json.parse? r.body with
    | some body => .ok body
    | none => .error (.unavailable "malformed search response: ...")
  else .error (statusError r index)

def upsert (s : SearchSink) (d : Document) : Searching Unit := do
  let url ← liftExcept (s.address [d.index, "_doc", d.identity])
  let r ← s.send "PUT" url (some (.object d.source))
  liftExcept (accept r false d.identity)

def delete (s : SearchSink) (index identity : String) : Searching Unit := do
  let url ← liftExcept (s.address [index, "_doc", identity])
  let r ← s.send "DELETE" url none
  liftExcept (accept r true identity)

/-- Makes earlier writes visible; a missing index has none. -/
def refresh (s : SearchSink) (index : String) : Searching Unit := do
  let url ← liftExcept (s.address [index, "_refresh"])
  let r ← s.send "POST" url none
  liftExcept (accept r true index)

/-- A member of an object, null where there is none. -/
def member (name : String) : Json → Json
  | .object members => Keyed.getD members name .null
  | _ => .null

/-- The identities of the hits of a response; hits without one are passed over. -/
def hitIdentities (body : Json) : List String :=
  match member "hits" (member "hits" body) with
  | .array hits => hits.filterMap fun hit => (member "_id" hit).string?
  | _ => []

/-- The most hits of one lookup. -/
def mostHits : Nat := 10000

/-- The query for documents whose `_meta` lists every value of a key under a table. -/
def metaQuery (table : String) (key : List (String × Json)) : Json :=
  let term (entry : String × Json) : Json :=
    .object [("term", .object [(metaField ++ "." ++ table ++ "." ++ entry.1, entry.2)])]
  .object [("size", .ofNat mostHits), ("_source", .bool false),
    ("query", .object [("bool", .object [("filter", .array (key.map term))])])]

/-- Looks documents up by a key under a table; a missing index has none. -/
def findByMeta (s : SearchSink) (index table : String) (key : List (String × Json)) :
    Searching (List String) := do
  let url ← liftExcept (s.address [index, "_search"])
  let r ← s.send "POST" url (some (metaQuery table key))
  if r.status == HttpStatus.notFound then return []
  return hitIdentities (← liftExcept (readBody r index))

/-- Hits per page of a scroll. -/
def pageSize : Nat := 1000

/-- How long a scroll is kept between pages. -/
def keepAlive : String := "1m"

/-- The query for every document, identities only. -/
def scrollQuery : Json :=
  .object [("size", .ofNat pageSize), ("_source", .bool false), ("sort", .array [.string "_doc"]),
    ("query", .object [("match_all", .object [])])]

/-- Releases a scroll; a failure only leaves it to expire. -/
def release (s : SearchSink) (scroll : String) : Searching Unit :=
  tryCatch (do
    let url ← liftExcept (s.address ["_search", "scroll"])
    let _ ← s.send "DELETE" url (some (.object [("scroll_id", .string scroll)]))
    return ()) fun _ => return ()

/-- The identities of a page and of those after it, in at most `pages` more.  A page that is not full is
the last, and so is one without a scroll. -/
def pagesFrom (s : SearchSink) (index : String) : Nat → Json → Searching (List String)
  | pages, body => do
    let page := hitIdentities body
    match (member "_scroll_id" body).string? with
    | none => return page
    | some scroll =>
      if page.length < pageSize then
        s.release scroll
        return page
      match pages with
      | 0 => ExceptT.mk .spent
      | pages + 1 =>
        let url ← liftExcept (s.address ["_search", "scroll"])
        let r ← s.send "POST" url
          (some (.object [("scroll", .string keepAlive), ("scroll_id", .string scroll)]))
        let others ← pagesFrom s index pages (← liftExcept (readBody r index))
        return page ++ others

/-- Every identity of an index, in at most `pages` pages after the first; a missing index has none. -/
def identities (s : SearchSink) (pages : Nat) (index : String) : Searching (List String) := do
  let url ← liftExcept (s.address [index, "_search"])
  let r ← s.send "POST" (url.withQueryItem ("scroll=" ++ keepAlive)) (some scrollQuery)
  if r.status == HttpStatus.notFound then return []
  pagesFrom s index pages (← liftExcept (readBody r index))

/-- Answers a request to the sink; an index is listed in at most `pages` pages after the first. -/
def answer (s : SearchSink) (pages : Nat) : (call : SinkCall) → Exchange call.Answer
  | .upsert d => (s.upsert d).run
  | .delete index identity => (s.delete index identity).run
  | .refresh index => (s.refresh index).run
  | .findByMeta index table key => (some <$> s.findByMeta index table key).run
  | .identities index => (some <$> s.identities pages index).run

end SearchSink

end DocSync
