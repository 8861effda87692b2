import DocSync.Server.Dialogue
import DocSync.Text.Blank

/-!
A database server that follows a script.
-/

namespace DocSync

/-- What the server does with a statement: give rows, refuse it before it runs or while it runs, drop the
connection, or accept it and then send payloads and end the connection. -/
inductive ServerReply where
  | rows (rows : List ResultRow)
  | refuse (code : String)
  | fail (code : String)
  | close
  | announce (payloads : List String)
deriving Repr, Inhabited

/-- A statement as the server saw it. -/
structure SeenStatement where
  text : String
  parameters : List Parameter
deriving Repr, Inhabited

/-- The replies to come, the connections that were dropped, the payloads on their way where there are
any, and the statements that came, latest first. -/
structure ServerPeer where
  replies : List ServerReply
  dropped : List String
  payloads : Option (List String)
  seen : List SeenStatement
deriving Repr, Inhabited

namespace ServerPeer

def empty : ServerPeer := ⟨[], [], none, []⟩

/-- The server with a new script: connections that were dropped stay so. -/
def follow (replies : List ServerReply) (p : ServerPeer) : ServerPeer := ⟨replies, p.dropped, none, []⟩

/-- A text with every run of white space as one space, and none at its ends. -/
def collapse (text : String) : String :=
  " ".intercalate (words [] text.toList)
where
  /-- The words of a text, the first of which goes on from `word`, its last character first. -/
  words (word : List Char) : List Char → List String
    | [] => close word
    | c :: rest => if Text.isBlank c then close word ++ words [] rest else words (c :: word) rest
  close (word : List Char) : List String :=
    if word.isEmpty then [] else [String.ofList word.reverse]

/-- A new connection of a name: it is not dropped. -/
def reconnect (connection : String) (p : ServerPeer) : ServerPeer :=
  { p with dropped := p.dropped.filter (· ≠ connection) }

/-- Notes a statement; values reach the server only when it runs. -/
def note (p : ServerPeer) (statement : Statement) (ran : Bool) : ServerPeer :=
  { p with
    replies := p.replies.tail
    seen := ⟨collapse statement.text, if ran then statement.parameters else []⟩ :: p.seen }

/-- Takes a statement over a connection.  Nothing comes over a dropped one. -/
def take (connection : String) (statement : Statement) (p : ServerPeer) :
    Except ServerFailure (List ResultRow) × ServerPeer :=
  if p.dropped.contains connection then (.error .lost, p)
  else
    match p.replies.headD (.rows []) with
    | .rows rows => (.ok rows, p.note statement true)
    | .refuse code => (.error (.refused code), p.note statement false)
    | .fail code => (.error (.refused code), p.note statement true)
    | .close => (.error .lost,
        { p.note statement false with dropped := connection :: p.dropped })
    | .announce payloads => (.ok [], { p.note statement true with payloads := some payloads })

/-- What a listening connection hears next; where nothing is announced the stop signal comes. -/
def hear (p : ServerPeer) : Heard × ServerPeer :=
  match p.payloads with
  | none => (.stopped, p)
  | some [] => (.ended, p)
  | some (first :: rest) => (.payload first, { p with payloads := some rest })

/-- Answers a request over a connection. -/
def answer (connection : String) : (call : ServerCall) → ServerPeer → call.Answer × ServerPeer
  | .run statement, p => p.take connection statement
  | .hear, p => p.hear

end ServerPeer

end DocSync
