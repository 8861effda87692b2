import DocSync.Json.Printer
import DocSync.Search.Http

/-!
A server that follows a script, and may be out of reach.
-/

namespace DocSync

/-- What the server does with a request. -/
inductive PeerReply where
  | respond (response : HttpResponse)
  | close
  | hang
deriving DecidableEq, Repr, Inhabited

/-- The replies to come and the requests that came, latest first.  No request comes to a server that is
out of reach. -/
structure SearchPeer where
  reachable : Bool
  replies : List PeerReply
  requests : List HttpRequest
deriving Repr, Inhabited

namespace SearchPeer

/-- The reply of a server whose script is at its end. -/
def exhausted : PeerReply := .respond ⟨500, "exhausted"⟩

def outcome : PeerReply → Except HttpFailure HttpResponse
  | .respond response => .ok response
  | .close => .error (.connection "")
  | .hang => .error (.timeout "")

/-- Takes a request. -/
def answer (request : HttpRequest) (p : SearchPeer) :
    Except HttpFailure HttpResponse × SearchPeer :=
  if p.reachable then
    (outcome (p.replies.headD exhausted),
      { p with replies := p.replies.tail, requests := request :: p.requests })
  else (.error (.connection ""), p)

end SearchPeer

end DocSync
