import DocSync.Proofs.Except
import DocSync.Proofs.Search.Lookup
import DocSync.Search.Peer

/-!
Listings of an index on a search server.  A listing opens a scroll with a search, asks for page after page of it, and
releases it behind the last page.  Main statement: from a server that fills its pages a listing gets the identity of
every document once, whatever their number, and leaves no scroll open; where a search or a scroll fails, the listing
fails as a whole.
-/

namespace DocSync

namespace Program

variable {Request : Type} {Answer : Request → Type} {α β σ : Type} (answer : (r : Request) → σ → Answer r × σ)

/-- The requests of a run, each with its answer. -/
def asked : Program Request Answer α → σ → List ((r : Request) × Answer r)
  | done _, _ => []
  | ask r next, s => ⟨r, (answer r s).1⟩ :: asked (next (answer r s).1) (answer r s).2
  | spent, _ => []

theorem run_bind_done (p : Program Request Answer α) (f : α → β) (s : σ) :
    (p.bind fun value => done (f value)).run answer s = ((p.run answer s).1.map f, (p.run answer s).2) := by
  induction p generalizing s with
  | done | spent => rfl
  | ask r next ih => exact ih _ _

theorem asked_bind_done (p : Program Request Answer α) (f : α → β) (s : σ) :
    (p.bind fun value => done (f value)).asked answer s = p.asked answer s := by
  induction p generalizing s with
  | done | spent => rfl
  | ask r next ih => exact congrArg (List.cons _) (ih _ _)

end Program

namespace SearchSink

/-! ### One page -/

/-- What is read of the reply to a search or a scroll. -/
def readReply (index : String) : Except HttpFailure HttpResponse → Except SinkError Json
  | .error (.timeout text) => .error (.timeout text)
  | .error (.connection text) => .error (.unavailable text)
  | .ok response => readBody response index

def releaseRequest (s : SearchSink) (url : Url) (scroll : String) : HttpRequest :=
  ⟨"DELETE", url, s.authorization, some (.object [("scroll_id", .string scroll)])⟩

def scrollRequest (s : SearchSink) (url : Url) (scroll : String) : HttpRequest :=
  ⟨"POST", url, s.authorization, some (.object [("scroll", .string keepAlive), ("scroll_id", .string scroll)])⟩

variable {s : SearchSink} {index scroll : String} {body : Json} {pages : Nat} {url : Url} {e : SinkError}

theorem pagesFrom_without_scroll (h : (member "_scroll_id" body).string? = none) :
    (s.pagesFrom index pages body).run = .done (.ok (hitIdentities body)) := by
  cases pages <;> (rw [pagesFrom, h]; rfl)

/-- A routine followed by another one. -/
theorem run_then {α β : Type} (p : Searching α) (f : α → Searching β) :
    (p >>= f).run = p.run.bind fun
      | .ok value => (f value).run
      | .error e => .done (.error e) :=
  congrArg p.run.bind (funext fun result => by cases result <;> rfl)

theorem release_run (haddress : s.address ["_search", "scroll"] = .ok url) :
    (s.release scroll).run = .ask (s.releaseRequest url scroll) fun _ => .done (.ok ()) := by
  rw [release, haddress]
  refine congrArg (Program.ask (s.releaseRequest url scroll)) (funext fun reply => ?_)
  match reply with
  | .ok _ | .error (.timeout _) | .error (.connection _) => rfl

theorem pagesFrom_short (hscroll : (member "_scroll_id" body).string? = some scroll)
    (hshort : (hitIdentities body).length < pageSize) (haddress : s.address ["_search", "scroll"] = .ok url) :
    (s.pagesFrom index pages body).run =
      .ask (s.releaseRequest url scroll) fun _ => .done (.ok (hitIdentities body)) := by
  cases pages <;>
    (rw [pagesFrom, hscroll]
     simp only [hshort, if_true]
     rw [run_then, release_run haddress]
     rfl)

theorem pagesFrom_spent (hscroll : (member "_scroll_id" body).string? = some scroll)
    (hfull : ¬ (hitIdentities body).length < pageSize) : (s.pagesFrom index 0 body).run = .spent := by
  rw [pagesFrom, hscroll]
  simp only [hfull, if_false]
  rfl

theorem pagesFrom_full (hscroll : (member "_scroll_id" body).string? = some scroll)
    (hfull : ¬ (hitIdentities body).length < pageSize) (haddress : s.address ["_search", "scroll"] = .ok url) :
    (s.pagesFrom index (pages + 1) body).run = .ask (s.scrollRequest url scroll) fun reply =>
      match readReply index reply with
      | .ok next => (s.pagesFrom index pages next).run.bind fun others =>
          .done (others.map (hitIdentities body ++ ·))
      | .error e => .done (.error e) := by
  rw [pagesFrom, hscroll]
  simp only [hfull, if_false, haddress]
  show Program.ask _ _ = _
  refine congrArg (Program.ask (s.scrollRequest url scroll)) (funext fun reply => ?_)
  match reply with
  | .error (.timeout _) | .error (.connection _) => rfl
  | .ok response =>
    show Program.bind (liftExcept (readBody response index) : Searching Json).run _ = _
    rw [readReply]
    cases readBody response index with
    | error e => rfl
    | ok next =>
      refine congrArg (Program.bind (s.pagesFrom index pages next).run) (funext fun others => ?_)
      cases others <;> rfl

/-- The first request of a listing. -/
def searchRequest (s : SearchSink) (url : Url) : HttpRequest :=
  ⟨"POST", url.withQueryItem ("scroll=" ++ keepAlive), s.authorization, some scrollQuery⟩

/-- Whether a reply says that there is no such index. -/
def isMissing : Except HttpFailure HttpResponse → Bool
  | .ok response => response.status == HttpStatus.notFound
  | .error _ => false

theorem identities_run (haddress : s.address [index, "_search"] = .ok url) :
    (s.identities pages index).run = .ask (s.searchRequest url) fun reply =>
      if isMissing reply then .done (.ok [])
      else match readReply index reply with
        | .ok body => (s.pagesFrom index pages body).run
        | .error e => .done (.error e) := by
  rw [identities, haddress]
  refine congrArg (Program.ask (s.searchRequest url)) (funext fun reply => ?_)
  match reply with
  | .error (.timeout _) | .error (.connection _) => rfl
  | .ok response =>
    show ExceptT.run (if isMissing (.ok response) then pure [] else
      (liftExcept (readBody response index) : Searching Json) >>= fun body => s.pagesFrom index pages body) = _
    cases isMissing (.ok response) with
    | true => rfl
    | false =>
      rw [if_neg Bool.false_ne_true, if_neg Bool.false_ne_true, readReply]
      cases readBody response index <;> rfl

/-! ### Failures -/

/-- The replies to searches and scrolls among the exchanges of a run. -/
def pageReplies (asked : List ((r : HttpRequest) × r.Answer)) : List (Except HttpFailure HttpResponse) :=
  (asked.filter fun exchange => exchange.1.method == "POST").map Sigma.snd

/-- A reply to a search or a scroll fails: none came, it is no success, or its body is no JSON text. -/
def Fails : Except HttpFailure HttpResponse → Prop
  | .error _ => True
  | .ok response => HttpStatus.isSuccess response.status = false ∨ Json.parse? response.body = none

/-- The identities that a reply lists. -/
def replyIdentities (reply : Except HttpFailure HttpResponse) : List String :=
  match readReply "" reply with
  | .ok body => hitIdentities body
  | .error _ => []

/-- What replies to searches and scrolls give: the identities that they list, or the error of the first that fails. -/
def gather (index : String) : List (Except HttpFailure HttpResponse) → Except SinkError (List String)
  | [] => .ok []
  | reply :: rest =>
    match readReply index reply with
    | .ok body => (gather index rest).map (hitIdentities body ++ ·)
    | .error e => .error e

theorem readReply_cases (index : String) (reply : Except HttpFailure HttpResponse) :
    (Fails reply ∧ ∃ e, readReply index reply = .error e) ∨
      ∃ body, ¬ Fails reply ∧ readReply index reply = .ok body ∧ replyIdentities reply = hitIdentities body := by
  match reply with
  | .error (.timeout _) | .error (.connection _) => exact .inl ⟨trivial, _, rfl⟩
  | .ok response =>
    simp only [Fails, replyIdentities, readReply, readBody]
    cases HttpStatus.isSuccess response.status with
    | false => exact .inl ⟨.inl rfl, _, rfl⟩
    | true =>
      cases Json.parse? response.body with
      | none => exact .inl ⟨.inr rfl, _, rfl⟩
      | some body => exact .inr ⟨body, by simp, rfl, rfl⟩

theorem replyIdentities_of_isMissing {reply : Except HttpFailure HttpResponse} (h : isMissing reply) :
    replyIdentities reply = [] := by
  cases reply with
  | error e => contradiction
  | ok response =>
    have hstatus : response.status = HttpStatus.notFound := eq_of_beq h
    simp only [replyIdentities, readReply, readBody, hstatus]
    rfl

theorem gather_fails {replies : List (Except HttpFailure HttpResponse)} (h : ∃ reply ∈ replies, Fails reply) :
    ∃ e, gather index replies = .error e := by
  induction replies with
  | nil => simp at h
  | cons reply rest ih =>
    rw [gather]
    rcases readReply_cases index reply with ⟨-, e, hread⟩ | ⟨body, hreply, hread, -⟩
    · exact ⟨e, by rw [hread]⟩
    · obtain ⟨e, hrest⟩ := ih (by simpa [hreply] using h)
      exact ⟨e, by rw [hread, hrest]; rfl⟩

theorem gather_eq_ok {replies : List (Except HttpFailure HttpResponse)} {found : List String}
    (h : gather index replies = .ok found) : found = replies.flatMap replyIdentities := by
  induction replies generalizing found with
  | nil => exact (Except.ok.inj h).symm
  | cons reply rest ih =>
    rw [gather] at h
    rcases readReply_cases index reply with ⟨-, e, hread⟩ | ⟨body, -, hread, hidentities⟩
    · rw [hread] at h
      contradiction
    · rw [hread] at h
      obtain ⟨others, hothers, rfl⟩ := Except.map_eq_ok h
      rw [ih hothers, List.flatMap_cons, hidentities]

section

variable {σ : Type} {answer : (r : HttpRequest) → σ → r.Answer × σ} {st : σ}
  {result : Except SinkError (List String)}

/-- Whether a listing ends with a page: no scroll goes on behind it, or it is not full. -/
def IsLast (body : Json) : Prop :=
  (member "_scroll_id" body).string? = none ∨ (hitIdentities body).length < pageSize

theorem pagesFrom_last (answer : (r : HttpRequest) → σ → r.Answer × σ) (index : String) (pages : Nat) (st : σ)
    (haddress : s.address ["_search", "scroll"] = .ok url) (hlast : IsLast body) :
    ((s.pagesFrom index pages body).run.run answer st).1 = some (.ok (hitIdentities body)) ∧
      pageReplies ((s.pagesFrom index pages body).run.asked answer st) = [] := by
  cases hscroll : (member "_scroll_id" body).string? with
  | none =>
    rw [pagesFrom_without_scroll hscroll]
    exact ⟨rfl, rfl⟩
  | some scroll =>
    have hshort := hlast.resolve_left (by simp [hscroll])
    rw [pagesFrom_short hscroll hshort haddress]
    exact ⟨rfl, rfl⟩

theorem gathers_of_last (haddress : s.address ["_search", "scroll"] = .ok url) (hlast : IsLast body)
    (hresult : ((s.pagesFrom index pages body).run.run answer st).1 = some result) :
    result = (gather index (pageReplies ((s.pagesFrom index pages body).run.asked answer st))).map
      (hitIdentities body ++ ·) := by
  obtain ⟨hrun, hreplies⟩ := pagesFrom_last answer index pages st haddress hlast
  rw [hreplies, ← Option.some.inj (hrun.symm.trans hresult)]
  exact congrArg Except.ok (List.append_nil _).symm

/-- Behind any other page the listing goes on. -/
theorem pagesFrom_more (index : String) (haddress : s.address ["_search", "scroll"] = .ok url) (hmore : ¬ IsLast body) :
    ∃ scroll, (member "_scroll_id" body).string? = some scroll ∧ (s.pagesFrom index 0 body).run = .spent ∧
      ∀ pages, (s.pagesFrom index (pages + 1) body).run = .ask (s.scrollRequest url scroll) fun reply =>
        match readReply index reply with
        | .ok next => (s.pagesFrom index pages next).run.bind fun others =>
            .done (others.map (hitIdentities body ++ ·))
        | .error e => .done (.error e) := by
  obtain ⟨hscroll, hfull⟩ := not_or.mp hmore
  obtain ⟨scroll, hscroll⟩ := Option.ne_none_iff_exists'.mp hscroll
  exact ⟨scroll, hscroll, pagesFrom_spent hscroll hfull, fun pages => pagesFrom_full hscroll hfull haddress⟩

/-- Behind a page a listing gives what the replies to its scrolls do. -/
theorem pagesFrom_gathers (haddress : s.address ["_search", "scroll"] = .ok url)
    (hresult : ((s.pagesFrom index pages body).run.run answer st).1 = some result) :
    result = (gather index (pageReplies ((s.pagesFrom index pages body).run.asked answer st))).map
      (hitIdentities body ++ ·) := by
  induction pages generalizing body st result with
  | zero =>
    by_cases hlast : IsLast body
    · exact gathers_of_last haddress hlast hresult
    · obtain ⟨scroll, -, hspent, -⟩ := pagesFrom_more index haddress hlast
      rw [hspent] at hresult
      contradiction
  | succ pages ih =>
    by_cases hlast : IsLast body
    · exact gathers_of_last haddress hlast hresult
    · obtain ⟨scroll, -, -, hfull⟩ := pagesFrom_more index haddress hlast
      rw [hfull, Program.run] at hresult
      rw [hfull, Program.asked]
      have hpage (reply : Except HttpFailure HttpResponse) (rest : List ((r : HttpRequest) × r.Answer)) :
          pageReplies (⟨s.scrollRequest url scroll, reply⟩ :: rest) = reply :: pageReplies rest := rfl
      rw [hpage, gather]
      cases hread : readReply index (answer (s.scrollRequest url scroll) st).1 with
      | error e =>
        simp only [hread] at hresult
        exact (Option.some.inj hresult).symm
      | ok next =>
        simp only [hread, Program.run_bind_done, Program.asked_bind_done] at hresult ⊢
        obtain ⟨others, hothers, rfl⟩ := Option.map_eq_some_iff.mp hresult
        rw [ih hothers]

theorem address_cases (s : SearchSink) :
    (∀ segments, ∃ e, s.address segments = .error e) ∨ ∀ segments, ∃ url, s.address segments = .ok url := by
  cases hpath : s.base.path with
  | fixed text => exact .inl fun segments => ⟨_, by rw [address, Url.extended?, hpath]⟩
  | segments items => exact .inr fun segments => ⟨_, by rw [address, Url.extended?, hpath]⟩

theorem identities_unaddressed (h : s.address [index, "_search"] = .error e) :
    (s.identities pages index).run = .done (.error e) := by
  rw [identities, h]
  rfl

/-- What a listing gives: nothing where no request can be made or the index is missing, and else what the replies to
its searches and scrolls do. -/
theorem identities_cases (hresult : ((s.identities pages index).run.run answer st).1 = some result) :
    (∃ e, result = .error e ∧ pageReplies ((s.identities pages index).run.asked answer st) = []) ∨
    (∃ first, isMissing first ∧ result = .ok [] ∧
      pageReplies ((s.identities pages index).run.asked answer st) = [first]) ∨
    ∃ first rest, ¬ isMissing first ∧ result = gather index (first :: rest) ∧
      pageReplies ((s.identities pages index).run.asked answer st) = first :: rest := by
  rcases s.address_cases with hnone | haddress
  · obtain ⟨e, he⟩ := hnone [index, "_search"]
    rw [identities_unaddressed he] at hresult ⊢
    exact .inl ⟨e, (Option.some.inj hresult).symm, rfl⟩
  right
  obtain ⟨search, hsearch⟩ := haddress [index, "_search"]
  obtain ⟨url, hurl⟩ := haddress ["_search", "scroll"]
  rw [identities_run hsearch, Program.run] at hresult
  rw [identities_run hsearch, Program.asked]
  have hpage (reply : Except HttpFailure HttpResponse) (rest : List ((r : HttpRequest) × r.Answer)) :
      pageReplies (⟨s.searchRequest search, reply⟩ :: rest) = reply :: pageReplies rest := rfl
  rw [hpage]
  by_cases hmissing : isMissing (answer (s.searchRequest search) st).1
  · rw [if_pos hmissing] at hresult ⊢
    exact .inl ⟨_, hmissing, (Option.some.inj hresult).symm, rfl⟩
  · rw [if_neg hmissing] at hresult ⊢
    refine .inr ⟨_, _, hmissing, ?_, rfl⟩
    rw [gather]
    cases hread : readReply index (answer (s.searchRequest search) st).1 with
    | error e =>
      simp only [hread] at hresult
      exact (Option.some.inj hresult).symm
    | ok body =>
      simp only [hread] at hresult ⊢
      exact pagesFrom_gathers hurl hresult

/-- A listing that ends gives an error if a search or a scroll failed, unless the first told that there is no such
index, and else every identity of every page. -/
theorem identities_tells (hresult : ((s.identities pages index).run.run answer st).1 = some result) :
    ((∃ i reply, (pageReplies ((s.identities pages index).run.asked answer st))[i]? = some reply ∧ Fails reply ∧
        ¬ (i = 0 ∧ isMissing reply)) → ∃ e, result = .error e) ∧
      ∀ found, result = .ok found →
        found = (pageReplies ((s.identities pages index).run.asked answer st)).flatMap replyIdentities := by
  rcases identities_cases hresult with
    ⟨e, rfl, hnone⟩ | ⟨first, hmissing, rfl, hone⟩ | ⟨first, rest, hfound, rfl, hall⟩
  · exact ⟨fun _ => ⟨e, rfl⟩, nofun⟩
  · rw [hone]
    refine ⟨?_, ?_⟩
    · rintro ⟨i, reply, hi, -, hnot⟩
      obtain ⟨rfl, rfl⟩ : i = 0 ∧ first = reply := by
        rcases i with _ | i <;> simp_all
      exact absurd ⟨rfl, hmissing⟩ hnot
    · intro found hfound
      rw [List.flatMap_singleton, replyIdentities_of_isMissing hmissing, ← Except.ok.inj hfound]
  · rw [hall]
    refine ⟨?_, fun found hok => gather_eq_ok hok⟩
    rintro ⟨i, reply, hi, hfails, -⟩
    exact gather_fails ⟨reply, List.mem_of_getElem? hi, hfails⟩

end

/-- A server with a script fails, or has one reply less to come. -/
theorem readReply_answer (index : String) (p : SearchPeer) (request : HttpRequest) :
    (∃ e, readReply index (p.answer request).1 = .error e) ∨
      (p.answer request).2.replies.length + 1 = p.replies.length := by
  rw [SearchPeer.answer]
  split
  · cases hreplies : p.replies with
    | nil => exact .inl ⟨_, rfl⟩
    | cons reply rest => exact .inr rfl
  · exact .inl ⟨_, rfl⟩

theorem pagesFrom_ends (haddress : s.address ["_search", "scroll"] = .ok url) {p : SearchPeer}
    (hpages : p.replies.length < pages) :
    ∃ result, ((s.pagesFrom index pages body).run.run SearchPeer.answer p).1 = some result := by
  induction pages generalizing body p with
  | zero => contradiction
  | succ pages ih =>
    by_cases hlast : IsLast body
    · exact ⟨_, (pagesFrom_last SearchPeer.answer index (pages + 1) p haddress hlast).1⟩
    obtain ⟨scroll, -, -, hfull⟩ := pagesFrom_more index haddress hlast
    rw [hfull, Program.run]
    cases hread : readReply index (p.answer (s.scrollRequest url scroll)).1 with
    | error e => exact ⟨_, rfl⟩
    | ok next =>
      have hless := (readReply_answer index p (s.scrollRequest url scroll)).resolve_left (by simp [hread])
      have hpages' : (p.answer (s.scrollRequest url scroll)).2.replies.length < pages := by omega
      obtain ⟨others, hothers⟩ := @ih next _ hpages'
      exact ⟨_, by simp only [Program.run_bind_done, hothers]; rfl⟩

/-- A listing from a script ends, if it may take as many pages as there are replies. -/
theorem identities_ends (s : SearchSink) (index : String) {p : SearchPeer} (hpages : p.replies.length ≤ pages) :
    ∃ result, ((s.identities pages index).run.run SearchPeer.answer p).1 = some result := by
  rcases s.address_cases with hnone | haddress
  · obtain ⟨e, he⟩ := hnone [index, "_search"]
    exact ⟨_, by rw [identities_unaddressed he]; rfl⟩
  obtain ⟨search, hsearch⟩ := haddress [index, "_search"]
  obtain ⟨url, hurl⟩ := haddress ["_search", "scroll"]
  rw [identities_run hsearch, Program.run]
  split
  · exact ⟨_, rfl⟩
  cases hread : readReply index (p.answer (s.searchRequest search)).1 with
  | error e => exact ⟨_, rfl⟩
  | ok body =>
    have hless := (readReply_answer index p (s.searchRequest search)).resolve_left (by simp [hread])
    exact pagesFrom_ends hurl (by omega)

end SearchSink

/-! ### A server that holds documents -/

/-- A server with the documents of one index.  It has an address for searches that open a scroll and one for scrolls,
a name for the scroll of every response, and responses from which that name and the hits can be read. -/
structure ScrollServer where
  search : Url
  scroll : Url
  documents : List Document
  name : Nat → String
  body : String → List Document → String
  reads : ∀ id page, ∃ response, Json.parse? (body id page) = some response ∧
    SearchSink.member "_scroll_id" response = .string id ∧
    ∃ hits, SearchSink.member "hits" (SearchSink.member "hits" response) = .array hits ∧
      hits.map (SearchSink.member "_id") = page.map fun d => .string d.identity

/-- The open scrolls, each with its page size and the documents to come, and how many responses there were. -/
structure OpenScrolls where
  scrolls : Keyed (Nat × List Document)
  responses : Nat

namespace ScrollServer

open SearchSink

variable (server : ScrollServer)

/-- Answers with a page of documents, and keeps a scroll open for those behind it. -/
def page (size : Nat) (documents : List Document) (st : OpenScrolls) : HttpResponse × OpenScrolls :=
  (⟨200, server.body (server.name st.responses) (documents.take size)⟩,
    ⟨st.scrolls.put (server.name st.responses) (size, documents.drop size), st.responses + 1⟩)

/-- Answers a search with its first page, a scroll with the next one, and closes what is released. -/
def answer (request : HttpRequest) (st : OpenScrolls) : Except HttpFailure HttpResponse × OpenScrolls :=
  let refused : HttpResponse × OpenScrolls := (⟨400, ""⟩, st)
  let (response, st') : HttpResponse × OpenScrolls :=
    match request.body with
    | none => refused
    | some query =>
      match (member "scroll_id" query).string? with
      | none =>
        if request.method = "POST" ∧ request.url = server.search then
          server.page (SearchServer.size query) server.documents st
        else refused
      | some id =>
        match st.scrolls.get? id with
        | none => (⟨404, ""⟩, st)
        | some (size, rest) =>
          if request.url ≠ server.scroll then refused
          else if request.method = "POST" then server.page size rest { st with scrolls := st.scrolls.erase id }
          else if request.method = "DELETE" then (⟨200, ""⟩, { st with scrolls := st.scrolls.erase id })
          else refused
  (.ok response, st')

section

variable {server} {s : SearchSink} {index id : String} {url : Url} {st : OpenScrolls} {size : Nat}
  {rest : List Document}

theorem answer_search (hsearch : server.search = url.withQueryItem ("scroll=" ++ keepAlive)) :
    server.answer (s.searchRequest url) st =
      (.ok (server.page pageSize server.documents st).1, (server.page pageSize server.documents st).2) := by
  have hscroll : (member "scroll_id" scrollQuery).string? = none := rfl
  have hsize : SearchServer.size scrollQuery = pageSize := rfl
  simp only [answer, searchRequest, hscroll, hsize, ← hsearch, and_self, if_true]

theorem answer_scroll (hscroll : st.scrolls.get? id = some (size, rest)) :
    server.answer (s.scrollRequest server.scroll id) st =
      (.ok (server.page size rest { st with scrolls := st.scrolls.erase id }).1,
        (server.page size rest { st with scrolls := st.scrolls.erase id }).2) := by
  have hid : (member "scroll_id" (.object [("scroll", .string keepAlive), ("scroll_id", .string id)])).string? =
      some id := rfl
  simp [answer, scrollRequest, hid, hscroll]

theorem answer_release (hscroll : st.scrolls.get? id = some (size, rest)) :
    server.answer (s.releaseRequest server.scroll id) st =
      (.ok ⟨200, ""⟩, { st with scrolls := st.scrolls.erase id }) := by
  have hid : (member "scroll_id" (.object [("scroll_id", .string id)])).string? = some id := rfl
  simp [answer, releaseRequest, hid, hscroll]

/-- A page is read as it was written. -/
theorem readReply_body (server : ScrollServer) (index id : String) (page : List Document) :
    ∃ response, readReply index (.ok ⟨200, server.body id page⟩) = .ok response ∧
      (member "_scroll_id" response).string? = some id ∧ hitIdentities response = page.map Document.identity := by
  obtain ⟨response, hparse, hid, hits, hmember, hhits⟩ := server.reads id page
  refine ⟨response, ?_, by rw [hid]; rfl, ?_⟩
  · simp only [readReply, readBody, hparse]
    rfl
  · have hfilter : hits.filterMap (fun hit => (member "_id" hit).string?) =
        (hits.map (member "_id")).filterMap Json.string? := by
      rw [List.filterMap_map]
      rfl
    rw [hitIdentities, hmember]
    show hits.filterMap _ = _
    rw [hfilter, hhits, List.filterMap_map]
    exact List.filterMap_eq_map_iff_forall_eq_some.mpr fun d _ => rfl

/-- A listing has read a page, and its scroll is the only one open, for the documents behind the page.  There are
none if the page is not full. -/
structure HasRead (st : OpenScrolls) (body : Json) (page rest : List Document) : Prop where
  scroll : ∃ id, (member "_scroll_id" body).string? = some id ∧ st.scrolls = [(id, pageSize, rest)]
  hits : hitIdentities body = page.map Document.identity
  most : page.length ≤ pageSize
  short : page.length < pageSize → rest = []

theorem hasRead_page (server : ScrollServer) (index : String) (st : OpenScrolls) (documents : List Document)
    (hst : st.scrolls = []) :
    ∃ body, readReply index (.ok (server.page pageSize documents st).1) = .ok body ∧
      HasRead (server.page pageSize documents st).2 body (documents.take pageSize) (documents.drop pageSize) := by
  obtain ⟨body, hread, hid, hhits⟩ := server.readReply_body index (server.name st.responses)
    (documents.take pageSize)
  refine ⟨body, hread, ⟨_, hid, ?_⟩, hhits, ?_, fun hshort => ?_⟩
  · rw [page, hst]
    rfl
  · rw [List.length_take]
    exact Nat.min_le_left _ _
  · rw [List.length_take] at hshort
    exact List.drop_eq_nil_of_le (by omega)

variable {body : Json} {page : List Document} {pages : Nat}

/-- A page that is not full is the last, and its scroll is released. -/
theorem HasRead.last (h : HasRead st body page rest) (haddress : s.address ["_search", "scroll"] = .ok server.scroll)
    (hlast : page.length < pageSize) :
    ((s.pagesFrom index pages body).run.run server.answer st).1 =
        some (.ok ((page ++ rest).map Document.identity)) ∧
      ((s.pagesFrom index pages body).run.run server.answer st).2.scrolls = [] ∧
      ((s.pagesFrom index pages body).run.asked server.answer st).length =
        (page.length + rest.length) / pageSize + 1 := by
  obtain ⟨id, hid, hopen⟩ := h.scroll
  have hget : st.scrolls.get? id = some (pageSize, rest) := by rw [hopen]; exact if_pos rfl
  have hshort : (hitIdentities body).length < pageSize := by rwa [h.hits, List.length_map]
  have hcount : (page.length + rest.length) / pageSize = 0 := by
    rw [h.short hlast]
    exact Nat.div_eq_of_lt hlast
  rw [pagesFrom_short hid hshort haddress, Program.run, Program.asked, answer_release hget, h.hits, hcount,
    h.short hlast, List.append_nil]
  exact ⟨rfl, by simp [Program.run, hopen, Keyed.erase], rfl⟩

/-- Behind a full page the listing reads the next one. -/
theorem HasRead.more (h : HasRead st body page rest) (index : String)
    (haddress : s.address ["_search", "scroll"] = .ok server.scroll) (hfull : ¬ page.length < pageSize) :
    ∃ st' next exchange, HasRead st' next (rest.take pageSize) (rest.drop pageSize) ∧ ∀ pages,
      (s.pagesFrom index (pages + 1) body).run.run server.answer st =
        (((s.pagesFrom index pages next).run.run server.answer st').1.map
          (Except.map (page.map Document.identity ++ ·)),
          ((s.pagesFrom index pages next).run.run server.answer st').2) ∧
      (s.pagesFrom index (pages + 1) body).run.asked server.answer st =
        exchange :: (s.pagesFrom index pages next).run.asked server.answer st' := by
  obtain ⟨id, hid, hopen⟩ := h.scroll
  have hget : st.scrolls.get? id = some (pageSize, rest) := by rw [hopen]; exact if_pos rfl
  have herase : st.scrolls.erase id = [] := by simp [hopen, Keyed.erase]
  obtain ⟨next, hread, hnext⟩ := hasRead_page server index { st with scrolls := st.scrolls.erase id } rest herase
  refine ⟨_, next, ⟨s.scrollRequest server.scroll id,
    .ok (server.page pageSize rest { st with scrolls := st.scrolls.erase id }).1⟩, hnext, fun pages => ?_⟩
  rw [pagesFrom_full hid (by rwa [h.hits, List.length_map]) haddress, Program.run, Program.asked,
    answer_scroll hget]
  simp only [hread, Program.run_bind_done, Program.asked_bind_done, h.hits, and_self]

/-- From a page on a listing gives that page and the documents behind it, and leaves no scroll open. -/
theorem HasRead.run (h : HasRead st body page rest) (index : String)
    (haddress : s.address ["_search", "scroll"] = .ok server.scroll)
    (hpages : (page.length + rest.length) / pageSize ≤ pages) :
    ((s.pagesFrom index pages body).run.run server.answer st).1 =
        some (.ok ((page ++ rest).map Document.identity)) ∧
      ((s.pagesFrom index pages body).run.run server.answer st).2.scrolls = [] ∧
      ((s.pagesFrom index pages body).run.asked server.answer st).length =
        (page.length + rest.length) / pageSize + 1 := by
  induction pages generalizing st body page rest with
  | zero =>
    have hlast : page.length < pageSize := by simp only [pageSize] at hpages ⊢; omega
    exact h.last haddress hlast
  | succ pages ih =>
    by_cases hlast : page.length < pageSize
    · exact h.last haddress hlast
    · obtain ⟨st', next, exchange, hnext, hstep⟩ := h.more index haddress hlast
      obtain ⟨hrun, hasked⟩ := hstep pages
      have hfull : page.length = pageSize := Nat.le_antisymm h.most (Nat.not_lt.mp hlast)
      have hlength : (rest.take pageSize).length + (rest.drop pageSize).length = rest.length := by
        rw [← List.length_append, List.take_append_drop]
      -- What is behind a full page is the next page with what is behind that, one page less to come.
      have hdiv : (page.length + rest.length) / pageSize = rest.length / pageSize + 1 := by
        rw [hfull, Nat.add_comm, Nat.add_div_right _ (by decide)]
      obtain ⟨hothers, hclosed, hcount⟩ := ih hnext (by rw [hlength]; omega)
      rw [hrun, hasked, hothers, List.take_append_drop, List.length_cons, hcount, hlength, hdiv]
      exact ⟨by rw [List.map_append]; rfl, hclosed, rfl⟩

/-- A server that the requests of a sink for the pages of an index reach. -/
structure Serves (server : ScrollServer) (s : SearchSink) (index : String) : Prop where
  search : ∃ url, s.address [index, "_search"] = .ok url ∧
    server.search = url.withQueryItem ("scroll=" ++ keepAlive)
  scroll : s.address ["_search", "scroll"] = .ok server.scroll

/-- A listing gives every document, in one request more than there are pages, and leaves no scroll open. -/
theorem identities_run (h : server.Serves s index) (hst : st.scrolls = [])
    (hpages : server.documents.length / pageSize ≤ pages) :
    ((s.identities pages index).run.run server.answer st).1 =
        some (.ok (server.documents.map Document.identity)) ∧
      ((s.identities pages index).run.run server.answer st).2.scrolls = [] ∧
      ((s.identities pages index).run.asked server.answer st).length = server.documents.length / pageSize + 2 := by
  obtain ⟨url, hurl, hsearch⟩ := h.search
  obtain ⟨body, hread, hfirst⟩ := hasRead_page server index st server.documents hst
  have hlength : (server.documents.take pageSize).length + (server.documents.drop pageSize).length =
      server.documents.length := by
    rw [← List.length_append, List.take_append_drop]
  have hfound : isMissing (.ok (server.page pageSize server.documents st).1) = false := rfl
  obtain ⟨hrun, hclosed, hcount⟩ := hfirst.run index h.scroll (hlength.symm ▸ hpages)
  rw [SearchSink.identities_run hurl, Program.run, Program.asked, answer_search hsearch]
  simp only [hfound, hread, Bool.false_eq_true, if_false, List.length_cons, hcount, hlength, hrun, hclosed,
    List.take_append_drop, and_self]

/-- **A listing is complete or fails.**  From a server that answers a scroll with page after page, each full as long
as there are documents, a listing gets the identity of every document once and in order, also if the last page is empty
or the only one.  It makes one request more than there are pages, and the last of them releases the scroll.  From
whatever follows a script a listing gets an end in as many pages as there are replies: an error if a search or a scroll
fails, but for a first reply that there is no such index, and else every identity of every reply. -/
theorem identities_complete (s : SearchSink) (index : String) :
    (∀ (server : ScrollServer) (pages : Nat), server.Serves s index →
      server.documents.length / pageSize ≤ pages →
      ((s.identities pages index).run.run server.answer ⟨[], 0⟩).1 =
          some (.ok (server.documents.map Document.identity)) ∧
        ((s.identities pages index).run.run server.answer ⟨[], 0⟩).2.scrolls = [] ∧
        ((s.identities pages index).run.asked server.answer ⟨[], 0⟩).length =
          server.documents.length / pageSize + 2) ∧
    ∀ (p : SearchPeer) (pages : Nat), p.replies.length ≤ pages →
      ∃ result, ((s.identities pages index).run.run SearchPeer.answer p).1 = some result ∧
        ((∃ i reply, (pageReplies ((s.identities pages index).run.asked SearchPeer.answer p))[i]? = some reply ∧
          Fails reply ∧ ¬ (i = 0 ∧ isMissing reply)) → ∃ e, result = .error e) ∧
        ∀ found, result = .ok found →
          found = (pageReplies ((s.identities pages index).run.asked SearchPeer.answer p)).flatMap
            replyIdentities := by
  refine ⟨fun server pages h hpages => identities_run h rfl hpages, fun p pages hpages => ?_⟩
  obtain ⟨result, hresult⟩ := identities_ends s index hpages
  exact ⟨result, hresult, identities_tells hresult⟩

/-- A page and the name of its scroll. -/
def response (id : String) (page : List Document) : Json :=
  .object [("_scroll_id", .string id),
    ("hits", .object [("hits", .array (page.map fun d => .object [("_id", .string d.identity)]))])]

theorem plain_response (depth : Nat) (id : String) (page : List Document) :
    Json.Plain (depth + 4) (response id page) := by
  refine .object (by simp) fun m hm => ?_
  rcases List.mem_cons.mp hm with rfl | hm
  · exact .string _
  obtain rfl := List.mem_singleton.mp hm
  refine .object (List.nodup_singleton _) fun m hm => ?_
  obtain rfl := List.mem_singleton.mp hm
  refine .array fun v hv => ?_
  obtain ⟨d, -, rfl⟩ := List.mem_map.mp hv
  refine .object (List.nodup_singleton _) fun m hm => ?_
  obtain rfl := List.mem_singleton.mp hm
  exact .string _

/-- A server at hand, where every scroll has the same name. -/
def localScrolls (documents : List Document) : ScrollServer where
  search := SearchServer.localSearch.withQueryItem ("scroll=" ++ keepAlive)
  scroll := ⟨"http", some ⟨"", none, "localhost", some 9200⟩, .segments ["_search", "scroll"], none, none⟩
  documents := documents
  name _ := "scroll"
  body id page := (response id page).render
  reads id page := by
    refine ⟨response id page, Json.parse?_render (plain_response 123 id page), rfl, _, rfl, ?_⟩
    rw [List.map_map]
    rfl

theorem serves_localScrolls (documents : List Document) :
    (localScrolls documents).Serves SearchServer.localSink "shelves" := by
  refine ⟨⟨_, SearchServer.address_localSink, rfl⟩, ?_⟩
  have hextended : SearchServer.localSink.base.extended? ["_search", "scroll"] = some (localScrolls []).scroll := by
    decide +kernel
  rw [address, hextended]
  rfl

theorem identities_complete_of_two :
    (((SearchServer.localSink.identities 0 "shelves").run.run
        (localScrolls [SearchServer.shelved "a", SearchServer.shelved "b"]).answer ⟨[], 0⟩).1 = some (.ok ["a", "b"]) ∧
      ((SearchServer.localSink.identities 0 "shelves").run.asked
        (localScrolls [SearchServer.shelved "a", SearchServer.shelved "b"]).answer ⟨[], 0⟩).length = 2) ∧
    ∃ e, ((SearchServer.localSink.identities 1 "shelves").run.run SearchPeer.answer
      ⟨true, [.respond ⟨503, ""⟩], []⟩).1 = some (.error e) := by
  obtain ⟨hserves, hscript⟩ := identities_complete SearchServer.localSink "shelves"
  obtain ⟨hrun, -, hasked⟩ := hserves (localScrolls [SearchServer.shelved "a", SearchServer.shelved "b"]) 0
    (serves_localScrolls _) (Nat.le_refl 0)
  obtain ⟨result, hresult, hfails, -⟩ := hscript ⟨true, [.respond ⟨503, ""⟩], []⟩ 1 (Nat.le_refl 1)
  obtain ⟨e, rfl⟩ := hfails ⟨0, .ok ⟨503, ""⟩, by rw [SearchSink.identities_run SearchServer.address_localSink]; rfl,
    .inl rfl, by decide⟩
  exact ⟨⟨hrun, hasked⟩, e, hresult⟩

end

end ScrollServer

end DocSync
