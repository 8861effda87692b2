import DocSync.Proofs.Json.Reading
import DocSync.Search.Sink
import DocSync.Sink.Memory
import Mathlib.Data.List.Perm.Subperm

/-!
Lookups on a search server.  The server holds the documents of an index and answers a search with the first of those
that satisfy its terms, as many as the search asks for.  Main statement: a lookup sends one search, and finds
every document that it looks for exactly if there are no more of them than one search asks for.
-/

namespace DocSync

/-- A value as a server indexes it: the items of an array, or itself. -/
def Json.leaves : Json → List Json
  | .array items => items
  | other => [other]

namespace Document

/-- The fields under `_meta` as a server names them, with their values. -/
def metaFields (d : Document) : List (String × Json) :=
  (d.meta?.getD []).flatMap fun (table, columns) =>
    (columns.object?.getD []).flatMap fun (column, value) =>
      value.leaves.map fun v => (metaField ++ "." ++ table ++ "." ++ column, v)

/-- Whether a field of a document holds a value. -/
def satisfies (d : Document) (term : String × Json) : Bool :=
  d.metaFields.any fun (field, v) => field == term.1 && Json.compare v term.2 == .eq

/-- Whether a document's `_meta` holds every value of a key under a table. -/
def holdsKey (table : String) (key : List (String × Json)) (d : Document) : Bool :=
  key.all fun (column, value) => d.satisfies (metaField ++ "." ++ table ++ "." ++ column, value)

end Document

/-- A server with the documents of one index, and the address that searches of it are sent to. -/
structure SearchServer where
  search : Url
  documents : List Document

namespace SearchServer

open SearchSink

/-- The terms of a search, all of which are to be satisfied. -/
def terms (query : Json) : List (String × Json) :=
  match member "filter" (member "bool" (member "query" query)) with
  | .array filters => filters.flatMap fun filter => (member "term" filter).object?.getD []
  | _ => []

def size (query : Json) : Nat :=
  match member "size" query with
  | .number n => n.unsigned?.getD 10
  | _ => 10

def hits (server : SearchServer) (query : Json) : List Document :=
  (server.documents.filter fun d => (terms query).all d.satisfies).take (size query)

def page (hits : List Document) : Json :=
  .object [("hits", .object [("hits", .array (hits.map fun d => .object [("_id", .string d.identity)]))])]

/-- Answers a search, and keeps what was asked. -/
def answer (server : SearchServer) (request : HttpRequest) (log : List HttpRequest) :
    Except HttpFailure HttpResponse × List HttpRequest :=
  let response : HttpResponse :=
    match request.body with
    | some query =>
      if request.method = "POST" ∧ request.url = server.search then ⟨200, (page (server.hits query)).render⟩
      else ⟨400, ""⟩
    | none => ⟨400, ""⟩
  (.ok response, log ++ [request])

theorem plain_page (depth : Nat) (hits : List Document) : Json.Plain (depth + 4) (page hits) := by
  refine .object (List.nodup_singleton _) fun m hm => ?_
  obtain rfl := List.mem_singleton.mp hm
  refine .object (List.nodup_singleton _) fun m hm => ?_
  obtain rfl := List.mem_singleton.mp hm
  refine .array fun v hv => ?_
  obtain ⟨d, -, rfl⟩ := List.mem_map.mp hv
  refine .object (List.nodup_singleton _) fun m hm => ?_
  obtain rfl := List.mem_singleton.mp hm
  exact .string _

theorem hitIdentities_page (hits : List Document) : hitIdentities (page hits) = hits.map Document.identity := by
  have hmember : member "hits" (member "hits" (page hits)) =
      .array (hits.map fun d => .object [("_id", .string d.identity)]) := rfl
  rw [hitIdentities, hmember]
  show (hits.map _).filterMap _ = _
  rw [List.filterMap_map]
  exact List.filterMap_eq_map_iff_forall_eq_some.mpr fun d _ => rfl

theorem size_metaQuery (table : String) (key : List (String × Json)) : size (metaQuery table key) = mostHits := rfl

theorem terms_metaQuery (table : String) (key : List (String × Json)) :
    terms (metaQuery table key) =
      key.map fun (column, value) => (metaField ++ "." ++ table ++ "." ++ column, value) := by
  have hmember : member "filter" (member "bool" (member "query" (metaQuery table key))) =
      .array (key.map fun (column, value) =>
        .object [("term", .object [(metaField ++ "." ++ table ++ "." ++ column, value)])]) := rfl
  rw [terms, hmember]
  show (key.map _).flatMap _ = _
  rw [List.flatMap_map]
  exact (List.map_eq_flatMap ..).symm

variable {s : SearchSink} {server : SearchServer} {index table : String} {key : List (String × Json)}

theorem hits_metaQuery : server.hits (metaQuery table key) =
    (server.documents.filter (·.holdsKey table key)).take mostHits := by
  rw [hits, size_metaQuery, terms_metaQuery]
  congr 1
  exact List.filter_congr fun d _ => by rw [List.all_map]; rfl

theorem readBody_page (hits : List Document) : readBody ⟨200, (page hits).render⟩ index = .ok (page hits) := by
  have hparse : Json.parse? (page hits).render = some (page hits) := Json.parse?_render (plain_page 123 hits)
  simp only [readBody, hparse]
  rfl

theorem findByMeta_run (haddress : s.address [index, "_search"] = .ok server.search) (log : List HttpRequest) :
    (s.findByMeta index table key).run.run server.answer log =
      (some (.ok ((server.hits (metaQuery table key)).map Document.identity)),
        log ++ [⟨"POST", server.search, s.authorization, some (metaQuery table key)⟩]) := by
  have hanswer : server.answer ⟨"POST", server.search, s.authorization, some (metaQuery table key)⟩ log =
      (.ok ⟨200, (page (server.hits (metaQuery table key))).render⟩,
        log ++ [⟨"POST", server.search, s.authorization, some (metaQuery table key)⟩]) := by
    simp [answer]
  rw [SearchSink.findByMeta, haddress]
  show Program.run server.answer (.ask _ _) log = _
  rw [Program.run, hanswer, ← hitIdentities_page]
  show Program.run server.answer
    (Program.bind (liftExcept (readBody ⟨200, _⟩ index) : Searching Json).run _) _ = _
  rw [readBody_page]
  rfl

/-- The first documents are all of them exactly if there are no more. -/
theorem all_found_iff {documents : List Document} (hdistinct : (documents.map Document.identity).Nodup) (most : Nat) :
    (∀ d ∈ documents, d.identity ∈ (documents.take most).map Document.identity) ↔ documents.length ≤ most := by
  constructor
  · -- Identities that are distinct and among the first ones are no more than those.
    intro hall
    have hsubset : documents.map Document.identity ⊆ (documents.take most).map Document.identity := by
      intro identity hidentity
      obtain ⟨d, hd, rfl⟩ := List.mem_map.mp hidentity
      exact hall d hd
    have hlength := (List.subperm_of_subset hdistinct hsubset).length_le
    rw [List.length_map, List.length_map, List.length_take] at hlength
    omega
  · intro hlength d hd
    rw [List.take_of_length_le hlength]
    exact List.mem_map_of_mem hd

theorem mem_metaFields {d : Document} {found columns : Keyed Json} {column : String} {values : List Json} {v : Json}
    (hfound : d.meta? = some found) (htable : (table, .object columns) ∈ found)
    (hcolumn : (column, .array values) ∈ columns) (hv : v ∈ values) :
    (metaField ++ "." ++ table ++ "." ++ column, v) ∈ d.metaFields := by
  rw [Document.metaFields, hfound]
  refine List.mem_flatMap.mpr ⟨_, htable, List.mem_flatMap.mpr ⟨_, hcolumn, ?_⟩⟩
  exact List.mem_map_of_mem hv

/-- What a sink in memory looks up satisfies the terms of a search. -/
theorem holdsKey_of_lists {d : Document} (h : MemorySink.lists table key d = true) : d.holdsKey table key = true := by
  rw [MemorySink.lists] at h
  split at h
  · contradiction
  · rename_i columns hcolumns
    obtain ⟨value, hvalue, hobject⟩ := Option.bind_eq_some_iff.mp hcolumns
    obtain ⟨found, hfound, htable⟩ := Option.bind_eq_some_iff.mp hvalue
    cases value with
    | object members =>
      obtain rfl := Option.some.inj hobject
      refine List.all_eq_true.mpr fun entry hentry => ?_
      have hlists := List.all_eq_true.mp h entry hentry
      dsimp only at hlists
      split at hlists
      · contradiction
      · rename_i values hvalues
        obtain ⟨items, hitems, harray⟩ := Option.bind_eq_some_iff.mp hvalues
        cases items with
        | array listed =>
          obtain rfl := Option.some.inj harray
          obtain ⟨v, hv, hequal⟩ := List.any_eq_true.mp hlists
          refine List.any_eq_true.mpr ⟨_, mem_metaFields hfound (Keyed.mem_of_get? htable)
            (Keyed.mem_of_get? hitems) hv, ?_⟩
          exact Bool.and_eq_true_iff.mpr ⟨beq_self_eq_true _, hequal⟩
        | _ => contradiction
    | _ => contradiction

/-- **Lookups find what one search asks for.**  A lookup on a server that holds documents of different identities
gives the first of those that hold the key, in the order of the server.  These are all of them exactly if there
are no more than one search asks for, and then none is missed that a sink in memory would find. -/
theorem findByMeta_complete_iff (s : SearchSink) (server : SearchServer) (index table : String)
    (key : List (String × Json)) (haddress : s.address [index, "_search"] = .ok server.search)
    (hdistinct : (server.documents.map Document.identity).Nodup) :
    ∃ found log, (s.findByMeta index table key).run.run server.answer [] = (some (.ok found), log) ∧
      log.length = 1 ∧
      found = ((server.documents.filter (·.holdsKey table key)).take mostHits).map Document.identity ∧
      ((∀ d ∈ server.documents, d.holdsKey table key = true → d.identity ∈ found) ↔
        (server.documents.filter (·.holdsKey table key)).length ≤ mostHits) ∧
      ((server.documents.filter (·.holdsKey table key)).length ≤ mostHits →
        ∀ d ∈ server.documents, MemorySink.lists table key d = true → d.identity ∈ found) := by
  have hfound : (∀ d ∈ server.documents, d.holdsKey table key = true →
      d.identity ∈ ((server.documents.filter (·.holdsKey table key)).take mostHits).map Document.identity) ↔
      (server.documents.filter (·.holdsKey table key)).length ≤ mostHits := by
    rw [← all_found_iff (hdistinct.sublist (List.filter_sublist.map _))]
    simp only [List.mem_filter, and_imp]
  refine ⟨_, _, findByMeta_run haddress [], rfl, by rw [hits_metaQuery], ?_, fun hfew d hd hlists => ?_⟩
  · rw [hits_metaQuery]
    exact hfound
  · rw [hits_metaQuery]
    exact hfound.mpr hfew d hd (holdsKey_of_lists hlists)

/-- A document that a book is part of. -/
def shelved (identity : String) : Document :=
  ⟨identity, "shelves", [(metaField, .object [("book", .object [("isbn", .array [.string "x"])])])]⟩

/-- The sink and the address of searches of an index on a server at hand. -/
def localSink : SearchSink :=
  ⟨⟨"http", some ⟨"", none, "localhost", some 9200⟩, .segments [""], none, none⟩, none, none, none⟩

def localSearch : Url :=
  ⟨"http", some ⟨"", none, "localhost", some 9200⟩, .segments ["shelves", "_search"], none, none⟩

theorem address_localSink : localSink.address ["shelves", "_search"] = .ok localSearch := by
  have hextended : localSink.base.extended? ["shelves", "_search"] = some localSearch := by decide +kernel
  rw [address, hextended]

theorem lists_shelved (identity : String) :
    MemorySink.lists "book" [("isbn", .string "x")] (shelved identity) = true := by
  have hlists : MemorySink.lists "book" [("isbn", .string "x")] (shelved "") = true := by decide +kernel
  exact hlists

theorem findByMeta_complete_iff_of_two :
    ∃ found log, (localSink.findByMeta "shelves" "book" [("isbn", .string "x")]).run.run
      (answer ⟨localSearch, [shelved "a", shelved "b"]⟩) [] = (some (.ok found), log) ∧
      "a" ∈ found ∧ "b" ∈ found := by
  obtain ⟨found, log, hrun, -, -, -, hall⟩ := findByMeta_complete_iff localSink
    ⟨localSearch, [shelved "a", shelved "b"]⟩ "shelves" "book" [("isbn", .string "x")] address_localSink (by decide)
  have hfew := hall (Nat.le_trans (List.length_filter_le _ _) (by decide))
  exact ⟨found, log, hrun, hfew _ List.mem_cons_self (lists_shelved "a"),
    hfew _ (List.mem_cons_of_mem _ List.mem_cons_self) (lists_shelved "b")⟩

/-- Of ten thousand and one documents that a lookup looks for, one is missed. -/
theorem findByMeta_misses :
    let documents := (List.range 10001).map fun n => shelved (String.ofList (List.replicate n 'a'))
    ∃ found log, (localSink.findByMeta "shelves" "book" [("isbn", .string "x")]).run.run
      (answer ⟨localSearch, documents⟩) [] = (some (.ok found), log) ∧
      ∃ d ∈ documents, MemorySink.lists "book" [("isbn", .string "x")] d = true ∧ d.identity ∉ found := by
  intro documents
  have hlists : ∀ d ∈ documents, MemorySink.lists "book" [("isbn", .string "x")] d = true := by
    intro d hd
    obtain ⟨n, -, rfl⟩ := List.mem_map.mp hd
    exact lists_shelved _
  have hdistinct : (documents.map Document.identity).Nodup := by
    rw [List.map_map]
    refine List.nodup_range.map fun m n hmn => ?_
    have hlength := congrArg (fun identity : String => identity.toList.length) hmn
    simpa [shelved] using hlength
  refine ⟨_, _, findByMeta_run address_localSink [], ?_⟩
  rw [hits_metaQuery, List.filter_eq_self.mpr fun d hd => holdsKey_of_lists (hlists d hd)]
  by_contra hnone
  push Not at hnone
  have hlong := (all_found_iff hdistinct mostHits).mp fun d hd => hnone d hd (hlists d hd)
  rw [List.length_map, List.length_range, mostHits] at hlong
  omega

end SearchServer

end DocSync
