import DocSync.Proofs.Search.Lookup
import DocSync.Proofs.Url.Encode

/-!
Addresses of documents.  A document is put below the path of its index, and its identity says where: it may name a
segment, but a segment may also be passed over, step back, or leave an empty segment.  Main statement: two identities
of an index share an address exactly if they share such a place, so those without tabs and newlines that are neither
one dot nor two have addresses of their own.
-/

namespace DocSync

namespace Url

/-! ### Escaped dots -/

theorem toLower_eq {c d : Char} (h : c.toLower = d) :
    c = d ∨ 97 ≤ d.toNat ∧ d.toNat ≤ 122 ∧ c.toNat + 32 = d.toNat := by
  delta Char.toLower at h
  split at h
  · rename_i hupper
    right
    have hval : c.val + 32 = d.val := congrArg Char.val h
    have hlow : 65 ≤ c.val.toNat := UInt32.le_iff_toNat_le.mp hupper.1
    have hhigh : c.val.toNat ≤ 90 := UInt32.le_iff_toNat_le.mp hupper.2
    have hnat : c.val.toNat + 32 = d.val.toNat := by
      rw [← hval, UInt32.toNat_add]
      show _ = (c.val.toNat + 32) % _
      omega
    show 97 ≤ d.val.toNat ∧ d.val.toNat ≤ 122 ∧ c.val.toNat + 32 = d.val.toNat
    omega
  · exact .inl h

/-- Only letters are what other characters become in lower case. -/
theorem eq_of_toLower {c d : Char} (hd : d.toNat < 97) (h : c.toLower = d) : c = d :=
  (toLower_eq h).resolve_right fun h => by omega

theorem toLower_eq_e {c : Char} (h : c.toLower = 'e') : c = 'e' ∨ c = 'E' := by
  refine (toLower_eq h).imp_right fun h => Char.toNat_inj.mp ?_
  have hnat : c.toNat + 32 = 101 := h.2.2
  show c.toNat = 69
  omega

/-- A dot that is written as it is. -/
theorem decodeBytes_plainDot {cs lower : List Char} (h : cs.map Char.toLower = '.' :: lower) :
    ∃ rest, rest.map Char.toLower = lower ∧ decodeBytes cs = 46 :: decodeBytes rest := by
  obtain ⟨a, rest, rfl, ha, hrest⟩ := List.map_eq_cons_iff.mp h
  obtain rfl := eq_of_toLower (by decide) ha
  exact ⟨rest, hrest, decodeBytes_cons (by decide) rest⟩

theorem decodeBytes_escapedDot {cs lower : List Char} (h : cs.map Char.toLower = '%' :: '2' :: 'e' :: lower) :
    ∃ rest, rest.map Char.toLower = lower ∧ decodeBytes cs = 46 :: decodeBytes rest := by
  obtain ⟨a, more, rfl, ha, h⟩ := List.map_eq_cons_iff.mp h
  obtain ⟨b, more, rfl, hb, h⟩ := List.map_eq_cons_iff.mp h
  obtain ⟨c, rest, rfl, hc, hrest⟩ := List.map_eq_cons_iff.mp h
  obtain rfl := eq_of_toLower (by decide) ha
  obtain rfl := eq_of_toLower (by decide) hb
  refine ⟨rest, hrest, ?_⟩
  rcases toLower_eq_e hc with rfl | rfl <;> simp [decodeBytes, Text.hexDigit?]

theorem decodeBytes_none {cs : List Char} (h : cs.map Char.toLower = []) : decodeBytes cs = [] := by
  rw [List.map_eq_nil_iff.mp h, decodeBytes]

theorem decodeBytes_of_isDot {cs : List Char} (h : isDot cs = true) : decodeBytes cs = [46] := by
  have hlower : cs.map Char.toLower = ['.'] ∨ cs.map Char.toLower = ['%', '2', 'e'] := by
    rw [isDot, List.contains_iff_mem, List.mem_cons, List.mem_singleton] at h
    exact h.imp String.ofList_injective String.ofList_injective
  rcases hlower with h | h
  · obtain ⟨rest, hrest, hcs⟩ := decodeBytes_plainDot h
    rw [hcs, decodeBytes_none hrest]
  · obtain ⟨rest, hrest, hcs⟩ := decodeBytes_escapedDot h
    rw [hcs, decodeBytes_none hrest]

theorem decodeBytes_of_isDoubleDot {cs : List Char} (h : isDoubleDot cs = true) : decodeBytes cs = [46, 46] := by
  have hlower : ∃ lower, (cs.map Char.toLower = '.' :: lower ∨ cs.map Char.toLower = '%' :: '2' :: 'e' :: lower) ∧
      (lower = ['.'] ∨ lower = ['%', '2', 'e']) := by
    simp only [isDoubleDot, List.contains_iff_mem, List.mem_cons, List.not_mem_nil, or_false] at h
    rcases h with h | h | h | h
    · exact ⟨['.'], .inl (String.ofList_injective h), .inl rfl⟩
    · exact ⟨['%', '2', 'e'], .inr (String.ofList_injective h), .inr rfl⟩
    · exact ⟨['.'], .inr (String.ofList_injective h), .inl rfl⟩
    · exact ⟨['%', '2', 'e'], .inl (String.ofList_injective h), .inr rfl⟩
  obtain ⟨lower, hfirst, hsecond⟩ := hlower
  obtain ⟨rest, hrest, hcs⟩ := hfirst.elim decodeBytes_plainDot decodeBytes_escapedDot
  have hdot : isDot rest = true := by
    rw [isDot, hrest]
    rcases hsecond with rfl | rfl <;> rfl
  rw [hcs, decodeBytes_of_isDot hdot]

/-! ### Places of segments -/

variable {special : Bool} {items front : List String} {text : List Char}

/-- What a segment escapes that is added to a path. -/
def escapes (special : Bool) : List Char := if special then specialSegmentSet else segmentSet

theorem percent_mem_escapes (special : Bool) : '%' ∈ escapes special := by
  cases special <;> decide

theorem isDot_encode_iff : isDot (encode (escapes special) text) = true ↔ text = ['.'] := by
  constructor
  · intro h
    have hbytes := decodeBytes_of_isDot h
    rw [decodeBytes_encode (percent_mem_escapes special)] at hbytes
    exact utf8_injective hbytes
  · rintro rfl
    cases special <;> decide

theorem isDoubleDot_encode_iff : isDoubleDot (encode (escapes special) text) = true ↔ text = ['.', '.'] := by
  constructor
  · intro h
    have hbytes := decodeBytes_of_isDoubleDot h
    rw [decodeBytes_encode (percent_mem_escapes special)] at hbytes
    exact utf8_injective hbytes
  · rintro rfl
    cases special <;> decide

/-- Where a segment ends up below a path: it is passed over, steps back, or leaves an empty segment, or its text
names a segment. -/
inductive Place where
  | same
  | above
  | inside
  | named (text : List Char)
deriving DecidableEq

/-- The place of a segment that is not passed over, by its text without tabs and newlines. -/
def placeOf (text : List Char) : Place :=
  if text = ['.', '.'] then .above
  else if text = ['.'] ∨ text = [] then .inside
  else .named text

/-- The place of a segment.  Only one that is written as one dot or two is passed over. -/
def place (segment : String) : Place :=
  if segment = "." ∨ segment = ".." then .same else placeOf (withoutTabs segment.toList)

/-- A path with a segment at a place below it. -/
def Place.put (special : Bool) (items : List String) : Place → List String
  | same => items
  | above => stepBack items ++ [""]
  | inside => items ++ [""]
  | named text => items ++ [String.ofList (encode (escapes special) text)]

theorem withoutRoot_of_ne (h : items ≠ [""]) : withoutRoot items = items := by
  simp [withoutRoot, h]

theorem addSegment_written {segment : String} (hdots : ¬ (segment = "." ∨ segment = "..")) :
    addSegment special items segment =
      if isDoubleDot (encode (escapes special) (withoutTabs segment.toList)) then stepBack (withoutRoot items) ++ [""]
      else if isDot (encode (escapes special) (withoutTabs segment.toList)) then withoutRoot items ++ [""]
      else withoutRoot items ++ [String.ofList (encode (escapes special) (withoutTabs segment.toList))] := by
  rw [addSegment, if_neg (by simpa using hdots)]
  rfl

theorem addSegment_eq_put (h : items ≠ [""]) (segment : String) :
    addSegment special items segment = (place segment).put special items := by
  rw [place]
  by_cases hdots : segment = "." ∨ segment = ".."
  · rw [if_pos hdots, addSegment, if_pos (by simpa using hdots)]
    rfl
  · rw [if_neg hdots, addSegment_written hdots, withoutRoot_of_ne h]
    generalize withoutTabs segment.toList = text
    rw [placeOf]
    by_cases hdouble : text = ['.', '.']
    · rw [if_pos (isDoubleDot_encode_iff.mpr hdouble), if_pos hdouble]
      rfl
    rw [if_neg (mt isDoubleDot_encode_iff.mp hdouble), if_neg hdouble]
    by_cases hdot : text = ['.']
    · rw [if_pos (isDot_encode_iff.mpr hdot), if_pos (.inl hdot)]
      rfl
    rw [if_neg (mt isDot_encode_iff.mp hdot)]
    by_cases hempty : text = []
    · rw [if_pos (.inr hempty), hempty]
      rfl
    · rw [if_neg (not_or.mpr ⟨hdot, hempty⟩)]
      rfl

/-- Whether a place can be that of a segment: a text that names a segment is not empty. -/
def Place.IsReal : Place → Prop
  | named text => text ≠ []
  | _ => True

theorem isReal_place (segment : String) : (place segment).IsReal := by
  rw [place, placeOf]
  split
  · trivial
  split
  · trivial
  split
  · trivial
  · rename_i hdot
    exact (not_or.mp hdot).2

theorem addSegment_doc (special : Bool) (items : List String) :
    ∃ front, addSegment special items "_doc" = front ++ ["_doc"] := by
  refine ⟨withoutRoot items, ?_⟩
  rw [addSegment_written (by decide)]
  cases special <;> rfl

theorem stepBack_doc (front : List String) : stepBack (front ++ ["_doc"]) = front := by
  rw [stepBack, List.getLast?_append]
  simp [isDrive]

/-! ### Texts of addresses -/

/-- What follows the index in the path of a document. -/
def Place.tail (special : Bool) : Place → List String
  | same => ["_doc"]
  | above => [""]
  | inside => ["_doc", ""]
  | named text => ["_doc", String.ofList (encode (escapes special) text)]

theorem put_doc (front : List String) (p : Place) : p.put special (front ++ ["_doc"]) = front ++ p.tail special := by
  cases p with
  | above => rw [Place.put, stepBack_doc, Place.tail]
  | _ => simp [Place.put, Place.tail]

/-- The text of what follows the index. -/
def Place.tailText (special : Bool) : Place → List Char
  | same => ['/', '_', 'd', 'o', 'c']
  | above => ['/']
  | inside => ['/', '_', 'd', 'o', 'c', '/']
  | named text => ['/', '_', 'd', 'o', 'c', '/'] ++ encode (escapes special) text

theorem toList_segmentsText_tail (p : Place) : (segmentsText (p.tail special)).toList = p.tailText special := by
  cases p <;> simp [segmentsText, String.join, Place.tail, Place.tailText]

/-- Different places give different texts. -/
theorem tailText_injective {p q : Place} (hp : p.IsReal) (hq : q.IsReal)
    (h : p.tailText special = q.tailText special) : p = q := by
  have hnamed {text : List Char} (htext : text ≠ []) : encode (escapes special) text ≠ [] := fun hnil =>
    htext (encode_injective (percent_mem_escapes special) hnil)
  cases p with
  | same => cases q with
    | same => rfl
    | _ => simp [Place.tailText] at h
  | above => cases q with
    | above => rfl
    | _ => simp [Place.tailText] at h
  | inside => cases q with
    | inside => rfl
    | named text => exact absurd (by simpa [Place.tailText] using h) (hnamed hq)
    | _ => simp [Place.tailText] at h
  | named text => cases q with
    | inside => exact absurd (by simpa [Place.tailText] using h) (hnamed hp)
    | named other => rw [encode_injective (percent_mem_escapes special) (List.append_cancel_left h)]
    | _ => simp [Place.tailText] at h

/-- A path without an authority is marked where it would start with two slashes, whatever follows the index. -/
theorem starts_put_doc (front : List String) (p : Place) :
    (decide ((front ++ p.tail special).length > 1) && (front ++ p.tail special).head? == some "") =
      (!front.isEmpty && front.head? == some "") := by
  cases front with
  | nil => cases p <;> simp [Place.tail]
  | cons item front => cases p <;> simp [Place.tail]

/-- The text of a URL around what follows the index. -/
theorem exists_render_around (special : Bool) (base : Url) (front : List String) :
    ∃ before after : String, ∀ p : Place,
      ({ base with path := .segments (front ++ p.tail special) } : Url).render =
        before ++ segmentsText (p.tail special) ++ after := by
  refine ⟨base.scheme ++ ":" ++ (base.authority.map authorityText).getD ""
    ++ ((if base.authority.isNone && (!front.isEmpty && front.head? == some "") then "/." else "")
    ++ segmentsText front), base.queryText ++ (base.fragment.map ("#" ++ ·)).getD "", fun p => ?_⟩
  have hpath : ({ base with path := .segments (front ++ p.tail special) } : Url).pathText =
      (if base.authority.isNone && (!front.isEmpty && front.head? == some "") then "/." else "")
        ++ (segmentsText front ++ segmentsText (p.tail special)) := by
    rw [pathText]
    dsimp only
    rw [Bool.and_assoc, starts_put_doc, segmentsText, List.map_append, String.join_append]
    rfl
  rw [render, hpath]
  simp only [String.append_assoc]
  cases base.fragment <;> rfl

theorem render_put_doc_iff (special : Bool) (base : Url) (front : List String) {p q : Place} (hp : p.IsReal)
    (hq : q.IsReal) :
    ({ base with path := .segments (p.put special (front ++ ["_doc"])) } : Url).render =
      ({ base with path := .segments (q.put special (front ++ ["_doc"])) } : Url).render ↔ p = q := by
  obtain ⟨before, after, hrender⟩ := exists_render_around special base front
  rw [put_doc, put_doc, hrender, hrender, String.append_left_inj, String.append_right_inj, ← String.toList_inj,
    toList_segmentsText_tail, toList_segmentsText_tail]
  exact ⟨tailText_injective hp hq, fun h => h ▸ rfl⟩

/-- A segment without tabs and newlines that is neither one dot nor two. -/
def IsPlainSegment (segment : String) : Prop :=
  segment ≠ "." ∧ segment ≠ ".." ∧ ∀ c ∈ segment.toList, isTabOrNewline c = false

theorem isPlainSegment_of_all {segment : String} (hdots : segment ≠ "." ∧ segment ≠ "..")
    (htabs : segment.toList.all (!isTabOrNewline ·)) : IsPlainSegment segment := by
  refine ⟨hdots.1, hdots.2, fun c hc => ?_⟩
  simpa using List.all_eq_true.mp htabs c hc

theorem place_of_isPlain {segment : String} (h : IsPlainSegment segment) :
    place segment = if segment.toList = [] then .inside else .named segment.toList := by
  obtain ⟨hdot, hdouble, htabs⟩ := h
  have htext : withoutTabs segment.toList = segment.toList :=
    List.filter_eq_self.mpr fun c hc => by rw [htabs c hc]; rfl
  have hne {text : String} (hsegment : segment ≠ text) : segment.toList ≠ text.toList := fun heq =>
    hsegment (String.toList_inj.mp heq)
  have hone : segment.toList ≠ ['.'] := hne hdot
  have htwo : segment.toList ≠ ['.', '.'] := hne hdouble
  rw [place, if_neg (not_or.mpr ⟨hdot, hdouble⟩), htext, placeOf, if_neg htwo]
  by_cases hempty : segment.toList = []
  · rw [if_pos (.inr hempty), if_pos hempty]
  · rw [if_neg (not_or.mpr ⟨hone, hempty⟩), if_neg hempty]

theorem eq_of_place_eq {a b : String} (ha : IsPlainSegment a) (hb : IsPlainSegment b) (h : place a = place b) :
    a = b := by
  rw [place_of_isPlain ha, place_of_isPlain hb] at h
  refine String.toList_inj.mp ?_
  split at h <;> rename_i hfirst <;> split at h <;> rename_i hsecond
  · rw [hfirst, hsecond]
  · contradiction
  · contradiction
  · exact Place.named.inj h

end Url

/-! ### Documents -/

/-- The first request of a program. -/
def Program.firstRequest? {Request : Type} {Answer : Request → Type} {α : Type} :
    Program Request Answer α → Option Request
  | .ask request _ => some request
  | _ => none

namespace SearchSink

variable {s : SearchSink} {url : Url}

/-- Where a document is put. -/
def putAddress? (s : SearchSink) (d : Document) : Option Url := (s.upsert d).run.firstRequest?.map HttpRequest.url

/-- Where a document is deleted. -/
def deleteAddress? (s : SearchSink) (index identity : String) : Option Url :=
  (s.delete index identity).run.firstRequest?.map HttpRequest.url

theorem putAddress?_eq {d : Document} (h : s.address [d.index, "_doc", d.identity] = .ok url) :
    s.putAddress? d = some url := by
  rw [putAddress?, upsert, h]
  rfl

theorem deleteAddress?_eq {index identity : String} (h : s.address [index, "_doc", identity] = .ok url) :
    s.deleteAddress? index identity = some url := by
  rw [deleteAddress?, delete, h]
  rfl

/-- All documents of an index are put below one path, each at its place. -/
theorem address_doc {items : List String} (hbase : s.base.path = .segments items) (index : String) :
    ∃ front, ∀ identity, s.address [index, "_doc", identity] = .ok { s.base with
      path := .segments ((Url.place identity).put (Url.isSpecialScheme s.base.scheme) (front ++ ["_doc"])) } := by
  obtain ⟨front, hfront⟩ := Url.addSegment_doc (Url.isSpecialScheme s.base.scheme)
    (Url.addSegment (Url.isSpecialScheme s.base.scheme) (Url.dropEmptyLast items) index)
  refine ⟨front, fun identity => ?_⟩
  have hne : front ++ ["_doc"] ≠ [""] := fun h => by cases front <;> simp at h
  rw [address, Url.extended?, hbase]
  simp only [List.foldl_cons, List.foldl_nil, hfront, Url.addSegment_eq_put hne]

/-- **Documents share an address exactly if they share a place.**  What is put and deleted for two identities of an
index has one URL exactly if both are written as dots and passed over, or step back alike, or leave an empty segment, or
are the same text but for tabs and newlines.  So identities without tabs and newlines that are neither one dot nor two
have addresses of their own. -/
theorem share_address_iff (s : SearchSink) (items : List String) (hbase : s.base.path = .segments items)
    (index : String) (i j : String) (source source' : Row) :
    ∃ u v, s.putAddress? ⟨i, index, source⟩ = some u ∧ s.deleteAddress? index i = some u ∧
      s.putAddress? ⟨j, index, source'⟩ = some v ∧ s.deleteAddress? index j = some v ∧
      (u.render = v.render ↔ Url.place i = Url.place j) ∧
      (Url.IsPlainSegment i → Url.IsPlainSegment j → u.render = v.render → i = j) := by
  obtain ⟨front, haddress⟩ := address_doc hbase index
  have hiff := Url.render_put_doc_iff (Url.isSpecialScheme s.base.scheme) s.base front
    (Url.isReal_place i) (Url.isReal_place j)
  exact ⟨_, _, putAddress?_eq (haddress i), deleteAddress?_eq (haddress i), putAddress?_eq (haddress j),
    deleteAddress?_eq (haddress j), hiff, fun hi hj h => Url.eq_of_place_eq hi hj (hiff.mp h)⟩

open SearchServer in
theorem share_address_iff_of_bar : ∃ u v, localSink.putAddress? ⟨"a|b", "books", []⟩ = some u ∧
    localSink.putAddress? ⟨"a%7Cb", "books", []⟩ = some v ∧ u.render ≠ v.render := by
  obtain ⟨u, v, hu, -, hv, -, -, hplain⟩ := share_address_iff localSink [""] rfl "books" "a|b" "a%7Cb" [] []
  refine ⟨u, v, hu, hv, fun h => ?_⟩
  have heq := hplain (Url.isPlainSegment_of_all (by decide) (by decide))
    (Url.isPlainSegment_of_all (by decide) (by decide)) h
  exact absurd heq (by decide)

open SearchServer in
/-- An identity with a tab has the address of the one without it, and one dot and two dots share one. -/
theorem tab_shares_address : "a\tb" ≠ "ab" ∧ "." ≠ ".." ∧ ∃ u v, localSink.putAddress? ⟨"a\tb", "books", []⟩ = some u ∧
    localSink.putAddress? ⟨"ab", "books", []⟩ = some u ∧ localSink.deleteAddress? "books" "ab" = some u ∧
    localSink.putAddress? ⟨".", "books", []⟩ = some v ∧ localSink.putAddress? ⟨"..", "books", []⟩ = some v := by
  refine ⟨by decide, by decide, _, _, rfl, ?_, ?_, rfl, ?_⟩
  · decide +kernel
  · decide +kernel
  · decide +kernel

end SearchSink

end DocSync
