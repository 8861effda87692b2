import DocSync.Proofs.Document.Listing
import DocSync.Proofs.Document.Shape
import DocSync.Proofs.Sink.Writing

/-!
Documents are found by the rows that are embedded in them.  Main statement: once a document that was
compiled from a row tree is stored, a lookup of the key of any row below the root finds it, and whatever it
lists is the key of some row below the root.
-/

namespace DocSync

theorem MemorySink.mem_documents_of_upsert {sink sink' : MemorySink} {d : Document}
    (h : sink.upsert d = (.ok (), sink')) : d ∈ sink'.documents d.index ∧ sink'.looksUp = sink.looksUp := by
  obtain hfailed | ⟨-, e, hrefused⟩ | ⟨after, hdone, hnature, hindices⟩ := upsert_performs d sink
  · exact absurd (h.symm.trans hfailed) (by simp)
  · exact absurd (h.symm.trans hrefused) (by simp)
  obtain rfl : sink' = after := congrArg Prod.snd (h.symm.trans hdone)
  refine ⟨List.mem_map.mpr ⟨(d.identity, d), Keyed.mem_of_get? ?_, rfl⟩, hnature.looksUp⟩
  rw [stored, hindices, upserted, Keyed.getD_put, if_pos rfl, Keyed.get?_putSorted, if_pos rfl]

namespace Meta

variable {items : List Json} {v : Json}

theorem mem_of_mem_listed (h : v ∈ listed items) : v ∈ items :=
  mem_sortStable.mp (mem_of_mem_dropRepeats h)

theorem exists_mem_listed (h : v ∈ items) : ∃ kept ∈ listed items, Json.compare kept v = .eq :=
  exists_mem_dropRepeats (mem_sortStable.mpr h)

/-- No value that is listed compares as equal with the next. -/
theorem isChain_listed (items : List Json) : (listed items).IsChain fun a b => Json.compare a b ≠ .eq := by
  rw [listed, dropRepeats_eq_destutter]
  refine (List.isChain_destutter _ _).imp fun a b hdiffers heq => hdiffers ?_
  rw [Json.compare_swap, heq]
  rfl

end Meta

namespace Plan

variable {schema : Schema} {node : Node} {plan : Plan} {tree : RowTree} {n : PlanNode} {row : Row} {t : Table}

/-- A row is at a node that reads a table of the schema by its key. -/
theorem exists_table_of_holds (hholds : tree.Holds plan n row) :
    ∀ {upper : Option Table} {node : Node}, buildBelow schema upper node = .ok plan →
      ∃ t, schema.table? n.table = some t ∧ n.primaryKey = t.primaryKey ∧ t.primaryKey ≠ [] := by
  induction hholds with
  | root plan tree =>
    intro upper node h
    obtain ⟨t, -, -, -, ht, hkeyed, -, -, -, -, rfl⟩ := buildBelow_eq_ok h
    exact ⟨t, ht, rfl, hkeyed⟩
  | nested hslot _ _ ih =>
    intro upper node h
    obtain ⟨t, -, -, -, -, -, -, -, hchildren⟩ := exists_of_buildBelow h
    obtain ⟨declared, -, hchild⟩ := exists_of_forall₂ hchildren (List.of_mem_zip hslot).1
    exact ih hchild

theorem exists_table_of_holdsBelow (h : build node schema = .ok plan) (hholds : tree.HoldsBelow plan n row) :
    ∃ t, schema.table? n.table = some t ∧ n.primaryKey = t.primaryKey ∧ t.primaryKey ≠ [] := by
  obtain ⟨child, slot, hslot, subtree, hsubtree, hholds⟩ := hholds
  exact exists_table_of_holds (.nested hslot hsubtree hholds) h

/-- A document that is stored is found by the key of every row below the root of its tree, shown or not.
Every value that it lists is that of a key column of such a row, and none compares as equal with the next. -/
theorem found_by_embedded_rows (h : build node schema = .ok plan) (ht : schema.table? node.table = some t)
    (hkey : ∀ c ∈ t.primaryKey, (tree.row.value c).isNull = false) (index : String) :
    ∃ d, plan.compile index tree = .ok d ∧
      (∀ sink sink' : MemorySink, sink.looksUp = true → sink.upsert d = (.ok (), sink') →
        ∀ n row below, tree.HoldsBelow plan n row → schema.table? n.table = some below →
          (∀ c ∈ below.primaryKey, (row.value c).isNull = false) →
          ∃ found, sink'.findByMeta index n.table (below.primaryKey.map fun c => (c, row.value c)) =
            some found ∧ d.identity ∈ found) ∧
      ∀ table column values, d.listed? table column = some values →
        (∀ v ∈ values, ∃ n row below, tree.HoldsBelow plan n row ∧ n.table = table ∧
          schema.table? table = some below ∧ column ∈ below.primaryKey ∧ row.value column = v ∧
          v.isNull = false) ∧
        values.IsChain fun a b => Json.compare a b ≠ .eq := by
  obtain ⟨t', ht', hprimary, -⟩ := exists_of_buildBelow h
  obtain rfl := Option.some.inj (ht.symm.trans ht')
  have hcompile := compile_of_key (hprimary ▸ hkey) index
  refine ⟨_, hcompile, fun sink sink' hlooks hupsert n row below hholds hbelow hpresent => ?_,
    fun table column values hvalues => ?_⟩
  · obtain ⟨hstored, hlooks'⟩ := MemorySink.mem_documents_of_upsert hupsert
    obtain ⟨below', hbelow', hcolumns, hkeyed⟩ := exists_table_of_holdsBelow h hholds
    obtain rfl := Option.some.inj (hbelow.symm.trans hbelow')
    rw [MemorySink.findByMeta, if_pos (hlooks'.trans hlooks)]
    refine ⟨_, rfl, List.mem_map_of_mem (List.mem_filter.mpr ⟨hstored, ?_⟩)⟩
    refine Document.lists_of_listed? (by simpa using hkeyed) fun entry hentry => ?_
    obtain ⟨c, hc, rfl⟩ := List.mem_map.mp hentry
    have hrecorded : row.value c ∈ (recordBelow [] plan tree).values n.table c :=
      mem_values_recorded.mpr ⟨n, row, hholds, rfl, hcolumns ▸ hc, rfl, hpresent c hc⟩
    exact ⟨_, (compile_listed? hcompile).trans (Meta.listed?_of_mem hrecorded),
      Meta.exists_mem_listed hrecorded⟩
  · rw [compile_listed? hcompile] at hvalues
    obtain rfl := Meta.listed?_eq_some hvalues
    refine ⟨fun v hv => ?_, Meta.isChain_listed _⟩
    obtain ⟨n, row, hholds, rfl, hcolumn, hvalue, hpresent⟩ :=
      mem_values_recorded.mp (Meta.mem_of_mem_listed hv)
    obtain ⟨below, hbelow, hcolumns, -⟩ := exists_table_of_holdsBelow h hholds
    exact ⟨n, row, below, hholds, rfl, hbelow, hcolumns ▸ hcolumn, hvalue, hpresent⟩

def hiddenArtist : Row := [("id", .ofNat 5), ("name", .string "Una")]

theorem albumTree_holdsBelow_hiddenArtist : albumTree.HoldsBelow albumPlan artistPlan.node hiddenArtist := by
  refine ⟨trackPlan, _, .tail _ (.head _), _, .head _, .nested (.head _) (.tail _ (.head _)) ?_⟩
  exact .root artistPlan (.leaf hiddenArtist 0)

/-- A lookup of the artist that the first track does not show finds the album. -/
theorem found_by_hidden_artist :
    build albumNode musicSchema = .ok albumPlan ∧ musicSchema.table? "album" = some albumTable ∧
      (∀ c ∈ albumTable.primaryKey, (albumTree.row.value c).isNull = false) ∧
      ∃ d sink found, albumPlan.compile "albums" albumTree = .ok d ∧
        (MemorySink.empty true true).upsert d = (.ok (), sink) ∧
        sink.findByMeta "albums" "artist" [("id", .ofNat 5)] = some found ∧ "7" ∈ found := by
  obtain ⟨d, hcompile, hfound, -⟩ :=
    found_by_embedded_rows build_albumNode table?_album albumTree_keyed "albums"
  obtain rfl := Except.ok.inj (compile_albumTree.symm.trans hcompile)
  have hartist : musicSchema.table? "artist" = some artistTable := by cbv
  have hkeyed : ∀ c ∈ artistTable.primaryKey, (hiddenArtist.value c).isNull = false := by
    simp [artistTable, hiddenArtist, Row.value, Keyed.getD, Keyed.get?, Json.ofNat, Json.isNull]
  obtain ⟨found, hlookup, hmem⟩ := hfound (.empty true true) _ rfl rfl _ _ artistTable
    albumTree_holdsBelow_hiddenArtist hartist hkeyed
  exact ⟨build_albumNode, table?_album, albumTree_keyed, _, _, found, compile_albumTree, rfl, hlookup, hmem⟩

end Plan

end DocSync
