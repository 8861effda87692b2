import DocSync.Job.Cycle
import Mathlib.Data.List.Perm.Basic

/-!
Compiling fetched trees, and matching the operations of a chunk with what was fetched for it.  Every
operation takes one document whose key matches its own, in turn, and what no operation takes is left over.
-/

namespace DocSync

/-- The identity of a row of the node. -/
def PlanNode.identityOf (node : PlanNode) (row : Row) : String :=
  Identity.ofKey (row.tuple node.primaryKey)

/-- A document has the index and the identity of the root that it is compiled from. -/
theorem Plan.compile_eq_ok {plan : Plan} {index : String} {tree : RowTree} {d : Document}
    (h : plan.compile index tree = .ok d) :
    d.index = index ∧ d.identity = plan.node.identityOf tree.row := by
  unfold compile at h
  dsimp only at h
  split at h
  · contradiction
  · obtain rfl := Except.ok.inj h
    exact ⟨rfl, rfl⟩

/-- A root row whose key has no null is compiled. -/
theorem Plan.exists_compile {plan : Plan} (index : String) {tree : RowTree}
    (h : (tree.row.tuple plan.node.primaryKey).any Json.isNull = false) :
    ∃ d, plan.compile index tree = .ok d := by
  have hnone : plan.node.primaryKey.find? (fun c => (tree.row.value c).isNull) = none := by
    rw [Row.tuple, List.any_map, List.any_eq_false] at h
    exact List.find?_eq_none.mpr h
  simp only [compile, hnone]
  exact ⟨_, rfl⟩

namespace Job

/-- Putting the last item in place of another removes the other. -/
theorem swapRemove_perm {α : Type} {items : List α} {position : Nat}
    (h : position < items.length) : (swapRemove items position).Perm (items.eraseIdx position) := by
  obtain rfl | ⟨front, last, rfl⟩ := List.eq_nil_or_concat' items
  · simp at h
  rw [List.length_append, List.length_singleton] at h
  have hswap : swapRemove (front ++ [last]) position =
      if position = front.length then front else front.set position last := by
    rw [swapRemove, List.getLast?_append, List.getLast?_singleton, Option.some_or]
    dsimp only
    by_cases hlast : position = front.length
    · rw [if_pos hlast, if_pos (by simp [hlast]), List.dropLast_concat]
    · have hfront : position < front.length := by omega
      rw [if_neg hlast, if_neg (by simpa using hlast), List.set_append_left _ _ hfront,
        List.dropLast_concat]
  rw [hswap]
  split
  · rename_i hlast
    rw [List.eraseIdx_append_of_length_le (by omega), hlast, Nat.sub_self]
    simp
  · have hfront : position < front.length := by omega
    rw [List.eraseIdx_append_of_lt_length hfront]
    refine (List.set_perm_cons_eraseIdx hfront last).trans ?_
    exact (List.perm_append_singleton last _).symm

/-- An operation takes a document that was fetched for its key, or finds none. -/
theorem takeMatching_cases (fetched : List (List Json × Document)) (key : List Json) :
    (∃ entry left, takeMatching fetched key = (some entry.2, left) ∧ keyMatches entry.1 key = true ∧
      fetched.Perm (entry :: left)) ∨
    takeMatching fetched key = (none, fetched) ∧
      ∀ entry ∈ fetched, keyMatches entry.1 key = false := by
  rw [takeMatching]
  cases hfound : fetched.findIdx? fun entry => keyMatches entry.1 key with
  | none =>
    refine .inr ⟨rfl, fun entry hentry => ?_⟩
    simpa using List.findIdx?_eq_none_iff.mp hfound entry hentry
  | some position =>
    obtain ⟨hposition, hmatches, -⟩ := List.findIdx?_eq_some_iff_getElem.mp hfound
    refine .inl ⟨fetched[position], swapRemove fetched position, ?_, hmatches, ?_⟩
    · simp [List.getElem?_eq_getElem hposition]
    · refine (List.getElem_cons_eraseIdx_perm hposition).symm.trans ?_
      exact (swapRemove_perm hposition).symm.cons _

/-- A compiled document stands beside the key of the root that was fetched. -/
theorem mem_compileTrees {job : Job} {trees : List RowTree} {stats : CycleStats}
    {entry : List Json × Document} :
    entry ∈ (compileTrees job trees stats).2 ↔ ∃ tree ∈ trees,
      entry.1 = tree.row.tuple job.plan.node.primaryKey ∧
        job.plan.compile job.options.index tree = .ok entry.2 := by
  induction trees generalizing stats with
  | nil => simp [compileTrees]
  | cons tree rest ih =>
    rw [compileTrees]
    cases hcompile : job.plan.compile job.options.index tree with
    | error e => simp [ih, hcompile]
    | ok d =>
      simp only [List.mem_cons, ih, exists_eq_or_imp, hcompile]
      refine or_congr_left ⟨?_, ?_⟩
      · rintro rfl
        exact ⟨rfl, rfl⟩
      · rintro ⟨hkey, hd⟩
        exact Prod.ext hkey (Except.ok.inj hd).symm

/-- The documents that operations took were fetched, for keys that match theirs. -/
theorem mem_matchOps {ops : List RootOp} {fetched : List (List Json × Document)} {op : RootOp}
    {d : Document} (h : (op, some d) ∈ (matchOps ops fetched).1) :
    ∃ entry ∈ fetched, entry.2 = d ∧ keyMatches entry.1 op.key = true := by
  induction ops generalizing fetched with
  | nil => simp [matchOps] at h
  | cons first rest ih =>
    rw [matchOps] at h
    rcases takeMatching_cases fetched first.key with
      ⟨entry, left, htake, hmatches, hperm⟩ | ⟨htake, -⟩
    · simp only [htake] at h
      rcases List.mem_cons.mp h with h | h
      · obtain ⟨rfl, hd⟩ := Prod.mk.inj h
        exact ⟨entry, hperm.mem_iff.mpr List.mem_cons_self, (Option.some.inj hd).symm, hmatches⟩
      · obtain ⟨found, hfound, hd, hkey⟩ := ih h
        exact ⟨found, hperm.mem_iff.mpr (List.mem_cons_of_mem _ hfound), hd, hkey⟩
    · simp only [htake] at h
      rcases List.mem_cons.mp h with h | h
      · simp at h
      · exact ih h

/-- Every operation is answered, in order. -/
theorem map_fst_matchOps (ops : List RootOp) (fetched : List (List Json × Document)) :
    (matchOps ops fetched).1.map Prod.fst = ops := by
  induction ops generalizing fetched with
  | nil => rfl
  | cons first rest ih =>
    rw [matchOps, List.map_cons]
    exact congrArg (first :: ·) (ih _)

/-- An operation that found nothing matches nothing that was fetched, where no two operations match the
same document. -/
theorem not_keyMatches_of_mem_matchOps {ops : List RootOp} {fetched : List (List Json × Document)}
    (hapart : ops.Pairwise fun a b => ∀ entry ∈ fetched,
      keyMatches entry.1 a.key = true → keyMatches entry.1 b.key = false)
    {op : RootOp} (h : (op, none) ∈ (matchOps ops fetched).1) :
    ∀ entry ∈ fetched, keyMatches entry.1 op.key = false := by
  induction ops generalizing fetched with
  | nil => simp [matchOps] at h
  | cons first rest ih =>
    obtain ⟨hfirst, hrest⟩ := List.pairwise_cons.mp hapart
    rw [matchOps] at h
    rcases takeMatching_cases fetched first.key with
      ⟨entry, left, htake, hmatches, hperm⟩ | ⟨htake, hnone⟩
    · simp only [htake] at h
      rcases List.mem_cons.mp h with h | h
      · simp at h
      have hop : op ∈ rest := map_fst_matchOps rest left ▸ List.mem_map_of_mem h
      have hleft : ∀ entry ∈ left, entry ∈ fetched :=
        fun entry hentry => hperm.mem_iff.mpr (List.mem_cons_of_mem _ hentry)
      have hothers := ih (hrest.imp fun hab entry hentry => hab entry (hleft entry hentry)) h
      intro found hfound
      rcases List.mem_cons.mp (hperm.mem_iff.mp hfound) with rfl | hfound'
      · exact hfirst op hop found hfound hmatches
      · exact hothers found hfound'
    · simp only [htake] at h
      rcases List.mem_cons.mp h with h | h
      · obtain ⟨rfl, -⟩ := Prod.mk.inj h
        exact hnone
      · exact ih hrest h

end Job

end DocSync
