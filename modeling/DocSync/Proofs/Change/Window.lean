import DocSync.Proofs.Server.Upstream

/-!
Windows of ids, and what is left of an id when only its low half is logged.  An id within an epoch below
a reference is found again from its low half; the condition of a window lets the low halves of its ids
pass, and with the whole ids at hand nothing else does.
-/

namespace DocSync

theorem epochSize_eq : epochSize = 4294967296 := rfl

/-- The ids in reach are those that are found again from their low halves. -/
theorem Upstream.widen_eq_iff {reference id : Nat} :
    Txid.widen (id % epochSize) reference = id ↔ Reaches reference id := by
  unfold Reaches Txid.widen
  rw [epochSize_eq]
  simp only [Bool.and_eq_true, decide_eq_true_eq]
  split <;> omega

/-- An id that comes after the reference in its epoch is taken an epoch back, which is never below zero. -/
theorem Txid.widen_cases (xid reference : Nat) :
    widen xid reference = reference / epochSize * epochSize + xid ∨
      widen xid reference + epochSize = reference / epochSize * epochSize + xid := by
  unfold widen
  rw [epochSize_eq]
  simp only [Bool.and_eq_true, decide_eq_true_eq]
  split <;> omega

namespace TxWindow

variable {w : TxWindow} {reference id : Nat}

theorem contains_iff : w.contains id = true ↔ w.txmin < id ∧ id ≤ w.txmax := by
  simp [contains]

/-- The low halves of the ids of a window meet its condition. -/
theorem holds_of_contains (h : w.contains id = true) : w.idCondition.holds (id % epochSize) = true := by
  obtain ⟨hmin, hmax⟩ := contains_iff.mp h
  unfold idCondition
  rw [epochSize_eq]
  split
  · rfl
  split
  · simp only [IdCondition.holds, Bool.and_eq_true, decide_eq_true_eq]
    omega
  · simp only [IdCondition.holds, Bool.or_eq_true, decide_eq_true_eq]
    omega

/-- Of the ids within an epoch below a reference, those of the window are selected by its condition, as it
is written for a column, together with the check of the id that is found again.  The reference may lie
before the end of the window. -/
theorem selects_iff (hwindow : w.txmin ≤ w.txmax) (hid : id ≤ reference)
    (hreach : reference < id + epochSize) (column : String) :
    (∃ condition, IdCondition.read column (w.condition column).toList = some (condition, []) ∧
      (condition.holds (id % epochSize) = true ∧
          w.contains (Txid.widen (id % epochSize) reference) = true ↔
        w.txmin < id ∧ id ≤ w.txmax)) ∧
      w.txmax - w.txmin + w.txmin = w.txmax ∧
      (Txid.widen (id % epochSize) reference =
          reference / epochSize * epochSize + id % epochSize ∨
        Txid.widen (id % epochSize) reference + epochSize =
          reference / epochSize * epochSize + id % epochSize) := by
  refine ⟨⟨w.idCondition, ?_, ?_⟩, Nat.sub_add_cancel hwindow, Txid.widen_cases _ _⟩
  · have hread := IdCondition.read_append w column []
    rwa [List.append_nil] at hread
  · rw [Upstream.widen_eq_iff.mpr (.inl ⟨hid, hreach⟩), contains_iff]
    constructor
    · exact fun h => h.2
    · exact fun h => ⟨holds_of_contains (contains_iff.mpr h), h⟩

/-- A window over the boundary of two epochs, and an id of it that comes after the boundary. -/
theorem selects_past_boundary :
    (∃ condition, IdCondition.read "xid" "(xid::text::bigint > 4294967294 OR xid::text::bigint <= 5)".toList =
        some (condition, []) ∧
      condition.holds 3 = true ∧ (TxWindow.mk 4294967294 4294967301).contains
        (Txid.widen 3 4294967306) = true) := by
  obtain ⟨⟨condition, hread, hiff⟩, -, -⟩ := @selects_iff ⟨4294967294, 4294967301⟩ 4294967306 4294967299
    (by decide) (by decide) (by decide) "xid"
  exact ⟨condition, hread, hiff.mpr (by decide)⟩

end TxWindow

end DocSync
