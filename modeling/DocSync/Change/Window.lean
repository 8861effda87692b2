/-!
Transaction ids and windows of them.  Ids have 64 bits; the low 32 repeat every epoch.
-/

namespace DocSync

/-- How many ids an epoch has. -/
def epochSize : Nat := 1 <<< 32

namespace Txid

/-- The id with the low half `xid` that does not come after `reference`: in its epoch, or else in the
one before, where there is one. -/
def widen (xid reference : Nat) : Nat :=
  let epoch := reference / epochSize
  let candidate := epoch * epochSize + xid
  if candidate > reference && epoch > 0 then candidate - epochSize else candidate

end Txid

/-- The ids after `txmin` up to and including `txmax`. -/
structure TxWindow where
  txmin : Nat
  txmax : Nat
deriving DecidableEq, Repr, Inhabited

namespace TxWindow

def contains (w : TxWindow) (txid : Nat) : Bool := txid > w.txmin && txid ≤ w.txmax

def isEmpty (w : TxWindow) : Bool := w.txmin ≥ w.txmax

def text (w : TxWindow) : String := "(" ++ toString w.txmin ++ ", " ++ toString w.txmax ++ "]"

/-- The SQL condition that a column of 32-bit ids lies in the window.  A window over an epoch boundary
wraps around, one of a whole epoch holds every id. -/
def condition (w : TxWindow) (column : String) : String :=
  let expr := column ++ "::text::bigint"
  let low := toString (w.txmin % epochSize)
  let high := toString (w.txmax % epochSize)
  if w.txmax - w.txmin ≥ epochSize then "TRUE"
  else
    let joint := if w.txmin / epochSize = w.txmax / epochSize then " AND " else " OR "
    "(" ++ expr ++ " > " ++ low ++ joint ++ expr ++ " <= " ++ high ++ ")"

end TxWindow

end DocSync
