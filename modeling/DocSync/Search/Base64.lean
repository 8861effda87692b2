/-!
Base64 of a byte string.
-/

namespace DocSync.Base64

def digits : List Char :=
  "ABCDEFGHIJKLMNOPQRSTUVWXYZabcdefghijklmnopqrstuvwxyz0123456789+/".toList

def digit (n : Nat) : Char := digits.getD n '='

/-- Three bytes make four digits; a group that is not full is filled up. -/
def encode : List UInt8 → List Char
  | [] => []
  | [a] =>
    let n := a.toNat <<< 16
    [digit (n >>> 18), digit ((n >>> 12) % 64), '=', '=']
  | [a, b] =>
    let n := (a.toNat <<< 16) + (b.toNat <<< 8)
    [digit (n >>> 18), digit ((n >>> 12) % 64), digit ((n >>> 6) % 64), '=']
  | a :: b :: c :: rest =>
    let n := (a.toNat <<< 16) + (b.toNat <<< 8) + c.toNat
    digit (n >>> 18) :: digit ((n >>> 12) % 64) :: digit ((n >>> 6) % 64) :: digit (n % 64)
      :: encode rest

end DocSync.Base64
