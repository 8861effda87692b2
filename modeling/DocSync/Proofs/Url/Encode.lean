import DocSync.Url.Encode
import Mathlib.Logic.Function.Basic

/-!
Percent-encoding loses nothing.  An encoder that escapes the percent sign writes texts from which their bytes can be
read back, so different texts are written differently.
-/

namespace DocSync.Url

/-! ### Bytes of a text -/

theorem toList_loop (bytes : ByteArray) (i : Nat) (found : List UInt8) :
    ByteArray.toList.loop bytes i found = found.reverse ++ bytes.data.toList.drop i := by
  fun_induction ByteArray.toList.loop bytes i found with
  | case1 i found h ih =>
    have hi : i < bytes.data.toList.length := h
    have hget : bytes.get! i = bytes.data.toList[i] := getElem!_pos bytes.data i h
    rw [ih, hget, List.reverse_cons, List.append_assoc, List.singleton_append, List.getElem_cons_drop]
  | case2 i found h =>
    have hi : bytes.data.toList.length ≤ i := Nat.le_of_not_lt h
    rw [List.drop_eq_nil_of_le hi, List.append_nil]

theorem toList_toUTF8_singleton (c : Char) : (String.singleton c).toUTF8.toList = String.utf8EncodeChar c := by
  have hbytes : (String.singleton c).toUTF8 = (String.utf8EncodeChar c).toByteArray := by
    show (String.ofList [c]).toByteArray = _
    rw [String.toByteArray_ofList, List.utf8Encode, List.flatMap_singleton]
  rw [hbytes, ByteArray.toList, toList_loop, List.reverse_nil, List.nil_append, List.drop_zero, List.data_toByteArray]

theorem utf8_injective {cs ds : List Char}
    (h : cs.flatMap String.utf8EncodeChar = ds.flatMap String.utf8EncodeChar) : cs = ds := by
  refine String.ofList_injective (String.toByteArray_inj.mp ?_)
  rw [String.toByteArray_ofList, String.toByteArray_ofList, List.utf8Encode, List.utf8Encode, h]

/-! ### Reading back -/

theorem hexDigit?_upperHexDigit {n : Nat} (h : n < 16) : Text.hexDigit? (upperHexDigit n) = some n := by
  have hall : ∀ n : Fin 16, Text.hexDigit? (upperHexDigit n) = some n.val := by decide
  exact hall ⟨n, h⟩

theorem decodeBytes_encodeByte (byte : UInt8) (cs : List Char) :
    decodeBytes (encodeByte byte ++ cs) = byte :: decodeBytes cs := by
  have hlt : byte.toNat < 256 := byte.toNat_lt
  have hdigits : byte.toNat / 16 * 16 + byte.toNat % 16 = byte.toNat := by omega
  simp only [encodeByte, List.cons_append, List.nil_append, decodeBytes,
    hexDigit?_upperHexDigit (show byte.toNat / 16 < 16 by omega),
    hexDigit?_upperHexDigit (show byte.toNat % 16 < 16 by omega), hdigits, UInt8.ofNat_toNat]

theorem decodeBytes_encodeBytes (bytes : List UInt8) (cs : List Char) :
    decodeBytes (bytes.flatMap encodeByte ++ cs) = bytes ++ decodeBytes cs := by
  induction bytes with
  | nil => rfl
  | cons byte bytes ih =>
    rw [List.flatMap_cons, List.append_assoc, decodeBytes_encodeByte, ih, List.cons_append]

theorem decodeBytes_cons {c : Char} (h : c ≠ '%') (cs : List Char) :
    decodeBytes (c :: cs) = String.utf8EncodeChar c ++ decodeBytes cs := by
  rw [← toList_toUTF8_singleton, decodeBytes]
  exact fun _ _ _ hc _ => h hc

variable {more : List Char}

theorem decodeBytes_encodeChar (h : '%' ∈ more) (c : Char) (cs : List Char) :
    decodeBytes (encodeChar more c ++ cs) = String.utf8EncodeChar c ++ decodeBytes cs := by
  rw [encodeChar]
  split
  · rw [decodeBytes_encodeBytes, toList_toUTF8_singleton]
  · rename_i hplain
    refine decodeBytes_cons ?_ cs
    rintro rfl
    simp [h] at hplain

/-- The bytes of a text can be read back from its escaped form. -/
theorem decodeBytes_encode (h : '%' ∈ more) (cs : List Char) :
    decodeBytes (encode more cs) = cs.flatMap String.utf8EncodeChar := by
  induction cs with
  | nil => rfl
  | cons c cs ih => rw [encode, List.flatMap_cons, decodeBytes_encodeChar h, ← encode, ih, List.flatMap_cons]

theorem encode_injective (h : '%' ∈ more) : Function.Injective (encode more) := by
  intro cs ds heq
  refine utf8_injective ?_
  rw [← decodeBytes_encode h, ← decodeBytes_encode h, heq]

end DocSync.Url
