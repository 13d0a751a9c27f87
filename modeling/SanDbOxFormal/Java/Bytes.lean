import SanDbOxFormal.Java.Text
import SanDbOxFormal.Library.Utf16
import SanDbOxFormal.Library.Utf8

/-!
# The bytes of a Java string

`getBytes(UTF_8)` of a text whose surrogates are all paired is its UTF-8.
-/

namespace SanDbOxFormal.Java

open SanDbOxFormal.Library

theorem isHigh_eq (u : UInt16) : isHigh u = Utf16.isHigh u := by
  rw [isHigh, Utf16.isHigh, Bool.eq_iff_iff, decide_eq_true_eq, Bool.and_eq_true, decide_eq_true_eq,
    decide_eq_true_eq]
  omega

theorem isLow_eq (u : UInt16) : isLow u = Utf16.isLow u := by
  rw [isLow, Utf16.isLow, Bool.eq_iff_iff, decide_eq_true_eq, Bool.and_eq_true, decide_eq_true_eq,
    decide_eq_true_eq]
  omega

theorem encodeCodePoint_char (c : Char) : encodeCodePoint c.toNat = String.utf8EncodeChar c := by
  have range : c.toNat < 0x110000 := by
    rcases c.valid with low | ⟨_, high⟩
    · exact Nat.lt_trans low (by decide)
    · exact high
  have byte {m n : Nat} (same : m = n) : UInt8.ofNat m = UInt8.ofNat n := congrArg UInt8.ofNat same
  unfold encodeCodePoint String.utf8EncodeChar
  simp only [Char.toNat_val]
  have one : (c.toNat < 0x80) = (c.toNat ≤ 0x7F) := propext (by omega)
  have two : (c.toNat < 0x800) = (c.toNat ≤ 0x7FF) := propext (by omega)
  have three : (c.toNat < 0x10000) = (c.toNat ≤ 0xFFFF) := propext (by omega)
  simp only [one, two, three]
  split_ifs with ascii short basic
  · rfl
  · exact congrArg₂ List.cons (byte (by omega)) (congrArg₂ List.cons (byte (by omega)) rfl)
  · refine congrArg₂ List.cons (byte (by omega)) (congrArg₂ List.cons (byte (by omega)) ?_)
    exact congrArg₂ List.cons (byte (by omega)) rfl
  · refine congrArg₂ List.cons (byte (by omega)) (congrArg₂ List.cons (byte (by omega)) ?_)
    exact congrArg₂ List.cons (byte (by omega)) (congrArg₂ List.cons (byte (by omega)) rfl)

theorem pair_joined {u v : UInt16} (high : Utf16.isHigh u = true) (low : Utf16.isLow v = true) :
    encodeCodePoint (pair u v) = String.utf8EncodeChar (Utf16.joined u v) := by
  have value := Utf16.joined_toNat high low
  simp only [Utf16.isHigh, Utf16.isLow, Bool.and_eq_true, decide_eq_true_eq] at high low
  have point : pair u v = (Utf16.joined u v).toNat := by
    rw [pair, value]
    omega
  rw [point, encodeCodePoint_char]

theorem getBytes_pair {u v : UInt16} (high : isHigh u = true) (low : isLow v = true)
    (rest : JString) : getBytes (u :: v :: rest) = encodeCodePoint (pair u v) ++ getBytes rest := by
  rw [getBytes, if_pos high, if_pos low]

theorem getBytes_single {u : UInt16} (high : isHigh u = false) (low : isLow u = false)
    (rest : JString) : getBytes (u :: rest) = encodeCodePoint u.toNat ++ getBytes rest := by
  cases rest with
  | nil =>
      rw [getBytes.eq_2, high, low, Bool.or_self, if_neg Bool.false_ne_true, getBytes.eq_1,
        List.append_nil]
  | cons v more => rw [getBytes, if_neg (Bool.eq_false_iff.mp high), if_neg (Bool.eq_false_iff.mp low)]

/-- The bytes come off the characters one by one. -/
theorem getBytes_units (c : Char) (rest : JString) :
    getBytes (Utf16.units c ++ rest) = String.utf8EncodeChar c ++ getBytes rest := by
  rw [Utf16.units]
  split
  · rename_i narrow
    obtain ⟨high, low⟩ := Utf16.narrow_unit narrow
    rw [List.singleton_append, getBytes_single (by rw [isHigh_eq, high]) (by rw [isLow_eq, low]),
      Utf16.ofNat_toNat narrow, encodeCodePoint_char]
  · rename_i wide
    obtain ⟨back, high, low⟩ := Utf16.joined_units (Nat.le_of_not_lt wide)
    rw [List.cons_append, List.cons_append, List.nil_append,
      getBytes_pair (by rw [isHigh_eq, high]) (by rw [isLow_eq, low]), pair_joined high low, back]

theorem getBytes_encode (cs : List Char) : getBytes (Utf16.encode cs) = Utf8.encode cs := by
  induction cs with
  | nil => rfl
  | cons c rest ih => rw [Utf16.encode_cons, getBytes_units, Utf8.encode_cons, ih]

end SanDbOxFormal.Java
