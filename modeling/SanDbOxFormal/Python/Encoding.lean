import SanDbOxFormal.Library.Utf8
import SanDbOxFormal.Python.Json

/-!
# UTF-8 as the Python driver decodes it

Text in UTF-8 is decoded to its own code points, and a line that starts with two ASCII
characters other than NUL is taken to be UTF-8.
-/

namespace SanDbOxFormal.Python

open SanDbOxFormal.Library

theorem toNat_byte {n : Nat} (small : n < 0x100) : (UInt8.ofNat n).toNat = n := by
  rw [UInt8.toNat_ofNat', Nat.mod_eq_of_lt small]

theorem isContinuation_iff {b : UInt8} :
    isContinuation b = true ↔ 0x80 ≤ b.toNat ∧ b.toNat ≤ 0xBF := by
  simp [isContinuation, UInt8.le_iff_toNat_le]

theorem decodeUtf8_two {a b : UInt8} (rest : List UInt8) (lead : 0xC2 ≤ a.toNat ∧ a.toNat ≤ 0xDF)
    (second : isContinuation b = true) :
    decodeUtf8 (a :: b :: rest) = (two a b :: ·) <$> decodeUtf8 rest := by
  have wide : ¬ a < 0x80 := by
    rw [UInt8.lt_iff_toNat_lt]
    exact Nat.not_lt.mpr (Nat.le_trans (by decide) lead.1)
  have range : (0xC2 ≤ a && a ≤ 0xDF) = true := by
    simpa [UInt8.le_iff_toNat_le] using lead
  rw [decodeUtf8.eq_def]
  simp [wide, second, range]

theorem decodeUtf8_three {a b c : UInt8} (rest : List UInt8)
    (lead : 0xE0 ≤ a.toNat ∧ a.toNat ≤ 0xEF) (second : isContinuation b = true)
    (third : isContinuation c = true) (long : a.toNat = 0xE0 → 0xA0 ≤ b.toNat) :
    decodeUtf8 (a :: b :: c :: rest) = (three a b c :: ·) <$> decodeUtf8 rest := by
  have wide : ¬ a < 0x80 := by
    rw [UInt8.lt_iff_toNat_lt]
    exact Nat.not_lt.mpr (Nat.le_trans (by decide) lead.1)
  have other : (0xC2 ≤ a && a ≤ 0xDF) = false := by
    rw [Bool.eq_false_iff]
    intro range
    simp [UInt8.le_iff_toNat_le] at range
    omega
  have range : (0xE0 ≤ a && a ≤ 0xEF) = true := by
    simpa [UInt8.le_iff_toNat_le] using lead
  have short : (a = 0xE0 && b < 0xA0) = false := by
    rw [Bool.eq_false_iff]
    intro overlong
    simp [UInt8.lt_iff_toNat_lt, ← UInt8.toNat_inj] at overlong
    have := long overlong.1
    omega
  rw [decodeUtf8.eq_def]
  simp only [wide, second, third, range, other, short]
  simp

theorem decodeUtf8_four {a b c d : UInt8} (rest : List UInt8)
    (lead : 0xF0 ≤ a.toNat ∧ a.toNat ≤ 0xF4) (second : isContinuation b = true)
    (third : isContinuation c = true) (fourth : isContinuation d = true)
    (long : a.toNat = 0xF0 → 0x90 ≤ b.toNat) (small : a.toNat = 0xF4 → b.toNat ≤ 0x8F) :
    decodeUtf8 (a :: b :: c :: d :: rest) = (four a b c d :: ·) <$> decodeUtf8 rest := by
  have wide : ¬ a < 0x80 := by
    rw [UInt8.lt_iff_toNat_lt]
    exact Nat.not_lt.mpr (Nat.le_trans (by decide) lead.1)
  have others {low high : UInt8} (below : high.toNat < 0xF0) : (low ≤ a && a ≤ high) = false := by
    rw [Bool.eq_false_iff]
    intro range
    simp [UInt8.le_iff_toNat_le] at range
    omega
  have range : (!isContinuation d || a < 0xF0 || 0xF4 < a || (a = 0xF0 && b < 0x90) ||
      (a = 0xF4 && 0x8F < b)) = false := by
    rw [Bool.eq_false_iff]
    intro outside
    simp [UInt8.lt_iff_toNat_lt, ← UInt8.toNat_inj, fourth] at outside
    omega
  rw [decodeUtf8.eq_def]
  simp only [wide, second, third, range, others (show (0xDF : UInt8).toNat < 0xF0 by decide),
    others (show (0xEF : UInt8).toNat < 0xF0 by decide)]
  simp

theorem decodeUtf8_char (c : Char) (rest : List UInt8) :
    decodeUtf8 (String.utf8EncodeChar c ++ rest) = (c.toNat :: ·) <$> decodeUtf8 rest := by
  have scalar : c.toNat < 0xD800 ∨ 0xDFFF < c.toNat ∧ c.toNat < 0x110000 := c.valid
  have tail (n : Nat) : isContinuation (UInt8.ofNat (n % 64 + 128)) = true := by
    rw [isContinuation_iff, toNat_byte (by omega)]
    omega
  unfold String.utf8EncodeChar
  simp only [Char.toNat_val]
  generalize c.toNat = n at *
  split
  · rename_i ascii
    have small : UInt8.ofNat n < 0x80 := by
      rw [UInt8.lt_iff_toNat_lt, toNat_byte (by omega)]
      exact Nat.lt_of_le_of_lt ascii (by decide)
    rw [List.singleton_append, decodeUtf8.eq_def]
    simp only [small, if_true, toNat_byte (show n < 0x100 by omega)]
  · split
    · simp only [List.cons_append, List.nil_append]
      rw [decodeUtf8_two rest (by rw [toNat_byte (by omega)]; omega) (tail n), two,
        toNat_byte (by omega), toNat_byte (by omega)]
      have value : (n / 64 % 32 + 192) % 0x20 * 0x40 + (n % 64 + 128) % 0x40 = n := by omega
      rw [value]
    · split
      · simp only [List.cons_append, List.nil_append]
        rw [decodeUtf8_three rest (by rw [toNat_byte (by omega)]; omega) (tail (n / 64)) (tail n)
          (by rw [toNat_byte (by omega), toNat_byte (by omega)]; omega), three,
          toNat_byte (by omega), toNat_byte (by omega), toNat_byte (by omega)]
        have value : ((n / 4096 % 16 + 224) % 0x10 * 0x40 + (n / 64 % 64 + 128) % 0x40) * 0x40 +
            (n % 64 + 128) % 0x40 = n := by omega
        rw [value]
      · simp only [List.cons_append, List.nil_append]
        rw [decodeUtf8_four rest (by rw [toNat_byte (by omega)]; omega) (tail (n / 4096)) (tail (n / 64))
          (tail n) (by rw [toNat_byte (by omega), toNat_byte (by omega)]; omega)
          (by rw [toNat_byte (by omega), toNat_byte (by omega)]; omega), four,
          toNat_byte (by omega), toNat_byte (by omega), toNat_byte (by omega), toNat_byte (by omega)]
        have value : (((n / 262144 % 8 + 240) % 0x08 * 0x40 + (n / 4096 % 64 + 128) % 0x40) * 0x40 +
            (n / 64 % 64 + 128) % 0x40) * 0x40 + (n % 64 + 128) % 0x40 = n := by omega
        rw [value]

/-- Text in UTF-8 is decoded to its code points. -/
theorem decodeUtf8_encode (cs : List Char) : decodeUtf8 (Utf8.encode cs) = some (cs.map Char.toNat) := by
  induction cs with
  | nil => rfl
  | cons c rest ih =>
      rw [Utf8.encode_cons, decodeUtf8_char, ih]
      rfl

theorem detectEncoding_ascii {a b : UInt8} (rest : List UInt8) (first : 0 < a.toNat ∧ a.toNat < 0x80)
    (second : 0 < b.toNat) : detectEncoding (a :: b :: rest) = (.utf8, a :: b :: rest) := by
  have here : a ≠ 0 := by
    rintro rfl
    exact absurd first.1 (by decide)
  have next : b ≠ 0 := by
    rintro rfl
    exact absurd second (by decide)
  have noMark {m : UInt8} {marks : List UInt8} (lead : m = 0 ∨ 0x80 ≤ m.toNat) :
      (m :: marks).isPrefixOf (a :: b :: rest) = false := by
    have other : (m == a) = false := by
      rw [beq_eq_false_iff_ne]
      rintro rfl
      rcases lead with zero | high
      · exact here zero
      · omega
    rw [List.isPrefixOf, other, Bool.false_and]
  have guess : guessEncoding (a :: b :: rest) = .utf8 := by
    match rest with
    | [] => simp [guessEncoding, here, next]
    | [c] => rfl
    | c :: d :: rest => simp [guessEncoding, here, next]
  rw [detectEncoding, noMark (.inl rfl), noMark (.inr (by decide)), noMark (.inr (by decide)),
    noMark (.inr (by decide)), noMark (.inr (by decide)), guess]
  rfl

end SanDbOxFormal.Python
