import SanDbOxFormal.Library.Base64

/-!
# The spellings of the same bytes

A padded group spells fewer bits than its letters carry.  The decoder drops the bits that
are left; the encoder writes them as zeros.
-/

namespace SanDbOxFormal.Library.Base64

/-- The letter `u` without the last bits of its value, `step` being their range. -/
def rounded (step u : Nat) : Nat :=
  match sextet? u with
  | some n => letter (n / step * step)
  | none => u

/-- The text with zeros for the bits that its padding leaves unused. -/
def cleared : List Nat → List Nat
  | a :: b :: c :: d :: rest =>
      if rest = [] ∧ d = pad then
        if c = pad then [a, rounded 16 b, c, d] else [a, b, rounded 4 c, d]
      else [a, b, c, d] ++ cleared rest
  | us => us

/-- The bits that the padding of a text leaves unused. -/
def unusedBits : List Nat → Nat
  | _ :: b :: c :: d :: rest =>
      if rest = [] ∧ d = pad then
        if c = pad then (sextet? b).getD 0 % 16 else (sextet? c).getD 0 % 4
      else unusedBits rest
  | _ => 0

theorem sextet?_some {u n : Nat} (found : sextet? u = some n) : n < 64 ∧ letter n = u := by
  unfold sextet? at found
  split_ifs at found with upper lower digit plus slash
  all_goals
    cases found
    simp only [Bool.and_eq_true, decide_eq_true_eq] at *
  · exact ⟨by omega, by rw [letter, if_pos (by omega)]; omega⟩
  · exact ⟨by omega, by rw [letter, if_neg (by omega), if_pos (by omega)]; omega⟩
  · exact ⟨by omega, by rw [letter, if_neg (by omega), if_neg (by omega), if_pos (by omega)]; omega⟩
  · exact ⟨by decide, plus.symm⟩
  · exact ⟨by decide, slash.symm⟩

theorem rounded_of_sextet {step u n : Nat} (found : sextet? u = some n) :
    rounded step u = letter (n / step * step) := by
  rw [rounded, found]

/-- The letter stays as it is when the bits are zero, and only then. -/
theorem rounded_eq_iff {step u n : Nat} (found : sextet? u = some n) :
    rounded step u = u ↔ n % step = 0 := by
  obtain ⟨small, spelled⟩ := sextet?_some found
  have below : n / step * step ≤ n := Nat.div_mul_le_self n step
  have split : n / step * step + n % step = n := Nat.div_add_mod' n step
  rw [rounded_of_sextet found]
  constructor
  · intro same
    have value : some (n / step * step) = some n := by
      rw [← sextet?_letter (lt_of_le_of_lt below small), same, found]
    have := Option.some.inj value
    omega
  · intro zero
    have whole : n / step * step = n := by omega
    rw [whole, spelled]

theorem toNat_byte {n : Nat} (small : n < 256) : (UInt8.ofNat n).toNat = n := by
  rw [UInt8.toNat_ofNat']
  exact Nat.mod_eq_of_lt small

/-- What decodes is spelled again as it was, but for the bits that its padding leaves unused. -/
theorem encode_decode? {us : List Nat} {data : List UInt8} (decoded : decode? us = some data) :
    encode data = cleared us := by
  induction us using decode?.induct generalizing data with
  | case1 =>
      cases decoded
      rfl
  | case2 a b c d rest ih =>
      simp only [decode?, Option.bind_eq_bind, Option.bind_eq_some_iff] at decoded
      obtain ⟨x, first, y, second, decoded⟩ := decoded
      obtain ⟨smallX, letterX⟩ := sextet?_some first
      obtain ⟨smallY, letterY⟩ := sextet?_some second
      have byte₁ : (UInt8.ofNat (x * 4 + y / 16)).toNat = x * 4 + y / 16 := toNat_byte (by omega)
      have sextet₁ : (x * 4 + y / 16) / 4 = x := by omega
      split_ifs at decoded with last short
      · obtain ⟨rfl, rfl⟩ := last
        cases decoded
        have sextet₂ : (x * 4 + y / 16) % 4 * 16 = y / 16 * 16 := by omega
        rw [cleared, if_pos ⟨rfl, rfl⟩, if_pos short, rounded_of_sextet second, encode, byte₁,
          sextet₁, sextet₂, letterX, short]
      · obtain ⟨rfl, rfl⟩ := last
        obtain ⟨z, third, decoded⟩ := Option.bind_eq_some_iff.mp decoded
        obtain ⟨smallZ, letterZ⟩ := sextet?_some third
        cases decoded
        have byte₂ : (UInt8.ofNat (y % 16 * 16 + z / 4)).toNat = y % 16 * 16 + z / 4 :=
          toNat_byte (by omega)
        have sextet₂ : (x * 4 + y / 16) % 4 * 16 + (y % 16 * 16 + z / 4) / 16 = y := by omega
        have sextet₃ : (y % 16 * 16 + z / 4) % 16 * 4 = z / 4 * 4 := by omega
        rw [cleared, if_pos ⟨rfl, rfl⟩, if_neg short, rounded_of_sextet third, encode, byte₁,
          byte₂, sextet₁, sextet₂, sextet₃, letterX, letterY]
      · simp only [Option.bind_eq_some_iff] at decoded
        obtain ⟨z, third, w, fourth, more, later, decoded⟩ := decoded
        obtain ⟨smallZ, letterZ⟩ := sextet?_some third
        obtain ⟨smallW, letterW⟩ := sextet?_some fourth
        cases decoded
        have byte₂ : (UInt8.ofNat (y % 16 * 16 + z / 4)).toNat = y % 16 * 16 + z / 4 :=
          toNat_byte (by omega)
        have byte₃ : (UInt8.ofNat (z % 4 * 64 + w)).toNat = z % 4 * 64 + w := toNat_byte (by omega)
        have sextet₂ : (x * 4 + y / 16) % 4 * 16 + (y % 16 * 16 + z / 4) / 16 = y := by omega
        have sextet₃ : (y % 16 * 16 + z / 4) % 16 * 4 + (z % 4 * 64 + w) / 64 = z := by omega
        have sextet₄ : (z % 4 * 64 + w) % 64 = w := by omega
        rw [cleared, if_neg last, List.cons_append, List.cons_append, List.cons_append,
          List.nil_append, encode, byte₁, byte₂, byte₃, sextet₁, sextet₂, sextet₃, sextet₄,
          letterX, letterY, letterZ, letterW, ih later]
  | case3 us none other =>
      rw [decode?.eq_3 us none other] at decoded
      cases decoded

/-- Clearing changes nothing exactly when nothing is set. -/
theorem cleared_eq_iff {us : List Nat} {data : List UInt8} (decoded : decode? us = some data) :
    cleared us = us ↔ unusedBits us = 0 := by
  induction us using decode?.induct generalizing data with
  | case1 => exact ⟨fun _ => rfl, fun _ => rfl⟩
  | case2 a b c d rest ih =>
      simp only [decode?, Option.bind_eq_bind, Option.bind_eq_some_iff] at decoded
      obtain ⟨x, first, y, second, decoded⟩ := decoded
      rw [cleared, unusedBits]
      split_ifs at decoded ⊢ with last short
      · rw [second, Option.getD_some, ← rounded_eq_iff second]
        exact ⟨fun same => (List.cons.inj (List.cons.inj same).2).1, fun same => by rw [same, last.1]⟩
      · obtain ⟨z, third, _⟩ := Option.bind_eq_some_iff.mp decoded
        rw [third, Option.getD_some, ← rounded_eq_iff third]
        exact ⟨fun same => (List.cons.inj (List.cons.inj (List.cons.inj same).2).2).1,
          fun same => by rw [same, last.1]⟩
      · simp only [Option.bind_eq_some_iff] at decoded
        obtain ⟨_, _, _, _, more, later, _⟩ := decoded
        rw [← ih later]
        exact List.append_cancel_left_eq [a, b, c, d] (cleared rest) rest ▸ Iff.rfl
  | case3 us none other =>
      rw [decode?.eq_3 us none other] at decoded
      cases decoded

end SanDbOxFormal.Library.Base64
