import Mathlib

/-!
# Base64

The standard alphabet with padding, over code units.  Three bytes make a group of four
units; only the last group is padded.
-/

namespace SanDbOxFormal.Library.Base64

/-- The padding. -/
def pad : Nat := 0x3D

def letter (n : Nat) : Nat :=
  if n < 26 then 0x41 + n
  else if n < 52 then 0x61 + (n - 26)
  else if n < 62 then 0x30 + (n - 52)
  else if n = 62 then 0x2B
  else 0x2F

def sextet? (u : Nat) : Option Nat :=
  if 0x41 ≤ u && u ≤ 0x5A then some (u - 0x41)
  else if 0x61 ≤ u && u ≤ 0x7A then some (u - 0x61 + 26)
  else if 0x30 ≤ u && u ≤ 0x39 then some (u - 0x30 + 52)
  else if u = 0x2B then some 62
  else if u = 0x2F then some 63
  else none

def encode : List UInt8 → List Nat
  | [] => []
  | [a] => [letter (a.toNat / 4), letter (a.toNat % 4 * 16), pad, pad]
  | [a, b] =>
      [letter (a.toNat / 4), letter (a.toNat % 4 * 16 + b.toNat / 16), letter (b.toNat % 16 * 4), pad]
  | a :: b :: c :: rest =>
      [letter (a.toNat / 4), letter (a.toNat % 4 * 16 + b.toNat / 16),
        letter (b.toNat % 16 * 4 + c.toNat / 64), letter (c.toNat % 64)] ++ encode rest

/-- The bytes of a text of the alphabet, of full groups but for its padding. -/
def decode? : List Nat → Option (List UInt8)
  | [] => some []
  | a :: b :: c :: d :: rest => do
      let a ← sextet? a
      let b ← sextet? b
      if rest = [] ∧ d = pad then
        if c = pad then some [UInt8.ofNat (a * 4 + b / 16)]
        else do
          let c ← sextet? c
          some [UInt8.ofNat (a * 4 + b / 16), UInt8.ofNat (b % 16 * 16 + c / 4)]
      else do
        let c ← sextet? c
        let d ← sextet? d
        let more ← decode? rest
        some ([UInt8.ofNat (a * 4 + b / 16), UInt8.ofNat (b % 16 * 16 + c / 4),
          UInt8.ofNat (c % 4 * 64 + d)] ++ more)
  | _ => none

/-- How many full groups a text begins with. -/
def groups : List Nat → Nat
  | a :: b :: c :: d :: rest =>
      if [a, b, c, d].all fun u => (sextet? u).isSome then groups rest + 1 else 0
  | _ => 0

/-! ## Letters -/

theorem sextet?_letter {n : Nat} (small : n < 64) : sextet? (letter n) = some n := by
  revert n
  decide

theorem letter_ne_pad {n : Nat} (small : n < 64) : letter n ≠ pad := by
  revert n
  decide

/-- The units that Base64 writes. -/
def isUnit (u : Nat) : Bool := (sextet? u).isSome || u = pad

theorem isUnit_letter {n : Nat} (small : n < 64) : isUnit (letter n) = true := by
  rw [isUnit, sextet?_letter small]
  rfl

/-- They are visible ASCII, neither a quote nor a backslash. -/
theorem isUnit_plain {u : Nat} (unit : isUnit u = true) :
    0x20 < u ∧ u < 0x80 ∧ u ≠ 0x22 ∧ u ≠ 0x5C := by
  have narrow : u < 0x80 := by
    by_contra wide
    have none : sextet? u = none := by
      simp only [sextet?, Bool.and_eq_true, decide_eq_true_eq]
      rw [if_neg (by omega), if_neg (by omega), if_neg (by omega), if_neg (by omega),
        if_neg (by omega)]
    rw [isUnit, none] at unit
    have same : u = pad := by simpa using unit
    rw [same] at wide
    exact wide (by decide)
  have table : ∀ v < 0x80, isUnit v = true → 0x20 < v ∧ v < 0x80 ∧ v ≠ 0x22 ∧ v ≠ 0x5C := by decide
  exact table u narrow unit

theorem encode_units (bytes : List UInt8) : ∀ u ∈ encode bytes, isUnit u = true := by
  have lift {n : Nat} {us : List Nat} (small : n < 64) (rest : ∀ u ∈ us, isUnit u = true) :
      ∀ u ∈ letter n :: us, isUnit u = true :=
    List.forall_mem_cons.mpr ⟨isUnit_letter small, rest⟩
  have padded : ∀ u ∈ [pad], isUnit u = true := by decide
  have low (a : UInt8) : a.toNat < 256 := a.toNat_lt
  induction bytes using encode.induct with
  | case1 => exact nofun
  | case2 a =>
      have := low a
      exact lift (by omega) (lift (by omega) (List.forall_mem_cons.mpr ⟨rfl, padded⟩))
  | case3 a b =>
      have := low a
      have := low b
      exact lift (by omega) (lift (by omega) (lift (by omega) padded))
  | case4 a b c rest ih =>
      have := low a
      have := low b
      have := low c
      exact lift (by omega) (lift (by omega) (lift (by omega) (lift (by omega) ih)))

theorem isUnit_sextet {u n : Nat} (found : sextet? u = some n) : isUnit u = true := by
  rw [isUnit, found]
  rfl

/-- Only units of Base64 are decoded. -/
theorem decode?_units {us : List Nat} {bytes : List UInt8} (decoded : decode? us = some bytes) :
    ∀ u ∈ us, isUnit u = true := by
  induction us using decode?.induct generalizing bytes with
  | case1 => exact nofun
  | case2 a b c d rest ih =>
      simp only [decode?, Option.bind_eq_bind, Option.bind_eq_some_iff] at decoded
      obtain ⟨_, first, _, second, decoded⟩ := decoded
      have lift {vs : List Nat} (rest : ∀ u ∈ vs, isUnit u = true) :
          ∀ u ∈ a :: b :: vs, isUnit u = true :=
        List.forall_mem_cons.mpr ⟨isUnit_sextet first,
          List.forall_mem_cons.mpr ⟨isUnit_sextet second, rest⟩⟩
      split_ifs at decoded with last short
      · obtain ⟨rfl, rfl⟩ := last
        subst short
        exact lift (by decide)
      · obtain ⟨rfl, rfl⟩ := last
        obtain ⟨_, third, _⟩ := Option.bind_eq_some_iff.mp decoded
        exact lift (List.forall_mem_cons.mpr ⟨isUnit_sextet third, by decide⟩)
      · simp only [Option.bind_eq_some_iff] at decoded
        obtain ⟨_, third, _, fourth, _, more, _⟩ := decoded
        exact lift (List.forall_mem_cons.mpr ⟨isUnit_sextet third,
          List.forall_mem_cons.mpr ⟨isUnit_sextet fourth, ih more⟩⟩)
  | case3 us none other =>
      rw [decode?.eq_3 us none other] at decoded
      cases decoded

/-! ## The decoder inverts the encoder -/

theorem byte_eq {n : Nat} {a : UInt8} (same : n = a.toNat) : UInt8.ofNat n = a := by
  rw [same, UInt8.ofNat_toNat]

theorem decode?_encode (bytes : List UInt8) : decode? (encode bytes) = some bytes := by
  induction bytes using encode.induct with
  | case1 => rfl
  | case2 a =>
      have := a.toNat_lt
      rw [encode, decode?, sextet?_letter (by omega), sextet?_letter (by omega)]
      simp only [Option.bind_eq_bind, Option.bind_some, and_self, if_true]
      rw [byte_eq (a := a) (by omega)]
  | case3 a b =>
      have := a.toNat_lt
      have := b.toNat_lt
      rw [encode, decode?, sextet?_letter (by omega), sextet?_letter (by omega)]
      simp only [Option.bind_eq_bind, Option.bind_some, and_self, if_true]
      rw [if_neg (letter_ne_pad (by omega)), sextet?_letter (by omega), Option.bind_some,
        byte_eq (a := a) (by omega), byte_eq (a := b) (by omega)]
  | case4 a b c rest ih =>
      have := a.toNat_lt
      have := b.toNat_lt
      have := c.toNat_lt
      rw [encode, List.cons_append, List.cons_append, List.cons_append, List.cons_append,
        List.nil_append, decode?, sextet?_letter (by omega), sextet?_letter (by omega)]
      simp only [Option.bind_eq_bind, Option.bind_some]
      rw [if_neg (fun last => letter_ne_pad (by omega) last.2), sextet?_letter (by omega),
        sextet?_letter (by omega), ih]
      simp only [Option.bind_some]
      rw [byte_eq (a := a) (by omega), byte_eq (a := b) (by omega), byte_eq (a := c) (by omega)]
      rfl

/-- Every full group of a text is three bytes. -/
theorem groups_of_decodes {us : List Nat} {bytes : List UInt8} (decoded : decode? us = some bytes) :
    groups us = bytes.length / 3 := by
  induction us using decode?.induct generalizing bytes with
  | case1 =>
      cases decoded
      rfl
  | case2 a b c d rest ih =>
      simp only [decode?, Option.bind_eq_bind, Option.bind_eq_some_iff] at decoded
      obtain ⟨x, first, y, second, decoded⟩ := decoded
      rw [groups]
      split_ifs at decoded with last short
      · rw [last.2, if_neg (by simp [sextet?, pad])]
        cases decoded
        simp
      · simp only [Option.bind_eq_some_iff] at decoded
        obtain ⟨z, _, decoded⟩ := decoded
        rw [last.2, if_neg (by simp [sextet?, pad])]
        cases decoded
        simp
      · simp only [Option.bind_eq_some_iff] at decoded
        obtain ⟨z, third, w, fourth, more, later, decoded⟩ := decoded
        cases decoded
        rw [if_pos (by simp [first, second, third, fourth]), ih later, List.length_append]
        simp only [List.length_cons, List.length_nil]
        omega
  | case3 us none other =>
      rw [decode?.eq_3 us none other] at decoded
      cases decoded

end SanDbOxFormal.Library.Base64
