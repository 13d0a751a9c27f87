import SanDbOxFormal.Library.Failures
import SanDbOxFormal.Rust.Codec.JsonSoundness

/-!
# The parser does not panic

What a `\u` escape computes is in the range of its types, so that its sums do not
overflow and its conversions give a character.
-/

namespace SanDbOxFormal.Rust.Codec.Json

open SanDbOxFormal.Library

namespace Parser

/-- A stop that the caller gets as an `Err`. -/
def Reported (stop : Stop) : Prop := ∃ e, stop = .err e

theorem reported_err {α : Type} (p : Parser) (msg : String) : Throws Reported (p.err msg : Except Stop α) :=
  .error ⟨_, rfl⟩

/-- `a - b` of two `u32`. -/
def subU32 (a b : Nat) : Except Stop Nat :=
  if b ≤ a then .ok (a - b) else .error (.panic "attempt to subtract with overflow")

/-- `a + b` of two `u32`. -/
def addU32 (a b : Nat) : Except Stop Nat :=
  if a + b < 2 ^ 32 then .ok (a + b) else .error (.panic "attempt to add with overflow")

/-- `char::from_u32`, for a caller that cannot do without the character. -/
def charOf (n : Nat) : Except Stop Char :=
  match charFromU32? n with
  | some c => .ok c
  | none => .error (.panic "no character")

/-- `pushPair`, with the sums of `u32` and the conversion as steps that may panic. -/
def pushPairChecked (high low : Nat) (p : Parser) (out : String) : Except Stop (String × Parser) :=
  if 0xDC00 ≤ low ∧ low ≤ 0xDFFF then do
    let top ← subU32 high 0xD800
    let sum ← addU32 0x10000 (top * 0x400 % 2 ^ 32)
    let bottom ← subU32 low 0xDC00
    let sum ← addU32 sum bottom
    let c ← charOf sum
    .ok (out.push c, p)
  else p.err "invalid low surrogate in \\u escape pair"

/-- `pushUnit`, likewise. -/
def pushUnitChecked (cp : Nat) (p : Parser) (out : String) : Except Stop (String × Parser) :=
  if 0xD800 ≤ cp ∧ cp ≤ 0xDBFF then
    match p.bumpByte with
    | (some 0x5C, q) =>
        match q.bumpByte with
        | (some 0x75, r) => do
            let low ← r.parseHex4
            pushPairChecked cp low.1 low.2 out
        | (_, r) => r.err "unpaired UTF-16 surrogate"
    | (_, q) => q.err "unpaired UTF-16 surrogate"
  else if 0xDC00 ≤ cp ∧ cp ≤ 0xDFFF then p.err "unpaired UTF-16 surrogate"
  else do
    let c ← charOf cp
    .ok (out.push c, p)

def parseUnicodeChecked (p : Parser) (out : String) : Except Stop (String × Parser) := do
  let cp ← p.parseHex4
  pushUnitChecked cp.1 cp.2 out

/-! ## Four hex digits -/

theorem hexDigit?_lt {byte : UInt8} {digit : Nat} (found : hexDigit? byte = some digit) : digit < 16 := by
  have small := byte.toNat_lt
  simp only [hexDigit?, UInt8.le_iff_toNat_le, Bool.and_eq_true, decide_eq_true_eq] at found
  split_ifs at found with range range range
  all_goals
    cases found
    have low := range.1
    have high := range.2
    simp only [UInt8.reduceToNat] at low high
    omega

/-- `n` more digits behind a value that has room for them. -/
theorem parseHexLoop_reports {n v : Nat} (room : (v + 1) * 16 ^ n ≤ 0x10000) (p : Parser) :
    Throws Reported (parseHexLoop n p v) ∧ ∀ r, parseHexLoop n p v = .ok r → r.1 < 0x10000 := by
  induction n generalizing v p with
  | zero =>
      refine ⟨.ok _, fun r returned => ?_⟩
      cases returned
      omega
  | succ n ih =>
      rw [parseHexLoop]
      split
      · exact ⟨reported_err _ _, fun r is => by cases is⟩
      · rename_i byte q bumped
        split
        · exact ⟨reported_err _ _, fun r is => by cases is⟩
        · rename_i digit found
          have bound := hexDigit?_lt found
          have grown : (v * 16 + digit + 1) * 16 ^ n ≤ (v + 1) * 16 ^ (n + 1) := by
            rw [Nat.pow_succ, Nat.mul_comm (16 ^ n) 16, ← Nat.mul_assoc]
            exact Nat.mul_le_mul_right _ (by omega)
          have fits : v * 16 + digit < 0x10000 := by
            have one : 0 < 16 ^ n := Nat.pow_pos (by decide)
            have least : v * 16 + digit + 1 ≤ (v * 16 + digit + 1) * 16 ^ n := Nat.le_mul_of_pos_right _ one
            omega
          rw [if_pos fits]
          exact ih (grown.trans room) q

theorem parseHex4_reports (p : Parser) :
    Throws Reported p.parseHex4 ∧ ∀ r, p.parseHex4 = .ok r → r.1 < 0x10000 :=
  parseHexLoop_reports (by decide) p

/-! ## The conversions -/

theorem charOf_ok {n : Nat} (scalar : n < 0xD800 ∨ (0xDFFF < n ∧ n < 0x110000)) :
    charFromU32? n = some (Char.ofNat n) ∧ charOf n = .ok (Char.ofNat n) := by
  have found : charFromU32? n = some (Char.ofNat n) := if_pos scalar
  exact ⟨found, by rw [charOf, found]⟩

/-- Behind a high surrogate nothing overflows, and the pair is a character. -/
theorem pushPair_checked {high : Nat} (range : 0xD800 ≤ high ∧ high ≤ 0xDBFF) (low : Nat) (p : Parser)
    (out : String) : pushPair high low p out = pushPairChecked high low p out ∧
      Throws Reported (pushPairChecked high low p out) := by
  by_cases lowRange : 0xDC00 ≤ low ∧ low ≤ 0xDFFF
  · obtain ⟨top, rfl⟩ := Nat.exists_eq_add_of_le range.1
    obtain ⟨bottom, rfl⟩ := Nat.exists_eq_add_of_le lowRange.1
    have first : subU32 (0xD800 + top) 0xD800 = .ok top := by
      rw [subU32, if_pos range.1, Nat.add_sub_cancel_left]
    have shifted : top * 0x400 % 2 ^ 32 = top * 0x400 := Nat.mod_eq_of_lt (by omega)
    have second : addU32 0x10000 (top * 0x400 % 2 ^ 32) = .ok (0x10000 + top * 0x400) := by
      rw [addU32, shifted, if_pos (by omega)]
    have third : subU32 (0xDC00 + bottom) 0xDC00 = .ok bottom := by
      rw [subU32, if_pos lowRange.1, Nat.add_sub_cancel_left]
    have fourth : addU32 (0x10000 + top * 0x400) bottom = .ok (0x10000 + top * 0x400 + bottom) := by
      rw [addU32, if_pos (by omega)]
    obtain ⟨found, converted⟩ := charOf_ok (n := 0x10000 + top * 0x400 + bottom) (.inr ⟨by omega, by omega⟩)
    have checked : pushPairChecked (0xD800 + top) (0xDC00 + bottom) p out =
        .ok (out.push (Char.ofNat (0x10000 + top * 0x400 + bottom)), p) := by
      rw [pushPairChecked, if_pos lowRange]
      exact bind_ok_iff.mpr ⟨_, first, bind_ok_iff.mpr ⟨_, second, bind_ok_iff.mpr ⟨_, third,
        bind_ok_iff.mpr ⟨_, fourth, bind_ok_iff.mpr ⟨_, converted, rfl⟩⟩⟩⟩⟩
    rw [checked, pushPair, if_pos lowRange, Nat.add_sub_cancel_left, Nat.add_sub_cancel_left, found]
    exact ⟨rfl, .ok _⟩
  · rw [pushPair, pushPairChecked, if_neg lowRange, if_neg lowRange]
    exact ⟨rfl, reported_err _ _⟩

theorem pushUnit_checked {cp : Nat} (unit : cp < 0x10000) (p : Parser) (out : String) :
    pushUnit cp p out = pushUnitChecked cp p out := by
  rw [pushUnit, pushUnitChecked]
  split
  · rename_i range
    have pair : pushPair cp = pushPairChecked cp :=
      funext fun low => funext fun r => funext fun out => (pushPair_checked range low r out).1
    exact pair ▸ rfl
  · rename_i notHigh
    split
    · rfl
    · rename_i notLow
      obtain ⟨found, converted⟩ := charOf_ok (n := cp) (by omega)
      rw [found, converted]
      rfl

theorem pushUnitChecked_reports {cp : Nat} (unit : cp < 0x10000) (p : Parser) (out : String) :
    Throws Reported (pushUnitChecked cp p out) := by
  rw [pushUnitChecked]
  split
  · rename_i range
    split
    · split
      · rename_i r _
        exact (parseHex4_reports r).1.bind fun low _ => (pushPair_checked range low.1 low.2 out).2
      · exact reported_err _ _
    · exact reported_err _ _
  · split
    · exact reported_err _ _
    · obtain ⟨_, converted⟩ := charOf_ok (n := cp) (by omega)
      rw [converted]
      exact .ok _

theorem parseUnicode_checked (p : Parser) (out : String) :
    p.parseUnicode out = p.parseUnicodeChecked out ∧ Throws Reported (p.parseUnicodeChecked out) := by
  obtain ⟨reports, small⟩ := parseHex4_reports p
  rw [parseUnicode, parseUnicodeChecked]
  cases read : p.parseHex4 with
  | error stop =>
      rw [read] at reports
      simp only [bind, Except.bind, true_and]
      exact .error (Throws.error_iff.mp reports)
  | ok cp =>
      have unit := small cp read
      simp only [bind, Except.bind]
      rw [pushUnit_checked unit]
      exact ⟨rfl, pushUnitChecked_reports unit cp.2 out⟩

end Parser

/-- Every input ends with a value or an `Err`, and no `\u` escape of it computes anything
outside the range of its types. -/
theorem parse_panic_free (input : List UInt8) : Throws Parser.Reported (parse input) ∧
    ∀ (p : Parser) (out : String), p.parseUnicode out = p.parseUnicodeChecked out ∧
      Throws Parser.Reported (p.parseUnicodeChecked out) := by
  exact ⟨fun _ => Parser.parse_reports, Parser.parseUnicode_checked⟩

end SanDbOxFormal.Rust.Codec.Json
