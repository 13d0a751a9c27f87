import SanDbOxFormal.Library.JsonSpelling
import SanDbOxFormal.Protocol.Hello
import SanDbOxFormal.TypeScript.Decode

/-!
# ASCII texts in UTF-16

A text of ASCII characters, such as a number token, has a unit for each character, and
what the driver asks of a token is asked of its characters.
-/

namespace SanDbOxFormal.TypeScript

open SanDbOxFormal.Library
open SanDbOxFormal.Library.JsonReader (points)
open SanDbOxFormal.Protocol (IntegerToken intPart_digits)

theorem encode_ascii {cs : List Char} (narrow : ∀ c ∈ cs, 0x20 < c.toNat ∧ c.toNat < 0x80) :
    Utf16.encode cs = string (points cs) := by
  rw [string, points, List.map_map]
  exact (Utf16.encode_narrow (List.all_eq_true.mpr fun c inside => decide_eq_true (narrow c inside).2)).symm

/-- The bytes of ASCII text decode to its units. -/
theorem decodeText_ascii {cs : List Char} (narrow : ∀ c ∈ cs, 0x20 < c.toNat ∧ c.toNat < 0x80) :
    decodeText (Utf8.encode cs) = .ok (string (points cs)) := by
  have decoded : Utf8.decode? (Utf8.encode cs) = some (String.ofList cs) :=
    (Utf8.decode?_eq_some_iff _ _).mpr (Utf8.bytes_ofList cs).symm
  rw [decodeText, decoded]
  dsimp only
  rw [String.toList_ofList, encode_ascii narrow, if_neg]
  cases cs with
  | nil => exact nofun
  | cons c rest =>
      intro mark
      have same : UInt16.ofNat c.toNat = 0xFEFF := Option.some.inj mark
      have range := (narrow c List.mem_cons_self).2
      have value := congrArg UInt16.toNat same
      rw [UInt16.toNat_ofNat', Nat.mod_eq_of_lt (by omega)] at value
      rw [value] at range
      exact absurd range (by decide)

theorem string_toNat {cs : List Char} (narrow : ∀ c ∈ cs, 0x20 < c.toNat ∧ c.toNat < 0x80) :
    (string (points cs)).map UInt16.toNat = points cs := by
  rw [string, points, List.map_map, List.map_map]
  refine List.map_congr_left fun c inside => ?_
  have range := narrow c inside
  exact Nat.mod_eq_of_lt (by omega)

theorem unit_eq_iff {c d : Char} (narrow : c.toNat < 0x80) (other : d.toNat < 0x80) :
    UInt16.ofNat c.toNat = UInt16.ofNat d.toNat ↔ c = d := by
  rw [← UInt16.toNat_inj, UInt16.toNat_ofNat', UInt16.toNat_ofNat', Nat.mod_eq_of_lt (by omega),
    Nat.mod_eq_of_lt (by omega), Char.toNat_inj]

theorem isReal_string {cs : List Char} (narrow : ∀ c ∈ cs, 0x20 < c.toNat ∧ c.toNat < 0x80) :
    isReal (string (points cs)) = cs.any Decimal.isRealMark := by
  induction cs with
  | nil => rfl
  | cons c rest ih =>
      obtain ⟨⟨_, first⟩, others⟩ := List.forall_mem_cons.mp narrow
      have mark (d : Char) (ascii : d.toNat < 0x80) :
          decide (UInt16.ofNat c.toNat = UInt16.ofNat d.toNat) = decide (c = d) :=
        decide_eq_decide.mpr (unit_eq_iff first ascii)
      have split : isReal (string (points (c :: rest))) =
          ((decide (UInt16.ofNat c.toNat = UInt16.ofNat '.'.toNat) ||
            decide (UInt16.ofNat c.toNat = UInt16.ofNat 'e'.toNat) ||
            decide (UInt16.ofNat c.toNat = UInt16.ofNat 'E'.toNat)) ||
              isReal (string (points rest))) := rfl
      rw [split, mark '.' (by decide), mark 'e' (by decide), mark 'E' (by decide), ih others]
      rfl

theorem bigInt_token {cs : List Char} {n : Int} (token : IntegerToken cs n)
    (narrow : ∀ c ∈ cs, 0x20 < c.toNat ∧ c.toNat < 0x80) :
    bigInt (string (points cs)) = n := by
  have run (ds : List Char) (n : Nat) (narrow : ∀ c ∈ ds, 0x20 < c.toNat ∧ c.toNat < 0x80) :
      (string (points ds)).foldl (fun n u => n * 10 + (u.toNat - 0x30)) n =
        Nat.ofDigitChars 10 ds n := by
    induction ds generalizing n with
    | nil => rfl
    | cons c rest ih =>
        obtain ⟨⟨_, first⟩, others⟩ := List.forall_mem_cons.mp narrow
        have value : (UInt16.ofNat c.toNat).toNat = c.toNat := Nat.mod_eq_of_lt (by omega)
        change (string (points rest)).foldl _
          (n * 10 + ((UInt16.ofNat c.toNat).toNat - 0x30)) = _
        rw [value, ih _ others, Nat.mul_comm]
        rfl
  have magnitude (ds : List Char) (narrow : ∀ c ∈ ds, 0x20 < c.toNat ∧ c.toNat < 0x80) :=
    run ds 0 narrow
  cases token with
  | whole part =>
      obtain ⟨nonempty, digits⟩ := intPart_digits part
      cases cs with
      | nil => exact absurd rfl nonempty
      | cons c rest =>
          have digit := digits c List.mem_cons_self
          have unsigned : UInt16.ofNat c.toNat ≠ 0x2D := by
            intro same
            have minus : c = '-' :=
              (unit_eq_iff (narrow c List.mem_cons_self).2 (by decide)).mp same
            rw [minus] at digit
            cases digit
          rw [← magnitude _ narrow]
          exact if_neg unsigned
  | @negative ds part =>
      have others := (List.forall_mem_cons.mp narrow).2
      rw [← magnitude ds others]
      rfl

end SanDbOxFormal.TypeScript
