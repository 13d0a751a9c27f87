import SanDbOxFormal.Library.Base64Spelling
import SanDbOxFormal.Protocol.BlobText
import SanDbOxFormal.Protocol.RequestAgreement

/-!
# A BLOB that is sent again

The strict decoder of the Rust driver does not look at the bits that the padding leaves
unused, so a BLOB comes back with zeros there.
-/

namespace SanDbOxFormal.Protocol

open SanDbOxFormal.Library

/-- The bits of `s` that its padding leaves unused. -/
def unusedBits (s : String) : Nat := Base64.unusedBits ((Utf8.bytes s).map UInt8.toNat)

/-- `s` with zeros for its unused bits. -/
def canonical (s : String) : String :=
  String.ofList ((Base64.cleared ((Utf8.bytes s).map UInt8.toNat)).map Char.ofNat)

theorem points_of_ascii {us : List Nat} (narrow : ∀ u ∈ us, u < 0x80) :
    (us.map Char.ofNat).map Char.toNat = us := by
  rw [List.map_map]
  refine (List.map_congr_left fun u inside => ?_).trans (List.map_id us)
  have small := narrow u inside
  exact (Char.toNat_ofNat u).trans (if_pos (.inl (by omega)))

/-- A text of ASCII is what its bytes say. -/
theorem chars_of_ascii {cs : List Char} (narrow : ∀ c ∈ cs, c.toNat < 0x80) :
    ((Utf8.encode cs).map UInt8.toNat).map Char.ofNat = cs := by
  rw [Utf8.encode_ascii narrow, List.map_map, List.map_map]
  refine (List.map_congr_left fun c inside => ?_).trans (List.map_id cs)
  have byte : (UInt8.ofNat c.toNat).toNat = c.toNat :=
    Base64.toNat_byte (Nat.lt_trans (narrow c inside) (by decide))
  simp only [Function.comp_apply, byte, Char.ofNat_toNat, id_eq]

/-- What the decoder takes is ASCII. -/
theorem chars_of_decodes {s : String} {data : List UInt8}
    (decoded : Base64.decode? ((Utf8.bytes s).map UInt8.toNat) = some data) :
    String.ofList (((Utf8.bytes s).map UInt8.toNat).map Char.ofNat) = s := by
  rw [Utf8.bytes_eq_encode] at decoded ⊢
  have narrow := bytes_ascii fun b inside =>
    ascii_of_decodes decoded b.toNat (List.mem_map_of_mem inside)
  rw [chars_of_ascii narrow, String.ofList_toList]

theorem rust_encode_canonical {s : String} {data : List UInt8}
    (decoded : Rust.Codec.Base64.decode s = .ok data) : Rust.Codec.Base64.encode data = canonical s := by
  have units := (rust_decodes s data).mp decoded
  rw [Rust.Codec.Base64.encode, rust_base64, Base64.encode_decode? units, canonical]

theorem canonical_eq_iff {s : String} {data : List UInt8}
    (decoded : Rust.Codec.Base64.decode s = .ok data) : canonical s = s ↔ unusedBits s = 0 := by
  have units := (rust_decodes s data).mp decoded
  have spelled := chars_of_decodes units
  rw [unusedBits, ← Base64.cleared_eq_iff units]
  constructor
  · intro same
    have chars := String.ofList_injective (same.trans spelled.symm)
    rw [← Base64.encode_decode? units] at chars ⊢
    have written : ∀ u ∈ Base64.encode data, u < 0x80 := fun u inside =>
      (Base64.isUnit_plain (Base64.encode_units data u inside)).2.1
    rw [← points_of_ascii written, chars, points_of_ascii (ascii_of_decodes units)]
  · intro same
    rw [canonical, same, spelled]

/-- Encoding what was decoded clears the unused bits and changes nothing else; two texts
that are accepted give the same bytes if and only if they differ in these bits alone. -/
theorem rust_blob_spelling (s : String) (data : List UInt8) (accepted : Rust.Codec.Base64.decode s = .ok data) :
    Rust.Codec.Base64.encode data = canonical s ∧
      (Rust.Codec.Base64.encode data = s ↔ unusedBits s = 0) ∧
      ∀ t other, Rust.Codec.Base64.decode t = .ok other → (other = data ↔ canonical t = canonical s) := by
  have written := rust_encode_canonical accepted
  refine ⟨written, ?_, fun t other decoded => ?_⟩
  · rw [written]
    exact canonical_eq_iff accepted
  · rw [← rust_encode_canonical decoded, ← written]
    constructor
    · intro same
      rw [same]
    · intro same
      have back := Rust.Codec.Base64.decode_encode other
      rw [same, Rust.Codec.Base64.decode_encode] at back
      exact (Except.ok.inj back).symm

/-- `"QQ=="` and `"QR=="` are both the byte `A`. -/
theorem rust_blob_spelling_spare : Rust.Codec.Base64.encode [0x41] = canonical "QR==" ∧
    (Rust.Codec.Base64.encode [0x41] = "QR==" ↔ unusedBits "QR==" = 0) ∧
    ∀ t other, Rust.Codec.Base64.decode t = .ok other → (other = [0x41] ↔ canonical t = canonical "QR==") :=
  rust_blob_spelling "QR==" [0x41] (by decide +kernel)

theorem rust_blob_respelled : ¬ ∀ (s : String) (data : List UInt8), Rust.Codec.Base64.decode s = .ok data →
    Rust.Codec.Base64.encode data = s := by
  intro faithful
  have spelled := faithful "QR==" [0x41] (by decide +kernel)
  exact absurd spelled (by decide +kernel)

end SanDbOxFormal.Protocol
