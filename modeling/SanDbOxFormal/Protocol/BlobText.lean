import SanDbOxFormal.Library.Base64Pattern
import SanDbOxFormal.Library.Failures
import SanDbOxFormal.Rust.Codec.Base64Strict
import SanDbOxFormal.TypeScript.ValueRoundTrip

/-!
# The texts of BLOBs

The Base64 decoders of the Rust driver and of the TypeScript driver take the same texts,
those of the pattern in the source of the latter, and make the same bytes of them.
-/

namespace SanDbOxFormal.Protocol

open SanDbOxFormal.Library

/-- `[A-Za-z0-9+/]`. -/
def base64Class (u : UInt16) : Prop :=
  (0x41 ≤ u ∧ u ≤ 0x5A) ∨ (0x61 ≤ u ∧ u ≤ 0x7A) ∨ (0x30 ≤ u ∧ u ≤ 0x39) ∨ u = 0x2B ∨ u = 0x2F

/-- `BASE64_RE`. -/
def base64Re : Language UInt16 := Base64.pattern base64Class 0x3D

theorem isLetter_iff (u : UInt16) : Base64.IsLetter u.toNat ↔ base64Class u := by
  have same (k : UInt16) : u = k ↔ u.toNat = k.toNat := UInt16.toNat_inj.symm
  simp only [Base64.IsLetter, Base64.sextet?, base64Class, UInt16.le_iff_toNat_le, same, Bool.and_eq_true,
    decide_eq_true_eq]
  constructor
  · rintro ⟨n, found⟩
    split_ifs at found with upper lower digit plus slash
    · exact .inl upper
    · exact .inr (.inl lower)
    · exact .inr (.inr (.inl digit))
    · exact .inr (.inr (.inr (.inl plus)))
    · exact .inr (.inr (.inr (.inr slash)))
  · intro letter
    split_ifs with upper lower digit plus slash
    · exact ⟨_, rfl⟩
    · exact ⟨_, rfl⟩
    · exact ⟨_, rfl⟩
    · exact ⟨_, rfl⟩
    · exact ⟨_, rfl⟩
    · rcases letter with in_ | in_ | in_ | in_ | in_
      · exact absurd in_ upper
      · exact absurd in_ lower
      · exact absurd in_ digit
      · exact absurd in_ plus
      · exact absurd in_ slash

theorem base64Re_decodes (s : TypeScript.JsString) :
    s ∈ base64Re ↔ ∃ data, Base64.decode? (s.map UInt16.toNat) = some data := by
  have injective : Function.Injective UInt16.toNat := fun _ _ => UInt16.toNat_inj.mp
  have letters : (fun u : UInt16 => Base64.IsLetter u.toNat) = base64Class :=
    funext fun u => propext (isLetter_iff u)
  rw [Base64.decodes_iff, base64Re, ← letters]
  exact (Base64.map_mem_pattern injective).symm

theorem typeScript_decodes (rt : TypeScript.Runtime) (s : TypeScript.JsString) (data : List UInt8) :
    TypeScript.decodeBase64Strict rt s = .ok data ↔
      Base64.decode? (s.map UInt16.toNat) = some data ∧ TypeScript.base64Groups s ≤ rt.regExpGroups := by
  rw [TypeScript.decodeBase64Strict, ← TypeScript.base64?_toNat]
  split_ifs with full
  · exact iff_of_false (fun is => by cases is) fun is => absurd is.2 (Nat.not_le_of_lt full)
  · rw [and_iff_left (Nat.le_of_not_lt full)]
    cases TypeScript.base64? s with
    | none => exact ⟨(fun is => by cases is), (fun is => by cases is)⟩
    | some bytes => exact ⟨fun same => congrArg some (Except.ok.inj same),
        fun same => congrArg Except.ok (Option.some.inj same)⟩

/-- What decodes is ASCII, the same in bytes and in units. -/
theorem ascii_of_decodes {us : List Nat} {data : List UInt8} (decoded : Base64.decode? us = some data) :
    ∀ u ∈ us, u < 0x80 :=
  fun u inside => (Base64.isUnit_plain (Base64.decode?_units decoded u inside)).2.1

theorem bytes_ascii {cs : List Char} (narrow : ∀ b ∈ Utf8.encode cs, b.toNat < 0x80) :
    ∀ c ∈ cs, c.toNat < 0x80 := by
  induction cs with
  | nil => exact nofun
  | cons c rest ih =>
      rw [Utf8.encode_cons, List.forall_mem_append] at narrow
      refine List.forall_mem_cons.mpr ⟨?_, ih narrow.2⟩
      obtain ⟨lead, more, shape, _, wide⟩ := Utf8.utf8EncodeChar_lead c
      by_contra large
      have first := narrow.1 lead (shape ▸ List.mem_cons_self)
      have := wide (Nat.le_of_not_lt large)
      omega

theorem length_of_decodes {us : List Nat} {data : List UInt8} (decoded : Base64.decode? us = some data) :
    us.length % 4 = 0 := by
  induction us using Base64.decode?.induct generalizing data with
  | case1 => rfl
  | case2 a b c d rest ih =>
      simp only [Base64.decode?, Option.bind_eq_bind, Option.bind_eq_some_iff] at decoded
      obtain ⟨x, first, y, second, decoded⟩ := decoded
      split_ifs at decoded with last short
      · simp only [last.1, List.length_cons, List.length_nil]
      · simp only [last.1, List.length_cons, List.length_nil]
      · simp only [Option.bind_eq_some_iff] at decoded
        obtain ⟨z, third, w, fourth, more, later, _⟩ := decoded
        have := ih later
        simp only [List.length_cons]
        omega
  | case3 us none other =>
      rw [Base64.decode?.eq_3 us none other] at decoded
      cases decoded

theorem rust_decodes (s : String) (data : List UInt8) : Rust.Codec.Base64.decode s = .ok data ↔
    Base64.decode? ((Utf8.bytes s).map UInt8.toNat) = some data := by
  unfold Rust.Codec.Base64.decode
  dsimp only
  split_ifs with partial_
  · refine ⟨nofun, fun decoded => ?_⟩
    have whole := length_of_decodes decoded
    rw [List.length_map] at whole
    exact absurd whole partial_
  · rw [← Rust.Codec.Base64.decodeGroups_decode? _ (not_not.mp partial_)]
    cases Rust.Codec.Base64.decodeGroups (Utf8.bytes s) with
    | error e => exact ⟨nofun, nofun⟩
    | ok bytes => exact ⟨fun same => congrArg some (Except.ok.inj same),
        fun same => congrArg Except.ok (Option.some.inj same)⟩

theorem ascii_units {cs : List Char} (narrow : ∀ c ∈ cs, c.toNat < 0x80) :
    (Utf16.encode cs).map UInt16.toNat = (Utf8.encode cs).map UInt8.toNat := by
  rw [Utf8.encode_ascii narrow]
  induction cs with
  | nil => rfl
  | cons c rest ih =>
      obtain ⟨first, others⟩ := List.forall_mem_cons.mp narrow
      have unit : (UInt16.ofNat c.toNat).toNat = c.toNat := Utf16.ofNat_toNat (by omega)
      have byte : (UInt8.ofNat c.toNat).toNat = c.toNat := by
        rw [UInt8.toNat_ofNat']
        omega
      rw [Utf16.encode_cons, Utf16.units, if_pos (by omega), List.map_append, ih others,
        List.map_cons, List.map_cons, List.map_cons, List.map_nil, unit, byte]
      rfl

/-- The bytes of a string decode as its units do. -/
theorem bytes_decode_units (s : String) (data : List UInt8) :
    Base64.decode? ((Utf8.bytes s).map UInt8.toNat) = some data ↔
      Base64.decode? ((Utf16.encode s.toList).map UInt16.toNat) = some data := by
  rw [Utf8.bytes_eq_encode]
  constructor
  · intro decoded
    have narrow := bytes_ascii fun b inside =>
      ascii_of_decodes decoded b.toNat (List.mem_map_of_mem inside)
    rw [ascii_units narrow]
    exact decoded
  · intro decoded
    have narrow : ∀ c ∈ s.toList, c.toNat < 0x80 := by
      intro c inside
      have small := fun u among => ascii_of_decodes decoded (UInt16.toNat u) (List.mem_map_of_mem among)
      have units : ∀ u ∈ Utf16.units c, u.toNat < 0x80 := fun u among =>
        small u (List.mem_flatMap.mpr ⟨c, inside, among⟩)
      rw [Utf16.units] at units
      split_ifs at units with narrow
      · have first := List.forall_mem_singleton.mp units
        rwa [Utf16.ofNat_toNat narrow] at first
      · obtain ⟨first, _⟩ := List.forall_mem_cons.mp units
        have range : c.toNat < 0x110000 := by
          rcases c.valid with low | ⟨_, high⟩
          · exact Nat.lt_trans low (by decide)
          · exact high
        rw [Utf16.ofNat_toNat (by omega)] at first
        omega
    rw [ascii_units narrow] at decoded
    exact decoded

/-- The Rust codec gives every sequence of bytes back, takes the texts of the pattern and
no others, and both drivers make the same bytes of the same texts, the TypeScript driver of
those that its runtime has room to test. -/
theorem base64_agree (rt : TypeScript.Runtime) :
    (∀ data, Rust.Codec.Base64.decode (Rust.Codec.Base64.encode data) = .ok data) ∧
      (∀ s : String, Succeeds (Rust.Codec.Base64.decode s) ↔ Utf16.encode s.toList ∈ base64Re) ∧
      (∀ s : TypeScript.JsString, Succeeds (TypeScript.decodeBase64Strict rt s) ↔
        s ∈ base64Re ∧ TypeScript.base64Groups s ≤ rt.regExpGroups) ∧
      ∀ (s : TypeScript.JsString) (data : List UInt8), TypeScript.decodeBase64Strict rt s = .ok data ↔
        (∃ t : String, s = Utf16.encode t.toList ∧ Rust.Codec.Base64.decode t = .ok data) ∧
          TypeScript.base64Groups s ≤ rt.regExpGroups := by
  refine ⟨Rust.Codec.Base64.decode_encode, fun s => ?_, fun s => ?_, fun s data => ?_⟩
  · rw [base64Re_decodes]
    exact exists_congr fun data => (rust_decodes s data).trans (bytes_decode_units s data)
  · rw [base64Re_decodes, ← exists_and_right]
    exact exists_congr fun data => typeScript_decodes rt s data
  · rw [typeScript_decodes]
    refine and_congr_left fun _ => ⟨fun units => ?_, ?_⟩
    · -- The units are ASCII, so they are those of a string.
      have whole : Utf16.Whole s := Utf16.whole_ascii fun u inside =>
        ascii_of_decodes units u.toNat (List.mem_map_of_mem inside)
      obtain ⟨cs, rfl⟩ := whole
      refine ⟨String.ofList cs, by rw [String.toList_ofList], ?_⟩
      rw [rust_decodes, bytes_decode_units, String.toList_ofList]
      exact units
    · rintro ⟨t, rfl, decoded⟩
      rw [← bytes_decode_units, ← rust_decodes]
      exact decoded

end SanDbOxFormal.Protocol
