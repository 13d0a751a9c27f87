import Mathlib

/-!
# UTF-8 over lists of bytes

Strings are Lean's own sequences of Unicode scalar values.  Their encoding is
the core library's; this module restates it over lists and records what a
scanner that walks the bytes can tell from the lead byte of a character.
-/

namespace SanDbOxFormal.Library.Utf8

def encode (cs : List Char) : List UInt8 := cs.flatMap String.utf8EncodeChar

/-- The bytes of a string. -/
def bytes (s : String) : List UInt8 := s.toByteArray.data.toList

/-- The string that the bytes encode, when they are well-formed UTF-8. -/
def decode? (bs : List UInt8) : Option String := String.fromUTF8? bs.toByteArray

/-- The character that the bytes start with, when they start with one. -/
def firstChar? (bs : List UInt8) : Option Char := bs.toByteArray.utf8DecodeChar? 0

def isContinuation (b : UInt8) : Bool := 0x80 ≤ b && b < 0xC0

/-- How many bytes make up the malformed sequence that the bytes start with, or
`none` when they end inside a character. -/
def errorLength? : List UInt8 → Option Nat
  | [] => none
  | lead :: rest =>
      let width := if 0xC2 ≤ lead && lead ≤ 0xDF then 2 else if 0xE0 ≤ lead && lead ≤ 0xEF then 3
        else if 0xF0 ≤ lead && lead ≤ 0xF4 then 4 else 0
      let low := if lead = 0xE0 then 0xA0 else if lead = 0xF0 then 0x90 else 0x80
      let high := if lead = 0xED then 0x9F else if lead = 0xF4 then 0x8F else 0xBF
      if width = 0 then some 1
      else
        match rest with
        | [] => none
        | second :: rest =>
            if second < low || high < second then some 1
            else
              match rest with
              | [] => none
              | third :: rest =>
                  if !isContinuation third then some 2
                  else
                    match rest with
                    | [] => none
                    | _ :: _ => some 3

/-- The length of the longest prefix that is a whole number of characters. -/
def validUpTo : Nat → List UInt8 → Nat
  | 0, _ => 0
  | fuel + 1, bs =>
      match firstChar? bs with
      | none => 0
      | some c => c.utf8Size + validUpTo fuel (bs.drop c.utf8Size)

/-- The description of malformed UTF-8: where it is and how long it is. -/
def errorText (bs : List UInt8) : String :=
  let start := validUpTo bs.length bs
  match errorLength? (bs.drop start) with
  | some length =>
      "invalid utf-8 sequence of " ++ toString length ++ " bytes from index " ++ toString start
  | none => "incomplete utf-8 byte sequence from index " ++ toString start

@[simp] theorem encode_nil : encode [] = [] := rfl

@[simp] theorem encode_cons (c : Char) (cs : List Char) :
    encode (c :: cs) = String.utf8EncodeChar c ++ encode cs := by
  simp [encode]

@[simp] theorem encode_append (first second : List Char) :
    encode (first ++ second) = encode first ++ encode second := by
  simp [encode]

@[simp] theorem bytes_ofList (cs : List Char) : bytes (String.ofList cs) = encode cs := by
  simp [bytes, encode, List.utf8Encode]

theorem bytes_eq_encode (s : String) : bytes s = encode s.toList := by
  rw [← bytes_ofList, String.ofList_toList]

@[simp] theorem bytes_append (s t : String) : bytes (s ++ t) = bytes s ++ bytes t := by
  simp [bytes_eq_encode]

theorem bytes_injective {s t : String} (same : bytes s = bytes t) : s = t := by
  rw [← String.toByteArray_inj]
  exact ByteArray.ext (Array.toList_inj.mp same)

theorem encode_injective {cs ds : List Char} (same : encode cs = encode ds) : cs = ds := by
  rw [← bytes_ofList, ← bytes_ofList] at same
  exact String.ofList_inj.mp (bytes_injective same)

theorem decode?_eq_some_iff (bs : List UInt8) (s : String) :
    decode? bs = some s ↔ bs = bytes s := by
  unfold decode? String.fromUTF8? bytes
  constructor
  · intro found
    split at found
    · have same := Option.some.inj found
      rw [← same]
      simp [String.fromUTF8]
    · cases found
  · intro same
    subst same
    have valid : (s.toByteArray.data.toList).toByteArray = s.toByteArray :=
      ByteArray.ext (by simp)
    rw [valid, dif_pos s.isValidUTF8]
    rfl

/-- What the lead byte of a character says about it. -/
theorem utf8EncodeChar_lead (c : Char) :
    ∃ lead more, String.utf8EncodeChar c = lead :: more ∧
      (c.toNat < 0x80 → lead.toNat = c.toNat ∧ more = []) ∧
      (0x80 ≤ c.toNat → 0xC0 ≤ lead.toNat) := by
  have range : c.toNat < 0x110000 := by
    rcases c.valid with low | ⟨_, high⟩
    · exact Nat.lt_trans low (by decide)
    · exact high
  unfold String.utf8EncodeChar
  simp only [Char.toNat_val]
  split
  · refine ⟨_, _, rfl, fun _ => ⟨?_, rfl⟩, fun wide => by omega⟩
    rw [UInt8.toNat_ofNat']
    omega
  · split
    · refine ⟨_, _, rfl, fun narrow => by omega, fun _ => ?_⟩
      rw [UInt8.toNat_ofNat']
      omega
    · split
      · refine ⟨_, _, rfl, fun narrow => by omega, fun _ => ?_⟩
        rw [UInt8.toNat_ofNat']
        omega
      · refine ⟨_, _, rfl, fun narrow => by omega, fun _ => ?_⟩
        rw [UInt8.toNat_ofNat']
        omega

theorem utf8EncodeChar_ascii {c : Char} (narrow : c.toNat < 0x80) :
    String.utf8EncodeChar c = [UInt8.ofNat c.toNat] := by
  obtain ⟨lead, more, shape, low, _⟩ := utf8EncodeChar_lead c
  obtain ⟨value, empty⟩ := low narrow
  rw [shape, empty, ← value, UInt8.ofNat_toNat]

theorem encode_ascii {cs : List Char} (narrow : ∀ c ∈ cs, c.toNat < 0x80) :
    encode cs = cs.map (fun c => UInt8.ofNat c.toNat) := by
  induction cs with
  | nil => rfl
  | cons c rest ih =>
      rw [encode_cons, utf8EncodeChar_ascii (narrow c List.mem_cons_self),
        ih (fun d inside => narrow d (List.mem_cons_of_mem _ inside))]
      rfl

theorem length_le_encode (cs : List Char) : cs.length ≤ (encode cs).length := by
  induction cs with
  | nil => exact Nat.le_refl 0
  | cons c rest ih =>
      have positive := c.utf8Size_pos
      rw [encode_cons, List.length_append, String.length_utf8EncodeChar, List.length_cons]
      omega

theorem firstChar?_encode (c : Char) (bs : List UInt8) :
    firstChar? (String.utf8EncodeChar c ++ bs) = some c := by
  rw [firstChar?, List.toByteArray_append]
  exact ByteArray.utf8DecodeChar?_utf8EncodeChar_append

/-- Characters come off the front of an encoding one by one. -/
theorem encode_prefix_iff (cs ds : List Char) : encode cs <+: encode ds ↔ cs <+: ds := by
  constructor
  · intro shorter
    induction cs generalizing ds with
    | nil => exact List.nil_prefix
    | cons c cs ih =>
        obtain ⟨more, whole⟩ := shorter
        rw [encode_cons, List.append_assoc] at whole
        cases ds with
        | nil =>
            have positive := c.utf8Size_pos
            have size := congrArg List.length whole
            rw [List.length_append, String.length_utf8EncodeChar, encode_nil, List.length_nil] at size
            omega
        | cons d ds =>
            have first := congrArg firstChar? whole
            rw [encode_cons, firstChar?_encode, firstChar?_encode] at first
            cases first
            rw [encode_cons, List.append_cancel_left_eq] at whole
            exact List.cons_prefix_cons.mpr ⟨rfl, ih ds ⟨more, whole⟩⟩
  · rintro ⟨more, rfl⟩
    rw [encode_append]
    exact List.prefix_append _ _

theorem utf8EncodeChar_wide {c : Char} (wide : 0x80 ≤ c.toNat) :
    ∀ b ∈ String.utf8EncodeChar c, 0x80 ≤ b.toNat := by
  intro b inside
  unfold String.utf8EncodeChar at inside
  simp only [Char.toNat_val] at inside
  split at inside
  · omega
  · split at inside
    · simp only [List.mem_cons, List.not_mem_nil, or_false] at inside
      rcases inside with rfl | rfl <;> rw [UInt8.toNat_ofNat'] <;> omega
    · split at inside
      · simp only [List.mem_cons, List.not_mem_nil, or_false] at inside
        rcases inside with rfl | rfl | rfl <;> rw [UInt8.toNat_ofNat'] <;> omega
      · simp only [List.mem_cons, List.not_mem_nil, or_false] at inside
        rcases inside with rfl | rfl | rfl | rfl <;> rw [UInt8.toNat_ofNat'] <;> omega

/-- An ASCII character stands for itself wherever its byte occurs in an encoding. -/
theorem mem_encode_ascii {c : Char} (narrow : c.toNat < 0x80) (cs : List Char) :
    UInt8.ofNat c.toNat ∈ encode cs ↔ c ∈ cs := by
  have value : (UInt8.ofNat c.toNat).toNat = c.toNat := by
    rw [UInt8.toNat_ofNat']
    omega
  induction cs with
  | nil => simp
  | cons d rest ih =>
      simp only [encode_cons, List.mem_append, List.mem_cons, ih]
      refine or_congr_left ?_
      by_cases other : d.toNat < 0x80
      · rw [utf8EncodeChar_ascii other, List.mem_singleton, ← UInt8.toNat_inj, value,
          UInt8.toNat_ofNat', ← Char.toNat_inj]
        omega
      · constructor
        · intro inside
          have := utf8EncodeChar_wide (by omega) _ inside
          omega
        · rintro rfl
          omega

end SanDbOxFormal.Library.Utf8
