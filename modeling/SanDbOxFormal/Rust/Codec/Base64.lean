import SanDbOxFormal.Rust.Codec.Json

/-!
# Base64

The encoder and the strict decoder of `codec/base64.rs`: the standard alphabet,
padded, no line breaks.  Three bytes make one group of four characters; only the
last group may be padded.
-/

namespace SanDbOxFormal.Rust.Codec.Base64

open SanDbOxFormal.Library

/-- `ALPHABET`. -/
def alphabet : List Char :=
  "ABCDEFGHIJKLMNOPQRSTUVWXYZabcdefghijklmnopqrstuvwxyz0123456789+/".toList

/-- `ALPHABET[(n & 0x3F) as usize] as char`. -/
def letter (n : Nat) : Char := alphabet.getD (n &&& 0x3F) '='

/-- `Base64Error(String)`. -/
structure Base64Error where
  text : String
  deriving DecidableEq, Repr

/-- One turn of the loop of `encode`, over a chunk of one to three bytes. -/
def encodeChunk (b0 : UInt8) (b1 b2 : Option UInt8) : List Char :=
  let n := (b0.toNat <<< 16) ||| ((b1.getD 0).toNat <<< 8) ||| (b2.getD 0).toNat
  [letter (n >>> 18), letter (n >>> 12),
    match b1 with
    | some _ => letter (n >>> 6)
    | none => '=',
    match b2 with
    | some _ => letter n
    | none => '=']

/-- The loop over `data.chunks(3)`. -/
def encodeChunks : List UInt8 → List Char
  | [] => []
  | [b0] => encodeChunk b0 none none
  | [b0, b1] => encodeChunk b0 (some b1) none
  | b0 :: b1 :: b2 :: rest => encodeChunk b0 (some b1) (some b2) ++ encodeChunks rest

def encode (data : List UInt8) : String := String.ofList (encodeChunks data)

def decodeChar (c : UInt8) : Except Base64Error UInt8 :=
  if 0x41 ≤ c ∧ c ≤ 0x5A then .ok (c - 0x41)
  else if 0x61 ≤ c ∧ c ≤ 0x7A then .ok (c - 0x61 + 26)
  else if 0x30 ≤ c ∧ c ≤ 0x39 then .ok (c - 0x30 + 52)
  else if c = 0x2B then .ok 62
  else if c = 0x2F then .ok 63
  else .error ⟨"invalid base64 character: " ++ Json.Parser.debugChar c.toNat⟩

/-- The loop over the characters of one group: `j` is the next index, `vals` and
`pad` are as in the source. -/
def decodeGroupLoop (isLast : Bool) : Nat → List UInt8 → List UInt8 → Nat →
    Except Base64Error (List UInt8 × Nat)
  | _, [], vals, pad => .ok (vals, pad)
  | j, c :: rest, vals, pad =>
      if c = 0x3D then
        if !isLast then .error ⟨"'=' padding is only allowed in the final block"⟩
        else if j < 2 then .error ⟨"'=' padding cannot start this early in a block"⟩
        else decodeGroupLoop isLast (j + 1) rest vals (pad + 1)
      else if pad > 0 then .error ⟨"data character found after '=' padding"⟩
      else do
        let val ← decodeChar c
        decodeGroupLoop isLast (j + 1) rest (vals.set j val) pad

/-- The bytes that the four values of a group spell, less the padded ones. -/
def groupBytes (vals : List UInt8) (pad : Nat) : List UInt8 :=
  let val (i : Nat) : Nat := (vals.getD i 0).toNat
  let n := (val 0 <<< 18) ||| (val 1 <<< 12) ||| (val 2 <<< 6) ||| val 3
  [UInt8.ofNat (n >>> 16)] ++ (if pad < 2 then [UInt8.ofNat (n >>> 8)] else []) ++
    (if pad < 1 then [UInt8.ofNat n] else [])

def decodeGroup (isLast : Bool) (group : List UInt8) : Except Base64Error (List UInt8) := do
  let (vals, pad) ← decodeGroupLoop isLast 0 group [0, 0, 0, 0] 0
  .ok (groupBytes vals pad)

/-- The loop over `b.chunks(4)`, for a length that is a multiple of four. -/
def decodeGroups : List UInt8 → Except Base64Error (List UInt8)
  | c0 :: c1 :: c2 :: c3 :: rest => do
      let group ← decodeGroup rest.isEmpty [c0, c1, c2, c3]
      let more ← decodeGroups rest
      .ok (group ++ more)
  | _ => .ok []

def decode (s : String) : Except Base64Error (List UInt8) :=
  let b := Utf8.bytes s
  if b.length % 4 ≠ 0 then
    .error ⟨"base64 length " ++ toString b.length ++ " is not a multiple of 4"⟩
  else decodeGroups b

/-! ## The decoder inverts the encoder -/

theorem letter_eq (n : Nat) : letter n = alphabet.getD (n % 64) '=' := by
  have mask : n &&& 0x3F = n % 64 := Nat.and_two_pow_sub_one_eq_mod n 6
  rw [letter, mask]

/-- Each letter is an ASCII character whose byte decodes to its index. -/
theorem letter_code (n : Nat) :
    (letter n).toNat < 0x80 ∧ UInt8.ofNat (letter n).toNat ≠ 0x3D ∧
      decodeChar (UInt8.ofNat (letter n).toNat) = .ok (UInt8.ofNat (n % 64)) := by
  have table : ∀ k < 64, (alphabet.getD k '=').toNat < 0x80 ∧
      UInt8.ofNat (alphabet.getD k '=').toNat ≠ 0x3D ∧
      decodeChar (UInt8.ofNat (alphabet.getD k '=').toNat) = .ok (UInt8.ofNat k) := by
    decide +kernel
  rw [letter_eq]
  exact table (n % 64) (Nat.mod_lt _ (by decide))

/-- The byte of a letter, as the decoder sees it. -/
def code (c : Char) : UInt8 := UInt8.ofNat c.toNat

theorem decodeGroupLoop_letter (isLast : Bool) (j n : Nat) (rest vals : List UInt8) :
    decodeGroupLoop isLast j (code (letter n) :: rest) vals 0 =
      decodeGroupLoop isLast (j + 1) rest (vals.set j (UInt8.ofNat (n % 64))) 0 := by
  obtain ⟨_, notPad, decoded⟩ := letter_code n
  rw [decodeGroupLoop, code, if_neg notPad, if_neg (Nat.lt_irrefl 0), decoded]
  rfl

theorem decodeGroupLoop_pad (j pad : Nat) (late : 2 ≤ j) (rest vals : List UInt8) :
    decodeGroupLoop true j (code '=' :: rest) vals pad =
      decodeGroupLoop true (j + 1) rest vals (pad + 1) := by
  have isPad : code '=' = 0x3D := by decide
  rw [decodeGroupLoop, if_pos isPad, if_neg (by decide), if_neg (Nat.not_lt_of_le late)]

/-- The bytes of a chunk side by side. -/
theorem chunk_eq {a b c : Nat} (hb : b < 256) (hc : c < 256) :
    (a <<< 16) ||| (b <<< 8) ||| c = a * 65536 + b * 256 + c := by
  have inner : (a <<< 16) ||| (b <<< 8) = (a * 256 + b) <<< 8 := by
    rw [← Nat.shiftLeft_add_eq_or_of_lt (by rw [Nat.shiftLeft_eq]; omega), Nat.shiftLeft_eq,
      Nat.shiftLeft_eq, Nat.shiftLeft_eq]
    omega
  rw [inner, ← Nat.shiftLeft_add_eq_or_of_lt (by omega), Nat.shiftLeft_eq]
  omega

/-- The values of a group side by side. -/
theorem values_eq {a b c d : Nat} (hb : b < 64) (hc : c < 64) (hd : d < 64) :
    (a <<< 18) ||| (b <<< 12) ||| (c <<< 6) ||| d = a * 262144 + b * 4096 + c * 64 + d := by
  have first : (a <<< 18) ||| (b <<< 12) = (a * 64 + b) <<< 12 := by
    rw [← Nat.shiftLeft_add_eq_or_of_lt (by rw [Nat.shiftLeft_eq]; omega), Nat.shiftLeft_eq,
      Nat.shiftLeft_eq, Nat.shiftLeft_eq]
    omega
  have second : ((a * 64 + b) <<< 12) ||| (c <<< 6) = ((a * 64 + b) * 64 + c) <<< 6 := by
    rw [← Nat.shiftLeft_add_eq_or_of_lt (by rw [Nat.shiftLeft_eq]; omega), Nat.shiftLeft_eq,
      Nat.shiftLeft_eq, Nat.shiftLeft_eq]
    omega
  rw [first, second, ← Nat.shiftLeft_add_eq_or_of_lt (by omega), Nat.shiftLeft_eq]
  omega

/-- Four sextets of a chunk give its three bytes back. -/
theorem groupBytes_sextets {n : Nat} (small : n < 16777216) (pad : Nat) :
    groupBytes [UInt8.ofNat (n / 262144 % 64), UInt8.ofNat (n / 4096 % 64),
        UInt8.ofNat (n / 64 % 64), UInt8.ofNat (n % 64)] pad =
      [UInt8.ofNat (n / 65536)] ++ (if pad < 2 then [UInt8.ofNat (n / 256)] else []) ++
        (if pad < 1 then [UInt8.ofNat n] else []) := by
  have value (k : Nat) : (UInt8.ofNat (k % 64)).toNat = k % 64 := by
    rw [UInt8.toNat_ofNat']
    omega
  have whole : n / 262144 % 64 * 262144 + n / 4096 % 64 * 4096 + n / 64 % 64 * 64 + n % 64 = n := by
    omega
  simp only [groupBytes, List.getD_cons_zero, List.getD_cons_succ, value]
  rw [values_eq (Nat.mod_lt _ (by decide)) (Nat.mod_lt _ (by decide)) (Nat.mod_lt _ (by decide)),
    whole, Nat.shiftRight_eq_div_pow, Nat.shiftRight_eq_div_pow]

theorem byte_eq {k : Nat} {b : UInt8} (value : k % 256 = b.toNat) : UInt8.ofNat k = b := by
  rw [← UInt8.toNat_inj, UInt8.toNat_ofNat']
  exact value

theorem decodeGroup_three (isLast : Bool) (b0 b1 b2 : UInt8) :
    decodeGroup isLast ((encodeChunk b0 (some b1) (some b2)).map code) = .ok [b0, b1, b2] := by
  have h0 := b0.toNat_lt
  have h1 := b1.toNat_lt
  have h2 := b2.toNat_lt
  simp only [encodeChunk, Option.getD_some]
  rw [chunk_eq h1 h2]
  simp only [List.map_cons, List.map_nil, decodeGroup, decodeGroupLoop_letter,
    Nat.shiftRight_eq_div_pow]
  have bytes := groupBytes_sextets (n := b0.toNat * 65536 + b1.toNat * 256 + b2.toNat) (by omega) 0
  refine (congrArg Except.ok bytes).trans ?_
  rw [byte_eq (b := b0) (by omega), byte_eq (b := b1) (by omega), byte_eq (b := b2) (by omega)]
  rfl

theorem decodeGroup_two (b0 b1 : UInt8) :
    decodeGroup true ((encodeChunk b0 (some b1) none).map code) = .ok [b0, b1] := by
  have h0 := b0.toNat_lt
  have h1 := b1.toNat_lt
  simp only [encodeChunk, Option.getD_some, Option.getD_none]
  rw [chunk_eq h1 (by decide)]
  simp only [List.map_cons, List.map_nil, decodeGroup, decodeGroupLoop_letter,
    Nat.shiftRight_eq_div_pow]
  rw [decodeGroupLoop_pad _ _ (by decide)]
  have last : (0 : UInt8) =
      UInt8.ofNat ((b0.toNat * 65536 + b1.toNat * 256 + (0 : UInt8).toNat) % 64) := by
    rw [← UInt8.toNat_inj, UInt8.toNat_ofNat']
    simp only [UInt8.toNat_zero]
    omega
  have bytes := groupBytes_sextets
    (n := b0.toNat * 65536 + b1.toNat * 256 + (0 : UInt8).toNat) (by
      simp only [UInt8.toNat_zero]
      omega) 1
  rw [← last] at bytes
  refine (congrArg Except.ok bytes).trans ?_
  simp only [UInt8.toNat_zero]
  rw [byte_eq (b := b0) (by omega), byte_eq (b := b1) (by omega)]
  rfl

theorem decodeGroup_one (b0 : UInt8) :
    decodeGroup true ((encodeChunk b0 none none).map code) = .ok [b0] := by
  have h0 := b0.toNat_lt
  simp only [encodeChunk, Option.getD_none]
  rw [chunk_eq (by decide) (by decide)]
  simp only [List.map_cons, List.map_nil, decodeGroup, decodeGroupLoop_letter,
    Nat.shiftRight_eq_div_pow]
  rw [decodeGroupLoop_pad _ _ (by decide), decodeGroupLoop_pad _ _ (by decide)]
  have third : (0 : UInt8) = UInt8.ofNat
      ((b0.toNat * 65536 + (0 : UInt8).toNat * 256 + (0 : UInt8).toNat) / 64 % 64) := by
    rw [← UInt8.toNat_inj, UInt8.toNat_ofNat']
    simp only [UInt8.toNat_zero]
    omega
  have last : (0 : UInt8) = UInt8.ofNat
      ((b0.toNat * 65536 + (0 : UInt8).toNat * 256 + (0 : UInt8).toNat) % 64) := by
    rw [← UInt8.toNat_inj, UInt8.toNat_ofNat']
    simp only [UInt8.toNat_zero]
    omega
  have bytes := groupBytes_sextets
    (n := b0.toNat * 65536 + (0 : UInt8).toNat * 256 + (0 : UInt8).toNat) (by
      simp only [UInt8.toNat_zero]
      omega) 2
  rw [← third, ← last] at bytes
  refine (congrArg Except.ok bytes).trans ?_
  simp only [UInt8.toNat_zero]
  rw [byte_eq (b := b0) (by omega)]
  rfl

theorem decodeGroups_cons (c0 c1 c2 c3 : UInt8) (rest : List UInt8) :
    decodeGroups (c0 :: c1 :: c2 :: c3 :: rest) = (do
      let group ← decodeGroup rest.isEmpty [c0, c1, c2, c3]
      let more ← decodeGroups rest
      .ok (group ++ more)) := by
  rw [decodeGroups]

theorem decodeGroups_encodeChunks (data : List UInt8) :
    decodeGroups ((encodeChunks data).map code) = .ok data := by
  induction data using encodeChunks.induct with
  | case1 => rfl
  | case2 b0 =>
      have group := decodeGroup_one b0
      simp only [encodeChunk, List.map_cons, List.map_nil] at group
      simp only [encodeChunks, encodeChunk, List.map_cons, List.map_nil]
      rw [decodeGroups_cons, List.isEmpty_nil, group]
      rfl
  | case3 b0 b1 =>
      have group := decodeGroup_two b0 b1
      simp only [encodeChunk, List.map_cons, List.map_nil] at group
      simp only [encodeChunks, encodeChunk, List.map_cons, List.map_nil]
      rw [decodeGroups_cons, List.isEmpty_nil, group]
      rfl
  | case4 b0 b1 b2 rest ih =>
      have group := decodeGroup_three ((encodeChunks rest).map code).isEmpty b0 b1 b2
      simp only [encodeChunk, List.map_cons, List.map_nil] at group
      simp only [encodeChunks, encodeChunk, List.map_cons, List.cons_append, List.nil_append]
      rw [decodeGroups_cons, group]
      change (decodeGroups ((encodeChunks rest).map code) >>= _) = _
      rw [ih]
      rfl

theorem encodeChunk_shape (b0 : UInt8) (b1 b2 : Option UInt8) :
    (encodeChunk b0 b1 b2).length = 4 ∧ ∀ c ∈ encodeChunk b0 b1 b2, c.toNat < 0x80 := by
  refine ⟨rfl, ?_⟩
  have ascii (n : Nat) : (letter n).toNat < 0x80 := (letter_code n).1
  intro c inside
  simp only [encodeChunk, List.mem_cons, List.not_mem_nil, or_false] at inside
  rcases inside with rfl | rfl | rfl | rfl
  · exact ascii _
  · exact ascii _
  · split
    · exact ascii _
    · decide
  · split
    · exact ascii _
    · decide

theorem encodeChunks_shape (data : List UInt8) :
    (encodeChunks data).length % 4 = 0 ∧ ∀ c ∈ encodeChunks data, c.toNat < 0x80 := by
  induction data using encodeChunks.induct with
  | case1 => exact ⟨rfl, fun c inside => by cases inside⟩
  | case2 b0 =>
      rw [encodeChunks]
      obtain ⟨size, ascii⟩ := encodeChunk_shape b0 none none
      exact ⟨by rw [size], ascii⟩
  | case3 b0 b1 =>
      rw [encodeChunks]
      obtain ⟨size, ascii⟩ := encodeChunk_shape b0 (some b1) none
      exact ⟨by rw [size], ascii⟩
  | case4 b0 b1 b2 rest ih =>
      obtain ⟨size, ascii⟩ := encodeChunk_shape b0 (some b1) (some b2)
      rw [encodeChunks]
      refine ⟨?_, List.forall_mem_append.mpr ⟨ascii, ih.2⟩⟩
      rw [List.length_append, size]
      omega

theorem decode_encode (data : List UInt8) : decode (encode data) = .ok data := by
  obtain ⟨size, ascii⟩ := encodeChunks_shape data
  have bytes : Utf8.bytes (encode data) = (encodeChunks data).map code := by
    rw [encode, Utf8.bytes_ofList]
    exact Utf8.encode_ascii ascii
  unfold decode
  rw [bytes]
  dsimp only
  rw [List.length_map, if_neg (not_not.mpr size)]
  exact decodeGroups_encodeChunks data

end SanDbOxFormal.Rust.Codec.Base64
