import SanDbOxFormal.Go.Value
import SanDbOxFormal.Rust.Codec.ValueRoundTrip

/-!
# Values of the Go driver on the wire

What `EncodeValue` writes, `DecodeValue` reads back as a value of the same SQL type
and content, except for a string that is not UTF-8.
-/

namespace SanDbOxFormal.Go

open SanDbOxFormal.Library
open SanDbOxFormal.Library.JsonReader (Piece Pieces Spelled points strictPoints)

/-- A value as SQL sees it. -/
inductive SqlValue where
  | null
  | integer (n : Int64)
  | real (f : Float64)
  | text (s : GoString)
  | blob (b : List UInt8)
  deriving DecidableEq

/-- `int` and `int64` are one SQL type, and a nil `[]byte` is an empty BLOB. -/
def Any.sql? : Any → Option SqlValue
  | .nil => some .null
  | .int n | .int64 n => some (.integer n)
  | .float64 f => some (.real f)
  | .string s => some (.text s)
  | .bytes b => some (.blob (b.getD []))
  | .other _ => none

/-- `DecodeValue` of the text of a value. -/
def decodeRaw (std : Strconv) (text : List Char) : Except GoError Any :=
  parse (Utf8.encode text) >>= decodeValue std

/-- The value is refused, or its text decodes to what it is for SQL. -/
def ReadsBack (std : Strconv) (v : Any) : Prop :=
  (∃ e, encodeValue std v = .error e) ∨
    ∃ text w sql, encodeValue std v = .ok text ∧ decodeRaw std text = .ok w ∧
      v.sql? = some sql ∧ w.sql? = some sql

/-! ## Strings -/

theorem hexValue?_hexDigit {n : Nat} (small : n < 16) :
    JsonReader.hexValue? (hexDigit n).toNat = some n := by
  revert n
  decide

/-- The four digits of a unit give it back. -/
theorem hex4?_digits {n : Nat} (small : n < 0x10000) :
    JsonReader.hex4? (hexDigit (n / 0x1000 % 0x10)).toNat (hexDigit (n / 0x100 % 0x10)).toNat
      (hexDigit (n / 0x10 % 0x10)).toNat (hexDigit (n % 0x10)).toNat = some n := by
  have value : ((n / 0x1000 % 0x10 * 16 + n / 0x100 % 0x10) * 16 + n / 0x10 % 0x10) * 16 +
      n % 0x10 = n := by omega
  rw [JsonReader.hex4?, hexValue?_hexDigit (Nat.mod_lt _ (by decide)),
    hexValue?_hexDigit (Nat.mod_lt _ (by decide)), hexValue?_hexDigit (Nat.mod_lt _ (by decide)),
    hexValue?_hexDigit (Nat.mod_lt _ (by decide))]
  exact congrArg some value

theorem unicodeEscape_piece {n : Nat} (small : n < 0x10000) (apart : n < 0xD800 ∨ 0xDFFF < n) :
    Piece strictPoints (points (unicodeEscape n)) n :=
  .unicode (hex4?_digits small) fun _ high => by omega

/-- What is written for a rune spells the rune, or U+FFFD for a byte that starts none. -/
theorem marshalRune_piece (r : Option Char) :
    Piece strictPoints (points (marshalRune r)) (r.getD runeError).toNat := by
  cases r with
  | none => exact unicodeEscape_piece (by decide) (by decide)
  | some c =>
      unfold marshalRune
      dsimp only
      split_ifs with quote b f n r t escaped
      · rcases quote with rfl | rfl <;> exact .escape rfl
      · subst b
        exact .escape rfl
      · subst f
        exact .escape rfl
      · subst n
        exact .escape rfl
      · subst r
        exact .escape rfl
      · subst t
        exact .escape rfl
      · have small : c.toNat < 0xD800 ∨ 0xDFFF < c.toNat ∧ c.toNat < 0x10000 := by
          rcases escaped with control | rfl | rfl | rfl | rfl | rfl
          · omega
          all_goals decide
        exact unicodeEscape_piece (by omega) (by omega)
      · rw [not_or] at quote escaped
        refine .plain (fun same => quote.1 (Char.toNat_inj.mp same))
          (fun same => quote.2 (Char.toNat_inj.mp same)) ?_
        have visible := escaped.1
        change 0x20 ≤ c.toNat
        omega

theorem marshalRunes_pieces (rs : List (Option Char)) :
    Pieces strictPoints (points (rs.flatMap marshalRune))
      (points (rs.map fun r => r.getD runeError)) := by
  induction rs with
  | nil => exact .nil
  | cons r rest ih =>
      have split : points ((r :: rest).flatMap marshalRune) =
          points (marshalRune r) ++ points (rest.flatMap marshalRune) := List.map_append
      rw [split]
      exact .cons (marshalRune_piece r) ih

theorem marshalString_spelled (s : GoString) (n : Nat) :
    Spelled strictPoints n (.value (.string (codePoints s))) (points (marshalString s)) := by
  have shape : points (marshalString s) =
      0x22 :: (points ((runes s).flatMap marshalRune) ++ [0x22]) := by
    rw [marshalString, JsonReader.points, List.map_cons, List.map_append]
    rfl
  rw [shape]
  exact .string (marshalRunes_pieces (runes s))

/-- A text that spells a value is read as the value. -/
theorem parse_spelled {text : List Char} {t : JsonReader.Tree}
    (spelled : Spelled strictPoints maxNestingDepth (.value t) (points text)) :
    parse (Utf8.encode text) = .ok t := by
  have noSpace : JsonReader.Ws [] := fun _ inside => absurd inside List.not_mem_nil
  have read := spelled.read (JsonReader.standard_of_plain rfl) noSpace noSpace
  rw [List.nil_append, List.append_nil] at read
  rw [parse, codePoints_encode, read]

/-- The string that a list of characters denotes. -/
theorem text_points (cs : List Char) : text (points cs) = Utf8.encode cs := by
  rw [text, points, List.map_map]
  congr 1
  refine (List.map_congr_left fun c _ => ?_).trans (List.map_id cs)
  have valid : c.toNat.isValidChar := c.valid
  exact dif_pos valid

/-- A string with U+FFFD for each byte that starts no character. -/
def cleaned (s : GoString) : GoString := Utf8.encode ((runes s).map fun r => r.getD runeError)

theorem text_codePoints (s : GoString) : text (codePoints s) = cleaned s := text_points _

theorem cleaned_encode (cs : List Char) : cleaned (Utf8.encode cs) = Utf8.encode cs := by
  rw [cleaned, runes_encode, List.map_map]
  exact congrArg Utf8.encode (List.map_id cs)

/-- Only a string that is UTF-8 stays as it is. -/
theorem cleaned_eq_iff (s : GoString) : cleaned s = s ↔ ∃ cs, s = Utf8.encode cs := by
  constructor
  · intro same
    exact ⟨_, same.symm⟩
  · rintro ⟨cs, rfl⟩
    exact cleaned_encode cs

theorem decodeRaw_string (std : Strconv) (s : GoString) :
    decodeRaw std (marshalString s) = .ok (.string (cleaned s)) := by
  rw [decodeRaw, parse_spelled (marshalString_spelled s _), ← text_codePoints]
  rfl

/-! ## BLOBs -/

/-- The text of a BLOB. -/
def base64Text (b : List UInt8) : List Char := (Base64.encode b).map Char.ofNat

theorem encodeToString_text (b : List UInt8) : encodeToString b = Utf8.encode (base64Text b) := by
  have value (u : Nat) (inside : u ∈ Base64.encode b) : (Char.ofNat u).toNat = u := by
    have plain := Base64.isUnit_plain (Base64.encode_units b u inside)
    exact (Char.toNat_ofNat u).trans (if_pos (.inl (by omega)))
  have narrow : ∀ c ∈ base64Text b, c.toNat < 0x80 := by
    intro c inside
    obtain ⟨u, among, rfl⟩ := List.mem_map.mp inside
    rw [value u among]
    exact (Base64.isUnit_plain (Base64.encode_units b u among)).2.1
  rw [Utf8.encode_ascii narrow, base64Text, List.map_map, encodeToString]
  refine List.map_congr_left fun u inside => ?_
  rw [Function.comp_apply, value u inside]

/-- No unit of Base64 is a line break, so all of them are decoded. -/
theorem decodeString_encodeToString (b : List UInt8) :
    decodeString (encodeToString b) = .ok b := by
  have value (u : Nat) (inside : u ∈ Base64.encode b) : (UInt8.ofNat u).toNat = u := by
    have plain := Base64.isUnit_plain (Base64.encode_units b u inside)
    exact Nat.mod_eq_of_lt (by omega)
  have kept : (encodeToString b).filter (fun u => !isLineBreak u) = encodeToString b := by
    refine List.filter_eq_self.mpr fun v inside => ?_
    obtain ⟨u, among, rfl⟩ := List.mem_map.mp inside
    have plain := Base64.isUnit_plain (Base64.encode_units b u among)
    have same := value u among
    have apart : isLineBreak (UInt8.ofNat u) = false := by
      rw [isLineBreak, Bool.or_eq_false_iff]
      constructor <;> refine decide_eq_false fun mark => ?_ <;> rw [mark] at same <;>
        change (_ : Nat) = u at same
      · change 0x0D = u at same
        omega
      · change 0x0A = u at same
        omega
    rw [apart]
    rfl
  have back : (encodeToString b).map UInt8.toNat = Base64.encode b := by
    rw [encodeToString, List.map_map]
    exact (List.map_congr_left value).trans (List.map_id _)
  rw [decodeString, kept, back, Base64.decode?_encode]

/-- The text of a BLOB is read as an array of one string. -/
theorem parse_blob (b : List UInt8) :
    parse (Utf8.encode ('[' :: (marshalString (encodeToString b) ++ [']']))) =
      .ok (.array [.string (codePoints (encodeToString b))]) := by
  have shape : points ('[' :: (marshalString (encodeToString b) ++ [']'])) =
      0x5B :: (([] ++ (points (marshalString (encodeToString b)) ++ [])) ++ [0x5D]) := by
    rw [List.nil_append, List.append_nil, JsonReader.points, List.map_cons, List.map_append]
    rfl
  refine parse_spelled ?_
  rw [shape]
  exact .array (.lastElement (fun _ inside => absurd inside List.not_mem_nil)
    (marshalString_spelled _ _) (fun _ inside => absurd inside List.not_mem_nil))

theorem decodeRaw_blob (std : Strconv) (b : List UInt8) :
    decodeRaw std ('[' :: (marshalString (encodeToString b) ++ [']'])) = .ok (.bytes (some b)) := by
  have item : text (codePoints (encodeToString b)) = encodeToString b := by
    rw [text_codePoints, cleaned_eq_iff]
    exact ⟨_, encodeToString_text b⟩
  have items : unmarshalStrings (.array [.string (codePoints (encodeToString b))]) =
      .ok [encodeToString b] := congrArg (fun s => Except.ok [s]) item
  have whole : decodeRaw std ('[' :: (marshalString (encodeToString b) ++ [']'])) =
      decodeBLOB (.array [.string (codePoints (encodeToString b))]) := by
    rw [decodeRaw, parse_blob]
    rfl
  rw [whole, decodeBLOB, items]
  change (do
    let bytes ← (decodeString (encodeToString b)).mapError _
    Except.ok (Any.bytes (some bytes))) = _
  rw [decodeString_encodeToString]
  rfl

/-! ## Numbers -/

theorem decodeRaw_number (std : Strconv) {token : List Char} (number : Rfc8259.Number token) :
    decodeRaw std token = decodeNumber std token := by
  have back : chars (points token) = token := JsonReader.chars_points token
  rw [decodeRaw, parse_spelled (.number number rfl)]
  change decodeNumber std (chars (points token)) = _
  rw [back]

theorem decodeRaw_integer (std : Strconv) (i : Int64) :
    decodeRaw std (formatInt i) = .ok (.int64 i) := by
  have number : Rfc8259.Number (formatInt i) := Decimal.toString_number i.toInt
  have whole : (formatInt i).any Decimal.isRealMark = false := Decimal.toString_not_real i.toInt
  rw [decodeRaw_number std number, decodeNumber, if_neg (Bool.eq_false_iff.mp whole),
    parseInt_formatInt]
  rfl

/-- The text of a REAL has a point or an exponent, and reads back to the same bits. -/
theorem formatReal_spec {std : Strconv} (laws : std.Lawful) {f : Float64}
    (finite : f.isFinite = true) :
    Rfc8259.Number (formatReal std f) ∧ (formatReal std f).any Decimal.isRealMark = true ∧
      std.parseFloat (formatReal std f) = (f, none) := by
  unfold formatReal
  dsimp only
  split
  · rename_i marked
    exact ⟨laws.numeral f finite, marked, laws.reads f finite⟩
  · rename_i unmarked
    rw [Bool.not_eq_true] at unmarked
    refine ⟨Decimal.number_suffix (laws.numeral f finite) unmarked, ?_,
      laws.readsSuffixed f finite unmarked⟩
    rw [List.any_append]
    exact Bool.or_true _

/-- What goes on the wire for a finite double is a numeral. -/
def Strconv.Tokens (std : Strconv) : Prop :=
  ∀ f : Float64, f.isFinite = true → Rfc8259.Number (formatReal std f)

theorem Strconv.Lawful.tokens {std : Strconv} (laws : std.Lawful) : std.Tokens :=
  fun _ finite => (formatReal_spec laws finite).1

theorem decodeRaw_real {std : Strconv} (laws : std.Lawful) {f : Float64}
    (finite : f.isFinite = true) : decodeRaw std (formatReal std f) = .ok (.float64 f) := by
  obtain ⟨number, real, parsed⟩ := formatReal_spec laws finite
  rw [decodeRaw_number std number, decodeNumber, if_pos real, parsed]

theorem isFinite_iff (f : Float64) : f.isFinite = true ↔ ¬ (f.isNaN || f.isInf) = true := by
  simp only [Float64.isFinite, Float64.isNaN, Float64.isInf, Bool.or_eq_true, decide_eq_true_eq]
  omega

/-! ## All values -/

/-- A value comes back as it was, unless it is a string that is not UTF-8. -/
theorem value_reads_back_iff (std : Strconv) (laws : std.Lawful) (v : Any) :
    ReadsBack std v ↔ ∀ s, v = .string s → ∃ cs, s = Utf8.encode cs := by
  cases v with
  | nil =>
      refine ⟨fun _ => nofun, fun _ => .inr ⟨_, .nil, .null, rfl, ?_, rfl, rfl⟩⟩
      rw [decodeRaw]
      have read : parse (Utf8.encode "null".toList) = .ok .null := parse_spelled .null
      rw [read]
      rfl
  | int n => exact ⟨fun _ => nofun, fun _ =>
      .inr ⟨_, .int64 n, .integer n, rfl, decodeRaw_integer std n, rfl, rfl⟩⟩
  | int64 n => exact ⟨fun _ => nofun, fun _ =>
      .inr ⟨_, .int64 n, .integer n, rfl, decodeRaw_integer std n, rfl, rfl⟩⟩
  | float64 f =>
      refine ⟨fun _ => nofun, fun _ => ?_⟩
      by_cases special : (f.isNaN || f.isInf) = true
      · exact .inl ⟨_, if_pos special⟩
      · have finite := (isFinite_iff f).mpr special
        exact .inr ⟨_, .float64 f, .real f, if_neg special, decodeRaw_real laws finite, rfl, rfl⟩
  | string s =>
      constructor
      · rintro (⟨_, refused⟩ | ⟨_, w, sql, written, read, same, back⟩) _ held
        · cases refused
        · cases held
          cases written
          rw [decodeRaw_string] at read
          cases read
          have kept : cleaned s = s := by
            have both := back.trans same.symm
            rwa [Any.sql?, Any.sql?, Option.some.injEq, SqlValue.text.injEq] at both
          exact (cleaned_eq_iff s).mp kept
      · intro valid
        have kept := (cleaned_eq_iff s).mpr (valid s rfl)
        have read := decodeRaw_string std s
        rw [kept] at read
        exact .inr ⟨_, .string s, .text s, rfl, read, rfl, rfl⟩
  | bytes b => exact ⟨fun _ => nofun, fun _ =>
      .inr ⟨_, .bytes (some (b.getD [])), .blob (b.getD []), rfl, decodeRaw_blob std _, rfl, rfl⟩⟩
  | other typeName => exact ⟨fun _ => nofun, fun _ => .inl ⟨_, rfl⟩⟩

/-! ## The laws have a model -/

/-- Prints `1.5`, `-0` and a NaN as `strconv` does, and any other `float64` as its bits
with an exponent. -/
def sampleStrconv : Strconv where
  formatFloat f :=
    if f.bits = 0x8000000000000000 then "-0".toList
    else (Rust.Codec.sampleFloatText.debug ⟨f.bits⟩).toList
  parseFloat s :=
    if s = "-0".toList then (⟨0x8000000000000000⟩, none)
    else
      match Rust.Codec.sampleFloatText.parse (String.ofList s) with
      | some f => (⟨f.bits⟩, none)
      | none => (⟨0⟩, some .numSyntax)
  quote s := lit "\"" ++ ascii s ++ lit "\""
  objectText _ := "\x7b\x7d".toList

theorem rust_isFinite {bits : UInt64} (finite : (Float64.mk bits).isFinite = true) :
    (Rust.F64.mk bits).isFinite = true := by
  refine bne_iff_ne.mpr fun full => ?_
  have low : bits.toNat % 2 ^ 63 < Float64.infinity := of_decide_eq_true finite
  have exponent : bits.toNat &&& Float64.infinity = Float64.infinity := congrArg UInt64.toNat full
  have masked : bits.toNat % 2 ^ 63 &&& Float64.infinity = bits.toNat &&& Float64.infinity := by
    have within : (2 ^ 63 - 1) &&& Float64.infinity = Float64.infinity := by decide
    rw [← Nat.and_two_pow_sub_one_eq_mod, Nat.and_assoc, within]
  have bound : bits.toNat % 2 ^ 63 &&& Float64.infinity ≤ bits.toNat % 2 ^ 63 := Nat.and_le_left
  omega

/-- What a finite `float64` prints as, case by case. -/
theorem sampleStrconv_spec {f : Float64} (finite : f.isFinite = true) :
    (f = ⟨0x8000000000000000⟩ ∧ sampleStrconv.formatFloat f = "-0".toList) ∨
      (Rfc8259.Number (sampleStrconv.formatFloat f) ∧
        (sampleStrconv.formatFloat f).any Decimal.isRealMark = true ∧
        sampleStrconv.parseFloat (sampleStrconv.formatFloat f) = (f, none)) := by
  obtain ⟨bits⟩ := f
  by_cases zero : bits = 0x8000000000000000
  · subst zero
    exact .inl ⟨rfl, rfl⟩
  · have printed : sampleStrconv.formatFloat ⟨bits⟩ =
        (Rust.Codec.sampleFloatText.debug ⟨bits⟩).toList := if_neg zero
    have floats : (Rust.F64.mk bits).isFinite = true := rust_isFinite finite
    obtain ⟨number, marked, parsed⟩ := Rust.Codec.sample_spec floats
    have notZero : (Rust.Codec.sampleFloatText.debug ⟨bits⟩).toList ≠ "-0".toList := by
      intro same
      rw [same] at marked
      exact absurd marked (by decide)
    rw [printed]
    refine .inr ⟨number, marked, ?_⟩
    simp only [sampleStrconv, if_neg notZero, String.ofList_toList, parsed]

theorem sampleStrconv_lawful : sampleStrconv.Lawful where
  numeral f finite := by
    rcases sampleStrconv_spec finite with ⟨_, printed⟩ | ⟨number, _⟩
    · rw [printed]
      exact .mk .minus .zero .absent .absent
    · exact number
  reads f finite := by
    rcases sampleStrconv_spec finite with ⟨rfl, _⟩ | ⟨_, _, parsed⟩
    · rfl
    · exact parsed
  readsSuffixed f finite unmarked := by
    rcases sampleStrconv_spec finite with ⟨rfl, _⟩ | ⟨_, marked, _⟩
    · decide +kernel
    · rw [marked] at unmarked
      cases unmarked

/-- Minus zero keeps its sign, and a nil `[]byte` is an empty BLOB. -/
theorem value_reads_back_sample :
    ReadsBack sampleStrconv (.float64 ⟨0x8000000000000000⟩) ∧
      ReadsBack sampleStrconv (.bytes none) :=
  ⟨(value_reads_back_iff sampleStrconv sampleStrconv_lawful _).mpr nofun,
    (value_reads_back_iff sampleStrconv sampleStrconv_lawful _).mpr nofun⟩

/-- A string of the one byte 0xFF is sent without an error, and comes back as U+FFFD. -/
theorem value_not_read_back : sampleStrconv.Lawful ∧ ¬ ReadsBack sampleStrconv (.string [0xFF]) ∧
    encodeValue sampleStrconv (.string [0xFF]) = .ok "\"\\ufffd\"".toList ∧
    decodeRaw sampleStrconv "\"\\ufffd\"".toList = .ok (.string [0xEF, 0xBF, 0xBD]) := by
  have written : encodeValue sampleStrconv (.string [0xFF]) = .ok "\"\\ufffd\"".toList := by
    decide +kernel
  have read : decodeRaw sampleStrconv "\"\\ufffd\"".toList = .ok (.string [0xEF, 0xBF, 0xBD]) := by
    decide +kernel
  refine ⟨sampleStrconv_lawful, ?_, written, read⟩
  rintro (⟨_, refused⟩ | ⟨_, w, sql, sent, back, same, kept⟩)
  · cases refused
  · cases written.symm.trans sent
    cases read.symm.trans back
    exact absurd (same.trans kept.symm) (by decide)

end SanDbOxFormal.Go
