import SanDbOxFormal.Rust.Codec.Decode

/-!
# Values on the wire

A parameter list that is encoded, written, parsed and decoded comes back as it
was.  INTEGER and REAL share the JSON number form and are told apart by the
spelling of the token alone: the text of an integer has no point and no
exponent, a real token always has one.
-/

namespace SanDbOxFormal.Rust.Codec

open SanDbOxFormal.Library
open SanDbOxFormal.Library.Rfc8259 (Json NumberToken Number)

/-- The values that can be sent: every REAL is finite. -/
def Sendable (v : Value) : Prop := ∀ f : F64, v = .real f → f.isFinite = true

variable {std : FloatText}

/-! ## Numbers -/

/-- A real token is a numeral, reads as REAL, and parses to the same bits. -/
theorem realToken_spec (laws : std.Lawful) {f : F64} (finite : f.isFinite = true) :
    Number (realToken std f).toList ∧ (realToken std f).toList.any Decimal.isRealMark = true ∧
      std.parse (realToken std f) = some f := by
  unfold realToken
  dsimp only
  split
  · rename_i marked
    exact ⟨laws.numeral f finite, marked, laws.reads f finite⟩
  · rename_i unmarked
    rw [Bool.not_eq_true] at unmarked
    have shape : (std.debug f ++ ".0").toList = (std.debug f).toList ++ ['.', '0'] := by
      rw [String.toList_append]
      rfl
    refine ⟨?_, ?_, laws.readsSuffixed f finite unmarked⟩
    · rw [shape]
      exact Decimal.number_suffix (laws.numeral f finite) unmarked
    · rw [shape, List.any_append]
      exact Bool.or_true _

/-- What goes on the wire for a finite double is a numeral. -/
def Tokens (std : FloatText) : Prop :=
  ∀ f : F64, f.isFinite = true → Number (realToken std f).toList

theorem tokens_of_lawful (laws : std.Lawful) : Tokens std :=
  fun _ finite => (realToken_spec laws finite).1

theorem decodeValue_real (laws : std.Lawful) {f : F64} (finite : f.isFinite = true) :
    decodeValue std (.number ⟨realToken std f⟩) = .ok (.real f) := by
  obtain ⟨_, real, parsed⟩ := realToken_spec laws finite
  have isReal : NumberToken.isReal ⟨realToken std f⟩ = true := real
  have value : NumberToken.asF64? std ⟨realToken std f⟩ = some f := parsed
  rw [decodeValue, if_pos isReal, value]
  rfl

theorem decodeValue_integer (i : Int64) :
    decodeValue std (.number ⟨i64ToString i⟩) = .ok (.integer i) := by
  have whole : ¬ NumberToken.isReal ⟨i64ToString i⟩ = true := by
    rw [Bool.not_eq_true]
    exact Decimal.toString_not_real i.toInt
  have value : NumberToken.asI64? ⟨i64ToString i⟩ = some i := i64Parse?_toString i
  rw [decodeValue, if_neg whole, value]
  rfl

theorem decodeValue_blob (b : List UInt8) :
    decodeValue std (.array [Json.str (Base64.encode b)]) = .ok (.blob b) := by
  have text : orProtocol (([Json.str (Base64.encode b)].head?).bind Json.asStr?)
      "protocol violation: BLOB array element is not a string" = .ok (Base64.encode b) := rfl
  rw [decodeValue, if_neg (by simp), text]
  dsimp only [bind, Except.bind]
  rw [Base64.decode_encode]

/-! ## Lists -/

/-- What is encoded for a value is a tree of numerals that decodes to the value. -/
theorem encodeValue_spec (laws : std.Lawful) {v : Value} (sendable : Sendable v) :
    ∃ j, encodeValue std v = .ok j ∧ Json.Numerals j ∧ decodeValue std j = .ok v := by
  cases v with
  | null => exact ⟨_, rfl, trivial, rfl⟩
  | integer i => exact ⟨_, rfl, Decimal.toString_number i.toInt, decodeValue_integer i⟩
  | real f =>
      have finite := sendable f rfl
      refine ⟨.number ⟨realToken std f⟩, ?_, (realToken_spec laws finite).1,
        decodeValue_real laws finite⟩
      rw [encodeValue, finite]
      rfl
  | text s => exact ⟨_, rfl, trivial, rfl⟩
  | blob b => exact ⟨_, rfl, ⟨trivial, trivial⟩, decodeValue_blob b⟩

theorem encodeItems_spec (laws : std.Lawful) {values : List Value}
    (sendable : ∀ v ∈ values, Sendable v) (i : Nat) :
    ∃ items, encodeItems std i values = .ok items ∧ Json.NumeralsItems items ∧
      items.mapM (decodeValue std) = .ok values := by
  induction values generalizing i with
  | nil => exact ⟨[], rfl, trivial, rfl⟩
  | cons v rest ih =>
      obtain ⟨j, encoded, numerals, decoded⟩ := encodeValue_spec laws (sendable v List.mem_cons_self)
      obtain ⟨items, encodedRest, numeralsRest, decodedRest⟩ :=
        ih (fun w inside => sendable w (List.mem_cons_of_mem _ inside)) (i + 1)
      refine ⟨j :: items, ?_, ⟨numerals, numeralsRest⟩, ?_⟩
      · rw [encodeItems, encoded, encodedRest]
        rfl
      · rw [List.mapM_cons, decoded, decodedRest]
        rfl

/-- The text of the error for a REAL that cannot be sent. -/
def notFiniteText (std : FloatText) (i : Nat) (f : F64) : String :=
  "params[" ++ toString i ++ "]: " ++
    ("REAL param must be finite (san-db-ox rejects NaN/Inf in params): " ++ std.debug f)

/-- The loop stops at the first REAL that is not finite. -/
theorem encodeItems_fails (laws : std.Lawful) {before after : List Value} {f : F64}
    (sendable : ∀ v ∈ before, Sendable v) (infinite : f.isFinite = false) (i : Nat) :
    encodeItems std i (before ++ .real f :: after) =
      .error (.protocol (notFiniteText std (i + before.length) f)) := by
  induction before generalizing i with
  | nil =>
      rw [List.nil_append, encodeItems, encodeValue, infinite]
      rfl
  | cons v rest ih =>
      obtain ⟨j, encoded, _⟩ := encodeValue_spec laws (sendable v List.mem_cons_self)
      have tail := ih (fun w inside => sendable w (List.mem_cons_of_mem _ inside)) (i + 1)
      rw [List.cons_append, encodeItems, encoded, tail, List.length_cons, Nat.add_right_comm,
        Nat.add_assoc]
      rfl

/-- A non-empty parameter list round trips through the wire; a list with a REAL
that is not finite is refused with the index of the first such element. -/
theorem params_round_trip (std : FloatText) (laws : std.Lawful) :
    (∀ values : List Value, values ≠ [] → (∀ v ∈ values, Sendable v) →
      ∃ json items, encodeParams std values = .ok (some json) ∧
        Json.parse (Utf8.bytes (Json.write json)) = .ok (.array items) ∧
        items.mapM (decodeValue std) = .ok values) ∧
    (∀ (before after : List Value) (f : F64), (∀ v ∈ before, Sendable v) → f.isFinite = false →
      encodeParams std (before ++ .real f :: after) =
        .error (.protocol (notFiniteText std before.length f))) := by
  refine ⟨fun values filled sendable => ?_, fun before after f sendable infinite => ?_⟩
  · obtain ⟨items, encoded, numerals, decoded⟩ := encodeItems_spec laws sendable 0
    refine ⟨.array items, items, ?_, Json.parse_write numerals, decoded⟩
    rw [encodeParams, List.isEmpty_eq_false_iff.mpr filled, encoded]
    rfl
  · have refused : encodeItems std 0 (before ++ .real f :: after) =
        .error (.protocol (notFiniteText std (0 + before.length) f)) :=
      encodeItems_fails laws sendable infinite 0
    rw [Nat.zero_add] at refused
    have filled : (before ++ Value.real f :: after).isEmpty = false :=
      List.isEmpty_eq_false_iff.mpr (List.append_ne_nil_of_right_ne_nil _ (List.cons_ne_nil _ _))
    rw [encodeParams, filled, refused]
    rfl

/-! ## The laws have a model -/

/-- Prints `1.5`, `-0.0` and a NaN as the standard library does, and any other
`f64` as its bits with an exponent. -/
def sampleFloatText : FloatText where
  debug f :=
    if f.bits = 0x3FF8000000000000 then "1.5"
    else if f.bits = 0x8000000000000000 then "-0.0"
    else if f.bits = 0x7FF8000000000000 then "NaN"
    else i64ToString (Int64.ofUInt64 f.bits) ++ "e0"
  parse s :=
    if s = "1.5" then some ⟨0x3FF8000000000000⟩
    else if s = "-0.0" then some ⟨0x8000000000000000⟩
    else (i64Parse? (String.ofList s.toList.dropLast.dropLast)).map fun i => ⟨i.toUInt64⟩

/-- The bits with an exponent behind them are a numeral that gives the bits back. -/
theorem sample_exponent (i : Int64) :
    Number (i64ToString i ++ "e0").toList ∧
      (i64ToString i ++ "e0").toList.any Decimal.isRealMark = true ∧
      sampleFloatText.parse (i64ToString i ++ "e0") = some ⟨i.toUInt64⟩ := by
  have shape : (i64ToString i ++ "e0").toList = (i64ToString i).toList ++ ['e', '0'] := by
    rw [String.toList_append]
    rfl
  have letter : 'e' ∈ (i64ToString i ++ "e0").toList := by simp [shape]
  have notShort : i64ToString i ++ "e0" ≠ "1.5" := by
    intro same
    rw [same] at letter
    simp at letter
  have notZero : i64ToString i ++ "e0" ≠ "-0.0" := by
    intro same
    rw [same] at letter
    simp at letter
  refine ⟨?_, ?_, ?_⟩
  · rw [shape]
    exact Decimal.number_exponent (Decimal.toString_number _) (Decimal.toString_not_real _)
  · exact List.any_eq_true.mpr ⟨'e', letter, by decide⟩
  · have cut : (i64ToString i ++ "e0").toList.dropLast.dropLast = (i64ToString i).toList := by
      rw [shape]
      simp
    simp only [sampleFloatText, if_neg notShort, if_neg notZero]
    rw [cut, String.ofList_toList, i64Parse?_toString]
    rfl

/-- What a finite `f64` prints as, case by case. -/
theorem sample_spec {f : F64} (finite : f.isFinite = true) :
    Number (sampleFloatText.debug f).toList ∧
      (sampleFloatText.debug f).toList.any Decimal.isRealMark = true ∧
      sampleFloatText.parse (sampleFloatText.debug f) = some f := by
  have onePointFive : Number ([] ++ (['1'] ++ (['.', '5'] ++ []))) :=
    .mk .absent (.digits (by decide) (by decide) Rfc8259.Digits.nil)
      (.point (by decide) (Rfc8259.Digits.cons (by decide) Rfc8259.Digits.nil)) .absent
  have minusZero : Number (['-'] ++ (['0'] ++ (['.', '0'] ++ []))) :=
    .mk .minus .zero
      (.point (by decide) (Rfc8259.Digits.cons (by decide) Rfc8259.Digits.nil)) .absent
  obtain ⟨bits⟩ := f
  by_cases short : bits = 0x3FF8000000000000
  · subst short
    exact ⟨onePointFive, by decide, by decide⟩
  · by_cases zero : bits = 0x8000000000000000
    · subst zero
      exact ⟨minusZero, by decide, by decide⟩
    · have number : bits ≠ 0x7FF8000000000000 := by
        rintro rfl
        cases finite
      simp only [sampleFloatText, if_neg short, if_neg zero, if_neg number]
      exact sample_exponent (Int64.ofUInt64 bits)

theorem sampleFloatText_lawful : sampleFloatText.Lawful where
  numeral _ finite := (sample_spec finite).1
  reads _ finite := (sample_spec finite).2.2
  readsSuffixed f finite unmarked := by
    rw [(sample_spec finite).2.1] at unmarked
    cases unmarked

/-- Every constructor, with the extremes the spelling has to tell apart, and a
NaN behind two good elements. -/
theorem params_round_trip_sample :
    (∃ json items, encodeParams sampleFloatText [.null, .integer Int64.minValue,
        .real ⟨0x8000000000000000⟩, .real ⟨0x3FF8000000000000⟩, .text "é\n", .blob []] =
          .ok (some json) ∧
      Json.parse (Utf8.bytes (Json.write json)) = .ok (.array items) ∧
      items.mapM (decodeValue sampleFloatText) = .ok [.null, .integer Int64.minValue,
        .real ⟨0x8000000000000000⟩, .real ⟨0x3FF8000000000000⟩, .text "é\n", .blob []]) ∧
    encodeParams sampleFloatText [.null, .real ⟨0x3FF8000000000000⟩, .real ⟨0x7FF8000000000000⟩] =
      .error (.protocol (notFiniteText sampleFloatText 2 ⟨0x7FF8000000000000⟩)) := by
  have laws := params_round_trip sampleFloatText sampleFloatText_lawful
  refine ⟨laws.1 _ (List.cons_ne_nil _ _) ?_, laws.2 [.null, .real ⟨0x3FF8000000000000⟩] [] _ ?_ rfl⟩
  · intro v inside f same
    subst same
    simp only [List.mem_cons, List.not_mem_nil, or_false, Value.real.injEq, reduceCtorEq,
      false_or] at inside
    rcases inside with rfl | rfl <;> rfl
  · intro v inside f same
    subst same
    simp only [List.mem_cons, List.not_mem_nil, or_false, Value.real.injEq, reduceCtorEq,
      false_or] at inside
    rw [inside]
    rfl

end SanDbOxFormal.Rust.Codec
