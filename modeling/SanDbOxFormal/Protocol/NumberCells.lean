import SanDbOxFormal.Go.Value
import SanDbOxFormal.Library.JsonSpelling
import SanDbOxFormal.Python.HelloGate
import SanDbOxFormal.Rust.Codec.ValueRoundTrip
import SanDbOxFormal.TypeScript.Tokens

/-!
# Number cells in four drivers

What the drivers make of a cell that is a number.  A token with a fraction or an
exponent is a REAL, and any other is an INTEGER if it fits; only the driver in Python
does not look whether it fits.
-/

namespace SanDbOxFormal.Protocol

open SanDbOxFormal.Library
open SanDbOxFormal.Library.JsonReader (points)
open SanDbOxFormal.Library.Rfc8259 (Number)

/-- What a driver returns for a number: a double, by its bits, or an integer. -/
inductive NumberCell where
  | real (bits : UInt64)
  | integer (n : Int)
  | refused
  /-- A value of another kind. -/
  | other
  deriving DecidableEq

/-- The integers that a cell may hold. -/
def Fits (n : Int) : Prop := -2 ^ 63 ≤ n ∧ n < 2 ^ 63

instance (n : Int) : Decidable (Fits n) := inferInstanceAs (Decidable (_ ∧ _))

/-- What a token denotes; `nearest` rounds it to a double. -/
def denoted (nearest : List Char → UInt64) (token : List Char) : NumberCell :=
  if token.any Decimal.isRealMark then .real (nearest token)
  else
    match Decimal.parseInt? token with
    | some n => if Fits n then .integer n else .refused
    | none => .refused

/-! ## The four drivers -/

def rustCell (std : Rust.FloatText) (token : List Char) : NumberCell :=
  match Rust.Codec.Json.parse (Utf8.encode token) with
  | .error _ => .refused
  | .ok v =>
      match Rust.Codec.decodeValue std v with
      | .ok (.real f) => .real f.bits
      | .ok (.integer i) => .integer i.toInt
      | .ok _ => .other
      | .error _ => .refused

def goCell (std : Go.Strconv) (token : List Char) : NumberCell :=
  match Go.parse (Utf8.encode token) >>= Go.decodeValue std with
  | .ok (.float64 f) => .real f.bits
  | .ok (.int64 i) => .integer i.toInt
  | .ok _ => .other
  | .error _ => .refused

/-- A `number` is the double nearest to its token. -/
def typeScriptCell (nearest : List Char → UInt64) (rt : TypeScript.Runtime) (token : List Char) :
    NumberCell :=
  match TypeScript.decodeText (Utf8.encode token) >>= TypeScript.parseJsonPreservingNumbers rt >>=
      TypeScript.decodeValue rt with
  | .ok (.number read) => .real (nearest (read.map fun u => Char.ofNat u.toNat))
  | .ok (.bigint n) => .integer n
  | .ok _ => .other
  | .error _ => .refused

/-- A `float` is the double nearest to its token. -/
def pythonCell (nearest : List Char → UInt64) (rt : Python.Runtime) (token : List Char) :
    NumberCell :=
  match Python.loads rt true (Utf8.encode token) >>= Python.decodeValue rt with
  | .ok (.plain (.float read)) => .real (nearest (read.map Char.ofNat))
  | .ok (.plain (.int n)) => .integer n
  | .ok _ => .other
  | .error _ => .refused

/-- The conversions of Rust and Go round to the nearest double; Go reports a result that
is infinite. -/
structure Rounds (nearest : List Char → UInt64) (rust : Rust.FloatText) (go : Go.Strconv) :
    Prop where
  rust : ∀ token, Number token → rust.parse (String.ofList token) = some ⟨nearest token⟩
  go : ∀ token, Number token → go.parseFloat token = (⟨nearest token⟩,
    if (Go.Float64.mk (nearest token)).isInf then some .numRange else none)

/-! ## Reading a token -/

theorem rust_reads {token : List Char} (number : Number token) :
    Rust.Codec.Json.parse (Utf8.encode token) = .ok (.number ⟨String.ofList token⟩) := by
  refine Rust.Codec.Json.parse_ok_iff.mpr ⟨token, rfl, [], token, [], ?_, Rfc8259.Ws.nil,
    .number number, Rfc8259.Ws.nil⟩
  rw [List.nil_append, List.append_nil]

/-- Without fraction and exponent a token is that of an integer. -/
theorem integerToken_of_whole {token : List Char} (number : Number token)
    (whole : token.any Decimal.isRealMark = false) : ∃ n, IntegerToken token n := by
  obtain ⟨sign, int, rfl, hsign, hint⟩ := Decimal.number_whole number whole
  cases hsign with
  | absent => exact ⟨_, .whole hint⟩
  | minus => exact ⟨_, .negative hint⟩

/-- The cases of a token: a REAL, or an integer that fits or does not. -/
inductive Denotation (nearest : List Char → UInt64) (token : List Char) : NumberCell → Prop where
  | real (marked : token.any Decimal.isRealMark = true) :
      Denotation nearest token (.real (nearest token))
  | fits {n : Int} (unmarked : token.any Decimal.isRealMark = false) (integer : IntegerToken token n)
      (fits : Fits n) : Denotation nearest token (.integer n)
  | wide {n : Int} (unmarked : token.any Decimal.isRealMark = false) (integer : IntegerToken token n)
      (wide : ¬ Fits n) : Denotation nearest token .refused

theorem denoted_denotes (nearest : List Char → UInt64) {token : List Char}
    (number : Number token) : Denotation nearest token (denoted nearest token) := by
  unfold denoted
  split
  · rename_i marked
    exact .real marked
  · rename_i unmarked
    rw [Bool.not_eq_true] at unmarked
    obtain ⟨n, integer⟩ := integerToken_of_whole number unmarked
    rw [integer.parseInt?]
    dsimp only
    split
    · rename_i fits
      exact .fits unmarked integer fits
    · rename_i wide
      exact .wide unmarked integer wide

/-! ## Rust and Go -/

theorem rustCell_eq {nearest : List Char → UInt64} {rust : Rust.FloatText} {go : Go.Strconv}
    (rounds : Rounds nearest rust go) {token : List Char} (number : Number token) :
    rustCell rust token = denoted nearest token := by
  have marks : Rust.Codec.NumberToken.isReal ⟨String.ofList token⟩ =
      token.any Decimal.isRealMark := by
    rw [Rust.Codec.NumberToken.isReal, String.toList_ofList]
  have value : Rust.Codec.NumberToken.asI64? ⟨String.ofList token⟩ =
      (Decimal.parseInt? token).bind fun i =>
        if -2 ^ 63 ≤ i ∧ i < 2 ^ 63 then some (Int64.ofInt i) else none := by
    rw [Rust.Codec.NumberToken.asI64?, Rust.i64Parse?, String.toList_ofList]
  have float : Rust.Codec.NumberToken.asF64? rust ⟨String.ofList token⟩ = some ⟨nearest token⟩ :=
    rounds.rust token number
  rw [rustCell, rust_reads number]
  dsimp only
  rw [Rust.Codec.decodeValue, marks, value, float]
  have outcome := denoted_denotes nearest number
  generalize denoted nearest token = cell at outcome ⊢
  cases outcome with
  | real marked =>
      rw [if_pos marked]
      rfl
  | @fits n unmarked integer fits =>
      rw [if_neg (Bool.eq_false_iff.mp unmarked), integer.parseInt?, Option.bind_some,
        if_pos (show -2 ^ 63 ≤ n ∧ n < 2 ^ 63 from fits)]
      exact congrArg NumberCell.integer (Int64.toInt_ofInt_of_le fits.1 fits.2)
  | @wide n unmarked integer wide =>
      rw [if_neg (Bool.eq_false_iff.mp unmarked), integer.parseInt?, Option.bind_some,
        if_neg (show ¬ (-2 ^ 63 ≤ n ∧ n < 2 ^ 63) from wide)]
      rfl

theorem goCell_eq {nearest : List Char → UInt64} {rust : Rust.FloatText} {go : Go.Strconv}
    (rounds : Rounds nearest rust go) {token : List Char} (number : Number token) :
    goCell go token = denoted nearest token := by
  have read : Go.parse (Utf8.encode token) = .ok (.number (points token)) := by
    rw [Go.parse, Go.codePoints_encode,
      JsonReader.read_number (JsonReader.standard_of_plain rfl) number]
    rfl
  have cell : Go.decodeValue go (.number (points token)) = Go.decodeNumber go token := by
    rw [Go.decodeValue, Go.chars, JsonReader.chars_points]
  have whole : (Go.parse (Utf8.encode token) >>= Go.decodeValue go) = Go.decodeNumber go token := by
    rw [read]
    exact cell
  rw [goCell, whole, Go.decodeNumber, rounds.go token number]
  have outcome := denoted_denotes nearest number
  generalize denoted nearest token = cell at outcome ⊢
  cases outcome with
  | real marked =>
      rw [if_pos marked]
      split_ifs with infinite
      · dsimp only
        rw [if_pos ⟨rfl, infinite⟩]
      · rfl
  | @fits n unmarked integer fits =>
      rw [if_neg (Bool.eq_false_iff.mp unmarked), Go.parseInt, integer.parseInt?]
      dsimp only
      rw [if_pos (show -2 ^ 63 ≤ n ∧ n < 2 ^ 63 from fits)]
      exact congrArg NumberCell.integer (Int64.toInt_ofInt_of_le fits.1 fits.2)
  | @wide n unmarked integer wide =>
      rw [if_neg (Bool.eq_false_iff.mp unmarked), Go.parseInt, integer.parseInt?]
      dsimp only
      rw [if_neg (show ¬ (-2 ^ 63 ≤ n ∧ n < 2 ^ 63) from wide)]
      rfl

/-! ## TypeScript -/

theorem typeScriptCell_eq (nearest : List Char → UInt64) (rt : TypeScript.Runtime)
    {token : List Char} (number : Number token) :
    typeScriptCell nearest rt token = denoted nearest token := by
  have narrow := JsonReader.number_ascii number
  have units := TypeScript.string_toNat narrow
  have read : TypeScript.parseJsonPreservingNumbers rt (TypeScript.string (points token)) =
      TypeScript.valueNumberPolicy (TypeScript.string (points token)) := by
    rw [TypeScript.parseJsonPreservingNumbers, units,
      JsonReader.read_number (JsonReader.standard_of_plain rfl) number]
    cases rt.reviveDepth <;> rfl
  have whole : (TypeScript.decodeText (Utf8.encode token) >>=
      TypeScript.parseJsonPreservingNumbers rt >>= TypeScript.decodeValue rt) =
      (TypeScript.valueNumberPolicy (TypeScript.string (points token)) >>=
        TypeScript.decodeValue rt) := by
    rw [TypeScript.decodeText_ascii narrow, ← read]
    rfl
  have back : (TypeScript.string (points token)).map (fun u => Char.ofNat u.toNat) = token := by
    have composed := congrArg (List.map Char.ofNat) units
    rwa [List.map_map, JsonReader.chars_points] at composed
  rw [typeScriptCell, whole, TypeScript.valueNumberPolicy, TypeScript.isReal_string narrow]
  have outcome := denoted_denotes nearest number
  generalize denoted nearest token = cell at outcome ⊢
  cases outcome with
  | real marked =>
      rw [if_pos marked]
      exact congrArg (fun cs => NumberCell.real (nearest cs)) back
  | fits unmarked integer fits =>
      have inside := fits.2
      rw [if_neg (Bool.eq_false_iff.mp unmarked), TypeScript.bigInt_token integer narrow, if_neg]
      · rfl
      · have low := fits.1
        omega
  | wide unmarked integer wide =>
      rw [if_neg (Bool.eq_false_iff.mp unmarked), TypeScript.bigInt_token integer narrow, if_pos]
      · rfl
      · simp only [Fits] at wide
        omega

/-! ## Python -/

theorem after?_head {w c : Nat} {word rest : List Nat} (different : w ≠ c) :
    JsonReader.after? (w :: word) (c :: rest) = none := by
  rw [JsonReader.after?, List.isPrefixOf_cons_cons, beq_eq_false_iff_ne.mpr different]
  rfl

/-- None of the constants of `json.loads` starts like a value. -/
theorem standard_dialect (rt : Python.Runtime) (reject : Bool) :
    JsonReader.Standard (rt.dialect reject) := by
  intro c rest start
  have lead : c = 0x74 ∨ c = 0x66 ∨ c = 0x6E ∨ c = 0x2D ∨ 0x30 ≤ c ∧ c ≤ 0x39 := by
    rcases start with letter | letter | letter | digit | ⟨minus, _⟩
    · exact .inl letter
    · exact .inr (.inl letter)
    · exact .inr (.inr (.inl letter))
    · simp only [JsonReader.isDigit, Bool.and_eq_true, decide_eq_true_eq] at digit
      exact .inr (.inr (.inr (.inr digit)))
    · exact .inr (.inr (.inr (.inl minus)))
  have nan : JsonReader.after? (Python.lit "NaN") (c :: rest) = none := by
    refine after?_head ?_
    change (0x4E : Nat) ≠ c
    omega
  have positive : JsonReader.after? (Python.lit "Infinity") (c :: rest) = none := by
    refine after?_head ?_
    change (0x49 : Nat) ≠ c
    omega
  have negative : JsonReader.after? (Python.lit "-Infinity") (c :: rest) = none := by
    by_cases minus : c = 0x2D
    · obtain ⟨digit, more, rfl, isDigit⟩ : ∃ digit more, rest = digit :: more ∧
          JsonReader.isDigit digit = true := by
        rcases start with letter | letter | letter | digit | ⟨_, found⟩
        · omega
        · omega
        · omega
        · rw [minus] at digit
          cases digit
        · exact found
      have second : JsonReader.after? (Python.lit "Infinity") (digit :: more) = none := by
        refine after?_head ?_
        rintro rfl
        cases isDigit
      rw [minus]
      exact second
    · exact after?_head fun same => minus same.symm
  rw [JsonReader.bareword?]
  change List.findSome? _ [Python.lit "NaN", Python.lit "Infinity", Python.lit "-Infinity"] = none
  simp only [List.findSome?_cons, nan, positive, negative, Option.map_none, List.findSome?_nil]

theorem decodeBytes_ascii {cs : List Char} (narrow : ∀ c ∈ cs, 0x20 < c.toNat ∧ c.toNat < 0x80) :
    Python.decodeBytes (Utf8.encode cs) = some (points cs) := by
  have detected : Python.detectEncoding (Utf8.encode cs) = (.utf8, Utf8.encode cs) := by
    rw [Utf8.encode_ascii fun c inside => (narrow c inside).2]
    match cs with
    | [] => rfl
    | [c] => simp [Python.detectEncoding, Python.guessEncoding, List.isPrefixOf]
    | c :: d :: rest =>
        have first := narrow c List.mem_cons_self
        have second := narrow d (List.mem_cons_of_mem _ List.mem_cons_self)
        have value (e : Char) (small : e.toNat < 0x80) : (UInt8.ofNat e.toNat).toNat = e.toNat :=
          Nat.mod_eq_of_lt (by omega)
        refine Python.detectEncoding_ascii _ ?_ ?_
        · rw [value c first.2]
          omega
        · rw [value d second.2]
          omega
  rw [Python.decodeBytes, detected]
  exact Python.decodeUtf8_encode cs

theorem pythonCell_eq (nearest : List Char → UInt64) (rt : Python.Runtime) {token : List Char}
    (number : Number token) : pythonCell nearest rt token =
      if rt.refusesInt (points token) then .refused
      else if token.any Decimal.isRealMark then .real (nearest token)
      else .integer (Python.int (points token)) := by
  have narrow := JsonReader.number_ascii number
  have real : Python.isReal (points token) = token.any Decimal.isRealMark := Python.isReal_map token
  have overflow : (rt.dialect true).overflows (points token) = rt.refusesInt (points token) := rfl
  rw [pythonCell, Python.loads, decodeBytes_ascii narrow]
  dsimp only
  rw [JsonReader.read_number (standard_dialect rt true) number, overflow]
  split_ifs with refused marked
  · rfl
  · dsimp only
    rw [Python.value, real, if_pos marked]
    exact congrArg (fun cs => NumberCell.real (nearest cs)) (JsonReader.chars_points token)
  · dsimp only
    rw [Python.value, real, if_neg marked]
    rfl

/-! ## All four -/

theorem le_ofDigitChars (ds : List Char) (n : Nat) :
    n * 10 ^ ds.length ≤ Nat.ofDigitChars 10 ds n := by
  induction ds generalizing n with
  | nil => exact Nat.le_of_eq (Nat.mul_one n)
  | cons d rest ih =>
      refine Nat.le_trans ?_ (ih (10 * n + (d.toNat - '0'.toNat)))
      rw [List.length_cons, Nat.pow_succ]
      have grown : n * 10 ≤ 10 * n + (d.toNat - '0'.toNat) := by omega
      calc n * (10 ^ rest.length * 10) = n * 10 * 10 ^ rest.length := by ring
        _ ≤ _ := Nat.mul_le_mul_right _ grown

/-- An integer part that denotes a small number is short. -/
theorem intPart_length {ds : List Char} (part : Rfc8259.IntPart ds)
    (small : Nat.ofDigitChars 10 ds 0 ≤ 2 ^ 63) : ds.length ≤ 19 := by
  cases part with
  | zero => decide
  | @digits d ds lead nonzero more =>
      have large := le_ofDigitChars ds (10 * 0 + (d.toNat - '0'.toNat))
      have positive : 1 ≤ 10 * 0 + (d.toNat - '0'.toNat) := by
        have zero : d.toNat ≠ '0'.toNat := fun same => nonzero (Char.toNat_inj.mp same)
        have mark : '0'.toNat = 0x30 := rfl
        simp only [Rfc8259.isDigit, Bool.and_eq_true, decide_eq_true_eq] at lead
        omega
      have bounded : 10 ^ ds.length ≤ 2 ^ 63 := by
        calc 10 ^ ds.length = 1 * 10 ^ ds.length := (Nat.one_mul _).symm
          _ ≤ (10 * 0 + (d.toNat - '0'.toNat)) * 10 ^ ds.length := Nat.mul_le_mul_right _ positive
          _ ≤ _ := large
          _ ≤ _ := small
      by_contra long
      rw [List.length_cons] at long
      have power : 10 ^ 19 ≤ 10 ^ ds.length := Nat.pow_le_pow_right (by decide) (by omega)
      exact absurd (power.trans bounded) (by decide)

/-- A token that fits has few digits, so no interpreter refuses to convert it. -/
theorem refuses_wide {rt : Python.Runtime} {token : List Char} {n : Int}
    (limits : ∀ most, rt.intDigits = some most → 640 ≤ most) (integer : IntegerToken token n)
    (fits : Fits n) : rt.refusesInt (points token) = false := by
  have short : token.length ≤ 20 := by
    cases integer with
    | whole part => exact (intPart_length part (by have := fits.2; omega)).trans (by decide)
    | negative part => exact Nat.succ_le_succ (intPart_length part (by have := fits.1; omega))
  unfold Python.Runtime.refusesInt
  split
  · rename_i most limited
    have large := limits most limited
    have few : ((points token).filter JsonReader.isDigit).length ≤ 20 := by
      have fewer := List.length_filter_le JsonReader.isDigit (points token)
      rw [points, List.length_map] at fewer
      exact fewer.trans short
    rw [Bool.and_eq_false_iff]
    exact .inr (decide_eq_false (by omega))
  · rfl

/-- The four drivers agree on a number token, and with what it denotes, exactly when it
is a REAL, or an INTEGER that fits, or has more digits than Python converts. -/
theorem number_cells_agree_iff (nearest : List Char → UInt64) (rust : Rust.FloatText)
    (go : Go.Strconv) (rounds : Rounds nearest rust go) (ts : TypeScript.Runtime)
    (py : Python.Runtime) (limits : ∀ most, py.intDigits = some most → 640 ≤ most)
    (token : List Char) (number : Number token) :
    (rustCell rust token = denoted nearest token ∧ goCell go token = denoted nearest token ∧
      typeScriptCell nearest ts token = denoted nearest token ∧
      pythonCell nearest py token = denoted nearest token) ↔
    (token.any Decimal.isRealMark = true ∨ (∃ n, IntegerToken token n ∧ Fits n) ∨
      py.refusesInt (points token) = true) := by
  rw [rustCell_eq rounds number, goCell_eq rounds number, typeScriptCell_eq nearest ts number,
    pythonCell_eq nearest py number]
  have outcome := denoted_denotes nearest number
  generalize denoted nearest token = cell at outcome ⊢
  cases outcome with
  | real marked =>
      have converts : py.refusesInt (points token) = false := by
        have real : Python.isReal (points token) = true := (Python.isReal_map token).trans marked
        unfold Python.Runtime.refusesInt
        rw [real]
        cases py.intDigits <;> rfl
      rw [converts, if_neg Bool.false_ne_true, if_pos marked]
      exact ⟨fun _ => .inl marked, fun _ => ⟨rfl, rfl, rfl, rfl⟩⟩
  | @fits n unmarked integer fits =>
      have value : Python.int (points token) = n := Python.int_token integer
      rw [refuses_wide limits integer fits, unmarked, if_neg Bool.false_ne_true,
        if_neg Bool.false_ne_true, value]
      exact ⟨fun _ => .inr (.inl ⟨_, integer, fits⟩), fun _ => ⟨rfl, rfl, rfl, rfl⟩⟩
  | @wide n unmarked integer wide =>
      rw [unmarked, if_neg Bool.false_ne_true]
      constructor
      · rintro ⟨-, -, -, python⟩
        by_cases refused : py.refusesInt (points token) = true
        · exact .inr (.inr refused)
        · rw [if_neg refused] at python
          cases python
      · rintro (marked | ⟨m, other, fits⟩ | refused)
        · cases marked
        · have same : n = m := Option.some.inj (integer.parseInt?.symm.trans other.parseInt?)
          exact absurd (same ▸ fits) wide
        · rw [if_pos refused]
          exact ⟨rfl, rfl, rfl, rfl⟩

/-- Rounding that is right for `1.5`, and for zero. -/
def cellNearest (token : List Char) : UInt64 :=
  if token = "1.5".toList then 0x3FF8000000000000 else 0

def sampleRust : Rust.FloatText := ⟨fun _ => "0.0", fun s => some ⟨cellNearest s.toList⟩⟩

def cellGo : Go.Strconv :=
  ⟨fun _ => "0".toList, fun token => (⟨cellNearest token⟩, none), Go.ascii, fun _ => []⟩

/-- The interpreter with its default limit. -/
def samplePython : Python.Runtime :=
  ⟨10, 10, some 4300, fun _ => [], fun _ => [], fun _ => .ok []⟩

theorem sample_rounds : Rounds cellNearest sampleRust cellGo where
  rust token _ := congrArg (fun cs => some (Rust.F64.mk (cellNearest cs))) String.toList_ofList
  go token _ := by
    have finite : (Go.Float64.mk (cellNearest token)).isInf = false := by
      rw [cellNearest]
      split <;> decide
    rw [finite]
    rfl

theorem oneAndAHalf_number : Number "1.5".toList := by
  have whole : Rfc8259.IntPart ['1'] := .digits rfl (by decide) nofun
  have fraction : Rfc8259.FracPart ['.', '5'] :=
    .point (by decide) (List.forall_mem_singleton.mpr rfl)
  exact .mk .absent whole fraction .absent

/-- All four read `1.5` as the double. -/
theorem number_cells_agree_sample :
    rustCell sampleRust "1.5".toList = .real 0x3FF8000000000000 ∧
      pythonCell cellNearest samplePython "1.5".toList = .real 0x3FF8000000000000 := by
  have agree := (number_cells_agree_iff cellNearest sampleRust cellGo sample_rounds
    ⟨10, 10, 10, fun _ => [], id⟩ samplePython (fun _ limited => Option.some.inj limited ▸ by decide)
    "1.5".toList oneAndAHalf_number).mpr (.inl (by decide))
  exact ⟨agree.1, agree.2.2.2⟩

/-- The first integer that does not fit: Python takes it, and the others refuse it. -/
theorem number_cells_differ :
    Number "9223372036854775808".toList ∧ denoted cellNearest "9223372036854775808".toList = .refused ∧
      rustCell sampleRust "9223372036854775808".toList = .refused ∧
      goCell cellGo "9223372036854775808".toList = .refused ∧
      typeScriptCell cellNearest ⟨10, 10, 10, fun _ => [], id⟩ "9223372036854775808".toList =
        .refused ∧
      pythonCell cellNearest samplePython "9223372036854775808".toList =
        .integer 9223372036854775808 := by
  have number : Number "9223372036854775808".toList := Decimal.toString_number 9223372036854775808
  have cells : denoted cellNearest "9223372036854775808".toList = .refused ∧
      rustCell sampleRust "9223372036854775808".toList = .refused ∧
      goCell cellGo "9223372036854775808".toList = .refused ∧
      typeScriptCell cellNearest ⟨10, 10, 10, fun _ => [], id⟩ "9223372036854775808".toList =
        .refused ∧
      pythonCell cellNearest samplePython "9223372036854775808".toList =
        .integer 9223372036854775808 := by
    decide +kernel
  exact ⟨number, cells⟩

end SanDbOxFormal.Protocol
