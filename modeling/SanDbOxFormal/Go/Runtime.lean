import SanDbOxFormal.Library.Decimal
import SanDbOxFormal.Library.JsonReader
import SanDbOxFormal.Library.Utf8

/-!
# Strings, numbers and errors of the Go runtime

A `string` is a sequence of bytes, of which nothing is known.  What `strconv` prints
for a `float64` and reads back is a parameter.
-/

namespace SanDbOxFormal.Go

open SanDbOxFormal.Library

abbrev GoString := List UInt8

/-- A literal of the source. -/
def lit (s : String) : GoString := Utf8.bytes s

/-- A text of ASCII characters. -/
def ascii (cs : List Char) : GoString := cs.map fun c => UInt8.ofNat c.toNat

/-- A `float64`, as its bits. -/
structure Float64 where
  bits : UInt64
  deriving DecidableEq

namespace Float64

/-- The bits without the sign. -/
def magnitude (f : Float64) : Nat := f.bits.toNat % 2 ^ 63

def infinity : Nat := 0x7FF0000000000000

/-- `math.IsNaN`. -/
def isNaN (f : Float64) : Bool := infinity < f.magnitude

/-- `math.IsInf(f, 0)`. -/
def isInf (f : Float64) : Bool := f.magnitude = infinity

def isFinite (f : Float64) : Bool := f.magnitude < infinity

end Float64

/-! ## Errors -/

/-- An error of the standard library, whose text is its own: of `json.Unmarshal` and
`json.Number`, of `strconv`, of a base64 decoder, of streams and of a context. -/
inductive Cause where
  | jsonSyntax
  | jsonType
  | jsonNumber
  | numSyntax
  | numRange
  | base64
  | eof
  | closedPipe
  | tooLong
  | context
  | system (message : GoString)
  deriving DecidableEq

/-- What `errors.New` and `fmt.Errorf` make, the latter with or without `%w` at its end,
and a `*codec.Error`. -/
inductive GoError where
  | std (cause : Cause)
  | text (message : GoString)
  | wrap (before : GoString) (cause : GoError)
  | response (code message : GoString)
  deriving DecidableEq

/-- `%q` of one of the names in the source. -/
def quoted (name : String) : GoString := lit ("\"" ++ name ++ "\"")

/-! ## strconv -/

/-- `FormatFloat(f, 'g', -1, 64)`, `ParseFloat(s, 64)` with its `ErrSyntax` or `ErrRange`, and
`Quote`; beside them the text of an object that was read, of which its members do not say
how it was spelled. -/
structure Strconv where
  formatFloat : Float64 → List Char
  parseFloat : List Char → Float64 × Option Cause
  quote : List Char → GoString
  objectText : List (List Nat × JsonReader.Tree) → List Char

/-- A finite `float64` prints as a JSON numeral that reads back to the same bits, also
with `.0` behind it where it shows neither a point nor an exponent. -/
structure Strconv.Lawful (std : Strconv) : Prop where
  numeral : ∀ f : Float64, f.isFinite = true → Rfc8259.Number (std.formatFloat f)
  reads : ∀ f : Float64, f.isFinite = true → std.parseFloat (std.formatFloat f) = (f, none)
  readsSuffixed : ∀ f : Float64, f.isFinite = true →
    (std.formatFloat f).any Decimal.isRealMark = false →
    std.parseFloat (std.formatFloat f ++ ['.', '0']) = (f, none)

/-- `ParseInt(s, 10, 64)`. -/
def parseInt (s : List Char) : Except GoError Int64 :=
  match Decimal.parseInt? s with
  | none => .error (.std .numSyntax)
  | some i => if -2 ^ 63 ≤ i ∧ i < 2 ^ 63 then .ok (Int64.ofInt i) else .error (.std .numRange)

/-- `FormatInt(i, 10)`. -/
def formatInt (i : Int64) : List Char := (toString i.toInt).toList

theorem parseInt_formatInt (i : Int64) : parseInt (formatInt i) = .ok i := by
  have low := i.le_toInt
  have high := i.toInt_lt
  rw [parseInt, formatInt, Decimal.parseInt?_toString]
  dsimp only
  rw [if_pos ⟨low, high⟩, Int64.ofInt_toInt]

end SanDbOxFormal.Go
