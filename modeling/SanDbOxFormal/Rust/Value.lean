import SanDbOxFormal.Library.Decimal

/-!
# Values

The value type of `value.rs`.  A REAL is carried by its bits.  What the standard
library prints for it and reads back is a parameter, together with the laws that
the encoder relies on.
-/

namespace SanDbOxFormal.Rust

open SanDbOxFormal.Library

/-- An `f64`, as its bits. -/
structure F64 where
  bits : UInt64
  deriving DecidableEq, Repr

/-- `f64::is_finite`: the exponent is not all ones. -/
def F64.isFinite (f : F64) : Bool := f.bits &&& 0x7FF0000000000000 != 0x7FF0000000000000

inductive Value where
  | null
  | integer (i : Int64)
  | real (f : F64)
  | text (s : String)
  | blob (b : List UInt8)
  deriving DecidableEq

/-- `{:?}` of an `f64` and `str::parse::<f64>`. -/
structure FloatText where
  debug : F64 → String
  parse : String → Option F64

/-- A finite `f64` prints as a JSON numeral that reads back to the same bits,
also with `.0` behind it where it shows neither a point nor an exponent. -/
structure FloatText.Lawful (std : FloatText) : Prop where
  numeral : ∀ f : F64, f.isFinite = true → Rfc8259.Number (std.debug f).toList
  reads : ∀ f : F64, f.isFinite = true → std.parse (std.debug f) = some f
  readsSuffixed : ∀ f : F64, f.isFinite = true →
    (std.debug f).toList.any Decimal.isRealMark = false → std.parse (std.debug f ++ ".0") = some f

/-- `i64::to_string`. -/
def i64ToString (i : Int64) : String := toString i.toInt

/-- `str::parse::<i64>`. -/
def i64Parse? (s : String) : Option Int64 :=
  (Decimal.parseInt? s.toList).bind fun i =>
    if -2 ^ 63 ≤ i ∧ i < 2 ^ 63 then some (Int64.ofInt i) else none

theorem i64Parse?_toString (i : Int64) : i64Parse? (i64ToString i) = some i := by
  have low := i.le_toInt
  have high := i.toInt_lt
  rw [i64Parse?, i64ToString, Decimal.parseInt?_toString, Option.bind_some, if_pos ⟨low, high⟩,
    Int64.ofInt_toInt]

end SanDbOxFormal.Rust
