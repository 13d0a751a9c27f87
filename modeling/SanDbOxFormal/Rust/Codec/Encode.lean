import SanDbOxFormal.Rust.Codec.Base64
import SanDbOxFormal.Rust.Codec.JsonRoundTrip
import SanDbOxFormal.Rust.Error
import SanDbOxFormal.Rust.Value

/-!
# Encoding

`codec/encode.rs`: one parameter, a parameter list, and a request as one line.
-/

namespace SanDbOxFormal.Rust.Codec

open SanDbOxFormal.Library
open SanDbOxFormal.Library.Rfc8259 (Json NumberToken)

/-- A token for a finite `f64` that always binds REAL. -/
def realToken (std : FloatText) (v : F64) : String :=
  let s := std.debug v
  if s.toList.any Decimal.isRealMark then s else s ++ ".0"

def encodeValue (std : FloatText) : Value → Except Error Json
  | .null => .ok .null
  | .integer i => .ok (.number ⟨i64ToString i⟩)
  | .real f =>
      if !f.isFinite then
        .error (.protocol ("REAL param must be finite (san-db-ox rejects NaN/Inf in params): " ++
          std.debug f))
      else .ok (.number ⟨realToken std f⟩)
  | .text s => .ok (.string s)
  | .blob b => .ok (.array [Json.str (Base64.encode b)])

/-- The `map_err` of the loop of `encode_params`. -/
def atParam (i : Nat) : Error → Error
  | .protocol m => .protocol ("params[" ++ toString i ++ "]: " ++ m)
  | other => other

/-- The loop of `encode_params`, from index `i` on. -/
def encodeItems (std : FloatText) : Nat → List Value → Except Error (List Json)
  | _, [] => .ok []
  | i, v :: rest => do
      let encoded ← (encodeValue std v).mapError (atParam i)
      let items ← encodeItems std (i + 1) rest
      .ok (encoded :: items)

def encodeParams (std : FloatText) (params : List Value) : Except Error (Option Json) :=
  if params.isEmpty then .ok none
  else do
    let items ← encodeItems std 0 params
    .ok (some (.array items))

/-- A request object as one line, newline included. -/
def encodeRequestLine (fields : List (String × Json)) : List UInt8 :=
  Utf8.bytes ((Json.write (.object fields)).push '\n')

end SanDbOxFormal.Rust.Codec
