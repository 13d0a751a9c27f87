import SanDbOxFormal.Go.Json
import SanDbOxFormal.Library.Base64

/-!
# Values of the Go driver

`value.go`: parameters and cells.
-/

namespace SanDbOxFormal.Go

open SanDbOxFormal.Library

/-- A value behind an `any`; `int` is 64 bits wide, and a `[]byte` may be nil. -/
inductive Any where
  | nil
  | int (n : Int64)
  | int64 (n : Int64)
  | float64 (f : Float64)
  | string (s : GoString)
  | bytes (b : Option (List UInt8))
  | other (typeName : GoString)
  deriving DecidableEq

/-! ## Encoding -/

def formatReal (std : Strconv) (f : Float64) : List Char :=
  let s := std.formatFloat f
  if s.any Decimal.isRealMark then s else s ++ ['.', '0']

/-- `base64.StdEncoding.EncodeToString`. -/
def encodeToString (b : List UInt8) : GoString := (Base64.encode b).map UInt8.ofNat

/-- The text of one parameter. -/
def encodeValue (std : Strconv) : Any → Except GoError (List Char)
  | .nil => .ok "null".toList
  | .int n => .ok (formatInt n)
  | .int64 n => .ok (formatInt n)
  | .float64 f =>
      if f.isNaN || f.isInf then
        .error (.text (lit "REAL param must be finite (san-db-ox rejects NaN/Inf in params): " ++
          ascii (std.formatFloat f)))
      else .ok (formatReal std f)
  | .string s => .ok (marshalString s)
  | .bytes b => .ok ('[' :: (marshalString (encodeToString (b.getD [])) ++ [']']))
  | .other typeName =>
      .error (.text (lit "unsupported param type " ++ typeName ++
        lit " (want nil, int, int64, float64, string, or []byte)"))

/-- The loop of `EncodeParams`, from index `i` on. -/
def encodeItems (std : Strconv) : Nat → List Any → Except GoError (List (List Char))
  | _, [] => .ok []
  | i, p :: rest => do
      let raw ← (encodeValue std p).mapError (.wrap (lit ("params[" ++ toString i ++ "]: ")))
      let out ← encodeItems std (i + 1) rest
      .ok (raw :: out)

/-- `EncodeParams`; a nil slice stays nil, which is empty like any other. -/
def encodeParams (std : Strconv) (params : List Any) : Except GoError (List (List Char)) :=
  encodeItems std 0 params

/-! ## Decoding -/

def isLineBreak (b : UInt8) : Bool := b = 0x0D || b = 0x0A

/-- `base64.StdEncoding.DecodeString`, which passes over line breaks. -/
def decodeString (s : GoString) : Except GoError (List UInt8) :=
  match Base64.decode? ((s.filter fun b => !isLineBreak b).map UInt8.toNat) with
  | some bytes => .ok bytes
  | none => .error (.std .base64)

def decodeBLOB (raw : RawMessage) : Except GoError Any := do
  let arr ← (unmarshalStrings raw).mapError (.wrap (lit "decoding BLOB array: "))
  match arr with
  | [s] => do
      let b ← (decodeString s).mapError (.wrap (lit "decoding BLOB base64: "))
      .ok (.bytes (some b))
  | _ =>
      .error (.text (lit ("protocol violation: BLOB array must have exactly 1 element, got " ++
        toString arr.length)))

def decodeNumber (std : Strconv) (s : List Char) : Except GoError Any :=
  if s.any Decimal.isRealMark then
    match std.parseFloat s with
    | (f, none) => .ok (.float64 f)
    | (f, some cause) =>
        if cause = .numRange ∧ f.isInf then .ok (.float64 f)
        else .error (.wrap (lit "decoding REAL " ++ lit "\"" ++ ascii s ++ lit "\": ") (.std cause))
  else do
    let n ← (parseInt s).mapError (.wrap (lit "decoding INTEGER \"" ++ ascii s ++ lit "\": "))
    .ok (.int64 n)

/-- What `decodeNumber` returns for a text that is no number. -/
def notNumber (std : Strconv) (s : List Char) : GoError :=
  .wrap (lit (if s.any Decimal.isRealMark then "decoding REAL " else "decoding INTEGER ") ++
    std.quote s ++ lit ": ") (.std .numSyntax)

/-- `DecodeValue`: the first byte of the value tells its kind.  What is left to
`decodeNumber` is a number, a boolean or an object; the text of an object is no number. -/
def decodeValue (std : Strconv) (raw : RawMessage) : Except GoError Any :=
  match raw with
  | .null => .ok .nil
  | .string _ => do
      let str ← (unmarshalString raw).mapError (.wrap (lit "decoding TEXT: "))
      .ok (.string str)
  | .array _ => decodeBLOB raw
  | .number token => decodeNumber std (chars token)
  | .bool b => decodeNumber std (if b then "true" else "false").toList
  | .bareword name => decodeNumber std (chars name)
  | .object members => .error (notNumber std (std.objectText members))

/-- The inner loop of `DecodeRows`, from column `j` on. -/
def decodeCells (std : Strconv) (i : Nat) : Nat → List RawMessage → Except GoError (List Any)
  | _, [] => .ok []
  | j, cell :: rest => do
      let v ← (decodeValue std cell).mapError
        (.wrap (lit ("decoding rows[" ++ toString i ++ "][" ++ toString j ++ "]: ")))
      let row ← decodeCells std i (j + 1) rest
      .ok (v :: row)

def decodeRowsFrom (std : Strconv) : Nat → List RawMessage → Except GoError (List (List Any))
  | _, [] => .ok []
  | i, wireRow :: rest => do
      let cells ← (unmarshalRaws wireRow).mapError
        (.wrap (lit ("decoding rows[" ++ toString i ++ "]: ")))
      let row ← decodeCells std i 0 cells
      let rows ← decodeRowsFrom std (i + 1) rest
      .ok (row :: rows)

def decodeRows (std : Strconv) (raw : RawMessage) : Except GoError (List (List Any)) := do
  let wireRows ← (unmarshalRaws raw).mapError (.wrap (lit "decoding rows: "))
  decodeRowsFrom std 0 wireRows

end SanDbOxFormal.Go
