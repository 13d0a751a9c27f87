import SanDbOxFormal.Library.Base64
import SanDbOxFormal.Library.Decimal
import SanDbOxFormal.Library.Utf16
import SanDbOxFormal.TypeScript.Decode

/-!
# Encoding requests in TypeScript

`encodeValue`, `encodeParams` and `encodeRequestLine` of `codec.ts`, the requests that
`client.ts` builds, and what `JSON.stringify` and `TextEncoder` make of them.  How the
runtime prints a `number` and reads it back is a parameter.
-/

namespace SanDbOxFormal.TypeScript

open SanDbOxFormal.Library
open SanDbOxFormal.Library.Utf16 (isHigh isLow characters)

/-- A `number`, as its bits. -/
structure Double where
  bits : UInt64
  deriving DecidableEq

/-- `Number.isFinite`: the exponent bits are not all ones. -/
def Double.isFinite (v : Double) : Bool := v.bits.toNat / 2 ^ 52 % 2 ^ 11 ≠ 2 ^ 11 - 1

def Double.minusZero : Double := ⟨0x8000000000000000⟩

structure NumberText where
  /-- `String(v)`. -/
  toText : Double → List Char
  /-- `Number(s)`. -/
  ofText : List Char → Double

/-- A finite `number` other than `-0` prints as a JSON numeral that reads back to the
same bits, also with `.0` behind it where it shows neither a point nor an exponent. -/
structure NumberText.Lawful (std : NumberText) : Prop where
  numeral : ∀ v : Double, v.isFinite = true → Rfc8259.Number (std.toText v)
  reads : ∀ v : Double, v.isFinite = true → v ≠ .minusZero → std.ofText (std.toText v) = v
  readsSuffixed : ∀ v : Double, v.isFinite = true → v ≠ .minusZero →
    (std.toText v).any Decimal.isRealMark = false → std.ofText (std.toText v ++ ['.', '0']) = v
  minusZero : std.ofText ['-', '0', '.', '0'] = .minusZero

/-! ## JSON.stringify -/

/-- A value that is printed; `raw` is one of `JSON.rawJSON`. -/
inductive Outgoing where
  | null
  | bool (b : Bool)
  | raw (token : List Char)
  | string (s : JsString)
  | array (items : List Outgoing)
  | object (members : List (JsString × Outgoing))

def hexUnit (n : Nat) : UInt16 := UInt16.ofNat (if n < 10 then 0x30 + n else 0x57 + n)

/-- The escape `\u` of a unit. -/
def unicodeEscape (u : UInt16) : JsString :=
  [0x5C, 0x75, hexUnit (u.toNat / 0x1000), hexUnit (u.toNat / 0x100 % 0x10),
    hexUnit (u.toNat / 0x10 % 0x10), hexUnit (u.toNat % 0x10)]

/-- A unit that is no half of a pair. -/
def quoteUnit (u : UInt16) : JsString :=
  if u = 0x22 then [0x5C, 0x22]
  else if u = 0x5C then [0x5C, 0x5C]
  else if u = 0x08 then [0x5C, 0x62]
  else if u = 0x0C then [0x5C, 0x66]
  else if u = 0x0A then [0x5C, 0x6E]
  else if u = 0x0D then [0x5C, 0x72]
  else if u = 0x09 then [0x5C, 0x74]
  else if u.toNat < 0x20 || isHigh u || isLow u then unicodeEscape u
  else [u]

def quoteUnits : JsString → JsString
  | [] => []
  | [u] => quoteUnit u
  | u :: v :: rest =>
      if isHigh u && isLow v then u :: v :: quoteUnits rest else quoteUnit u ++ quoteUnits (v :: rest)

def quote (s : JsString) : JsString := 0x22 :: (quoteUnits s ++ [0x22])

/-- The units of a text of ASCII characters. -/
def ascii (cs : List Char) : JsString := cs.map fun c => UInt16.ofNat c.toNat

mutual

def print : Outgoing → JsString
  | .null => ascii ['n', 'u', 'l', 'l']
  | .bool b => ascii (if b then ['t', 'r', 'u', 'e'] else ['f', 'a', 'l', 's', 'e'])
  | .raw token => ascii token
  | .string s => quote s
  | .array items => 0x5B :: (printItems items ++ [0x5D])
  | .object members => 0x7B :: (printMembers members ++ [0x7D])

def printItems : List Outgoing → JsString
  | [] => []
  | [v] => print v
  | v :: rest => print v ++ 0x2C :: printItems rest

def printMembers : List (JsString × Outgoing) → JsString
  | [] => []
  | [(key, v)] => quote key ++ 0x3A :: print v
  | (key, v) :: rest => quote key ++ 0x3A :: (print v ++ 0x2C :: printMembers rest)

end

/-! ## TextEncoder -/

/-- `new TextEncoder().encode(text)`: a lone surrogate becomes U+FFFD. -/
def encodeText (text : JsString) : List UInt8 := Utf8.encode (characters text)

/-! ## Parameters -/

/-- A parameter; callers that are not type-checked may pass a boolean or a value of
another type. -/
inductive ParamValue where
  | null
  | bool (b : Bool)
  | bigint (n : Int)
  | number (v : Double)
  | string (s : JsString)
  | bytes (b : List UInt8)
  | other (typeName : JsString)
  deriving DecidableEq

def realToken (std : NumberText) (v : Double) : List Char :=
  let s := if v = .minusZero then ['-', '0'] else std.toText v
  if s.any Decimal.isRealMark then s else s ++ ['.', '0']

/-- `Buffer.from(v).toString("base64")`. -/
def base64 (b : List UInt8) : JsString := (Base64.encode b).map UInt16.ofNat

def encodeValue (std : NumberText) : ParamValue → Except JsError Outgoing
  | .null => .ok .null
  | .bool b =>
      .error (.typeError (lit ("bool is not a supported param type (got " ++ toString b ++ ")")))
  | .bigint n =>
      if n < -2 ^ 63 ∨ n > 2 ^ 63 - 1 then
        .error (.rangeError (lit ("bigint param out of int64 range: " ++ toString n)))
      else .ok (.raw (toString n).toList)
  | .number v =>
      if !v.isFinite then
        .error (.rangeError (lit "REAL param must be finite (san-db-ox rejects NaN/Inf in params): " ++
          ascii (std.toText v)))
      else .ok (.raw (realToken std v))
  | .string s => .ok (.string s)
  | .bytes b => .ok (.array [.string (base64 b)])
  | .other typeName =>
      .error (.typeError (lit "unsupported param type " ++ typeName ++
        lit " (want null, bigint, number, string, or Uint8Array)"))

/-- The error of one parameter under its index. -/
def JsError.atParam (i : Nat) : JsError → JsError
  | .typeError m => .typeError (lit ("params[" ++ toString i ++ "]: ") ++ m)
  | .rangeError m => .rangeError (lit ("params[" ++ toString i ++ "]: ") ++ m)
  | e => e

/-- The loop of `encodeParams`, from index `i` on. -/
def encodeItems (std : NumberText) : Nat → List ParamValue → Except JsError (List Outgoing)
  | _, [] => .ok []
  | i, v :: rest => do
      let item ← (encodeValue std v).mapError (.atParam i)
      let items ← encodeItems std (i + 1) rest
      .ok (item :: items)

def encodeParams (std : NumberText) (params : List ParamValue) :
    Except JsError (Option (List Outgoing)) :=
  if params.isEmpty then .ok none
  else do
    let encoded ← encodeItems std 0 params
    .ok (some encoded)

/-! ## Requests -/

structure SnapshotOptions where
  filename : Option JsString
  sqlite : Option Bool
  timestamp : Option Bool
  deriving DecidableEq

inductive Request where
  | query (sql : JsString) (params : List ParamValue)
  | exec (sql : JsString) (params : List ParamValue)
  | snapshot (options : SnapshotOptions)
  | load (path : JsString)
  | inspect
  | tables
  | schema (table : Option JsString)
  | dump (pattern : Option JsString)
  | overwrite
  | close
  deriving DecidableEq

abbrev Record := List (JsString × Outgoing)

def opField (op : String) : JsString × Outgoing := (lit "op", .string (lit op))

/-- `if (text) req.key = text`: an empty text counts as absent. -/
def textField (key : String) : Option JsString → Record
  | none => []
  | some s => if s = [] then [] else [(lit key, .string s)]

/-- `if (flag) req.key = flag`. -/
def flagField (key : String) (on : Option Bool) : Record :=
  if on = some true then [(lit key, .bool true)] else []

/-- The record of `query` and `exec`. -/
def sqlRecord (std : NumberText) (op : String) (sql : JsString) (params : List ParamValue) :
    Except JsError Record := do
  let encoded ← encodeParams std params
  .ok ([opField op, (lit "sql", .string sql)] ++
    (encoded.map fun items => (lit "params", .array items)).toList)

def Request.record (std : NumberText) : Request → Except JsError Record
  | .query sql params => sqlRecord std "query" sql params
  | .exec sql params => sqlRecord std "exec" sql params
  | .snapshot options =>
      .ok ([opField "snapshot"] ++ textField "filename" options.filename ++
        flagField "sqlite" options.sqlite ++ flagField "timestamp" options.timestamp)
  | .load path => .ok [opField "load", (lit "path", .string path)]
  | .inspect => .ok [opField "inspect"]
  | .tables => .ok [opField "tables"]
  | .schema table => .ok ([opField "schema"] ++ textField "table" table)
  | .dump pattern => .ok ([opField "dump"] ++ textField "pattern" pattern)
  | .overwrite => .ok [opField "overwrite"]
  | .close => .ok [opField "close"]

def encodeRequestLine (req : Record) : List UInt8 := encodeText (print (.object req) ++ [0x0A])

/-- The bytes that a request writes; one that cannot be encoded writes none. -/
def Request.line (std : NumberText) (req : Request) : Except JsError (List UInt8) := do
  let record ← req.record std
  .ok (encodeRequestLine record)

end SanDbOxFormal.TypeScript
