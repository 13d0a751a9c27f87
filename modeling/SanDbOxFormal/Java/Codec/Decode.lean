import SanDbOxFormal.Java.Bytes
import SanDbOxFormal.Java.Codec.JsonParserReads
import SanDbOxFormal.Library.Decimal

/-!
# Decoding in the Java driver

`Decode`, `NumberToken` and `B64`: the hello line, a response line, and the results of
the operations.  What the JDK makes of bytes that are no UTF-8 and of the token of a
`double`, and how deep its stack is, are parameters.
-/

namespace SanDbOxFormal.Java.Codec

open SanDbOxFormal.Library
open SanDbOxFormal.Java.Codec.JsonParser (Stop)

/-- The JDK on the way in. -/
structure Jvm where
  /-- `new String(bytes, StandardCharsets.UTF_8)`. -/
  newString : List UInt8 → JString
  parseDouble : JString → Double
  /-- The message of `Base64.getDecoder().decode(s)` where it throws. -/
  base64Fault : JString → JString
  /-- How deep the parser may nest. -/
  stack : ℕ

/-- A text is decoded to its units, and where the bytes are no text a U+FFFD is put in. -/
structure Jvm.Lawful (jvm : Jvm) : Prop where
  whole : ∀ cs : List Char, jvm.newString (Utf8.encode cs) = Utf16.encode cs
  replaced : ∀ bytes, (∀ cs : List Char, bytes ≠ Utf8.encode cs) → 0xFFFD ∈ jvm.newString bytes

/-- `throw new CodecException(message)` where there is nothing. -/
def orCodec {α : Type} (o : Option α) (message : JString) : Except Stop α :=
  match o with
  | some a => .ok a
  | none => .error (.codec message)

/-! ## NumberToken -/

namespace NumberToken

def isReal (raw : JString) : Bool := raw.any fun c => c = 0x2E || c = 0x65 || c = 0x45

/-- `Long.parseLong`, on a token of the parser. -/
def parseLong (raw : JString) : Option Int64 := do
  let n ← Decimal.parseInt? (raw.map fun c => Char.ofNat c.toNat)
  if -2 ^ 63 ≤ n ∧ n < 2 ^ 63 then some (.ofInt n) else none

def asLong (raw : JString) : Except Stop Int64 :=
  orCodec (parseLong raw) (lit "integer token out of range: " ++ raw)

end NumberToken

/-! ## B64 -/

namespace B64

def sextet? (u : UInt16) : Option ℕ :=
  if 0x41 ≤ u && u ≤ 0x5A then some (u.toNat - 0x41)
  else if 0x61 ≤ u && u ≤ 0x7A then some (u.toNat - 0x61 + 26)
  else if 0x30 ≤ u && u ≤ 0x39 then some (u.toNat - 0x30 + 52)
  else if u = 0x2B then some 62
  else if u = 0x2F then some 63
  else none

/-- `Base64.getDecoder().decode(s)` where the length is a multiple of four.  Bits behind
the last byte are dropped. -/
def decode? : JString → Option (List UInt8)
  | [] => some []
  | a :: b :: c :: d :: rest => do
      let a ← sextet? a
      let b ← sextet? b
      if rest = [] ∧ d = 0x3D then
        if c = 0x3D then some [UInt8.ofNat (a * 4 + b / 16)]
        else do
          let c ← sextet? c
          some [UInt8.ofNat (a * 4 + b / 16), UInt8.ofNat (b % 16 * 16 + c / 4)]
      else do
        let c ← sextet? c
        let d ← sextet? d
        let more ← decode? rest
        some ([UInt8.ofNat (a * 4 + b / 16), UInt8.ofNat (b % 16 * 16 + c / 4), UInt8.ofNat (c % 4 * 64 + d)] ++ more)
  | _ => none

def decode (jvm : Jvm) (s : JString) : Except Stop (List UInt8) :=
  if s.length % 4 ≠ 0 then
    .error (.codec (lit "invalid base64: length " ++ lit (toString s.length) ++ lit " is not a multiple of 4"))
  else orCodec (decode? s) (lit "invalid base64: " ++ jvm.base64Fault s)

end B64

/-! ## The tree -/

/-- The first member under a key. -/
def get (v : Json) (key : String) : Option Json :=
  match v with
  | .obj members => (members.find? fun m => m.1 == lit key).map Prod.snd
  | _ => none

def asBool : Json → Option Bool
  | .bool b => some b
  | _ => none

def asStr : Json → Option JString
  | .str s => some s
  | _ => none

def asNum : Json → Option JString
  | .num raw => some raw
  | _ => none

def asArr : Json → Option (List Json)
  | .arr items => some items
  | _ => none

def isObj : Json → Bool
  | .obj _ => true
  | _ => false

/-- The message of a check on one field. -/
def fieldText (before key after : String) : JString := lit before ++ lit "\"" ++ lit key ++ lit "\"" ++ lit after

def required (v : Json) (key : String) : Except Stop Json :=
  orCodec (get v key) (fieldText "response missing field " key "")

def requiredStr (v : Json) (key : String) : Except Stop JString := do
  let field ← required v key
  orCodec (asStr field) (fieldText "response field " key " is not a string")

def requiredBool (v : Json) (key : String) : Except Stop Bool := do
  let field ← required v key
  orCodec (asBool field) (fieldText "response field " key " is not a bool")

def requiredInt (v : Json) (key : String) : Except Stop Int64 := do
  let field ← required v key
  let raw ← orCodec (asNum field) (fieldText "response field " key " is not an integer")
  NumberToken.asLong raw

def requiredOptionalLong (v : Json) (key : String) : Except Stop (Option Int64) := do
  let field ← required v key
  match field with
  | .null => .ok none
  | .num raw => some <$> NumberToken.asLong raw
  | _ => .error (.codec (fieldText "response field " key " is not an integer or null"))

def requiredStrList (v : Json) (key : String) : Except Stop (List JString) := do
  let field ← required v key
  let items ← orCodec (asArr field) (fieldText "response field " key " is not an array")
  items.mapM fun item => orCodec (asStr item) (fieldText "response field " key " is not a string array")

/-! ## Values -/

/-- What a cell is decoded to. -/
inductive Value where
  | null
  | long (v : Int64)
  | double (v : Double)
  | string (v : JString)
  | bytes (v : List UInt8)
  deriving DecidableEq

def decodeValue (jvm : Jvm) : Json → Except Stop Value
  | .null => .ok .null
  | .bool b => .error (.codec (lit "unexpected boolean value in response: " ++ lit (toString b)))
  | .num raw =>
      if NumberToken.isReal raw then .ok (.double (jvm.parseDouble raw)) else .long <$> NumberToken.asLong raw
  | .str s => .ok (.string s)
  | .arr items =>
      if items.length ≠ 1 then
        .error (.codec (lit "protocol violation: BLOB array must have exactly 1 element, got " ++
          lit (toString items.length)))
      else do
        let s ← orCodec (items.head?.bind asStr) (lit "protocol violation: BLOB array element is not a string")
        .bytes <$> B64.decode jvm s
  | .obj _ => .error (.codec (lit "unexpected object value in response"))

/-- The `catch` of the loop of `decodeRows`. -/
def atRow (i : ℕ) : Stop → Stop
  | .codec m => .codec (lit "rows[" ++ lit (toString i) ++ lit "]: " ++ m)
  | other => other

def decodeRow (jvm : Jvm) (i : ℕ) (row : Json) : Except Stop (List Value) := do
  let cells ← orCodec (asArr row) (lit "rows[" ++ lit (toString i) ++ lit "] is not an array")
  cells.mapM fun cell => (decodeValue jvm cell).mapError (atRow i)

def decodeRowsFrom (jvm : Jvm) : ℕ → List Json → Except Stop (List (List Value))
  | _, [] => .ok []
  | i, row :: rest => do
      let decoded ← decodeRow jvm i row
      let rows ← decodeRowsFrom jvm (i + 1) rest
      .ok (decoded :: rows)

def decodeRows (jvm : Jvm) (raw : Json) : Except Stop (List (List Value)) := do
  let rows ← orCodec (asArr raw) (lit "rows field is not an array")
  decodeRowsFrom jvm 0 rows

/-! ## Lines -/

/-- The `catch` of `parseLine`. -/
def invalidLine (what : String) : Stop → Stop
  | .codec m => .codec (lit "invalid " ++ lit what ++ lit " line: " ++ m)
  | other => other

def parseLine (jvm : Jvm) (what : String) (line : List UInt8) : Except Stop Json :=
  (JsonParser.parse jvm.stack (jvm.newString line)).mapError (invalidLine what)

def requireObject (v : Json) (what : String) : Except Stop Unit :=
  if isObj v then .ok () else .error (.codec (lit what ++ lit " is not a JSON object"))

structure Hello where
  protocol : Int32
  version : JString
  product : JString
  deriving DecidableEq

/-- `Decode.hello`; the protocol is narrowed to an `int`. -/
def hello (jvm : Jvm) (line : List UInt8) : Except Stop Hello := do
  let v ← parseLine jvm "hello" line
  requireObject v "hello line"
  let protocol ← requiredInt v "protocol"
  let version ← requiredStr v "version"
  let product ← requiredStr v "product"
  .ok ⟨protocol.toInt32, version, product⟩

structure DecodedResponse where
  ok : Bool
  fields : Json

def responseLine (jvm : Jvm) (line : List UInt8) : Except Stop DecodedResponse := do
  let v ← parseLine jvm "response" line
  requireObject v "response line"
  .ok ⟨((get v "ok").bind asBool).getD false, v⟩

/-- `Decode.error`: the code and the message. -/
def responseError? (r : DecodedResponse) : Option (JString × JString) := do
  let err ← get r.fields "error"
  let code ← (get err "code").bind asStr
  let message ← (get err "message").bind asStr
  some (code, message)

/-! ## Results -/

inductive Result where
  | query (columns : List JString) (rows : List (List Value))
  | exec (rowsAffected lastInsertId : Int64)
  | snapshot (path : JString)
  | inspect (hasData : Bool) (version dataLength : Option Int64) (source : JString) (readOnly : Bool)
  | tables (tables : List JString)
  | schema (schema : List JString)
  | dump (sql : JString)
  deriving DecidableEq

namespace Decode

def query (jvm : Jvm) (r : DecodedResponse) : Except Stop Result := do
  let columns ← requiredStrList r.fields "columns"
  let raw ← required r.fields "rows"
  let rows ← decodeRows jvm raw
  .ok (.query columns rows)

def exec (r : DecodedResponse) : Except Stop Result := do
  let rowsAffected ← requiredInt r.fields "rows_affected"
  let lastInsertId ← requiredInt r.fields "last_insert_id"
  .ok (.exec rowsAffected lastInsertId)

def snapshot (r : DecodedResponse) : Except Stop Result := do
  let path ← requiredStr r.fields "path"
  .ok (.snapshot path)

def inspect (r : DecodedResponse) : Except Stop Result := do
  let hasData ← requiredBool r.fields "has_data"
  let version ← requiredOptionalLong r.fields "version"
  let dataLength ← requiredOptionalLong r.fields "data_length"
  let source ← requiredStr r.fields "source"
  let readOnly ← requiredBool r.fields "read_only"
  .ok (.inspect hasData version dataLength source readOnly)

def tables (r : DecodedResponse) : Except Stop Result := do
  let tables ← requiredStrList r.fields "tables"
  .ok (.tables tables)

def schema (r : DecodedResponse) : Except Stop Result := do
  let schema ← requiredStrList r.fields "schema"
  .ok (.schema schema)

def dump (r : DecodedResponse) : Except Stop Result := do
  let sql ← requiredStr r.fields "sql"
  .ok (.dump sql)

end Decode

end SanDbOxFormal.Java.Codec
