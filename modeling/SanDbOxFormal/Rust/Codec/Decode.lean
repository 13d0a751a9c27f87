import SanDbOxFormal.Rust.Codec.Encode

/-!
# Decoding

`codec/decode.rs`: one value, the hello line, a response line and the results of
the operations.  A decoder reads the fields in the order of the source, so the
first one that is missing or of the wrong kind names the error.
-/

namespace SanDbOxFormal.Rust.Codec

open SanDbOxFormal.Library
open SanDbOxFormal.Library.Rfc8259 (Json NumberToken)

namespace NumberToken

/-- A token with `.`, `e` or `E` is REAL; otherwise it is INTEGER. -/
def isReal (n : NumberToken) : Bool := n.raw.toList.any Decimal.isRealMark

def asI64? (n : NumberToken) : Option Int64 := i64Parse? n.raw

def asF64? (std : FloatText) (n : NumberToken) : Option F64 := std.parse n.raw

end NumberToken

/-- `ok_or_else` into a protocol error. -/
def orProtocol {α : Type} (o : Option α) (text : String) : Except Error α :=
  match o with
  | some a => .ok a
  | none => .error (.protocol text)

def decodeValue (std : FloatText) : Json → Except Error Value
  | .null => .ok .null
  | .bool b =>
      .error (.protocol ("unexpected boolean value in response: " ++ if b then "true" else "false"))
  | .number n =>
      if NumberToken.isReal n then do
        let f ← orProtocol (NumberToken.asF64? std n) ("invalid REAL token in response: " ++ n.raw)
        .ok (.real f)
      else do
        let i ← orProtocol (NumberToken.asI64? n)
          ("integer value out of int64 range in response: " ++ n.raw)
        .ok (.integer i)
  | .string s => .ok (.text s)
  | .array items =>
      if items.length ≠ 1 then
        .error (.protocol ("protocol violation: BLOB array must have exactly 1 element, got " ++
          toString items.length))
      else do
        let s ← orProtocol ((items.head?).bind Json.asStr?)
          "protocol violation: BLOB array element is not a string"
        match Base64.decode s with
        | .ok bytes => .ok (.blob bytes)
        | .error e => .error (.protocol ("invalid BLOB base64: " ++ e.text))
  | .object _ => .error (.protocol "unexpected object value in response")

/-! ## Rows -/

/-- The `map_err` of the loop of `decode_rows`. -/
def atRow (i : Nat) : Error → Error
  | .protocol m => .protocol ("rows[" ++ toString i ++ "]: " ++ m)
  | other => other

def decodeRow (std : FloatText) (i : Nat) (row : Json) : Except Error (List Value) := do
  let cells ← orProtocol (Json.asArray? row) ("rows[" ++ toString i ++ "] is not an array")
  cells.mapM fun v => (decodeValue std v).mapError (atRow i)

def decodeRowsFrom (std : FloatText) : Nat → List Json → Except Error (List (List Value))
  | _, [] => .ok []
  | i, row :: rest => do
      let decoded ← decodeRow std i row
      let rows ← decodeRowsFrom std (i + 1) rest
      .ok (decoded :: rows)

def decodeRows (std : FloatText) (raw : Json) : Except Error (List (List Value)) := do
  let rows ← orProtocol (Json.asArray? raw) "rows field is not an array"
  decodeRowsFrom std 0 rows

/-! ## Required fields -/

/-- The message of a check on one response field. -/
def fieldText (before key after : String) : String := before ++ "\"" ++ key ++ "\"" ++ after

def required (v : Json) (key : String) : Except Error Json :=
  orProtocol (Json.get? v key) (fieldText "response missing field " key "")

def requiredStr (v : Json) (key : String) : Except Error String := do
  let field ← required v key
  orProtocol (Json.asStr? field) (fieldText "response field " key " is not a string")

def requiredBool (v : Json) (key : String) : Except Error Bool := do
  let field ← required v key
  orProtocol (Json.asBool? field) (fieldText "response field " key " is not a bool")

def i64Field (key : String) (n : NumberToken) : Except Error Int64 :=
  orProtocol (NumberToken.asI64? n)
    (fieldText "response field " key (" is not a valid int64: " ++ n.raw))

def requiredInt (v : Json) (key : String) : Except Error Int64 := do
  let field ← required v key
  let n ← orProtocol (Json.asNumber? field) (fieldText "response field " key " is not an integer")
  i64Field key n

def requiredOptionalInt (v : Json) (key : String) : Except Error (Option Int64) := do
  let field ← required v key
  if Json.isNull field then .ok none
  else do
    let n ← orProtocol (Json.asNumber? field)
      (fieldText "response field " key " is not an integer or null")
    let i ← i64Field key n
    .ok (some i)

def requiredStrList (v : Json) (key : String) : Except Error (List String) := do
  let field ← required v key
  let items ← orProtocol (Json.asArray? field) (fieldText "response field " key " is not an array")
  items.mapM fun item =>
    orProtocol (Json.asStr? item) (fieldText "response field " key " is not a string array")

/-! ## Lines -/

/-- `json::parse(line).map_err(..)`; a parse that fails reports an error. -/
def parseLine (what : String) (line : List UInt8) : Except Error Json :=
  match parsed : Json.parse line with
  | .ok v => .ok v
  | .error stop =>
      .error (.protocol ("invalid " ++ what ++ " line: " ++
        (stop.report (Json.Parser.parse_reports parsed)).text))

structure Hello where
  protocol : Int64
  version : String
  product : String
  deriving DecidableEq

def decodeHello (line : List UInt8) : Except Error Hello := do
  let v ← parseLine "hello" line
  if (Json.asObject? v).isNone then .error (.protocol "hello line is not a JSON object")
  else do
    let protocol ← requiredInt v "protocol"
    let version ← requiredStr v "version"
    let product ← requiredStr v "product"
    .ok { protocol, version, product }

structure DecodedResponse where
  ok : Bool
  fields : Json

def decodeResponseLine (line : List UInt8) : Except Error DecodedResponse := do
  let v ← parseLine "response" line
  if (Json.asObject? v).isNone then .error (.protocol "response line is not a JSON object")
  else .ok { ok := ((Json.get? v "ok").bind Json.asBool?).getD false, fields := v }

/-- The error of a response, if it has a well-formed one. -/
def responseError? (fields : Json) : Option Error := do
  let err ← Json.get? fields "error"
  let code ← (Json.get? err "code").bind Json.asStr?
  let message ← (Json.get? err "message").bind Json.asStr?
  some (.response code message)

/-! ## Results of the operations -/

structure QueryResult where
  columns : List String
  rows : List (List Value)
  deriving DecidableEq

structure ExecResult where
  rowsAffected : Int64
  lastInsertId : Int64
  deriving DecidableEq

structure SnapshotResult where
  path : String
  deriving DecidableEq

structure InspectResult where
  hasData : Bool
  version : Option Int64
  dataLength : Option Int64
  source : String
  readOnly : Bool
  deriving DecidableEq

structure TablesResult where
  tables : List String
  deriving DecidableEq

structure SchemaResult where
  schema : List String
  deriving DecidableEq

structure DumpResult where
  sql : String
  deriving DecidableEq

def decodeQueryResponse (std : FloatText) (fields : Json) : Except Error QueryResult := do
  let columns ← requiredStrList fields "columns"
  let rows ← required fields "rows"
  let rows ← decodeRows std rows
  .ok { columns, rows }

def decodeExecResponse (fields : Json) : Except Error ExecResult := do
  let rowsAffected ← requiredInt fields "rows_affected"
  let lastInsertId ← requiredInt fields "last_insert_id"
  .ok { rowsAffected, lastInsertId }

def decodeSnapshotResponse (fields : Json) : Except Error SnapshotResult := do
  let path ← requiredStr fields "path"
  .ok { path }

def decodeInspectResponse (fields : Json) : Except Error InspectResult := do
  let hasData ← requiredBool fields "has_data"
  let version ← requiredOptionalInt fields "version"
  let dataLength ← requiredOptionalInt fields "data_length"
  let source ← requiredStr fields "source"
  let readOnly ← requiredBool fields "read_only"
  .ok { hasData, version, dataLength, source, readOnly }

def decodeTablesResponse (fields : Json) : Except Error TablesResult := do
  let tables ← requiredStrList fields "tables"
  .ok { tables }

def decodeSchemaResponse (fields : Json) : Except Error SchemaResult := do
  let schema ← requiredStrList fields "schema"
  .ok { schema }

def decodeDumpResponse (fields : Json) : Except Error DumpResult := do
  let sql ← requiredStr fields "sql"
  .ok { sql }

end SanDbOxFormal.Rust.Codec
