import SanDbOxFormal.Python.Json

/-!
# Decoding in Python

The decoding half of `_codec.py`: the hello, response lines, values, rows and the
decoders, with the texts of their errors.
-/

namespace SanDbOxFormal.Python

open SanDbOxFormal.Library

/-- The fields of a hello, whose types are not checked. -/
structure Hello where
  protocol : PyValue
  version : PyValue
  product : PyValue

/-- `except ValueError as e: raise ProtocolError(...) from e`. -/
def reraise (prefixed : PyStr) (e : PyError) : PyError :=
  if e.isValueError then .protocolError (prefixed ++ e.message) else e

/-! ## Lines -/

/-- The text shows the line, which is bytes and so never a matter of depth. -/
def notAnObject (what : String) (shown : PyStr) : PyError :=
  .protocolError (lit (what ++ " line is not a JSON object: ") ++ shown)

def missingField (key : String) : PyError := .protocolError (lit ("hello line missing field '" ++ key ++ "'"))

def helloField (d : Dict) (key : String) : Except PyError PyValue :=
  match lookup d (lit key) with
  | some v => .ok v
  | none => .error (missingField key)

/-- `decode_hello`; `shown` is what `repr` prints for the line. -/
def decodeHello (rt : Runtime) (shown : List UInt8 → PyStr) (line : List UInt8) :
    Except PyError Hello := do
  let obj ← (loads rt false line).mapError (reraise (lit "invalid hello line: "))
  match obj with
  | .dict d => do
      let protocol ← helloField d "protocol"
      let version ← helloField d "version"
      let product ← helloField d "product"
      .ok ⟨protocol, version, product⟩
  | _ => .error (notAnObject "hello" (shown line))

structure Response where
  ok : Bool
  fields : Dict
  error : Option PyError

/-- The envelope of a response: its error is made of whatever `code` and `message` are. -/
def envelope (rt : Runtime) (fields : Dict) : Except PyError Response :=
  match lookup fields (lit "ok") with
  | some (.bool true) => .ok ⟨true, fields, none⟩
  | _ =>
      match lookup fields (lit "error") with
      | some (.dict error) =>
          match lookup error (lit "code"), lookup error (lit "message") with
          | some code, some message => do
              let code ← str rt code
              let message ← str rt message
              .ok ⟨false, fields, some (.responseError code message)⟩
          | _, _ => .ok ⟨false, fields, none⟩
      | _ => .ok ⟨false, fields, none⟩

def decodeResponseLine (rt : Runtime) (shown : List UInt8 → PyStr) (line : List UInt8) :
    Except PyError Response := do
  let obj ← (loads rt true line).mapError (reraise (lit "invalid response line: "))
  match obj with
  | .dict fields => envelope rt fields
  | _ => .error (notAnObject "response" (shown line))

/-! ## Values -/

/-- `base64.b64decode(s, validate=True)`. -/
def b64decode (rt : Runtime) (s : PyStr) : Except PyError (List UInt8) :=
  if s.all (· < 0x80) then (rt.a2b (s.map UInt8.ofNat)).mapError .binasciiError
  else .error (.valueError (lit "string argument should contain only ASCII characters"))

/-- `except binascii.Error as e`. -/
def invalidBlob : PyError → PyError
  | .binasciiError m => .protocolError (lit "invalid BLOB base64: " ++ m)
  | e => e

/-- A value as it comes out of a response; a BLOB is a `bytes`. -/
inductive Cell where
  | plain (v : PyValue)
  | bytes (b : List UInt8)

def decodeValue (rt : Runtime) : PyValue → Except PyError Cell
  | .none => .ok (.plain .none)
  | .bool b =>
      .error (.protocolError (lit ("unexpected boolean value in response: " ++
        if b then "True" else "False")))
  | .int n => .ok (.plain (.int n))
  | .float token => .ok (.plain (.float token))
  | .str s => .ok (.plain (.str s))
  | .list [.str s] => .bytes <$> (b64decode rt s).mapError invalidBlob
  | .list items => do
      let text ← repr rt (.list items)
      .error (.protocolError
        (lit "protocol violation: BLOB array must have exactly 1 string element, got " ++ text))
  | .dict _ => .error (.protocolError (lit "unexpected value type in response: dict"))

/-- One turn of the loop of `decode_rows`. -/
def decodeRow (rt : Runtime) (i : Nat) : PyValue → Except PyError (List Cell)
  | .list row =>
      (row.mapM (decodeValue rt)).mapError fun
        | .protocolError m => .protocolError (lit ("rows[" ++ toString i ++ "]: ") ++ m)
        | e => e
  | row => do
      let text ← repr rt row
      .error (.protocolError (lit ("rows[" ++ toString i ++ "] is not an array: ") ++ text))

def decodeRowsFrom (rt : Runtime) : Nat → List PyValue → Except PyError (List (List Cell))
  | _, [] => .ok []
  | i, row :: rest => do
      let row ← decodeRow rt i row
      let rest ← decodeRowsFrom rt (i + 1) rest
      .ok (row :: rest)

def decodeRows (rt : Runtime) : PyValue → Except PyError (List (List Cell))
  | .list rows => decodeRowsFrom rt 0 rows
  | raw => do
      let text ← repr rt raw
      .error (.protocolError (lit "rows field is not an array: " ++ text))

/-! ## Fields -/

/-- `_required`. -/
def required (fields : Dict) (key : String) : Except PyError PyValue :=
  match lookup fields (lit key) with
  | some v => .ok v
  | none => .error (.protocolError (lit ("response missing field '" ++ key ++ "'")))

/-- A field that must be there and be of one kind; what it is instead is printed. -/
def requiredAs {β : Type} (accept : PyValue → Option β) (kind : String) (rt : Runtime)
    (fields : Dict) (key : String) : Except PyError β :=
  required fields key >>= fun v => match accept v with
    | some b => .ok b
    | none => do
        let text ← repr rt v
        .error (.protocolError (lit ("response field '" ++ key ++ "' is not " ++ kind ++ ": ") ++ text))

def asStr : PyValue → Option PyStr
  | .str s => some s
  | _ => none

def asBool : PyValue → Option Bool
  | .bool b => some b
  | _ => none

def asInt : PyValue → Option Int
  | .int n => some n
  | _ => none

def asOptionalInt : PyValue → Option (Option Int)
  | .none => some none
  | .int n => some (some n)
  | _ => none

def asStrList : PyValue → Option (List PyStr)
  | .list items => items.mapM asStr
  | _ => none

/-- `_required_str`. -/
def requiredStr : Runtime → Dict → String → Except PyError PyStr := requiredAs asStr "a string"

/-- `_required_bool`. -/
def requiredBool : Runtime → Dict → String → Except PyError Bool := requiredAs asBool "a bool"

/-- `_required_int`. -/
def requiredInt : Runtime → Dict → String → Except PyError Int := requiredAs asInt "an integer"

/-- `_required_optional_int`. -/
def requiredOptionalInt : Runtime → Dict → String → Except PyError (Option Int) :=
  requiredAs asOptionalInt "an integer or null"

/-- `_required_str_list`. -/
def requiredStrList : Runtime → Dict → String → Except PyError (List PyStr) :=
  requiredAs asStrList "a string array"

/-! ## Responses -/

/-- What the decoders of `_codec.py` return. -/
inductive Decoded where
  | query (columns : List PyStr) (rows : List (List Cell))
  | exec (rowsAffected lastInsertId : Int)
  | snapshot (path : PyStr)
  | inspect (hasData : Bool) (version dataLength : Option Int) (source : PyStr) (readOnly : Bool)
  | tables (tables : List PyStr)
  | schema (schema : List PyStr)
  | dump (sql : PyStr)

def decodeQueryResponse (rt : Runtime) (fields : Dict) : Except PyError Decoded := do
  let columns ← requiredStrList rt fields "columns"
  let rows ← decodeRows rt (← required fields "rows")
  .ok (.query columns rows)

def decodeExecResponse (rt : Runtime) (fields : Dict) : Except PyError Decoded := do
  let rowsAffected ← requiredInt rt fields "rows_affected"
  let lastInsertId ← requiredInt rt fields "last_insert_id"
  .ok (.exec rowsAffected lastInsertId)

def decodeSnapshotResponse (rt : Runtime) (fields : Dict) : Except PyError Decoded := do
  let path ← requiredStr rt fields "path"
  .ok (.snapshot path)

def decodeInspectResponse (rt : Runtime) (fields : Dict) : Except PyError Decoded := do
  let hasData ← requiredBool rt fields "has_data"
  let version ← requiredOptionalInt rt fields "version"
  let dataLength ← requiredOptionalInt rt fields "data_length"
  let source ← requiredStr rt fields "source"
  let readOnly ← requiredBool rt fields "read_only"
  .ok (.inspect hasData version dataLength source readOnly)

def decodeTablesResponse (rt : Runtime) (fields : Dict) : Except PyError Decoded := do
  let tables ← requiredStrList rt fields "tables"
  .ok (.tables tables)

def decodeSchemaResponse (rt : Runtime) (fields : Dict) : Except PyError Decoded := do
  let schema ← requiredStrList rt fields "schema"
  .ok (.schema schema)

def decodeDumpResponse (rt : Runtime) (fields : Dict) : Except PyError Decoded := do
  let sql ← requiredStr rt fields "sql"
  .ok (.dump sql)

inductive Decoder where
  | query
  | exec
  | snapshot
  | inspect
  | tables
  | schema
  | dump
  deriving DecidableEq

def Decoder.decode : Decoder → Runtime → Dict → Except PyError Decoded
  | query => decodeQueryResponse
  | exec => decodeExecResponse
  | snapshot => decodeSnapshotResponse
  | inspect => decodeInspectResponse
  | tables => decodeTablesResponse
  | schema => decodeSchemaResponse
  | dump => decodeDumpResponse

/-- A response line and one of the decoders on its fields. -/
def decodeLine (rt : Runtime) (shown : List UInt8 → PyStr) (decoder : Decoder)
    (line : List UInt8) : Except PyError Decoded := do
  let response ← decodeResponseLine rt shown line
  decoder.decode rt response.fields

end SanDbOxFormal.Python
