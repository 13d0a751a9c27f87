import SanDbOxFormal.Go.Value

/-!
# Lines from the server

`codec.go` and `response.go`, and what the end of `call` in `sandbox.go` makes of a
line.
-/

namespace SanDbOxFormal.Go

open SanDbOxFormal.Library

/-! ## The hello line -/

structure Hello where
  protocol : Int64
  version : GoString
  product : GoString
  deriving DecidableEq

namespace Hello

def zero : Hello := ⟨0, [], []⟩

def names : List String := ["protocol", "version", "product"]

def assign (h : Hello) (name : String) (v : RawMessage) : Except GoError Hello := do
  if name = "protocol" then
    let protocol ← assignInt h.protocol v
    .ok { h with protocol }
  else if name = "version" then
    let version ← assignString h.version v
    .ok { h with version }
  else do
    let product ← assignString h.product v
    .ok { h with product }

end Hello

def decodeHello (line : List UInt8) : Except GoError Hello :=
  (parse line >>= unmarshalStruct Hello.names Hello.assign Hello.zero).mapError
    (.wrap (lit "decoding hello line: "))

/-! ## The envelope -/

/-- The `Error` of a response. -/
structure ErrorObject where
  code : GoString
  message : GoString
  deriving DecidableEq

namespace ErrorObject

def zero : ErrorObject := ⟨[], []⟩

def names : List String := ["code", "message"]

def assign (e : ErrorObject) (name : String) (v : RawMessage) : Except GoError ErrorObject := do
  if name = "code" then
    let code ← assignString e.code v
    .ok { e with code }
  else do
    let message ← assignString e.message v
    .ok { e with message }

end ErrorObject

/-- What `DecodeResponseLine` returns beside an error. -/
structure ResponseLine where
  ok : Bool
  fields : Fields
  errResp : Option ErrorObject

/-- The flag of an envelope, which is off where it is missing. -/
def okField (fields : Fields) : Except GoError Bool :=
  match rawField fields "ok" with
  | some raw => (unmarshalBool raw).mapError (.wrap (lit "decoding response line's ok field: "))
  | none => .ok false

def decodeResponseLine (line : List UInt8) : Except GoError ResponseLine := do
  let fields ← (parse line >>= unmarshalFields).mapError (.wrap (lit "decoding response line: "))
  let ok ← okField fields
  if ok then .ok ⟨true, fields, none⟩
  else
    match rawField fields "error" with
    | some raw => do
        let e ← (unmarshalStruct ErrorObject.names ErrorObject.assign ErrorObject.zero raw).mapError
          (.wrap (lit "decoding response line's error field: "))
        .ok ⟨false, fields, some e⟩
    | none => .ok ⟨false, fields, none⟩

/-- The end of `call`: the fields of a success. -/
def callResult (line : List UInt8) : Except GoError Fields := do
  let r ← (decodeResponseLine line).mapError (.wrap (lit "sandbox: "))
  if r.ok then .ok r.fields
  else
    match r.errResp with
    | some e => .error (.response e.code e.message)
    | none => .error (.text (lit "sandbox: response has ok=false with no error field"))

/-! ## Fields -/

namespace Response

def decoding (name : String) : GoString := lit "decoding field " ++ quoted name ++ lit ": "

/-- A field that must be there. -/
def present (fields : Fields) (name : String) : Except GoError RawMessage :=
  match rawField fields name with
  | some raw => .ok raw
  | none => .error (.text (lit "response missing field " ++ quoted name))

def decodeField {α : Type} (unmarshal : RawMessage → Except GoError α) (fields : Fields)
    (name : String) : Except GoError α := do
  let raw ← present fields name
  (unmarshal raw).mapError (.wrap (decoding name))

def decodeString : Fields → String → Except GoError GoString := decodeField unmarshalString

def decodeStringSlice : Fields → String → Except GoError (List GoString) :=
  decodeField unmarshalStrings

def decodeBool : Fields → String → Except GoError Bool := decodeField unmarshalBool

/-- The number of a field: a `json.Number` that `ParseInt` takes. -/
def int64Of (name : String) (raw : RawMessage) : Except GoError Int64 := do
  let num ← (unmarshalNumber raw).mapError (.wrap (decoding name))
  (parseInt num).mapError (.wrap (lit "decoding field " ++ quoted name ++ lit " as int64: "))

def decodeInt64 (fields : Fields) (name : String) : Except GoError Int64 := do
  let raw ← present fields name
  int64Of name raw

def decodeNullableInt64 (fields : Fields) (name : String) : Except GoError (Option Int64) := do
  let raw ← present fields name
  match raw with
  | .null => .ok none
  | raw => do
      let n ← int64Of name raw
      .ok (some n)

end Response

/-! ## Replies -/

inductive Operation where
  | query
  | exec
  | snapshot
  | load
  | inspect
  | tables
  | schema
  | dump
  | overwrite
  deriving DecidableEq

inductive Reply where
  | query (columns : List GoString) (rows : List (List Any))
  | exec (rowsAffected lastInsertID : Int64)
  | snapshot (path : GoString)
  | inspect (hasData : Bool) (version dataLength : Option Int64) (source : GoString) (readOnly : Bool)
  | tables (tables : List GoString)
  | schema (schema : List GoString)
  | dump (sql : GoString)
  /-- Of an operation that only looks whether it succeeded. -/
  | done
  deriving DecidableEq

open Response in
/-- The decoders of `response.go`, by operation. -/
def decodeReply (std : Strconv) (fields : Fields) : Operation → Except GoError Reply
  | .query => do
      let cols ← decodeStringSlice fields "columns"
      let rawRows ← present fields "rows"
      let rows ← decodeRows std rawRows
      .ok (.query cols rows)
  | .exec => do
      let rowsAffected ← decodeInt64 fields "rows_affected"
      let lastInsertID ← decodeInt64 fields "last_insert_id"
      .ok (.exec rowsAffected lastInsertID)
  | .snapshot => do
      let path ← Response.decodeString fields "path"
      .ok (.snapshot path)
  | .inspect => do
      let hasData ← decodeBool fields "has_data"
      let version ← decodeNullableInt64 fields "version"
      let dataLength ← decodeNullableInt64 fields "data_length"
      let source ← Response.decodeString fields "source"
      let readOnly ← decodeBool fields "read_only"
      .ok (.inspect hasData version dataLength source readOnly)
  | .tables => do
      let tables ← decodeStringSlice fields "tables"
      .ok (.tables tables)
  | .schema => do
      let schema ← decodeStringSlice fields "schema"
      .ok (.schema schema)
  | .dump => do
      let sqlText ← Response.decodeString fields "sql"
      .ok (.dump sqlText)
  | .load | .overwrite => .ok .done

/-- What an operation returns for a line. -/
def receive (std : Strconv) (op : Operation) (line : List UInt8) : Except GoError Reply := do
  let fields ← callResult line
  (decodeReply std fields op).mapError (.wrap (lit "sandbox: "))

end SanDbOxFormal.Go
