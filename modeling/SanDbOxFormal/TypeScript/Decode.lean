import SanDbOxFormal.TypeScript.Json

/-!
# Decoding responses in TypeScript

`decodeResponseLine`, `decodeValue`, `decodeRows` and the decoders of `codec.ts`, with
the texts of their errors.
-/

namespace SanDbOxFormal.TypeScript

open SanDbOxFormal.Library

/-- A value as it comes out of a response. -/
inductive Value where
  | null
  | bigint (n : Int)
  | number (token : JsString)
  | string (s : JsString)
  | bytes (bytes : List UInt8)
  deriving DecidableEq

inductive Result where
  | query (columns : List JsString) (rows : List (List Value))
  | exec (rowsAffected lastInsertId : Int)
  | snapshot (path : JsString)
  | inspect (hasData : Bool) (version dataLength : Option Int) (source : JsString)
      (readOnly : Bool)
  | tables (tables : List JsString)
  | schema (schema : List JsString)
  | dump (sql : JsString)
  deriving DecidableEq

/-! ## Lines -/

structure Response where
  ok : Bool
  fields : Fields
  error : Option JsError

/-- Whether a response is a success, and its error if it holds one. -/
def envelope (fields : Fields) : Response :=
  match property fields (lit "ok") with
  | some (.bool true) => ⟨true, fields, none⟩
  | _ =>
      match property fields (lit "error") with
      | some (.object error) =>
          match property error (lit "code"), property error (lit "message") with
          | some (.string code), some (.string message) =>
              ⟨false, fields, some (.response code message)⟩
          | _, _ => ⟨false, fields, none⟩
      | _ => ⟨false, fields, none⟩

/-- `decodeResponseLine` behind the decoding of the bytes. -/
def decodeResponseText (rt : Runtime) (text : JsString) : Except JsError Response :=
  match parseJsonPreservingNumbers rt text with
  | .error (.protocol m) => .error (.protocol m)
  | .error e => .error (.protocol (lit "invalid response line: " ++ e.message))
  | .ok (.object fields) => .ok (envelope fields)
  | .ok _ => .error (.protocol (lit "response line is not a JSON object: " ++ text))

def decodeResponseLine (rt : Runtime) (line : List UInt8) : Except JsError Response := do
  let text ← decodeText line
  decodeResponseText rt text

theorem envelope_fields (fields : Fields) : (envelope fields).fields = fields := by
  unfold envelope
  split
  · rfl
  · split
    · split
      · rfl
      · rfl
    · rfl

/-! ## Values -/

def sextet? (u : UInt16) : Option Nat :=
  if 0x41 ≤ u && u ≤ 0x5A then some (u.toNat - 0x41)
  else if 0x61 ≤ u && u ≤ 0x7A then some (u.toNat - 0x61 + 26)
  else if 0x30 ≤ u && u ≤ 0x39 then some (u.toNat - 0x30 + 52)
  else if u = 0x2B then some 62
  else if u = 0x2F then some 63
  else none

/-- A text that `BASE64_RE` matches, and the bytes that `Buffer.from` makes of it. -/
def base64? : JsString → Option (List UInt8)
  | [] => some []
  | a :: b :: c :: d :: rest => do
      let a ← sextet? a
      let b ← sextet? b
      if rest = [] ∧ d = 0x3D then
        if c = 0x3D then some [UInt8.ofNat (a * 4 + b / 16)]
        else do
          let c ← sextet? c
          some [UInt8.ofNat (a * 4 + b / 16), UInt8.ofNat (b % 16 * 16 + c / 4)]
      else do
        let c ← sextet? c
        let d ← sextet? d
        let more ← base64? rest
        some ([UInt8.ofNat (a * 4 + b / 16), UInt8.ofNat (b % 16 * 16 + c / 4),
          UInt8.ofNat (c % 4 * 64 + d)] ++ more)
  | _ => none

/-- How many turns the group of `BASE64_RE` takes at the beginning of a text. -/
def base64Groups : JsString → Nat
  | a :: b :: c :: d :: rest =>
      if [a, b, c, d].all fun u => (sextet? u).isSome then base64Groups rest + 1 else 0
  | _ => 0

def decodeBase64Strict (rt : Runtime) (s : JsString) : Except JsError (List UInt8) :=
  if rt.regExpGroups < base64Groups s then .error stackOverflow
  else
    match base64? s with
    | some bytes => .ok bytes
    | none => .error (.protocol (lit "invalid BLOB base64: " ++ s))

def decodeValue (rt : Runtime) : JsValue → Except JsError Value
  | .null => .ok .null
  | .bool b => .error (.protocol (lit ("unexpected boolean value in response: " ++ toString b)))
  | .bigint n => .ok (.bigint n)
  | .number token => .ok (.number token)
  | .string s => .ok (.string s)
  | .array [.string s] => .bytes <$> decodeBase64Strict rt s
  | .array items => do
      let text ← stringify rt (.array items)
      .error (.protocol
        (lit "protocol violation: BLOB array must have exactly 1 string element, got " ++ text))
  | .object _ => .error (.protocol (lit "unexpected value type in response: object"))

/-- One turn of the loop of `decodeRows`. -/
def decodeRow (rt : Runtime) (i : Nat) : JsValue → Except JsError (List Value)
  | .array cells =>
      (cells.mapM (decodeValue rt)).mapError fun
        | .protocol m => .protocol (lit ("rows[" ++ toString i ++ "]: ") ++ m)
        | e => e
  | row => do
      let text ← stringify rt row
      .error (.protocol (lit ("rows[" ++ toString i ++ "] is not an array: ") ++ text))

def decodeRowsFrom (rt : Runtime) : Nat → List JsValue → Except JsError (List (List Value))
  | _, [] => .ok []
  | i, row :: rest => do
      let row ← decodeRow rt i row
      let rest ← decodeRowsFrom rt (i + 1) rest
      .ok (row :: rest)

def decodeRows (rt : Runtime) : JsValue → Except JsError (List (List Value))
  | .array rows => decodeRowsFrom rt 0 rows
  | raw => do
      let text ← stringify rt raw
      .error (.protocol (lit "rows field is not an array: " ++ text))

/-! ## Fields -/

def required (fields : Fields) (key : String) : Except JsError JsValue :=
  match property fields (lit key) with
  | some v => .ok v
  | none => .error (.protocol (lit ("response missing field '" ++ key ++ "'")))

/-- A field that must be there and be of one kind; what it is instead is printed. -/
def requiredAs {β : Type} (accept : JsValue → Option β) (kind : String) (rt : Runtime)
    (fields : Fields) (key : String) : Except JsError β := do
  let v ← required fields key
  match accept v with
  | some b => .ok b
  | none => do
      let text ← stringify rt v
      .error (.protocol (lit ("response field '" ++ key ++ "' is not " ++ kind ++ ": ") ++ text))

def asString : JsValue → Option JsString
  | .string s => some s
  | _ => none

def asBool : JsValue → Option Bool
  | .bool b => some b
  | _ => none

def asBigInt : JsValue → Option Int
  | .bigint n => some n
  | _ => none

def asOptionalBigInt : JsValue → Option (Option Int)
  | .null => some none
  | .bigint n => some (some n)
  | _ => none

def asStringArray : JsValue → Option (List JsString)
  | .array items => items.mapM asString
  | _ => none

def requiredStr : Runtime → Fields → String → Except JsError JsString :=
  requiredAs asString "a string"

def requiredBool : Runtime → Fields → String → Except JsError Bool := requiredAs asBool "a bool"

def requiredBigInt : Runtime → Fields → String → Except JsError Int :=
  requiredAs asBigInt "an integer"

def requiredOptionalBigInt : Runtime → Fields → String → Except JsError (Option Int) :=
  requiredAs asOptionalBigInt "an integer or null"

def requiredStrArray : Runtime → Fields → String → Except JsError (List JsString) :=
  requiredAs asStringArray "a string array"

/-! ## Responses -/

def decodeQueryResponse (rt : Runtime) (fields : Fields) : Except JsError Result := do
  let columns ← requiredStrArray rt fields "columns"
  let rows ← decodeRows rt (← required fields "rows")
  .ok (.query columns rows)

def decodeExecResponse (rt : Runtime) (fields : Fields) : Except JsError Result := do
  let rowsAffected ← requiredBigInt rt fields "rows_affected"
  let lastInsertId ← requiredBigInt rt fields "last_insert_id"
  .ok (.exec rowsAffected lastInsertId)

def decodeSnapshotResponse (rt : Runtime) (fields : Fields) : Except JsError Result := do
  let path ← requiredStr rt fields "path"
  .ok (.snapshot path)

def decodeInspectResponse (rt : Runtime) (fields : Fields) : Except JsError Result := do
  let hasData ← requiredBool rt fields "has_data"
  let version ← requiredOptionalBigInt rt fields "version"
  let dataLength ← requiredOptionalBigInt rt fields "data_length"
  let source ← requiredStr rt fields "source"
  let readOnly ← requiredBool rt fields "read_only"
  .ok (.inspect hasData version dataLength source readOnly)

def decodeTablesResponse (rt : Runtime) (fields : Fields) : Except JsError Result := do
  let tables ← requiredStrArray rt fields "tables"
  .ok (.tables tables)

def decodeSchemaResponse (rt : Runtime) (fields : Fields) : Except JsError Result := do
  let schema ← requiredStrArray rt fields "schema"
  .ok (.schema schema)

def decodeDumpResponse (rt : Runtime) (fields : Fields) : Except JsError Result := do
  let sql ← requiredStr rt fields "sql"
  .ok (.dump sql)

inductive Decoder where
  | query
  | exec
  | snapshot
  | inspect
  | tables
  | schema
  | dump
  deriving DecidableEq

def Decoder.decode : Decoder → Runtime → Fields → Except JsError Result
  | query => decodeQueryResponse
  | exec => decodeExecResponse
  | snapshot => decodeSnapshotResponse
  | inspect => decodeInspectResponse
  | tables => decodeTablesResponse
  | schema => decodeSchemaResponse
  | dump => decodeDumpResponse

/-- A response line and one of the decoders on its fields. -/
def decodeLine (rt : Runtime) (decoder : Decoder) (line : List UInt8) : Except JsError Result := do
  let response ← decodeResponseLine rt line
  decoder.decode rt response.fields

end SanDbOxFormal.TypeScript
