import SanDbOxFormal.Rust.Request
import SanDbOxFormal.Rust.Transport.Basic

/-!
# Sessions

`session.rs` and the `overwrite` of `client.rs`: the hello check, the
call/response cycle, the operations over it, and `close`.  Every call takes the
session by `&mut`, so a run of a session is a sequence of whole operations.
-/

namespace SanDbOxFormal.Rust

open SanDbOxFormal.Library.Rfc8259 (Json)
open SanDbOxFormal.Rust.Codec

/-- `CLOSE_TIMEOUT`, five seconds in nanoseconds. -/
def closeTimeout : Nat := 5000000000

/-- The protocol version this driver speaks. -/
def protocolVersion : Int64 := 1

structure Session (τ : Type) where
  hello : Hello
  transport : τ
  defaultTimeout : Option Nat
  closed : Bool

/-- The result of an operation of either kind of client. -/
inductive Answer where
  | query (r : QueryResult)
  | exec (r : ExecResult)
  | snapshot (r : SnapshotResult)
  | load
  | inspect (r : InspectResult)
  | tables (r : TablesResult)
  | schema (r : SchemaResult)
  | dump (r : DumpResult)
  | overwrite
  | close
  | setTimeout
  deriving DecidableEq

/-- The fields of a response with `ok=true`, or the error that it carries. -/
def responseFields (line : List UInt8) : Except Error Json := do
  let resp ← decodeResponseLine line
  if resp.ok then .ok resp.fields
  else
    match responseError? resp.fields with
    | some e => .error e
    | none => .error (.protocol "response has ok=false with no error field")

namespace Session

variable {τ : Type} [Transport τ]

/-- The hello line, decoded and of the protocol this driver speaks. -/
def checkHello (line : List UInt8) : Except Error Hello := do
  let hello ← decodeHello line
  if hello.protocol = protocolVersion then .ok hello
  else
    .error (.protocol ("unsupported protocol " ++ i64ToString hello.protocol ++
      " (this driver speaks " ++ i64ToString protocolVersion ++ ")"))

/-- `Session::new`; on any failure the transport is closed. -/
def new (transport : τ) (timeout : Option Nat) : Exec (Except Error (Session τ) × τ) := do
  let (read, transport) ← Transport.readLine transport timeout
  match read >>= checkHello with
  | .ok hello =>
      .ok (.ok { hello, transport, defaultTimeout := timeout, closed := false }, transport)
  | .error e => do
      let transport ← Transport.close transport closeTimeout
      .ok (.error e, transport)

def setTimeout (s : Session τ) (t : Option Nat) : Session τ := { s with defaultTimeout := t }

/-- Only a timeout closes the session; every other failure leaves it as it is. -/
def call (s : Session τ) (fields : List (String × Json)) :
    Exec (Except Error Json × Session τ) :=
  if s.closed then .ok (.error .closed, s)
  else do
    let (written, transport) ← Transport.writeLine s.transport (encodeRequestLine fields)
    let s := { s with transport := transport }
    match written with
    | .error e => .ok (.error e, s)
    | .ok () => do
        let (read, transport) ← Transport.readLine s.transport s.defaultTimeout
        let s := { s with transport := transport }
        match read with
        | .ok line => .ok (responseFields line, s)
        | .error (.timeout text) => do
            let transport ← Transport.close s.transport closeTimeout
            .ok (.error (.timeout text), { s with closed := true, transport := transport })
        | .error e => .ok (.error e, s)

/-- The reply to a close request that was sent is read and dropped. -/
def dropReply (sent : Except Error Unit) (transport : τ) : Exec τ :=
  match sent with
  | .ok () => do
      let (_, transport) ← Transport.readLine transport (some closeTimeout)
      .ok transport
  | .error _ => .ok transport

/-- The close request, then the transport's own shutdown whatever became of it. -/
def close (s : Session τ) : Exec (Session τ) :=
  if s.closed then .ok s
  else do
    let (sent, transport) ←
      Transport.writeLine s.transport (encodeRequestLine [opField "close"])
    let transport ← dropReply sent transport
    let transport ← Transport.close transport closeTimeout
    .ok { s with closed := true, transport := transport }

/-- `Drop for Session`. -/
def drop (s : Session τ) : Exec (Session τ) := s.close

/-! ## The operations -/

/-- Encodes, calls and decodes; nothing is sent if the fields do not encode. -/
def ask {α : Type} (s : Session τ) (fields : Except Error (List (String × Json)))
    (decode : Json → Except Error α) : Exec (Except Error α × Session τ) :=
  match fields with
  | .error e => .ok (.error e, s)
  | .ok fields => do
      let (result, s) ← s.call fields
      .ok (result >>= decode, s)

variable (std : FloatText)

def query (s : Session τ) (sql : String) (params : List Value) :
    Exec (Except Error QueryResult × Session τ) :=
  s.ask ((Request.query sql params).fields std) (decodeQueryResponse std)

def exec (s : Session τ) (sql : String) (params : List Value) :
    Exec (Except Error ExecResult × Session τ) :=
  s.ask ((Request.exec sql params).fields std) decodeExecResponse

def snapshot (s : Session τ) (opts : SnapshotOptions) :
    Exec (Except Error SnapshotResult × Session τ) :=
  s.ask ((Request.snapshot opts).fields std) decodeSnapshotResponse

def load (s : Session τ) (path : String) : Exec (Except Error Unit × Session τ) :=
  s.ask ((Request.load path).fields std) fun _ => .ok ()

def inspect (s : Session τ) : Exec (Except Error InspectResult × Session τ) :=
  s.ask (Request.inspect.fields std) decodeInspectResponse

def tables (s : Session τ) : Exec (Except Error TablesResult × Session τ) :=
  s.ask (Request.tables.fields std) decodeTablesResponse

def schema (s : Session τ) (table : Option String) :
    Exec (Except Error SchemaResult × Session τ) :=
  s.ask ((Request.schema table).fields std) decodeSchemaResponse

def dump (s : Session τ) (pattern : Option String) :
    Exec (Except Error DumpResult × Session τ) :=
  s.ask ((Request.dump pattern).fields std) decodeDumpResponse

/-- `Client::overwrite`: a successful one ends the connection. -/
def overwrite (s : Session τ) : Exec (Except Error Unit × Session τ) := do
  let (result, s) ← s.ask (Request.overwrite.fields std) fun _ => .ok ()
  match result with
  | .error e => .ok (.error e, s)
  | .ok () => do
      let s ← s.close
      .ok (.ok (), s)

/-- The result of an operation under the tag of the operation. -/
def tag {α : Type} (f : α → Answer) (ran : Exec (Except Error α × Session τ)) :
    Exec (Except Error Answer × Session τ) := do
  let (result, s) ← ran
  .ok (f <$> result, s)

def perform (s : Session τ) : Request → Exec (Except Error Answer × Session τ)
  | .query sql params => tag .query (s.query std sql params)
  | .exec sql params => tag .exec (s.exec std sql params)
  | .snapshot opts => tag .snapshot (s.snapshot std opts)
  | .load path => tag (fun _ => .load) (s.load std path)
  | .inspect => tag .inspect (s.inspect std)
  | .tables => tag .tables (s.tables std)
  | .schema table => tag .schema (s.schema std table)
  | .dump pattern => tag .dump (s.dump std pattern)
  | .overwrite => tag (fun _ => .overwrite) (s.overwrite std)
  | .close => do
      let s ← s.close
      .ok (.ok .close, s)

end Session

end SanDbOxFormal.Rust
