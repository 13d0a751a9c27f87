import SanDbOxFormal.Python.Decode
import SanDbOxFormal.Python.Request
import SanDbOxFormal.Python.Transport

/-!
# Sessions of the Python driver

`_client.py`: the constructor with its hello check, the call/response cycle, the
operations over it, `overwrite` and `close`.  A lock serializes the calls, so a run of
a session is a sequence of whole operations.  The background thread that shuts the
transport down after a timeout is taken to be done at once; the session is closed by
then, so nothing is read any more.
-/

namespace SanDbOxFormal.Python

open SanDbOxFormal.Library

/-- What the driver is run on. -/
structure Platform extends Runtime, Printer where
  /-- The longest timeout that the wait of `queue.get` takes; above it the wait raises. -/
  timeoutMax : PyFloat
  /-- `repr` of the bytes of a line. -/
  shown : List UInt8 → PyStr

/-- What the system does during one call: what goes wrong with the write, and what
happens during the wait for the reply. -/
structure Events where
  fault : Option Fault
  moments : List Pump.Moment

/-- A `timeout` argument. -/
inductive TimeoutArg where
  | unset
  | given (timeout : Option PyFloat)

structure Session where
  hello : Hello
  transport : Transport
  defaultTimeout : Option PyFloat
  closed : Bool

/-- What the methods return. -/
inductive Answer where
  | decoded (decoded : Decoded)
  | none

/-- The fields of a response, or what is raised in their place. -/
def responseFields (pf : Platform) (line : List UInt8) : Except PyError Dict := do
  let response ← decodeResponseLine pf.toRuntime pf.shown line
  if response.ok then .ok response.fields
  else
    match response.error with
    | some e => .error e
    | none => .error (.protocolError (lit "response has ok=false with no error field"))

/-- What a method makes of the fields of its response. -/
def decodeAnswer (pf : Platform) : Operation → Dict → Except PyError Answer
  | .query _ _, fields => .decoded <$> decodeQueryResponse pf.toRuntime fields
  | .exec _ _, fields => .decoded <$> decodeExecResponse pf.toRuntime fields
  | .snapshot _ _ _, fields => .decoded <$> decodeSnapshotResponse pf.toRuntime fields
  | .load _, _ => .ok .none
  | .inspect, fields => .decoded <$> decodeInspectResponse pf.toRuntime fields
  | .tables, fields => .decoded <$> decodeTablesResponse pf.toRuntime fields
  | .schema _, fields => .decoded <$> decodeSchemaResponse pf.toRuntime fields
  | .dump _, fields => .decoded <$> decodeDumpResponse pf.toRuntime fields
  | .overwrite, _ => .ok .none

/-- What a method makes of a response line. -/
def decodeReply (pf : Platform) (operation : Operation) (line : List UInt8) : Except PyError Answer :=
  responseFields pf line >>= decodeAnswer pf operation

/-- `hello.protocol != PROTOCOL`, which compares the numbers of Python. -/
def isProtocol : PyValue → Bool
  | .int n => n = 1
  | .bool b => b
  | .float token => isOne token
  | _ => false

namespace Session

/-- `_read_hello` behind the wait for the line: a session, or what is raised, and the
transport as it is left. -/
def establish (pf : Platform) (timeout : Option PyFloat) (outcome : Except PyError (List UInt8))
    (transport : Transport) : Except PyError Session × Transport :=
  match outcome with
  | .error e =>
      if e.isEOFError || e.isOSError then
        (.error (.sanDBoxError (lit "reading hello line: " ++ e.message)), transport.close)
      else (.error e, transport)
  | .ok line =>
      match decodeHello pf.toRuntime pf.shown line with
      | .error (.protocolError m) => (.error (.protocolError m), transport.close)
      | .error e => (.error e, transport)
      | .ok hello =>
          if isProtocol hello.protocol then (.ok ⟨hello, transport, timeout, false⟩, transport)
          else
            match str pf.toRuntime hello.protocol with
            | .ok text =>
                (.error (.sanDBoxError (lit "unsupported protocol " ++ text ++
                  lit " (this driver speaks 1)")), transport.close)
            | .error e => (.error e, transport.close)

/-- `__init__`. -/
def new (pf : Platform) (transport : Transport) (timeout : Option PyFloat)
    (moments : List Pump.Moment) : Option (Except PyError Session × Transport) :=
  (transport.readLine pf.timeoutMax timeout moments).map fun (outcome, transport) =>
    establish pf timeout outcome transport

def resolveTimeout (s : Session) : TimeoutArg → Option PyFloat
  | .unset => s.defaultTimeout
  | .given timeout => timeout

/-- `_call`. -/
def call (pf : Platform) (s : Session) (events : Events) (req : Dict) (timeout : TimeoutArg) :
    Option (Except PyError Dict × Session) :=
  if s.closed then some (.error (.sanDBoxError (lit "sandbox: connection is closed")), s)
  else
    match encodeRequestLine req with
    | .error e => some (.error e, s)
    | .ok line =>
        match s.transport.writeLine events.fault line with
        | (.error fault, transport) =>
            some (.error (.sanDBoxError (lit "writing request: " ++ fault.error.message)),
              { s with transport })
        | (.ok (), transport) =>
            match transport.readLine pf.timeoutMax (s.resolveTimeout timeout) events.moments with
            | none => none
            | some (.ok line, transport) => some (responseFields pf line, { s with transport })
            | some (.error e, transport) =>
                if e.isTimeout then
                  some (.error (.sanDBoxTimeoutError e.message),
                    { s with transport := transport.close, closed := true })
                else if e.isEOFError || e.isOSError then
                  some (.error (.sanDBoxError (lit "reading response: " ++ e.message)),
                    { s with transport })
                else some (.error e, { s with transport })

/-- A method: builds its request, calls and decodes. -/
def perform (pf : Platform) (s : Session) (events : Events) (operation : Operation)
    (timeout : TimeoutArg) : Option (Except PyError Answer × Session) :=
  match operation.request pf.toPrinter with
  | .error e => some (.error e, s)
  | .ok req =>
      match s.call pf events req timeout with
      | none => none
      | some (.error e, s) => some (.error e, s)
      | some (.ok fields, s) =>
          match operation with
          | .overwrite =>
              some (.ok .none, { s with closed := true, transport := s.transport.close })
          | _ => some (decodeAnswer pf operation fields, s)

/-- `close`. -/
def close (s : Session) (fault : Option Fault) : Session :=
  if s.closed then s
  else
    let transport := match encodeRequestLine [op "close"] with
      | .ok line => (s.transport.writeLine fault line).2
      | .error _ => s.transport
    { s with closed := true, transport := transport.close }

end Session

/-- A platform with room for ten lists and dicts, which shows and prints nothing. -/
def samplePlatform : Platform where
  toRuntime := ⟨10, 10, none, fun _ => [], fun _ => [], fun _ => .ok []⟩
  toPrinter := ⟨fun _ => [], fun _ => [], fun _ => List.not_mem_nil, fun _ => List.not_mem_nil⟩
  timeoutMax := ⟨0x41D0000000000000⟩
  shown := fun _ => []

end SanDbOxFormal.Python
