import SanDbOxFormal.Java.HelloGate
import SanDbOxFormal.Library.Runs
import SanDbOxFormal.Library.Wire

/-!
# Operations of a Java session

`Session` over any transport: the constructor, `call` with what an operation makes of the
line that it reads, `setTimeout` and `close`.  The lock lets one of them run at a time.
-/

namespace SanDbOxFormal.Java

open SanDbOxFormal.Library
open SanDbOxFormal.Java.Codec
open SanDbOxFormal.Java.Codec.JsonParser (Stop)
open SanDbOxFormal.Java.Transport (TransportException Thrown)

/-- What `Duration.toNanos` returns for. -/
def InRange (timeout : Option ℤ) : Prop := ∀ t ∈ timeout, -2 ^ 63 ≤ t ∧ t < 2 ^ 63

/-- A transport as a session uses it; a duration is its number of nanoseconds. -/
class Wired (τ : Type) where
  /-- What happens while a call waits for its line. -/
  Wait : Type
  /-- The thread of the caller is interrupted while it waits. -/
  Interrupts : Wait → Prop
  /-- What happens during `close`. -/
  Pause : Type
  /-- `readLine`; it does not return if it waits for ever. -/
  readLine : τ → Option ℤ → Wait → Option (Except Thrown (List UInt8) × τ)
  close : τ → Pause → τ
  /-- `writeLine` throws because the transport is closed. -/
  isClosed : τ → Bool
  /-- What the transport does while nobody calls it. -/
  idle : τ → τ

open Wired

/-- A session over a transport, without its hello. -/
structure SessionOver (τ : Type) where
  wire : Wire UInt8
  transport : τ
  timeout : Option ℤ
  closed : Bool

/-- The decoder of an operation; the others only look whether it succeeded. -/
def decoder (jvm : Jvm) : Request → DecodedResponse → Except Stop (Option Result)
  | .query _ _, r => some <$> Decode.query jvm r
  | .exec _ _, r => some <$> Decode.exec r
  | .snapshot _, r => some <$> Decode.snapshot r
  | .inspect, r => some <$> Decode.inspect r
  | .tables, r => some <$> Decode.tables r
  | .schema _, r => some <$> Decode.schema r
  | .dump _, r => some <$> Decode.dump r
  | .load _, _ | .overwrite, _ | .close, _ => .ok none

/-- The end of `call`: the fields of a success, or the error that the server sent. -/
def reply (jvm : Jvm) (line : List UInt8) : Except Exception DecodedResponse :=
  match responseLine jvm line with
  | .error e => .error (caught "invalid response line: " e)
  | .ok r =>
      if r.ok then .ok r
      else
        match responseError? r with
        | some e => .error (.response e.1 e.2)
        | none => .error (.protocolViolation (lit "response has ok=false with no error field"))

/-- What an operation makes of the line that its call has read. -/
def receive (jvm : Jvm) (request : Request) (line : List UInt8) : Except Exception (Option Result) := do
  let r ← reply jvm line
  (decoder jvm request r).mapError (caught "")

namespace SessionOver

variable {τ : Type} [Wired τ]

/-- The constructor; what it throws, it throws behind the close of the transport or without it. -/
def opened (jvm : Jvm) (t : τ) (timeout : Option ℤ) (wait : Wait τ) (pause : Pause τ) :
    Option (Except Exception Hello × SessionOver τ) :=
  match Wired.readLine t timeout wait with
  | none => none
  | some (read, t) =>
      let made := connect jvm read
      some (made.1, ⟨.fresh, if made.2 then Wired.close t pause else t, timeout, false⟩)

def connectionClosed : TransportException := ⟨.closed, lit "connection is closed"⟩

def writeFailed (m : JString) : TransportException := ⟨.io, lit "writing request: " ++ m⟩

/-- `transport.writeLine`, with what is to go wrong with the stream. -/
def writeLine (s : SessionOver τ) (fault : Option (Fault JString)) (line : List UInt8) :
    Except TransportException Unit × SessionOver τ :=
  if isClosed s.transport then (.error connectionClosed, s)
  else
    let wrote := s.wire.write fault line
    (wrote.1.mapError writeFailed, { s with wire := wrote.2 })

/-- `call` behind the write. -/
def answer (jvm : Jvm) (s : SessionOver τ) (request : Request) (pause : Pause τ) :
    Except Thrown (List UInt8) × τ → Except Exception (Option Result) × SessionOver τ
  | (.ok line, t) => (receive jvm request line, { s with transport := t })
  | (.error .arithmetic, t) => (.error .arithmetic, { s with transport := t })
  | (.error (.transport e), t) =>
      (.error (translate e),
        if e.kind = .timeout then { s with closed := true, transport := Wired.close t pause }
        else { s with transport := t })

/-- An operation, from the lock to the unlock. -/
def perform (jdk : Jdk) (jvm : Jvm) (s : SessionOver τ) (request : Request) (fault : Option (Fault JString)) (wait : Wait τ)
    (pause : Pause τ) : Option (Except Exception (Option Result) × SessionOver τ) :=
  if s.closed then some (.error (.connectionClosed (lit "connection is closed")), s)
  else
    match request.line jdk with
    | .error m => some (.error (.protocolViolation m), s)
    | .ok line =>
        match s.writeLine fault line with
        | (.error e, s) => some (.error (translate e), s)
        | (.ok (), s) => (Wired.readLine s.transport s.timeout wait).map (s.answer jvm request pause)

/-- `SanDbOx.CLOSE_TIMEOUT` in nanoseconds. -/
def closeTimeout : ℤ := 5000000000

def close (s : SessionOver τ) (fault : Option (Fault JString)) (wait : Wait τ) (pause : Pause τ) :
    Option (SessionOver τ) :=
  if s.closed then some s
  else
    match { s with closed := true }.writeLine fault (build [opMember "close"]) with
    | (.error _, s) => some { s with transport := Wired.close s.transport pause }
    | (.ok (), s) =>
        (Wired.readLine s.transport (some closeTimeout) wait).map fun r =>
          { s with transport := Wired.close r.2 pause }

variable (τ) in
inductive Event where
  | perform (request : Request) (fault : Option (Fault JString)) (wait : Wait τ) (pause : Pause τ)
  | setTimeout (timeout : Option ℤ)
  | close (fault : Option (Fault JString)) (wait : Wait τ) (pause : Pause τ)
  | idle

/-- One event, with what it returned or threw. -/
def step (jdk : Jdk) (jvm : Jvm) (s : SessionOver τ) :
    Event τ → Option (Except Exception (Option Result) × SessionOver τ)
  | .perform request fault wait pause => s.perform jdk jvm request fault wait pause
  | .setTimeout timeout => some (.ok none, { s with timeout := timeout })
  | .close fault wait pause => (s.close fault wait pause).map fun t => (.ok none, t)
  | .idle => some (.ok none, { s with transport := Wired.idle s.transport })

/-- A step of a run, labelled with its event and its outcome. -/
abbrev Step (jdk : Jdk) (jvm : Jvm) (s : SessionOver τ) (l : Event τ × Except Exception (Option Result))
    (t : SessionOver τ) : Prop :=
  s.step jdk jvm l.1 = some (l.2, t)

/-- No wait of the event is broken off, and no timeout is beyond the range of `toNanos`. -/
def Event.Calm : Event τ → Prop
  | .perform _ _ wait _ => ¬ Interrupts wait
  | .setTimeout timeout => InRange timeout
  | .close _ _ _ => True
  | .idle => True

end SessionOver

end SanDbOxFormal.Java
