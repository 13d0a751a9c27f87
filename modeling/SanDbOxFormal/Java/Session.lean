import SanDbOxFormal.Java.Transport.ReaderThread
import SanDbOxFormal.Library.Runs

/-!
# Direct sessions of the Java driver

What the calls of a `Session` over a child process do to the reader thread: each takes
one line, and the transport is closed when a call times out, when the hello is refused
and by `close`.  Whether a write gets through and whether the hello is accepted is left
open.
-/

namespace SanDbOxFormal.Java

open SanDbOxFormal.Library
open SanDbOxFormal.Library.Runs
open SanDbOxFormal.Library.CappedFraming
open SanDbOxFormal.Java.Transport

structure Session where
  reader : ReaderThread
  /-- `DirectTransport.close` has run. -/
  transportClosed : Bool
  closed : Bool

namespace Session

/-- A session over a child that writes what the reads return. -/
def start (reads : List Read) : Session := ⟨.start reads, false, false⟩

/-- `SanDbOx.CLOSE_TIMEOUT` in nanoseconds. -/
def closeTimeout : Int := 5000000000

/-- The thread goes on for some turns. -/
def turned (s : Session) (turns : Nat) : Session :=
  { s with reader := { s.reader with pump := (Pump.turn Reading.source)^[turns] s.reader.pump } }

/-- `DirectTransport.close`, during which the thread goes on. -/
def closeTransport (s : Session) (turns : Nat) : Session :=
  if s.transportClosed then s else { s.turned turns with transportClosed := true }

/-- `DirectTransport.readLine`. -/
def readLine (s : Session) (timeout : Option Int) (moments : List Pump.Moment) :
    Option (Except Thrown (List UInt8) × Session) :=
  if s.transportClosed then some (.error (.transport ⟨.closed, lit "connection is closed"⟩), s)
  else (s.reader.readLine timeout moments).map fun (result, reader) => (result, { s with reader := reader })

/-- The constructor; what it returns is the line that it took. -/
def connect (s : Session) (timeout : Option Int) (moments : List Pump.Moment) (accepted : Bool)
    (turns : Nat) : Option (Option (List UInt8) × Session) :=
  match s.readLine timeout moments with
  | none => none
  | some (.error (.transport _), s) => some (none, s.closeTransport turns)
  | some (.error .arithmetic, s) => some (none, s)
  | some (.ok line, s) => some (some line, if accepted then s else s.closeTransport turns)

/-- `call`, behind a request that was written or not. -/
def call (s : Session) (written : Bool) (timeout : Option Int) (moments : List Pump.Moment)
    (turns : Nat) : Option (Option (List UInt8) × Session) :=
  if s.closed || !written then some (none, s)
  else
    match s.readLine timeout moments with
    | none => none
    | some (.error (.transport e), s) =>
        some (none, if e.kind = .timeout then { s with closed := true }.closeTransport turns else s)
    | some (.error .arithmetic, s) => some (none, s)
    | some (.ok line, s) => some (some line, s)

def close (s : Session) (written : Bool) (moments : List Pump.Moment) (turns : Nat) :
    Option (Option (List UInt8) × Session) :=
  if s.closed then some (none, s)
  else if !written then some (none, { s with closed := true }.closeTransport turns)
  else
    match { s with closed := true }.readLine (some closeTimeout) moments with
    | none => none
    | some (result, s) => some (result.toOption, s.closeTransport turns)

/-- One step of a run, with the line that it took. -/
inductive Step : Session → Option (List UInt8) → Session → Prop where
  | turned (s : Session) : Step s none (s.turned 1)
  | connected {s t : Session} {taken : Option (List UInt8)} {timeout : Option Int}
      {moments : List Pump.Moment} {accepted : Bool} {turns : Nat}
      (returned : s.connect timeout moments accepted turns = some (taken, t)) : Step s taken t
  | called {s t : Session} {taken : Option (List UInt8)} {written : Bool} {timeout : Option Int}
      {moments : List Pump.Moment} {turns : Nat}
      (returned : s.call written timeout moments turns = some (taken, t)) : Step s taken t
  | closed {s t : Session} {taken : Option (List UInt8)} {written : Bool}
      {moments : List Pump.Moment} {turns : Nat}
      (returned : s.close written moments turns = some (taken, t)) : Step s taken t

/-! ## What is left to take -/

def ahead (s : Session) : List (List UInt8) := s.reader.ahead

theorem turned_ahead (s : Session) (turns : Nat) : (s.turned turns).ahead = s.ahead :=
  Pump.turns_ahead turns s.reader.pump

theorem closeTransport_ahead (s : Session) (turns : Nat) : (s.closeTransport turns).ahead = s.ahead := by
  rw [closeTransport]
  split
  · rfl
  · exact s.turned_ahead turns

theorem readLine_takes {s t : Session} {timeout : Option Int} {moments : List Pump.Moment}
    {result : Except Thrown (List UInt8)} (read : s.readLine timeout moments = some (result, t)) :
    result.toOption.toList ++ t.ahead = s.ahead := by
  rw [readLine] at read
  split at read
  · cases read
    rfl
  · obtain ⟨⟨result, reader⟩, returned, same⟩ := Option.map_eq_some_iff.mp read
    cases same
    exact ReaderThread.readLine_takes returned

/-- A step takes the next line, or none. -/
theorem Step.takes {s t : Session} {taken : Option (List UInt8)} (step : Step s taken t) :
    taken.toList ++ t.ahead = s.ahead := by
  cases step with
  | turned => exact s.turned_ahead 1
  | connected returned =>
      rw [connect] at returned
      split at returned
      · cases returned
      · rename_i read
        cases returned
        rw [closeTransport_ahead]
        exact readLine_takes read
      · rename_i read
        cases returned
        exact readLine_takes read
      · rename_i read
        cases returned
        split
        · exact readLine_takes read
        · rw [closeTransport_ahead]
          exact readLine_takes read
  | called returned =>
      rw [call] at returned
      split at returned
      · cases returned
        rfl
      · split at returned
        · cases returned
        · rename_i read
          cases returned
          split
          · rw [closeTransport_ahead]
            exact readLine_takes read
          · exact readLine_takes read
        · rename_i read
          cases returned
          exact readLine_takes read
        · rename_i read
          cases returned
          exact readLine_takes read
  | closed returned =>
      rw [close] at returned
      split at returned
      · cases returned
        rfl
      · split at returned
        · cases returned
          exact closeTransport_ahead _ _
        · split at returned
          · cases returned
          · rename_i read
            cases returned
            rw [closeTransport_ahead]
            exact readLine_takes (s := { s with closed := true }) read

/-- The lines that the output of a child makes. -/
def lines (reads : List Read) : List (List UInt8) :=
  (progress newline maxLineBytes (arriving reads)).lines

def asciiBytes (s : String) : List UInt8 := s.toList.map fun c => UInt8.ofNat c.toNat

def helloLine : List UInt8 :=
  asciiBytes "\x7b\"protocol\":1,\"version\":\"v0.1.1\",\"product\":\"SanDBox\"\x7d"

def replyLine : List UInt8 := asciiBytes "\x7b\"ok\":true\x7d"

/-- A hello and the reply to one request. -/
def twoLines : List Read :=
  [.bytes (helloLine ++ [newline]) (by decide +kernel), .bytes (replyLine ++ [newline]) (by decide +kernel)]

end Session

end SanDbOxFormal.Java
