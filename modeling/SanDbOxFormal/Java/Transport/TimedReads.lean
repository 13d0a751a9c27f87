import SanDbOxFormal.Java.Transport.ReaderThread
import SanDbOxFormal.Library.Failures
import SanDbOxFormal.Library.Wrapping

/-!
# Timeouts of the Java driver

What becomes of a `Duration` on its way to the calls that wait: the conversions, the
deadline as a value of `System.nanoTime`, which wraps, the time that is left before each
wait and the look at the clock behind it.  The loop of `readLine` is the same over a socket
and over the queue of the reader thread but for what it waits for.
-/

namespace SanDbOxFormal.Java.Transport

open SanDbOxFormal.Library

/-- A `Duration` that is not negative. -/
structure Duration where
  seconds : Nat
  nanos : Nat
  seconds_lt : seconds < 2 ^ 63
  nanos_lt : nanos < 1000000000
  deriving DecidableEq

namespace Duration

/-- Its length in nanoseconds. -/
def total (d : Duration) : Nat := d.seconds * 1000000000 + d.nanos

def toNanos (d : Duration) : Except Thrown Int :=
  if d.total < 2 ^ 63 then .ok d.total else .error .arithmetic

def toMillis (d : Duration) : Except Thrown Int :=
  if d.seconds * 1000 + d.nanos / 1000000 < 2 ^ 63 then .ok (d.seconds * 1000 + d.nanos / 1000000 : Nat)
  else .error .arithmetic

theorem millis_eq (d : Duration) : d.seconds * 1000 + d.nanos / 1000000 = d.total / 1000000 := by
  rw [total]
  omega

end Duration

/-! ## Connecting -/

/-- What `Socket.connect` in `connectTcp` is given; zero is for ever. -/
def connectBound : Option Duration → Except Thrown Int
  | none => .ok 0
  | some connectTimeout => do
      let millis ← connectTimeout.toMillis
      .ok (int (min millis intMax))

/-! ## The loop -/

/-- `System.nanoTime()` at an instant. -/
def nanoTime (instant : Int) : Int := long instant

/-- `System.nanoTime() + timeout.toNanos()`. -/
def deadlineNanos (start : Int) : Option Duration → Except Thrown (Option Int)
  | none => .ok none
  | some timeout => do
      let nanos ← timeout.toNanos
      .ok (some (long (nanoTime start + nanos)))

/-- What a loop waits with: `setSoTimeout` and a read, `Selector.select`, or the `poll` of
the queue, which is `take` without a deadline. -/
inductive Wait where
  | soTimeout
  | select
  | poll
  deriving DecidableEq

namespace Wait

/-- The bound of a wait, in milliseconds or, for `poll`, in nanoseconds. -/
def bound : Wait → Option Int → Option Int
  | soTimeout, remaining => some (Source.socket.waitMs remaining)
  | select, remaining => some (Source.channel.waitMs remaining)
  | poll, remaining => remaining

/-- Whether a bound of zero is no bound. -/
def zeroIsForever : Wait → Bool
  | soTimeout => true
  | select => true
  | poll => false

/-- The longest wait that the primitive can be asked for. -/
def largest : Wait → Int
  | soTimeout => intMax
  | select => 2 ^ 63 - 1
  | poll => 2 ^ 63 - 1

end Wait

/-- What a loop does with the clock. -/
inductive Event where
  | waited (now : Int) (bound : Option Int)
  /-- `System.nanoTime() >= deadlineNanos`. -/
  | compared (now : Int) (late : Bool)
  deriving DecidableEq

/-- One turn of a loop, with the nanoseconds that pass in it. -/
structure Lap (ω : Type) where
  /-- Until the remaining time is computed. -/
  before : Nat
  /-- Until the wait comes back. -/
  during : Nat
  brought : ω
  /-- Until the next look at the clock can be. -/
  after : Nat

def Lap.span {ω : Type} (lap : Lap ω) : Int := lap.before + lap.during + lap.after

/-- What a transport makes of what a wait has brought. -/
inductive Reaction (σ : Type) where
  | done (result : Except Thrown (List UInt8)) (s : σ)
  /-- Nothing came: the deadline is looked at. -/
  | expired (s : σ)
  | again (s : σ)
  /-- The call never comes back from it. -/
  | stuck (s : σ)

/-- What a call did, and what it returned or threw unless it still waits. -/
structure Traced (σ : Type) where
  events : List Event
  result : Option (Except Thrown (List UInt8))
  state : σ

def Traced.behind {σ : Type} (later : Traced σ) (events : List Event) : Traced σ :=
  { later with events := events ++ later.events }

/-- The time that is left, as `Math.max(deadlineNanos - System.nanoTime(), 0)`. -/
def remaining (deadline : Option Int) (now : Int) : Option Int :=
  deadline.map fun d => max (long (d - nanoTime now)) 0

/-- The look at the clock behind a wait that brought nothing. -/
def lateAt (deadline now : Int) : Bool := deadline ≤ nanoTime now

variable {σ ω : Type}

/-- `while (true)` in both `readLine`s. -/
def waitLoop (w : Wait) (react : σ → ω → Reaction σ) (deadline : Option Int) :
    List (Lap ω) → Int → σ → Traced σ
  | [], _, s => ⟨[], none, s⟩
  | lap :: rest, now, s =>
      let waited := Event.waited (now + lap.before) (w.bound (remaining deadline (now + lap.before)))
      match react s lap.brought with
      | .done result s => ⟨[waited], some result, s⟩
      | .stuck s => ⟨[waited], none, s⟩
      | .again s => (waitLoop w react deadline rest (now + lap.span) s).behind [waited]
      | .expired s =>
          match deadline with
          | none => (waitLoop w react none rest (now + lap.span) s).behind [waited]
          | some d =>
              let compared := Event.compared (now + lap.span) (lateAt d (now + lap.span))
              if lateAt d (now + lap.span) then
                ⟨[waited, compared], some (.error (.transport SocketTransport.timedOut)), s⟩
              else (waitLoop w react (some d) rest (now + lap.span) s).behind [waited, compared]

/-- The loop, behind the computation of the deadline. -/
def timedRead (w : Wait) (react : σ → ω → Reaction σ) (start : Int) (timeout : Option Duration)
    (laps : List (Lap ω)) (s : σ) : Traced σ :=
  match deadlineNanos start timeout with
  | .error e => ⟨[], some (.error e), s⟩
  | .ok deadline => waitLoop w react deadline laps start s

/-! ## The two calls -/

namespace SocketTransport

/-- What the loop makes of what pushing and taking gave. -/
def reactTaken (s : SocketTransport) :
    Option (Except TransportException (Option (List UInt8)) × SocketTransport) →
      Reaction SocketTransport
  | none => .stuck s
  | some (.error e, s) => .done (.error (.transport e)) s
  | some (.ok (some line), s) => .done (.ok line) s
  | some (.ok none, s) => .again s

/-- What the loop makes of what a read has brought. -/
def react (s : SocketTransport) : Outcome → Reaction SocketTransport
  | .failed message =>
      .done (.error (.transport ⟨.io, message⟩)) { s with terminal := some ⟨.io, message⟩ }
  | .timedOut => .expired s
  | .eof => .done (.error (.transport connectionClosed)) { s with terminal := some connectionClosed }
  | .bytes chunk _ => s.reactTaken (s.pushAndTake chunk)

def wait (s : SocketTransport) : Wait :=
  match s.source with
  | .socket => .soTimeout
  | .channel => .select

/-- `readLine`, with a clock that wraps. -/
def readLineTimed (s : SocketTransport) (start : Int) (timeout : Option Duration)
    (laps : List (Lap Outcome)) : Traced SocketTransport :=
  match s.terminal with
  | some e => ⟨[], some (.error (.transport e)), s⟩
  | none =>
      match s.tryTakeLine with
      | (.error e, s) => ⟨[], some (.error (.transport e)), s⟩
      | (.ok (some line), s) => ⟨[], some (.ok line), s⟩
      | (.ok none, s) => timedRead s.wait react start timeout laps s

end SocketTransport

namespace ReaderThread

/-- How a wait for the queue comes back. -/
inductive Polled where
  | item (i : Except TransportException (List UInt8))
  | nothing
  | interrupted

/-- What the loop makes of it; only `terminal` of the reader is touched. -/
def react (terminal : Option TransportException) : Polled → Reaction (Option TransportException)
  | .item (.ok line) => .done (.ok line) terminal
  | .item (.error e) => .done (.error (.transport e)) (some e)
  | .nothing => .expired terminal
  | .interrupted => .done (.error (.transport interruptedWait)) terminal

/-- `readLine`, with a clock that wraps. -/
def readLineTimed (terminal : Option TransportException) (start : Int) (timeout : Option Duration)
    (laps : List (Lap Polled)) : Traced (Option TransportException) :=
  match terminal with
  | some e => ⟨[], some (.error (.transport e)), terminal⟩
  | none => timedRead .poll react start timeout laps terminal

end ReaderThread

end SanDbOxFormal.Java.Transport
