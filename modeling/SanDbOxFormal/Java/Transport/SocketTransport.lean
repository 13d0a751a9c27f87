import SanDbOxFormal.Java.Transport.LineFramer

/-!
# The socket transport of the Java driver

`readLine` reads inline, on the thread of its caller: it looks at the clock, waits for
bytes as long as the deadline leaves it, and goes on until a line is complete.  What
the socket does is a script of reads with the time that passes around each.
-/

namespace SanDbOxFormal.Java.Transport

open SanDbOxFormal.Library

/-- The value a `long` has after an addition or a difference that may overflow. -/
def long (n : Int) : Int := n.bmod (2 ^ 64)

/-- `Integer.MAX_VALUE`. -/
def intMax : Int := 2 ^ 31 - 1

/-- `buf.length` in `readLine`. -/
def readSize : Nat := 64 * 1024

/-- `Duration.toMillis` of a number of nanoseconds. -/
def toMillis (nanos : Int) : Int := nanos / 1000000

/-- The two kinds of `TimedByteSource`. -/
inductive Source where
  | socket
  | channel
  deriving DecidableEq

/-- How long a source waits for a read, in milliseconds; zero is for ever. -/
def Source.waitMs : Source → Option Int → Int
  | _, none => 0
  | socket, some remaining => min (max (toMillis remaining) 1) intMax
  | channel, some remaining => max (toMillis remaining) 1

/-- A read with a deadline never waits for ever. -/
theorem Source.waitMs_pos (source : Source) (remaining : Int) : 1 ≤ source.waitMs (some remaining) := by
  cases source with
  | socket =>
      rw [waitMs, le_min_iff]
      exact ⟨le_max_right _ _, by decide⟩
  | channel => exact le_max_right _ _

/-! ## Scripts -/

/-- How `read` returns. -/
inductive Outcome where
  | bytes (chunk : List UInt8) (fits : chunk.length ≤ readSize)
  | timedOut
  | eof
  /-- An `IOException` with its message. -/
  | failed (message : JString)

/-- One turn of the loop, with the nanoseconds that pass in it. -/
structure Turn where
  /-- Until the remaining time is computed. -/
  before : Nat
  /-- Until the read comes back. -/
  during : Nat
  outcome : Outcome
  /-- Until the next look at the clock can be. -/
  after : Nat

namespace Turn

def span (e : Turn) : Int := e.before + e.during + e.after

/-- When the read of a turn that starts at `now` comes back. -/
def back (now : Int) (e : Turn) : Int := now + e.before + e.during

/-- The bytes that came. -/
def bytes (e : Turn) : List UInt8 :=
  match e.outcome with
  | .bytes chunk _ => chunk
  | _ => []

end Turn

/-! ## SocketTransport -/

inductive Thrown where
  | transport (e : TransportException)
  /-- The `ArithmeticException` of `Duration.toNanos`. -/
  | arithmetic
  deriving DecidableEq

structure SocketTransport where
  source : Source
  framer : LineFramer
  terminal : Option TransportException
  closed : Bool

/-- A `read` of the source, with when it was issued and when it came back. -/
structure SourceRead where
  waitMs : Int
  issued : Int
  back : Int

/-- What a call did. -/
structure Call where
  /-- Its reads, in order. -/
  reads : List SourceRead
  /-- What it returned or threw, unless it still waits for a read. -/
  outcome : Option (Except Thrown (List UInt8))
  /-- The last look at the clock. -/
  now : Int
  transport : SocketTransport

/-- The call that went on behind one more read. -/
def Call.behind (later : Call) (r : SourceRead) : Call := { later with reads := r :: later.reads }

namespace SocketTransport

def timedOut : TransportException := ⟨.timeout, lit "timed out waiting for a response line"⟩

def connectionClosed : TransportException := ⟨.closed, lit "connection closed (EOF)"⟩

def fromSource (source : Source) : SocketTransport := ⟨source, .new, none, false⟩

def close (s : SocketTransport) : SocketTransport :=
  if s.closed then s
  else { s with closed := true, terminal := some ⟨.closed, lit "connection is closed"⟩ }

def tryTakeLine (s : SocketTransport) :
    Except TransportException (Option (List UInt8)) × SocketTransport :=
  match s.framer.takeLine with
  | (.ok taken, framer) => (.ok taken, { s with framer := framer })
  | (.error e, framer) => (.error e, { s with framer := framer, terminal := some e })

/-- How a turn of the loop ends: with the call, or with the next turn. -/
inductive Turned where
  | done (c : Call)
  | again (r : SourceRead) (now : Int) (s : SocketTransport)

/-- The call ends by throwing what is from now on thrown by every call. -/
def fail (s : SocketTransport) (r : SourceRead) (e : TransportException) : Turned :=
  .done ⟨[r], some (.error (.transport e)), r.back, { s with terminal := some e }⟩

/-- Pushes what a read has brought and looks for a line; nothing when the framer never
comes back from that. -/
def pushAndTake (s : SocketTransport) (chunk : List UInt8) :
    Option (Except TransportException (Option (List UInt8)) × SocketTransport) :=
  (s.framer.push chunk).map fun framer => tryTakeLine { s with framer := framer }

/-- How a turn ends behind that; `now` is when the next would start. -/
def tookIn (s : SocketTransport) (r : SourceRead) (now : Int) :
    Option (Except TransportException (Option (List UInt8)) × SocketTransport) → Turned
  | none => .done ⟨[r], none, r.back, s⟩
  | some (.error e, s) => .done ⟨[r], some (.error (.transport e)), r.back, s⟩
  | some (.ok (some taken), s) => .done ⟨[r], some (.ok taken), r.back, s⟩
  | some (.ok none, s) => .again r now s

/-- The body of `while (true)` in `readLine`, from `now` on. -/
def turn (deadlineNanos : Option Int) (e : Turn) (now : Int) (s : SocketTransport) : Turned :=
  let remaining := deadlineNanos.map fun d => max (long (d - (now + e.before))) 0
  let r : SourceRead := ⟨s.source.waitMs remaining, now + e.before, e.back now⟩
  match e.outcome with
  | .failed message => s.fail r ⟨.io, message⟩
  | .timedOut =>
      if deadlineNanos.any (· ≤ now + e.span) then
        .done ⟨[r], some (.error (.transport timedOut)), now + e.span, s⟩
      else .again r (now + e.span) s
  | .eof => s.fail r connectionClosed
  | .bytes chunk _ => s.tookIn r (now + e.span) (s.pushAndTake chunk)

def readLoop (deadlineNanos : Option Int) : List Turn → Int → SocketTransport → Call
  | [], now, s => ⟨[], none, now, s⟩
  | e :: rest, now, s =>
      match turn deadlineNanos e now s with
      | .done c => c
      | .again r now s => (readLoop deadlineNanos rest now s).behind r

/-- `System.nanoTime() + timeout.toNanos()`. -/
def deadline (start : Int) : Option Int → Except Thrown (Option Int)
  | none => .ok none
  | some t => if -2 ^ 63 ≤ t ∧ t < 2 ^ 63 then .ok (some (long (start + t))) else .error .arithmetic

/-- `readLine`, with the timeout in nanoseconds and the time at which it looks first. -/
def readLine (s : SocketTransport) (start : Int) (timeout : Option Int) (script : List Turn) : Call :=
  match s.terminal with
  | some e => ⟨[], some (.error (.transport e)), start, s⟩
  | none =>
      match s.tryTakeLine with
      | (.error e, s) => ⟨[], some (.error (.transport e)), start, s⟩
      | (.ok (some line), s) => ⟨[], some (.ok line), start, s⟩
      | (.ok none, s) =>
          match deadline start timeout with
          | .error e => ⟨[], some (.error e), start, s⟩
          | .ok deadlineNanos => readLoop deadlineNanos script start s

/-! ## What taking a line does -/

/-- What the framer held, and what taking from it did. -/
inductive Took (s : SocketTransport) :
    Except TransportException (Option (List UInt8)) × SocketTransport → Prop where
  | line {line : List UInt8} {s' : SocketTransport} (complete : newline ∈ s.framer.data.buf)
      (same : s'.terminal = s.terminal) : Took s (.ok (some line), s')
  | nothing {s' : SocketTransport} (clean : newline ∉ s.framer.data.buf)
      (short : s.framer.data.buf.length ≤ maxLineBytes)
      (held : s'.framer.data.buf = s.framer.data.buf) (terminal : s'.terminal = s.terminal)
      (source : s'.source = s.source) : Took s (.ok none, s')
  | long {e : TransportException} {s' : SocketTransport}
      (exceeds : maxLineBytes < s.framer.data.buf.length) (told : s'.terminal = some e) :
      Took s (.error e, s')

theorem tryTakeLine_took (s : SocketTransport) : Took s s.tryTakeLine := by
  unfold tryTakeLine
  have taken := s.framer.takeLine_taken
  generalize s.framer.takeLine = pair at taken
  cases taken with
  | @line line rest f clean shape left =>
      refine .line ?_ rfl
      change newline ∈ LineFramer.framer.buf s.framer
      rw [shape]
      exact List.mem_append_right _ List.mem_cons_self
  | nothing clean short same => exact .nothing clean short same rfl rfl
  | refused clean long => exact .long long rfl

/-- The framer always has room for what one read brings. -/
theorem push_fits {s : SocketTransport} {chunk : List UInt8} (fits : chunk.length ≤ readSize)
    (short : s.framer.data.buf.length ≤ maxLineBytes) :
    ∃ f, s.framer.push chunk = some f ∧ f.data.buf = s.framer.data.buf ++ chunk := by
  have room : s.framer.data.buf.length + chunk.length ≤ maxCapacity := by
    rw [readSize] at fits
    rw [maxLineBytes] at short
    rw [maxCapacity]
    omega
  obtain ⟨f, pushed, data⟩ := LineFramer.push_some room
  exact ⟨f, pushed, congrArg LineBuffer.buf data⟩

end SocketTransport

end SanDbOxFormal.Java.Transport
