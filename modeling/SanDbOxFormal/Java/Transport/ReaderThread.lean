import SanDbOxFormal.Java.Transport.SocketTransport
import SanDbOxFormal.Library.Pump

/-!
# The reader thread of the Java driver

`ReaderThread`: a thread that frames the output of the child and puts one line after
the other into a queue of one item, and the calls that take them out.
-/

namespace SanDbOxFormal.Java.Transport

open SanDbOxFormal.Library
open SanDbOxFormal.Library.Segments
open SanDbOxFormal.Library.CappedFraming

/-- How a `read` of the output of the child returns; behind the last one the end of the
file is there. -/
inductive Read where
  | bytes (chunk : List UInt8) (fits : chunk.length ≤ readSize)
  | failed (message : JString)

/-- The bytes that come, read by read, up to the first failure. -/
def arriving : List Read → List (List UInt8)
  | [] => []
  | .failed _ :: _ => []
  | .bytes chunk _ :: rest => chunk :: arriving rest

/-- What the thread works on. -/
structure Reading where
  framer : LineFramer
  reads : List Read

namespace Reading

def start (reads : List Read) : Reading := ⟨.new, reads⟩

/-- The item that a look into the framer gives; where it holds no line, the thread goes
`onwards`. -/
def found (reads : List Read) (onwards : LineFramer → Except TransportException (List UInt8) × Reading) :
    Except TransportException (Option (List UInt8)) × LineFramer →
      Except TransportException (List UInt8) × Reading
  | (.ok none, f) => onwards f
  | (.ok (some line), f) => (.ok line, ⟨f, reads⟩)
  | (.error e, f) => (.error e, ⟨f, reads⟩)

/-- `runLoop` up to the next item that it puts, from a state in which no line is ready.
A push never fails here, where no chunk is long. -/
def read : List Read → LineFramer → Except TransportException (List UInt8) × Reading
  | [], f => (.error SocketTransport.connectionClosed, ⟨f, []⟩)
  | .failed message :: rest, f => (.error ⟨.io, message⟩, ⟨f, rest⟩)
  | .bytes chunk _ :: rest, f =>
      if chunk.isEmpty then read rest f
      else found rest (read rest) ((f.push chunk).getD f).takeLine

/-- The next item that the thread puts. -/
def next (r : Reading) : Except TransportException (List UInt8) × Reading :=
  found r.reads (read r.reads) r.framer.takeLine

/-- The lines that the thread still puts: it measures the unfinished tail behind each
chunk. -/
def lines (r : Reading) : List (List UInt8) :=
  (progress newline maxLineBytes (r.framer.data.buf :: arriving r.reads)).lines

/-- What an item does to the lines that are left. -/
inductive Put (lines : List (List UInt8)) : Except TransportException (List UInt8) × Reading → Prop where
  | line {line : List UInt8} {r : Reading} (next : lines = line :: r.lines) : Put lines (.ok line, r)
  | last {e : TransportException} {r : Reading} (none : lines = []) : Put lines (.error e, r)

/-- A line is taken from the front of what the framer holds. -/
theorem lines_segment {f f' : LineFramer} {line rest : List UInt8} {reads : List Read}
    (clean : newline ∉ line) (shape : f.data.buf = line ++ newline :: rest)
    (left : f'.data.buf = rest) : lines ⟨f, reads⟩ = line :: lines ⟨f', reads⟩ := by
  rw [lines, lines, shape, progress_segment clean, left]

theorem lines_long {f : LineFramer} {reads : List Read} (clean : newline ∉ f.data.buf)
    (long : maxLineBytes < f.data.buf.length) : lines ⟨f, reads⟩ = [] :=
  progress_long clean long _

/-- Looking into a framer gives its next line, the error of an over-long one, or what is
found onwards. -/
theorem found_put {f : LineFramer} {reads : List Read}
    {onwards : LineFramer → Except TransportException (List UInt8) × Reading}
    (onward : ∀ g, newline ∉ g.data.buf → g.data.buf.length ≤ maxLineBytes →
      Put (lines ⟨g, reads⟩) (onwards g)) : Put (lines ⟨f, reads⟩) (found reads onwards f.takeLine) := by
  have taken := f.takeLine_taken
  generalize f.takeLine = pair at taken
  cases taken with
  | line clean shape left => exact .line (lines_segment clean shape left)
  | refused clean long => exact .last (lines_long clean long)
  | @nothing g clean short same =>
      have held : g.data.buf = f.data.buf := same
      have kept : lines ⟨f, reads⟩ = lines ⟨g, reads⟩ := by rw [lines, lines, held]
      rw [kept]
      exact onward g (held ▸ clean) (held ▸ short)

/-- From a framer that holds no line, the thread reads on. -/
theorem read_put {reads : List Read} {f : LineFramer} (clean : newline ∉ f.data.buf)
    (short : f.data.buf.length ≤ maxLineBytes) : Put (lines ⟨f, reads⟩) (read reads f) := by
  induction reads generalizing f with
  | nil => exact .last (progress_last clean)
  | cons first rest ih =>
      cases first with
      | failed message => exact .last (progress_last clean)
      | bytes chunk fits =>
          have grown : lines ⟨f, .bytes chunk fits :: rest⟩ =
              (progress newline maxLineBytes ((f.data.buf ++ chunk) :: arriving rest)).lines :=
            congrArg Progress.lines (progress_tail clean short chunk (arriving rest))
          rw [read, grown]
          split
          · rename_i empty
            rw [List.isEmpty_iff.mp empty, List.append_nil]
            exact ih clean short
          · obtain ⟨g, pushed, held⟩ := SocketTransport.push_fits (s := ⟨.socket, f, none, false⟩) fits short
            have whole : lines ⟨g, rest⟩ =
                (progress newline maxLineBytes ((f.data.buf ++ chunk) :: arriving rest)).lines := by
              rw [lines, held]
            rw [pushed, Option.getD_some, ← whole]
            exact found_put fun h clean' short' => ih clean' short'

theorem next_put (r : Reading) : Put r.lines r.next :=
  found_put fun _ clean short => read_put clean short

/-- What the thread gets out of the child. -/
def source : Library.Source Reading TransportException (List UInt8) where
  next := next
  lines := lines
  line_next := by
    intro r r' l took
    have put := r.next_put
    rw [took] at put
    cases put with
    | line next => exact next
  end_next := by
    intro r r' e took
    have put := r.next_put
    rw [took] at put
    cases put with
    | last none => exact none

end Reading

/-! ## The calls -/

structure ReaderThread where
  pump : Pump Reading TransportException (List UInt8)
  /-- The error that every call throws from now on. -/
  terminal : Option TransportException

/-- How a wait for the queue ends without an item. -/
inductive Broken where
  | timedOut
  | interrupted

def interruptedWait : TransportException :=
  ⟨.io, lit "interrupted while waiting for a response line"⟩

/-- At which moments it does; an interrupt never takes an item along. -/
def pollBroken (timed : Bool) : Pump.Moment → Option Broken
  | .turn => none
  | .look => none
  | .expire => if timed then some .timedOut else none
  | .leave => some .interrupted
  | .lose => none

namespace ReaderThread

def start (reads : List Read) : ReaderThread := ⟨.start (.start reads), none⟩

/-- `readLine`; it does not return if the moments run out. -/
def readLine (r : ReaderThread) (timeout : Option Int) (moments : List Pump.Moment) :
    Option (Except Thrown (List UInt8) × ReaderThread) :=
  match r.terminal with
  | some e => some (.error (.transport e), r)
  | none =>
      match SocketTransport.deadline 0 timeout with
      | .error e => some (.error e, r)
      | .ok _ =>
          match r.pump.wait Reading.source (pollBroken timeout.isSome) moments with
          | none => none
          | some (.error .timedOut, p) =>
              some (.error (.transport SocketTransport.timedOut), { r with pump := p })
          | some (.error .interrupted, p) =>
              some (.error (.transport interruptedWait), { r with pump := p })
          | some (.ok (.error e), p) => some (.error (.transport e), ⟨p, some e⟩)
          | some (.ok (.ok line), p) => some (.ok line, { r with pump := p })

/-- The lines that nobody has taken. -/
def ahead (r : ReaderThread) : List (List UInt8) := r.pump.ahead Reading.source

/-- A call takes the line that it returns, and no other. -/
theorem readLine_takes {r r' : ReaderThread} {timeout : Option Int} {moments : List Pump.Moment}
    {result : Except Thrown (List UInt8)} (read : r.readLine timeout moments = some (result, r')) :
    result.toOption.toList ++ r'.ahead = r.ahead := by
  obtain ⟨pump, terminal⟩ := r
  cases terminal with
  | some e =>
      cases read
      rfl
  | none =>
      rw [readLine.eq_def] at read
      dsimp only at read
      split at read
      · cases read
        rfl
      · have left {p : Pump Reading TransportException (List UInt8)} {b : Broken}
            (waited : pump.wait Reading.source (pollBroken timeout.isSome) moments =
              some (.error b, p)) : p.ahead Reading.source = pump.ahead Reading.source := by
          cases Pump.wait_waited waited with
          | lost broken taken => cases broken
          | left broken early inside kept => exact kept
        split at read
        · cases read
        · rename_i p waited
          cases read
          exact left waited
        · rename_i p waited
          cases read
          exact left waited
        · rename_i e p waited
          cases read
          cases Pump.wait_waited waited with
          | taken taken =>
              cases taken with
              | ended none spent => exact spent.trans none.symm
        · rename_i line p waited
          cases read
          cases Pump.wait_waited waited with
          | taken taken =>
              cases taken with
              | line next => exact next.symm

end ReaderThread

end SanDbOxFormal.Java.Transport
