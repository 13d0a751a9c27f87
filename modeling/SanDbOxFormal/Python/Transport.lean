import SanDbOxFormal.Library.CappedFraming
import SanDbOxFormal.Library.Outlet
import SanDbOxFormal.Library.Pump
import SanDbOxFormal.Python.Runtime

/-!
# Transports of the Python driver

What a session uses of `_transport.py`: the background `_LineReader`, which both
transports have, and the writing end.  The thread and the queue of one item are those
of a pump; what the system does meanwhile is given by moments.
-/

namespace SanDbOxFormal.Python

open SanDbOxFormal.Library
open SanDbOxFormal.Library.Segments (complete)

/-- `MAX_LINE_BYTES`. -/
def maxLineBytes : Nat := 2 * 1024 * 1024

/-- An `OSError`, which may be a `TimeoutError` of the system. -/
inductive Fault where
  | os (message : PyStr)
  | timedOut (message : PyStr)
  deriving DecidableEq

def Fault.error : Fault → PyError
  | os m => .osError m
  | timedOut m => .timeoutError m

/-! ## The file -/

/-- The bytes that a file still yields, and what is raised behind them if not the end
of the file is there. -/
structure File where
  rest : List UInt8
  failure : Option Fault

/-- `readline(limit)`. -/
def File.readline (limit : Nat) (f : File) : Except Fault (List UInt8) × File :=
  let head := f.rest.takeWhile (· ≠ newline)
  if limit ≤ head.length then (.ok (f.rest.take limit), { f with rest := f.rest.drop limit })
  else
    match f.rest.drop head.length, f.failure with
    | _ :: rest, _ => (.ok (head ++ [newline]), { f with rest := rest })
    | [], none => (.ok head, { f with rest := [] })
    | [], some fault => (.error fault, { f with rest := [] })

/-! ## _LineReader -/

/-- An item of the queue that is an exception. -/
inductive Terminal where
  | eofError
  | lineTooLong
  | osError (fault : Fault)
  deriving DecidableEq

/-- The exception itself. -/
def Terminal.error : Terminal → PyError
  | eofError => .eofError (lit "connection closed")
  | lineTooLong =>
      .protocolError (lit ("response line exceeds " ++ toString maxLineBytes ++
        " bytes without a newline"))
  | osError fault => fault.error

/-- One turn of the loop of `_run`: the item that it puts. -/
def File.nextItem (f : File) : Except Terminal (List UInt8) × File :=
  match f.readline (maxLineBytes + 1) with
  | (.error fault, f) => (.error (.osError fault), f)
  | (.ok line, f) =>
      if line = [] then (.error .eofError, f)
      else if line.getLast? ≠ some newline then (.error .lineTooLong, f)
      else (.ok line.dropLast, f)

/-- The lines of a file that are not too long, up to the first that is. -/
def File.lines (f : File) : List (List UInt8) :=
  (complete newline f.rest).takeWhile fun line => line.length ≤ maxLineBytes

theorem File.lines_eq (f : File) : f.lines = (CappedFraming.lawful newline maxLineBytes f.rest).1 := rfl

/-- What `readline` finds. -/
inductive Readline (limit : Nat) (f : File) : Except Fault (List UInt8) × File → Prop where
  | line {content rest : List UInt8} (clean : newline ∉ content) (short : content.length < limit)
      (shape : f.rest = content ++ newline :: rest) :
      Readline limit f (.ok (content ++ [newline]), { f with rest := rest })
  | long {content more : List UInt8} (clean : newline ∉ content) (size : content.length = limit)
      (shape : f.rest = content ++ more) :
      Readline limit f (.ok content, { f with rest := more })
  | tail (clean : newline ∉ f.rest) (none : f.failure = none) :
      Readline limit f (.ok f.rest, { f with rest := [] })
  | fails {fault : Fault} (clean : newline ∉ f.rest) (short : f.rest.length < limit)
      (some : f.failure = some fault) : Readline limit f (.error fault, { f with rest := [] })

theorem takeWhile_segment {content : List UInt8} (clean : newline ∉ content) (rest : List UInt8) :
    (content ++ newline :: rest).takeWhile (· ≠ newline) = content := by
  rw [List.takeWhile_append_of_pos fun b inside => ?_]
  · simp
  · simpa using fun same : b = newline => clean (same ▸ inside)

theorem takeWhile_clean {bytes : List UInt8} (clean : newline ∉ bytes) :
    bytes.takeWhile (· ≠ newline) = bytes := by
  rw [List.takeWhile_eq_self_iff]
  exact fun b inside => by simpa using fun same : b = newline => clean (same ▸ inside)

theorem File.readline_readline (limit : Nat) (f : File) : Readline limit f (f.readline limit) := by
  have long {content more : List UInt8} (clean : newline ∉ content) (shape : f.rest = content ++ more)
      (size : limit ≤ content.length) :
      Readline limit f (.ok (f.rest.take limit), { f with rest := f.rest.drop limit }) := by
    refine .long (fun inside => ?_) ?_ (List.take_append_drop limit f.rest).symm
    · rw [shape, List.take_append_of_le_length size] at inside
      exact clean (List.mem_of_mem_take inside)
    · rw [List.length_take, shape, List.length_append]
      omega
  unfold readline
  rcases Segments.clean_or_segment newline f.rest with clean | ⟨content, rest, shape, clean⟩
  · rw [takeWhile_clean clean]
    dsimp only
    split
    · rename_i size
      exact long clean (List.append_nil _).symm size
    · rename_i short
      rw [List.drop_length]
      obtain ⟨rest, failure⟩ := f
      cases failure with
      | none => exact .tail clean rfl
      | some fault => exact .fails clean (Nat.lt_of_not_le short) rfl
  · rw [shape, takeWhile_segment clean, ← shape]
    dsimp only
    split
    · rename_i size
      exact long clean shape size
    · rename_i short
      rw [shape, List.drop_left]
      exact .line clean (Nat.lt_of_not_le short) shape

/-- What one turn of the loop finds. -/
inductive File.Next (f : File) : Except Terminal (List UInt8) × File → Prop where
  | line {content rest : List UInt8} (clean : newline ∉ content)
      (short : content.length ≤ maxLineBytes) (shape : f.rest = content ++ newline :: rest) :
      Next f (.ok content, { f with rest := rest })
  | long {content more : List UInt8} {f' : File} (clean : newline ∉ content)
      (exceeds : maxLineBytes < content.length) (shape : f.rest = content ++ more) :
      Next f (.error .lineTooLong, f')
  | eof {f' : File} (empty : f.rest = []) (none : f.failure = none) : Next f (.error .eofError, f')
  /-- The stream ends inside a line. -/
  | cut {f' : File} (clean : newline ∉ f.rest) (some : f.rest ≠ []) (none : f.failure = none) :
      Next f (.error .lineTooLong, f')
  | fails {fault : Fault} {f' : File} (clean : newline ∉ f.rest)
      (short : f.rest.length ≤ maxLineBytes) (some : f.failure = some fault) :
      Next f (.error (.osError fault), f')

/-- A piece without newline is no line. -/
theorem nextItem_of_clean {piece : List UInt8} (clean : newline ∉ piece) (f' : File) :
    (if piece = [] then ((.error .eofError, f') : Except Terminal (List UInt8) × File)
      else if piece.getLast? ≠ some newline then (.error .lineTooLong, f')
      else (.ok piece.dropLast, f')) =
        (if piece = [] then .error .eofError else .error .lineTooLong, f') := by
  split_ifs with empty ends
  · rfl
  · rfl
  · exact absurd (List.mem_of_getLast? (not_not.mp ends)) clean

theorem File.nextItem_next (f : File) : f.Next f.nextItem := by
  unfold nextItem
  have read := f.readline_readline (maxLineBytes + 1)
  generalize f.readline (maxLineBytes + 1) = outcome at read
  cases read with
  | @line content rest clean short shape =>
      have ends : (content ++ [newline]).getLast? = some newline := List.getLast?_concat
      simp only [ends, ne_eq, not_true_eq_false, if_false, List.dropLast_concat,
        List.append_eq_nil_iff, List.cons_ne_nil, and_false]
      exact .line clean (Nat.le_of_lt_succ short) shape
  | @long content more clean size shape =>
      dsimp only
      have some : content ≠ [] := List.ne_nil_of_length_eq_add_one size
      rw [nextItem_of_clean clean, if_neg some]
      exact .long clean (size ▸ Nat.lt_succ_self maxLineBytes) shape
  | tail clean none =>
      dsimp only
      rw [nextItem_of_clean clean]
      split_ifs with empty
      · exact .eof empty none
      · exact .cut clean empty none
  | fails clean short some => exact .fails clean (Nat.le_of_lt_succ short) some

theorem File.lines_clean {f : File} (clean : newline ∉ f.rest) : f.lines = [] :=
  congrArg Prod.fst (CappedFraming.lawful_clean clean)

/-- What the thread gets out of the file. -/
def reading : Source File Terminal (List UInt8) where
  next := File.nextItem
  lines := File.lines
  line_next := by
    intro f f' l took
    cases took ▸ f.nextItem_next with
    | line clean short shape =>
        rw [File.lines_eq, shape, CappedFraming.lawful_segment clean short]
        rfl
  end_next := by
    intro f f' e took
    cases took ▸ f.nextItem_next with
    | long clean exceeds shape => rw [File.lines_eq, shape, CappedFraming.lawful_long clean exceeds]
    | eof empty none => exact File.lines_clean (empty ▸ List.not_mem_nil)
    | cut clean some none => exact File.lines_clean clean
    | fails clean short some => exact File.lines_clean clean

structure LineReader where
  pump : Pump File Terminal (List UInt8)
  terminal : Option Terminal

/-- How a `queue.get` ends without an item. -/
inductive Broken where
  | empty
  | raised (e : PyError)

/-- At which moments a `queue.get` ends without an item; a timeout that is not a number
never expires. -/
def getBroken (timeoutMax : PyFloat) (timeout : Option PyFloat) : Pump.Moment → Option Broken
  | .turn => none
  | .look =>
      if timeout.any (·.exceeds timeoutMax) then
        some (.raised (.overflowError (lit "timeout value is too large")))
      else none
  | .expire =>
      if timeout.any (·.exceeds timeoutMax) then
        some (.raised (.overflowError (lit "timeout value is too large")))
      else if timeout.any (!·.isNan) then some .empty
      else none
  | .leave => some (.raised .keyboardInterrupt)
  | .lose => some (.raised .keyboardInterrupt)

namespace LineReader

def start (file : File) : LineReader := ⟨.start file, none⟩

/-- `read_line`; it does not return if the moments run out. -/
def readLine (timeoutMax : PyFloat) (r : LineReader) (timeout : Option PyFloat)
    (moments : List Pump.Moment) : Option (Except PyError (List UInt8) × LineReader) :=
  match r.terminal with
  | some e => some (.error e.error, r)
  | none =>
      if timeout.any (·.negative) then
        some (.error (.valueError (lit "'timeout' must be a non-negative number")), r)
      else
        match r.pump.wait reading (getBroken timeoutMax timeout) moments with
        | none => none
        | some (.error .empty, p) =>
            some (.error (.timeoutError (lit "timed out waiting for a response line")), { r with pump := p })
        | some (.error (.raised e), p) => some (.error e, { r with pump := p })
        | some (.ok (.error e), p) => some (.error e.error, { pump := p, terminal := some e })
        | some (.ok (.ok line), p) => some (.ok line, { r with pump := p })

/-- What is raised at the end of a wait without an item. -/
def broke : Broken → PyError
  | .empty => .timeoutError (lit "timed out waiting for a response line")
  | .raised e => e

/-- How a call of `read_line` returns. -/
inductive Returned (timeoutMax : PyFloat) (timeout : Option PyFloat) (moments : List Pump.Moment)
    (r : LineReader) : Except PyError (List UInt8) → LineReader → Prop where
  | again {e : Terminal} (is : r.terminal = some e) :
      Returned timeoutMax timeout moments r (.error e.error) r
  | refused (usable : r.terminal = none) (negative : timeout.any (·.negative) = true) :
      Returned timeoutMax timeout moments r
        (.error (.valueError (lit "'timeout' must be a non-negative number"))) r
  | broken {b : Broken} {p : Pump File Terminal (List UInt8)} (usable : r.terminal = none)
      (waited : r.pump.wait reading (getBroken timeoutMax timeout) moments = some (.error b, p)) :
      Returned timeoutMax timeout moments r (.error (broke b)) { r with pump := p }
  | ended {e : Terminal} {p : Pump File Terminal (List UInt8)} (usable : r.terminal = none)
      (waited : r.pump.wait reading (getBroken timeoutMax timeout) moments = some (.ok (.error e), p)) :
      Returned timeoutMax timeout moments r (.error e.error) { pump := p, terminal := some e }
  | line {l : List UInt8} {p : Pump File Terminal (List UInt8)} (usable : r.terminal = none)
      (waited : r.pump.wait reading (getBroken timeoutMax timeout) moments = some (.ok (.ok l), p)) :
      Returned timeoutMax timeout moments r (.ok l) { r with pump := p }

theorem readLine_returned {timeoutMax : PyFloat} {r r' : LineReader} {timeout : Option PyFloat}
    {moments : List Pump.Moment} {result : Except PyError (List UInt8)}
    (read : r.readLine timeoutMax timeout moments = some (result, r')) :
    Returned timeoutMax timeout moments r result r' := by
  obtain ⟨pump, terminal⟩ := r
  cases terminal with
  | some e =>
      cases read
      exact .again rfl
  | none =>
      rw [readLine.eq_def] at read
      dsimp only at read
      split at read
      · rename_i negative
        cases read
        exact .refused rfl negative
      · split at read
        · cases read
        · rename_i p waited
          cases read
          exact .broken (b := .empty) (r := ⟨pump, none⟩) rfl waited
        · rename_i e p waited
          cases read
          exact .broken (b := .raised e) (r := ⟨pump, none⟩) rfl waited
        · rename_i e p waited
          cases read
          exact .ended rfl waited
        · rename_i l p waited
          cases read
          exact .line rfl waited

/-- The lines that calls of `read_line` can still return. -/
def ahead (r : LineReader) : List (List UInt8) :=
  match r.terminal with
  | some _ => []
  | none => r.pump.ahead reading

end LineReader

/-! ## Transports -/

/-- What a session sees of either transport. -/
structure Transport where
  outlet : Outlet Fault UInt8
  reader : LineReader
  /-- `close` has run. -/
  closed : Bool

namespace Transport

def start (file : File) : Transport := ⟨.fresh, .start file, false⟩

def writeLine (t : Transport) (fault : Option Fault) (line : List UInt8) :
    Except Fault Unit × Transport :=
  let (result, outlet) := t.outlet.write fault line
  (result, { t with outlet })

def readLine (timeoutMax : PyFloat) (t : Transport) (timeout : Option PyFloat)
    (moments : List Pump.Moment) : Option (Except PyError (List UInt8) × Transport) :=
  (t.reader.readLine timeoutMax timeout moments).map fun (result, reader) => (result, { t with reader })

def close (t : Transport) : Transport := { t with closed := true }

end Transport

end SanDbOxFormal.Python
