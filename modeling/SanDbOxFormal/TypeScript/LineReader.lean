import SanDbOxFormal.Library.CappedFraming
import SanDbOxFormal.TypeScript.Runtime

/-!
# The line reader of the TypeScript driver

`LineReader` of `transport.ts`: chunks of the source in, lines to the waiting reads
or into the queue.  A waiter stands for the promise that one `readLine` returned; its
timer and its abort signal take it out again.
-/

namespace SanDbOxFormal.TypeScript

open SanDbOxFormal.Library.Segments
open SanDbOxFormal.Library.CappedFraming

def lf : UInt8 := 0x0A

def maxLineBytes : Nat := 2 * 1024 * 1024

structure LineReader (W : Type) where
  pending : List (List UInt8)
  pendingBytes : Nat
  queue : List (List UInt8)
  waiters : List W
  terminal : Option JsError
  paused : Bool
  counted : pendingBytes = pending.flatten.length

namespace LineReader

variable {W : Type}

/-- The promises of waiters that have been settled, in order. -/
abbrev Settled (W : Type) := List (W × Except JsError (List UInt8))

def new : LineReader W where
  pending := []
  pendingBytes := 0
  queue := []
  waiters := []
  terminal := none
  paused := false
  counted := rfl

def deliver (r : LineReader W) (line : List UInt8) : LineReader W × Settled W :=
  match r.waiters with
  | waiter :: waiters => ({ r with waiters := waiters }, [(waiter, .ok line)])
  | [] => ({ r with queue := r.queue ++ [line], paused := true }, [])

/-- The pieces of a line are dropped once they have been joined. -/
def clear (r : LineReader W) : LineReader W :=
  { r with pending := [], pendingBytes := 0, counted := rfl }

def keep (r : LineReader W) (rest : List UInt8) : LineReader W :=
  { r with
    pending := r.pending ++ [rest]
    pendingBytes := r.pendingBytes + rest.length
    counted := by simp [r.counted] }

/-- The loop over a chunk; `piece` is what it has passed since the last newline. -/
def scan (r : LineReader W) (piece : List UInt8) : List UInt8 →
    LineReader W × List UInt8 × Settled W
  | [] => (r, piece, [])
  | b :: bs =>
      if b ≠ lf then r.scan (piece ++ [b]) bs
      else
        let line := (r.pending ++ [piece]).flatten
        let (r', settled) := r.clear.deliver line
        let (r'', rest, more) := r'.scan [] bs
        (r'', rest, settled ++ more)

def terminate (r : LineReader W) (err : JsError) : LineReader W × Settled W :=
  if r.terminal.isSome then (r, [])
  else
    ({ r.clear with terminal := some err, paused := true, waiters := [] },
      r.waiters.map fun waiter => (waiter, .error err))

def tooLong : JsError :=
  .protocol (lit ("response line exceeds " ++ toString maxLineBytes ++ " bytes without a newline"))

def onData (r : LineReader W) (chunk : List UInt8) : LineReader W × Settled W :=
  if r.terminal.isSome then (r, [])
  else
    let (r, rest, settled) := r.scan [] chunk
    if rest.isEmpty then ({ r with paused := r.paused || !r.queue.isEmpty }, settled)
    else
      let r := r.keep rest
      if r.pendingBytes > maxLineBytes then
        let (r, rejected) := r.terminate tooLong
        (r, settled ++ rejected)
      else ({ r with paused := r.paused || !r.queue.isEmpty }, settled)

/-- `readLine` for the promise `waiter`; `aborted` is the reason of a signal that has
been aborted before.  The promise is settled at once or waits. -/
def readLine (r : LineReader W) (waiter : W) (aborted : Option JsError) :
    LineReader W × Option (Except JsError (List UInt8)) :=
  match r.queue with
  | queued :: queue =>
      ({ r with queue := queue, paused := r.paused && !queue.isEmpty }, some (.ok queued))
  | [] =>
      match r.terminal with
      | some err => (r, some (.error err))
      | none =>
          match aborted with
          | some reason => (r, some (.error reason))
          | none => ({ r with waiters := r.waiters ++ [waiter] }, none)

variable [DecidableEq W]

/-- The timer or the abort signal of a waiter takes it out. -/
def withdraw (r : LineReader W) (waiter : W) : LineReader W :=
  { r with waiters := r.waiters.erase waiter }

/-! ## What it does to the bytes -/

/-- The lines among what was settled. -/
def lines (settled : Settled W) : List (List UInt8) :=
  settled.filterMap fun s => s.2.toOption

/-- A read waits only while nothing is queued. -/
def Prompt (r : LineReader W) : Prop := r.queue = [] ∨ r.waiters = []

omit [DecidableEq W] in
theorem lines_append (first second : Settled W) :
    lines (first ++ second) = lines first ++ lines second :=
  List.filterMap_append

omit [DecidableEq W] in
theorem deliver_lines {r : LineReader W} {line : List UInt8} (prompt : r.Prompt) :
    lines (r.deliver line).2 ++ (r.deliver line).1.queue = r.queue ++ [line] ∧
      (r.deliver line).1.Prompt ∧ (r.deliver line).1.pending = r.pending ∧
      (r.deliver line).1.terminal = r.terminal := by
  rw [deliver]
  split
  · rename_i waiter waiters waiting
    have empty : r.queue = [] := prompt.resolve_right (by simp [waiting])
    exact ⟨by simp [lines, empty, Except.toOption], .inl empty, rfl, rfl⟩
  · rename_i waiting
    exact ⟨rfl, .inr waiting, rfl, rfl⟩

omit [DecidableEq W] in
/-- The loop hands out the lines of a chunk in order and keeps its tail. -/
theorem scan_lines {r : LineReader W} {piece chunk : List UInt8} (prompt : r.Prompt)
    (clean : lf ∉ r.pending.flatten ++ piece) :
    lines (r.scan piece chunk).2.2 ++ (r.scan piece chunk).1.queue =
        r.queue ++ complete lf (r.pending.flatten ++ piece ++ chunk) ∧
      (r.scan piece chunk).1.pending.flatten ++ (r.scan piece chunk).2.1 =
        remainder lf (r.pending.flatten ++ piece ++ chunk) ∧
      (r.scan piece chunk).1.Prompt ∧ (r.scan piece chunk).1.terminal = r.terminal := by
  induction chunk generalizing r piece with
  | nil =>
      rw [List.append_nil, complete_clean clean, remainder_clean clean]
      exact ⟨by simp [scan, lines], rfl, prompt, rfl⟩
  | cons b bs ih =>
      by_cases other : b ≠ lf
      · rw [scan, if_pos other]
        have still : lf ∉ r.pending.flatten ++ (piece ++ [b]) := by
          rw [← List.append_assoc, List.mem_append, not_or, List.mem_singleton]
          exact ⟨clean, other.symm⟩
        simpa using ih prompt still
      · rw [not_not] at other
        subst other
        have line : (r.pending ++ [piece]).flatten = r.pending.flatten ++ piece := by simp
        obtain ⟨handed, after, kept, same⟩ := @deliver_lines _ r.clear
          (r.pending.flatten ++ piece) prompt
        have fresh : (r.clear.deliver (r.pending.flatten ++ piece)).1.pending.flatten = [] := by
          rw [kept]
          rfl
        have next := @ih _ [] after (by simp [fresh])
        rw [fresh] at next
        obtain ⟨more, left, prompt, terminal⟩ := next
        rw [scan, if_neg (by simp), line, complete_segment clean, remainder_segment clean]
        refine ⟨?_, left, prompt, terminal.trans same⟩
        rw [lines_append, List.append_assoc, more, ← List.append_assoc, handed, List.append_assoc]
        rfl

omit [DecidableEq W] in
/-- A chunk leaves the kept pieces alone or drops them. -/
theorem scan_pending (r : LineReader W) (piece chunk : List UInt8) :
    (r.scan piece chunk).1.pending = r.pending ∨ (r.scan piece chunk).1.pending = [] := by
  induction chunk generalizing r piece with
  | nil => exact .inl rfl
  | cons b bs ih =>
      rw [scan]
      split
      · exact ih r _
      · have dropped : (r.clear.deliver (r.pending ++ [piece]).flatten).1.pending = [] := by
          rw [deliver]
          split <;> rfl
        right
        rcases ih (r.clear.deliver (r.pending ++ [piece]).flatten).1 [] with same | empty
        · exact same.trans dropped
        · exact empty

/-! ## Runs -/

inductive Event (W : Type) where
  | data (chunk : List UInt8)
  | readLine (waiter : W) (aborted : Option JsError)
  | withdraw (waiter : W)

/-- One event, and the lines that it hands out. -/
def step (r : LineReader W) : Event W → LineReader W × List (List UInt8)
  | .data chunk => ((r.onData chunk).1, lines (r.onData chunk).2)
  | .readLine waiter aborted =>
      ((r.readLine waiter aborted).1, ((r.readLine waiter aborted).2.bind Except.toOption).toList)
  | .withdraw waiter => (r.withdraw waiter, [])

/-- The lines handed out by a sequence of events, and the reader after it. -/
def serve (events : List (Event W)) : LineReader W × List (List UInt8) :=
  events.foldl (fun s event => ((s.1.step event).1, s.2 ++ (s.1.step event).2)) (new, [])

def chunks (events : List (Event W)) : List (List UInt8) :=
  events.filterMap fun
    | .data chunk => some chunk
    | _ => none

/-- The reader has measured the tails of the chunks so far; `handed` is what it has
handed out. -/
structure Measured (p : Progress UInt8) (r : LineReader W) (handed : List (List UInt8)) : Prop where
  prompt : r.Prompt
  lines : handed ++ r.queue = p.lines
  terminal : r.terminal = if p.capped then some tooLong else none
  tail : p.capped = false → r.pending.flatten = p.tail
  clean : p.capped = false → lf ∉ p.tail
  short : p.capped = false → p.tail.length ≤ maxLineBytes

omit [DecidableEq W] in
theorem Measured.onData {p : Progress UInt8} {r : LineReader W} {handed : List (List UInt8)}
    (measured : Measured p r handed) (chunk : List UInt8) :
    Measured (p.feed lf maxLineBytes chunk) (r.onData chunk).1
      (handed ++ LineReader.lines (r.onData chunk).2) := by
  obtain ⟨prompt, given, terminal, tail, clean, short⟩ := measured
  cases capped : p.capped with
  | true =>
      have ended : r.terminal.isSome = true := by simp [terminal, capped]
      have same : p.feed lf maxLineBytes chunk = p := if_pos capped
      rw [LineReader.onData, if_pos ended, same]
      exact ⟨prompt, by simpa [LineReader.lines] using given, terminal, tail, clean, short⟩
  | false =>
      have running : r.terminal = none := by simp [terminal, capped]
      have pending := tail capped
      have start : lf ∉ r.pending.flatten ++ [] := by simpa [pending] using clean capped
      obtain ⟨out, left, after, still⟩ := @scan_lines _ r [] chunk prompt start
      rw [List.append_nil, pending] at out left
      have feed : p.feed lf maxLineBytes chunk =
          { lines := p.lines ++ complete lf (p.tail ++ chunk)
            tail := remainder lf (p.tail ++ chunk)
            capped := decide (maxLineBytes < (remainder lf (p.tail ++ chunk)).length) } :=
        if_neg (by simp [capped])
      have flow : handed ++ LineReader.lines (r.scan [] chunk).2.2 ++ (r.scan [] chunk).1.queue =
          p.lines ++ complete lf (p.tail ++ chunk) := by
        rw [List.append_assoc, out, ← List.append_assoc, given]
      have whole := not_mem_remainder lf (p.tail ++ chunk)
      rw [LineReader.onData, if_neg (by simp [running]), feed]
      dsimp only
      split
      · rename_i nothing
        rw [List.isEmpty_iff] at nothing
        rw [nothing, List.append_nil] at left
        have small : (remainder lf (p.tail ++ chunk)).length ≤ maxLineBytes := by
          rw [← left]
          rcases scan_pending r [] chunk with same | empty
          · rw [same, pending]
            exact short capped
          · simp [empty]
        refine ⟨after, flow, ?_, fun _ => left, fun _ => whole, fun _ => small⟩
        simp [still, running, small]
      · have kept : ((r.scan [] chunk).1.keep (r.scan [] chunk).2.1).pending.flatten =
            remainder lf (p.tail ++ chunk) := by simp [keep, left]
        have bytes := ((r.scan [] chunk).1.keep (r.scan [] chunk).2.1).counted
        rw [kept] at bytes
        have unended : ((r.scan [] chunk).1.keep (r.scan [] chunk).2.1).terminal = none :=
          still.trans running
        split
        · rename_i long
          rw [bytes] at long
          have rejected : LineReader.lines
              (((r.scan [] chunk).1.keep (r.scan [] chunk).2.1).terminate tooLong).2 = [] := by
            simp [terminate, unended, LineReader.lines, Except.toOption]
          have ended : (((r.scan [] chunk).1.keep (r.scan [] chunk).2.1).terminate tooLong).1 =
              { (r.scan [] chunk).1.clear with
                terminal := some tooLong, paused := true, waiters := [] } := by
            rw [terminate, if_neg (by simp [unended])]
            rfl
          rw [lines_append, rejected, List.append_nil, ended]
          have capped : decide (maxLineBytes < (remainder lf (p.tail ++ chunk)).length) = true :=
            decide_eq_true long
          rw [capped]
          exact ⟨.inr rfl, flow, rfl, nofun, nofun, nofun⟩
        · rename_i small
          rw [bytes] at small
          refine ⟨after, flow, ?_, fun _ => kept, fun _ => whole, fun _ => Nat.le_of_not_lt small⟩
          simp [unended, Nat.le_of_not_lt small]

omit [DecidableEq W] in
theorem Measured.readLine {p : Progress UInt8} {r : LineReader W} {handed : List (List UInt8)}
    (measured : Measured p r handed) (waiter : W) (aborted : Option JsError) :
    Measured p (r.readLine waiter aborted).1
      (handed ++ ((r.readLine waiter aborted).2.bind Except.toOption).toList) := by
  obtain ⟨prompt, given, terminal, tail, clean, short⟩ := measured
  unfold LineReader.readLine
  split
  · rename_i queued queue same
    rw [same] at given
    have idle : r.waiters = [] := prompt.resolve_left (by simp [same])
    exact ⟨.inr idle, by simpa [Except.toOption] using given, terminal, tail, clean, short⟩
  · rename_i empty
    rw [empty, List.append_nil] at given
    split
    · exact ⟨prompt, by simp [empty, given, Except.toOption], terminal, tail, clean, short⟩
    · split
      · exact ⟨prompt, by simp [empty, given, Except.toOption], terminal, tail, clean, short⟩
      · exact ⟨.inl empty, by simp [empty, given], terminal, tail, clean, short⟩

theorem Measured.withdraw {p : Progress UInt8} {r : LineReader W} {handed : List (List UInt8)}
    (measured : Measured p r handed) (waiter : W) : Measured p (r.withdraw waiter) handed := by
  obtain ⟨prompt, given, terminal, tail, clean, short⟩ := measured
  refine ⟨?_, given, terminal, tail, clean, short⟩
  rcases prompt with empty | idle
  · exact .inl empty
  · exact .inr (by simp [LineReader.withdraw, idle])

/-- Whatever the reads do, the reader measures the tail after each chunk. -/
theorem serve_measured (events : List (Event W)) :
    Measured (progress lf maxLineBytes (chunks events)) (serve events).1 (serve events).2 := by
  induction events using List.reverseRecOn with
  | nil =>
      exact ⟨.inl rfl, rfl, rfl, fun _ => rfl, fun _ => List.not_mem_nil, fun _ => Nat.zero_le _⟩
  | append_singleton events event ih =>
      have last : serve (events ++ [event]) = (((serve events).1.step event).1,
          (serve events).2 ++ ((serve events).1.step event).2) := by simp [serve]
      rw [last]
      cases event with
      | data chunk =>
          have more : chunks (events ++ [Event.data chunk]) = chunks events ++ [chunk] := by
            simp [chunks]
          rw [more, progress_concat]
          exact ih.onData chunk
      | readLine waiter aborted =>
          have more : chunks (events ++ [Event.readLine waiter aborted]) = chunks events := by
            simp [chunks]
          rw [more]
          exact ih.readLine waiter aborted
      | withdraw waiter =>
          have more : chunks (events ++ [Event.withdraw waiter]) = chunks events := by
            simp [chunks]
          rw [more]
          simpa [step] using ih.withdraw waiter

end LineReader

end SanDbOxFormal.TypeScript
