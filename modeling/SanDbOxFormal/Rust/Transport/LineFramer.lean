import SanDbOxFormal.Library.LineBuffer
import SanDbOxFormal.Rust.Error

/-!
# The line framer

The byte-to-line state machine of `transport/mod.rs`, shared by both transports.
It carries its own invariant: what it has scanned holds no newline, so scanning
only the rest misses none.
-/

namespace SanDbOxFormal.Rust.Transport

open SanDbOxFormal.Library
open SanDbOxFormal.Library.Segments

def newline : UInt8 := 0x0A

def maxLineBytes : Nat := 2 * 1024 * 1024

structure LineFramer where
  buf : List UInt8
  /-- How much of `buf`, from the front, is known to hold no newline. -/
  scanned : Nat
  bounded : scanned ≤ buf.length
  clean : newline ∉ buf.take scanned

namespace LineFramer

def new : LineFramer where
  buf := []
  scanned := 0
  bounded := Nat.le_refl 0
  clean := List.not_mem_nil

def push (f : LineFramer) (chunk : List UInt8) : LineFramer where
  buf := f.buf ++ chunk
  scanned := f.scanned
  bounded := by
    rw [List.length_append]
    exact Nat.le_add_right_of_le f.bounded
  clean := by
    rw [List.take_append_of_le_length f.bounded]
    exact f.clean

/-- `self.buf[self.scanned..].iter().position(..)`. -/
def position (f : LineFramer) : Option Nat := (f.buf.drop f.scanned).findIdx? (· = newline)

/-- The bytes behind a line, none of them scanned. -/
def restart (buf : List UInt8) : LineFramer where
  buf := buf
  scanned := 0
  bounded := Nat.zero_le _
  clean := List.not_mem_nil

/-- What is left in the buffer when it holds no newline. -/
def exhausted (f : LineFramer) (none : newline ∉ f.buf) : LineFramer where
  buf := f.buf
  scanned := f.buf.length
  bounded := Nat.le_refl _
  clean := by
    rw [List.take_length]
    exact none

/-- The framer as a buffer that is scanned once. -/
def buffer (f : LineFramer) : LineBuffer UInt8 newline := ⟨f.buf, f.scanned, f.bounded, f.clean⟩

theorem not_mem_of_position {f : LineFramer} (found : f.position = none) : newline ∉ f.buf :=
  LineBuffer.not_mem_of_find (b := f.buffer) found

/-- `take_line`: one complete line, or nothing yet, or a line that is too long. -/
def takeLine (f : LineFramer) : Except Error (Option (List UInt8)) × LineFramer :=
  match found : f.position with
  | some rel =>
      let pos := f.scanned + rel
      (.ok (some (f.buf.take pos)), restart (f.buf.drop (pos + 1)))
  | none =>
      let g := f.exhausted (not_mem_of_position found)
      if g.buf.length > maxLineBytes then
        (.error (.protocol ("response line exceeds " ++ toString maxLineBytes ++
          " bytes without a newline")), g)
      else (.ok none, g)

/-- The first newline of the buffer is where the scan says. -/
theorem buf_eq_of_position {f : LineFramer} {rel : Nat} (found : f.position = some rel) :
    f.buf = f.buf.take (f.scanned + rel) ++ newline :: f.buf.drop (f.scanned + rel + 1) ∧
      newline ∉ f.buf.take (f.scanned + rel) :=
  LineBuffer.buf_eq_of_find (b := f.buffer) found

/-! ## What it does to the bytes -/

/-- Without a newline in the buffer nothing is taken; past the limit it is an error. -/
theorem takeLine_clean {f : LineFramer} (none : newline ∉ f.buf) :
    f.takeLine.2.buf = f.buf ∧
      (f.buf.length ≤ maxLineBytes → f.takeLine.1 = .ok Option.none) := by
  have found : f.position = Option.none := by
    rw [position, List.findIdx?_eq_none_iff]
    intro b inside
    rw [decide_eq_false_iff_not]
    rintro rfl
    exact none (List.mem_of_mem_drop inside)
  unfold takeLine
  split
  · rename_i rel other
    rw [found] at other
    cases other
  · dsimp only
    split
    · rename_i long
      exact ⟨rfl, fun short => absurd long (Nat.not_lt_of_le short)⟩
    · exact ⟨rfl, fun _ => rfl⟩

/-- A newline in the buffer ends the line that is taken. -/
theorem takeLine_segment {f : LineFramer} {line rest : List UInt8} (clean : newline ∉ line)
    (shape : f.buf = line ++ newline :: rest) :
    f.takeLine.1 = .ok (some line) ∧ f.takeLine.2.buf = rest := by
  unfold takeLine
  split
  · rename_i rel found
    obtain ⟨cut, before⟩ := buf_eq_of_position found
    have same : f.buf.take (f.scanned + rel) = line ∧ f.buf.drop (f.scanned + rel + 1) = rest := by
      have whole := cut.symm.trans shape
      have segments := congrArg (complete newline) whole
      rw [complete_segment before, complete_segment clean, List.cons.injEq] at segments
      rw [segments.1, List.append_cancel_left_eq, List.cons.injEq] at whole
      exact ⟨segments.1, whole.2⟩
    dsimp only
    rw [same.1, same.2]
    exact ⟨rfl, rfl⟩
  · rename_i found
    refine absurd ?_ (not_mem_of_position found)
    rw [shape]
    exact List.mem_append_right _ List.mem_cons_self

/-! ## Feeding it -/

/-- Takes lines until none is complete. -/
def drain : Nat → LineFramer → Except Error (List (List UInt8) × LineFramer)
  | 0, f => .ok ([], f)
  | n + 1, f =>
      match f.takeLine with
      | (.ok none, g) => .ok ([], g)
      | (.ok (some line), g) => do
          let (lines, h) ← drain n g
          .ok (line :: lines, h)
      | (.error e, _) => .error e

/-- Pushes the chunks one by one and takes every line that each completes. -/
def feed : LineFramer → List (List UInt8) → Except Error (List (List UInt8) × LineFramer)
  | f, [] => .ok ([], f)
  | f, chunk :: rest => do
      let (lines, g) ← drain ((f.push chunk).buf.length + 1) (f.push chunk)
      let (more, h) ← feed g rest
      .ok (lines ++ more, h)

theorem drain_spec {n : Nat} {f : LineFramer} (enough : f.buf.length < n)
    (short : (remainder newline f.buf).length ≤ maxLineBytes) :
    ∃ g, drain n f = .ok (complete newline f.buf, g) ∧ g.buf = remainder newline f.buf := by
  induction n generalizing f with
  | zero => exact absurd enough (Nat.not_lt_zero _)
  | succ n ih =>
      rcases clean_or_segment newline f.buf with none | ⟨line, rest, shape, clean⟩
      · obtain ⟨kept, nothing⟩ := takeLine_clean none
        rw [remainder_clean none] at short ⊢
        refine ⟨f.takeLine.2, ?_, kept⟩
        rw [drain, complete_clean none]
        have step : f.takeLine = (.ok Option.none, f.takeLine.2) := Prod.ext (nothing short) rfl
        rw [step]
      · obtain ⟨taken, left⟩ := takeLine_segment clean shape
        have size := congrArg List.length shape
        rw [List.length_append, List.length_cons] at size
        rw [shape, remainder_segment clean, ← left] at short
        obtain ⟨g, drained, buf⟩ := ih (by rw [left]; omega) short
        refine ⟨g, ?_, ?_⟩
        · have step : f.takeLine = (.ok (some line), f.takeLine.2) := Prod.ext taken rfl
          rw [drain, step]
          change (drain n f.takeLine.2 >>= _) = _
          rw [drained, shape, complete_segment clean, left]
          rfl
        · rw [buf, left, shape, remainder_segment clean]

/-- However a stream is cut into chunks, its complete segments come out in order. -/
theorem feed_spec {chunks : List (List UInt8)} {f : LineFramer} (clean : newline ∉ f.buf)
    (bounded : Bounded newline maxLineBytes (f.buf ++ chunks.flatten)) :
    ∃ g, feed f chunks = .ok (complete newline (f.buf ++ chunks.flatten), g) ∧
      g.buf = remainder newline (f.buf ++ chunks.flatten) := by
  induction chunks generalizing f with
  | nil =>
      rw [List.flatten_nil, List.append_nil, complete_clean clean, remainder_clean clean]
      exact ⟨f, rfl, rfl⟩
  | cons chunk rest ih =>
      rw [List.flatten_cons, ← List.append_assoc] at bounded ⊢
      obtain ⟨g, drained, buf⟩ := drain_spec (n := (f.push chunk).buf.length + 1)
        (f := f.push chunk) (Nat.lt_succ_self _) bounded.remainder_le
      have left : g.buf = remainder newline (f.buf ++ chunk) := buf
      have later : Bounded newline maxLineBytes (g.buf ++ rest.flatten) := by
        obtain ⟨segments, tail⟩ := bounded
        rw [complete_append] at segments
        rw [remainder_append] at tail
        rw [left]
        exact ⟨fun segment inside => segments segment (List.mem_append_right _ inside), tail⟩
      have unfinished : newline ∉ g.buf := by
        rw [left]
        exact not_mem_remainder _ _
      obtain ⟨h, fed, kept⟩ := ih unfinished later
      refine ⟨h, ?_, ?_⟩
      · rw [feed, drained]
        change (feed g rest >>= _) = _
        rw [fed, complete_append newline (f.buf ++ chunk), ← left]
        rfl
      · rw [kept, left, ← remainder_append]

/-- The framers that a caller can get to. -/
inductive Reachable : LineFramer → Prop where
  | new : Reachable new
  | push {f : LineFramer} (chunk : List UInt8) (before : Reachable f) : Reachable (f.push chunk)
  | takeLine {f : LineFramer} (before : Reachable f) : Reachable f.takeLine.2

/-- The cuts of a stream do not show: what comes out are its segments, byte for byte,
and what stays is its tail; and no newline is ever behind the scan. -/
theorem framer_ignores_chunks :
    (∀ bytes : List UInt8, Bounded newline maxLineBytes bytes →
      ∀ chunks : List (List UInt8), chunks.flatten = bytes →
      ∃ f, feed new chunks = .ok (complete newline bytes, f) ∧ f.buf = remainder newline bytes) ∧
    (∀ bytes : List UInt8,
      frame newline (complete newline bytes) ++ remainder newline bytes = bytes ∧
      (∀ line ∈ complete newline bytes, newline ∉ line) ∧ newline ∉ remainder newline bytes) ∧
    (∀ f, Reachable f → f.scanned ≤ f.buf.length ∧ newline ∉ f.buf.take f.scanned) := by
  refine ⟨fun bytes bounded chunks cut => ?_, fun bytes => ?_, fun f _ => ⟨f.bounded, f.clean⟩⟩
  · subst cut
    exact @feed_spec chunks new List.not_mem_nil bounded
  · exact ⟨frame_complete newline bytes, not_mem_complete newline bytes,
      not_mem_remainder newline bytes⟩

end LineFramer

end SanDbOxFormal.Rust.Transport
