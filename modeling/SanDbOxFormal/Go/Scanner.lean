import SanDbOxFormal.Go.Runtime
import SanDbOxFormal.Library.CappedFraming

/-!
# The line scanner

`bufio.Scanner` with `ScanLines`, as `newLineScanner` sets it up, and the loop that
reads all lines of a connection.  The scanner keeps what it has read in a buffer that
doubles up to the maximum; a line has to fit there with its newline.
-/

namespace SanDbOxFormal.Go

open SanDbOxFormal.Library.Segments
open SanDbOxFormal.Library.CappedFraming

def newline : UInt8 := 0x0A

def carriageReturn : UInt8 := 0x0D

def maxLineSize : Nat := 2 * 1024 * 1024

/-- The size of the buffer in the beginning. -/
def startSize : Nat := 64 * 1024

def dropCR (data : List UInt8) : List UInt8 :=
  if data.getLast? = some carriageReturn then data.dropLast else data

/-- `ScanLines`: how far to advance, and the token if there is one. -/
def scanLines (data : List UInt8) (atEOF : Bool) : Nat × Option (List UInt8) :=
  let line := data.takeWhile (· ≠ newline)
  if atEOF && data.isEmpty then (0, none)
  else if line.length < data.length then (line.length + 1, some (dropCR line))
  else if atEOF then (data.length, some (dropCR data))
  else (0, none)

/-- A read that waits until something has arrived; it returns nothing at the end of
the stream only. -/
def read (room : Nat) : List (List UInt8) → List UInt8 × List (List UInt8)
  | [] => ([], [])
  | chunk :: rest =>
      if chunk.isEmpty then read room rest
      else if chunk.length ≤ room then (chunk, rest)
      else (chunk.take room, chunk.drop room :: rest)

/-! ## What the two find -/

inductive Scanned (data : List UInt8) : Bool → Nat × Option (List UInt8) → Prop where
  | line {atEOF : Bool} {line rest : List UInt8} (clean : newline ∉ line)
      (shape : data = line ++ newline :: rest) :
      Scanned data atEOF (line.length + 1, some (dropCR line))
  | tail (clean : newline ∉ data) (filled : data ≠ []) :
      Scanned data true (data.length, some (dropCR data))
  | nothing {atEOF : Bool} (clean : newline ∉ data) (stays : atEOF = true → data = []) :
      Scanned data atEOF (0, none)

theorem scanLines_scanned (data : List UInt8) (atEOF : Bool) :
    Scanned data atEOF (scanLines data atEOF) := by
  rw [scanLines]
  rcases clean_or_segment newline data with clean | ⟨line, rest, shape, clean⟩
  · have whole : data.takeWhile (· ≠ newline) = data := by
      rw [List.takeWhile_eq_self_iff]
      exact fun b inside => by simpa using fun same : b = newline => clean (same ▸ inside)
    rw [whole, if_neg (Nat.lt_irrefl _)]
    cases atEOF with
    | false => exact .nothing clean nofun
    | true =>
        cases data with
        | nil => exact .nothing clean fun _ => rfl
        | cons b bs => exact .tail clean (List.cons_ne_nil b bs)
  · have head : data.takeWhile (· ≠ newline) = line := by
      rw [shape, List.takeWhile_append_of_pos fun b inside => ?_]
      · simp
      · simpa using fun same : b = newline => clean (same ▸ inside)
    have shorter : line.length < data.length := by
      rw [shape, List.length_append, List.length_cons]
      omega
    have some : data.isEmpty = false := by
      cases data with
      | nil => exact absurd shorter (Nat.not_lt_zero _)
      | cons b bs => rfl
    rw [head, some, Bool.and_false, if_neg Bool.false_ne_true, if_pos shorter]
    exact .line clean shape

theorem scanLines_le (data : List UInt8) (atEOF : Bool) : (scanLines data atEOF).1 ≤ data.length := by
  have scanned := scanLines_scanned data atEOF
  generalize scanLines data atEOF = result at scanned
  cases scanned with
  | line clean shape =>
      rw [shape, List.length_append, List.length_cons]
      omega
  | tail => exact Nat.le_refl _
  | nothing => exact Nat.zero_le _

/-- A read takes the next bytes of the stream, and no more than there is room for. -/
theorem read_flatten (room : Nat) (arriving : List (List UInt8)) :
    (read room arriving).1 ++ (read room arriving).2.flatten = arriving.flatten := by
  induction arriving with
  | nil => rfl
  | cons chunk rest ih =>
      rw [read]
      split_ifs with empty fits
      · rw [ih, List.isEmpty_iff.mp empty, List.flatten_cons, List.nil_append]
      · rw [List.flatten_cons]
      · simp only [List.flatten_cons]
        rw [← List.append_assoc, List.take_append_drop]

theorem read_le (room : Nat) (arriving : List (List UInt8)) : (read room arriving).1.length ≤ room := by
  induction arriving with
  | nil => exact Nat.zero_le _
  | cons chunk rest ih =>
      rw [read]
      split_ifs with empty fits
      · exact ih
      · exact fits
      · exact List.length_take_le _ _

/-- Where there is room, a read returns nothing only at the end of the stream. -/
theorem read_nil {room : Nat} (some : 0 < room) {arriving : List (List UInt8)}
    (nothing : (read room arriving).1 = []) : arriving.flatten = [] := by
  induction arriving with
  | nil => rfl
  | cons chunk rest ih =>
      rw [read] at nothing
      split_ifs at nothing with empty fits
      · rw [List.flatten_cons, List.isEmpty_iff.mp empty, ih nothing, List.append_nil]
      · exact absurd (List.isEmpty_iff.mpr nothing) empty
      · rcases List.take_eq_nil_iff.mp nothing with none | none
        · omega
        · exact absurd (List.isEmpty_iff.mpr none) empty

/-! ## Scanner -/

structure Scanner where
  /-- `buf[start:end]`. -/
  held : List UInt8
  start : Nat
  /-- `len(buf)`. -/
  size : Nat
  /-- What the connection still has to return, as it comes in. -/
  arriving : List (List UInt8)
  /-- The error of the read behind it. -/
  ending : Cause
  err : Option Cause
  inside : start + held.length ≤ size
  bounded : size ≤ maxLineSize
  positive : 0 < size
  /-- An error comes when nothing is left to read and there was room for more. -/
  drained : ∀ e, err = some e → e = ending ∧ arriving.flatten = [] ∧ held.length < maxLineSize

/-- What happens in one turn of the loop of `Scan`. -/
inductive Turn where
  | token (line : List UInt8) (s : Scanner)
  | stop (err : Cause)
  | again (s : Scanner)

/-- `newLineScanner`. -/
def newLineScanner (arriving : List (List UInt8)) (ending : Cause) : Scanner where
  held := []
  start := 0
  size := startSize
  arriving := arriving
  ending := ending
  err := none
  inside := Nat.zero_le _
  bounded := by decide
  positive := by decide
  drained := nofun

namespace Scanner

def advance (s : Scanner) (n : Nat) (within : n ≤ s.held.length) : Scanner :=
  { s with
    held := s.held.drop n
    start := s.start + n
    inside := by
      have inside := s.inside
      rw [List.length_drop]
      omega
    drained := by
      intro e failed
      obtain ⟨same, nothing, short⟩ := s.drained e failed
      exact ⟨same, nothing, Nat.lt_of_le_of_lt (List.drop_sublist n _).length_le short⟩ }

/-- Data is moved to the front of the buffer when that is full or mostly passed. -/
def shift (s : Scanner) : Scanner :=
  if 0 < s.start ∧ (s.start + s.held.length = s.size ∨ s.size / 2 < s.start) then
    { s with
      start := 0
      inside := by
        have inside := s.inside
        omega }
  else s

/-- A full buffer is doubled, up to the maximum. -/
def grow (s : Scanner) : Scanner :=
  if s.start + s.held.length = s.size then
    { s with
      start := 0
      size := min (s.size * 2) maxLineSize
      inside := by
        have inside := s.inside
        have bounded := s.bounded
        omega
      bounded := Nat.min_le_right _ _
      positive := by
        have positive := s.positive
        have bounded := s.bounded
        omega }
  else s

def room (s : Scanner) : Nat := s.size - (s.start + s.held.length)

def append (s : Scanner) (bytes : List UInt8) (arriving : List (List UInt8))
    (fits : bytes.length ≤ s.room) (usable : s.err = none) : Scanner :=
  { s with
    held := s.held ++ bytes
    arriving := arriving
    inside := by
      have inside := s.inside
      rw [room] at fits
      rw [List.length_append]
      omega
    drained := by
      intro e failed
      rw [usable] at failed
      cases failed }

@[simp] theorem shift_held (s : Scanner) : s.shift.held = s.held := by
  unfold shift
  split <;> rfl

@[simp] theorem shift_arriving (s : Scanner) : s.shift.arriving = s.arriving := by
  unfold shift
  split <;> rfl

@[simp] theorem shift_err (s : Scanner) : s.shift.err = s.err := by
  unfold shift
  split <;> rfl

@[simp] theorem shift_ending (s : Scanner) : s.shift.ending = s.ending := by
  unfold shift
  split <;> rfl

@[simp] theorem grow_held (s : Scanner) : s.grow.held = s.held := by
  unfold grow
  split <;> rfl

@[simp] theorem grow_arriving (s : Scanner) : s.grow.arriving = s.arriving := by
  unfold grow
  split <;> rfl

@[simp] theorem grow_err (s : Scanner) : s.grow.err = s.err := by
  unfold grow
  split <;> rfl

@[simp] theorem grow_ending (s : Scanner) : s.grow.ending = s.ending := by
  unfold grow
  split <;> rfl

/-- The buffer is full and cannot grow. -/
def Full (s : Scanner) : Prop := s.start + s.held.length = s.size ∧ maxLineSize ≤ s.size

instance (s : Scanner) : Decidable s.Full := inferInstanceAs (Decidable (_ ∧ _))

/-- Behind a shift, a full buffer holds nothing that is passed. -/
theorem shift_full {s : Scanner} (full : s.shift.Full) : s.held.length = maxLineSize := by
  obtain ⟨ends, large⟩ := full
  have bounded := s.bounded
  unfold shift at ends large
  split_ifs at ends large with moves
  · change 0 + s.held.length = s.size at ends
    change maxLineSize ≤ s.size at large
    omega
  · omega

theorem grow_room {s : Scanner} (fits : ¬ s.Full) : 0 < s.grow.room := by
  have inside := s.inside
  have bounded := s.bounded
  have positive := s.positive
  rw [Full] at fits
  unfold room grow
  split_ifs with ends
  · change 0 < min (s.size * 2) maxLineSize - (0 + s.held.length)
    omega
  · omega

/-- The part of a turn behind the split function. -/
def refill (s : Scanner) (usable : s.err = none) : Turn :=
  if fits : s.shift.Full then .stop .tooLong
  else
    let t := s.shift.grow
    let got := read t.room t.arriving
    if nothing : got.1 = [] then
      .again
        { t with
          arriving := got.2
          err := some t.ending
          drained := by
            rintro e ⟨⟩
            have rest := read_flatten t.room t.arriving
            rw [read_nil (grow_room fits) nothing] at rest
            have some : 0 < t.size - (t.start + t.held.length) := grow_room fits
            have bounded := t.bounded
            exact ⟨rfl, (List.append_eq_nil_iff.mp rest).2, by omega⟩ }
    else .again (t.append got.1 got.2 (read_le _ _) (by simp [t, usable]))

/-- The turn, by what the split function has found. -/
def turnWith (s : Scanner) (found : Nat × Option (List UInt8)) (within : found.1 ≤ s.held.length) : Turn :=
  match found.2 with
  | some line => .token line (s.advance found.1 within)
  | none =>
      match usable : s.err with
      | some e => .stop e
      | none => s.refill usable

def turn (s : Scanner) : Turn := s.turnWith (scanLines s.held s.err.isSome) (scanLines_le _ _)

/-- What the connection has not been turned into lines yet. -/
def stream (s : Scanner) : List UInt8 := s.held ++ s.arriving.flatten

/-- What a turn does to the rest of the stream. -/
inductive Turned (s : Scanner) : Turn → Prop where
  | line {line : List UInt8} {s' : Scanner} (clean : newline ∉ line) (short : line.length < maxLineSize)
      (shape : s.stream = line ++ newline :: s'.stream) (ending : s'.ending = s.ending)
      (length : s'.held.length < s.held.length) (kept : s'.arriving = s.arriving) :
      Turned s (.token (dropCR line) s')
  | tail {s' : Scanner} (whole : s.stream = s.held) (clean : newline ∉ s.held) (filled : s.held ≠ [])
      (short : s.held.length < maxLineSize) (empty : s'.stream = []) (ending : s'.ending = s.ending)
      (length : s'.held.length < s.held.length) (kept : s'.arriving = s.arriving) :
      Turned s (.token (dropCR s.held) s')
  | finished (empty : s.stream = []) : Turned s (.stop s.ending)
  | long {front more : List UInt8} (clean : newline ∉ front) (exceeds : maxLineSize ≤ front.length)
      (shape : s.stream = front ++ more) : Turned s (.stop .tooLong)
  | came {s' : Scanner} (same : s'.stream = s.stream) (ending : s'.ending = s.ending)
      (usable : s.err = none) (later : s'.err = none)
      (fewer : s'.arriving.flatten.length < s.arriving.flatten.length) : Turned s (.again s')
  | ended {s' : Scanner} (same : s'.stream = s.stream) (ending : s'.ending = s.ending)
      (usable : s.err = none) (later : s'.err ≠ none)
      (fewer : s'.arriving.flatten.length ≤ s.arriving.flatten.length) : Turned s (.again s')

theorem refill_turned {s : Scanner} (usable : s.err = none) (clean : newline ∉ s.held) :
    Turned s (s.refill usable) := by
  unfold refill
  split_ifs with full
  · exact .long clean (Nat.le_of_eq (shift_full full).symm) rfl
  · have rest := read_flatten s.shift.grow.room s.shift.grow.arriving
    rw [grow_arriving, shift_arriving] at rest
    have length := congrArg List.length rest
    rw [List.length_append] at length
    dsimp only
    split_ifs with nothing
    · rw [grow_arriving, shift_arriving] at nothing
      refine .ended ?_ (by simp) usable nofun ?_
      · simp only [stream, grow_held, shift_held, grow_arriving, shift_arriving]
        rw [← rest, nothing, List.nil_append]
      · simp only [grow_arriving, shift_arriving]
        omega
    · rw [grow_arriving, shift_arriving] at nothing
      have some := List.length_pos_of_ne_nil nothing
      refine .came ?_ (by simp [append]) usable (by simp [append, usable]) ?_
      · simp only [stream, append, grow_held, shift_held, grow_arriving, shift_arriving]
        rw [List.append_assoc, rest]
      · simp only [append, grow_arriving, shift_arriving]
        omega

theorem stream_failed {s : Scanner} {e : Cause} (failed : s.err = some e) : s.stream = s.held := by
  rw [stream, (s.drained e failed).2.1, List.append_nil]

theorem turnWith_turned {s : Scanner} {found : Nat × Option (List UInt8)}
    (scanned : Scanned s.held s.err.isSome found) (within : found.1 ≤ s.held.length) :
    Turned s (s.turnWith found within) := by
  have inside := s.inside
  have bounded := s.bounded
  generalize given : s.held = data at scanned
  generalize is : s.err.isSome = atEOF at scanned
  cases scanned with
  | @line _ line rest clean shape =>
      rw [given, shape, List.length_append, List.length_cons] at inside
      refine .line clean (by omega) ?_ rfl ?_ rfl
      · simp [stream, advance, given, shape, List.drop_append]
      · simp only [advance, given, shape, List.drop_append, List.length_append, List.length_cons]
        simp
        omega
  | tail clean filled =>
      obtain ⟨e, failed⟩ := Option.isSome_iff_exists.mp is
      subst given
      obtain ⟨_, nothing, short⟩ := s.drained e failed
      refine .tail (stream_failed failed) clean filled short ?_ rfl ?_ rfl
      · simp [stream, advance, nothing]
      · simpa [advance] using List.length_pos_of_ne_nil filled
  | nothing clean stays =>
      subst given
      rw [turnWith]
      dsimp only
      split
      · rename_i e failed
        rw [(s.drained e failed).1]
        refine .finished ?_
        rw [stream_failed failed, stays (by rw [← is, failed]; rfl)]
      · exact refill_turned _ clean

theorem turn_turned (s : Scanner) : Turned s s.turn := turnWith_turned (scanLines_scanned _ _) _

/-- What becomes less: the bytes, and where they stay, those to be read. -/
def left (s : Scanner) : Nat × Nat :=
  (s.stream.length, s.arriving.flatten.length + if s.err = none then 1 else 0)

theorem token_left {s s' : Scanner} {line : List UInt8} (found : s.turn = .token line s') :
    Prod.Lex (· < ·) (· < ·) s'.left s.left := by
  apply Prod.Lex.left
  simp only [stream, List.length_append]
  cases found ▸ s.turn_turned with
  | line clean short shape ending length kept =>
      rw [kept]
      exact Nat.add_lt_add_right length _
  | tail whole clean filled short empty ending length kept =>
      rw [kept]
      exact Nat.add_lt_add_right length _

theorem again_left {s s' : Scanner} (found : s.turn = .again s') :
    Prod.Lex (· < ·) (· < ·) s'.left s.left := by
  cases found ▸ s.turn_turned with
  | came same ending usable later fewer =>
      rw [left, left, same, usable, later]
      exact Prod.Lex.right _ (Nat.add_lt_add_right fewer _)
  | ended same ending usable later fewer =>
      rw [left, left, same, usable, if_neg later]
      exact Prod.Lex.right _ (Nat.lt_succ_of_le fewer)

/-- The lines of the rest, and the error behind them.  `Scan` is called again after
each token, which goes on with its loop. -/
def readLoop (s : Scanner) : List (List UInt8) × Cause :=
  match _found : s.turn with
  | .token line s' => (line :: (readLoop s').1, (readLoop s').2)
  | .stop e => ([], e)
  | .again s' => readLoop s'
termination_by s.left
decreasing_by
  · exact token_left _found
  · exact again_left _found

/-! ## The lines of a stream -/

/-- What a stream gives: the lines that fit the buffer with their newlines, and its
tail as one more. -/
def tokens (xs : List UInt8) : List (List UInt8) :=
  let fitting := lawful newline (maxLineSize - 1) xs
  fitting.1.map dropCR ++
    if fitting.2 ∨ remainder newline xs = [] then [] else [dropCR (remainder newline xs)]

theorem tokens_segment {line : List UInt8} (clean : newline ∉ line) (short : line.length < maxLineSize)
    (xs : List UInt8) : tokens (line ++ newline :: xs) = dropCR line :: tokens xs := by
  rw [tokens, lawful_segment clean (by omega), remainder_segment clean]
  rfl

theorem tokens_tail {xs : List UInt8} (clean : newline ∉ xs) (filled : xs ≠ [])
    (short : xs.length < maxLineSize) : tokens xs = [dropCR xs] := by
  have fits : ¬ maxLineSize - 1 < xs.length := by omega
  rw [tokens, lawful_clean clean, remainder_clean clean]
  simp [fits, filled]

theorem tokens_long {xs : List UInt8} (clean : newline ∉ xs) (exceeds : maxLineSize ≤ xs.length)
    (ys : List UInt8) : tokens (xs ++ ys) = [] := by
  have positive : 0 < maxLineSize := by decide
  rw [tokens, lawful_long clean (by omega)]
  simp

/-- The error behind the tokens. -/
def cause (ending : Cause) (xs : List UInt8) : Cause :=
  if (lawful newline (maxLineSize - 1) xs).2 then .tooLong else ending

theorem cause_segment {line : List UInt8} (clean : newline ∉ line) (short : line.length < maxLineSize)
    (ending : Cause) (xs : List UInt8) : cause ending (line ++ newline :: xs) = cause ending xs := by
  rw [cause, lawful_segment clean (by omega)]
  rfl

theorem cause_tail {xs : List UInt8} (clean : newline ∉ xs) (short : xs.length < maxLineSize)
    (ending : Cause) : cause ending xs = ending := by
  have fits : ¬ maxLineSize - 1 < xs.length := by omega
  simp [cause, lawful_clean clean, fits]

theorem cause_long {xs : List UInt8} (clean : newline ∉ xs) (exceeds : maxLineSize ≤ xs.length)
    (ending : Cause) (ys : List UInt8) : cause ending (xs ++ ys) = .tooLong := by
  have positive : 0 < maxLineSize := by decide
  rw [cause, lawful_long clean (by omega), if_pos rfl]

theorem readLoop_cause (s : Scanner) : s.readLoop.2 = cause s.ending s.stream := by
  have positive : 0 < maxLineSize := by decide
  induction s using readLoop.induct with
  | case1 s line s' found ih =>
      rw [readLoop, found]
      dsimp only
      rw [ih]
      cases found ▸ s.turn_turned with
      | line clean short shape ending => rw [shape, cause_segment clean short, ending]
      | tail whole clean filled short empty ending =>
          rw [whole, cause_tail clean short, empty, ending, cause_tail List.not_mem_nil positive]
  | case2 s e found =>
      rw [readLoop, found]
      dsimp only
      cases found ▸ s.turn_turned with
      | finished empty => rw [empty, cause_tail List.not_mem_nil positive]
      | long clean exceeds shape => rw [shape, cause_long clean exceeds]
  | case3 s s' found ih =>
      rw [readLoop, found]
      dsimp only
      rw [ih]
      cases found ▸ s.turn_turned with
      | came same ending => rw [same, ending]
      | ended same ending => rw [same, ending]

/-- However a stream is cut into reads, the loop reads its tokens. -/
theorem readLoop_lines (s : Scanner) : s.readLoop.1 = tokens s.stream := by
  induction s using readLoop.induct with
  | case1 s line s' found ih =>
      rw [readLoop, found]
      dsimp only
      rw [ih]
      cases found ▸ s.turn_turned with
      | line clean short shape => rw [shape, tokens_segment clean short]
      | tail whole clean filled short empty =>
          rw [whole, tokens_tail clean filled short, empty]
          rfl
  | case2 s e found =>
      rw [readLoop, found]
      dsimp only
      cases found ▸ s.turn_turned with
      | finished empty =>
          rw [empty]
          rfl
      | long clean exceeds shape => rw [shape, tokens_long clean exceeds]
  | case3 s s' found ih =>
      rw [readLoop, found]
      dsimp only
      rw [ih]
      cases found ▸ s.turn_turned with
      | came same => rw [same]
      | ended same => rw [same]

end Scanner

end SanDbOxFormal.Go
