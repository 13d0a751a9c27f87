import SanDbOxFormal.Library.Course
import SanDbOxFormal.Rust.Transport.Basic

/-!
# What a script of reads holds

A script of reads determines which lines a reader returns and with which error it
ends: the complete segments up to the first outcome that ends the reading.  Readers
differ in which errors they read past.
-/

namespace SanDbOxFormal.Rust.Transport

open SanDbOxFormal.Library
open SanDbOxFormal.Library.Segments

/-- The error of `take_line`. -/
def tooLong : Terminal :=
  ⟨.protocol ("response line exceeds " ++ toString maxLineBytes ++ " bytes without a newline"), rfl⟩

/-- The lines behind an unfinished one, and the error at the end.  An error of a
kind that is `retried` is read past. -/
def script (retried : IoKind → Bool) : List UInt8 → List ReadResult →
    List (List UInt8) × Option Error
  | _, [] => ([], none)
  | tail, .ok chunk :: rest =>
      if chunk.isEmpty then ([], some Terminal.eof.val)
      else if (remainder newline (tail ++ chunk)).length > maxLineBytes then
        (complete newline (tail ++ chunk), some tooLong.val)
      else
        let more := script retried (remainder newline (tail ++ chunk)) rest
        (complete newline (tail ++ chunk) ++ more.1, more.2)
  | tail, .err e :: rest =>
      if retried e.kind then script retried tail rest else ([], some (.io e))

/-- The same for a buffer that may hold complete lines. -/
def settle (retried : IoKind → Bool) (buf : List UInt8) (rest : List ReadResult) :
    List (List UInt8) × Option Error :=
  if (remainder newline buf).length > maxLineBytes then (complete newline buf, some tooLong.val)
  else
    let more := script retried (remainder newline buf) rest
    (complete newline buf ++ more.1, more.2)

variable {retried : IoKind → Bool}

theorem script_chunk {tail chunk : List UInt8} {rest : List ReadResult}
    (filled : chunk.isEmpty = false) :
    script retried tail (.ok chunk :: rest) = settle retried (tail ++ chunk) rest := by
  rw [script, if_neg (by simp [filled])]
  rfl

theorem settle_segment {line buf : List UInt8} {rest : List ReadResult} (clean : newline ∉ line) :
    settle retried (line ++ newline :: buf) rest =
      (line :: (settle retried buf rest).1, (settle retried buf rest).2) := by
  rw [settle, settle, complete_segment clean, remainder_segment clean]
  split
  · rfl
  · rfl

theorem settle_clean {buf : List UInt8} {rest : List ReadResult} (clean : newline ∉ buf)
    (short : buf.length ≤ maxLineBytes) : settle retried buf rest = script retried buf rest := by
  rw [settle, complete_clean clean, remainder_clean clean, if_neg (Nat.not_lt_of_le short)]
  rfl

theorem settle_long {buf : List UInt8} {rest : List ReadResult} (clean : newline ∉ buf)
    (long : buf.length > maxLineBytes) : settle retried buf rest = ([], some tooLong.val) := by
  rw [settle, complete_clean clean, remainder_clean clean, if_pos long]

/-- What `take_line` does, by what the buffer holds. -/
inductive LineFramer.Taken (f : LineFramer) :
    Except Error (Option (List UInt8)) × LineFramer → Prop where
  | line {l rest : List UInt8} {g : LineFramer} (clean : newline ∉ l)
      (shape : f.buf = l ++ newline :: rest) (left : g.buf = rest) : Taken f (.ok (some l), g)
  | nothing {g : LineFramer} (clean : newline ∉ f.buf) (short : f.buf.length ≤ maxLineBytes)
      (same : g.buf = f.buf) : Taken f (.ok none, g)
  | long {g : LineFramer} (clean : newline ∉ f.buf) (exceeds : f.buf.length > maxLineBytes)
      (same : g.buf = f.buf) : Taken f (.error tooLong.val, g)

theorem LineFramer.takeLine_taken (f : LineFramer) : Taken f f.takeLine := by
  rcases clean_or_segment newline f.buf with clean | ⟨line, rest, shape, clean⟩
  · unfold LineFramer.takeLine
    split
    · rename_i rel found
      obtain ⟨cut, _⟩ := LineFramer.buf_eq_of_position found
      refine absurd ?_ clean
      rw [cut]
      exact List.mem_append_right _ List.mem_cons_self
    · dsimp only
      split
      · rename_i long
        exact .long clean long rfl
      · rename_i short
        exact .nothing clean (Nat.le_of_not_lt short) rfl
  · obtain ⟨taken, left⟩ := LineFramer.takeLine_segment clean shape
    have both : f.takeLine = (.ok (some line), f.takeLine.2) := Prod.ext taken rfl
    rw [both]
    exact .line clean shape left

/-! ## What is received -/

/-- The bytes up to the first outcome that ends the reading. -/
def received (retried : IoKind → Bool) : List ReadResult → List UInt8
  | [] => []
  | .ok chunk :: rest => if chunk.isEmpty then [] else chunk ++ received retried rest
  | .err e :: rest => if retried e.kind then received retried rest else []

/-- A segment that starts with an unfinished line is at least as long. -/
theorem unfinished_le {tail more : List UInt8} (clean : newline ∉ tail)
    (capped : ∀ line ∈ complete newline (tail ++ more), line.length ≤ maxLineBytes)
    (ends : newline ∈ more) : tail.length ≤ maxLineBytes := by
  rcases clean_or_segment newline more with none | ⟨line, rest, rfl, short⟩
  · exact absurd ends none
  · have both : newline ∉ tail ++ line := by
      rw [List.mem_append, not_or]
      exact ⟨clean, short⟩
    rw [← List.append_assoc, complete_segment both] at capped
    have size := capped (tail ++ line) List.mem_cons_self
    rw [List.length_append] at size
    exact Nat.le_of_add_right_le size

/-- The lines of a script are the complete segments of what is received. -/
theorem script_received {tail : List UInt8} {source : List ReadResult}
    (clean : newline ∉ tail)
    (capped : ∀ line ∈ complete newline (tail ++ received retried source), line.length ≤ maxLineBytes) :
    (script retried tail source).1 = complete newline (tail ++ received retried source) := by
  induction source generalizing tail with
  | nil =>
      rw [received, List.append_nil, complete_clean clean]
      rfl
  | cons first rest ih =>
      cases first with
      | err e =>
          rw [received] at capped ⊢
          rw [script]
          split_ifs at capped ⊢ with again
          · exact ih clean capped
          · rw [List.append_nil, complete_clean clean]
      | ok chunk =>
          cases chunk with
          | nil =>
              rw [received, if_pos List.isEmpty_nil, List.append_nil, complete_clean clean]
              rfl
          | cons b bs =>
              rw [received, if_neg (by simp), ← List.append_assoc, complete_append] at capped ⊢
              rw [script_chunk rfl, settle]
              split
              · rename_i long
                have none : complete newline (remainder newline (tail ++ b :: bs) ++
                    received retried rest) = [] := by
                  by_cases ends : newline ∈ received retried rest
                  · refine absurd (unfinished_le (not_mem_remainder _ _) (fun line inside => ?_) ends)
                      (Nat.not_le_of_lt long)
                    exact capped line (List.mem_append_right _ inside)
                  · apply complete_clean
                    rw [List.mem_append, not_or]
                    exact ⟨not_mem_remainder _ _, ends⟩
                rw [none, List.append_nil]
              · have later := ih (not_mem_remainder _ _) fun line inside =>
                  capped line (List.mem_append_right _ inside)
                change complete newline (tail ++ b :: bs) ++ (script retried _ rest).1 = _
                rw [later]

/-- No ending is a timeout. -/
theorem script_ending {tail : List UInt8} {source : List ReadResult}
    {e : Error} (ends : (script retried tail source).2 = some e) :
    ∀ text, e ≠ .timeout text := by
  induction source generalizing tail with
  | nil => cases ends
  | cons first rest ih =>
      cases first with
      | err e' =>
          rw [script] at ends
          split at ends
          · exact ih ends
          · cases ends
            exact fun _ is => by cases is
      | ok chunk =>
          rw [script] at ends
          split at ends
          · cases ends
            exact fun _ is => by cases is
          · split at ends
            · cases ends
              exact fun _ is => by cases is
            · exact ih ends

end SanDbOxFormal.Rust.Transport
