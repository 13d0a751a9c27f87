import SanDbOxFormal.Rust.Transport.Script
import SanDbOxFormal.Rust.Transport.Socket

/-!
# What the socket transport returns

Without a timeout, every call takes one step of what the script of reads holds.
-/

namespace SanDbOxFormal.Rust.Transport

open SanDbOxFormal.Library
open SanDbOxFormal.Library.Segments

/-- The inline reader repeats an interrupted read, and without a deadline also a
wait that expired. -/
def socketRetries : IoKind → Bool
  | .interrupted => true
  | .wouldBlock => true
  | .timedOut => true
  | _ => false

namespace SocketTransport

def course (s : SocketTransport) : Course (List UInt8) Error :=
  match s.terminal with
  | some e => ⟨[], some e.val, true⟩
  | none =>
      ⟨(settle socketRetries s.framer.buf s.reads).1, (settle socketRetries s.framer.buf s.reads).2,
        false⟩

/-- What taking from the framer does to the course. -/
inductive Drew (s : SocketTransport) :
    Except Terminal (Option (List UInt8)) × SocketTransport → Prop where
  | line {l : List UInt8} {items : List (List UInt8)} {ending : Option Error} {t : SocketTransport}
      (next : s.course = ⟨l :: items, ending, false⟩) (left : t.course = ⟨items, ending, false⟩) :
      Drew s (.ok (some l), t)
  | nothing {t : SocketTransport} (usable : t.terminal = none) (clean : newline ∉ t.framer.buf)
      (short : t.framer.buf.length ≤ maxLineBytes) (reads : t.reads = s.reads)
      (same : t.course = s.course) : Drew s (.ok none, t)
  | long {t : SocketTransport} {e : Terminal} (is : e = tooLong) (told : t.terminal = some e)
      (next : s.course = ⟨[], some e.val, false⟩) : Drew s (.error e, t)

theorem takeOrTerminal_drew {s : SocketTransport} (usable : s.terminal = none) :
    Drew s s.takeOrTerminal := by
  obtain ⟨sink, reads, framer, _, clock⟩ := s
  cases usable
  have spec := framer.takeLine_taken
  unfold takeOrTerminal
  split
  · rename_i v after is
    rw [is] at spec
    cases spec with
    | line clean shape left =>
        refine .line ?_ rfl
        simp only [course, shape, settle_segment clean, left]
    | nothing clean short same =>
        refine .nothing rfl (by rw [same]; exact clean) (by rw [same]; exact short) rfl ?_
        simp only [course, same]
  · rename_i e after is
    simp only at is
    rw [is] at spec
    cases spec with
    | long clean exceeds same =>
        refine .long rfl rfl ?_
        simp only [course, settle_long clean exceeds]

/-- What a call returns is the next step of the course; a call that never returns
had nothing more to return. -/
def Returns (c : Course (List UInt8) Error) :
    Exec (Except Error (List UInt8) × SocketTransport) → Prop
  | .ok (result, t) => Course.Step c (some result) t.course
  | .error _ => c = ⟨[], none, false⟩

theorem course_usable {s : SocketTransport} (usable : s.terminal = none) :
    s.course = ⟨(settle socketRetries s.framer.buf s.reads).1,
      (settle socketRetries s.framer.buf s.reads).2, false⟩ := by
  simp only [course, usable]

theorem course_clean {s : SocketTransport} (usable : s.terminal = none)
    (clean : newline ∉ s.framer.buf) (short : s.framer.buf.length ≤ maxLineBytes) :
    s.course = ⟨(script socketRetries s.framer.buf s.reads).1,
      (script socketRetries s.framer.buf s.reads).2, false⟩ := by
  rw [course_usable usable, settle_clean clean short]

/-- From a taken line or error on the call returns; otherwise it goes on as `loop` does. -/
theorem Drew.returns {s : SocketTransport}
    {pair : Except Terminal (Option (List UInt8)) × SocketTransport} (drew : Drew s pair)
    (loop : SocketTransport → Exec (Except Error (List UInt8) × SocketTransport))
    (goesOn : ∀ t : SocketTransport, t.terminal = none → newline ∉ t.framer.buf →
      t.framer.buf.length ≤ maxLineBytes → t.reads = s.reads → t.course = s.course →
      Returns t.course (loop t)) :
    Returns s.course (match pair.1 with
      | .error e => .ok (.error e.val, pair.2)
      | .ok (some l) => .ok (.ok l, pair.2)
      | .ok none => loop pair.2) := by
  cases drew with
  | @line l items ending t next left =>
      rw [next]
      change Course.Step _ _ t.course
      rw [left]
      exact .item l items ending
  | nothing usable clean short reads same =>
      rw [← same]
      exact goesOn _ usable clean short reads same
  | @long t e is told next =>
      rw [next]
      have after : t.course = ⟨[], some e.val, true⟩ := by
        simp only [course, told]
      change Course.Step _ _ t.course
      rw [after]
      exact .ended e.val false

theorem readLoop_returns {reads : List ReadResult} {s : SocketTransport} (usable : s.terminal = none)
    (clean : newline ∉ s.framer.buf) (short : s.framer.buf.length ≤ maxLineBytes)
    (left : s.reads = reads) : Returns s.course (readLoop none reads s) := by
  induction reads generalizing s with
  | nil =>
      rw [course_clean usable clean short, left]
      rfl
  | cons first rest ih =>
      obtain ⟨sink, _, framer, _, clock⟩ := s
      cases usable
      cases left
      rw [course_clean rfl clean short]
      cases first with
      | ok chunk =>
          cases chunk with
          | nil => exact .ended Terminal.eof.val false
          | cons b bs =>
              rw [script_chunk rfl]
              have drew := takeOrTerminal_drew
                (s := ⟨sink, rest, framer.push (b :: bs), none, clock⟩) rfl
              exact drew.returns (fun t => readLoop none rest t)
                fun t usable' clean' short' reads _ => ih usable' clean' short' reads
      | err e =>
          have again := ih (s := ⟨sink, rest, framer, none, clock⟩) rfl clean short rfl
          rw [course_clean (s := ⟨sink, rest, framer, none, clock⟩) rfl clean short] at again
          obtain ⟨kind, text⟩ := e
          cases kind with
          | interrupted => exact again
          | wouldBlock => exact again
          | timedOut => exact again
          | unexpectedEof => exact .ended _ false
          | writeZero => exact .ended _ false
          | invalidInput => exact .ended _ false
          | other => exact .ended _ false

/-- A call without a timeout takes one step of the course. -/
theorem readLine_returns (s : SocketTransport) : Returns s.course (s.readLine none) := by
  cases terminal : s.terminal with
  | some e =>
      have told : s.course = ⟨[], some e.val, true⟩ := by
        simp only [course, terminal]
      have read : s.readLine none = .ok (.error e.val, s) := by
        simp only [readLine, terminal]
      rw [read]
      change Course.Step s.course _ s.course
      rw [told]
      exact .ended e.val true
  | none =>
      have drew := takeOrTerminal_drew terminal
      have returned := drew.returns (fun t => readLoop none t.reads t)
        fun t usable clean short _ _ => readLoop_returns usable clean short rfl
      have read : s.readLine none = (match s.takeOrTerminal.1 with
          | .error e => .ok (.error e.val, s.takeOrTerminal.2)
          | .ok (some line) => .ok (.ok line, s.takeOrTerminal.2)
          | .ok none => readLoop none s.takeOrTerminal.2.reads s.takeOrTerminal.2) := by
        simp only [readLine, terminal]
        rfl
      rw [read]
      exact returned

end SocketTransport

end SanDbOxFormal.Rust.Transport
