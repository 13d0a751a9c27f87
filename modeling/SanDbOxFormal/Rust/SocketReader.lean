import SanDbOxFormal.Rust.Transport.Calls
import SanDbOxFormal.Rust.Transport.SocketCourse

/-!
# The inline reader

What the socket transport delivers over any run of calls: a wait that expired, and a
partial line with it, is left to the next call.
-/

namespace SanDbOxFormal.Rust.Transport

open SanDbOxFormal.Library
open SanDbOxFormal.Library.Runs
open SanDbOxFormal.Library.Segments

namespace SocketTransport

open LineReader (Step Sound)

/-! ## One call -/

/-- What a call did: it took a step of the course, or it never returns and there was
nothing left to return, or its deadline is not an instant. -/
inductive Outcome (deadline : Option Nat) (begun : Nat) (c : Course (List UInt8) Error) :
    Exec (Except Error (List UInt8) × SocketTransport) → Prop where
  | returned {result : Except Error (List UInt8)} {t : SocketTransport}
      {o : Option (Except Error (List UInt8))} (got : Got deadline begun t.clock result o)
      (came : Course.Step c o t.course) : Outcome deadline begun c (.ok (result, t))
  | blocked (silent : c = ⟨[], none, false⟩) : Outcome deadline begun c (.error .blocked)
  | panicked (reason : String) : Outcome deadline begun c (.error (.panicked reason))

/-- From a taken line or error on the call returns; otherwise it goes on as `loop` does. -/
theorem Drew.outcome {s : SocketTransport} {deadline : Option Nat} {begun : Nat}
    {pair : Except Terminal (Option (List UInt8)) × SocketTransport} (drew : Drew s pair)
    (loop : SocketTransport → Exec (Except Error (List UInt8) × SocketTransport))
    (goesOn : ∀ t : SocketTransport, pair = (.ok none, t) → t.terminal = none → newline ∉ t.framer.buf →
      t.framer.buf.length ≤ maxLineBytes → t.reads = s.reads → t.course = s.course →
      Outcome deadline begun t.course (loop t)) :
    Outcome deadline begun s.course (match pair.1 with
      | .error e => .ok (.error e.val, pair.2)
      | .ok (some l) => .ok (.ok l, pair.2)
      | .ok none => loop pair.2) := by
  cases drew with
  | @line l items ending t next left =>
      rw [next]
      refine .returned (.told _) ?_
      rw [left]
      exact .item l items ending
  | nothing usable clean short reads same =>
      rw [← same]
      exact goesOn _ rfl usable clean short reads same
  | @long t e is told next =>
      have after : t.course = ⟨[], some e.val, true⟩ := by
        simp only [course, told]
      rw [next]
      refine .returned (.told _) ?_
      rw [after]
      exact .ended e.val false

/-- A check of the deadline ends the call past it, and otherwise the call goes on. -/
theorem late_outcome {s : SocketTransport} {deadline : Option Nat} {begun : Nat}
    (usable : s.terminal = none) (since : begun ≤ s.clock.read)
    (loop : SocketTransport → Exec (Except Error (List UInt8) × SocketTransport))
    (goesOn : begun ≤ (s.timedOut deadline).2.clock.read →
      Outcome deadline begun s.course (loop (s.timedOut deadline).2)) :
    Outcome deadline begun s.course (if (s.timedOut deadline).1 = true then
      .ok (.error readTimeout, (s.timedOut deadline).2) else loop (s.timedOut deadline).2) := by
  obtain ⟨late, kept, ticked⟩ := timedOut_spec s.clock deadline
  split
  · rename_i expired
    obtain ⟨d, is, passed⟩ := late expired
    refine .returned (.late ⟨d, s.clock.read, is, since, passed.1, passed.2⟩) ?_
    have same : (s.timedOut deadline).2.course = s.course := rfl
    rw [same, course_usable usable]
    exact .late _ _
  · exact goesOn (Nat.le_trans since ticked)

theorem readLoop_outcome {deadline : Option Nat} {begun : Nat} {reads : List ReadResult}
    {s : SocketTransport} (usable : s.terminal = none) (clean : newline ∉ s.framer.buf)
    (short : s.framer.buf.length ≤ maxLineBytes) (left : s.reads = reads) (since : begun ≤ s.clock.read) :
    Outcome deadline begun s.course (readLoop deadline reads s) := by
  induction reads generalizing s with
  | nil =>
      rw [course_clean usable clean short, left]
      exact .blocked rfl
  | cons first rest ih =>
      obtain ⟨sink, _, framer, _, clock⟩ := s
      cases usable
      cases left
      rw [course_clean rfl clean short]
      cases first with
      | ok chunk =>
          cases chunk with
          | nil => exact .returned (.told _) (.ended Terminal.eof.val false)
          | cons b bs =>
              rw [script_chunk rfl]
              have drew := takeOrTerminal_drew
                (s := ⟨sink, rest, framer.push (b :: bs), none, clock⟩) rfl
              have ticks := takeOrTerminal_clock ⟨sink, rest, framer.push (b :: bs), none, clock⟩
              refine drew.outcome
                (fun t => if (t.timedOut deadline).1 = true then
                  .ok (.error readTimeout, (t.timedOut deadline).2)
                  else readLoop deadline rest (t.timedOut deadline).2) ?_
              intro t is usable' clean' short' reads' _
              rw [is] at ticks
              have since' : begun ≤ t.clock.read := by
                rw [ticks]
                exact since
              exact late_outcome usable' since' (readLoop deadline rest) fun later =>
                ih (s := (t.timedOut deadline).2) usable' clean' short' reads' later
      | err e =>
          have again := fun (s' : SocketTransport) usable' clean' short' reads' since' =>
            ih (s := s') usable' clean' short' reads' since'
          have same := course_clean (s := ⟨sink, rest, framer, none, clock⟩) rfl clean short
          have waits : Outcome deadline begun (course ⟨sink, rest, framer, none, clock⟩)
              (if (timedOut ⟨sink, rest, framer, none, clock⟩ deadline).1 = true then
                .ok (.error readTimeout, (timedOut ⟨sink, rest, framer, none, clock⟩ deadline).2)
                else readLoop deadline rest (timedOut ⟨sink, rest, framer, none, clock⟩ deadline).2) :=
            late_outcome (s := ⟨sink, rest, framer, none, clock⟩) rfl since (readLoop deadline rest) fun later =>
              again (timedOut ⟨sink, rest, framer, none, clock⟩ deadline).2 rfl clean short rfl later
          rw [same] at waits
          obtain ⟨kind, text⟩ := e
          cases kind with
          | interrupted =>
              have repeats := again ⟨sink, rest, framer, none, clock⟩ rfl clean short rfl since
              rw [same] at repeats
              exact repeats
          | wouldBlock => exact waits
          | timedOut => exact waits
          | unexpectedEof => exact .returned (.told _) (.ended _ false)
          | writeZero => exact .returned (.told _) (.ended _ false)
          | invalidInput => exact .returned (.told _) (.ended _ false)
          | other => exact .returned (.told _) (.ended _ false)

/-- Every call, with any timeout. -/
theorem readLine_outcome (s : SocketTransport) (timeout : Option Nat) :
    Outcome (timeout.map (s.clock.now s.clock.read + ·)) s.clock.read s.course (s.readLine timeout) := by
  cases terminal : s.terminal with
  | some e =>
      have told : s.course = ⟨[], some e.val, true⟩ := by
        simp only [course, terminal]
      have read : s.readLine timeout = .ok (.error e.val, s) := by
        simp only [readLine, terminal]
      rw [read]
      refine .returned (.told _) ?_
      rw [told]
      exact .ended e.val true
  | none =>
      have drew := takeOrTerminal_drew terminal
      have ticks := s.takeOrTerminal_clock
      rw [readLine]
      simp only [terminal]
      refine drew.outcome (fun t => t.clock.deadline timeout >>= fun begun =>
        readLoop begun.1 t.reads { t with clock := begun.2 }) ?_
      intro t is usable clean short _ _
      rw [is] at ticks
      rw [← ticks]
      cases timeout with
      | none => exact readLoop_outcome (s := { t with clock := t.clock }) usable clean short rfl (Nat.le_refl _)
      | some d =>
          rw [Clock.deadline]
          split
          · exact readLoop_outcome (s := { t with clock := t.clock.tick }) usable clean short rfl (Nat.le_succ _)
          · exact .panicked _

theorem readLine_got {timeout : Option Nat} {s t : SocketTransport} {result : Except Error (List UInt8)}
    (read : s.readLine timeout = .ok (result, t)) :
    ∃ o, Got (timeout.map (s.clock.now s.clock.read + ·)) s.clock.read t.clock result o ∧
      Course.Step s.course o t.course := by
  have outcome := readLine_outcome s timeout
  rw [read] at outcome
  cases outcome with
  | returned got came => exact ⟨_, got, came⟩

/-! ## Runs of calls -/

instance : LineReader SocketTransport where
  readLine := readLine
  clock := clock
  course := course
  Good _ := True
  got _ read := ⟨trivial, readLine_got read⟩

/-- What the caller may rely on, given all complete lines of the stream. -/
structure Delivers (all : List (List UInt8)) (calls : List (Call SocketTransport))
    (last : SocketTransport) : Prop extends LineReader.Delivers all calls where
  /-- A call that waits for ever has no line to wait for. -/
  blocked : ∀ timeout, last.readLine timeout = .error .blocked → delivered calls = all

end SocketTransport

end SanDbOxFormal.Rust.Transport
