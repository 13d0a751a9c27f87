import SanDbOxFormal.Java.Transport.SocketTransport

/-!
# The deadline of a socket read

A call of `readLine` looks at its deadline only behind a wait that expired.  A peer
that sends bytes of an unfinished line keeps it reading.
-/

namespace SanDbOxFormal.Java.Transport.SocketTransport

open SanDbOxFormal.Library

/-- What a call that ended by throwing threw. -/
def Throws (deadlineNanos : Option Int) (c : Call) : Prop :=
  ∀ e, c.outcome = some (.error (.transport e)) →
    c.transport.terminal = some e ∨ (e = timedOut ∧ ∃ d, deadlineNanos = some d ∧ d ≤ c.now)

/-- Each of these reads is issued before the deadline, and a call that is not over behind
them can still issue the next before it. -/
def InTime (d : Int) (reads : List SourceRead) (c : Call) : Prop :=
  (∀ r ∈ reads, r.issued < d) ∧ (c.outcome = none → c.now < d)

/-- A call honours its deadline: behind its first read it issues no other at or past the
deadline, and where it throws anything but the end of the connection this is the timeout,
at or past the deadline. -/
structure Honours (s : SocketTransport) (start : Int) (timeout : Option Int) (script : List Turn) :
    Prop where
  reads : ∀ d, deadline start timeout = .ok (some d) →
    ∀ first others, (s.readLine start timeout script).reads = first :: others →
      InTime d others (s.readLine start timeout script)
  throws : ∀ deadlineNanos, deadline start timeout = .ok deadlineNanos →
    Throws deadlineNanos (s.readLine start timeout script)

/-- The time behind some turns. -/
def clock (now : Int) : List Turn → Int
  | [] => now
  | e :: rest => clock (now + e.span) rest

/-- These turns leave a call waiting that held `buf`: there is no end and no failure,
every wait expired before the deadline, and the bytes make no line yet. -/
structure Waiting (d now : Int) (buf : List UInt8) (front : List Turn) : Prop where
  goes : ∀ e ∈ front, e.outcome = .timedOut ∨ ∃ chunk fits, e.outcome = .bytes chunk fits
  early : ∀ first e rest, front = first ++ e :: rest → e.outcome = .timedOut →
    clock now (first ++ [e]) < d
  unfinished : newline ∉ buf ++ front.flatMap Turn.bytes
  short : (buf ++ front.flatMap Turn.bytes).length ≤ maxLineBytes

/-- When the next read is issued; where the script ends, when it can be. -/
def nextRead (now : Int) : List Turn → Int
  | [] => now
  | e :: _ => now + e.before

/-- Whenever turns leave the call waiting, the time they take with the pause before the next
read is less than the deadline leaves. -/
def Onwards (d now : Int) (buf : List UInt8) (script : List Turn) : Prop :=
  ∀ front rest, script = front ++ rest → Waiting d now buf front → nextRead (clock now front) rest < d

/-- The same behind the first turn. -/
def Punctual (d now : Int) (buf : List UInt8) (script : List Turn) : Prop :=
  ∀ front rest, script = front ++ rest → front ≠ [] → Waiting d now buf front →
    nextRead (clock now front) rest < d

/-! ## One turn more -/

theorem waiting_bytes {d now : Int} {buf chunk : List UInt8} {e : Turn} {fits : chunk.length ≤ readSize}
    (came : e.outcome = .bytes chunk fits) (front : List Turn) :
    Waiting d now buf (e :: front) ↔ Waiting d (now + e.span) (buf ++ chunk) front := by
  have bytes : e.bytes = chunk := by rw [Turn.bytes, came]
  constructor
  · rintro ⟨goes, early, unfinished, short⟩
    rw [List.flatMap_cons, bytes, ← List.append_assoc] at unfinished short
    refine ⟨fun e' inside => goes e' (List.mem_cons_of_mem _ inside), ?_, unfinished, short⟩
    intro first w rest shape expired
    exact early (e :: first) w rest (congrArg (e :: ·) shape) expired
  · rintro ⟨goes, early, unfinished, short⟩
    rw [List.append_assoc, ← bytes, ← List.flatMap_cons] at unfinished short
    refine ⟨List.forall_mem_cons.mpr ⟨.inr ⟨chunk, fits, came⟩, goes⟩, ?_, unfinished, short⟩
    intro first w rest shape expired
    cases first with
    | nil =>
        cases shape
        rw [came] at expired
        cases expired
    | cons f first =>
        cases shape
        exact early first w rest rfl expired

theorem waiting_expired {d now : Int} {buf : List UInt8} {e : Turn} (came : e.outcome = .timedOut)
    (front : List Turn) :
    Waiting d now buf (e :: front) ↔ now + e.span < d ∧ Waiting d (now + e.span) buf front := by
  have bytes : e.bytes = [] := by rw [Turn.bytes, came]
  constructor
  · rintro ⟨goes, early, unfinished, short⟩
    rw [List.flatMap_cons, bytes, List.nil_append] at unfinished short
    refine ⟨early [] e front rfl came, fun e' inside => goes e' (List.mem_cons_of_mem _ inside), ?_,
      unfinished, short⟩
    intro first w rest shape expired
    exact early (e :: first) w rest (congrArg (e :: ·) shape) expired
  · rintro ⟨first, goes, early, unfinished, short⟩
    refine ⟨List.forall_mem_cons.mpr ⟨.inl came, goes⟩, ?_, ?_, ?_⟩
    · intro before w rest shape expired
      cases before with
      | nil =>
          cases shape
          exact first
      | cons f before =>
          cases shape
          exact early before w rest rfl expired
    · rw [List.flatMap_cons, bytes, List.nil_append]
      exact unfinished
    · rw [List.flatMap_cons, bytes, List.nil_append]
      exact short

theorem waiting_nil {d now : Int} {buf : List UInt8} (clean : newline ∉ buf) (short : buf.length ≤ maxLineBytes) :
    Waiting d now buf [] := by
  refine ⟨nofun, fun first w rest shape => ?_, ?_, ?_⟩
  · cases first <;> cases shape
  · simpa using clean
  · simpa using short

theorem onwards_nil {d now : Int} {buf : List UInt8} (clean : newline ∉ buf) (short : buf.length ≤ maxLineBytes) :
    Onwards d now buf [] ↔ now < d := by
  constructor
  · intro onwards
    exact onwards [] [] rfl (waiting_nil clean short)
  · intro early front rest shape _
    obtain ⟨rfl, rfl⟩ := List.append_eq_nil_iff.mp shape.symm
    exact early

/-- The next read is the one of the first turn, or it comes behind that. -/
theorem onwards_cons {d now : Int} {buf : List UInt8} {e : Turn} {script : List Turn} (clean : newline ∉ buf)
    (short : buf.length ≤ maxLineBytes) :
    Onwards d now buf (e :: script) ↔ now + e.before < d ∧ Punctual d now buf (e :: script) := by
  constructor
  · intro onwards
    exact ⟨onwards [] (e :: script) rfl (waiting_nil clean short),
      fun front rest shape _ waiting => onwards front rest shape waiting⟩
  · rintro ⟨first, later⟩ front rest shape waiting
    cases front with
    | nil =>
        cases shape
        exact first
    | cons f front => exact later (f :: front) rest shape (List.cons_ne_nil _ _) waiting

/-- Nothing waits behind an end, a failure or a full line. -/
theorem punctual_stops {d now : Int} {buf : List UInt8} {e : Turn} {script : List Turn}
    (stops : ∀ front, ¬ Waiting d now buf (e :: front)) : Punctual d now buf (e :: script) := by
  intro front rest shape some waiting
  cases front with
  | nil => exact absurd rfl some
  | cons f front =>
      cases shape
      exact absurd waiting (stops _)

/-- Behind a turn that leaves the call waiting it is as behind any other. -/
theorem punctual_onwards {d now later : Int} {buf buf' : List UInt8} {e : Turn} {script : List Turn}
    (same : now + e.span = later)
    (onwards : ∀ front, Waiting d now buf (e :: front) ↔ Waiting d later buf' front) :
    Punctual d now buf (e :: script) ↔ Onwards d later buf' script := by
  subst same
  constructor
  · intro punctual front rest shape waiting
    exact punctual (e :: front) rest (congrArg (e :: ·) shape) (List.cons_ne_nil _ _) ((onwards front).mpr waiting)
  · intro later front rest shape some waiting
    cases front with
    | nil => exact absurd rfl some
    | cons f front =>
        cases shape
        exact later front rest rfl ((onwards front).mp waiting)

/-! ## The loop -/

/-- Turns behind a line, an end or too many bytes are not waited for. -/
theorem not_waiting {d now : Int} {buf : List UInt8} {e : Turn} {front : List Turn}
    (stops : e.outcome ≠ .timedOut ∧ (∀ chunk fits, e.outcome ≠ .bytes chunk fits) ∨
      newline ∈ buf ++ e.bytes ∨ maxLineBytes < (buf ++ e.bytes).length) :
    ¬ Waiting d now buf (e :: front) := by
  rintro ⟨goes, _, unfinished, short⟩
  rw [List.flatMap_cons, ← List.append_assoc] at unfinished short
  rcases stops with ⟨wait, bytes⟩ | line | long
  · rcases goes e List.mem_cons_self with expired | ⟨chunk, fits, came⟩
    · exact wait expired
    · exact bytes chunk fits came
  · exact unfinished (List.mem_append_left _ line)
  · rw [List.length_append] at short
    omega

/-- What a turn does to a call that holds no line. -/
inductive Went (deadlineNanos : Option Int) (e : Turn) (now : Int) (s : SocketTransport) :
    Turned → Prop where
  | done {c : Call} {r : SourceRead} (only : c.reads = [r]) (issued : r.issued = now + e.before)
      (settled : c.outcome ≠ none) (throws : Throws deadlineNanos c)
      (stops : ∀ d front, deadlineNanos = some d → ¬ Waiting d now s.framer.data.buf (e :: front)) :
      Went deadlineNanos e now s (.done c)
  | expired {r : SourceRead} (came : e.outcome = .timedOut)
      (early : ∀ d, deadlineNanos = some d → now + e.span < d) (issued : r.issued = now + e.before) :
      Went deadlineNanos e now s (.again r (now + e.span) s)
  | bytes {r : SourceRead} {chunk : List UInt8} {fits : chunk.length ≤ readSize} {s' : SocketTransport}
      (came : e.outcome = .bytes chunk fits) (held : s'.framer.data.buf = s.framer.data.buf ++ chunk)
      (clean : newline ∉ s'.framer.data.buf) (short : s'.framer.data.buf.length ≤ maxLineBytes)
      (issued : r.issued = now + e.before) : Went deadlineNanos e now s (.again r (now + e.span) s')

theorem fail_went {deadlineNanos : Option Int} {e : Turn} {now : Int} {s : SocketTransport} {r : SourceRead}
    {thrown : TransportException} (issued : r.issued = now + e.before)
    (ends : e.outcome ≠ .timedOut ∧ ∀ chunk fits, e.outcome ≠ .bytes chunk fits) :
    Went deadlineNanos e now s (s.fail r thrown) := by
  refine .done rfl issued nofun ?_ fun d front _ => not_waiting (.inl ends)
  rintro e' ⟨⟩
  exact .inl rfl

theorem tookIn_went {deadlineNanos : Option Int} {e : Turn} {now : Int} {s : SocketTransport} {r : SourceRead}
    {chunk : List UInt8} {fits : chunk.length ≤ readSize} (came : e.outcome = .bytes chunk fits)
    (short : s.framer.data.buf.length ≤ maxLineBytes) (issued : r.issued = now + e.before) :
    Went deadlineNanos e now s (s.tookIn r (now + e.span) (s.pushAndTake chunk)) := by
  have bytes : e.bytes = chunk := by rw [Turn.bytes, came]
  obtain ⟨f, pushed, held⟩ := push_fits fits short
  have took := tryTakeLine_took { s with framer := f }
  rw [pushAndTake, pushed, Option.map_some]
  generalize tryTakeLine { s with framer := f } = pair at took
  cases took with
  | line complete same =>
      rw [held, ← bytes] at complete
      exact .done rfl issued nofun nofun fun d front _ => not_waiting (.inr (.inl complete))
  | long exceeds told =>
      rw [held, ← bytes] at exceeds
      refine .done rfl issued nofun ?_ fun d front _ => not_waiting (.inr (.inr exceeds))
      rintro e' ⟨⟩
      exact .inl told
  | nothing clean' short' kept terminal source =>
      rw [← kept] at clean' short'
      exact .bytes came (kept.trans held) clean' short' issued

theorem turn_went (deadlineNanos : Option Int) (e : Turn) (now : Int) {s : SocketTransport}
    (short : s.framer.data.buf.length ≤ maxLineBytes) :
    Went deadlineNanos e now s (turn deadlineNanos e now s) := by
  rw [turn]
  cases came : e.outcome with
  | failed message => exact fail_went rfl (by simp [came])
  | eof => exact fail_went rfl (by simp [came])
  | bytes chunk fits => exact tookIn_went came short rfl
  | timedOut =>
      dsimp only
      split
      · rename_i late
        obtain ⟨d, is, passed⟩ := (Option.any_eq_true _ _).mp late
        have past : d ≤ now + e.span := of_decide_eq_true passed
        refine .done rfl rfl nofun ?_ fun d' front is' waiting => ?_
        · rintro e' ⟨⟩
          exact .inr ⟨rfl, d, is, past⟩
        · rw [is] at is'
          cases is'
          exact absurd ((waiting_expired came front).mp waiting).1 (Int.not_lt_of_ge past)
      · rename_i early
        refine .expired came (fun d is => ?_) rfl
        rw [is] at early
        simpa using early

/-- The reads of a call that goes on are one more than those of the rest. -/
theorem inTime_behind {d : Int} {r : SourceRead} {c : Call} :
    InTime d (c.behind r).reads (c.behind r) ↔ r.issued < d ∧ InTime d c.reads c := by
  rw [InTime, InTime, Call.behind, List.forall_mem_cons, and_assoc]

/-- All reads of the loop are in time exactly if the next read always is. -/
theorem readLoop_inTime {d : Int} {script : List Turn} {now : Int} {s : SocketTransport}
    (clean : newline ∉ s.framer.data.buf) (short : s.framer.data.buf.length ≤ maxLineBytes) :
    InTime d (readLoop (some d) script now s).reads (readLoop (some d) script now s) ↔
      Onwards d now s.framer.data.buf script := by
  induction script generalizing now s with
  | nil =>
      rw [onwards_nil clean short]
      exact ⟨fun inTime => inTime.2 rfl, fun early => ⟨nofun, fun _ => early⟩⟩
  | cons e rest ih =>
      rw [onwards_cons clean short]
      have went := turn_went (some d) e now short
      rw [readLoop]
      generalize turn (some d) e now s = result at went
      cases went with
      | done only issued settled throws stops =>
          have still : Punctual d now s.framer.data.buf (e :: rest) := punctual_stops fun front => stops d front rfl
          dsimp only
          rw [InTime, only, List.forall_mem_singleton, issued]
          exact and_congr Iff.rfl (iff_of_true (fun waits => absurd waits settled) still)
      | expired came early issued =>
          have behind (front : List Turn) : Waiting d now s.framer.data.buf (e :: front) ↔
              Waiting d (now + e.span) s.framer.data.buf front :=
            (waiting_expired came front).trans (and_iff_right (early d rfl))
          dsimp only
          rw [inTime_behind, issued, ih clean short, punctual_onwards rfl behind]
      | bytes came held clean' short' issued =>
          dsimp only
          rw [inTime_behind, issued, ih clean' short', held, punctual_onwards rfl (waiting_bytes came)]

/-- All further reads of the loop are, exactly if the script is punctual. -/
theorem readLoop_punctual {d : Int} {script : List Turn} {now : Int} {s : SocketTransport}
    (clean : newline ∉ s.framer.data.buf) (short : s.framer.data.buf.length ≤ maxLineBytes) :
    (∀ first others, (readLoop (some d) script now s).reads = first :: others →
        InTime d others (readLoop (some d) script now s)) ↔ Punctual d now s.framer.data.buf script := by
  cases script with
  | nil =>
      refine iff_of_true nofun fun front rest shape some => ?_
      exact absurd (List.append_eq_nil_iff.mp shape.symm).1 some
  | cons e rest =>
      have went := turn_went (some d) e now short
      rw [readLoop]
      generalize turn (some d) e now s = result at went
      have further {c : Call} {r : SourceRead} : (∀ first others, (c.behind r).reads = first :: others →
          InTime d others (c.behind r)) ↔ InTime d c.reads c := by
        refine ⟨fun each => each r c.reads rfl, fun inTime first others shape => ?_⟩
        cases shape
        exact inTime
      cases went with
      | done only issued settled throws stops =>
          refine iff_of_true (fun first others shape => ?_) (punctual_stops fun front => stops d front rfl)
          cases only.symm.trans shape
          exact ⟨nofun, fun waits => absurd waits settled⟩
      | expired came early issued =>
          have behind (front : List Turn) : Waiting d now s.framer.data.buf (e :: front) ↔
              Waiting d (now + e.span) s.framer.data.buf front :=
            (waiting_expired came front).trans (and_iff_right (early d rfl))
          dsimp only
          rw [further, readLoop_inTime clean short, punctual_onwards rfl behind]
      | bytes came held clean' short' issued =>
          dsimp only
          rw [further, readLoop_inTime clean' short', held, punctual_onwards rfl (waiting_bytes came)]

theorem readLoop_throws {deadlineNanos : Option Int} {script : List Turn} {now : Int}
    {s : SocketTransport} (short : s.framer.data.buf.length ≤ maxLineBytes) :
    Throws deadlineNanos (readLoop deadlineNanos script now s) := by
  induction script generalizing now s with
  | nil => nofun
  | cons e rest ih =>
      have went := turn_went deadlineNanos e now short
      rw [readLoop]
      generalize turn deadlineNanos e now s = result at went
      cases went with
      | done only issued settled throws stops => exact throws
      | expired came early issued => exact @ih (now + e.span) _ short
      | bytes came held clean' short' issued => exact @ih (now + e.span) _ short'

/-! ## The deadline -/

/-- A call honours its deadline exactly if, whenever its reads leave it waiting, the next one
is issued before the deadline. -/
theorem honours_iff (s : SocketTransport) (start : Int) (timeout : Option Int) (script : List Turn) :
    Honours s start timeout script ↔ (s.terminal = none → ∀ d, deadline start timeout = .ok (some d) →
      Punctual d start s.framer.data.buf script) := by
  have unread {d : Int} {buf : List UInt8} (full : newline ∈ buf ∨ maxLineBytes < buf.length) :
      Punctual d start buf script := by
    rintro front rest _ _ ⟨_, _, unfinished, short⟩
    rcases full with line | long
    · exact absurd (List.mem_append_left _ line) unfinished
    · rw [List.length_append] at short
      omega
  cases ended : s.terminal with
  | some e =>
      have read : s.readLine start timeout script = ⟨[], some (.error (.transport e)), start, s⟩ := by
        rw [readLine, ended]
      refine iff_of_true ⟨?_, ?_⟩ nofun
      · rw [read]
        nofun
      · rw [read]
        rintro deadlineNanos _ e' ⟨⟩
        exact .inl ended
  | none =>
      have took := s.tryTakeLine_took
      have read := readLine.eq_def s start timeout script
      rw [ended] at read
      dsimp only at read
      generalize s.tryTakeLine = pair at took read
      cases took with
      | line complete same =>
          refine iff_of_true ⟨?_, ?_⟩ fun _ d _ => unread (.inl complete)
          · rw [read]
            nofun
          · rw [read]
            nofun
      | long exceeds told =>
          refine iff_of_true ⟨?_, ?_⟩ fun _ d _ => unread (.inr exceeds)
          · rw [read]
            nofun
          · rw [read]
            rintro deadlineNanos _ e' ⟨⟩
            exact .inl told
      | @nothing t clean short held terminal source =>
          rw [← held] at clean short ⊢
          dsimp only at read
          cases given : deadline start timeout with
          | error e =>
              refine iff_of_true ⟨?_, ?_⟩ nofun
              · rw [given]
                nofun
              · rw [given]
                nofun
          | ok deadlineNanos =>
              rw [given] at read
              dsimp only at read
              have throws : Throws deadlineNanos (readLoop deadlineNanos script start t) :=
                readLoop_throws short
              cases deadlineNanos with
              | none =>
                  refine iff_of_true ⟨?_, ?_⟩ nofun
                  · rw [given]
                    nofun
                  · rw [given, read]
                    rintro _ ⟨⟩
                    exact throws
              | some d =>
                  have further := @readLoop_punctual d script start _ clean short
                  constructor
                  · rintro ⟨reads, _⟩ _ d' ⟨⟩
                    rw [read] at reads
                    exact further.mp (reads d given)
                  · intro punctual
                    refine ⟨?_, ?_⟩
                    · rw [given, read]
                      rintro d' ⟨⟩
                      exact further.mpr (punctual rfl d rfl)
                    · rw [given, read]
                      rintro _ ⟨⟩
                      exact throws

/-- One byte of a line, some time after the read was issued. -/
def trickled (during : Nat) : Turn := ⟨0, during, .bytes [0x7B] (by decide), 0⟩

/-- A byte just before the deadline of one second makes the call wait for the next, which
comes half a millisecond past it; a third read is issued there. -/
theorem honours_broken : ¬ ∀ s start timeout script, Honours s start timeout script := by
  intro law
  have punctual := (honours_iff _ _ _ _).mp
    (law (fromSource .socket) 0 (some 1000000000) [trickled 999900000, trickled 600000]) rfl
    1000000000 rfl
  have waiting : Waiting 1000000000 0 [] [trickled 999900000, trickled 600000] := by
    refine ⟨fun e inside => ?_, fun first e rest shape expired => ?_, by decide, by decide⟩
    · simp only [List.mem_cons, List.not_mem_nil, or_false] at inside
      rcases inside with rfl | rfl <;> exact .inr ⟨_, _, rfl⟩
    · have inside : e ∈ [trickled 999900000, trickled 600000] := by
        rw [shape]
        exact List.mem_append_right _ List.mem_cons_self
      simp only [List.mem_cons, List.not_mem_nil, or_false] at inside
      rcases inside with rfl | rfl <;> cases expired
  have early := punctual _ [] rfl (List.cons_ne_nil _ _) waiting
  exact absurd early (by decide)

end SanDbOxFormal.Java.Transport.SocketTransport
