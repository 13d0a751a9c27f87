import SanDbOxFormal.Java.Transport.TimedReads

/-!
# Where the timeouts of the Java driver go wrong

The connect is asked to wait for ever by a timeout below a millisecond.  A timeout past a
`long` of nanoseconds does not become a deadline.  A look at the clock is wrong when the
clock wraps between the deadline and the look; the time that is left, which is computed as
a difference, is not.
-/

namespace SanDbOxFormal.Java.Transport

open SanDbOxFormal.Library

theorem long_eq_self {n : Int} (low : -2 ^ 63 ≤ n) (high : n < 2 ^ 63) : long n = n :=
  Int.bmod_eq_of_le (by omega) (by omega)

theorem long_long_add (x y : Int) : long (long x + y) = long (x + y) := Int.bmod_add_bmod

/-! ## Conversions -/

/-- The connect gets a bound exactly from a millisecond on, while its milliseconds fit. -/
theorem connectBound_iff (d : Duration) :
    (∃ b, connectBound (some d) = .ok b ∧ 0 < b ∧ b ≤ intMax) ↔
      1000000 ≤ d.total ∧ d.total < 2 ^ 63 * 1000000 := by
  rw [connectBound, Duration.toMillis, d.millis_eq]
  by_cases fits : d.total / 1000000 < 2 ^ 63
  · have bound : int (min ((d.total / 1000000 : Nat) : Int) intMax) =
        min ((d.total / 1000000 : Nat) : Int) intMax := by
      have high := min_le_right ((d.total / 1000000 : Nat) : Int) intMax
      have low : 0 ≤ min ((d.total / 1000000 : Nat) : Int) intMax :=
        le_min (Int.natCast_nonneg _) (by decide)
      rw [intMax] at high low
      exact Int.bmod_eq_of_le (by rw [intMax]; omega) (by rw [intMax]; omega)
    rw [if_pos fits]
    constructor
    · rintro ⟨b, is, positive, _⟩
      obtain ⟨millis, same, is⟩ := bind_ok_iff.mp is
      cases same
      cases is
      rw [bound] at positive
      have some := lt_of_lt_of_le positive (min_le_left _ _)
      omega
    · rintro ⟨long, _⟩
      refine ⟨_, rfl, ?_, ?_⟩
      · rw [bound, lt_min_iff]
        exact ⟨by omega, by decide⟩
      · rw [bound]
        exact min_le_right _ _
  · rw [if_neg fits]
    refine iff_of_false ?_ fun bounds => fits ?_
    · rintro ⟨b, is, _⟩
      cases is
    · have short := bounds.2
      omega

/-- The deadline of a call for which it is computed. -/
def deadlineOf (start : Int) (d : Duration) : Int := long (start + d.total)

theorem deadlineNanos_ok {start : Int} {d : Duration} (fits : d.total < 2 ^ 63) :
    deadlineNanos start (some d) = .ok (some (deadlineOf start d)) := by
  rw [deadlineNanos, Duration.toNanos, if_pos fits, deadlineOf, nanoTime, ← long_long_add]
  rfl

theorem deadlineNanos_iff (start : Int) (d : Duration) :
    Succeeds (deadlineNanos start (some d)) ↔ d.total < 2 ^ 63 := by
  constructor
  · rintro ⟨deadline, is⟩
    by_contra beyond
    rw [deadlineNanos, Duration.toNanos, if_neg beyond] at is
    cases is
  · exact fun fits => ⟨_, deadlineNanos_ok fits⟩

/-! ## The clock -/

/-- The clock shows both instants without wrapping between them. -/
def SameTurn (x y : Int) : Prop := x.bdiv (2 ^ 64) = y.bdiv (2 ^ 64)

/-- A look at the clock is right exactly if the clock does not wrap between the deadline
and the look. -/
theorem lateAt_iff {start now : Int} {d : Duration} (fits : d.total < 2 ^ 63) (since : start ≤ now)
    (within : now < start + 2 ^ 63) :
    (lateAt (deadlineOf start d) now = true ↔ start + d.total ≤ now) ↔
      SameTurn (start + d.total) now := by
  rw [lateAt, decide_eq_true_iff, deadlineOf, nanoTime, long, long]
  apply Wrapping.compare_iff
  · decide
  · omega
  · omega

/-- The time that is left is right however the clock wraps. -/
theorem remaining_eq {start now : Int} {d : Duration} (fits : d.total < 2 ^ 63) (since : start ≤ now)
    (within : now < start + 2 ^ 63) :
    remaining (some (deadlineOf start d)) now = some (max (start + d.total - now) 0) := by
  have left : long (long (start + d.total) - long now) = start + d.total - now := by
    rw [long, long, long, Wrapping.sub_readings]
    exact long_eq_self (by omega) (by omega)
  rw [remaining, Option.map_some, deadlineOf, nanoTime, left]

/-! ## A whole call -/

/-- What a call with a deadline should do with the clock: every wait is bounded, by zero
only where that is no wait at all and the deadline has come, and every look is right. -/
def Event.Right (w : Wait) (start : Int) (d : Duration) : Event → Prop
  | waited now bound => ∃ b, bound = some b ∧ b ≤ w.largest ∧
      (0 < b ∨ b = 0 ∧ w.zeroIsForever = false ∧ start + d.total ≤ now)
  | compared now late => late = true ↔ start + d.total ≤ now

theorem waited_right (w : Wait) {start now : Int} {d : Duration} (fits : d.total < 2 ^ 63)
    (since : start ≤ now) (within : now < start + 2 ^ 63) :
    (Event.waited now (w.bound (remaining (some (deadlineOf start d)) now))).Right w start d := by
  rw [remaining_eq fits since within]
  generalize left : max (start + (d.total : Int) - now) 0 = r
  have small : r < 2 ^ 63 := by omega
  cases w with
  | soTimeout =>
      refine ⟨_, rfl, min_le_right _ _, .inl ?_⟩
      exact Source.waitMs_pos .socket r
  | select =>
      refine ⟨_, rfl, ?_, .inl (Source.waitMs_pos .channel r)⟩
      simp only [Source.waitMs, toMillis, Wait.largest]
      omega
  | poll =>
      refine ⟨r, rfl, ?_, ?_⟩
      · simp only [Wait.largest]
        omega
      · rcases Int.lt_or_le now (start + d.total) with early | late
        · exact .inl (by omega)
        · exact .inr ⟨by omega, rfl, late⟩

variable {σ ω : Type}

/-- When the laps end. -/
def instants (now : Int) : List (Lap ω) → List Int
  | [] => []
  | lap :: rest => (now + lap.span) :: instants (now + lap.span) rest

theorem Lap.parts (lap : Lap ω) : 0 ≤ (lap.before : Int) ∧ lap.before ≤ lap.span := by
  rw [span]
  omega

/-- The laps end less than a half turn of the clock behind the start of the call, and on the
turn of its deadline. -/
def Steady (start : Int) (d : Duration) (ends : List Int) : Prop :=
  ∀ x ∈ ends, x < start + 2 ^ 63 ∧ SameTurn (start + d.total) x

/-- Such a loop does everything right with the clock. -/
theorem waitLoop_right {w : Wait} {react : σ → ω → Reaction σ} {start now : Int} {d : Duration}
    {laps : List (Lap ω)} {s : σ} (fits : d.total < 2 ^ 63) (since : start ≤ now)
    (steady : Steady start d (instants now laps)) :
    ∀ e ∈ (waitLoop w react (some (deadlineOf start d)) laps now s).events, e.Right w start d := by
  induction laps generalizing now s with
  | nil => nofun
  | cons lap rest ih =>
      have parts := lap.parts
      obtain ⟨⟨within, turn⟩, later⟩ := List.forall_mem_cons.mp steady
      have waited := waited_right w fits (show start ≤ now + lap.before by omega)
        (show now + lap.before < start + 2 ^ 63 by omega)
      have looked := (lateAt_iff fits (show start ≤ now + lap.span by omega) within).mpr turn
      have onwards (s' : σ) := ih (s := s') (show start ≤ now + lap.span by omega) later
      rw [waitLoop.eq_def]
      dsimp only
      cases react s lap.brought with
      | done result s' => exact List.forall_mem_singleton.mpr waited
      | stuck s' => exact List.forall_mem_singleton.mpr waited
      | again s' => exact List.forall_mem_cons.mpr ⟨waited, onwards s'⟩
      | expired s' =>
          dsimp only
          split
          · exact List.forall_mem_cons.mpr ⟨waited, List.forall_mem_singleton.mpr looked⟩
          · exact List.forall_mem_cons.mpr ⟨waited, List.forall_mem_cons.mpr ⟨looked, onwards s'⟩⟩

theorem done_plain (e : TransportException) (s s' : σ) :
    Reaction.done (.error (.transport e)) s ≠ .done (.error .arithmetic) s' := by
  intro same
  cases same

/-- A loop throws an `ArithmeticException` only if what it waits for does. -/
theorem waitLoop_result {w : Wait} {react : σ → ω → Reaction σ} {deadline : Option Int} {now : Int}
    {laps : List (Lap ω)} {s : σ}
    (plain : ∀ s o s', react s o ≠ .done (.error .arithmetic) s') :
    (waitLoop w react deadline laps now s).result ≠ some (.error .arithmetic) := by
  induction laps generalizing now s with
  | nil => nofun
  | cons lap rest ih =>
      rw [waitLoop.eq_def]
      dsimp only
      cases reacted : react s lap.brought with
      | done result s' =>
          intro same
          cases same
          exact plain _ _ _ reacted
      | stuck s' => nofun
      | again s' => exact ih
      | expired s' =>
          cases deadline with
          | none => exact ih
          | some d =>
              dsimp only
              split
              · nofun
              · exact ih

/-- A call throws no `ArithmeticException` and does everything right with the clock. -/
def Traced.Sound (t : Traced σ) (w : Wait) (start : Int) (d : Duration) : Prop :=
  t.result ≠ some (.error .arithmetic) ∧ ∀ e ∈ t.events, e.Right w start d

theorem timedRead_sound {w : Wait} {react : σ → ω → Reaction σ} {start : Int} {d : Duration}
    {laps : List (Lap ω)} {s : σ} (plain : ∀ s o s', react s o ≠ .done (.error .arithmetic) s')
    (fits : d.total < 2 ^ 63) (steady : Steady start d (instants start laps)) :
    (timedRead w react start (some d) laps s).Sound w start d := by
  rw [timedRead, deadlineNanos_ok fits]
  exact ⟨waitLoop_result plain, waitLoop_right fits (le_refl start) steady⟩

namespace SocketTransport

theorem reactTaken_plain (s : SocketTransport)
    (taken : Option (Except TransportException (Option (List UInt8)) × SocketTransport))
    (s' : SocketTransport) : s.reactTaken taken ≠ .done (.error .arithmetic) s' := by
  rw [reactTaken.eq_def]
  split
  · nofun
  · exact done_plain _ _ _
  · nofun
  · nofun

theorem react_plain (s : SocketTransport) (o : Outcome) (s' : SocketTransport) :
    react s o ≠ .done (.error .arithmetic) s' := by
  cases o with
  | failed message => exact done_plain _ _ _
  | timedOut => nofun
  | eof => exact done_plain _ _ _
  | bytes chunk fits => exact reactTaken_plain s (s.pushAndTake chunk) s'

theorem readLineTimed_sound (s : SocketTransport) {start : Int} {d : Duration}
    {laps : List (Lap Outcome)} (fits : d.total < 2 ^ 63)
    (steady : Steady start d (instants start laps)) :
    (s.readLineTimed start (some d) laps).Sound s.wait start d := by
  have source : s.tryTakeLine.2.source = s.source := by
    unfold tryTakeLine
    split <;> rfl
  rw [readLineTimed.eq_def]
  split
  · exact ⟨nofun, nofun⟩
  · split
    · exact ⟨nofun, nofun⟩
    · exact ⟨nofun, nofun⟩
    · rename_i t taken
      rw [taken] at source
      have same : t.wait = s.wait := by rw [wait, wait, show t.source = s.source from source]
      rw [← same]
      exact timedRead_sound react_plain fits steady

end SocketTransport

namespace ReaderThread

theorem react_plain (terminal : Option TransportException) (p : Polled)
    (terminal' : Option TransportException) :
    react terminal p ≠ .done (.error .arithmetic) terminal' := by
  cases p with
  | item i =>
      cases i with
      | error e => exact done_plain _ _ _
      | ok line => nofun
  | nothing => nofun
  | interrupted => exact done_plain _ _ _

theorem readLineTimed_sound (terminal : Option TransportException) {start : Int} {d : Duration}
    {laps : List (Lap Polled)} (fits : d.total < 2 ^ 63)
    (steady : Steady start d (instants start laps)) :
    (readLineTimed terminal start (some d) laps).Sound .poll start d := by
  cases terminal with
  | some e => exact ⟨nofun, nofun⟩
  | none => exact timedRead_sound react_plain fits steady

end ReaderThread

namespace SocketTransport

/-! ## A clock that does not wrap -/

/-- A turn as a lap of the loop. -/
def lap (e : Turn) : Lap Outcome := ⟨e.before, e.during, e.outcome, e.after⟩

/-- A reaction to what a read has brought, and how the turn of it ends. -/
inductive Reacted (now : Int) : Reaction SocketTransport → Turned → Prop where
  | done (reads : List SourceRead) (result : Except Thrown (List UInt8)) (s : SocketTransport) (late : Int) :
      Reacted now (.done result s) (.done ⟨reads, some result, late, s⟩)
  | stuck (reads : List SourceRead) (s : SocketTransport) (late : Int) :
      Reacted now (.stuck s) (.done ⟨reads, none, late, s⟩)
  | again (s : SocketTransport) (r : SourceRead) : Reacted now (.again s) (.again r now s)

theorem reactTaken_reacted (s : SocketTransport) (r : SourceRead) (now : Int)
    (taken : Option (Except TransportException (Option (List UInt8)) × SocketTransport)) :
    Reacted now (s.reactTaken taken) (s.tookIn r now taken) := by
  match taken with
  | none => exact .stuck [r] s r.back
  | some (.error e, s') => exact .done [r] _ s' r.back
  | some (.ok (some line), s') => exact .done [r] _ s' r.back
  | some (.ok none, s') => exact .again s' r

theorem react_reacted (deadline : Option Int) (e : Turn) (now : Int) (s : SocketTransport)
    (came : e.outcome ≠ .timedOut) :
    Reacted (now + e.span) (react s e.outcome) (turn deadline e now s) := by
  rw [turn.eq_def]
  dsimp only
  cases is : e.outcome with
  | failed message => exact .done _ _ _ _
  | eof => exact .done _ _ _ _
  | bytes chunk fits => exact reactTaken_reacted s _ _ (s.pushAndTake chunk)
  | timedOut => exact absurd is came

/-- The two models of a call come to the same. -/
def Agree (t : Traced SocketTransport) (c : Call) : Prop :=
  t.result = c.outcome ∧ t.state = c.transport

/-- While the clock does not wrap, the loop is that of `readLine`. -/
theorem waitLoop_agree (w : Wait) (deadline : Option Int) {script : List Turn} {now : Int}
    {s : SocketTransport} (unwrapped : ∀ x ∈ instants now (script.map lap), nanoTime x = x) :
    Agree (waitLoop w react deadline (script.map lap) now s) (readLoop deadline script now s) := by
  induction script generalizing now s with
  | nil => exact ⟨rfl, rfl⟩
  | cons e rest ih =>
      obtain ⟨shown, later⟩ := List.forall_mem_cons.mp unwrapped
      have shown : nanoTime (now + e.span) = now + e.span := shown
      have onwards (s' : SocketTransport) := @ih (now + e.span) s' later
      rw [List.map_cons, waitLoop.eq_def, readLoop]
      dsimp only
      by_cases came : e.outcome = .timedOut
      · have brought : react s (lap e).brought = .expired s := congrArg (react s) came
        rw [brought, turn, came]
        dsimp only
        cases deadline with
        | none => exact onwards s
        | some d =>
            have look : lateAt d (now + (lap e).span) = decide (d ≤ now + e.span) :=
              congrArg (fun x => decide (d ≤ x)) shown
            dsimp only
            rw [look, Option.any_some]
            by_cases late : d ≤ now + e.span
            · rw [if_pos (decide_eq_true late), if_pos (decide_eq_true late)]
              exact ⟨rfl, rfl⟩
            · rw [if_neg (by simpa using late), if_neg (by simpa using late)]
              exact onwards s
      · have reacted := react_reacted deadline e now s came
        have brought : react s (lap e).brought = react s e.outcome := rfl
        rw [brought]
        generalize react s e.outcome = reaction at reacted
        generalize turn deadline e now s = turned at reacted
        cases reacted with
        | done reads result s' late => exact ⟨rfl, rfl⟩
        | stuck reads s' late => exact ⟨rfl, rfl⟩
        | again s' r => exact onwards s'

/-- So `readLineTimed` is `readLine`, until the clock wraps. -/
theorem readLineTimed_agree (s : SocketTransport) (start : Int) (timeout : Option Duration)
    (script : List Turn) (unwrapped : ∀ x ∈ instants start (script.map lap), nanoTime x = x) :
    Agree (s.readLineTimed start timeout (script.map lap))
      (s.readLine start (timeout.map fun d => (d.total : Int)) script) := by
  have same : deadlineNanos start timeout = deadline start (timeout.map fun d => (d.total : Int)) := by
    cases timeout with
    | none => rfl
    | some d =>
        rw [Option.map_some, deadline]
        by_cases fits : d.total < 2 ^ 63
        · rw [deadlineNanos_ok fits, deadlineOf, if_pos ⟨by omega, by omega⟩]
        · rw [deadlineNanos, Duration.toNanos, if_neg fits, if_neg (by omega)]
          rfl
  rw [readLineTimed.eq_def, readLine.eq_def]
  cases s.terminal with
  | some e => exact ⟨rfl, rfl⟩
  | none =>
      dsimp only
      generalize s.tryTakeLine = pair
      match pair with
      | (.error e, t) => exact ⟨rfl, rfl⟩
      | (.ok (some line), t) => exact ⟨rfl, rfl⟩
      | (.ok none, t) =>
          dsimp only
          rw [timedRead, same]
          cases deadline start (timeout.map fun d => (d.total : Int)) with
          | error e => exact ⟨rfl, rfl⟩
          | ok d => exact waitLoop_agree t.wait d unwrapped

end SocketTransport

/-! ## The timeouts of the driver -/

/-- Each conversion, wait and look at the clock, with the timeouts for which it is right;
and whole calls, for which all of them are. -/
theorem timeout_arithmetic (d : Duration) (start : Int) :
    ((∃ b, connectBound (some d) = .ok b ∧ 0 < b ∧ b ≤ intMax) ↔
      1000000 ≤ d.total ∧ d.total < 2 ^ 63 * 1000000) ∧
    (Succeeds (deadlineNanos start (some d)) ↔ d.total < 2 ^ 63) ∧
    (∀ now : Int, d.total < 2 ^ 63 → start ≤ now → now < start + 2 ^ 63 →
      (∀ w : Wait, (Event.waited now (w.bound (remaining (some (deadlineOf start d)) now))).Right w start d) ∧
      ((lateAt (deadlineOf start d) now = true ↔ start + d.total ≤ now) ↔
        SameTurn (start + d.total) now)) ∧
    (∀ (s : SocketTransport) (laps : List (Lap Outcome)),
      d.total < 2 ^ 63 → Steady start d (instants start laps) →
        (s.readLineTimed start (some d) laps).Sound s.wait start d) ∧
    ∀ (terminal : Option TransportException) (laps : List (Lap ReaderThread.Polled)),
      d.total < 2 ^ 63 → Steady start d (instants start laps) →
        (ReaderThread.readLineTimed terminal start (some d) laps).Sound .poll start d := by
  refine ⟨connectBound_iff d, deadlineNanos_iff start d, fun now fits since within => ?_,
    fun s laps fits steady => s.readLineTimed_sound fits steady,
    fun terminal laps fits steady => ReaderThread.readLineTimed_sound terminal fits steady⟩
  exact ⟨fun w => waited_right w fits since within, lateAt_iff fits since within⟩

/-- A nanosecond less than a millisecond. -/
def almostMilli : Duration := ⟨0, 999999, by decide, by decide⟩

/-- Some 292 years and four months. -/
def beyondLong : Duration := ⟨9223372037, 0, by decide, by decide⟩

/-- A short timeout asks the connect to wait for ever, a long one throws before the reply is
waited for, and a clock that is about to wrap has its deadline passed at once. -/
theorem timeouts_misread :
    connectBound (some almostMilli) = .ok 0 ∧
    deadlineNanos 0 (some beyondLong) = .error .arithmetic ∧
    lateAt (deadlineOf (2 ^ 63 - 1) almostMilli) (2 ^ 63 - 1) = true ∧
      (2 ^ 63 - 1 : Int) < 2 ^ 63 - 1 + almostMilli.total := by
  refine ⟨by decide, ?_, by decide, by decide⟩
  have beyond : ¬ beyondLong.total < 2 ^ 63 := by decide
  rw [deadlineNanos, Duration.toNanos, if_neg beyond]
  exact rfl

end SanDbOxFormal.Java.Transport
