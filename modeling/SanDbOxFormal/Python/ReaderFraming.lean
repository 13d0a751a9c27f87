import SanDbOxFormal.Python.Transport

/-!
# The lines of the reader thread

What calls of `read_line` return from a stream, beside the law of the line cap: the
lines are those of the law, and the end is not where the stream stops inside a line.
-/

namespace SanDbOxFormal.Python

open SanDbOxFormal.Library
open SanDbOxFormal.Library.Runs
open SanDbOxFormal.Library.Segments
open SanDbOxFormal.Library.CappedFraming

/-! ## The thread -/

/-- What the thread puts behind the lines. -/
def File.ending (f : File) : Terminal :=
  if (lawful newline maxLineBytes f.rest).2 then .lineTooLong
  else
    match f.failure with
    | some fault => .osError fault
    | none => if remainder newline f.rest = [] then .eofError else .lineTooLong

theorem File.ending_segment {f : File} {content rest : List UInt8} (clean : newline ∉ content)
    (short : content.length ≤ maxLineBytes) (shape : f.rest = content ++ newline :: rest) :
    ({ f with rest := rest } : File).ending = f.ending := by
  rw [ending, ending, shape, lawful_segment clean short, remainder_segment clean]

theorem File.ending_clean {f : File} (clean : newline ∉ f.rest) (short : f.rest.length ≤ maxLineBytes) :
    f.ending = match f.failure with
      | some fault => .osError fault
      | none => if f.rest = [] then .eofError else .lineTooLong := by
  rw [ending, lawful_clean clean, remainder_clean clean, if_neg]
  simpa using short

theorem File.nextItem_ending {f : File} {e : Terminal} {f' : File} (read : f.nextItem = (.error e, f')) :
    f.ending = e := by
  cases read ▸ f.nextItem_next with
  | long clean exceeds shape => rw [ending, shape, lawful_long clean exceeds, if_pos rfl]
  | eof empty none =>
      rw [ending_clean (by simp [empty]) (by simp [empty]), none]
      exact if_pos empty
  | cut clean some none =>
      by_cases long : maxLineBytes < f.rest.length
      · rw [ending, lawful_clean clean, if_pos (decide_eq_true long)]
      · rw [ending_clean clean (Nat.le_of_not_lt long), none]
        exact if_neg some
  | fails clean short some => rw [ending_clean clean short, some]

/-- What the thread puts in the end. -/
def readingEnding : Pump.Ending reading where
  ending := File.ending
  line_next := by
    intro f f' l took
    have read : f.nextItem = (.ok l, f') := took
    cases read ▸ f.nextItem_next with
    | line clean short shape => exact File.ending_segment clean short shape
  end_next := File.nextItem_ending

/-! ## The calls -/

namespace LineReader

/-- What the calls of `read_line` have still to return. -/
def course (r : LineReader) : Course (List UInt8) PyError :=
  match r.terminal with
  | some e => ⟨[], some e.error, true⟩
  | none => (r.pump.course readingEnding).mapError Terminal.error

/-- What a call returned, or `none` if it gave up. -/
def told : Except PyError (List UInt8) → Option (Except PyError (List UInt8))
  | .ok line => some (.ok line)
  | .error (.eofError m) => some (.error (.eofError m))
  | .error (.protocolError m) => some (.error (.protocolError m))
  | .error _ => none

/-- One `read_line`; no `KeyboardInterrupt` comes while it holds an item. -/
inductive Step (timeoutMax : PyFloat) : LineReader → Except PyError (List UInt8) → LineReader → Prop where
  | called {r r' : LineReader} {timeout : Option PyFloat} {moments : List Pump.Moment}
      {result : Except PyError (List UInt8)} (held : .lose ∉ moments)
      (returned : r.readLine timeoutMax timeout moments = some (result, r')) :
      Step timeoutMax r result r'

/-- The end is one of a stream that does not fail, and it is told where it was taken. -/
structure Sound (r : LineReader) : Prop where
  fresh : r.terminal = none → ¬ r.pump.spent
  plain : ∀ e, r.course.ending = some e → told (.error e) = some (.error e)

theorem course_usable {r : LineReader} (usable : r.terminal = none) :
    r.course = (r.pump.course readingEnding).mapError Terminal.error := by
  rw [course, usable]

/-- The ways to end a wait without an item do not look like the end. -/
theorem told_broke {timeoutMax : PyFloat} {timeout : Option PyFloat} {m : Pump.Moment} {b : Broken}
    (broken : getBroken timeoutMax timeout m = some b) : told (.error (broke b)) = none := by
  cases m with
  | turn => cases broken
  | look =>
      rw [getBroken] at broken
      split_ifs at broken
      cases broken
      rfl
  | expire =>
      rw [getBroken] at broken
      split_ifs at broken
      · cases broken
        rfl
      · cases broken
        rfl
  | leave =>
      cases broken
      rfl
  | lose =>
      cases broken
      rfl

/-- The reader behind turns of the thread. -/
theorem course_turns {r : LineReader} (usable : r.terminal = none) (n : Nat) :
    ({ r with pump := (Pump.turn reading)^[n] r.pump } : LineReader).course = r.course := by
  rw [course_usable (r := ⟨(Pump.turn reading)^[n] r.pump, r.terminal⟩) usable,
    course_usable (r := r) usable, Pump.turns_course]

/-- A reader that took an item out of the pump that the thread had turned. -/
theorem course_taken {r : LineReader} {p : Pump File Terminal (List UInt8)}
    {item : Except Terminal (List UInt8)} (usable : r.terminal = none) {n : Nat}
    (took : ((Pump.turn reading)^[n] r.pump).take? = some (item, p)) :
    match item with
    | .ok l => r.course = ⟨l :: ({ r with pump := p } : LineReader).course.items,
        ({ r with pump := p } : LineReader).course.ending, false⟩
    | .error e => r.course = ⟨[], some e.error, false⟩ := by
  have before := Pump.take?_course (E := readingEnding) took
  rw [Pump.turns_course] at before
  cases item with
  | ok l =>
      rw [course_usable usable, course_usable (r := ⟨p, r.terminal⟩) usable, before]
      rfl
  | error e =>
      rw [course_usable usable, before]
      rfl

theorem Step.course {timeoutMax : PyFloat} {r r' : LineReader} {result : Except PyError (List UInt8)}
    (sound : r.Sound) (step : Step timeoutMax r result r') :
    Course.Step r.course (told result) r'.course ∧ r'.Sound := by
  cases step with
  | called held returned =>
      have late (usable : r.terminal = none) : Course.Step r.course none r.course := by
        rw [course_usable usable]
        exact .late _ _
      cases readLine_returned returned with
      | @again e is =>
          have here : r.course = ⟨[], some e.error, true⟩ := by rw [LineReader.course, is]
          have plain := sound.plain e.error (by rw [here])
          refine ⟨?_, sound⟩
          rw [plain, here]
          exact .ended e.error true
      | refused usable negative => exact ⟨late usable, sound⟩
      | broken usable waited =>
          cases Pump.wait_settled waited with
          | lost n broken inside took => exact absurd inside held
          | left n broken early inside =>
              rw [told_broke broken, course_turns usable]
              refine ⟨late usable, fun _ => Pump.turns_spent (sound.fresh usable), fun e is => ?_⟩
              rw [course_turns usable] at is
              exact sound.plain e is
      | ended usable waited =>
          cases Pump.wait_settled waited with
          | taken n took =>
              have here := course_taken usable took
              have plain := sound.plain _ (by rw [here])
              rw [here, plain]
              refine ⟨.ended _ false, nofun, fun e is => ?_⟩
              cases is
              exact plain
      | @line l p usable waited =>
          cases Pump.wait_settled waited with
          | taken n took =>
              have here : r.course = ⟨_ :: _, _, false⟩ := course_taken usable took
              refine ⟨?_, fun _ => Pump.take?_spent took, fun e is => ?_⟩
              · rw [here, course_usable (r := ⟨p, r.terminal⟩) usable]
                exact .item l _ _
              · exact sound.plain e (by rw [here]; exact is)

theorem start_course (f : File) : (start f).course = ⟨f.lines, some f.ending.error, false⟩ := rfl

theorem told_ending {f : File} (unfailing : f.failure = none) :
    told (.error f.ending.error) = some (.error f.ending.error) := by
  rw [File.ending, unfailing]
  split_ifs <;> rfl

theorem start_sound (bytes : List UInt8) : (start ⟨bytes, none⟩).Sound where
  fresh := nofun
  plain := by
    rintro e ⟨⟩
    exact told_ending rfl

theorem run_course {timeoutMax : PyFloat} {r r' : LineReader}
    {results : List (Except PyError (List UInt8))} (run : Run (Step timeoutMax) r results r')
    (sound : r.Sound) : Run Course.Step r.course (results.map told) r'.course :=
  run.map (P := Sound) (fun _ _ _ sound step => (step.course sound).2)
    (fun _ _ _ sound step => (step.course sound).1) sound

/-- A call without timeout returns a line or the end, once the thread had its turns. -/
theorem step_arrives (timeoutMax : PyFloat) {r : LineReader} (sound : r.Sound) :
    ∃ result r', Step timeoutMax r result r' ∧ told result ≠ none := by
  have called {result : Except PyError (List UInt8)} {r' : LineReader}
      (returned : r.readLine timeoutMax none [.turn, .turn, .look] = some (result, r')) :
      Step timeoutMax r result r' := .called (by decide) returned
  obtain ⟨pump, terminal⟩ := r
  cases terminal with
  | some e =>
      refine ⟨.error e.error, ⟨pump, some e⟩, called rfl, ?_⟩
      rw [sound.plain e.error rfl]
      nofun
  | none =>
      obtain ⟨item, p, waited⟩ : ∃ item p, pump.wait reading (getBroken timeoutMax none)
          [.turn, .turn, .look] = some (.ok item, p) := Pump.wait_arrives (sound.fresh rfl)
      cases item with
      | ok line =>
          refine ⟨.ok line, ⟨p, none⟩, called ?_, nofun⟩
          simp [readLine, waited]
      | error e =>
          have step : Step timeoutMax ⟨pump, none⟩ (.error e.error) ⟨p, some e⟩ := called (by
            simp [readLine, waited])
          refine ⟨_, _, step, ?_⟩
          rw [(step.course sound).2.plain e.error rfl]
          nofun

theorem run_arrives (timeoutMax : PyFloat) (n : Nat) {r : LineReader} (sound : r.Sound) :
    ∃ results r', Run (Step timeoutMax) r results r' ∧ results.length = n ∧
      none ∉ results.map told := by
  induction n generalizing r with
  | zero => exact ⟨[], r, .nil r, rfl, List.not_mem_nil⟩
  | succ n ih =>
      obtain ⟨result, mid, step, prompt⟩ := step_arrives timeoutMax sound
      obtain ⟨results, last, run, size, later⟩ := ih (step.course sound).2
      refine ⟨result :: results, last, .cons step run, congrArg (· + 1) size, ?_⟩
      rw [List.map_cons, List.mem_cons, not_or]
      exact ⟨prompt.symm, later⟩

/-! ## The law -/

/-- What the law wants to be read from a stream. -/
def lawfulCourse (bytes : List UInt8) : Course (List UInt8) PyError :=
  { items := (lawful newline maxLineBytes bytes).1
    ending := some (if (lawful newline maxLineBytes bytes).2 then Terminal.lineTooLong
      else .eofError).error
    told := false }

/-- Whatever the timeouts and the turns of the thread, the calls return what the law
wants and nothing is withheld from them. -/
structure Framing (timeoutMax : PyFloat) (bytes : List UInt8) : Prop where
  lawful : ∀ results r, Run (Step timeoutMax) (start ⟨bytes, none⟩) results r →
    ∃ c, Run Course.Step (lawfulCourse bytes) (results.map told) c
  arrives : ∀ n, ∃ results r, Run (Step timeoutMax) (start ⟨bytes, none⟩) results r ∧
    results.length = n ∧ none ∉ results.map told

/-- The thread ends as the law wants it unless the stream breaks off inside a line
that is not over-long. -/
theorem ending_lawful_iff (bytes : List UInt8) :
    some (File.ending ⟨bytes, none⟩).error = (lawfulCourse bytes).ending ↔
      (CappedFraming.lawful newline maxLineBytes bytes).2 = true ∨ remainder newline bytes = [] := by
  rw [File.ending, lawfulCourse]
  by_cases long : (CappedFraming.lawful newline maxLineBytes bytes).2 = true
  · simp [long]
  · by_cases whole : remainder newline bytes = []
    · simp [long, whole]
    · simp [long, whole, Terminal.error]

theorem reader_framing_iff (timeoutMax : PyFloat) (bytes : List UInt8) : Framing timeoutMax bytes ↔
    (∃ line ∈ complete newline bytes, maxLineBytes < line.length) ∨
      maxLineBytes < (remainder newline bytes).length ∨ remainder newline bytes = [] := by
  have sound := start_sound bytes
  rw [← or_assoc, ← lawful_snd, ← ending_lawful_iff]
  constructor
  · intro framing
    obtain ⟨results, r, run, size, prompt⟩ :=
      framing.arrives ((CappedFraming.lawful newline maxLineBytes bytes).1.length + 1)
    obtain ⟨c, lawful⟩ := framing.lawful results r run
    obtain ⟨e, inside⟩ := Course.run_past lawful prompt (by rw [List.length_map, size]; omega)
    rw [Course.run_error lawful inside]
    exact Course.run_error (run_course run sound) inside
  · intro same
    refine ⟨fun results r run => ⟨r.course, ?_⟩, fun n => run_arrives timeoutMax n sound⟩
    have course := run_course run sound
    rw [start_course, same] at course
    exact course

/-- A stream that breaks off behind one byte is reported as an over-long line. -/
theorem reader_framing_broken : ¬ ∀ timeoutMax bytes, Framing timeoutMax bytes := by
  intro framing
  have small : ¬ maxLineBytes < 1 := by decide
  rcases (reader_framing_iff _ [0x7B]).mp (framing ⟨0⟩ [0x7B]) with ⟨line, inside, _⟩ | long | whole
  · cases inside
  · exact small long
  · cases whole

end LineReader

end SanDbOxFormal.Python
