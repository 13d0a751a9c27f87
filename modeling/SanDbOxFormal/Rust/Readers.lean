import SanDbOxFormal.Rust.Transport.ReaderCourse
import SanDbOxFormal.Rust.Transport.SocketCourse

/-!
# The two readers

What the threaded reader delivers over any run of calls, and when the two readers
agree on a script of reads.
-/

namespace SanDbOxFormal.Rust.Transport

open SanDbOxFormal.Library
open SanDbOxFormal.Library.Runs
open SanDbOxFormal.Library.Segments

/-! ## Runs of the threaded reader -/

namespace ThreadedReader

instance : LineReader ThreadedReader where
  readLine := readLine
  clock := clock
  course := course
  Good := Good
  got := readLine_got

open LineReader (Step Sound)

theorem sound_spawn (source : List ReadResult) (turns : List Turn) (clock : Clock) :
    Sound (spawn source turns clock) :=
  ⟨good_spawn source turns clock, fun _ ends => script_ending ends⟩

/-- What the caller may rely on, given all complete lines of the stream and its ending. -/
structure Delivers (all : List (List UInt8)) (ending : Option Error)
    (calls : List (Call ThreadedReader)) (last : ThreadedReader) : Prop
    extends LineReader.Delivers all calls where
  /-- The next line comes, also where a call before gave up on it. -/
  next : ∀ l, all[(delivered calls).length]? = some l → Comes last (.ok l)
  ends : ∀ e, delivered calls = all → ending = some e → Comes last (.error e)

/-- However the steps of the thread and the calls are interleaved, the lines of the
stream come out once and in order, and the ending only after all of them. -/
theorem threaded_reader_delivers (source : List ReadResult) (turns : List Turn) (clock : Clock)
    (capped : ∀ line ∈ complete newline (received threadRetries source), line.length ≤ maxLineBytes)
    (calls : List (Call ThreadedReader)) (r : ThreadedReader)
    (run : Run Step (spawn source turns clock) calls r) :
    Delivers (complete newline (received threadRetries source)) (script threadRetries [] source).2
      calls r := by
  have sound := sound_spawn source turns clock
  have all : (spawn source turns clock).course.items = complete newline (received threadRetries source) :=
    @script_received threadRetries [] source List.not_mem_nil capped
  obtain ⟨whole, ending⟩ := LineReader.run_conserves run sound
  have good := (LineReader.run_sound run sound).good
  have delivers := LineReader.delivers run sound
  change delivered calls ++ r.course.items = (spawn source turns clock).course.items at whole
  change LineReader.Delivers (spawn source turns clock).course.items calls at delivers
  rw [all] at whole delivers
  refine ⟨delivers, fun l next => ?_, fun e told ends => ?_⟩
  · rw [← whole, List.getElem?_append_right (Nat.le_refl _), Nat.sub_self] at next
    obtain ⟨c, due⟩ := course_item (List.head?_eq_getElem?.trans next)
    exact comes good due
  · rw [told, List.append_right_eq_self] at whole
    exact comes good (.of_ending whole (ending.trans ends))

/-- A line cut in two chunks, the first call too early for it. -/
def cutLine : List ReadResult := [.ok [0x61], .ok [newline, 0x62, newline], .ok []]

def cutTurns : List Turn :=
  [Turn.thread, Turn.wake] ++ List.replicate 6 Turn.thread ++ [Turn.wake] ++
    List.replicate 6 Turn.thread ++ [Turn.wake] ++ List.replicate 6 Turn.thread ++ [Turn.wake]

theorem threaded_reader_delivers_sample :
    ∃ calls r, Run Step (spawn cutLine cutTurns ⟨id, 0, 1000⟩) calls r ∧
      calls.map Call.result =
        [.error readTimeout, .ok [0x61], .ok [0x62], .error Terminal.eof.val, .error Terminal.eof.val] ∧
      Delivers (complete newline (received threadRetries cutLine))
        (script threadRetries [] cutLine).2 calls r := by
  have results : ((replay readLine Call.mk (spawn cutLine cutTurns ⟨id, 0, 1000⟩)
      [some 1, none, some 5, none, none]).map fun made => made.1.map Call.result) =
      .ok [.error readTimeout, .ok [0x61], .ok [0x62], .error Terminal.eof.val,
        .error Terminal.eof.val] := by
    decide +kernel
  cases replayed : replay readLine Call.mk (spawn cutLine cutTurns ⟨id, 0, 1000⟩)
      [some 1, none, some 5, none, none] with
  | error halt =>
      rw [replayed] at results
      cases results
  | ok made =>
      obtain ⟨calls, r⟩ := made
      rw [replayed] at results
      injection results with same
      have run : Run Step (spawn cutLine cutTurns ⟨id, 0, 1000⟩) calls r :=
        replay_run (fun _ _ _ _ read => .ran read) replayed
      have capped : ∀ line ∈ complete newline (received threadRetries cutLine),
          line.length ≤ maxLineBytes := by
        decide
      exact ⟨calls, r, run, same, threaded_reader_delivers _ _ _ capped calls r run⟩

/-- Calls without a timeout, under some schedule of the thread, return `os`. -/
def Reads (clock : Clock) (source : List ReadResult) (os : List (Except Error (List UInt8))) : Prop :=
  ∃ turns t, Run (fun r result r' => r.readLine none = .ok (result, r'))
    (spawn source turns clock) os t

theorem readLine_next {r t : ThreadedReader} {result : Except Error (List UInt8)} (good : Good r)
    (read : r.readLine none = .ok (result, t)) :
    Course.Step r.course (some result) t.course ∧ Good t := by
  obtain ⟨kept, o, got, came⟩ := readLine_got good read
  cases got with
  | told => exact ⟨came, kept⟩
  | late expired =>
      obtain ⟨d, i, never, _⟩ := expired
      cases never

/-- Every step of the course can be scheduled. -/
theorem run_due {os : List (Except Error (List UInt8))} {r : ThreadedReader}
    {c : Course (List UInt8) Error} (good : Good r)
    (due : Run Course.Step r.course (os.map some) c) :
    ∃ turns t, Run (fun r result r' => r.readLine none = .ok (result, r')) (r.withTurns turns) os t := by
  induction os generalizing r with
  | nil => exact ⟨[], _, .nil _⟩
  | cons o rest ih =>
      cases due with
      | cons head tail =>
          obtain ⟨turns, t, good', rfl, reads⟩ := readLine_due good head
          obtain ⟨more, last, later⟩ := ih good' tail
          exact ⟨turns ++ more, last, .cons (reads more) later⟩

theorem reads_iff (clock : Clock) (source : List ReadResult) (os : List (Except Error (List UInt8))) :
    Reads clock source os ↔
      Course.Tells ⟨(script threadRetries [] source).1, (script threadRetries [] source).2, false⟩ os := by
  constructor
  · rintro ⟨turns, t, run⟩
    exact ⟨t.course, run.map (P := Good) (g := some) (fun _ _ _ good read => (readLine_next good read).2)
      (fun _ _ _ good read => (readLine_next good read).1) (good_spawn source turns clock)⟩
  · rintro ⟨c, due⟩
    obtain ⟨turns, t, run⟩ := run_due (good_spawn source [] clock) due
    exact ⟨turns, t, run⟩

end ThreadedReader

namespace SocketTransport

/-- Calls without a timeout return `os`. -/
def Reads (sink : Sink) (clock : Clock) (source : List ReadResult)
    (os : List (Except Error (List UInt8))) : Prop :=
  ∃ t, Run (fun s result s' => s.readLine none = .ok (result, s')) (fromStream sink source clock) os t

theorem readLine_next {s t : SocketTransport} {result : Except Error (List UInt8)}
    (read : s.readLine none = .ok (result, t)) : Course.Step s.course (some result) t.course := by
  have returned := s.readLine_returns
  rw [read] at returned
  exact returned

theorem run_due {os : List (Except Error (List UInt8))} {s : SocketTransport}
    {c : Course (List UInt8) Error} (due : Run Course.Step s.course (os.map some) c) :
    ∃ t, Run (fun s result s' => s.readLine none = .ok (result, s')) s os t := by
  induction os generalizing s with
  | nil => exact ⟨s, .nil s⟩
  | cons o rest ih =>
      cases due with
      | cons head tail =>
          have returned := s.readLine_returns
          cases read : s.readLine none with
          | error halt =>
              rw [read] at returned
              change s.course = _ at returned
              rw [returned] at head
              cases head
          | ok pair =>
              obtain ⟨result, s'⟩ := pair
              obtain ⟨rfl, rfl⟩ := head.determined (readLine_next read)
              obtain ⟨t, run⟩ := ih tail
              exact ⟨t, .cons read run⟩

theorem reads_iff (sink : Sink) (clock : Clock) (source : List ReadResult)
    (os : List (Except Error (List UInt8))) :
    Reads sink clock source os ↔
      Course.Tells ⟨(script socketRetries [] source).1, (script socketRetries [] source).2, false⟩ os := by
  have fresh : (fromStream sink source clock).course =
      ⟨(script socketRetries [] source).1, (script socketRetries [] source).2, false⟩ :=
    course_clean rfl List.not_mem_nil (Nat.zero_le _)
  rw [← fresh]
  constructor
  · rintro ⟨t, run⟩
    exact ⟨t.course, run.map (P := fun _ => True) (fun _ _ _ _ _ => trivial)
      (fun _ _ _ _ read => readLine_next read) trivial⟩
  · rintro ⟨c, due⟩
    exact run_due due

end SocketTransport

/-! ## Where they agree -/

/-- The kind of an error; of an I/O error its `ErrorKind`. -/
inductive Kind where
  | response
  | protocol
  | timeout
  | io (kind : IoKind)
  | closed
  deriving DecidableEq

def kindOf : Error → Kind
  | .response _ _ => .response
  | .protocol _ => .protocol
  | .timeout _ => .timeout
  | .io e => .io e.kind
  | .closed => .closed

/-- Both readers, reading without a timeout, return the same lines and then errors of
the same kind. -/
def Agree (sink : Sink) (clock clock' : Clock) (source : List ReadResult) : Prop :=
  ∀ os : List (Except Kind (List UInt8)),
    (∃ os', ThreadedReader.Reads clock source os' ∧ os'.map (Except.mapError kindOf) = os) ↔
    (∃ os', SocketTransport.Reads sink clock' source os' ∧ os'.map (Except.mapError kindOf) = os)

/-- An error that only the socket reads past comes before the end of the reading. -/
def interruptedFirst : List UInt8 → List ReadResult → Bool
  | _, [] => false
  | tail, .ok chunk :: rest =>
      !chunk.isEmpty && decide ((remainder newline (tail ++ chunk)).length ≤ maxLineBytes) &&
        interruptedFirst (remainder newline (tail ++ chunk)) rest
  | _, .err e :: _ => socketRetries e.kind

theorem script_agree {tail : List UInt8} {source : List ReadResult}
    (clear : interruptedFirst tail source = false) :
    script threadRetries tail source = script socketRetries tail source := by
  induction source generalizing tail with
  | nil => rfl
  | cons first rest ih =>
      cases first with
      | err e =>
          change socketRetries e.kind = false at clear
          simp [script, clear, threadRetries]
      | ok chunk =>
          cases chunk with
          | nil => rfl
          | cons b bs =>
              rw [script_chunk rfl, script_chunk rfl, settle, settle]
              split
              · rfl
              · rename_i short
                simp [interruptedFirst, Nat.le_of_not_lt short] at clear
                rw [ih clear]

/-- The thread ends with the interrupted read. -/
theorem script_interrupted {tail : List UInt8} {source : List ReadResult}
    (met : interruptedFirst tail source = true) :
    ∃ e, (script threadRetries tail source).2 = some (.io e) ∧ socketRetries e.kind = true := by
  induction source generalizing tail with
  | nil => cases met
  | cons first rest ih =>
      cases first with
      | err e => exact ⟨e, rfl, met⟩
      | ok chunk =>
          cases chunk with
          | nil => cases met
          | cons b bs =>
              simp only [interruptedFirst, Bool.and_eq_true, decide_eq_true_eq] at met
              rw [script_chunk rfl, settle, if_neg (Nat.not_lt_of_le met.1.2)]
              exact ih met.2

/-- The socket never does. -/
theorem script_socket_ending {tail : List UInt8} {source : List ReadResult} {e : IoError}
    (ends : (script socketRetries tail source).2 = some (.io e)) : socketRetries e.kind = false := by
  induction source generalizing tail with
  | nil => cases ends
  | cons first rest ih =>
      cases first with
      | err e' =>
          rw [script] at ends
          split at ends
          · exact ih ends
          · rename_i fatal
            cases ends
            exact Bool.eq_false_iff.mpr fatal
      | ok chunk =>
          rw [script] at ends
          split at ends
          · cases ends
          · split at ends
            · cases ends
            · exact ih ends

/-- Only the lines and the kind of the ending can tell the readers apart. -/
theorem agree_iff_scripts (sink : Sink) (clock clock' : Clock) (source : List ReadResult) :
    Agree sink clock clock' source ↔
      (script threadRetries [] source).1 = (script socketRetries [] source).1 ∧
      (script threadRetries [] source).2.map kindOf =
        (script socketRetries [] source).2.map kindOf := by
  rw [← Course.tells_iff]
  refine forall_congr' fun os => ?_
  simp only [ThreadedReader.reads_iff, SocketTransport.reads_iff]
  rw [← Course.tells_mapError, ← Course.tells_mapError]
  rfl

/-- The readers agree on exactly the scripts in which the socket has no error to read
past. -/
theorem readers_agree_iff (sink : Sink) (clock clock' : Clock) (source : List ReadResult) :
    Agree sink clock clock' source ↔ interruptedFirst [] source = false := by
  rw [agree_iff_scripts]
  constructor
  · rintro ⟨_, endings⟩
    rw [Bool.eq_false_iff]
    intro met
    obtain ⟨e, ends, retried⟩ := script_interrupted met
    rw [ends, Option.map_some] at endings
    obtain ⟨other, ends', kinds⟩ := Option.map_eq_some_iff.mp endings.symm
    cases other with
    | io e' =>
        injection kinds with kind
        have fatal := script_socket_ending ends'
        rw [kind, retried] at fatal
        cases fatal
    | response code message => cases kinds
    | protocol text => cases kinds
    | timeout text => cases kinds
    | closed => cases kinds
  · intro clear
    rw [script_agree clear]
    exact ⟨rfl, rfl⟩

/-- A line behind an interrupted read is returned by one reader and lost by the other. -/
theorem readers_disagree :
    ¬ ∀ (sink : Sink) (clock clock' : Clock) (source : List ReadResult),
      Agree sink clock clock' source := by
  intro agree
  have same := agree (.fresh [] []) ⟨id, 0, 0⟩ ⟨id, 0, 0⟩
    [.err ⟨.interrupted, "interrupted"⟩, .ok [0x61, newline], .ok []]
  rw [agree_iff_scripts] at same
  revert same
  decide

end SanDbOxFormal.Rust.Transport
