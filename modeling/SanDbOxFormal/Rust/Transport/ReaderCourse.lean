import SanDbOxFormal.Rust.Transport.Reader
import SanDbOxFormal.Rust.Transport.Calls

/-!
# What the threaded reader returns

The thread, its channel and the caller only move what is still to be returned and
never change it; and where something is still to be returned, the thread can bring
it up.
-/

namespace SanDbOxFormal.Rust.Transport

open SanDbOxFormal.Library
open SanDbOxFormal.Library.Segments

/-- The thread reads past no error. -/
def threadRetries (_ : IoKind) : Bool := false

namespace ThreadedReader

/-- What the thread will put into the channel from its phase on. -/
def behind (t : ReaderThread) : List (List UInt8) × Option Error :=
  match t.phase with
  | .reading => script threadRetries t.framer.buf t.source
  | .taking => settle threadRetries t.framer.buf t.source
  | .sending (.line l) =>
      (l :: (settle threadRetries t.framer.buf t.source).1,
        (settle threadRetries t.framer.buf t.source).2)
  | .sending (.terminal e) => ([], some e.val)
  | .finished => ([], none)

def course (r : ThreadedReader) : Course (List UInt8) Error :=
  match r.terminal, r.slot with
  | some e, _ => ⟨[], some e.val, true⟩
  | none, none => ⟨(behind r.thread).1, (behind r.thread).2, false⟩
  | none, some (.line l) => ⟨l :: (behind r.thread).1, (behind r.thread).2, false⟩
  | none, some (.terminal e) => ⟨[], some e.val, false⟩

theorem course_item {r : ThreadedReader} {l : List UInt8} (first : r.course.items.head? = some l) :
    ∃ c, Course.Step r.course (some (.ok l)) c := by
  obtain ⟨thread, slot, terminal, turns, clock⟩ := r
  have due : ∀ items ending, items.head? = some l →
      ∃ c, Course.Step (⟨items, ending, false⟩ : Course (List UInt8) Error) (some (.ok l)) c := by
    rintro (_ | ⟨head, rest⟩) ending is
    · cases is
    · cases is
      exact ⟨_, .item l rest ending⟩
  cases terminal with
  | some e => cases first
  | none =>
      cases slot with
      | none => exact due _ _ first
      | some item =>
          cases item with
          | line l' => exact due _ _ first
          | terminal e => cases first

/-- What holds between any two steps: before a read nothing is left to take, and a
thread that has ended has left its terminal error behind. -/
structure Good (r : ThreadedReader) : Prop where
  taken : r.thread.phase = .reading → newline ∉ r.thread.framer.buf
  last : ∀ e, r.slot = some (.terminal e) → r.thread.phase = .finished
  left : r.thread.phase = .finished → r.terminal = none → ∃ e, r.slot = some (.terminal e)

theorem good_spawn (source : List ReadResult) (turns : List Turn) (clock : Clock) :
    Good (spawn source turns clock) := by
  refine ⟨fun _ => List.not_mem_nil, fun e held => ?_, fun ended => ?_⟩
  · cases held
  · cases ended

/-- A line has been taken out of the channel. -/
theorem Good.drained {thread : ReaderThread} {l : List UInt8} {turns : List Turn} {clock : Clock}
    (good : Good ⟨thread, some (.line l), none, turns, clock⟩) (rest : List Turn) (later : Clock) :
    Good ⟨thread, none, none, rest, later⟩ := by
  refine ⟨good.taken, fun e is => ?_, fun ended _ => ?_⟩
  · cases is
  · obtain ⟨e, same⟩ := good.left ended rfl
    cases same

/-- The terminal error has been taken out of it. -/
theorem Good.memoized {thread : ReaderThread} (taken : thread.phase = .reading → newline ∉ thread.framer.buf)
    (e : Terminal) (turns : List Turn) (clock : Clock) : Good ⟨thread, none, some e, turns, clock⟩ := by
  refine ⟨taken, fun e is => ?_, fun _ is => ?_⟩
  · cases is
  · cases is

/-- While it reads and frames, the thread leaves the channel alone. -/
theorem thread_step {t : ReaderThread} (slot : Option Item)
    (taken : t.phase = .reading → newline ∉ t.framer.buf)
    (busy : t.phase = .reading ∨ t.phase = .taking) :
    (t.step true slot).2 = slot ∧ behind (t.step true slot).1 = behind t ∧
      (t.step true slot).1.phase ≠ .finished ∧
      ((t.step true slot).1.phase = .reading → newline ∉ (t.step true slot).1.framer.buf) := by
  obtain ⟨source, framer, phase⟩ := t
  rcases busy with rfl | rfl
  · have clean := taken rfl
    cases source with
    | nil => exact ⟨rfl, rfl, (fun is => by cases is), fun _ => clean⟩
    | cons first rest =>
        cases first with
        | ok chunk =>
            cases chunk with
            | nil => exact ⟨rfl, rfl, (fun is => by cases is), (fun is => by cases is)⟩
            | cons b bs => exact ⟨rfl, rfl, (fun is => by cases is), (fun is => by cases is)⟩
        | err e => exact ⟨rfl, rfl, (fun is => by cases is), (fun is => by cases is)⟩
  · have spec := framer.takeLine_taken
    simp only [ReaderThread.step]
    split
    · rename_i line after is
      rw [is] at spec
      cases spec with
      | line clean shape left =>
          refine ⟨rfl, ?_, (fun is => by cases is), (fun is => by cases is)⟩
          simp only [behind, left, shape, settle_segment clean]
    · rename_i after is
      rw [is] at spec
      cases spec with
      | nothing clean short same =>
          refine ⟨rfl, ?_, (fun is => by cases is), fun _ => ?_⟩
          · simp only [behind, same, settle_clean clean short]
          · rw [same]
            exact clean
    · rename_i e after is
      rw [is] at spec
      cases spec with
      | long clean exceeds same =>
          refine ⟨rfl, ?_, (fun is => by cases is), (fun is => by cases is)⟩
          simp only [behind, settle_long clean exceeds]

/-- A step of the thread changes nothing of what is still to be returned. -/
theorem step_course {r : ThreadedReader} (good : Good r) :
    r.step.course = r.course ∧ Good r.step := by
  have working (busy : r.thread.phase = .reading ∨ r.thread.phase = .taking) :
      r.step.course = r.course ∧ Good r.step := by
    obtain ⟨slot, same, running, clean⟩ := thread_step r.slot good.taken busy
    constructor
    · simp only [course, step, slot, same]
    · refine ⟨clean, fun e held => ?_, fun ended => absurd ended running⟩
      rw [step, slot] at held
      have ended := good.last e held
      rcases busy with is | is
      · rw [is] at ended
        cases ended
      · rw [is] at ended
        cases ended
  cases phase : r.thread.phase with
  | reading => exact working (.inl phase)
  | taking => exact working (.inr phase)
  | sending item =>
      obtain ⟨⟨source, framer, _⟩, slot, terminal, turns, clock⟩ := r
      cases phase
      cases slot with
      | none =>
          cases item with
          | line l =>
              refine ⟨?_, ?_, ?_, ?_⟩
              · cases terminal with
                | none => rfl
                | some e => rfl
              · intro is
                cases is
              · intro e is
                cases is
              · intro is
                cases is
          | terminal e =>
              refine ⟨?_, ?_, fun _ _ => rfl, fun _ _ => ⟨e, rfl⟩⟩
              · cases terminal with
                | none => rfl
                | some e => rfl
              · intro is
                cases is
      | some held => exact ⟨rfl, good⟩
  | finished =>
      obtain ⟨⟨source, framer, _⟩, slot, terminal, turns, clock⟩ := r
      cases phase
      exact ⟨rfl, good⟩

theorem readLoop_got {deadline : Option Nat} {turns : List Turn} {r t : ThreadedReader} {begun : Nat}
    {result : Except Error (List UInt8)} (good : Good r) (usable : r.terminal = none)
    (since : begun ≤ r.clock.read) (read : readLoop deadline turns r = .ok (result, t)) :
    Good t ∧ t.clock.now = r.clock.now ∧
      ∃ o, Got deadline begun t.clock result o ∧ Course.Step r.course o t.course := by
  induction turns generalizing r with
  | nil => cases read
  | cons turn rest ih =>
      cases turn with
      | thread =>
          obtain ⟨same, kept⟩ := step_course good
          rw [← same]
          exact ih (r := { r.step with turns := rest })
            ⟨kept.taken, kept.last, kept.left⟩ usable since read
      | wake =>
          obtain ⟨thread, slot, terminal, turns, clock⟩ := r
          cases usable
          rw [readLoop] at read
          cases slot with
          | some item =>
              cases item with
              | line l =>
                  cases read
                  exact ⟨good.drained _ _, rfl, _, .told _, .item l _ _⟩
              | terminal e =>
                  cases read
                  exact ⟨.memoized good.taken e _ _, rfl, _, .told _, .ended e.val false⟩
          | none =>
              dsimp only at read
              split at read
              · rename_i ended
                obtain ⟨e, same⟩ := good.left ended rfl
                cases same
              · obtain ⟨late, kept, ticked⟩ := timedOut_spec clock deadline
                split at read
                · rename_i expired
                  cases read
                  refine ⟨⟨good.taken, good.last, good.left⟩, kept, none, .late ?_, .late _ _⟩
                  obtain ⟨d, is, passed⟩ := late expired
                  exact ⟨d, clock.read, is, since, passed.1, passed.2⟩
                · obtain ⟨found, now, rest⟩ := ih
                    (r := (timedOut ⟨thread, none, none, rest, clock⟩ deadline).2)
                    ⟨good.taken, good.last, good.left⟩ rfl (Nat.le_trans since ticked) read
                  exact ⟨found, now.trans kept, rest⟩

/-- One call takes a step of the course, whatever the schedule was. -/
theorem readLine_got {timeout : Option Nat} {r t : ThreadedReader}
    {result : Except Error (List UInt8)} (good : Good r)
    (read : r.readLine timeout = .ok (result, t)) :
    Good t ∧ ∃ o, Got (timeout.map (r.clock.now r.clock.read + ·)) r.clock.read t.clock result o ∧
      Course.Step r.course o t.course := by
  rw [readLine] at read
  split at read
  · rename_i e memoized
    cases read
    refine ⟨good, _, .told _, ?_⟩
    have told : course r = ⟨[], some e.val, true⟩ := by
      simp only [course, memoized]
    rw [told]
    exact .ended e.val true
  · rename_i usable
    obtain ⟨⟨deadline, clock⟩, started, looped⟩ := Exec.bind_ok read
    have start : deadline = timeout.map (r.clock.now r.clock.read + ·) ∧
        r.clock.read ≤ clock.read := by
      cases timeout with
      | none =>
          cases started
          exact ⟨rfl, Nat.le_refl _⟩
      | some d =>
          rw [Clock.deadline] at started
          split at started
          · cases started
            exact ⟨rfl, Nat.le_succ _⟩
          · cases started
    obtain ⟨kept, _, found⟩ := readLoop_got (r := { r with clock := clock })
      ⟨good.taken, good.last, good.left⟩ usable start.2 looped
    rw [← start.1]
    exact ⟨kept, found⟩

/-! ## Progress -/

/-- The thread can bring something into the channel. -/
def Fills (r : ThreadedReader) : Prop := ∃ k, ((step^[k]) r).slot ≠ none

theorem Fills.of_slot {r : ThreadedReader} (filled : r.slot ≠ none) : Fills r := ⟨0, filled⟩

theorem Fills.of_step {r : ThreadedReader} (fills : Fills r.step) : Fills r := by
  obtain ⟨k, filled⟩ := fills
  exact ⟨k + 1, filled⟩

theorem sending_fills {r : ThreadedReader} {item : Item} (phase : r.thread.phase = .sending item) :
    Fills r := by
  obtain ⟨⟨source, framer, _⟩, slot, terminal, turns, clock⟩ := r
  cases phase
  cases slot with
  | none => exact .of_step (.of_slot nofun)
  | some held => exact .of_slot nofun

/-- Nothing is left to be returned, and no ending either. -/
def silent : Course (List UInt8) Error := ⟨[], none, false⟩

/-- A thread that frames brings up a line or an error, or goes on to read. -/
theorem taking_fills {r : ThreadedReader} (good : Good r) (phase : r.thread.phase = .taking)
    (more : r.course ≠ silent)
    (goesOn : ∀ r' : ThreadedReader, Good r' → r'.thread.phase = .reading →
      r'.thread.source = r.thread.source → r'.terminal = r.terminal → r'.course ≠ silent →
      Fills r') : Fills r := by
  obtain ⟨same, kept⟩ := step_course good
  have later : r.step.course ≠ silent := by
    rw [same]
    exact more
  apply Fills.of_step
  have next : (∃ item, r.step.thread.phase = .sending item) ∨
      (r.step.thread.phase = .reading ∧ r.step.thread.source = r.thread.source) := by
    simp only [step, ReaderThread.step, phase]
    split
    · exact .inl ⟨_, rfl⟩
    · exact .inr ⟨rfl, rfl⟩
    · exact .inl ⟨_, rfl⟩
  rcases next with ⟨item, sends⟩ | ⟨reads, source⟩
  · exact sending_fills sends
  · exact goesOn _ kept reads source rfl later

theorem reading_fills {source : List ReadResult} {r : ThreadedReader} (good : Good r)
    (phase : r.thread.phase = .reading) (is : r.thread.source = source)
    (usable : r.terminal = none) (more : r.course ≠ silent) : Fills r := by
  induction source generalizing r with
  | nil =>
      cases slot : r.slot with
      | some held => exact .of_slot (by simp [slot])
      | none =>
          refine absurd ?_ more
          simp [course, behind, script, usable, slot, phase, is, silent]
  | cons first rest ih =>
      obtain ⟨same, kept⟩ := step_course good
      have later : r.step.course ≠ silent := by
        rw [same]
        exact more
      apply Fills.of_step
      have next : (∃ item, r.step.thread.phase = .sending item) ∨
          (r.step.thread.phase = .taking ∧ r.step.thread.source = rest) := by
        simp only [step, ReaderThread.step, phase, is]
        cases first with
        | err e => exact .inl ⟨_, rfl⟩
        | ok chunk =>
            cases chunk with
            | nil => exact .inl ⟨_, rfl⟩
            | cons b bs => exact .inr ⟨rfl, rfl⟩
      rcases next with ⟨item, sends⟩ | ⟨takes, source⟩
      · exact sending_fills sends
      · refine taking_fills kept takes later fun r' good' phase' source' terminal more' => ?_
        exact ih good' phase' (source'.trans source) (terminal.trans usable) more'

/-- Where something is still to be returned, the thread can bring it up. -/
theorem fills {r : ThreadedReader} (good : Good r) (usable : r.terminal = none)
    (more : r.course ≠ silent) : Fills r := by
  cases phase : r.thread.phase with
  | reading => exact reading_fills good phase rfl usable more
  | taking =>
      refine taking_fills good phase more fun r' good' phase' _ terminal more' => ?_
      exact reading_fills good' phase' rfl (terminal.trans usable) more'
  | sending item => exact sending_fills phase
  | finished =>
      obtain ⟨e, held⟩ := good.left phase usable
      exact .of_slot (by simp [held])

/-- A filled channel stays filled until the caller looks. -/
theorem step_filled {r : ThreadedReader} (filled : r.slot ≠ none) : r.step.slot ≠ none := by
  obtain ⟨⟨source, framer, phase⟩, slot, terminal, turns, clock⟩ := r
  cases slot with
  | none => exact absurd rfl filled
  | some held =>
      simp only [step, ReaderThread.step]
      cases phase with
      | reading =>
          cases source with
          | nil => exact filled
          | cons first rest =>
              cases first with
              | err e => exact filled
              | ok chunk => cases chunk <;> exact filled
      | taking =>
          dsimp only
          split <;> exact filled
      | sending item => exact filled
      | finished => exact filled

/-- What the thread does to the channel depends on nothing that the caller has. -/
theorem steps_same (k : Nat) {r q : ThreadedReader} (thread : r.thread = q.thread)
    (slot : r.slot = q.slot) : ((step^[k]) r).slot = ((step^[k]) q).slot := by
  induction k generalizing r q with
  | zero => exact slot
  | succ k ih =>
      apply ih
      · simp only [step, thread, slot]
      · simp only [step, thread, slot]

/-- Whenever the caller looks behind enough steps of the thread, the call returns. -/
theorem readLoop_returns {deadline : Option Nat} {before after : List Turn} {k : Nat}
    {r : ThreadedReader} (filled : ((step^[k]) r).slot ≠ none) (enough : k ≤ before.count .thread) :
    ∃ result t, readLoop deadline (before ++ .wake :: after) r = .ok (result, t) := by
  induction before generalizing k r with
  | nil =>
      cases Nat.le_zero.mp enough
      obtain ⟨thread, slot, terminal, turns, clock⟩ := r
      cases slot with
      | none => exact absurd rfl filled
      | some item => cases item <;> exact ⟨_, _, rfl⟩
  | cons turn rest ih =>
      cases turn with
      | thread =>
          rw [List.count_cons_self] at enough
          cases k with
          | zero => exact ih (k := 0) (r := { r.step with turns := _ }) (step_filled filled) (Nat.zero_le _)
          | succ k =>
              exact ih (r := { r.step with turns := _ })
                (fun empty => filled ((steps_same k (by rfl) (by rfl)).trans empty)) (Nat.le_of_succ_le_succ enough)
      | wake =>
          rw [List.count_cons_of_ne (by decide)] at enough
          obtain ⟨thread, slot, terminal, turns, clock⟩ := r
          cases slot with
          | some item => cases item <;> exact ⟨_, _, rfl⟩
          | none =>
              rw [List.cons_append, readLoop]
              dsimp only
              split
              · exact ⟨_, _, rfl⟩
              · split
                · exact ⟨_, _, rfl⟩
                · refine ih (k := k) (fun empty => filled ?_) enough
                  exact (steps_same k (by rfl) (by rfl)).trans empty

def withTurns (r : ThreadedReader) (turns : List Turn) : ThreadedReader := { r with turns := turns }

theorem step_withTurns (k : Nat) (r : ThreadedReader) (turns : List Turn) :
    (step^[k]) (r.withTurns turns) = ((step^[k]) r).withTurns turns := by
  induction k generalizing r with
  | zero => rfl
  | succ k ih => exact ih r.step

/-- Steps of the thread that come before the caller looks. -/
theorem readLoop_threads (k : Nat) (rest : List Turn) (deadline : Option Nat) (r : ThreadedReader) :
    readLoop deadline (List.replicate k .thread ++ .wake :: rest) r =
      readLoop deadline (.wake :: rest) ((step^[k]) r) := by
  induction k generalizing r with
  | zero => rfl
  | succ k ih =>
      have next := ih (r.step.withTurns (List.replicate k .thread ++ .wake :: rest))
      rw [step_withTurns] at next
      exact next

theorem steps_keep (k : Nat) {r : ThreadedReader} (good : Good r) :
    ((step^[k]) r).course = r.course ∧ Good ((step^[k]) r) ∧
      ((step^[k]) r).terminal = r.terminal := by
  induction k generalizing r with
  | zero => exact ⟨rfl, good, rfl⟩
  | succ k ih =>
      obtain ⟨same, kept⟩ := step_course good
      obtain ⟨course, last, terminal⟩ := ih kept
      exact ⟨course.trans same, last, terminal⟩

/-- What a call may come to where `o` is due: with a timeout it may give up, or the
deadline is not an instant. -/
inductive Answers (o : Except Error (List UInt8)) :
    Option Nat → Exec (Except Error (List UInt8) × ThreadedReader) → Prop where
  | told (timeout : Option Nat) (t : ThreadedReader) : Answers o timeout (.ok (o, t))
  | late (d : Nat) (t : ThreadedReader) : Answers o (some d) (.ok (.error readTimeout, t))
  | panicked (d : Nat) (reason : String) : Answers o (some d) (.error (.panicked reason))

/-- A call is answered by `o` whenever it looks behind some number of steps of the thread. -/
def Comes (r : ThreadedReader) (o : Except Error (List UInt8)) : Prop :=
  ∃ k, ∀ timeout before after, k ≤ before.count Turn.thread →
    Answers o timeout ((r.withTurns (before ++ .wake :: after)).readLine timeout)

/-- What is due comes. -/
theorem comes {r : ThreadedReader} {o : Except Error (List UInt8)} {c : Course (List UInt8) Error}
    (good : Good r) (due : Course.Step r.course (some o) c) : Comes r o := by
  have settled {timeout : Option Nat} {turns : List Turn} {result : Except Error (List UInt8)}
      {t : ThreadedReader} (read : (r.withTurns turns).readLine timeout = .ok (result, t)) :
      Answers o timeout (.ok (result, t)) := by
    obtain ⟨_, o', got, came⟩ := readLine_got (r := r.withTurns turns) ⟨good.taken, good.last, good.left⟩ read
    cases got with
    | told =>
        obtain ⟨rfl, _⟩ := due.determined came
        exact .told timeout t
    | late expired =>
        obtain ⟨_, _, deadline, _⟩ := expired
        obtain ⟨d, rfl, _⟩ := Option.map_eq_some_iff.mp deadline
        exact .late d t
  cases terminal : r.terminal with
  | some e =>
      refine ⟨0, fun timeout before after _ => ?_⟩
      have told : (r.withTurns (before ++ .wake :: after)).readLine timeout =
          .ok (.error e.val, r.withTurns (before ++ .wake :: after)) := by
        simp [readLine, withTurns, terminal]
      rw [told]
      exact settled told
  | none =>
      have more : r.course ≠ silent := by
        intro quiet
        rw [quiet] at due
        cases due
      obtain ⟨k, filled⟩ := fills good terminal more
      refine ⟨k, fun timeout before after enough => ?_⟩
      have looped : (r.withTurns (before ++ .wake :: after)).readLine timeout =
          r.clock.deadline timeout >>= fun begun => readLoop begun.1 (before ++ .wake :: after)
            { r.withTurns (before ++ .wake :: after) with clock := begun.2 } := by
        simp only [readLine, withTurns, terminal]
      cases begun : r.clock.deadline timeout with
      | ok begun' =>
          let started := { r.withTurns (before ++ .wake :: after) with clock := begun'.2 }
          obtain ⟨result, t, returned⟩ :
              ∃ result t, readLoop begun'.1 (before ++ .wake :: after) started = .ok (result, t) :=
            readLoop_returns (fun empty => filled ((steps_same k (by rfl) (by rfl)).trans empty)) enough
          rw [begun] at looped
          have read := looped.trans returned
          rw [read]
          exact settled read
      | error halt =>
          rw [looped, begun]
          cases timeout with
          | none => cases begun
          | some d =>
              rw [Clock.deadline] at begun
              split at begun
              · cases begun
              · cases begun
                exact .panicked d _

/-- Under some schedule a call without a timeout returns what is due. -/
theorem readLine_due {r : ThreadedReader} {o : Except Error (List UInt8)}
    {c : Course (List UInt8) Error} (good : Good r) (due : Course.Step r.course (some o) c) :
    ∃ turns t, Good t ∧ t.course = c ∧ ∀ rest,
      (r.withTurns (turns ++ rest)).readLine none = .ok (o, t.withTurns rest) := by
  have settled (turns : List Turn) (t : ThreadedReader) (o' : Except Error (List UInt8))
      (good' : Good t) (came : Course.Step r.course (some o') t.course)
      (reads : ∀ rest, (r.withTurns (turns ++ rest)).readLine none = .ok (o', t.withTurns rest)) :
      ∃ turns t, Good t ∧ t.course = c ∧ ∀ rest,
        (r.withTurns (turns ++ rest)).readLine none = .ok (o, t.withTurns rest) := by
    obtain ⟨rfl, rfl⟩ := due.determined came
    exact ⟨turns, t, good', rfl, reads⟩
  cases terminal : r.terminal with
  | some e =>
      have told : r.course = ⟨[], some e.val, true⟩ := by
        simp only [course, terminal]
      refine settled [] r (.error e.val) good ?_ fun rest => ?_
      · rw [told]
        exact .ended e.val true
      · simp [readLine, withTurns, terminal]
  | none =>
      have more : r.course ≠ silent := by
        intro quiet
        rw [quiet] at due
        cases due
      obtain ⟨k, filled⟩ := fills good terminal more
      obtain ⟨same, kept, usable⟩ := steps_keep k good
      have looped (rest : List Turn) :
          (r.withTurns ((List.replicate k .thread ++ [.wake]) ++ rest)).readLine none =
            readLoop none (.wake :: rest) ((step^[k]) r) := by
        have unfolded : (r.withTurns ((List.replicate k .thread ++ [.wake]) ++ rest)).readLine none =
            readLoop none ((List.replicate k .thread ++ [.wake]) ++ rest)
              (r.withTurns ((List.replicate k .thread ++ [.wake]) ++ rest)) := by
          simp only [readLine, withTurns, terminal]
          rfl
        rw [unfolded, List.append_assoc, List.singleton_append, readLoop_threads, step_withTurns]
        rfl
      rw [← same] at due settled
      generalize (step^[k]) r = q at filled kept usable looped due settled
      obtain ⟨thread, slot, _, turns, clock⟩ := q
      rw [terminal] at usable
      cases usable
      cases slot with
      | none => exact absurd rfl filled
      | some item =>
          cases item with
          | line l =>
              refine settled (List.replicate k .thread ++ [.wake]) ⟨thread, none, none, turns, clock⟩
                (.ok l) (kept.drained _ _) (.item l _ _) fun rest => ?_
              rw [looped]
              rfl
          | terminal e =>
              refine settled (List.replicate k .thread ++ [.wake])
                ⟨thread, none, some e, turns, clock⟩ (.error e.val) (.memoized kept.taken e _ _)
                (.ended e.val false) fun rest => ?_
              rw [looped]
              rfl

end ThreadedReader

end SanDbOxFormal.Rust.Transport
