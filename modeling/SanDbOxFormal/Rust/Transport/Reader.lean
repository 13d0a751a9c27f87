import SanDbOxFormal.Rust.Transport.Basic

/-!
# The threaded reader

`transport/reader.rs`: a thread reads and frames the bytes of a pipe and hands the
lines over through a channel with one slot.  The steps of the thread and the
moments at which the caller looks at the channel are interleaved by a schedule.
-/

namespace SanDbOxFormal.Rust.Transport

open SanDbOxFormal.Library.Segments

inductive Item where
  | line (l : List UInt8)
  | terminal (e : Terminal)
  deriving DecidableEq

/-- Where the thread stands: before a read, before a `take_line`, in a `send`. -/
inductive Phase where
  | reading
  | taking
  | sending (item : Item)
  | finished
  deriving DecidableEq

/-- After a line the inner loop goes on; after a terminal error the thread ends. -/
def Item.next : Item → Phase
  | .line _ => .taking
  | .terminal _ => .finished

structure ReaderThread where
  /-- The results of the reads still to come. -/
  source : List ReadResult
  framer : LineFramer
  phase : Phase

namespace ReaderThread

def spawn (source : List ReadResult) : ReaderThread :=
  { source, framer := .new, phase := .reading }

/-- One step of the thread, with the slot of the channel while it has a receiver. -/
def step (t : ReaderThread) (receiver : Bool) (slot : Option Item) : ReaderThread × Option Item :=
  match t.phase with
  | .reading =>
      match t.source with
      | [] => (t, slot)
      | .ok chunk :: rest =>
          if chunk.isEmpty then
            ({ t with source := rest, phase := .sending (.terminal .eof) }, slot)
          else
            ({ t with source := rest, framer := t.framer.push chunk, phase := .taking }, slot)
      | .err e :: rest => ({ t with source := rest, phase := .sending (.terminal (.io e)) }, slot)
  | .taking =>
      match taken : t.framer.takeLine with
      | (.ok (some line), framer) =>
          ({ t with framer := framer, phase := .sending (.line line) }, slot)
      | (.ok none, framer) => ({ t with framer := framer, phase := .reading }, slot)
      | (.error e, framer) =>
          let e : Terminal := ⟨e, LineFramer.takeLine_code (congrArg Prod.fst taken)⟩
          ({ t with framer := framer, phase := .sending (.terminal e) }, slot)
  | .sending item =>
      if receiver then
        match slot with
        | none => ({ t with phase := item.next }, some item)
        | some _ => (t, slot)
      else ({ t with phase := .finished }, slot)
  | .finished => (t, slot)

end ReaderThread

/-- One turn of the schedule: a step of the thread, or the caller looks at the
channel, by an item, a disconnect or the end of a wait. -/
inductive Turn where
  | thread
  | wake
  deriving DecidableEq

structure ThreadedReader where
  thread : ReaderThread
  /-- The channel. -/
  slot : Option Item
  terminal : Option Terminal
  turns : List Turn
  clock : Clock

namespace ThreadedReader

def spawn (source : List ReadResult) (turns : List Turn) (clock : Clock) : ThreadedReader :=
  { thread := .spawn source, slot := none, terminal := none, turns, clock }

def step (r : ThreadedReader) : ThreadedReader :=
  { r with thread := (r.thread.step true r.slot).1, slot := (r.thread.step true r.slot).2 }

def fail (r : ThreadedReader) (e : Terminal) : Except Error (List UInt8) × ThreadedReader :=
  (.error e.val, { r with terminal := some e })

def timedOut (r : ThreadedReader) (deadline : Option Nat) : Bool × ThreadedReader :=
  ((r.clock.timedOut deadline).1, { r with clock := (r.clock.timedOut deadline).2 })

/-- The loop of `read_line`.  `recv_timeout` may return early, so a wait that ended
without an item is checked against the deadline; without one `recv` just waits on. -/
def readLoop (deadline : Option Nat) :
    List Turn → ThreadedReader → Exec (Except Error (List UInt8) × ThreadedReader)
  | [], _ => .error .blocked
  | .thread :: rest, r => readLoop deadline rest { r.step with turns := rest }
  | .wake :: rest, r =>
      let r := { r with turns := rest }
      match r.slot with
      | some (.line line) => .ok (.ok line, { r with slot := none })
      | some (.terminal e) => .ok ({ r with slot := none }.fail e)
      | none =>
          if r.thread.phase = .finished then .ok (r.fail .ended)
          else
            let (late, r) := r.timedOut deadline
            if late then .ok (.error readTimeout, r) else readLoop deadline rest r

def readLine (r : ThreadedReader) (timeout : Option Nat) :
    Exec (Except Error (List UInt8) × ThreadedReader) :=
  match r.terminal with
  | some e => .ok (.error e.val, r)
  | none => do
      let (deadline, clock) ← r.clock.deadline timeout
      readLoop deadline r.turns { r with clock := clock }

/-- The wait of `join` for the thread to finish, given up at the deadline. -/
def joinLoop (deadline : Option Nat) : List Turn → ThreadedReader → Exec ThreadedReader
  | [], _ => .error .blocked
  | .thread :: rest, r => joinLoop deadline rest { r.step with turns := rest }
  | .wake :: rest, r =>
      let r := { r with turns := rest }
      if r.thread.phase = .finished then .ok r
      else
        let (late, r) := r.timedOut deadline
        if late then .ok r else joinLoop deadline rest r

def join (r : ThreadedReader) (timeout : Nat) : Exec ThreadedReader := do
  let (deadline, clock) ← r.clock.deadline (some timeout)
  joinLoop deadline r.turns { r with clock := clock }

/-! ## What it hands out -/

/-- The line that an item carries. -/
def lines : Option Item → List (List UInt8)
  | some (.line l) => [l]
  | _ => []

def inHand : Phase → Option Item
  | .sending item => some item
  | _ => none

/-- The lines in the channel, in the hand of the thread and behind them. -/
def ahead (r : ThreadedReader) : List (List UInt8) :=
  lines r.slot ++ lines (inHand r.thread.phase) ++
    complete newline (r.thread.framer.buf ++ incoming r.thread.source)

def spent (r : ThreadedReader) : Prop := r.terminal ≠ none

/-- No step of the thread loses, repeats or reorders a line. -/
theorem step_ahead (r : ThreadedReader) : r.step.ahead = r.ahead := by
  obtain ⟨⟨source, framer, phase⟩, slot, terminal, turns, clock⟩ := r
  cases phase with
  | reading =>
      cases source with
      | nil => rfl
      | cons first rest =>
          cases first with
          | ok chunk =>
              cases chunk with
              | nil => rfl
              | cons b bs =>
                  simp [ahead, step, ReaderThread.step, lines, inHand, LineFramer.push]
          | err e => rfl
  | taking =>
      have kept := LineFramer.takeLine_complete framer (incoming source)
      simp only [ahead, step, ReaderThread.step]
      split
      · rename_i line after taken
        rw [taken] at kept
        rw [kept]
        simp [lines, inHand]
      · rename_i after taken
        rw [taken] at kept
        rw [kept]
        simp [lines, inHand]
      · rename_i e after taken
        rw [taken] at kept
        rw [kept]
        simp [lines, inHand]
  | sending item =>
      cases slot with
      | none => cases item <;> rfl
      | some held => rfl
  | finished => rfl

theorem readLoop_heard {deadline : Option Nat} {turns : List Turn} {r t : ThreadedReader}
    {result : Except Error (List UInt8)} (read : readLoop deadline turns r = .ok (result, t)) :
    Heard r.ahead t.ahead t.spent result := by
  induction turns generalizing r with
  | nil => cases read
  | cons turn rest ih =>
      cases turn with
      | thread =>
          rw [← r.step_ahead]
          exact ih (r := { r.step with turns := rest }) read
      | wake =>
          rw [readLoop] at read
          dsimp only at read
          split at read
          · rename_i line held
            cases read
            refine .line ?_
            simp [ahead, held, lines]
          · rename_i e held
            cases read
            exact .failed e.property (Option.some_ne_none _)
          · split at read
            · cases read
              exact .failed rfl (Option.some_ne_none _)
            · split at read
              · cases read
                exact .late rfl
              · exact ih (r := (timedOut { r with turns := rest } deadline).2) read

theorem readLine_heard {timeout : Option Nat} {r t : ThreadedReader}
    {result : Except Error (List UInt8)} (read : r.readLine timeout = .ok (result, t)) :
    Heard r.ahead t.ahead t.spent result := by
  rw [readLine] at read
  split at read
  · rename_i e memoized
    cases read
    refine .failed e.property ?_
    rw [spent, memoized]
    exact Option.some_ne_none _
  · obtain ⟨⟨deadline, clock⟩, _, looped⟩ := Exec.bind_ok read
    exact readLoop_heard (r := { r with clock := clock }) looped

theorem readLine_spent {timeout : Option Nat} {r t : ThreadedReader}
    {result : Except Error (List UInt8)} (read : r.readLine timeout = .ok (result, t))
    (ended : r.spent) : ∃ e : Error, result = .error e ∧ e.code = none ∧ t.spent := by
  rw [readLine] at read
  split at read
  · rename_i e memoized
    cases read
    exact ⟨e.val, rfl, e.property, ended⟩
  · rename_i usable
    exact absurd usable ended

end ThreadedReader

end SanDbOxFormal.Rust.Transport
