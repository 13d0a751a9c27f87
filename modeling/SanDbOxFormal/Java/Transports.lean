import SanDbOxFormal.Java.Calls
import SanDbOxFormal.Java.Transport.ReaderThread

/-!
# The two transports of a Java session

`DirectTransport` takes lines from its reader thread, `SocketTransport` reads them itself.
Either hands out the lines of the server in their order, or is silent for good.
-/

namespace SanDbOxFormal.Java

open SanDbOxFormal.Library
open SanDbOxFormal.Library.CappedFraming
open SanDbOxFormal.Java.Transport

/-- How a read ends, by the lines that are ahead. -/
inductive Heard {τ : Type} [Wired τ] (ahead : τ → List (List UInt8)) (Silent : τ → Prop) (t : τ) (timeout : Option ℤ)
    (wait : Wired.Wait τ) : Except Thrown (List UInt8) × τ → Prop where
  | line {line : List UInt8} {u : τ} (live : ¬ Silent t) (next : ahead t = line :: ahead u) :
      Heard ahead Silent t timeout wait (.ok line, u)
  | late {e : TransportException} {u : τ} (kind : e.kind = .timeout) :
      Heard ahead Silent t timeout wait (.error (.transport e), u)
  | final {e : TransportException} {u : τ} (silent : Silent u) :
      Heard ahead Silent t timeout wait (.error (.transport e), u)
  /-- The line that the call was for is still ahead. -/
  | broken {e : Thrown} {u : τ} (interrupts : Wired.Interrupts wait) : Heard ahead Silent t timeout wait (.error e, u)
  | wide {u : τ} (range : ¬ InRange timeout) : Heard ahead Silent t timeout wait (.error .arithmetic, u)

/-- A transport that hands out the lines of the server. -/
class Speaks (τ : Type) [Wired τ] where
  /-- The lines that nobody has taken. -/
  ahead : τ → List (List UInt8)
  /-- No read returns a line any more. -/
  Silent : τ → Prop
  heard : ∀ {t : τ} {timeout : Option ℤ} {wait : Wired.Wait τ} {r : Except Thrown (List UInt8) × τ},
    Wired.readLine t timeout wait = some r → Heard ahead Silent t timeout wait r
  stays : ∀ {t : τ} {timeout : Option ℤ} {wait : Wired.Wait τ} {r : Except Thrown (List UInt8) × τ},
    Silent t → Wired.readLine t timeout wait = some r → Silent r.2
  idle_ahead : ∀ t : τ, ahead (Wired.idle t) = ahead t
  idle_silent : ∀ t : τ, Silent t → Silent (Wired.idle t)

theorem deadline_wide {start : ℤ} {timeout : Option ℤ} {e : Thrown} (failed : SocketTransport.deadline start timeout = .error e) :
    e = .arithmetic ∧ ¬ InRange timeout := by
  cases timeout with
  | none => cases failed
  | some t =>
      rw [SocketTransport.deadline] at failed
      split at failed
      · cases failed
      · rename_i wide
        cases failed
        exact ⟨rfl, fun range => wide (range t rfl)⟩

/-! ## The child process -/

structure DirectTransport where
  reader : ReaderThread
  closed : Bool

namespace DirectTransport

/-- `readLine`. -/
def readLine (d : DirectTransport) (timeout : Option ℤ) (moments : List Pump.Moment) :
    Option (Except Thrown (List UInt8) × DirectTransport) :=
  if d.closed then some (.error (.transport SessionOver.connectionClosed), d)
  else (d.reader.readLine timeout moments).map fun r => (r.1, { d with reader := r.2 })

/-- The thread goes on for some turns. -/
def turned (d : DirectTransport) (turns : ℕ) : DirectTransport :=
  { d with reader := { d.reader with pump := (Pump.turn Reading.source)^[turns] d.reader.pump } }

/-- `close`, during which the thread goes on. -/
def close (d : DirectTransport) (turns : ℕ) : DirectTransport :=
  if d.closed then d else { d.turned turns with closed := true }

instance : Wired DirectTransport where
  Wait := List Pump.Moment
  Interrupts := fun moments => .leave ∈ moments
  Pause := ℕ
  readLine := readLine
  close := close
  isClosed := closed
  idle := fun d => d.turned 1

/-- It is closed, or its reader thread has told an error. -/
def Silent (d : DirectTransport) : Prop := d.closed = true ∨ d.reader.terminal.isSome = true

def ahead (d : DirectTransport) : List (List UInt8) := d.reader.ahead

theorem reader_heard {r : ReaderThread} {timeout : Option ℤ} {moments : List Pump.Moment}
    {read : Except Thrown (List UInt8) × ReaderThread} (returned : r.readLine timeout moments = some read) :
    (∃ line, read.1 = .ok line ∧ r.terminal = none ∧ r.ahead = line :: read.2.ahead) ∨
      (∃ e, read.1 = .error (.transport e) ∧ (e.kind = .timeout ∨ read.2.terminal.isSome = true ∨ .leave ∈ moments)) ∨
      (read.1 = .error .arithmetic ∧ ¬ InRange timeout) := by
  obtain ⟨pump, terminal⟩ := r
  cases terminal with
  | some e =>
      cases returned
      exact .inr (.inl ⟨e, rfl, .inr (.inl rfl)⟩)
  | none =>
      rw [ReaderThread.readLine.eq_def] at returned
      dsimp only at returned
      split at returned
      · rename_i e failed
        cases returned
        obtain ⟨rfl, wide⟩ := deadline_wide failed
        exact .inr (.inr ⟨rfl, wide⟩)
      · split at returned
        · cases returned
        · cases returned
          exact .inr (.inl ⟨_, rfl, .inl rfl⟩)
        · rename_i p waited
          cases returned
          refine .inr (.inl ⟨_, rfl, .inr (.inr ?_)⟩)
          cases Pump.wait_waited waited with
          | lost broken taken => cases broken
          | @left d m p' broken early inside kept =>
              cases m with
              | leave => exact inside
              | expire =>
                  rw [pollBroken] at broken
                  split at broken <;> cases broken
              | _ => cases broken
        · cases returned
          exact .inr (.inl ⟨_, rfl, .inr (.inl rfl)⟩)
        · rename_i line p waited
          cases returned
          cases Pump.wait_waited waited with
          | taken taken =>
              cases taken with
              | line next => exact .inl ⟨line, rfl, rfl, next⟩

theorem readLine_heard {d : DirectTransport} {timeout : Option ℤ} {moments : List Pump.Moment}
    {r : Except Thrown (List UInt8) × DirectTransport} (returned : d.readLine timeout moments = some r) :
    Heard ahead Silent d timeout moments r := by
  rw [readLine] at returned
  split at returned
  · rename_i closed
    cases returned
    exact .final (.inl closed)
  · rename_i live
    obtain ⟨⟨result, reader⟩, read, same⟩ := Option.map_eq_some_iff.mp returned
    cases same
    rcases reader_heard read with ⟨line, rfl, running, next⟩ | ⟨e, rfl, late | ended | left⟩ | ⟨rfl, wide⟩
    · refine .line ?_ next
      rintro (closed | told)
      · exact live closed
      · rw [running] at told
        cases told
    · exact .late late
    · exact .final (.inr ended)
    · exact .broken left
    · exact .wide wide

instance : Speaks DirectTransport where
  ahead := ahead
  Silent := Silent
  heard := readLine_heard
  stays := by
    intro d timeout moments r silent returned
    change d.readLine timeout moments = some r at returned
    rw [readLine] at returned
    split at returned
    · rename_i closed
      cases returned
      exact .inl closed
    · rename_i live
      obtain ⟨read, taken, same⟩ := Option.map_eq_some_iff.mp returned
      cases same
      obtain ⟨e, told⟩ := Option.isSome_iff_exists.mp (silent.resolve_left live)
      rw [ReaderThread.readLine, told] at taken
      cases taken
      exact .inr (told ▸ rfl)
  idle_ahead := fun d => Pump.turns_ahead 1 d.reader.pump
  idle_silent := fun d silent => silent

end DirectTransport

/-! ## The socket -/

/-- A socket transport, and how its reads will return. -/
structure SocketEnd where
  socket : SocketTransport
  script : List Turn

namespace SocketEnd

/-- The bytes that the reads return, up to the end of the stream. -/
def arriving : List Turn → List (List UInt8)
  | [] => []
  | e :: rest =>
      match e.outcome with
      | .bytes chunk _ => chunk :: arriving rest
      | .timedOut => arriving rest
      | .eof | .failed _ => []

/-- `while (true)` in `readLine`; it waits for ever if the reads run out. -/
def readLoop (deadlineNanos : Option ℤ) : List Turn → ℤ → SocketTransport → Option (Except Thrown (List UInt8) × SocketEnd)
  | [], _, _ => none
  | e :: rest, now, s =>
      match SocketTransport.turn deadlineNanos e now s with
      | .done c => c.outcome.map fun r => (r, ⟨c.transport, rest⟩)
      | .again _ now s => readLoop deadlineNanos rest now s

/-- `readLine`, with the time at which it looks first. -/
def readLine (t : SocketEnd) (timeout : Option ℤ) (start : ℤ) : Option (Except Thrown (List UInt8) × SocketEnd) :=
  match t.socket.terminal with
  | some e => some (.error (.transport e), t)
  | none =>
      match t.socket.tryTakeLine with
      | (.error e, s) => some (.error (.transport e), ⟨s, t.script⟩)
      | (.ok (some line), s) => some (.ok line, ⟨s, t.script⟩)
      | (.ok none, s) =>
          match SocketTransport.deadline start timeout with
          | .error e => some (.error e, ⟨s, t.script⟩)
          | .ok deadlineNanos => readLoop deadlineNanos t.script start s

instance : Wired SocketEnd where
  Wait := ℤ
  Interrupts := fun _ => False
  Pause := Unit
  readLine := readLine
  close := fun t _ => { t with socket := t.socket.close }
  isClosed := fun t => t.socket.closed
  idle := id

def Silent (t : SocketEnd) : Prop := t.socket.terminal.isSome = true

def ahead (t : SocketEnd) : List (List UInt8) :=
  (progress newline maxLineBytes (t.socket.framer.data.buf :: arriving t.script)).lines

/-- The outcome of a read, by the lines that are ahead of it. -/
inductive Gave (lines : List (List UInt8)) : Except Thrown (List UInt8) × SocketEnd → Prop where
  | line {line : List UInt8} {u : SocketEnd} (next : lines = line :: u.ahead) : Gave lines (.ok line, u)
  | late {e : TransportException} {u : SocketEnd} (kind : e.kind = .timeout) : Gave lines (.error (.transport e), u)
  | final {e : TransportException} {u : SocketEnd} (silent : u.Silent) : Gave lines (.error (.transport e), u)

/-- A look into the framer gives its next line or an error, or it goes on. -/
theorem take_gave {s s' : SocketTransport} (script : List Turn) {taken : Except TransportException (Option (List UInt8))}
    (took : s.tryTakeLine = (taken, s')) :
    (∃ line, taken = .ok (some line) ∧ (SocketEnd.mk s script).ahead = line :: (SocketEnd.mk s' script).ahead) ∨
      (∃ e, taken = .error e ∧ s'.terminal.isSome = true) ∨
      (taken = .ok none ∧ newline ∉ s'.framer.data.buf ∧ s'.framer.data.buf.length ≤ maxLineBytes ∧
        s'.framer.data.buf = s.framer.data.buf) := by
  unfold SocketTransport.tryTakeLine at took
  have looked := s.framer.takeLine_taken
  generalize s.framer.takeLine = pair at looked took
  cases looked with
  | @line line rest f clean shape left =>
      cases took
      have shape : s.framer.data.buf = line ++ newline :: rest := shape
      have left : f.data.buf = rest := left
      refine .inl ⟨line, rfl, ?_⟩
      rw [ahead, ahead, shape, progress_segment clean]
      dsimp only
      rw [left]
  | refused clean long =>
      cases took
      exact .inr (.inl ⟨_, rfl, rfl⟩)
  | @nothing g clean short same =>
      cases took
      have held : g.data.buf = s.framer.data.buf := same
      exact .inr (.inr ⟨rfl, held ▸ clean, held ▸ short, held⟩)

theorem turn_bytes (deadlineNanos : Option ℤ) (before during after : ℕ) {chunk : List UInt8} (fits : chunk.length ≤ readSize)
    (now : ℤ) (s : SocketTransport) : ∃ a later,
      SocketTransport.turn deadlineNanos ⟨before, during, .bytes chunk fits, after⟩ now s =
        s.tookIn a later (s.pushAndTake chunk) := by
  unfold SocketTransport.turn
  exact ⟨_, _, rfl⟩

theorem readLoop_gave {deadlineNanos : Option ℤ} {script : List Turn} {now : ℤ} {s : SocketTransport}
    {r : Except Thrown (List UInt8) × SocketEnd} (clean : newline ∉ s.framer.data.buf)
    (short : s.framer.data.buf.length ≤ maxLineBytes) (returned : readLoop deadlineNanos script now s = some r) :
    Gave (SocketEnd.mk s script).ahead r := by
  induction script generalizing now s with
  | nil => cases returned
  | cons e rest ih =>
      obtain ⟨before, during, outcome, after⟩ := e
      cases outcome with
      | failed message =>
          cases returned
          exact .final rfl
      | eof =>
          cases returned
          exact .final rfl
      | timedOut =>
          have silent : arriving (⟨before, during, .timedOut, after⟩ :: rest) = arriving rest := rfl
          rw [ahead, silent]
          rw [readLoop, SocketTransport.turn] at returned
          dsimp only at returned
          split at returned
          · rename_i c done
            split at done
            · cases done
              cases returned
              exact .late rfl
            · cases done
          · rename_i a now' s' again
            split at again
            · cases again
            · cases again
              exact ih clean short returned
      | bytes chunk fits =>
          obtain ⟨f, pushed, held⟩ := SocketTransport.push_fits (s := s) fits short
          have came : arriving (⟨before, during, .bytes chunk fits, after⟩ :: rest) = chunk :: arriving rest := rfl
          have grown : (SocketEnd.mk s (⟨before, during, .bytes chunk fits, after⟩ :: rest)).ahead =
              (SocketEnd.mk { s with framer := f } rest).ahead := by
            rw [ahead, ahead, came, progress_tail clean short, held]
          rw [grown]
          generalize took : ({ s with framer := f } : SocketTransport).tryTakeLine = pair
          obtain ⟨taken, s'⟩ := pair
          obtain ⟨a, later, turned⟩ := turn_bytes deadlineNanos before during after fits now s
          rw [SocketTransport.pushAndTake, pushed, Option.map_some, took] at turned
          rw [readLoop, turned] at returned
          rcases take_gave rest took with ⟨line, rfl, next⟩ | ⟨e, rfl, told⟩ | ⟨rfl, clean', short', held'⟩
          · rw [SocketTransport.tookIn] at returned
            cases returned
            exact .line next
          · rw [SocketTransport.tookIn] at returned
            cases returned
            exact .final told
          · rw [SocketTransport.tookIn] at returned
            have same : (SocketEnd.mk { s with framer := f } rest).ahead = (SocketEnd.mk s' rest).ahead := by
              rw [ahead, ahead, held']
            rw [same]
            exact ih clean' short' returned

theorem readLine_heard {t : SocketEnd} {timeout : Option ℤ} {start : ℤ} {r : Except Thrown (List UInt8) × SocketEnd}
    (returned : t.readLine timeout start = some r) : Heard ahead Silent t timeout start r := by
  obtain ⟨s, script⟩ := t
  rw [readLine] at returned
  cases terminal : s.terminal with
  | some e =>
      rw [terminal] at returned
      cases returned
      exact .final (Option.isSome_iff_exists.mpr ⟨e, terminal⟩)
  | none =>
      rw [terminal] at returned
      dsimp only at returned
      have live : ¬ Silent ⟨s, script⟩ := by
        rw [Silent, terminal]
        exact Bool.false_ne_true
      generalize took : s.tryTakeLine = pair at returned
      obtain ⟨taken, s'⟩ := pair
      rcases take_gave script took with ⟨line, rfl, next⟩ | ⟨e, rfl, told⟩ | ⟨rfl, clean, short, held⟩
      · cases returned
        exact .line live next
      · cases returned
        exact .final told
      · dsimp only at returned
        split at returned
        · rename_i e failed
          cases returned
          obtain ⟨rfl, wide⟩ := deadline_wide failed
          exact .wide wide
        · have same : (SocketEnd.mk s script).ahead = (SocketEnd.mk s' script).ahead := by
            rw [ahead, ahead, held]
          have gave := readLoop_gave clean short returned
          rw [← same] at gave
          cases gave with
          | line next => exact .line live next
          | late kind => exact .late kind
          | final silent => exact .final silent

instance : Speaks SocketEnd where
  ahead := ahead
  Silent := Silent
  heard := readLine_heard
  stays := by
    intro t timeout start r silent returned
    change t.readLine timeout start = some r at returned
    obtain ⟨e, told⟩ := Option.isSome_iff_exists.mp silent
    rw [readLine, told] at returned
    cases returned
    exact silent
  idle_ahead := fun _ => rfl
  idle_silent := fun _ silent => silent

end SocketEnd

end SanDbOxFormal.Java
