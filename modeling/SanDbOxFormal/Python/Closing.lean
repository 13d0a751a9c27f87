import SanDbOxFormal.Python.Pairing

/-!
# Closing a session of the Python driver

`close` sends its request and shuts the transport down without a look at the reply; a
call that times out leaves the shutdown to a thread in the background.  Here the
shutdown of a direct transport takes its time, and the reader thread goes on beside it.
-/

namespace SanDbOxFormal.Python

open SanDbOxFormal.Library
open SanDbOxFormal.Library.Runs
open SanDbOxFormal.Library.Segments (complete complete_append complete_segment)

/-! ## DirectTransport.close -/

/-- Where `DirectTransport.close` stands. -/
inductive Shutdown where
  /-- Stdin is closed, and the child has its time. -/
  | waiting
  /-- The same, behind `terminate`. -/
  | terminated
  /-- Behind `kill`. -/
  | killed
  /-- The child is reaped, and the threads are joined. -/
  | joining
  | done
  deriving DecidableEq

namespace Shutdown

/-- The next step, by whether the child exits in time; the last wait has no end. -/
def next (exits : Bool) : Shutdown → Shutdown
  | waiting => if exits then joining else terminated
  | terminated => if exits then joining else killed
  | killed => if exits then joining else killed
  | joining => done
  | done => done

end Shutdown

/-! ## Runs with threads -/

/-- A session and the shutdown of its transport, if that has begun. -/
structure Client where
  session : Session
  shutdown : Option Shutdown

namespace Client

/-- The reader thread goes on. -/
def turned (c : Client) (turns : Nat) : Client :=
  { c with session.transport.reader.pump := (Pump.turn reading)^[turns] c.session.transport.reader.pump }

/-- One step of a run; a step of a thread has no entry. -/
inductive Step (pf : Platform) : Client → Option Entry → Client → Prop where
  | turned (c : Client) : Step pf c none (c.turned 1)
  /-- The thread in the background goes on. -/
  | shut {c : Client} {at' : Shutdown} (exits : Bool) (running : c.shutdown = some at') :
      Step pf c none { c with shutdown := some (at'.next exits) }
  /-- A method that leaves the session as open as it was. -/
  | kept {c : Client} {e : Entry} {s : Session} (step : Python.Step pf c.session e s)
      (same : s.closed = c.session.closed) : Step pf c (some e) { c with session := s }
  /-- A call that times out leaves the shutdown to the background. -/
  | abandoned {c : Client} {e : Entry} {s : Session} {raised : PyError}
      (step : Python.Step pf c.session e s) (live : c.session.closed = false)
      (closed : s.closed = true) (failed : e.outcome = .error raised) :
      Step pf c (some e) ⟨s, some .waiting⟩
  /-- `close` and `overwrite` shut the transport down themselves. -/
  | closed {c : Client} {e : Entry} {s : Session} {answer : Answer} {waits : List Bool}
      (step : Python.Step pf c.session e s) (live : c.session.closed = false)
      (closed : s.closed = true) (returned : e.outcome = .ok answer)
      (through : waits.foldl (fun at' exits => at'.next exits) Shutdown.waiting = .done) :
      Step pf c (some e) ⟨s, some .done⟩

/-- The transport's close has run to completion, and the reader thread does not come to
stand in the queue's `put`. -/
def Settled (c : Client) : Prop :=
  c.shutdown = some .done ∧ ∀ n, ¬ (c.turned n).session.transport.reader.pump.Blocked

end Client

namespace Entry

/-- `close` or `overwrite` has returned. -/
def returned (e : Entry) : Bool :=
  match e.command with
  | .close => true
  | .perform .overwrite _ => e.outcome.toBool
  | .perform _ _ => false

/-- The request line went out. -/
def Sent (e : Entry) : Prop := e.before.requests.length < e.after.requests.length

/-- A line was taken out of the queue. -/
def Heard (e : Entry) : Prop :=
  e.after.transport.reader.ahead.length < e.before.transport.reader.ahead.length

end Entry

/-! ## The lines of a step -/

/-- What `read_line` takes. -/
theorem LineReader.readLine_takes {timeoutMax : PyFloat} {r r' : LineReader}
    {timeout : Option PyFloat} {moments : List Pump.Moment} {result : Except PyError (List UInt8)}
    (read : r.readLine timeoutMax timeout moments = some (result, r')) :
    r'.ahead = r.ahead ∨ ∃ line, r.ahead = line :: r'.ahead := by
  obtain ⟨pump, terminal⟩ := r
  cases readLine_returned read with
  | again => exact .inl rfl
  | refused => exact .inl rfl
  | broken usable waited =>
      cases usable
      cases Pump.wait_waited waited with
      | lost _ taken =>
          cases taken with
          | line next => exact .inr ⟨_, next⟩
          | ended none spent => exact .inl (spent.trans none.symm)
      | left _ _ _ kept => exact .inl kept
  | ended usable waited =>
      cases usable
      cases Pump.wait_waited waited with
      | taken taken =>
          cases taken with
          | ended none _ => exact .inl none.symm
  | line usable waited =>
      cases usable
      cases Pump.wait_waited waited with
      | taken taken =>
          cases taken with
          | line next => exact .inr ⟨_, next⟩

namespace Session

def ahead (s : Session) : List (List UInt8) := s.transport.reader.ahead

theorem requests_sent {s t : Session} {text : List UInt8} (clean : newline ∉ text)
    (grown : t.transport.outlet.accepted = s.transport.outlet.accepted ++ (text ++ [newline])) :
    t.requests.length = s.requests.length + 1 := by
  have one : complete newline (Segments.remainder newline s.transport.outlet.accepted ++
      (text ++ [newline])) = [Segments.remainder newline s.transport.outlet.accepted ++ text] := by
    rw [← List.append_assoc, ← List.append_nil [newline], ← List.append_assoc, List.append_assoc _ [newline]]
    exact complete_segment (by simp [clean, Segments.not_mem_remainder]) []
  rw [requests, grown, complete_append, one, List.length_append]
  rfl

end Session

/-- Behind the exception that it repeats the reader has nothing more. -/
def LineReader.Through (r : LineReader) : Prop := ∀ e, r.terminal = some e → r.pump.ahead reading = []

theorem LineReader.Through.ahead {r : LineReader} (through : r.Through) :
    r.pump.ahead reading = r.ahead := by
  obtain ⟨pump, terminal⟩ := r
  cases terminal with
  | none => rfl
  | some e => exact through e rfl

theorem LineReader.Through.readLine {timeoutMax : PyFloat} {r r' : LineReader}
    {timeout : Option PyFloat} {moments : List Pump.Moment} {result : Except PyError (List UInt8)}
    (through : r.Through) (read : r.readLine timeoutMax timeout moments = some (result, r')) :
    r'.Through := by
  cases readLine_returned read with
  | again => exact through
  | refused => exact through
  | broken usable => exact fun e is => by cases usable.symm.trans is
  | line usable => exact fun e is => by cases usable.symm.trans is
  | ended _ waited =>
      cases Pump.wait_waited waited with
      | taken taken =>
          cases taken with
          | ended _ spent => exact fun _ _ => spent

/-- What a command does to the reader: nothing, or one `read_line`. -/
def Session.Listened (pf : Platform) (s t : Session) : Prop :=
  t.transport.reader = s.transport.reader ∨
    ∃ timeout moments result, s.transport.reader.readLine pf.timeoutMax timeout moments =
      some (result, t.transport.reader)

theorem Session.Called.listened {pf : Platform} {s t : Session} {events : Events} {req : Dict}
    {timeout : TimeoutArg} {result : Except PyError Dict}
    (called : Called pf s events req timeout result t) : Listened pf s t := by
  cases called with
  | closed => exact .inl rfl
  | refused => exact .inl rfl
  | unsent wrote => exact .inl (Transport.writeLine_wrote wrote).2.2
  | sent _ _ wrote read _ reader =>
      have listened := (Transport.readLine_read read).1
      rw [(Transport.writeLine_wrote wrote).2.2, ← reader] at listened
      exact .inr ⟨_, _, _, listened⟩

theorem Step.listened {pf : Platform} {s t : Session} {e : Entry} (step : Step pf s e t) :
    s.Listened pf t := by
  cases step with
  | @closed events =>
      refine .inl ?_
      unfold Session.close
      split_ifs
      · rfl
      · cases encodeRequestLine [op "close"] with
        | error e => rfl
        | ok line => rfl
  | performed returned =>
      unfold Session.perform at returned
      split at returned
      · cases returned
        exact .inl rfl
      · split at returned
        · cases returned
        · rename_i called
          cases returned
          exact (Session.call_called called).listened
        · rename_i called
          have listened := (Session.call_called called).listened
          split at returned
          · cases returned
            exact listened
          · cases returned
            exact listened

/-! ## A call that times out -/

/-- A wait that times out takes nothing. -/
theorem LineReader.readLine_late {timeoutMax : PyFloat} {r r' : LineReader}
    {timeout : Option PyFloat} {moments : List Pump.Moment} {e : PyError}
    (read : r.readLine timeoutMax timeout moments = some (.error e, r')) (late : e.isTimeout = true) :
    r'.ahead = r.ahead := by
  obtain ⟨pump, terminal⟩ := r
  generalize heard : (Except.error e : Except PyError (List UInt8)) = outcome at read
  cases readLine_returned read with
  | again => rfl
  | refused => rfl
  | broken usable waited =>
      cases usable
      cases heard
      cases Pump.wait_waited waited with
      | lost broken _ =>
          cases broken
          cases late
      | left _ _ _ kept => exact kept
  | ended usable waited =>
      cases usable
      cases Pump.wait_waited waited with
      | taken taken =>
          cases taken with
          | ended none _ => exact none.symm
  | line => cases heard

namespace Session

/-- A call that closes the session has sent its request and taken nothing. -/
theorem call_closes {pf : Platform} {s t : Session} {events : Events} {req : Dict}
    {timeout : TimeoutArg} {result : Except PyError Dict} (each : ∀ item ∈ req, Clean item.2)
    (called : s.call pf events req timeout = some (result, t)) (live : s.closed = false)
    (closed : t.closed = true) :
    t.requests.length = s.requests.length + 1 ∧ t.ahead = s.ahead := by
  unfold call at called
  rw [live, if_neg Bool.false_ne_true] at called
  split at called
  · cases called
    exact absurd closed (Bool.eq_false_iff.mp live)
  · rename_i line encoded
    obtain ⟨text, _, rfl, clean⟩ := line_framed each encoded
    split at called
    · cases called
      cases closed
    · rename_i u wrote
      obtain ⟨sent, _, unread⟩ := Transport.writeLine_wrote wrote
      split at called
      · cases called
      · cases called
        cases closed
      · rename_i e w read
        obtain ⟨listened, same⟩ := Transport.readLine_read read
        rw [unread] at listened
        split_ifs at called with late
        · cases called
          cases sent with
          | through _ _ grown =>
              exact ⟨requests_sent clean ((congrArg Outlet.accepted same).trans grown),
                LineReader.readLine_late listened late⟩
        · cases called
          cases closed
        · cases called
          cases closed

end Session

theorem Step.abandoned {pf : Platform} {s t : Session} {e : Entry} {raised : PyError}
    (step : Step pf s e t) (live : s.closed = false) (closed : t.closed = true)
    (failed : e.outcome = .error raised) :
    t.requests.length = s.requests.length + 1 ∧ t.ahead = s.ahead := by
  cases step with
  | closed => cases failed
  | performed returned =>
      cases failed
      unfold Session.perform at returned
      split at returned
      · cases returned
        exact absurd closed (Bool.eq_false_iff.mp live)
      · rename_i req built
        split at returned
        · cases returned
        · rename_i e u called
          cases returned
          exact Session.call_closes (request_clean built) called live closed
        · rename_i fields u called
          split at returned
          · cases returned
          · obtain ⟨_, rfl⟩ := Prod.mk.inj (Option.some.inj returned)
            exact Session.call_closes (request_clean built) called live closed

theorem Step.entry {pf : Platform} {s t : Session} {e : Entry} (step : Step pf s e t) :
    e.before = s ∧ e.after = t := by
  cases step <;> exact ⟨rfl, rfl⟩

/-! ## Runs -/

namespace Client

/-- The requests that went out and the lines that are ahead, of which a command that
takes its reply leaves the sum alone. -/
def owed (c : Client) : Nat := c.session.requests.length + c.session.ahead.length

theorem turned_ahead (c : Client) (turns : Nat) : (c.turned turns).session.ahead = c.session.ahead := by
  obtain ⟨⟨hello, ⟨outlet, ⟨pump, terminal⟩, over'⟩, timeout, closed⟩, shutdown⟩ := c
  cases terminal with
  | some e => rfl
  | none => exact Pump.turns_ahead turns pump

theorem Step.stays_closed {pf : Platform} {c d : Client} {label : Option Entry}
    (step : Step pf c label d) (closed : c.session.closed = true) : d.session.closed = true := by
  cases step with
  | turned => exact closed
  | shut => exact closed
  | kept _ same => exact same.trans closed
  | abandoned _ _ after => exact after
  | closed _ _ after => exact after

theorem Step.through {pf : Platform} {c d : Client} {label : Option Entry} (step : Step pf c label d)
    (through : c.session.transport.reader.Through) : d.session.transport.reader.Through := by
  have commanded {e : Entry} {s : Session} (step : Python.Step pf c.session e s) :
      s.transport.reader.Through := by
    rcases step.listened with same | ⟨timeout, moments, result, read⟩
    · exact same ▸ through
    · exact through.readLine read
  cases step with
  | turned => exact fun e is => (Pump.turns_ahead 1 _).trans (through e is)
  | shut => exact through
  | kept step => exact commanded step
  | abandoned step => exact commanded step
  | closed step => exact commanded step

end Client

/-- What there is to see of the command. -/
structure Course where
  returned : Bool
  ok : Bool
  closed : Bool
  requests : Nat
  ahead : List Nat
  deriving DecidableEq

def Entry.course (e : Entry) : Course where
  returned := e.returned
  ok := e.outcome.toBool
  closed := e.after.closed
  requests := e.after.requests.length
  ahead := [e.before.ahead.length, e.after.ahead.length, (e.after.transport.reader.pump.ahead reading).length]

end SanDbOxFormal.Python
