import SanDbOxFormal.Rust.Transport.Reader

/-!
# The direct transport

`transport/direct.rs`: a child process, its stdin written inline and its stdout
read by a thread.  `close` is the staged shutdown: stdin closed, SIGTERM, SIGKILL,
each after a bounded wait.
-/

namespace SanDbOxFormal.Rust.Transport

/-- An exit code, or the signal that ended the process. -/
structure ExitStatus where
  code : Option Int
  signal : Option Int
  deriving DecidableEq

def exitCodeOf (status : ExitStatus) : Int := status.code.getD (-(status.signal.getD 0))

/-- What the transport did to the child, and what it learned. -/
inductive ChildEvent where
  | tryWait (result : Except IoError (Option ExitStatus))
  | terminate
  | kill
  | wait (result : Except IoError ExitStatus)

structure Child where
  /-- The results of the `try_wait` calls still to come. -/
  tryWaits : List (Except IoError (Option ExitStatus))
  /-- The results of the `wait` calls still to come. -/
  waits : List (Except IoError ExitStatus)
  log : List ChildEvent

namespace Child

def note (c : Child) (e : ChildEvent) : Child := { c with log := c.log ++ [e] }

/-- `self.child.wait().ok()`; it returns once the child has ended. -/
def wait (c : Child) : Exec (Option ExitStatus × Child) :=
  match c.waits with
  | [] => .error .blocked
  | result :: rest => .ok (result.toOption, { c with waits := rest }.note (.wait result))

/-- The loop of `wait_bounded`, over the `try_wait`s still to come. -/
def waitLoop (deadline : Option Nat) :
    List (Except IoError (Option ExitStatus)) → Child → Clock →
      Exec (Option ExitStatus × Child × Clock)
  | [], _, _ => .error .blocked
  | result :: rest, c, clock =>
      let c := { c with tryWaits := rest }.note (.tryWait result)
      match result with
      | .ok (some status) => .ok (some status, c, clock)
      | _ =>
          let (late, clock) := clock.timedOut deadline
          if late then .ok (none, c, clock) else waitLoop deadline rest c clock

/-- `self.wait_bounded(Instant::now() + timeout)`. -/
def waitBounded (c : Child) (clock : Clock) (timeout : Nat) :
    Exec (Option ExitStatus × Child × Clock) := do
  let (deadline, clock) ← clock.deadline (some timeout)
  waitLoop deadline c.tryWaits c clock

/-- The three stages of the shutdown, after stdin was closed. -/
def shutdown (c : Child) (clock : Clock) (timeout : Nat) :
    Exec (Option ExitStatus × Child × Clock) := do
  let (status, c, clock) ← c.waitBounded clock timeout
  match status with
  | some status => .ok (some status, c, clock)
  | none => do
      let (status, c, clock) ← (c.note .terminate).waitBounded clock timeout
      match status with
      | some status => .ok (some status, c, clock)
      | none => do
          let (status, c) ← (c.note .kill).wait
          .ok (status, c, clock)

end Child

structure DirectTransport where
  child : Child
  /-- The pipe to the child, and whether `stdin` is still `Some`. -/
  pipe : Sink
  stdin : Bool
  reader : Option ThreadedReader
  /-- The thread of a reader that was dropped: its channel has no receiver. -/
  detached : Option ReaderThread
  /-- The thread that drains stderr, and whether it comes to its end. -/
  stderrThread : Option Bool
  exitCode : Option Int
  clock : Clock

namespace DirectTransport

/-- The transport that `start` returns once the child was spawned. -/
def start (child : Child) (pipe : Sink) (reader : ThreadedReader) (stderrThread : Option Bool)
    (clock : Clock) : DirectTransport :=
  { child, pipe, stdin := true, reader := some reader, detached := none, stderrThread,
    exitCode := none, clock }

def writeLine (d : DirectTransport) (line : List UInt8) :
    Exec (Except Error Unit × DirectTransport) :=
  if d.stdin then do
    let (result, pipe) ← d.pipe.writeLine line
    .ok (result, { d with pipe := pipe })
  else .ok (.error .closed, { d with pipe := d.pipe.record line [] false })

def readLine (d : DirectTransport) (timeout : Option Nat) :
    Exec (Except Error (List UInt8) × DirectTransport) :=
  match d.reader with
  | some r => do
      let (result, r) ← r.readLine timeout
      .ok (result, { d with reader := some r })
  | none => .ok (.error .closed, d)

/-- `t.join()` on the thread that drains stderr. -/
def joinStderr : Option Bool → Exec Unit
  | some false => .error .blocked
  | _ => .ok ()

/-- `self.reader.take()`, joined for a bounded time and dropped. -/
def dropReader (d : DirectTransport) (timeout : Nat) : Exec DirectTransport :=
  match d.reader with
  | none => .ok d
  | some r => do
      let r ← r.join timeout
      .ok { d with reader := none, detached := some r.thread }

def close (d : DirectTransport) (timeout : Nat) : Exec DirectTransport :=
  if d.stdin = false ∧ d.reader.isNone ∧ d.stderrThread.isNone ∧ d.exitCode.isSome then .ok d
  else do
    let (status, child, clock) ← d.child.shutdown d.clock timeout
    let () ← joinStderr d.stderrThread
    { d with
      child := child
      stdin := false
      clock := clock
      exitCode := status.map exitCodeOf
      stderrThread := none }.dropReader timeout

instance : Transport DirectTransport where
  writeLine := writeLine
  readLine := readLine
  close := close

/-! ## What it hands out -/

def ahead (d : DirectTransport) : List (List UInt8) :=
  match d.reader with
  | some r => r.ahead
  | none => []

def spent (d : DirectTransport) : Prop := ∀ r, d.reader = some r → r.spent

theorem writeLine_wrote {d t : DirectTransport} {line : List UInt8} {result : Except Error Unit}
    (wrote : d.writeLine line = .ok (result, t)) :
    ∃ pipe, Sink.Wrote d.pipe line result pipe ∧ t = { d with pipe := pipe } := by
  rw [writeLine] at wrote
  split at wrote
  · obtain ⟨⟨written, pipe⟩, sent, same⟩ := Exec.bind_ok wrote
    cases same
    exact ⟨pipe, Sink.writeLine_wrote sent, rfl⟩
  · cases wrote
    have same : (d.pipe.record line [] false).accepted = d.pipe.accepted := List.append_nil _
    refine ⟨d.pipe.record line [] false, ⟨⟨[], List.nil_prefix, ?_, rfl, rfl⟩, ?_,
      fun _ => ⟨.closed, rfl⟩, fun _ => same⟩, rfl⟩
    · intro done
      cases done
    · intro e is
      cases is
      rfl

theorem readLine_heard {timeout : Option Nat} {d t : DirectTransport}
    {result : Except Error (List UInt8)} (read : d.readLine timeout = .ok (result, t)) :
    Heard d.ahead t.ahead t.spent result ∧ t.pipe = d.pipe := by
  rw [readLine] at read
  split at read
  · rename_i r held
    obtain ⟨⟨inner, r'⟩, looked, same⟩ := Exec.bind_ok read
    cases same
    have heard := ThreadedReader.readLine_heard looked
    refine ⟨?_, rfl⟩
    rw [ahead, held]
    have same : spent { d with reader := some r' } = r'.spent := by
      refine propext ⟨fun all => all r' rfl, fun it other is => ?_⟩
      cases is
      exact it
    rw [same]
    exact heard
  · rename_i dropped
    cases read
    refine ⟨.failed rfl fun r held => ?_, rfl⟩
    rw [dropped] at held
    cases held

theorem readLine_spent {timeout : Option Nat} {d t : DirectTransport}
    {result : Except Error (List UInt8)} (read : d.readLine timeout = .ok (result, t))
    (ended : d.spent) : ∃ e : Error, result = .error e ∧ e.code = none ∧ t.spent := by
  rw [readLine] at read
  split at read
  · rename_i r held
    obtain ⟨⟨inner, r'⟩, looked, same⟩ := Exec.bind_ok read
    cases same
    obtain ⟨e, failed, plain, still⟩ := ThreadedReader.readLine_spent looked (ended r held)
    refine ⟨e, failed, plain, fun other is => ?_⟩
    cases is
    exact still
  · cases read
    exact ⟨.closed, rfl, rfl, ended⟩

theorem dropReader_pipe {timeout : Nat} {d t : DirectTransport}
    (dropped : d.dropReader timeout = .ok t) : t.pipe = d.pipe := by
  rw [dropReader] at dropped
  split at dropped
  · cases dropped
    rfl
  · obtain ⟨r, _, same⟩ := Exec.bind_ok dropped
    cases same
    rfl

theorem close_pipe {timeout : Nat} {d t : DirectTransport} (closed : d.close timeout = .ok t) :
    t.pipe = d.pipe := by
  rw [close] at closed
  split at closed
  · cases closed
    rfl
  · obtain ⟨⟨status, child, clock⟩, _, rest⟩ := Exec.bind_ok closed
    obtain ⟨_, _, last⟩ := Exec.bind_ok rest
    have kept := dropReader_pipe last
    exact kept

instance : Observed DirectTransport where
  sink := pipe
  ahead := ahead
  spent := spent
  wrote := fun wrote => by
    obtain ⟨pipe, sent, rfl⟩ := writeLine_wrote wrote
    exact ⟨sent, rfl, id⟩
  heard := readLine_heard
  silent := readLine_spent
  closed := close_pipe

end DirectTransport

end SanDbOxFormal.Rust.Transport
