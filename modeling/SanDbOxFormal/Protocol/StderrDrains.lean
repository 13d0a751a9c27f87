import SanDbOxFormal.Go.Runtime
import SanDbOxFormal.Library.Draining
import SanDbOxFormal.Python.Runtime
import SanDbOxFormal.Rust.Error

/-!
# The loops that drain stderr

The four drivers that read the stderr of their child themselves, each with the answers of
its sink behind which it goes on, and with what becomes of the pipe when it does not.  A
child blocks when the pipe is full, and is refused when nothing can read it.
-/

namespace SanDbOxFormal.Protocol.StderrDrains

open SanDbOxFormal.Library.Draining
open SanDbOxFormal.Library.Runs

/-! ## The four loops -/

/-- The body of `io.Copy` behind a `Write` that has returned `nw` and `ew`. -/
def copyGoesOn (chunk : List UInt8) (answer : Int × Option Go.GoString) : Bool :=
  let (nw, ew) := answer
  -- A count that cannot be is `errInvalidWrite`, a smaller one `ErrShortWrite`.
  if nw < 0 ∨ chunk.length < nw then false
  else if ew.isSome then false
  else nw = chunk.length

theorem copyGoesOn_error (chunk : List UInt8) (nw : Int) (ew : Go.GoString) :
    copyGoesOn chunk (nw, some ew) = false := by
  rw [copyGoesOn]
  split <;> rfl

/-- `io.Copy` in the goroutine of `StartDirect`, over a sink without a `ReadFrom`. -/
def goCopy : Loop UInt8 where
  Answer := Int × Option Go.GoString
  size := 32 * 1024
  eager := true
  goesOn := copyGoesOn
  closes := false
  size_pos := by decide

/-- `_drain`; it returns at an `OSError` or a `ValueError`, and any other exception ends its
thread.  What `write` returns is dropped, and `read` waits for all it was asked for.  The
pipe stays with the `Popen` until `close`. -/
def pythonDrain : Loop UInt8 where
  Answer := Except Python.PyError Nat
  size := 65536
  eager := false
  goesOn _ answer := answer.isOk
  closes := false
  size_pos := by decide

/-- What `OutputStream.write` may throw. -/
inductive Throwable where
  | ioException
  /-- It ends the thread. -/
  | unchecked
  deriving DecidableEq

/-- `drainStderr` of `DirectTransport`. -/
def javaDrainStderr : Loop UInt8 where
  Answer := Except Throwable Unit
  size := 64 * 1024
  eager := true
  goesOn _ answer := answer.isOk
  closes := false
  size_pos := by decide

/-- How `sink.write_all(&buf[..n])` comes back. -/
inductive WriteAll where
  | ok
  | err (e : Rust.IoError)
  | panicked
  deriving DecidableEq

/-- The thread that `DirectTransport::start` spawns.  Its closure owns `child_stderr`, which is
dropped when it returns or unwinds. -/
def rustDrain : Loop UInt8 where
  Answer := WriteAll
  size := 64 * 1024
  eager := true
  goesOn _ answer := answer = .ok
  closes := true
  size_pos := by decide

/-- The drivers that read a stderr themselves. -/
inductive Driver where
  | go
  | python
  | java
  | rust

def Driver.loop : Driver → Loop UInt8
  | go => goCopy
  | python => pythonDrain
  | java => javaDrainStderr
  | rust => rustDrain

/-! ## Draining -/

/-- In every run from the start.  While the sink takes what it is given, no read fails and
nothing closes the reading end under the loop: the loop has not given up, nothing is lost or
out of order, the child gets on with what it has to write, and behind its end the loop comes
to the end of the file.  Where nothing else closes the reading end, the loop has given up
exactly if the sink or a read has failed; from then on nothing more is read, and either a
child with more than the pipe holds never gets through or the loop has closed its end and
every write of the child is refused. -/
def DrainsWhileGood (L : Loop UInt8) : Prop :=
  ∀ (capacity : ℕ) (output : List UInt8) (es : List (Event L)) (s : State UInt8), 0 < capacity →
    Run (Step L capacity) (start output) es s →
      ((∀ e ∈ es, e.Fine) → s.stage ≠ .stopped ∧ s.all = output ∧
        (s.closed = false → s.left ≠ [] → ∃ (more : List (Event L)) (t : State UInt8),
          Run (Step L capacity) s more t ∧ (∀ e ∈ more, e.Fine) ∧ t.left = s.left.tail) ∧
        (s.closed = true → ∃ t, Drains L capacity s t ∧ t.stage = .ended)) ∧
      ((∀ unread, .cut unread ∉ es) → (s.stage = .stopped ↔ ∃ e ∈ es, ¬ e.Fine) ∧
        (s.stage = .stopped → ∀ (more : List (Event L)) (t : State UInt8), Run (Step L capacity) s more t →
          (∀ unread, .cut unread ∉ more) → t.stage = .stopped ∧ t.taken = s.taken ∧
            (L.closes = false → capacity < s.left.length + s.pipe.length → t.left ≠ []) ∧
            (L.closes = true → t.closed = false → t.left ≠ [] →
              ∃ u, Step L capacity t (.refused 1) u ∧ u.left = t.left.tail)))

theorem start_open (output : List UInt8) : Open (start output) := ⟨nofun, fun _ => rfl⟩

theorem drains_while_good {L : Loop UInt8} (answers : ∀ chunk, ∃ answer, L.goesOn chunk answer = true) :
    DrainsWhileGood L := by
  intro capacity output es s holds run
  have fresh : Sound L capacity (start output) := start_sound output
  have opened := start_open output
  have sound : Sound L capacity s := run_sound fresh run
  refine ⟨fun fine => ?_, fun uncut => ⟨stopped_iff fresh opened run uncut, ?_⟩⟩
  · obtain ⟨still, all⟩ := run_open fresh opened run fine
    exact ⟨still.going, all, gets_on answers holds sound still, comes_to_end answers sound still⟩
  · intro stopped more t rest unmoved
    have kept := run_stopped stopped rest
    have closes : s.cut = (L.closes && s.stage.over) := run_cut (Bool.and_false _).symm run uncut
    rw [stopped, Stage.over, Bool.and_true] at closes
    refine ⟨kept.stopped, kept.taken, fun leaves full => ?_, fun drops live unread => ?_⟩
    · exact starved sound stopped (closes.trans leaves) full rest unmoved
    · exact refuses (kept.cut (closes.trans drops)) live unread

/-- The four drivers drain stderr up to the end of the file exactly while the sink takes it and the
pipe can be read. -/
theorem stderr_drained (driver : Driver) : DrainsWhileGood driver.loop := by
  cases driver with
  | go =>
      refine drains_while_good fun chunk => ⟨((chunk.length : Int), none), ?_⟩
      simp [Driver.loop, goCopy, copyGoesOn]
  | python => exact drains_while_good fun _ => ⟨.ok 0, rfl⟩
  | java => exact drains_while_good fun _ => ⟨.ok (), rfl⟩
  | rust => exact drains_while_good fun _ => ⟨.ok, rfl⟩

/-! ## A sink that fails -/

/-- The capacity of a pipe, 64 KiB. -/
def pipeCapacity : ℕ := 65536

/-- A run in which the sink fails once, no read fails and nothing else closes the pipe: the loop
gives up before the child is through. -/
structure GivesUp (L : Loop UInt8) (es : List (Event L)) (s : State UInt8) : Prop where
  run : ∃ output, Run (Step L pipeCapacity) (start output) es s
  reads : .failed ∉ es
  uncut : ∀ unread, .cut unread ∉ es
  stopped : s.stage = .stopped
  unfinished : s.closed = false ∧ s.left ≠ []

/-- The loop gives up, with a child that has more to write than ever fits into the pipe. -/
def Strands (L : Loop UInt8) : Prop :=
  ∃ (es : List (Event L)) (s : State UInt8), GivesUp L es s ∧
    ∀ (more : List (Event L)) (t : State UInt8), Run (Step L pipeCapacity) s more t →
      (∀ unread, .cut unread ∉ more) → t.left ≠ []

/-- The loop gives up, and all that the child has still to write is refused. -/
def Refuses (L : Loop UInt8) : Prop :=
  ∃ (es : List (Event L)) (s : State UInt8), GivesUp L es s ∧ s.cut = true ∧
    ∀ (more : List (Event L)) (t : State UInt8), Run (Step L pipeCapacity) s more t → t.taken = s.taken

/-- A child that writes a chunk and more than the pipe holds, and a sink that does not take it. -/
theorem gives_up_full {L : Loop UInt8} {answer : L.Answer} (fits : L.size ≤ pipeCapacity)
    (bad : L.goesOn (List.replicate L.size 0) answer = false) :
    ∃ es, GivesUp L es ⟨List.replicate (pipeCapacity + 1) 0, [], false, L.closes, .stopped, []⟩ := by
  have size : (List.replicate L.size (0 : UInt8)).length = L.size := List.length_replicate
  obtain ⟨es, run, reads, uncut⟩ :=
    @gives_up _ L pipeCapacity _ (List.replicate (pipeCapacity + 1) 0) answer size (size.trans_le fits) bad
  exact ⟨es, ⟨_, run⟩, reads, uncut, rfl, rfl, List.cons_ne_nil _ _⟩

theorem strands {L : Loop UInt8} {answer : L.Answer} (fits : L.size ≤ pipeCapacity) (leaves : L.closes = false)
    (bad : L.goesOn (List.replicate L.size 0) answer = false) : Strands L := by
  obtain ⟨es, up⟩ := gives_up_full fits bad
  obtain ⟨output, run⟩ := up.run
  refine ⟨es, _, up, fun more t rest uncut => ?_⟩
  refine starved (run_sound (start_sound output) run) rfl leaves ?_ rest uncut
  rw [List.length_replicate]
  exact Nat.lt_succ_self _

theorem refuses_rest {L : Loop UInt8} {answer : L.Answer} (fits : L.size ≤ pipeCapacity) (drops : L.closes = true)
    (bad : L.goesOn (List.replicate L.size 0) answer = false) : Refuses L := by
  obtain ⟨es, up⟩ := gives_up_full fits bad
  exact ⟨es, _, up, drops, fun more t rest => (run_stopped rfl rest).taken⟩

/-- In each of the four drivers one failed write of the sink ends the loop before the end of the
file: in three of them the child stays blocked, in the fourth its writes fail. -/
theorem failing_sink_strands : Strands Driver.go.loop ∧ Strands Driver.python.loop ∧
    Strands Driver.java.loop ∧ Refuses Driver.rust.loop := by
  exact ⟨@strands goCopy (0, some []) (by decide) rfl (copyGoesOn_error (List.replicate goCopy.size 0) 0 []),
    @strands pythonDrain (.error (.osError [])) (by decide) rfl rfl,
    @strands javaDrainStderr (.error .ioException) (by decide) rfl rfl,
    @refuses_rest rustDrain (.err ⟨.other, "sink closed"⟩) (by decide) rfl rfl⟩

end SanDbOxFormal.Protocol.StderrDrains
