import SanDbOxFormal.Protocol.StderrDrains

/-!
# The stderr of a Go child at `Close`

`Direct.Close` beside the goroutine that drains stderr: `cmd.Wait` closes the reading end of
the pipe once the child has exited, whatever the goroutine has read by then, and `Close`
returns when both are through.  What the shutdown does to the child is left open: the child
may exit at any time, with anything unwritten.
-/

namespace SanDbOxFormal.Go.StderrAtClose

open SanDbOxFormal.Library.Draining
open SanDbOxFormal.Library.Runs
open SanDbOxFormal.Protocol.StderrDrains

structure Direct where
  /-- The pipe of stderr, its child and the goroutine. -/
  drain : Library.Draining.State UInt8
  /-- `cmd.Wait` runs, in a goroutine of `Close`. -/
  waiting : Bool
  /-- It has returned, and has closed the pipe. -/
  done : Bool
  returned : Bool

namespace Direct

/-- A child that would write `output`. -/
def start (output : List UInt8) : Direct := ⟨Library.Draining.start output, false, false, false⟩

inductive Event where
  /-- A step of the child or of the goroutine. -/
  | drain (e : Library.Draining.Event goCopy) (other : ∀ unread, e ≠ .cut unread)
  /-- `Close` is called. -/
  | close
  /-- `cmd.Wait` returns, with so much in the pipe that it closes. -/
  | waited (unread : List UInt8)
  /-- `Close` returns, behind `<-done` and `<-d.stderrDone`. -/
  | returned

inductive Step (capacity : ℕ) : Direct → Event → Direct → Prop where
  | drain {d : Direct} {e : Library.Draining.Event goCopy} {s : Library.Draining.State UInt8}
      (other : ∀ unread, e ≠ .cut unread) (step : Library.Draining.Step goCopy capacity d.drain e s) :
      Step capacity d (.drain e other) { d with drain := s }
  | close {d : Direct} : Step capacity d .close { d with waiting := true }
  | waited {d : Direct} {unread : List UInt8} {s : Library.Draining.State UInt8}
      (waiting : d.waiting = true) (exited : d.drain.closed = true)
      (step : Library.Draining.Step goCopy capacity d.drain (.cut unread) s) :
      Step capacity d (.waited unread) { d with drain := s, done := true }
  | returned {d : Direct} (done : d.done = true) (through : d.drain.stage.over = true) :
      Step capacity d .returned { d with returned := true }

variable {capacity : ℕ} {output : List UInt8} {d : Direct} {es : List Event}

/-- The sink never fails. -/
def Event.Good : Event → Prop
  | .drain e _ => e.Good
  | _ => True

/-- What the child has written. -/
def written (output : List UInt8) (d : Direct) : List UInt8 := output.take (output.length - d.drain.left.length)

/-- What every run keeps: the bytes are in order, and `Close` returns behind both. -/
structure Kept (capacity : ℕ) (output : List UInt8) (d : Direct) : Prop where
  sound : Library.Draining.Sound goCopy capacity d.drain
  exited : d.drain.cut = true → d.drain.closed = true
  all : d.drain.all = output
  returned : d.returned = true → d.done = true ∧ d.drain.stage.over = true

theorem drain_all {s t : Library.Draining.State UInt8} {e : Library.Draining.Event goCopy}
    (sound : Library.Draining.Sound goCopy capacity s) (step : Library.Draining.Step goCopy capacity s e t)
    (exited : s.cut = true → s.closed = true) (good : e.Good) : t.all = s.all := by
  refine run_all rfl sound (.single step) (List.forall_mem_singleton.mpr good) fun n inside => ?_
  obtain rfl := List.mem_singleton.mp inside
  cases step with
  | refused some has live deaf =>
      rw [exited deaf] at live
      cases live

/-- The goroutine does not close the pipe, and who has exited stays so. -/
theorem drain_exited {s t : Library.Draining.State UInt8} {e : Library.Draining.Event goCopy}
    (step : Library.Draining.Step goCopy capacity s e t) (other : ∀ unread, e ≠ .cut unread)
    (exited : s.cut = true → s.closed = true) : t.cut = true → t.closed = true := by
  have same {stage : Stage UInt8} : (s.finish goCopy stage).cut = s.cut := Bool.or_false _
  cases step with
  | put => exact exited
  | close => exact fun _ => rfl
  | refused => exact exited
  | read => exact exited
  | failed => exact fun is => exited (same.symm.trans is)
  | eof =>
      split
      · exact fun is => exited (same.symm.trans is)
      · exact exited
  | wrote =>
      split
      · exact exited
      · exact fun is => exited (same.symm.trans is)
  | cut => exact absurd rfl (other _)
  | broken => exact fun is => exited (same.symm.trans is)

/-- A loop that is over takes no step of its own. -/
theorem drain_over {s t : Library.Draining.State UInt8} {e : Library.Draining.Event goCopy}
    (step : Library.Draining.Step goCopy capacity s e t) (through : s.stage.over = true) :
    t.stage.over = true := by
  have busy {stage : Stage UInt8} (is : s.stage = stage) (other : stage.over = false) : False := by
    rw [is, other] at through
    cases through
  cases step with
  | put => exact through
  | close => exact through
  | refused => exact through
  | read stage => exact (busy stage rfl).elim
  | failed stage => exact (busy stage rfl).elim
  | eof stage => exact (busy stage rfl).elim
  | wrote stage => exact (busy stage rfl).elim
  | cut => exact through
  | broken stage => exact (busy stage rfl).elim

theorem step_kept {d' : Direct} {e : Event} (kept : Kept capacity output d)
    (step : Step capacity d e d') (good : e.Good) : Kept capacity output d' := by
  cases step with
  | drain other step =>
      refine ⟨step_sound kept.sound step, drain_exited step other kept.exited,
        (drain_all kept.sound step kept.exited good).trans kept.all, fun is => ?_⟩
      obtain ⟨done, through⟩ := kept.returned is
      exact ⟨done, drain_over step through⟩
  | close => exact ⟨kept.sound, kept.exited, kept.all, kept.returned⟩
  | waited waiting exited step =>
      refine ⟨step_sound kept.sound step, fun _ => ?_,
        (drain_all kept.sound step kept.exited trivial).trans kept.all, fun is => ?_⟩
      · cases step with
        | cut => exact exited
      exact ⟨rfl, drain_over step (kept.returned is).2⟩
  | returned done through => exact ⟨kept.sound, kept.exited, kept.all, fun _ => ⟨done, through⟩⟩

theorem run_kept (run : Run (Step capacity) (start output) es d) (good : ∀ e ∈ es, e.Good) :
    Kept capacity output d := by
  refine (run.with_labels good).invariant (P := Kept capacity output)
    (fun _ _ _ kept step => step_kept kept step.1 step.2) ⟨start_sound output, nofun, rfl, nofun⟩

/-! ## What `Wait` leaves in the pipe -/

/-- Nothing goes into a pipe whose reading end is closed, and nothing comes out. -/
theorem step_cut {d' : Direct} {e : Event} (cut : d.drain.cut = true) (step : Step capacity d e d') :
    d'.drain.cut = true ∧ d'.drain.pipe = d.drain.pipe := by
  have opened {P : Prop} (is : d.drain.cut = false) : P := by
    rw [is] at cut
    cases cut
  cases step with
  | close => exact ⟨cut, rfl⟩
  | returned => exact ⟨cut, rfl⟩
  | waited waiting exited step =>
      cases step with
      | cut is => exact opened is
  | drain other step =>
      cases step with
      | put some has live heard room => exact opened heard
      | close => exact ⟨cut, rfl⟩
      | refused => exact ⟨cut, rfl⟩
      | read stage is => exact opened is
      | failed stage is => exact opened is
      | eof stage is => exact opened is
      | wrote stage =>
          split
          · exact ⟨cut, rfl⟩
          · exact ⟨Bool.or_eq_true_iff.mpr (.inl cut), rfl⟩
      | cut is => exact opened is
      | broken stage is => exact ⟨Bool.or_eq_true_iff.mpr (.inl cut), rfl⟩

theorem waited_pipe {s : Direct} {unread : List UInt8} (run : Run (Step capacity) s es d)
    (inside : .waited unread ∈ es) : d.drain.pipe = unread := by
  obtain ⟨before, after, first, last, step, _, _, rest⟩ := run.visits inside
  have closed : after.drain.cut = true ∧ after.drain.pipe = unread := by
    cases step with
    | waited waiting exited step =>
        cases step with
        | cut => exact ⟨rfl, rfl⟩
  have kept := rest.invariant (P := fun d => d.drain.cut = true ∧ d.drain.pipe = unread)
    (fun d e d' held step => (step_cut held.1 step).imp id (·.trans held.2)) closed
  exact kept.2

/-- `Wait` has returned only if it did. -/
theorem done_waited {s : Direct} (run : Run (Step capacity) s es d) (before : s.done = false)
    (done : d.done = true) : ∃ unread, .waited unread ∈ es := by
  by_contra never
  have each : ∀ e ∈ es, ∀ unread, e ≠ .waited unread := fun e inside unread is =>
    never ⟨unread, is ▸ inside⟩
  have still := (run.with_labels each).invariant (P := fun d => d.done = false)
    (fun d e d' same step => by
      obtain ⟨step, other⟩ := step
      cases step with
      | waited => exact absurd rfl (other _)
      | _ => exact same) before
  rw [still] at done
  cases done

theorem over_inHand {stage : Stage UInt8} (through : stage.over = true) : stage.inHand = [] := by
  cases stage with
  | ended => rfl
  | stopped => rfl
  | reading held => cases through
  | writing chunk => cases through

end Direct

open Direct

/-- When `Close` has returned, a sink that never fails has the first of the bytes that the
child wrote, and all of them exactly if `Wait` found the pipe empty. -/
theorem stderr_at_close (capacity : ℕ) (output : List UInt8) (es : List Event) (d : Direct)
    (run : Run (Step capacity) (start output) es d) (good : ∀ e ∈ es, e.Good) (returned : d.returned = true) :
    d.drain.taken <+: d.written output ∧
      (d.drain.taken = d.written output ↔ ∀ unread, .waited unread ∈ es → unread = []) := by
  have kept := run_kept run good
  obtain ⟨done, through⟩ := kept.returned returned
  have shape : d.drain.taken ++ d.drain.pipe ++ d.drain.left = output := by
    have all := kept.all
    rwa [State.all, over_inHand through, List.append_nil] at all
  have wrote : d.written output = d.drain.taken ++ d.drain.pipe := by
    rw [written, ← shape, List.length_append, Nat.add_sub_cancel, List.take_left]
  rw [wrote]
  refine ⟨List.prefix_append _ _, ?_⟩
  rw [List.self_eq_append_right]
  constructor
  · intro empty unread inside
    rw [← waited_pipe run inside, empty]
  · intro each
    obtain ⟨unread, inside⟩ := done_waited run rfl done
    rw [waited_pipe run inside, each unread inside]

/-- A child writes a byte and exits; the goroutine comes to the end of the file. -/
theorem stderr_at_close_read : ∃ (es : List Event) (d : Direct),
    Run (Step pipeCapacity) (start [0x21]) es d ∧ d.returned = true ∧ d.drain.taken = [0x21] ∧
      (d.drain.taken <+: d.written [0x21] ∧
        (d.drain.taken = d.written [0x21] ↔ ∀ unread, .waited unread ∈ es → unread = [])) := by
  have run : Run (Step pipeCapacity) (start [0x21])
      [.drain (.put 1) nofun, .drain (.read 1) nofun, .drain (.wrote [0x21] (1, none)) nofun,
        .drain .close nofun, .drain .eof nofun, .close, .waited [], .returned]
      ⟨⟨[], [], true, true, .ended, [0x21]⟩, true, true, true⟩ :=
    .cons (.drain _ (.put (by decide) (by decide) rfl rfl (by decide)))
      (.cons (.drain _ (.read rfl rfl (by decide) (by decide) (by decide)))
        (.cons (.drain _ (.wrote rfl)) (.cons (.drain _ .close) (.cons (.drain _ (.eof rfl rfl rfl rfl))
          (.cons .close (.cons (.waited rfl rfl (.cut rfl)) (.single (.returned rfl rfl))))))))
  have good : ∀ e ∈ [Direct.Event.drain (.put 1) nofun, .drain (.read 1) nofun,
      .drain (.wrote [0x21] (1, none)) nofun, .drain .close nofun, .drain .eof nofun, .close, .waited [],
      .returned], e.Good := by
    simp [Direct.Event.Good, Library.Draining.Event.Good, goCopy, copyGoesOn]
  exact ⟨_, _, run, rfl, rfl, stderr_at_close _ _ _ _ run good rfl⟩

/-- The child exits before the goroutine has read its byte, and `Wait` closes the pipe. -/
theorem stderr_lost : ∃ (es : List Event) (d : Direct), Run (Step pipeCapacity) (start [0x21]) es d ∧
    (∀ e ∈ es, e.Good) ∧ d.returned = true ∧ d.written [0x21] = [0x21] ∧ d.drain.taken = [] := by
  have run : Run (Step pipeCapacity) (start [0x21])
      [.drain (.put 1) nofun, .drain .close nofun, .close, .waited [0x21], .drain .broken nofun, .returned]
      ⟨⟨[], [0x21], true, true, .stopped, []⟩, true, true, true⟩ :=
    .cons (.drain _ (.put (by decide) (by decide) rfl rfl (by decide)))
      (.cons (.drain _ .close) (.cons .close (.cons (.waited rfl rfl (.cut rfl))
        (.cons (.drain _ (.broken rfl rfl)) (.single (.returned rfl rfl))))))
  refine ⟨_, _, run, ?_, rfl, rfl, rfl⟩
  simp [Direct.Event.Good, Library.Draining.Event.Good]

end SanDbOxFormal.Go.StderrAtClose
