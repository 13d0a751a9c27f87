import SanDbOxFormal.TypeScript.Owed

/-!
# Closing the transports of the TypeScript driver

`close` of both transports over the events of Node.  A stream that is destroyed emits
`close` and nothing else, and a child emits `close` once it has exited and its streams
are through.  The reader listens for `data`, `end` and `error` only.  Which reads a close gives
up is told from these events alone.
-/

namespace SanDbOxFormal.TypeScript

namespace Reads

/-- The events of the stream itself. -/
def Event.streamed : Event → Bool
  | .data _ | .ended | .failed _ => true
  | _ => false

/-- The events that end the source. -/
def Event.finishes : Event → Bool
  | .ended | .failed _ | .fail _ => true
  | _ => false

end Reads

inductive TransportEvent where
  /-- A callback of the source, a call of `readLine`, or its timer or signal. -/
  | reader (e : Reads.Event)
  | exit
  /-- `close` of the child, or of the stream. -/
  | closed
  /-- The call of `close`. -/
  | close
  /-- The timer of `afterDeadline`. -/
  | deadline

/-! ## DirectTransport -/

inductive DirectStage where
  | live
  /-- Stdin is at its end; the child has its time. -/
  | ended
  /-- The same, behind `SIGTERM`. -/
  | terminated
  /-- Behind `SIGKILL`. -/
  | killed
  /-- The child had exited before; its streams have their time. -/
  | flushing
  /-- `close` has settled, and the streams are destroyed. -/
  | destroyed
  deriving DecidableEq

structure DirectTransport where
  reads : Reads
  /-- Stdout has ended or failed, or the child could not be started. -/
  finished : Bool
  /-- `exitCode` or `signalCode` is there. -/
  exited : Bool
  /-- The child has emitted `close`. -/
  closed : Bool
  stage : DirectStage

/-- `await this.#closed` goes on. -/
def DirectStage.awaited : DirectStage → DirectStage
  | live => live
  | _ => destroyed

namespace DirectTransport

def start : DirectTransport := ⟨.start, false, false, false, .live⟩

def step (t : DirectTransport) : TransportEvent → DirectTransport
  | .reader e =>
      if t.stage = .destroyed ∧ e.streamed then t
      else { t with reads := t.reads.step e, finished := t.finished || e.finishes }
  | .exit => { t with exited := true }
  | .closed =>
      if t.exited && t.finished then { t with closed := true, stage := t.stage.awaited }
      else t
  | .close =>
      if t.stage ≠ .live then t
      else if !t.exited then { t with stage := .ended }
      else { t with stage := if t.closed then .destroyed else .flushing }
  | .deadline =>
      match t.stage with
      | .ended => { t with stage := .terminated }
      | .terminated => { t with stage := .killed }
      | .flushing => { t with stage := .destroyed }
      | _ => t

end DirectTransport

/-! ## SocketTransport -/

inductive SocketStage where
  | live
  /-- `stream.end()` is behind it. -/
  | ended
  | settled
  deriving DecidableEq

structure SocketTransport where
  reads : Reads
  destroyed : Bool
  stage : SocketStage

namespace SocketTransport

def start : SocketTransport := ⟨.start, false, .live⟩

/-- Node destroys a stream behind its end or its error; the owner of a stream that was
handed in may do so at any time. -/
def step (t : SocketTransport) : TransportEvent → SocketTransport
  | .reader e => if t.destroyed ∧ e.streamed then t else { t with reads := t.reads.step e }
  | .exit => t
  | .closed => { t with destroyed := true, stage := if t.stage = .ended then .settled else t.stage }
  | .close =>
      if t.stage ≠ .live then t else { t with stage := if t.destroyed then .settled else .ended }
  | .deadline => if t.stage = .ended then { t with destroyed := true, stage := .settled } else t

end SocketTransport

/-! ## Either transport -/

inductive Transport where
  | direct (t : DirectTransport)
  | socket (t : SocketTransport)

inductive Kind where
  | direct
  | socket
  deriving DecidableEq

namespace Transport

def start : Kind → Transport
  | .direct => .direct .start
  | .socket => .socket .start

def step : Transport → TransportEvent → Transport
  | direct t, e => .direct (t.step e)
  | socket t, e => .socket (t.step e)

def run (t : Transport) (events : List TransportEvent) : Transport := events.foldl step t

def reads : Transport → Reads
  | direct t => t.reads
  | socket t => t.reads

/-- The promise of `close` has settled. -/
def settled : Transport → Bool
  | direct t => t.stage = .destroyed
  | socket t => t.stage = .settled

/-- No read waits, and every read so far is settled. -/
def Quiet (t : Transport) : Prop :=
  t.reads.reader.waiters = [] ∧
    ∀ call < t.reads.calls, ∃ outcome, (call, outcome) ∈ t.reads.settled

/-- Whether an event that settles `close` is not one that the reader hears, nor comes behind
one: the time for the streams of a child that had exited is up; and for a socket always. -/
def unheard : Kind → TransportEvent → Bool
  | .direct, .deadline => true
  | .direct, _ => false
  | .socket, _ => true

/-- What the reader is told until `close` settles: nothing from a stream that was destroyed. -/
def heard (kind : Kind) : Bool → List TransportEvent → List Reads.Event
  | _, [] => []
  | gone, .reader e :: rest => if gone && e.streamed then heard kind gone rest else e :: heard kind gone rest
  | gone, .closed :: rest => heard kind (gone || kind = .socket) rest
  | gone, .exit :: rest => heard kind gone rest
  | gone, .close :: rest => heard kind gone rest
  | gone, .deadline :: rest => heard kind gone rest

/-- By that event `close` gives up a source that goes on, while more reads stand than lines
have come. -/
def Forsakes (kind : Kind) (events : List TransportEvent) (e : TransportEvent) : Prop :=
  unheard kind e = true ∧ (Account.start.run (heard kind false events)).Owes

/-! ## Runs -/

/-- What every run keeps. -/
structure Sound (t : Transport) : Prop where
  books : t.reads.Sound
  direct : ∀ d, t = .direct d →
    (d.finished = true → d.reads.reader.terminal.isSome = true) ∧ (d.closed = true → d.finished = true)

end Transport

theorem Reads.step_over {s : Reads} (sound : s.Sound) (event : Event)
    (ended : s.reader.terminal.isSome = true) : (s.step event).reader.terminal.isSome = true := by
  obtain ⟨err, terminal⟩ := Option.isSome_iff_exists.mp ended
  exact Option.isSome_iff_exists.mpr ⟨err, (run_ended sound terminal [event]).1⟩

theorem Reads.step_finishes {s : Reads} (sound : s.Sound) {event : Event}
    (finishes : event.finishes = true) : (s.step event).reader.terminal.isSome = true := by
  cases event with
  | ended => exact (terminate_flow sound eof).2
  | failed err => exact (terminate_flow sound err).2
  | fail err => exact (terminate_flow sound err).2
  | _ => cases finishes

namespace Transport

theorem step_sound {t : Transport} (sound : t.Sound) (e : TransportEvent) : (t.step e).Sound := by
  obtain ⟨books, direct⟩ := sound
  cases t with
  | socket t =>
      refine ⟨?_, nofun⟩
      cases e with
      | reader e =>
          rw [step, SocketTransport.step]
          split
          · exact books
          · exact books.step e
      | exit => exact books
      | closed => exact books
      | close =>
          rw [step, SocketTransport.step]
          split <;> exact books
      | deadline =>
          rw [step, SocketTransport.step]
          split <;> exact books
  | direct d =>
      obtain ⟨finished, closed⟩ := direct d rfl
      cases e with
      | reader e =>
          rw [step, DirectTransport.step]
          split
          · exact ⟨books, direct⟩
          · refine ⟨books.step e, ?_⟩
            rintro _ ⟨rfl⟩
            refine ⟨fun ends => ?_, fun is => by simp [closed is]⟩
            rcases Bool.or_eq_true_iff.mp ends with before | now
            · exact Reads.step_over books e (finished before)
            · exact Reads.step_finishes books now
      | exit => exact ⟨books, fun _ same => by cases same; exact ⟨finished, closed⟩⟩
      | closed =>
          rw [step, DirectTransport.step]
          split
          · rename_i through
            refine ⟨books, ?_⟩
            rintro _ ⟨rfl⟩
            exact ⟨finished, fun _ => (Bool.and_eq_true_iff.mp through).2⟩
          · exact ⟨books, direct⟩
      | close =>
          rw [step, DirectTransport.step]
          split_ifs
          · exact ⟨books, direct⟩
          · exact ⟨books, fun _ same => by cases same; exact ⟨finished, closed⟩⟩
          · exact ⟨books, fun _ same => by cases same; exact ⟨finished, closed⟩⟩
          · exact ⟨books, fun _ same => by cases same; exact ⟨finished, closed⟩⟩
      | deadline =>
          rw [step, DirectTransport.step]
          split <;> exact ⟨books, fun _ same => by cases same; exact ⟨finished, closed⟩⟩

def kind : Transport → Kind
  | direct _ => .direct
  | socket _ => .socket

/-- The stream was destroyed before `close` settles, as only a socket can be. -/
def gone : Transport → Bool
  | direct _ => false
  | socket t => t.destroyed

theorem step_settled {t : Transport} (settled : t.settled = true) (e : TransportEvent) :
    (t.step e).settled = true := by
  cases t with
  | direct d =>
      have stage : d.stage = .destroyed := of_decide_eq_true settled
      apply decide_eq_true
      cases e with
      | reader e => rw [DirectTransport.step]; split <;> exact stage
      | exit => exact stage
      | closed =>
          rw [DirectTransport.step]
          split
          · rw [stage]
            rfl
          · exact stage
      | close => rw [DirectTransport.step, if_pos (by rw [stage]; decide)]; exact stage
      | deadline =>
          rw [DirectTransport.step, stage]
          exact stage
  | socket t =>
      have stage : t.stage = .settled := of_decide_eq_true settled
      apply decide_eq_true
      cases e with
      | reader e => rw [SocketTransport.step]; split <;> exact stage
      | exit => exact stage
      | closed => rw [SocketTransport.step, stage]; rfl
      | close => rw [SocketTransport.step, if_pos (by rw [stage]; decide)]; exact stage
      | deadline => rw [SocketTransport.step, if_neg (by rw [stage]; decide)]; exact stage

theorem run_unsettled {t : Transport} {events : List TransportEvent} (last : (t.run events).settled = false) :
    t.settled = false := by
  induction events generalizing t with
  | nil => exact last
  | cons e rest ih =>
      by_contra before
      have next := ih last
      rw [step_settled (Bool.not_eq_false _ ▸ before) e] at next
      cases next

theorem run_heard {t : Transport} {events : List TransportEvent} (last : (t.run events).settled = false) :
    (t.run events).reads = t.reads.run (heard t.kind t.gone events) := by
  induction events generalizing t with
  | nil => rfl
  | cons e rest ih =>
      have next : (t.run (e :: rest)).reads = _ := ih (t := t.step e) last
      have before : t.settled = false := run_unsettled last
      have now : (t.step e).settled = false := run_unsettled last
      rw [next]
      cases t with
      | direct d =>
          rw [settled, decide_eq_false_iff_not] at before
          cases e with
          | reader e =>
              have told : d.step (.reader e) =
                  { d with reads := d.reads.step e, finished := d.finished || e.finishes } :=
                if_neg fun both => before both.1
              rw [step, told]
              rfl
          | exit => rfl
          | closed => rw [step, DirectTransport.step]; split <;> rfl
          | close => rw [step, DirectTransport.step]; split_ifs <;> rfl
          | deadline => rw [step, DirectTransport.step]; split <;> rfl
      | socket t =>
          cases e with
          | reader e =>
              rw [step, SocketTransport.step, heard]
              by_cases lost : t.destroyed = true ∧ e.streamed = true
              · rw [if_pos lost, if_pos (by simpa [gone] using lost)]
              · rw [if_neg lost, if_neg (by simpa [gone] using lost)]
                rfl
          | exit => rfl
          | closed =>
              rw [heard]
              simp [step, SocketTransport.step, kind, gone, reads]
          | close => rw [step, SocketTransport.step]; split <;> rfl
          | deadline =>
              have going : t.stage ≠ .ended := by
                intro ended
                rw [step, SocketTransport.step, if_pos ended] at now
                cases now
              rw [step, SocketTransport.step, if_neg going]
              rfl

theorem start_sound (kind : Kind) : (start kind).Sound := by
  cases kind with
  | direct => exact ⟨Reads.start_sound, fun _ same => by cases same; exact ⟨nofun, nofun⟩⟩
  | socket => exact ⟨Reads.start_sound, nofun⟩

theorem run_sound {t : Transport} (sound : t.Sound) (events : List TransportEvent) :
    (t.run events).Sound := by
  induction events generalizing t with
  | nil => exact sound
  | cons e rest ih => exact ih (step_sound sound e)

/-- The step that settles `close` leaves the reads alone; what ends a child's own stream
before has been heard. -/
theorem settles_cases {t : Transport} {e : TransportEvent} (sound : t.Sound)
    (unsettled : t.settled = false) (settles : (t.step e).settled = true) :
    (t.step e).reads = t.reads ∧ (unheard t.kind e = false → t.reads.reader.terminal.isSome = true) := by
  cases t with
  | socket t =>
      refine ⟨?_, nofun⟩
      rw [settled, decide_eq_false_iff_not] at unsettled
      cases e with
      | reader e =>
          rw [step, SocketTransport.step] at settles
          split at settles <;> exact absurd (of_decide_eq_true settles) unsettled
      | exit => rfl
      | closed => rfl
      | close =>
          rw [step, SocketTransport.step]
          split <;> rfl
      | deadline =>
          rw [step, SocketTransport.step]
          split <;> rfl
  | direct d =>
      obtain ⟨finished, closed⟩ := sound.direct d rfl
      rw [settled, decide_eq_false_iff_not] at unsettled
      cases e with
      | reader e =>
          rw [step, DirectTransport.step] at settles
          split at settles <;> exact absurd (of_decide_eq_true settles) unsettled
      | exit => exact absurd (of_decide_eq_true settles) unsettled
      | closed =>
          rw [step, DirectTransport.step] at settles ⊢
          split at settles
          · rename_i through
            rw [if_pos through]
            exact ⟨rfl, fun _ => finished (Bool.and_eq_true_iff.mp through).2⟩
          · exact absurd (of_decide_eq_true settles) unsettled
      | close =>
          rw [step, DirectTransport.step] at settles ⊢
          split_ifs at settles ⊢ with begun running done
          · exact absurd (of_decide_eq_true settles) unsettled
          · exact absurd settles Bool.false_ne_true
          · exact ⟨rfl, fun _ => finished (closed done)⟩
          · exact absurd settles Bool.false_ne_true
      | deadline =>
          refine ⟨?_, nofun⟩
          rw [step, DirectTransport.step]
          split <;> rfl

theorem quiet_iff {t : Transport} (sound : t.Sound) : t.Quiet ↔ t.reads.reader.waiters = [] := by
  refine ⟨And.left, fun idle => ⟨idle, fun call called => ?_⟩⟩
  have known := sound.books.once.mem_iff.mpr (List.mem_range.mpr called)
  rw [idle, List.append_nil] at known
  obtain ⟨⟨_, outcome⟩, inside, rfl⟩ := List.mem_map.mp known
  exact ⟨outcome, inside⟩

theorem start_kind (kind : Kind) : (start kind).kind = kind ∧ (start kind).gone = false ∧
    (start kind).reads = .start := by
  cases kind <;> exact ⟨rfl, rfl, rfl⟩

theorem run_kind (t : Transport) (events : List TransportEvent) : (t.run events).kind = t.kind := by
  induction events generalizing t with
  | nil => rfl
  | cons e rest ih => exact (ih (t.step e)).trans (by cases t <;> rfl)

/-- When `close` settles, every read is settled, unless it forsakes one. -/
theorem close_settles_iff (kind : Kind) (events : List TransportEvent) (e : TransportEvent)
    (unsettled : ((start kind).run events).settled = false)
    (settles : (((start kind).run events).step e).settled = true) :
    (((start kind).run events).step e).Quiet ↔ ¬ Forsakes kind events e := by
  have sound := run_sound (start_sound kind) events
  obtain ⟨same, ends⟩ := settles_cases sound unsettled settles
  obtain ⟨which, whole, none⟩ := start_kind kind
  have told := run_heard unsettled
  rw [which, whole, none] at told
  rw [run_kind, which] at ends
  rw [quiet_iff (step_sound sound e), same, Forsakes, Account.run_owes_iff, ← told]
  constructor
  · rintro idle ⟨_, _, waits⟩
    exact waits idle
  · intro kept
    by_contra waits
    have running : ((start kind).run events).reads.reader.terminal = Option.none := by
      by_contra ended
      exact waits (sound.books.ended (Option.isSome_iff_ne_none.mpr ended))
    refine kept ⟨?_, running, waits⟩
    by_contra quiet
    have ended := ends (Bool.eq_false_iff.mpr quiet)
    rw [running] at ended
    cases ended

/-- A read is pending when the peer ends its side. -/
theorem close_settles_ended :
    (((start .socket).run [.reader (.readLine false none), .close, .reader .ended]).step .closed).Quiet :=
  (close_settles_iff .socket [.reader (.readLine false none), .close, .reader .ended] .closed
    (by decide) (by decide)).mpr fun forsaken => Bool.noConfusion forsaken.2.1

/-- The peer does not end its side. -/
theorem close_forsakes : ¬ ∀ (kind : Kind) (events : List TransportEvent) (e : TransportEvent),
    ((start kind).run events).settled = false →
    (((start kind).run events).step e).settled = true →
    (((start kind).run events).step e).Quiet := by
  intro quiet
  have idle := (quiet .socket [.reader (.readLine false none), .close] .deadline (by decide) (by decide)).1
  revert idle
  decide

end Transport

end SanDbOxFormal.TypeScript
