import SanDbOxFormal.Go.Marshal
import SanDbOxFormal.Go.Response
import SanDbOxFormal.Library.Pump
import SanDbOxFormal.Library.Turns
import SanDbOxFormal.Library.Wire

/-!
# Sessions of the Go driver

The `session` of `sandbox.go` with the goroutines that use it: any number of callers, each
with a context of its own, and `readLoop`, whose lines go through a channel of capacity
one.  A step is what one goroutine does between two points at which another may run: a
caller takes the mutex, writes its request, or comes out of the `select`.
-/

namespace SanDbOxFormal.Go

open SanDbOxFormal.Library
open SanDbOxFormal.Library.Runs
open SanDbOxFormal.Library.Turns (getElem?_set_cases getElem?_append_cases)
open SanDbOxFormal.Library.Segments (complete)

/-! ## What readLoop reads -/

/-- The lines that are still to come, and the error behind them. -/
structure Lines where
  rest : List (List UInt8)
  cause : Cause
  deriving DecidableEq

/-- The next item that `readLoop` sends. -/
def Lines.next (l : Lines) : Except Cause (List UInt8) × Lines :=
  match l.rest with
  | line :: rest => (.ok line, { l with rest })
  | [] => (.error l.cause, l)

/-- What the scanner finds on a connection, `io.EOF` being the error where it has none. -/
def scanned (arriving : List (List UInt8)) (ending : Cause) : Lines :=
  let (rest, cause) := (newLineScanner arriving ending).readLoop
  ⟨rest, cause⟩

/-- However a connection is cut into reads, `readLoop` sends its tokens, and behind them what it
ended with, or that a line was too long. -/
theorem scanned_eq (arriving : List (List UInt8)) (ending : Cause) :
    scanned arriving ending =
      ⟨Scanner.tokens arriving.flatten, Scanner.cause ending arriving.flatten⟩ := by
  have read : (newLineScanner arriving ending).readLoop =
      (Scanner.tokens arriving.flatten, Scanner.cause ending arriving.flatten) :=
    Prod.ext (Scanner.readLoop_lines _) (Scanner.readLoop_cause _)
  rw [scanned, read]

def reading : Source Lines Cause (List UInt8) where
  next := Lines.next
  lines := Lines.rest
  line_next := by
    rintro ⟨rest, cause⟩ l' l read
    cases rest with
    | nil => cases read
    | cons line rest =>
        cases read
        rfl
  end_next := by
    rintro ⟨rest, cause⟩ l' e read
    cases rest with
    | nil => rfl
    | cons line rest => cases read

/-! ## Callers -/

/-- Where a goroutine is that has called a method: before `s.mu.Lock()`; with the mutex, behind
the check of `s.closed`, in the `select` of `readLine`, or in `Close` behind `s.closed = true`;
in `Overwrite`, behind a call that has succeeded; in the `Close` of the transport; or back. -/
inductive Stage where
  | called
  | entered
  | waiting
  | succeeded
  | leaving
  | closing
  | returned (outcome : Except GoError Reply)
  deriving DecidableEq

/-- The mutex is held from `Lock` to `Unlock`. -/
def Stage.holds : Stage → Bool
  | .entered | .waiting | .leaving => true
  | _ => false

/-- A call and the request that it makes; whether the channel of its `ctx.Done()` is closed; how
many request lines were on the wire before its own, once its write has gone through; and the
line that it received. -/
structure Caller where
  call : Call
  req : Request
  done : Bool
  stage : Stage
  own : Option ℕ
  took : Option (List UInt8)
  deriving DecidableEq

/-- A session: `pump` is `readLoop` with `s.lines`, `mu` who holds `s.mu`, and `torn` that a
`Close` of the transport has begun. -/
structure Session where
  wire : Wire UInt8
  pump : Pump Lines Cause (List UInt8)
  closed : Bool
  mu : Option ℕ
  torn : Bool
  callers : List Caller

namespace Session

/-- A session behind the hello line. -/
def start (pump : Pump Lines Cause (List UInt8)) : Session := ⟨.fresh, pump, false, none, false, []⟩

/-- `readLine` ends without an item when `ctx.Done()` is chosen. -/
def givenUp : Pump.Moment → Option Cause
  | .leave => some .context
  | _ => none

/-- What `newSession` makes of what it has read. -/
def checkHello : Except Cause (List UInt8) → Except GoError Hello
  | .error cause => .error (.wrap (lit "sandbox: reading hello line: ") (.std cause))
  | .ok line => do
      let hello ← (decodeHello line).mapError (.wrap (lit "sandbox: "))
      if hello.protocol = 1 then .ok hello
      else
        .error (.text (lit "sandbox: unsupported protocol " ++ ascii (toString hello.protocol.toInt).toList ++
          lit " (this driver speaks 1)"))

/-- `newSession`, whose read waits while the moments pass; on an error the transport is closed. -/
def newSession (lines : Lines) (moments : List Pump.Moment) : Option (Except GoError Hello × Session) :=
  match (Pump.start lines).wait reading givenUp moments with
  | none => none
  | some (item, pump) =>
      match checkHello (item.bind id) with
      | .ok hello => some (.ok hello, start pump)
      | .error e => some (.error e, { start pump with torn := true })

/-- The operation whose reply a call decodes. -/
def operation : Call → Operation
  | .query _ _ => .query
  | .exec _ _ => .exec
  | .snapshot _ => .snapshot
  | .load _ => .load
  | .inspect => .inspect
  | .tables => .tables
  | .schema _ => .schema
  | .dump _ => .dump
  | .overwrite => .overwrite
  | .close => .load

def readFailed (cause : Cause) : GoError := .wrap (lit "sandbox: reading response: ") (.std cause)

/-- What may happen: a method is called; the context of a caller is cancelled, or its deadline
comes; `readLoop` goes on; a caller takes the mutex; its write returns, with what went wrong; its
`select` goes on with the channel of lines, or with `ctx.Done()`; `Overwrite` sets `s.closed`; the
end of the connection reaches the reads; the `Close` of the transport returns. -/
inductive Event where
  | invoked (call : Call)
  | cancelled (i : ℕ)
  | turned
  | locked (i : ℕ)
  | wrote (i : ℕ) (fault : Option (Fault Cause))
  | received (i : ℕ)
  | expired (i : ℕ)
  | relocked (i : ℕ)
  | severed (lines : Lines)
  | finished (i : ℕ) (failure : Option GoError)

/-- A caller changes, and keeps the mutex or gives it back. -/
def put (s : Session) (i : ℕ) (g : Caller) : Session :=
  { s with callers := s.callers.set i g, mu := if g.stage.holds then some i else none }

/-- Behind `Lock`. -/
def enter (s : Session) (i : ℕ) (g : Caller) : Session :=
  if g.call = .close then
    if s.closed then s.put i { g with stage := .returned (.ok .done) }
    else { s with closed := true }.put i { g with stage := .leaving }
  else if s.closed then
    s.put i { g with stage := .returned (.error (.wrap (lit "sandbox: ") (.std .closedPipe))) }
  else s.put i { g with stage := .entered }

/-- `WriteRequest`. -/
def write (s : Session) (i : ℕ) (g : Caller) (fault : Option (Fault Cause)) : Session :=
  let written := s.wire.write fault g.req.line
  let own := (complete newline s.wire.accepted).length
  let s := { s with wire := written.2 }
  if g.stage = .leaving then { s with torn := true }.put i { g with stage := .closing }
  else
    match written.1 with
    | .ok () => s.put i { g with stage := .waiting, own := some own }
    | .error cause =>
        s.put i { g with
          stage := .returned (.error (.wrap (lit "sandbox: ") (.wrap (lit "writing request: ") (.std cause)))) }

/-- The end of `call`, and what the method makes of it. -/
def answer (std : Strconv) (s : Session) (i : ℕ) (g : Caller) (line : List UInt8) : Session :=
  let g := { g with took := some line }
  let outcome := receive std (operation g.call) line
  if g.call = .overwrite ∧ outcome = .ok .done then s.put i { g with stage := .succeeded }
  else s.put i { g with stage := .returned outcome }

/-- `call` behind an error of `readLine`: with its context done the connection is torn down. -/
def fail (s : Session) (i : ℕ) (g : Caller) (cause : Cause) : Session :=
  let s := if g.done then { s with closed := true, torn := true } else s
  s.put i { g with stage := .returned (.error (readFailed cause)) }

/-- What a call makes of the `Close` of the transport. -/
def ending (failure : Option GoError) : Except GoError Reply :=
  match failure with
  | some e => .error e
  | none => .ok .done

/-- One event, if it can happen. -/
def step (std : Strconv) (s : Session) : Event → Option Session
  | .invoked call =>
      match call.request std with
      | .error e =>
          some { s with callers := s.callers ++ [⟨call, .ofOp "", false, .returned (.error e), none, none⟩] }
      | .ok req => some { s with callers := s.callers ++ [⟨call, req, false, .called, none, none⟩] }
  | .cancelled i => do
      let g ← s.callers[i]?
      some { s with callers := s.callers.set i { g with done := true } }
  | .turned => some { s with pump := s.pump.turn reading }
  | .locked i => do
      let g ← s.callers[i]?
      if g.stage = .called ∧ s.mu = none then some (s.enter i g) else none
  | .wrote i fault => do
      let g ← s.callers[i]?
      if g.stage = .entered ∨ g.stage = .leaving then some (s.write i g fault) else none
  | .received i => do
      let g ← s.callers[i]?
      if g.stage ≠ .waiting then none
      else
        match s.pump.take? with
        | some (.ok line, pump) => some (answer std { s with pump } i g line)
        | some (.error cause, pump) => some (fail { s with pump } i g cause)
        | none =>
            match s.pump.stage with
            -- The channel is closed, and empty.
            | .finished _ => some (s.fail i g .closedPipe)
            | .running _ _ => none
  | .expired i => do
      let g ← s.callers[i]?
      if g.stage = .waiting ∧ g.done then some (s.fail i g .context) else none
  | .relocked i => do
      let g ← s.callers[i]?
      if g.stage = .succeeded ∧ s.mu = none then
        some ({ s with closed := true, torn := true }.put i { g with stage := .closing })
      else none
  | .severed lines =>
      if s.torn then some { s with pump := { s.pump with source := lines } } else none
  | .finished i failure => do
      let g ← s.callers[i]?
      if g.stage = .closing then
        some { s with
          callers := s.callers.set i { g with
            stage := .returned (ending failure) } }
      else none

/-- A run of a session. -/
abbrev Step (std : Strconv) (s : Session) (e : Event) (t : Session) : Prop := s.step std e = some t

/-- What one event does. -/
inductive Happened (std : Strconv) (s : Session) : Event → Session → Prop where
  | refused {call : Call} {e : GoError} (failed : call.request std = .error e) :
      Happened std s (.invoked call) { s with
        callers := s.callers ++ [⟨call, .ofOp "", false, .returned (.error e), none, none⟩] }
  | invoked {call : Call} {req : Request} (built : call.request std = .ok req) :
      Happened std s (.invoked call) { s with callers := s.callers ++ [⟨call, req, false, .called, none, none⟩] }
  | cancelled {i : ℕ} {g : Caller} (there : s.callers[i]? = some g) :
      Happened std s (.cancelled i) { s with callers := s.callers.set i { g with done := true } }
  | turned : Happened std s .turned { s with pump := s.pump.turn reading }
  | locked {i : ℕ} {g : Caller} (there : s.callers[i]? = some g) (stage : g.stage = .called)
      (free : s.mu = none) : Happened std s (.locked i) (s.enter i g)
  | wrote {i : ℕ} {g : Caller} {fault : Option (Fault Cause)} (there : s.callers[i]? = some g)
      (stage : g.stage = .entered ∨ g.stage = .leaving) : Happened std s (.wrote i fault) (s.write i g fault)
  | line {i : ℕ} {g : Caller} {line : List UInt8} {pump : Pump Lines Cause (List UInt8)}
      (there : s.callers[i]? = some g) (stage : g.stage = .waiting)
      (took : s.pump.take? = some (.ok line, pump)) :
      Happened std s (.received i) (answer std { s with pump } i g line)
  | ended {i : ℕ} {g : Caller} {cause : Cause} {pump : Pump Lines Cause (List UInt8)}
      (there : s.callers[i]? = some g) (stage : g.stage = .waiting)
      (took : s.pump.take? = some (.error cause, pump)) :
      Happened std s (.received i) (fail { s with pump } i g cause)
  | drained {i : ℕ} {g : Caller} {slot : Option Cause} (there : s.callers[i]? = some g)
      (stage : g.stage = .waiting) (spent : s.pump.stage = .finished slot) :
      Happened std s (.received i) (fail { s with pump := s.pump } i g .closedPipe)
  | expired {i : ℕ} {g : Caller} (there : s.callers[i]? = some g) (stage : g.stage = .waiting)
      (done : g.done = true) : Happened std s (.expired i) (fail { s with pump := s.pump } i g .context)
  | relocked {i : ℕ} {g : Caller} (there : s.callers[i]? = some g) (stage : g.stage = .succeeded)
      (free : s.mu = none) :
      Happened std s (.relocked i)
        (put { s with closed := true, torn := true } i { g with stage := .closing })
  | severed {lines : Lines} (torn : s.torn = true) :
      Happened std s (.severed lines) { s with pump := { s.pump with source := lines } }
  | finished {i : ℕ} {g : Caller} {failure : Option GoError} (there : s.callers[i]? = some g)
      (stage : g.stage = .closing) :
      Happened std s (.finished i failure) { s with
        callers := s.callers.set i { g with stage := .returned (ending failure) } }

theorem step_happened {std : Strconv} {s t : Session} {e : Event} (step : s.step std e = some t) :
    Happened std s e t := by
  cases e with
  | invoked call =>
      rw [Session.step] at step
      generalize built : call.request std = made at step
      cases made with
      | error e =>
          cases step
          exact .refused built
      | ok req =>
          cases step
          exact .invoked built
  | turned =>
      cases step
      exact .turned
  | severed lines =>
      rw [Session.step] at step
      split at step
      · rename_i torn
        cases step
        exact .severed torn
      · cases step
  | cancelled i =>
      obtain ⟨g, there, same⟩ := Option.bind_eq_some_iff.mp step
      cases same
      exact .cancelled there
  | locked i =>
      obtain ⟨g, there, rest⟩ := Option.bind_eq_some_iff.mp step
      split at rest
      · rename_i ready
        cases rest
        exact .locked there ready.1 ready.2
      · cases rest
  | wrote i fault =>
      obtain ⟨g, there, rest⟩ := Option.bind_eq_some_iff.mp step
      split at rest
      · rename_i stage
        cases rest
        exact .wrote there stage
      · cases rest
  | expired i =>
      obtain ⟨g, there, rest⟩ := Option.bind_eq_some_iff.mp step
      split at rest
      · rename_i ready
        cases rest
        exact .expired there ready.1 ready.2
      · cases rest
  | relocked i =>
      obtain ⟨g, there, rest⟩ := Option.bind_eq_some_iff.mp step
      split at rest
      · rename_i ready
        cases rest
        exact .relocked there ready.1 ready.2
      · cases rest
  | finished i failure =>
      obtain ⟨g, there, rest⟩ := Option.bind_eq_some_iff.mp step
      split at rest
      · rename_i stage
        cases rest
        exact .finished there stage
      · cases rest
  | received i =>
      obtain ⟨g, there, rest⟩ := Option.bind_eq_some_iff.mp step
      split at rest
      · cases rest
      · rename_i waits
        have stage := Decidable.not_not.mp waits
        generalize took : s.pump.take? = item at rest
        rcases item with _ | ⟨cause | line, pump⟩
        · generalize spent : s.pump.stage = reader at rest
          cases reader with
          | finished slot =>
              cases rest
              exact .drained there stage spent
          | running slot held => cases rest
        · cases rest
          exact .ended there stage took
        · cases rest
          exact .line there stage took

/-! ## Who holds the mutex -/

/-- One caller holds the mutex, and finds the session open unless it has closed it itself. -/
structure Locked (s : Session) : Prop where
  holder : ∀ (i : ℕ) (g : Caller), s.callers[i]? = some g → g.stage.holds = true → s.mu = some i
  live : ∀ (i : ℕ) (g : Caller), s.callers[i]? = some g → g.stage = .entered ∨ g.stage = .waiting →
    s.closed = false
  leaving : ∀ (i : ℕ) (g : Caller), s.callers[i]? = some g → g.stage = .leaving → s.closed = true
  torn : s.torn = true → s.closed = true

namespace Locked

variable {s t : Session} {i : ℕ} {g : Caller}

/-- With the mutex free, or in the hands of a caller, no other caller has it. -/
theorem alone (locked : Locked s) (free : s.mu = none ∨ s.mu = some i) {j : ℕ} {h : Caller} (other : j ≠ i)
    (there : s.callers[j]? = some h) : h.stage.holds = false := by
  refine Bool.eq_false_iff.mpr fun holds => ?_
  have held := locked.holder j h there holds
  rcases free with none | own
  · cases none.symm.trans held
  · cases own.symm.trans held
    exact other rfl

/-- The caller that has the mutex, or takes it, goes on. -/
theorem of_put (locked : Locked s) (free : s.mu = none ∨ s.mu = some i) (same : t.callers = s.callers)
    (torn : t.torn = true → t.closed = true)
    (live : g.stage = .entered ∨ g.stage = .waiting → t.closed = false)
    (leaving : g.stage = .leaving → t.closed = true) : Locked (t.put i g) := by
  have idle {j : ℕ} {h : Caller} (other : j ≠ i) (there : t.callers[j]? = some h) : h.stage.holds = false :=
    locked.alone free other (same ▸ there)
  refine ⟨fun j h there holds => ?_, fun j h there active => ?_, fun j h there left => ?_, torn⟩
  · rcases getElem?_set_cases there with ⟨rfl, rfl⟩ | ⟨other, there⟩
    · exact if_pos holds
    · cases (idle other there).symm.trans holds
  · rcases getElem?_set_cases there with ⟨rfl, rfl⟩ | ⟨other, there⟩
    · exact live active
    · have none := idle other there
      rcases active with stage | stage <;> rw [stage] at none <;> cases none
  · rcases getElem?_set_cases there with ⟨rfl, rfl⟩ | ⟨other, there⟩
    · exact leaving left
    · have none := idle other there
      rw [left] at none
      cases none

/-- Callers come, and those without the mutex go on. -/
theorem of_stages (locked : Locked s) (mu : t.mu = s.mu) (closed : t.closed = s.closed) (torn : t.torn = s.torn)
    (each : ∀ (j : ℕ) (h : Caller), t.callers[j]? = some h →
      h.stage.holds = false ∨ ∃ h', s.callers[j]? = some h' ∧ h'.stage = h.stage) : Locked t := by
  refine ⟨fun j h there holds => ?_, fun j h there active => ?_, fun j h there left => ?_, ?_⟩
  · rcases each j h there with none | ⟨h', before, stage⟩
    · cases none.symm.trans holds
    · rw [mu]
      exact locked.holder j h' before (stage ▸ holds)
  · rcases each j h there with none | ⟨h', before, stage⟩
    · rcases active with stage | stage <;> rw [stage] at none <;> cases none
    · rw [closed]
      exact locked.live j h' before (stage ▸ active)
  · rcases each j h there with none | ⟨h', before, stage⟩
    · rw [left] at none
      cases none
    · rw [closed]
      exact locked.leaving j h' before (stage.trans left)
  · rw [torn, closed]
    exact locked.torn

theorem held (locked : Locked s) (there : s.callers[i]? = some g) (holds : g.stage.holds = true) :
    s.mu = none ∨ s.mu = some i := .inr (locked.holder i g there holds)

theorem enter (locked : Locked s) (free : s.mu = none) : Locked (s.enter i g) := by
  unfold Session.enter
  split
  · split
    · rename_i closed
      exact locked.of_put (.inl free) rfl (fun _ => closed) (by rintro (is | is) <;> cases is) (by rintro ⟨⟩)
    · exact locked.of_put (.inl free) rfl (fun _ => rfl) (by rintro (is | is) <;> cases is) (fun _ => rfl)
  · split
    · exact locked.of_put (.inl free) rfl locked.torn (by rintro (is | is) <;> cases is) (by rintro ⟨⟩)
    · rename_i live
      exact locked.of_put (.inl free) rfl locked.torn (fun _ => Bool.eq_false_iff.mpr live) (by rintro ⟨⟩)

theorem write {fault : Option (Fault Cause)} (locked : Locked s) (there : s.callers[i]? = some g)
    (stage : g.stage = .entered ∨ g.stage = .leaving) : Locked (s.write i g fault) := by
  have free : s.mu = none ∨ s.mu = some i :=
    locked.held there (by rcases stage with is | is <;> rw [is] <;> rfl)
  unfold Session.write
  dsimp only
  split
  · rename_i leaving
    exact locked.of_put free rfl (fun _ => locked.leaving i g there leaving) (by rintro (is | is) <;> cases is)
      (by rintro ⟨⟩)
  · rename_i call
    have live := locked.live i g there (.inl (stage.resolve_right call))
    split
    · exact locked.of_put free rfl locked.torn (fun _ => live) (by rintro ⟨⟩)
    · exact locked.of_put free rfl locked.torn (by rintro (is | is) <;> cases is) (by rintro ⟨⟩)

theorem answer {std : Strconv} {pump : Pump Lines Cause (List UInt8)} {line : List UInt8} (locked : Locked s)
    (there : s.callers[i]? = some g) (stage : g.stage = .waiting) :
    Locked (Session.answer std { s with pump } i g line) := by
  have free := locked.held there (by rw [stage]; rfl)
  unfold Session.answer
  dsimp only
  split
  · exact locked.of_put free rfl locked.torn (by rintro (is | is) <;> cases is) (by rintro ⟨⟩)
  · exact locked.of_put free rfl locked.torn (by rintro (is | is) <;> cases is) (by rintro ⟨⟩)

theorem fail {pump : Pump Lines Cause (List UInt8)} {cause : Cause} (locked : Locked s)
    (there : s.callers[i]? = some g) (stage : g.stage = .waiting) :
    Locked (Session.fail { s with pump } i g cause) := by
  have free := locked.held there (by rw [stage]; rfl)
  unfold Session.fail
  split
  · exact locked.of_put free rfl (fun _ => rfl) (by rintro (is | is) <;> cases is) (by rintro ⟨⟩)
  · exact locked.of_put free rfl locked.torn (by rintro (is | is) <;> cases is) (by rintro ⟨⟩)

/-- A caller without the mutex goes on outside it. -/
theorem of_set (locked : Locked s) (there : s.callers[i]? = some g) {g' : Caller} {pump : Pump Lines Cause (List UInt8)}
    (stage : g'.stage = g.stage ∨ g'.stage.holds = false) :
    Locked { s with callers := s.callers.set i g', pump } := by
  refine locked.of_stages rfl rfl rfl fun j h after => ?_
  rcases getElem?_set_cases after with ⟨rfl, rfl⟩ | ⟨other, after⟩
  · rcases stage with same | none
    · exact .inr ⟨g, there, same.symm⟩
    · exact .inl none
  · exact .inr ⟨h, after, rfl⟩

/-- A new caller has no mutex. -/
theorem of_call (locked : Locked s) (stage : g.stage.holds = false) :
    Locked { s with callers := s.callers ++ [g] } := by
  refine locked.of_stages rfl rfl rfl fun j h after => ?_
  rcases getElem?_append_cases after with before | last
  · exact .inr ⟨h, before, rfl⟩
  · exact .inl (last ▸ stage)

end Locked

theorem Happened.locks {std : Strconv} {s t : Session} {e : Event} (happened : Happened std s e t)
    (locked : Locked s) : Locked t := by
  cases happened with
  | refused failed => exact locked.of_call rfl
  | invoked built => exact locked.of_call rfl
  | cancelled there => exact locked.of_set there (.inl rfl)
  | turned => exact locked.of_stages rfl rfl rfl fun j h there => .inr ⟨h, there, rfl⟩
  | locked there stage free => exact locked.enter free
  | wrote there stage => exact locked.write there stage
  | line there stage took => exact locked.answer there stage
  | ended there stage took => exact locked.fail there stage
  | drained there stage spent => exact locked.fail there stage
  | expired there stage done => exact locked.fail there stage
  | relocked there stage free =>
      exact locked.of_put (.inl free) rfl (fun _ => rfl) (by rintro (is | is) <;> cases is) (by rintro ⟨⟩)
  | severed torn => exact locked.of_stages rfl rfl rfl fun j h there => .inr ⟨h, there, rfl⟩
  | finished there stage => exact locked.of_set there (.inr rfl)

/-- The request lines on the wire. -/
def requests (s : Session) : List (List UInt8) := complete newline s.wire.accepted

end Session

end SanDbOxFormal.Go
