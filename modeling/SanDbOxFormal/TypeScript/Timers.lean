import SanDbOxFormal.TypeScript.Reads

/-!
# The timeouts of the TypeScript driver

What becomes of a `timeoutMs`: the timer of `connectWithDeadline`, and those of the reads
that the hello and the calls make.  Node takes a delay below 1, above 2^31-1 or not finite
for 1 and drops a fraction, and may run a callback `early` by a fixed span at most.  Everything
else that happens does so in any order and at any time.
-/

namespace SanDbOxFormal.TypeScript

/-- A number of milliseconds that is not negative. -/
inductive Millis where
  | ms (n : ℚ≥0)
  | infinity
  deriving DecidableEq

namespace Millis

/-- The delay that `setTimeout` takes it for. -/
def delay : Millis → ℕ
  | infinity => 1
  | ms n => if n < 1 ∨ 2147483647 < n then 1 else ⌊n⌋₊

/-- A number that is no longer than the delay that Node makes of it, less what a callback may
run early: none but zero and the ones within the first millisecond, unless callbacks are
never early. -/
def Exact (early : ℚ≥0) : Millis → Prop
  | ms n => n = 0 ∨ n + early ≤ 1 ∨ early = 0 ∧ n ≤ 2147483647 ∧ ∃ k : ℕ, n = k
  | infinity => False

/-- From one instant to another as much has passed. -/
def Passed (t : Millis) (since now : ℚ≥0) : Prop :=
  match t with
  | ms n => since + n ≤ now
  | infinity => False

end Millis

/-- `e instanceof SanDBoxTimeoutError`. -/
def JsError.isTimeout : JsError → Bool
  | .timeout _ => true
  | _ => false

/-! ## What waits -/

/-- `connectWithDeadline`, `readHello` and `call`. -/
inductive Op.Kind where
  | connect
  | hello
  | call
  deriving DecidableEq

/-- An operation is `queued` before `#callNow`, or before the `readLine` of the hello. -/
inductive Op.Stage where
  | connecting
  | queued
  | writing
  | reading (read : ℕ)
  | failed (e : JsError)
  | done
  deriving DecidableEq

/-- A connect, a hello or a call: its `timeoutMs`, where `none` is `null`, whether it has a
signal, the reason once that is aborted, and when it was asked for. -/
structure Op where
  kind : Op.Kind
  timeout : Option Millis
  signalled : Bool
  aborted : Option JsError
  since : ℚ≥0
  stage : Op.Stage
  deriving DecidableEq

/-- `DEFAULT_TIMEOUT_MS`. -/
def defaultTimeoutMs : Millis := .ms 30000

/-- `#resolveTimeout`, and the same for the options of a connect; without a `timeoutMs` the
default counts, and `null` is for ever. -/
def resolveTimeout (given : Option (Option Millis)) (default : Option Millis) : Option Millis :=
  given.getD default

/-- How much sooner than its delay Node may run a callback, `#defaultTimeoutMs`, and of each
read its timeout and when it was called. -/
structure World where
  early : ℚ≥0
  default : Option Millis
  now : ℚ≥0
  reads : Reads
  asked : List (Option Millis × ℚ≥0)
  ops : List Op

namespace World

/-- Time passes, a callback of the source of the reader or its `fail` runs, or something
happens to an operation.  One that `began` sees whether the session is closed; its write is
through, or has failed with a message. -/
inductive Event where
  | passed (time : ℚ≥0)
  | source (e : Reads.Event) (streams : e matches .data _ | .ended | .failed _ | .fail _)
  | invoked (kind : Op.Kind) (given : Option (Option Millis)) (signalled : Bool)
  | connected (op : ℕ)
  | refused (op : ℕ) (message : JsString)
  | connectTimer (op : ℕ)
  | began (op : ℕ) (closed : Bool)
  | wrote (op : ℕ) (failure : Option JsString)
  | readTimer (read : ℕ)
  | aborted (op : ℕ) (reason : JsError)

def start (early : ℚ≥0) (default : Option Millis) : World := ⟨early, default, 0, .start, [], []⟩

/-- The callback of a timer that was set for `timeout` at `since` may run. -/
def Due (w : World) (timeout : Option Millis) (since : ℚ≥0) : Prop :=
  ∃ t, timeout = some t ∧ since + t.delay ≤ w.now + w.early

instance (w : World) (timeout : Option Millis) (since : ℚ≥0) : Decidable (w.Due timeout since) :=
  match timeout with
  | none => .isFalse nofun
  | some t => decidable_of_iff (since + t.delay ≤ w.now + w.early)
      ⟨fun due => ⟨t, rfl, due⟩, fun ⟨_, same, due⟩ => Option.some.inj same ▸ due⟩

/-- Changes the stage of an operation that is at one. -/
def moved (w : World) (op : ℕ) (f : Op → Option Op.Stage) : World :=
  { w with ops := w.ops.modify op fun o => { o with stage := (f o).getD o.stage } }

/-- `readLine` of the transport, by the operation of that number. -/
def startRead (w : World) (op : ℕ) (o : Op) : World :=
  { w with
    reads := w.reads.step (.readLine o.timeout.isSome (if o.signalled then some o.aborted else none))
    asked := w.asked ++ [(o.timeout, w.now)] }.moved op fun _ => some (.reading w.reads.calls)

/-- The beginning of `#callNow`. -/
def callNow (closed : Bool) (o : Op) : Op.Stage :=
  if closed then .failed (.sanDBox (lit "sandbox: connection is closed"))
  else
    match o.aborted with
    | some reason => .failed reason
    | none => .writing

def connectTimedOut (shown : Millis → JsString) (o : Op) : JsError :=
  .timeout (lit "timed out connecting after " ++ (o.timeout.elim [] shown) ++ lit "ms")

/-- One event; `shown` is how a number is spelled in a text. -/
def step (shown : Millis → JsString) (w : World) : Event → World
  | .passed time => { w with now := w.now + time }
  | .source e _ => { w with reads := w.reads.step e }
  | .invoked kind given signalled =>
      { w with
        ops := w.ops ++ [⟨kind,
          resolveTimeout given (if kind = .call then w.default else some defaultTimeoutMs),
          signalled && kind = .call, none, w.now, if kind = .connect then .connecting else .queued⟩] }
  | .connected op => w.moved op fun o => if o.stage = .connecting then some .done else none
  | .refused op message => w.moved op fun o =>
      if o.stage = .connecting then some (.failed (.sanDBox (lit "connecting: " ++ message))) else none
  | .connectTimer op => w.moved op fun o =>
      if o.stage = .connecting ∧ w.Due o.timeout o.since then some (.failed (connectTimedOut shown o))
      else none
  | .began op closed =>
      match w.ops[op]? with
      | none => w
      | some o =>
          if o.stage ≠ .queued then w
          else if o.kind = .hello then w.startRead op o
          else w.moved op fun o => some (callNow closed o)
  | .wrote op failure =>
      match w.ops[op]? with
      | none => w
      | some o =>
          if o.stage ≠ .writing then w
          else
            match failure with
            | some message => w.moved op fun _ =>
                some (.failed (.sanDBox (lit "writing request: " ++ message)))
            | none => w.startRead op o
  | .readTimer read =>
      match w.asked[read]? with
      | none => w
      | some (timeout, since) =>
          if w.Due timeout since then { w with reads := w.reads.step (.timer read) } else w
  | .aborted op reason =>
      match w.ops[op]? with
      | none => w
      | some o =>
          if !o.signalled || o.aborted.isSome then w
          else
            let w' := { w with ops := w.ops.modify op fun o => { o with aborted := some reason } }
            match o.stage with
            | .reading read => { w' with reads := w'.reads.step (.abort read reason) }
            | _ => w'

def run (shown : Millis → JsString) (w : World) (events : List Event) : World :=
  events.foldl (step shown) w

end World

/-! ## What an operation fails with -/

/-- What a hello and a call make of the error of their read. -/
def Op.rejection (o : Op) (e : JsError) : JsError :=
  if o.kind = .hello then
    if e.isSanDBox then e else .sanDBox (lit "reading hello line: " ++ e.message)
  else if e.isTimeout then e
  else
    match o.aborted with
    | some reason => reason
    | none => if e.isSanDBox then e else .sanDBox (lit "reading response: " ++ e.message)

/-- The operation failed with that error, at its connect, its write or its read. -/
inductive Op.Fails (w : World) (o : Op) : JsError → Prop where
  | before {e : JsError} (stage : o.stage = .failed e) : Fails w o e
  | read {n : ℕ} {e : JsError} (stage : o.stage = .reading n)
      (settled : (n, .error e) ∈ w.reads.settled) : Fails w o (o.rejection e)

/-- An operation that has failed with a timeout was asked for as long ago as its timeout. -/
def World.Punctual (w : World) : Prop :=
  ∀ o ∈ w.ops, ∀ e, o.Fails w e → e.isTimeout = true → ∃ t, o.timeout = some t ∧ t.Passed o.since w.now

end SanDbOxFormal.TypeScript
