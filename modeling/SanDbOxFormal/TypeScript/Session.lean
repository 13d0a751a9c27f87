import SanDbOxFormal.Library.Outlet
import SanDbOxFormal.TypeScript.Hello
import SanDbOxFormal.TypeScript.OneRead
import SanDbOxFormal.TypeScript.RequestLines

/-!
# Sessions of the TypeScript driver

The `Session` of `client.ts` with the promises of the calls on it.  A call starts when every
call before it has settled, writes its request, reads a line, and settles; `close` waits
for none of them.  A step is one callback or one continuation, in any order.
-/

namespace SanDbOxFormal.TypeScript

open SanDbOxFormal.Library
open SanDbOxFormal.Library.Segments (complete)

/-! ## Replies -/

/-- The decoder of a method; the others only look whether the operation succeeded. -/
def Request.decoder : Request → Option Decoder
  | .query _ _ => some .query
  | .exec _ _ => some .exec
  | .snapshot _ => some .snapshot
  | .inspect => some .inspect
  | .tables => some .tables
  | .schema _ => some .schema
  | .dump _ => some .dump
  | .load _ | .overwrite | .close => none

/-- The end of `#callNow`: the fields of a success. -/
def callResult (rt : Runtime) (line : List UInt8) : Except JsError Fields := do
  let response ← decodeResponseLine rt line
  if response.ok then .ok response.fields
  else
    match response.error with
    | some e => .error e
    | none => .error (.protocol (lit "response has ok=false with no error field"))

/-- What a method makes of the line that its call has read. -/
def receive (rt : Runtime) (req : Request) (line : List UInt8) : Except JsError (Option Result) := do
  let fields ← callResult rt line
  match req.decoder with
  | some decoder => some <$> decoder.decode rt fields
  | none => .ok none

/-! ## Calls -/

namespace Session

/-- Where a call is: behind `#enqueue`; in `await this.#transport.writeLine(...)`; behind it; in
`await this.#transport.readLine(...)`, which is the read of this number; or at its end. -/
inductive Stage where
  | queued
  | writing
  | wrote
  | reading (read : ℕ)
  | settled (outcome : Except JsError (Option Result))

/-- A call, with or without a timeout, with the reason of the abort of its signal if it has one,
and how many request lines were on the wire before its own, once that is there. -/
structure Caller where
  req : Request
  record : Record
  timed : Bool
  signal : Option (Option JsError)
  stage : Stage
  own : Option ℕ

/-- A method is called: its record is made, and it is queued. -/
def Caller.issue (std : NumberText) (req : Request) (timed : Bool) (signal : Option (Option JsError)) : Caller :=
  match req.record std with
  | .ok record => ⟨req, record, timed, signal, .queued, none⟩
  | .error e => ⟨req, [], timed, signal, .settled (.error e), none⟩

/-- Between the start of its write and the end of its read. -/
def Caller.active (g : Caller) : Bool :=
  match g.stage with
  | .writing | .wrote | .reading _ => true
  | _ => false

def Caller.isSettled (g : Caller) : Bool :=
  match g.stage with
  | .settled _ => true
  | _ => false

end Session

open Session in
/-- A session: `outbox` holds the writes that the stream has not reported on, that of `close`
being nobody's, and `closing` says that `#closePromise` is there. -/
structure Session where
  outlet : Outlet JsError UInt8
  outbox : List (Option ℕ × List UInt8)
  reads : Reads
  closed : Bool
  closing : Bool
  calls : List Caller

namespace Session

/-- What the stream, or the child that could not be started, tells the reader. -/
inductive Source where
  | data (chunk : List UInt8)
  | ended
  | failed (message : JsString)
  | unstarted (message : JsString)

def Source.event : Source → Reads.Event
  | .data chunk => .data chunk
  | .ended => .ended
  | .failed message => .failed (.other message)
  | .unstarted message => .fail (.sanDBox message)

/-- The settlement of a read. -/
def outcome? (reads : Reads) (read : ℕ) : Option (Except JsError (List UInt8)) :=
  (reads.settled.find? fun o => o.1 == read).map Prod.snd

/-- A session behind the hello line. -/
def start (reads : Reads) : Session := ⟨.fresh, [], reads, false, false, []⟩

/-- What happens until a connect has settled: the source, the read of the hello, its timer. -/
inductive Opening where
  | source (e : Source)
  | read (timed : Bool)
  | timer

def Opening.event : Opening → Reads.Event
  | .source e => e.event
  | .read timed => .readLine timed none
  | .timer => .timer 0

/-- `readHello`, and the session that is made of what it returns; `shown` is how a number is printed. -/
def opened (rt : Runtime) (shown : JsString → JsString) (before : List Opening) :
    Option (Except JsError Hello × Session) :=
  let reads := Reads.start.run (before.map Opening.event)
  if reads.calls = 1 then
    (outcome? reads 0).map fun outcome => ((readHello rt shown outcome).1, start reads)
  else none

/-- What may happen: a method is called; a call starts, the one before it having settled; the
stream reports on the first write, with what went wrong; a call reads; the promise of its read has
settled; its signal is aborted, which happens once; its timer runs; the source is heard; and
`close`, also by `overwrite`. -/
inductive Event where
  | issued (req : Request) (timed : Bool) (signal : Option (Option JsError))
  | started (i : ℕ)
  | flushed (fault : Option JsString)
  | read (i : ℕ)
  | resumed (i : ℕ)
  | aborted (i : ℕ) (reason : JsError)
  | expired (i : ℕ)
  | source (e : Source)
  | closes

/-- What an event tells of the source. -/
def Event.source? : Event → Option Reads.Event
  | .source e => some e.event
  | _ => none

def connectionClosed : JsError := .sanDBox (lit "sandbox: connection is closed")

def writeFailed (message : JsString) : JsError := .sanDBox (lit "writing request: " ++ message)

def put (s : Session) (i : ℕ) (g : Caller) : Session := { s with calls := s.calls.set i g }

/-- `#callNow` up to the write. -/
def callNow (s : Session) (i : ℕ) (g : Caller) : Session :=
  if s.closed then s.put i { g with stage := .settled (.error connectionClosed) }
  else
    match g.signal with
    | some (some reason) => s.put i { g with stage := .settled (.error reason) }
    | _ => { s with outbox := s.outbox ++ [(some i, encodeRequestLine g.record)] }.put i { g with stage := .writing }

/-- The callback of a write. -/
def flush (s : Session) (fault : Option JsString) (who : Option ℕ) (line : List UInt8)
    (rest : List (Option ℕ × List UInt8)) : Session :=
  let written := s.outlet.write (fault.map writeFailed) line
  let own := (complete lf s.outlet.accepted).length
  let s := { s with outlet := written.2, outbox := rest }
  match who.bind fun i => (s.calls[i]?).map fun g => (i, g) with
  | none => s
  | some (i, g) =>
      match written.1 with
      | .ok () => s.put i { g with stage := .wrote, own := some own }
      | .error e => s.put i { g with stage := .settled (.error e) }

/-- `#callNow` behind the read. -/
def resume (rt : Runtime) (s : Session) (i : ℕ) (g : Caller) : Except JsError (List UInt8) → Session
  | .ok line => s.put i { g with stage := .settled (receive rt g.req line) }
  | .error (.timeout m) => { s with closed := true }.put i { g with stage := .settled (.error (.timeout m)) }
  | .error e =>
      match g.signal with
      | some (some reason) => { s with closed := true }.put i { g with stage := .settled (.error reason) }
      | _ =>
          s.put i { g with
            stage := .settled (.error (if e.isSanDBox then e else .sanDBox (lit "reading response: " ++ e.message))) }

/-- The listener of a read hears the signal. -/
def abort (s : Session) (g : Caller) (reason : JsError) : Session :=
  match g.stage with
  | .reading read => { s with reads := s.reads.step (.abort read reason) }
  | _ => s

/-- `close` up to its write. -/
def close (s : Session) : Session :=
  if s.closing then s
  else { s with closed := true, closing := true, outbox := s.outbox ++ [(none, encodeRequestLine [opField "close"])] }

/-- One event, if it can happen. -/
def step (rt : Runtime) (std : NumberText) (s : Session) : Event → Option Session
  | .issued req timed signal => some { s with calls := s.calls ++ [.issue std req timed signal] }
  | .started i => do
      let g ← s.calls[i]?
      match g.stage with
      | .queued => if (s.calls.take i).all Caller.isSettled then some (s.callNow i g) else none
      | _ => none
  | .flushed fault =>
      match s.outbox with
      | [] => none
      | (who, line) :: rest => some (s.flush fault who line rest)
  | .read i => do
      let g ← s.calls[i]?
      match g.stage with
      | .wrote =>
          some ({ s with reads := s.reads.readLine g.timed g.signal }.put i { g with stage := .reading s.reads.calls })
      | _ => none
  | .resumed i => do
      let g ← s.calls[i]?
      match g.stage with
      | .reading read => (outcome? s.reads read).map (s.resume rt i g)
      | _ => none
  | .aborted i reason => do
      let g ← s.calls[i]?
      match g.signal with
      | some none => some ((s.put i { g with signal := some (some reason) }).abort g reason)
      | _ => none
  | .expired i => do
      let g ← s.calls[i]?
      match g.stage with
      | .reading read => some { s with reads := s.reads.step (.timer read) }
      | _ => none
  | .source e => some { s with reads := s.reads.step e.event }
  | .closes => some s.close

/-- A run of a session. -/
abbrev Step (rt : Runtime) (std : NumberText) (s : Session) (e : Event) (t : Session) : Prop :=
  s.step rt std e = some t

/-- What one event does. -/
inductive Happened (rt : Runtime) (std : NumberText) (s : Session) : Event → Session → Prop where
  | issued {req : Request} {timed : Bool} {signal : Option (Option JsError)} :
      Happened rt std s (.issued req timed signal) { s with calls := s.calls ++ [.issue std req timed signal] }
  | started {i : ℕ} {g : Caller} (there : s.calls[i]? = some g) (stage : g.stage = .queued)
      (turn : (s.calls.take i).all Caller.isSettled = true) : Happened rt std s (.started i) (s.callNow i g)
  | flushed {fault : Option JsString} {who : Option ℕ} {line : List UInt8} {rest : List (Option ℕ × List UInt8)}
      (first : s.outbox = (who, line) :: rest) : Happened rt std s (.flushed fault) (s.flush fault who line rest)
  | read {i : ℕ} {g : Caller} (there : s.calls[i]? = some g) (stage : g.stage = .wrote) :
      Happened rt std s (.read i)
        ({ s with reads := s.reads.readLine g.timed g.signal }.put i { g with stage := .reading s.reads.calls })
  | resumed {i : ℕ} {g : Caller} {read : ℕ} {outcome : Except JsError (List UInt8)} (there : s.calls[i]? = some g)
      (stage : g.stage = .reading read) (settled : outcome? s.reads read = some outcome) :
      Happened rt std s (.resumed i) (s.resume rt i g outcome)
  | aborted {i : ℕ} {g : Caller} {reason : JsError} (there : s.calls[i]? = some g) (signal : g.signal = some none) :
      Happened rt std s (.aborted i reason) ((s.put i { g with signal := some (some reason) }).abort g reason)
  | expired {i : ℕ} {g : Caller} {read : ℕ} (there : s.calls[i]? = some g) (stage : g.stage = .reading read) :
      Happened rt std s (.expired i) { s with reads := s.reads.step (.timer read) }
  | source {e : Source} : Happened rt std s (.source e) { s with reads := s.reads.step e.event }
  | closes : Happened rt std s .closes s.close

theorem step_happened {rt : Runtime} {std : NumberText} {s t : Session} {e : Event} (step : s.step rt std e = some t) :
    Happened rt std s e t := by
  cases e with
  | issued req timed signal =>
      cases step
      exact .issued
  | source e =>
      cases step
      exact .source
  | closes =>
      cases step
      exact .closes
  | flushed fault =>
      rw [Session.step] at step
      split at step
      · cases step
      · rename_i who line rest first
        cases step
        exact .flushed first
  | started i =>
      obtain ⟨g, there, rest⟩ := Option.bind_eq_some_iff.mp step
      split at rest
      · rename_i stage
        split at rest
        · rename_i turn
          cases rest
          exact .started there stage turn
        · cases rest
      · cases rest
  | read i =>
      obtain ⟨g, there, rest⟩ := Option.bind_eq_some_iff.mp step
      split at rest
      · rename_i stage
        cases rest
        exact .read there stage
      · cases rest
  | resumed i =>
      obtain ⟨g, there, rest⟩ := Option.bind_eq_some_iff.mp step
      split at rest
      · rename_i read stage
        obtain ⟨outcome, settled, same⟩ := Option.map_eq_some_iff.mp rest
        cases same
        exact .resumed there stage settled
      · cases rest
  | aborted i reason =>
      obtain ⟨g, there, rest⟩ := Option.bind_eq_some_iff.mp step
      split at rest
      · rename_i signal
        cases rest
        exact .aborted there signal
      · cases rest
  | expired i =>
      obtain ⟨g, there, rest⟩ := Option.bind_eq_some_iff.mp step
      split at rest
      · rename_i read stage
        cases rest
        exact .expired there stage
      · cases rest

end Session

end SanDbOxFormal.TypeScript
