import SanDbOxFormal.Rust.Pairing

/-!
# After a failed write

A `write_line` that fails may have delivered any part of its request, but neither
the session nor the transport takes note: the next operation writes to the same
stream.  What an operation is owed after a failed write therefore holds only as
long as the stream itself keeps failing.
-/

namespace SanDbOxFormal.Rust

open SanDbOxFormal.Library
open SanDbOxFormal.Library.Rfc8259 (Json)
open SanDbOxFormal.Library.Runs
open SanDbOxFormal.Library.Segments
open SanDbOxFormal.Rust.Codec
open SanDbOxFormal.Rust.Transport

variable {τ : Type} [Observed τ]

/-- The operation returned an error and its write had failed. -/
def WriteFailed (e : Entry τ) : Prop :=
  (∃ err, e.outcome = .error err) ∧
    ∃ r : WriteRecord, e.after.records = e.before.records ++ [r] ∧ r.ok = false

/-- What is owed to `later` after `failed`: no answer, and no byte behind a request
that was cut. -/
structure Poisoned (failed later : Entry τ) : Prop where
  errs : ∀ request : Request, later.command = .op request → request ≠ .close →
    ∃ err : Error, later.outcome = .error err ∧ err.code = none
  silent : remainder newline failed.after.accepted ≠ [] →
    later.after.accepted = later.before.accepted

/-- In every run whose commands are all allowed in the state they meet, a failed
write poisons every later operation. -/
def WriteFailurePoisons (std : FloatText) (τ : Type) [Observed τ]
    (allowed : Session τ → Command → Prop) : Prop :=
  ∀ (t t' : τ) (timeout : Option Nat) (s s' : Session τ) (entries : List (Entry τ)),
    Session.Fresh t → Session.new t timeout = .ok (.ok s, t') →
    Run (Session.Step std) s entries s' → (∀ e ∈ entries, allowed e.before e.command) →
    ∀ first failed last, entries = first ++ failed :: last → WriteFailed failed →
      ∀ later ∈ last, Poisoned failed later

/-- The line that a command would write. -/
def Command.line? (std : FloatText) : Command → Option (List UInt8)
  | .op request => (request.fields std).toOption.map encodeRequestLine
  | .setTimeout _ => none

def Session.Broken (s : Session τ) : Prop := ∃ r ∈ s.records, r.ok = false

instance (s : Session τ) : Decidable s.Broken :=
  inferInstanceAs (Decidable (∃ r ∈ s.records, r.ok = false))

/-- Once a write has failed, the stream fails every line that a command would write,
and refuses it whole where the last request was cut. -/
def StreamKeepsFailing (std : FloatText) (s : Session τ) (c : Command) : Prop :=
  s.Broken → s.closed = false → ∀ line ∈ c.line? std,
    (Observed.sink s.transport).fails line.length = true ∧
    (remainder newline s.accepted ≠ [] → refuses (Observed.sink s.transport).writes = true)

instance (std : FloatText) (s : Session τ) (c : Command) :
    Decidable (StreamKeepsFailing std s c) :=
  inferInstanceAs (Decidable (s.Broken → s.closed = false → ∀ line ∈ c.line? std, _ ∧ _))

namespace Session

theorem Broken.grows {s s' : Session τ} (broken : s.Broken) (grows : Grows s s') : s'.Broken := by
  obtain ⟨r, inside, failed⟩ := broken
  exact ⟨r, grows.records.subset inside, failed⟩

/-- What a failing stream lets a call do: fail, and send nothing where it refuses. -/
theorem Called.fails {s s' : Session τ} {object : List (String × Json)}
    {result : Except Error Json} (called : Called s object result s')
    (fails : s.closed = false →
      (Observed.sink s.transport).fails (encodeRequestLine object).length = true) :
    ∃ e : Error, result = .error e ∧ e.code = none ∧
      ((s.closed = false → refuses (Observed.sink s.transport).writes = true) →
        s'.accepted = s.accepted) := by
  cases called with
  | closed => exact ⟨.closed, rfl, rfl, fun _ => rfl⟩
  | unsent live wrote =>
      have sent := (Observed.wrote wrote).1
      exact ⟨_, rfl, sent.plain _ rfl, fun refused => sent.refused (refused live)⟩
  | late live wrote =>
      obtain ⟨e, failed⟩ := (Observed.wrote wrote).1.failed (fails live)
      cases failed
  | failed live wrote =>
      obtain ⟨e, failed⟩ := (Observed.wrote wrote).1.failed (fails live)
      cases failed
  | replied live wrote =>
      obtain ⟨e, failed⟩ := (Observed.wrote wrote).1.failed (fails live)
      cases failed

theorem Closing.refused {s s' : Session τ} (closing : Closing s s')
    (refused : s.closed = false → refuses (Observed.sink s.transport).writes = true) :
    s'.accepted = s.accepted := by
  cases closing with
  | already => rfl
  | unsent live wrote torn =>
      rw [accepted, Observed.closed torn]
      exact (Observed.wrote wrote).1.refused (refused live)
  | sent live wrote read torn =>
      rw [accepted, Observed.closed torn, (Observed.heard read).2]
      exact (Observed.wrote wrote).1.refused (refused live)

theorem Performed.fails {std : FloatText} {s s' : Session τ} {request : Request}
    {outcome : Except Error Answer} (performed : Performed std s request outcome s')
    (broken : s.Broken) (keeps : StreamKeepsFailing std s (.op request)) :
    (request ≠ .close → ∃ err : Error, outcome = .error err ∧ err.code = none) ∧
    (remainder newline s.accepted ≠ [] → s'.accepted = s.accepted) := by
  have line {object : List (String × Json)} (fields : request.fields std = .ok object) :
      (Command.op request).line? std = some (encodeRequestLine object) := by
    rw [Command.line?, fields]
    rfl
  cases performed with
  | refused fields => exact ⟨fun _ => ⟨_, rfl, fields_plain fields⟩, fun _ => rfl⟩
  | called sends fields called =>
      obtain ⟨e, rfl, plain, quiet⟩ :=
        called.fails fun live => (keeps broken live _ (line fields)).1
      exact ⟨fun _ => ⟨e, rfl, plain⟩,
        fun cut => quiet fun live => (keeps broken live _ (line fields)).2 cut⟩
  | overwritten is fields called =>
      obtain ⟨e, failed, _⟩ := called.fails fun live => (keeps broken live _ (line fields)).1
      cases failed
  | closed is closing =>
      refine ⟨fun sends => absurd is sends, fun cut => ?_⟩
      subst is
      exact closing.refused fun live => (keeps broken live _ rfl).2 cut

/-- One command on a session whose stream broke and keeps failing. -/
theorem Step.fails {std : FloatText} {s s' : Session τ} {e : Entry τ} (step : Step std s e s')
    (broken : s.Broken) (keeps : StreamKeepsFailing std e.before e.command) :
    (∀ request : Request, e.command = .op request → request ≠ .close →
      ∃ err : Error, e.outcome = .error err ∧ err.code = none) ∧
    (remainder newline s.accepted ≠ [] → e.after.accepted = e.before.accepted) := by
  cases step with
  | @ran _ c outcome returned =>
      cases c with
      | op request =>
          obtain ⟨errs, silent⟩ := (perform_performed returned).fails broken keeps
          refine ⟨fun request' same sends => ?_, silent⟩
          cases same
          exact errs sends
      | setTimeout t =>
          cases returned
          refine ⟨fun request' same => ?_, fun _ => rfl⟩
          cases same

/-- After a failed write the session is broken, and a cut request stays the last
thing that was sent. -/
theorem run_poisoned {std : FloatText} {failed : Entry τ} {s s' : Session τ}
    {entries : List (Entry τ)} (run : Run (Step std) s entries s')
    (keeps : ∀ e ∈ entries, StreamKeepsFailing std e.before e.command) (broken : s.Broken)
    (same : remainder newline failed.after.accepted ≠ [] → s.accepted = failed.after.accepted) :
    ∀ later ∈ entries, Poisoned failed later := by
  induction run with
  | nil s =>
      intro later inside
      cases inside
  | @cons s t u e rest step _ ih =>
      obtain ⟨errs, silent⟩ := step.fails broken (keeps e List.mem_cons_self)
      have quiet : remainder newline failed.after.accepted ≠ [] →
          e.after.accepted = e.before.accepted := by
        intro cut
        refine silent ?_
        rw [same cut]
        exact cut
      intro later inside
      rcases List.mem_cons.mp inside with rfl | inside
      · exact ⟨errs, quiet⟩
      · refine ih (fun e' member => keeps e' (List.mem_cons_of_mem _ member))
          (broken.grows step.grows) (fun cut => ?_) later inside
        cases step with
        | ran returned => exact (quiet cut).trans (same cut)

end Session

/-- Over both transports: as long as the stream keeps failing, a failed write
poisons the session. -/
theorem write_failure_poisons (std : FloatText) :
    WriteFailurePoisons std SocketTransport (StreamKeepsFailing std) ∧
    WriteFailurePoisons std DirectTransport (StreamKeepsFailing std) := by
  have either (τ : Type) [Observed τ] : WriteFailurePoisons std τ (StreamKeepsFailing std) := by
    intro t t' timeout s s' entries fresh created run keeps first failed last shape broke
    subst shape
    obtain ⟨mid, _, tail⟩ := run.split
    cases tail with
    | cons step rest =>
        cases step with
        | ran returned =>
            obtain ⟨_, r, noted, bad⟩ := broke
            refine Session.run_poisoned rest (fun e inside => keeps e ?_) ⟨r, ?_, bad⟩ fun _ => rfl
            · exact List.mem_append_right _ (List.mem_cons_of_mem _ inside)
            · rw [noted]
              exact List.mem_append_right _ List.mem_cons_self
  exact ⟨either SocketTransport, either DirectTransport⟩

/-! ## A stream whose flush fails once -/

def flushError : IoError := ⟨.other, "flush"⟩

def loads : List Command := [.op (.load "a"), .op (.load "b")]

/-- The stream takes the whole first request but fails its flush; the next request
goes through, and the server has answered the first. -/
def flushFailsOnce : SocketTransport :=
  .fromStream (.fresh [.ok 25, .ok 25] [.error flushError, .ok ()])
    [.ok sampleHello, .ok (sampleServer [[]] ++ [newline])] ⟨id, 0, 1000⟩

/-- After the failed flush the stream refuses every write. -/
def flushFailsForGood : SocketTransport :=
  .fromStream (.fresh [.ok 25, .err flushError] [.error flushError]) [.ok sampleHello] ⟨id, 0, 1000⟩

/-- What can be compared of an entry. -/
structure View where
  command : Command
  outcome : Except Error Answer
  before : List WriteRecord
  after : List WriteRecord
  deriving DecidableEq

def Entry.view (e : Entry τ) : View := ⟨e.command, e.outcome, e.before.records, e.after.records⟩

/-- A run whose entries can be compared to the given ones. -/
theorem started_run {std : FloatText} {t : τ} (commands : List Command) {views : List View}
    {P : Entry τ → Prop} [DecidablePred P]
    (ran : ((Session.start std t none commands).map fun r => r.map fun run =>
      (run.2.1.map Entry.view, run.2.1.all fun e => decide (P e))) = .ok (.ok (views, true))) :
    ∃ s s' entries, (∃ u, Session.new t none = .ok (.ok s, u)) ∧
      Run (Session.Step std) s entries s' ∧ entries.map Entry.view = views ∧ ∀ e ∈ entries, P e := by
  cases started : Session.start std t none commands with
  | error halt =>
      rw [started] at ran
      cases ran
  | ok made =>
      cases made with
      | error e =>
          rw [started] at ran
          cases ran
      | ok all =>
          obtain ⟨s, entries, s'⟩ := all
          rw [started] at ran
          injection ran with inner
          injection inner with inner
          injection inner with same holds
          obtain ⟨created, run⟩ := Session.start_run started
          refine ⟨s, s', entries, created, run, same, fun e inside => ?_⟩
          exact of_decide_eq_true (List.all_eq_true.mp holds e inside)

def flushRecord (path : String) (ok : Bool) : WriteRecord :=
  ⟨encodeRequestLine [opField "load", ("path", Json.str path)], 25, ok⟩

/-- The load whose flush failed. -/
def flushFailed : View := ⟨.op (.load "a"), .error (.io flushError), [], [flushRecord "a" false]⟩

theorem flushFailed_write_failed {e : Entry τ} (view : e.view = flushFailed) : WriteFailed e := by
  injection view with command outcome before after
  refine ⟨⟨.io flushError, outcome⟩, flushRecord "a" false, ?_, rfl⟩
  rw [before, after]
  rfl

/-- The second load returns the reply to the first, whose write had failed. -/
theorem write_failure_not_poisoned :
    ¬ WriteFailurePoisons sampleFloatText SocketTransport fun _ _ => True := by
  intro poisons
  obtain ⟨s, s', entries, ⟨u, created⟩, run, views, _⟩ :
      ∃ s s' entries, (∃ u, Session.new flushFailsOnce none = .ok (.ok s, u)) ∧
        Run (Session.Step sampleFloatText) s entries s' ∧ entries.map Entry.view =
          [flushFailed, ⟨.op (.load "b"), .ok .load, [flushRecord "a" false],
            [flushRecord "a" false, flushRecord "b" true]⟩] ∧ ∀ e ∈ entries, True := by
    apply started_run loads
    decide +kernel
  obtain ⟨first, rest, rfl, one, views⟩ := List.map_eq_cons_iff.mp views
  obtain ⟨second, tail, rfl, two, views⟩ := List.map_eq_cons_iff.mp views
  have owed := poisons flushFailsOnce u none s s' (first :: second :: tail) ⟨rfl, rfl⟩ created run
    (fun _ _ => trivial) [] first (second :: tail) rfl (flushFailed_write_failed one) second
    List.mem_cons_self
  injection two with command outcome
  obtain ⟨err, failed, _⟩ := owed.errs (.load "b") command (by decide)
  rw [outcome] at failed
  cases failed

/-- Where the stream keeps failing the second load fails as well. -/
theorem write_failure_poisons_sample :
    ∃ (first second : Entry SocketTransport), WriteFailed first ∧ Poisoned first second ∧
      second.outcome = .error (.io flushError) := by
  obtain ⟨s, s', entries, ⟨u, created⟩, run, views, keeps⟩ :
      ∃ s s' entries, (∃ u, Session.new flushFailsForGood none = .ok (.ok s, u)) ∧
        Run (Session.Step sampleFloatText) s entries s' ∧ entries.map Entry.view =
          [flushFailed, ⟨.op (.load "b"), .error (.io flushError), [flushRecord "a" false],
            [flushRecord "a" false, { flushRecord "b" false with accepted := 0 }]⟩] ∧
        ∀ e ∈ entries, StreamKeepsFailing sampleFloatText e.before e.command := by
    apply started_run loads
    decide +kernel
  obtain ⟨first, rest, rfl, one, views⟩ := List.map_eq_cons_iff.mp views
  obtain ⟨second, tail, rfl, two, views⟩ := List.map_eq_cons_iff.mp views
  have broke := flushFailed_write_failed one
  have owed := (write_failure_poisons sampleFloatText).1 flushFailsForGood u none s s'
    (first :: second :: tail) ⟨rfl, rfl⟩ created run keeps [] first (second :: tail) rfl broke second
    List.mem_cons_self
  injection two with command outcome
  exact ⟨first, second, broke, owed, outcome⟩

end SanDbOxFormal.Rust
