import SanDbOxFormal.Rust.Deadlines
import SanDbOxFormal.Rust.RequestFraming

/-!
# Deadlines over a run

A bound on the timeouts in use.  While the clock leaves room for it, no computation of the
driver overflows, and what a computation leaves behind has the same room again.
-/

namespace SanDbOxFormal.Rust

open SanDbOxFormal.Library
open SanDbOxFormal.Library.Rfc8259 (Json)
open SanDbOxFormal.Library.Runs
open SanDbOxFormal.Rust.Codec
open SanDbOxFormal.Rust.Transport

/-- Every reading of the clock leaves room for `n`. -/
def Clock.Roomy (clock : Clock) (n : Nat) : Prop := ∀ k, clock.now k + n ≤ clock.latest

def Within (n : Nat) (timeout : Option Nat) : Prop := ∀ t, timeout = some t → t ≤ n

/-- The computation does not overflow, and `Q` holds of what it returns. -/
abbrev Safely {α : Type} (Q : α → Prop) (x : Exec α) : Prop := Ensures (· ≠ overflow) Q x

theorem safely_blocked {α : Type} {Q : α → Prop} : Safely Q (.error .blocked) :=
  Ensures.error nofun

namespace Clock

variable {clock : Clock} {n : Nat}

theorem Roomy.fits {timeout : Option Nat} (roomy : clock.Roomy n) (within : Within n timeout) :
    Fits clock timeout := by
  intro t is
  have small := within t is
  have room := roomy clock.read
  omega

theorem Roomy.timedOut (roomy : clock.Roomy n) (deadline : Option Nat) :
    (clock.timedOut deadline).2.Roomy n := by
  cases deadline with
  | none => exact roomy
  | some d => exact roomy

theorem Roomy.deadline {timeout : Option Nat} (roomy : clock.Roomy n)
    (within : Within n timeout) : Safely (fun r => r.2.Roomy n) (clock.deadline timeout) := by
  refine ⟨deadline_calm_iff.mpr (roomy.fits within), fun r returned => ?_⟩
  cases timeout with
  | none =>
      cases returned
      exact roomy
  | some t =>
      rw [Clock.deadline] at returned
      split at returned
      · cases returned
        exact roomy
      · cases returned

end Clock

theorem within_some {n t : Nat} (small : t ≤ n) : Within n (some t) := by
  intro t' same
  cases same
  exact small

/-! ## Writing -/

theorem writeAll_calm (writes : List WriteResult) (line : List UInt8) :
    Calm (writeAll writes line) := by
  fun_induction writeAll writes line with
  | case1 writes => exact calm_ok _
  | case2 b bs => exact calm_blocked
  | case3 rest b bs => exact calm_ok _
  | case4 n rest b bs positive small ih => exact ih.bind fun _ _ => calm_ok _
  | case5 n rest b bs positive large =>
      apply Throws.error
      intro same
      exact absurd (Halt.panicked.inj same) (by decide)
  | case6 e rest b bs retried ih => exact ih
  | case7 e rest b bs fatal => exact calm_ok _

theorem Sink.writeLine_calm (s : Sink) (line : List UInt8) : Calm (s.writeLine line) := by
  apply (writeAll_calm s.writes line).bind
  rintro ⟨written, taken, writes⟩ _
  cases written with
  | error e => exact calm_ok _
  | ok =>
      dsimp only
      split
      · exact calm_blocked
      · exact calm_ok _
      · exact calm_ok _

/-! ## The two transports -/

/-- A transport that computes a deadline from each of its timeouts. -/
class Punctual (τ : Type) extends Transport τ where
  /-- Every clock of the transport leaves room for so much. -/
  roomy : τ → Nat → Prop
  written : ∀ {t : τ} {n : Nat} (line : List UInt8), roomy t n →
    Safely (fun r => roomy r.2 n) (writeLine t line)
  heard : ∀ {t : τ} {n : Nat} {timeout : Option Nat}, roomy t n → Within n timeout →
    Safely (fun r => roomy r.2 n) (readLine t timeout)
  shut : ∀ {t : τ} {n timeout : Nat}, roomy t n → timeout ≤ n →
    Safely (fun r => roomy r n) (close t timeout)

namespace Transport

variable {n : Nat}

namespace ThreadedReader

theorem readLoop_safely (deadline : Option Nat) (turns : List Turn) (r : ThreadedReader)
    (roomy : r.clock.Roomy n) :
    Safely (fun result => result.2.clock.Roomy n) (readLoop deadline turns r) := by
  induction turns generalizing r with
  | nil => exact safely_blocked
  | cons turn rest ih =>
      cases turn with
      | thread => exact ih _ roomy
      | wake =>
          rw [readLoop]
          dsimp only
          split
          · exact .ok roomy
          · exact .ok roomy
          · split
            · exact .ok roomy
            · have later : (r.clock.timedOut deadline).2.Roomy n := roomy.timedOut deadline
              split
              · exact .ok later
              · exact ih _ later

theorem joinLoop_safely (deadline : Option Nat) (turns : List Turn) (r : ThreadedReader)
    (roomy : r.clock.Roomy n) : Safely (fun r => r.clock.Roomy n) (joinLoop deadline turns r) := by
  induction turns generalizing r with
  | nil => exact safely_blocked
  | cons turn rest ih =>
      cases turn with
      | thread => exact ih _ roomy
      | wake =>
          rw [joinLoop]
          dsimp only
          split
          · exact .ok roomy
          · have later : (r.clock.timedOut deadline).2.Roomy n := roomy.timedOut deadline
            split
            · exact .ok later
            · exact ih _ later

theorem readLine_safely {r : ThreadedReader} {timeout : Option Nat} (roomy : r.clock.Roomy n)
    (within : Within n timeout) :
    Safely (fun result => result.2.clock.Roomy n) (r.readLine timeout) := by
  rw [readLine]
  split
  · exact .ok roomy
  · exact (roomy.deadline within).bind fun _ later => readLoop_safely _ _ _ later

theorem join_safely {r : ThreadedReader} {timeout : Nat} (roomy : r.clock.Roomy n)
    (small : timeout ≤ n) : Safely (fun r => r.clock.Roomy n) (r.join timeout) :=
  (roomy.deadline (within_some small)).bind fun _ later => joinLoop_safely _ _ _ later

end ThreadedReader

namespace SocketTransport

theorem readLoop_safely (deadline : Option Nat) (reads : List ReadResult) (s : SocketTransport)
    (roomy : s.clock.Roomy n) :
    Safely (fun result => result.2.clock.Roomy n) (readLoop deadline reads s) := by
  induction reads generalizing s with
  | nil => exact safely_blocked
  | cons first rest ih =>
      -- A wait that brought nothing looks at the clock and goes on.
      have waited (s : SocketTransport) (roomy : s.clock.Roomy n) :
          Safely (fun result => result.2.clock.Roomy n)
            (if (s.timedOut deadline).1 then .ok (.error readTimeout, (s.timedOut deadline).2)
              else readLoop deadline rest (s.timedOut deadline).2) := by
        have later : (s.clock.timedOut deadline).2.Roomy n := roomy.timedOut deadline
        split
        · exact .ok later
        · exact ih _ later
      cases first with
      | ok chunk =>
          rw [readLoop]
          dsimp only
          split
          · exact .ok roomy
          · have kept := takeOrTerminal_clock
              { s with reads := rest, framer := s.framer.push chunk }
            have later := kept ▸ roomy
            split
            · exact .ok later
            · exact .ok later
            · exact waited _ later
      | err e =>
          rw [readLoop]
          dsimp only
          split
          · exact waited _ roomy
          · exact waited _ roomy
          · exact ih _ roomy
          · exact .ok roomy

theorem readLine_safely {s : SocketTransport} {timeout : Option Nat} (roomy : s.clock.Roomy n)
    (within : Within n timeout) :
    Safely (fun result => result.2.clock.Roomy n) (s.readLine timeout) := by
  have kept : s.takeOrTerminal.2.clock.Roomy n := (takeOrTerminal_clock s).symm ▸ roomy
  rw [readLine]
  split
  · exact .ok roomy
  · dsimp only
    split
    · exact .ok kept
    · exact .ok kept
    · exact (kept.deadline within).bind fun _ later => readLoop_safely _ _ _ later

instance : Punctual SocketTransport where
  roomy s n := s.clock.Roomy n
  written line roomy := by
    refine Ensures.bind ⟨Sink.writeLine_calm _ line, fun _ _ => trivial⟩ ?_
    rintro ⟨result, sink⟩ _
    exact .ok roomy
  heard roomy within := readLine_safely roomy within
  shut roomy _ := .ok roomy

end SocketTransport

namespace Child

theorem waitLoop_safely (deadline : Option Nat) (tries : List (Except IoError (Option ExitStatus)))
    (c : Child) (clock : Clock) (roomy : clock.Roomy n) :
    Safely (fun result => result.2.2.Roomy n) (waitLoop deadline tries c clock) := by
  induction tries generalizing c clock with
  | nil => exact safely_blocked
  | cons first rest ih =>
      have waited (c : Child) : Safely (fun result => result.2.2.Roomy n)
          (if (clock.timedOut deadline).1 then .ok (none, c, (clock.timedOut deadline).2)
            else waitLoop deadline rest c (clock.timedOut deadline).2) := by
        have later : (clock.timedOut deadline).2.Roomy n := roomy.timedOut deadline
        split
        · exact .ok later
        · exact ih _ _ later
      rcases first with e | _ | status
      · exact waited _
      · exact waited _
      · exact .ok roomy

theorem waitBounded_safely {c : Child} {clock : Clock} {timeout : Nat} (roomy : clock.Roomy n)
    (small : timeout ≤ n) :
    Safely (fun result => result.2.2.Roomy n) (c.waitBounded clock timeout) :=
  (roomy.deadline (within_some small)).bind fun _ later => waitLoop_safely _ _ _ _ later

theorem wait_calm (c : Child) : Calm c.wait := by
  rw [wait]
  split
  · exact calm_blocked
  · exact calm_ok _

theorem shutdown_safely {c : Child} {clock : Clock} {timeout : Nat} (roomy : clock.Roomy n)
    (small : timeout ≤ n) :
    Safely (fun result => result.2.2.Roomy n) (c.shutdown clock timeout) := by
  apply (waitBounded_safely roomy small).bind
  rintro ⟨status, c, clock⟩ roomy
  cases status with
  | some status => exact .ok roomy
  | none =>
      apply (waitBounded_safely roomy small).bind
      rintro ⟨status, c, clock⟩ roomy
      cases status with
      | some status => exact .ok roomy
      | none => exact Ensures.bind ⟨wait_calm _, fun _ _ => trivial⟩ fun _ _ => .ok roomy

end Child

namespace DirectTransport

/-- The clock of the shutdown and that of the reader. -/
def Roomy (d : DirectTransport) (n : Nat) : Prop :=
  d.clock.Roomy n ∧ ∀ r, d.reader = some r → r.clock.Roomy n

theorem readLine_safely {d : DirectTransport} {timeout : Option Nat} (roomy : d.Roomy n)
    (within : Within n timeout) : Safely (fun result => result.2.Roomy n) (d.readLine timeout) := by
  rw [readLine]
  split
  · rename_i r held
    refine (ThreadedReader.readLine_safely (roomy.2 r held) within).bind fun result later => ?_
    refine .ok ⟨roomy.1, fun r' same => ?_⟩
    cases same
    exact later
  · exact .ok roomy

theorem dropReader_safely {d : DirectTransport} {timeout : Nat} (roomy : d.Roomy n)
    (small : timeout ≤ n) : Safely (fun d => d.Roomy n) (d.dropReader timeout) := by
  rw [dropReader]
  split
  · exact .ok roomy
  · rename_i r held
    refine (ThreadedReader.join_safely (roomy.2 r held) small).bind fun r' _ => ?_
    refine .ok ⟨roomy.1, fun other is => ?_⟩
    cases is

theorem joinStderr_calm (thread : Option Bool) : Calm (joinStderr thread) := by
  rw [joinStderr.eq_def]
  split
  · exact calm_blocked
  · exact calm_ok _

theorem close_safely {d : DirectTransport} {timeout : Nat} (roomy : d.Roomy n)
    (small : timeout ≤ n) : Safely (fun d => d.Roomy n) (d.close timeout) := by
  rw [close]
  split
  · exact .ok roomy
  · apply (Child.shutdown_safely roomy.1 small).bind
    rintro ⟨status, child, clock⟩ later
    refine Ensures.bind ⟨joinStderr_calm _, fun _ _ => trivial⟩ fun _ _ => ?_
    exact dropReader_safely ⟨later, roomy.2⟩ small

instance : Punctual DirectTransport where
  roomy := Roomy
  written {d} _ line roomy := by
    change Safely _ (d.writeLine line)
    rw [writeLine]
    split
    · refine Ensures.bind ⟨Sink.writeLine_calm _ line, fun _ _ => trivial⟩ ?_
      rintro ⟨result, pipe⟩ _
      exact .ok roomy
    · exact .ok roomy
  heard roomy within := readLine_safely roomy within
  shut roomy small := close_safely roomy small

end DirectTransport

end Transport

/-! ## Sessions -/

namespace Session

variable {τ : Type} [Punctual τ] {n : Nat}

/-- The transport has room for `n`, and no read of a reply waits for longer. -/
def Roomy (s : Session τ) (n : Nat) : Prop :=
  Punctual.roomy s.transport n ∧ Within n s.defaultTimeout

theorem new_safely {t : τ} {timeout : Option Nat} (roomy : Punctual.roomy t n)
    (within : Within n timeout) (enough : closeTimeout ≤ n) :
    Safely (fun result => ∀ s, result.1 = .ok s → s.Roomy n) (Session.new t timeout) := by
  apply (Punctual.heard roomy within).bind
  rintro ⟨read, t⟩ later
  dsimp only
  split
  · refine .ok fun s same => ?_
    cases same
    exact ⟨later, within⟩
  · exact (Punctual.shut later enough).bind fun _ _ => .ok nofun

theorem call_safely {s : Session τ} (roomy : s.Roomy n) (enough : closeTimeout ≤ n)
    (fields : List (String × Json)) :
    Safely (fun result => result.2.Roomy n) (s.call fields) := by
  rw [call]
  split
  · exact .ok roomy
  · apply (Punctual.written (encodeRequestLine fields) roomy.1).bind
    rintro ⟨written, t⟩ sent
    cases written with
    | error e => exact .ok ⟨sent, roomy.2⟩
    | ok =>
        apply (Punctual.heard sent roomy.2).bind
        rintro ⟨read, u⟩ heard
        dsimp only
        split
        · exact .ok ⟨heard, roomy.2⟩
        · exact (Punctual.shut heard enough).bind fun v torn => .ok ⟨torn, roomy.2⟩
        · exact .ok ⟨heard, roomy.2⟩

theorem close_safely {s : Session τ} (roomy : s.Roomy n) (enough : closeTimeout ≤ n) :
    Safely (fun s => s.Roomy n) s.close := by
  rw [close]
  split
  · exact .ok roomy
  · apply (Punctual.written (encodeRequestLine [opField "close"]) roomy.1).bind
    rintro ⟨sent, t⟩ wrote
    have dropped : Safely (fun t => Punctual.roomy t n) (dropReply sent t) := by
      cases sent with
      | error e => exact .ok wrote
      | ok => exact (Punctual.heard wrote (within_some enough)).bind fun r heard => .ok heard
    apply dropped.bind
    intro u heard
    exact (Punctual.shut heard enough).bind fun v torn => .ok ⟨torn, roomy.2⟩

theorem ask_safely {α : Type} {s : Session τ} (roomy : s.Roomy n) (enough : closeTimeout ≤ n)
    (fields : Except Error (List (String × Json))) (decode : Json → Except Error α) :
    Safely (fun result => result.2.Roomy n) (s.ask fields decode) := by
  cases fields with
  | error e => exact .ok roomy
  | ok object => exact (call_safely roomy enough object).bind fun r later => .ok later

theorem tag_safely {α : Type} {f : α → Answer} {ran : Exec (Except Error α × Session τ)}
    (safely : Safely (fun result => result.2.Roomy n) ran) :
    Safely (fun result => result.2.Roomy n) (tag f ran) :=
  safely.bind fun _ later => .ok later

theorem overwrite_safely {s : Session τ} (std : FloatText) (roomy : s.Roomy n)
    (enough : closeTimeout ≤ n) :
    Safely (fun result => result.2.Roomy n) (s.overwrite std) := by
  apply (ask_safely roomy enough _ _).bind
  rintro ⟨result, t⟩ later
  cases result with
  | error e => exact .ok later
  | ok => exact (close_safely later enough).bind fun u torn => .ok torn

theorem perform_safely {s : Session τ} (std : FloatText) (roomy : s.Roomy n)
    (enough : closeTimeout ≤ n) (request : Request) :
    Safely (fun result => result.2.Roomy n) (s.perform std request) := by
  cases request with
  | query sql params => exact tag_safely (ask_safely roomy enough _ _)
  | exec sql params => exact tag_safely (ask_safely roomy enough _ _)
  | snapshot opts => exact tag_safely (ask_safely roomy enough _ _)
  | load path => exact tag_safely (ask_safely roomy enough _ _)
  | inspect => exact tag_safely (ask_safely roomy enough _ _)
  | tables => exact tag_safely (ask_safely roomy enough _ _)
  | schema table => exact tag_safely (ask_safely roomy enough _ _)
  | dump pattern => exact tag_safely (ask_safely roomy enough _ _)
  | overwrite => exact tag_safely (overwrite_safely std roomy enough)
  | close => exact (close_safely roomy enough).bind fun t torn => .ok torn

/-- A command that sets no timeout above `n`. -/
def Admits (n : Nat) : Command → Prop
  | .op _ => True
  | .setTimeout t => Within n t

theorem run_safely {s : Session τ} {c : Command} (std : FloatText) (roomy : s.Roomy n)
    (enough : closeTimeout ≤ n) (admits : Admits n c) :
    Safely (fun result => result.2.Roomy n) (s.run std c) := by
  cases c with
  | op request => exact perform_safely std roomy enough request
  | setTimeout t => exact .ok ⟨roomy.1, admits⟩

theorem step_roomy {std : FloatText} {s t : Session τ} {e : Entry τ} (enough : closeTimeout ≤ n)
    (roomy : s.Roomy n) (step : Step std s e t ∧ Admits n e.command) : t.Roomy n := by
  obtain ⟨⟨returned⟩, admits⟩ := step
  exact (run_safely std roomy enough admits).2 _ returned

end Session

/-- While no timeout in use is above `n`, and the clock has room for `n`, neither the hello
nor a command of any run nor the drop of the session overflows. -/
def RunsCalmly (std : FloatText) (τ : Type) [Punctual τ] : Prop :=
  ∀ (n : Nat) (t : τ) (timeout : Option Nat), closeTimeout ≤ n → Punctual.roomy t n →
    Within n timeout → Calm (Session.new t timeout) ∧
      ∀ (s s' : Session τ) (u : τ) (entries : List (Entry τ)),
        Session.new t timeout = .ok (.ok s, u) → Run (Session.Step std) s entries s' →
        (∀ e ∈ entries, Session.Admits n e.command) →
          (∀ c, Session.Admits n c → Calm (s'.run std c)) ∧ Calm s'.drop

theorem runs_calmly (std : FloatText) (τ : Type) [Punctual τ] : RunsCalmly std τ := by
  intro n t timeout enough room within
  have created := Session.new_safely room within enough
  refine ⟨created.1, fun s s' u entries made run admits => ?_⟩
  have roomy : s'.Roomy n :=
    (run.with_labels admits).invariant (P := fun s => s.Roomy n)
      (fun _ _ _ => Session.step_roomy enough) (created.2 _ made s rfl)
  exact ⟨fun c admitted => (Session.run_safely std roomy enough admitted).1,
    (Session.close_safely roomy enough).1⟩

/-! ## The same timeouts, exactly, over a socket -/

namespace Transport.SocketTransport

/-- A read that has to wait, after which comes the deadline. -/
def Waits (s : SocketTransport) : Prop := s.terminal = none ∧ s.takeOrTerminal.1 = .ok none

theorem hello_calm_iff (sink : Sink) (reads : List ReadResult) (clock : Clock)
    (timeout : Option Nat) :
    Calm (Session.new (fromStream sink reads clock) timeout) ↔ Fits clock timeout := by
  have waits : Waits (fromStream sink reads clock) := ⟨rfl, rfl⟩
  have read := readLine_calm_iff (fromStream sink reads clock) timeout
  refine Throws.bind_iff.trans ⟨fun calm => read.mp calm.1 waits.1 waits.2, fun fits => ?_⟩
  refine ⟨read.mpr fun _ _ => fits, ?_⟩
  rintro ⟨result, s⟩ _
  dsimp only
  split
  · exact calm_ok _
  · exact Throws.bind (calm_ok _) fun _ _ => calm_ok _

/-- A call overflows exactly when its request was written, the reply has to be waited for,
and the deadline for that does not fit. -/
theorem call_calm_iff (s : Session SocketTransport) (fields : List (String × Json)) :
    Calm (s.call fields) ↔ (s.closed = false → ∀ t,
      s.transport.writeLine (encodeRequestLine fields) = .ok (.ok (), t) → t.Waits →
        Fits t.clock s.defaultTimeout) := by
  rw [Session.call]
  cases live : s.closed with
  | true => exact ⟨(fun _ is => by cases is), fun _ => calm_ok _⟩
  | false =>
      rw [if_neg Bool.false_ne_true]
      constructor
      · intro calm _ t wrote waits
        have read : Calm (t.readLine s.defaultTimeout) :=
          (Throws.bind_iff.mp ((Throws.bind_iff.mp calm).2 (.ok (), t) wrote)).1
        exact (readLine_calm_iff t _).mp read waits.1 waits.2
      · intro fits
        have written : Calm (s.transport.writeLine (encodeRequestLine fields)) :=
          (Sink.writeLine_calm _ _).bind fun _ _ => calm_ok _
        refine Throws.bind written ?_
        rintro ⟨result, t⟩ wrote
        cases result with
        | error e => exact calm_ok _
        | ok =>
            have read := (readLine_calm_iff t s.defaultTimeout).mpr fun usable none =>
              fits rfl t wrote ⟨usable, none⟩
            refine Throws.bind read ?_
            rintro ⟨answer, u⟩ _
            dsimp only
            split
            · exact calm_ok _
            · exact Throws.bind (calm_ok _) fun _ _ => calm_ok _
            · exact calm_ok _

end Transport.SocketTransport

/-- Where the driver computes a deadline it does not overflow exactly when the reading of the
clock and the timeout add up to an instant; over a run it does not overflow while that is so
of every timeout in use. -/
theorem deadlines_panic (std : FloatText) :
    (∀ resolved whole timeout clock, Calm (dialTcp resolved whole timeout clock) ↔
      (∀ addrs, resolved = .ok addrs → addrs ≠ [] → Fits clock timeout)) ∧
    (∀ (r : ThreadedReader) (timeout : Option Nat), Calm (r.readLine timeout) ↔
      (r.terminal = none → Fits r.clock timeout)) ∧
    (∀ (r : ThreadedReader) (timeout : Nat), Calm (r.join timeout) ↔ Fits r.clock (some timeout)) ∧
    (∀ (s : SocketTransport) (timeout : Option Nat), Calm (s.readLine timeout) ↔
      (s.Waits → Fits s.clock timeout)) ∧
    (∀ sink reads clock timeout,
      Calm (Session.new (SocketTransport.fromStream sink reads clock) timeout) ↔
        Fits clock timeout) ∧
    (∀ (s : Session SocketTransport) (fields : List (String × Json)), Calm (s.call fields) ↔
      (s.closed = false → ∀ t, s.transport.writeLine (encodeRequestLine fields) = .ok (.ok (), t) →
        t.Waits → Fits t.clock s.defaultTimeout)) ∧
    RunsCalmly std SocketTransport ∧ RunsCalmly std DirectTransport := by
  refine ⟨dialTcp_calm_iff, ThreadedReader.readLine_calm_iff, ThreadedReader.join_calm_iff,
    fun s timeout => ?_, SocketTransport.hello_calm_iff, SocketTransport.call_calm_iff,
    runs_calmly std _, runs_calmly std _⟩
  rw [SocketTransport.readLine_calm_iff, SocketTransport.Waits, and_imp]

/-- `Duration::MAX`. -/
def durationMax : Nat := (2 ^ 64 - 1) * 10 ^ 9 + 999999999

/-- A clock at its beginning; an instant holds as many seconds as a signed word of 64 bits. -/
def instantClock : Clock := ⟨fun _ => 0, 0, (2 ^ 63 - 1) * 10 ^ 9 + 999999999⟩

/-- A stream that takes the line in one write. -/
theorem writeLine_once {line : List UInt8} (filled : line ≠ []) :
    (Sink.fresh [.ok line.length] [.ok ()]).writeLine line =
      .ok (.ok (), (Sink.fresh [] []).record line line true) := by
  obtain ⟨b, bs, rfl⟩ := List.exists_cons_of_ne_nil filled
  have whole : writeAll [.ok (b :: bs).length] (b :: bs) = .ok (.ok (), b :: bs, []) := by
    rw [writeAll, if_neg (mt List.length_eq_zero_iff.mp filled), if_pos (Nat.le_refl _),
      List.drop_length, List.take_length]
    refine bind_ok_iff.mpr ⟨_, rfl, ?_⟩
    dsimp only
    rw [List.append_nil]
  exact bind_ok_iff.mpr ⟨_, whole, rfl⟩

/-- A timeout of `Duration::MAX` overflows in the hello; set later, it overflows in a call,
whose request the stream has taken by then. -/
theorem longest_timeout_panics :
    ¬ Calm (Session.new (SocketTransport.fromStream (.fresh [] []) [] instantClock)
      (some durationMax)) ∧
    ∃ (s : Session SocketTransport) (t : SocketTransport), s.closed = false ∧
      s.transport.writeLine (encodeRequestLine [opField "tables"]) = .ok (.ok (), t) ∧
      t.sink.accepted = encodeRequestLine [opField "tables"] ∧
      ¬ Calm ((s.setTimeout (some durationMax)).call [opField "tables"]) := by
  have unfit : ¬ Fits instantClock (some durationMax) := by
    intro fits
    have sum := fits _ rfl
    simp only [instantClock, durationMax] at sum
    omega
  refine ⟨fun calm => unfit ((SocketTransport.hello_calm_iff _ _ _ _).mp calm), ?_⟩
  let line := encodeRequestLine [opField "tables"]
  have filled : line ≠ [] := by
    rw [show line = _ from encodeRequestLine_eq _]
    exact List.append_ne_nil_of_right_ne_nil _ (List.cons_ne_nil _ _)
  let before := SocketTransport.fromStream (.fresh [.ok line.length] [.ok ()]) [] instantClock
  let after := SocketTransport.fromStream ((Sink.fresh [] []).record line line true) [] instantClock
  have sent : before.writeLine line = .ok (.ok (), after) :=
    bind_ok_iff.mpr ⟨_, writeLine_once filled, rfl⟩
  refine ⟨⟨⟨1, "0.1.0", "san-db-ox"⟩, before, none, false⟩, after, rfl, sent, rfl, ?_⟩
  intro calm
  exact unfit ((SocketTransport.call_calm_iff _ _).mp calm rfl after sent ⟨rfl, rfl⟩)

end SanDbOxFormal.Rust
