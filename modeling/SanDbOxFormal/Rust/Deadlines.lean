import SanDbOxFormal.Library.Failures
import SanDbOxFormal.Rust.SessionRuns
import SanDbOxFormal.Rust.Transport.Direct
import SanDbOxFormal.Rust.Transport.Socket

/-!
# Deadlines

A deadline is a reading of the clock and a timeout, added up; the sum panics behind the
latest instant.  The connect, the hello and every operation compute one from the timeout
that the user has chosen, an operation only once its request was written.
-/

namespace SanDbOxFormal.Rust

open SanDbOxFormal.Library
open SanDbOxFormal.Library.Rfc8259 (Json)
open SanDbOxFormal.Library.Runs
open SanDbOxFormal.Rust.Codec
open SanDbOxFormal.Rust.Transport

/-- The panic of `Instant + Duration`. -/
def overflow : Halt := .panicked "overflow when adding duration to instant"

/-- No deadline overflows. -/
def Calm {α : Type} (x : Exec α) : Prop := Throws (· ≠ overflow) x

theorem calm_ok {α : Type} (a : α) : Calm (.ok a) := Throws.ok a

theorem calm_blocked {α : Type} : Calm (.error .blocked : Exec α) := Throws.error nofun

/-- The deadline that is computed next can be represented. -/
def Fits (clock : Clock) (timeout : Option Nat) : Prop :=
  ∀ t, timeout = some t → clock.now clock.read + t ≤ clock.latest

theorem deadline_calm_iff {clock : Clock} {timeout : Option Nat} :
    Calm (clock.deadline timeout) ↔ Fits clock timeout := by
  cases timeout with
  | none => exact ⟨fun _ => nofun, fun _ => calm_ok _⟩
  | some t =>
      rw [Clock.deadline]
      by_cases fits : clock.now clock.read + t ≤ clock.latest
      · rw [if_pos fits]
        exact ⟨fun _ t' same => Option.some.inj same ▸ fits, fun _ => calm_ok _⟩
      · rw [if_neg fits]
        exact ⟨fun calm => absurd rfl (calm overflow rfl), fun all => absurd (all t rfl) fits⟩

/-- Where the rest of a computation is calm, its deadline decides. -/
theorem deadline_bind_iff {α : Type} {clock : Clock} {timeout : Option Nat}
    {f : Option Nat × Clock → Exec α} (rest : ∀ r, Calm (f r)) :
    Calm (clock.deadline timeout >>= f) ↔ Fits clock timeout := by
  rw [← deadline_calm_iff]
  exact Throws.bind_iff.trans (and_iff_left fun r _ => rest r)

/-! ## Connecting -/

/-- The loop over the addresses of `dial_tcp`, with what each `connect_timeout` returns. -/
def dialLoop (deadline : Nat) :
    List (Except IoError Unit) → Option IoError → Clock → Exec (Except Error Unit × Clock)
  | [], last, clock => .ok (.error (failed last), clock)
  | result :: rest, last, clock =>
      let remaining := deadline - clock.now clock.read
      if remaining = 0 then .ok (.error (failed last), clock.tick)
      else
        match result with
        | .ok () => .ok (.ok (), clock.tick)
        | .error e => dialLoop deadline rest (some e) clock.tick
where
  failed (last : Option IoError) : Error :=
    match last with
    | some e => .io e
    | none => .timeout "connect timed out"

/-- `dial_tcp`: what the addresses resolve to, what `connect` returns for all of them, and
what `connect_timeout` returns for each. -/
def dialTcp (resolved : Except IoError (List (Except IoError Unit))) (whole : Except IoError Unit)
    (timeout : Option Nat) (clock : Clock) : Exec (Except Error Unit × Clock) :=
  match resolved with
  | .error e => .ok (.error (.io e), clock)
  | .ok addrs =>
      if addrs.isEmpty then .ok (.error (.io ⟨.invalidInput, "no addresses to connect to"⟩), clock)
      else
        match timeout with
        | none => .ok (whole.mapError .io, clock)
        | some t => do
            let (deadline, clock) ← clock.deadline (some t)
            dialLoop (deadline.getD 0) addrs none clock

theorem dialLoop_calm (deadline : Nat) (addrs : List (Except IoError Unit)) (last : Option IoError)
    (clock : Clock) : Calm (dialLoop deadline addrs last clock) := by
  induction addrs generalizing last clock with
  | nil => exact calm_ok _
  | cons result rest ih =>
      rw [dialLoop.eq_def]
      dsimp only
      split
      · exact calm_ok _
      · split
        · exact calm_ok _
        · exact ih _ _

/-- The connect panics exactly when there is an address and the deadline does not fit. -/
theorem dialTcp_calm_iff (resolved : Except IoError (List (Except IoError Unit))) (whole : Except IoError Unit)
    (timeout : Option Nat) (clock : Clock) : Calm (dialTcp resolved whole timeout clock) ↔
      (∀ addrs, resolved = .ok addrs → addrs ≠ [] → Fits clock timeout) := by
  cases resolved with
  | error e => exact ⟨fun _ => nofun, fun _ => calm_ok _⟩
  | ok addrs =>
      rw [dialTcp.eq_def]
      dsimp only
      cases addrs with
      | nil =>
          refine ⟨fun _ addrs same filled => ?_, fun _ => calm_ok _⟩
          cases same
          exact absurd rfl filled
      | cons first rest =>
          have any : (∀ addrs, (.ok (first :: rest) : Except IoError _) = .ok addrs → addrs ≠ [] →
              Fits clock timeout) ↔ Fits clock timeout :=
            ⟨fun all => all _ rfl (List.cons_ne_nil _ _), fun fits _ _ _ => fits⟩
          rw [any, List.isEmpty_cons, if_neg Bool.false_ne_true]
          cases timeout with
          | none => exact ⟨fun _ => nofun, fun _ => calm_ok _⟩
          | some t => exact deadline_bind_iff fun r => dialLoop_calm _ _ _ _

/-! ## Reading a line -/

namespace Transport.ThreadedReader

theorem readLoop_calm (deadline : Option Nat) (turns : List Turn) (r : ThreadedReader) :
    Calm (readLoop deadline turns r) := by
  induction turns generalizing r with
  | nil => exact calm_blocked
  | cons turn rest ih =>
      cases turn with
      | thread => exact ih _
      | wake =>
          rw [readLoop]
          dsimp only
          split
          · exact calm_ok _
          · exact calm_ok _
          · split
            · exact calm_ok _
            · split
              · exact calm_ok _
              · exact ih _

theorem joinLoop_calm (deadline : Option Nat) (turns : List Turn) (r : ThreadedReader) :
    Calm (joinLoop deadline turns r) := by
  induction turns generalizing r with
  | nil => exact calm_blocked
  | cons turn rest ih =>
      cases turn with
      | thread => exact ih _
      | wake =>
          rw [joinLoop]
          dsimp only
          split
          · exact calm_ok _
          · split
            · exact calm_ok _
            · exact ih _

/-- A read panics exactly when it has no error to tell again and its deadline does not fit. -/
theorem readLine_calm_iff (r : ThreadedReader) (timeout : Option Nat) :
    Calm (r.readLine timeout) ↔ (r.terminal = none → Fits r.clock timeout) := by
  rw [readLine]
  split
  · rename_i e told
    refine ⟨fun _ none => ?_, fun _ => calm_ok _⟩
    rw [none] at told
    cases told
  · rename_i none
    rw [deadline_bind_iff fun x => readLoop_calm _ _ _]
    exact ⟨fun fits _ => fits, fun all => all none⟩

theorem join_calm_iff (r : ThreadedReader) (timeout : Nat) :
    Calm (r.join timeout) ↔ Fits r.clock (some timeout) :=
  deadline_bind_iff fun _ => joinLoop_calm _ _ _

end Transport.ThreadedReader

namespace Transport.SocketTransport

theorem readLoop_calm (deadline : Option Nat) (reads : List ReadResult) (s : SocketTransport) :
    Calm (readLoop deadline reads s) := by
  induction reads generalizing s with
  | nil => exact calm_blocked
  | cons first rest ih =>
      cases first with
      | ok chunk =>
          rw [readLoop]
          dsimp only
          split
          · exact calm_ok _
          · split
            · exact calm_ok _
            · exact calm_ok _
            · split
              · exact calm_ok _
              · exact ih _
      | err e =>
          rw [readLoop]
          dsimp only
          split
          · split
            · exact calm_ok _
            · exact ih _
          · split
            · exact calm_ok _
            · exact ih _
          · exact ih _
          · exact calm_ok _

/-- The same, unless a line is ready or the framer refuses what it holds. -/
theorem readLine_calm_iff (s : SocketTransport) (timeout : Option Nat) :
    Calm (s.readLine timeout) ↔
      (s.terminal = none → s.takeOrTerminal.1 = .ok none → Fits s.clock timeout) := by
  have clock : s.takeOrTerminal.2.clock = s.clock := s.takeOrTerminal_clock
  rw [readLine]
  split
  · rename_i e told
    refine ⟨fun _ none => ?_, fun _ => calm_ok _⟩
    rw [none] at told
    cases told
  · rename_i none
    dsimp only
    split
    · rename_i e taken
      refine ⟨fun _ _ other => ?_, fun _ => calm_ok _⟩
      rw [taken] at other
      cases other
    · rename_i line taken
      refine ⟨fun _ _ other => ?_, fun _ => calm_ok _⟩
      rw [taken] at other
      cases other
    · rename_i taken
      rw [deadline_bind_iff fun x => readLoop_calm _ _ _, clock]
      exact ⟨fun fits _ _ => fits, fun all => all none taken⟩

end Transport.SocketTransport

end SanDbOxFormal.Rust
