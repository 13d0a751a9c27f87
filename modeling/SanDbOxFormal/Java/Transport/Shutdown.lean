import SanDbOxFormal.Java.Transport.SocketTransport
import SanDbOxFormal.Library.Interruption

/-!
# The staged shutdown of the Java driver

`DirectTransport.close` closes the input of the child and waits, sends `SIGTERM` and
waits, and then kills it.  An interrupt ends a wait as if its time were up, and the
status that it sets again ends the next one.
-/

namespace SanDbOxFormal.Java.Transport

open SanDbOxFormal.Library
open SanDbOxFormal.Library.Waiter (Pending)

/-- A `Duration` in nanoseconds, for which `toMillis` does not throw. -/
structure Timeout where
  nanos : Int
  isLong : -2 ^ 63 ≤ toMillis nanos ∧ toMillis nanos < 2 ^ 63

/-- `SanDbOx.CLOSE_TIMEOUT`. -/
def closeTimeout : Timeout := ⟨5000000000, by decide⟩

/-- How long `waitFor(timeout.toMillis(), MILLISECONDS)` waits. -/
def Timeout.wait (timeout : Timeout) : Nat := (toMillis timeout.nanos).toNat * 1000000

theorem Timeout.wait_le (timeout : Timeout) (positive : 0 < timeout.nanos) :
    (timeout.wait : Int) ≤ timeout.nanos := by
  rw [wait, toMillis]
  omega

/-- When the child exits. -/
structure Child where
  /-- If nothing is sent to it. -/
  own : Option Nat
  /-- If `SIGTERM` is sent to it while it runs. -/
  terminated : Nat → Option Nat
  /-- If it is killed behind that. -/
  killed : Nat → Nat

/-- What a shutdown did, and when. -/
structure Shutdown where
  stdinClosed : Option Nat
  destroyed : Option Nat
  destroyedForcibly : Option Nat
  thread : Waiter

/-! ## Waiting -/

/-- `process.waitFor` with a timeout. -/
def waitFor (moments : List Nat) (w : Waiter) (exit : Option Nat) (nanos : Nat) : Waiter.Wake × Waiter :=
  if exit.any (· ≤ w.now) then (.ready, w) else w.block moments exit (w.now + nanos)

/-- Whether the child has exited; the status of an interrupt is set again. -/
def waitBounded (moments : List Nat) (w : Waiter) (exit : Option Nat) (timeout : Timeout) :
    Bool × Waiter :=
  match waitFor moments w exit timeout.wait with
  | (.ready, w) => (true, w)
  | (.interrupted, w) => (false, { w with interrupted := true })
  | (.expired, w) => (false, w)

/-- Goes on waiting through interrupts, and sets the status at the end. -/
def waitForever (moments : List Nat) (w : Waiter) (exit : Nat) : Waiter :=
  ⟨max w.now exit, w.interrupted || moments.any fun m => w.now ≤ m && m < exit⟩

/-- `DirectTransport.close`, the first time. -/
def DirectTransport.close (moments : List Nat) (child : Child) (timeout : Timeout) (w : Waiter) :
    Shutdown :=
  let (exited, w₁) := waitBounded moments w child.own timeout
  if exited then ⟨some w.now, none, none, w₁⟩
  else
    let (exited, w₂) := waitBounded moments w₁ (child.terminated w₁.now) timeout
    if exited then ⟨some w.now, some w₁.now, none, w₂⟩
    else ⟨some w.now, some w₁.now, some w₂.now, waitForever moments w₂ (child.killed w₂.now)⟩

/-- The wait of `ReaderThread.readLine` for an item, which is in the queue from `item` on. -/
def ReaderThread.await (moments : List Nat) (w : Waiter) (item : Option Nat) (limit : Nat) :
    Waiter.Wake × Waiter :=
  match w.block moments item limit with
  | (.interrupted, w) => (.interrupted, { w with interrupted := true })
  | awake => awake

/-- Who calls `DirectTransport.close`. -/
inductive Caller where
  | direct (timeout : Timeout)
  /-- `Session.close`, which waits for a reply unless the request was not sent or the
  reader has ended. -/
  | close (reply : Option (Option Nat))
  /-- `Session.call`, which closes the transport when the reply does not come in time. -/
  | call (reply : Option Nat) (limit : Nat)

namespace Caller

def timeout : Caller → Timeout
  | direct timeout => timeout
  | close _ => closeTimeout
  | call _ _ => closeTimeout

/-- The thread when it enters `DirectTransport.close`, if it does. -/
def enter (moments : List Nat) (w : Waiter) : Caller → Option Waiter
  | direct _ => some w
  | close none => some w
  | close (some reply) => some (ReaderThread.await moments w reply (w.now + closeTimeout.wait)).2
  | call reply limit =>
      match ReaderThread.await moments w reply limit with
      | (.expired, w) => some w
      | _ => none

def shutdown (caller : Caller) (moments : List Nat) (child : Child) (w : Waiter) : Shutdown :=
  match caller.enter moments w with
  | some v => DirectTransport.close moments child caller.timeout v
  | none => ⟨none, none, none, w⟩

end Caller

/-! ## What a wait tells -/

/-- No interrupt meets a wait for a running child. -/
def Uninterrupted (moments : List Nat) (w : Waiter) (exit : Option Nat) (nanos : Nat) : Prop :=
  Pending exit w.now → w.interrupted = false ∧
    ∀ m ∈ moments, w.now ≤ m → m < w.now + nanos → ¬ Pending exit m

/-- How a bounded wait ends. -/
inductive Waited (moments : List Nat) (w : Waiter) (exit : Option Nat) (timeout : Timeout) :
    Bool × Waiter → Prop where
  | exited {w' : Waiter} (calm : Uninterrupted moments w exit timeout.wait)
      (gone : ¬ Pending exit (w.now + timeout.wait)) : Waited moments w exit timeout (true, w')
  | expired (calm : Uninterrupted moments w exit timeout.wait)
      (pending : Pending exit (w.now + timeout.wait)) :
      Waited moments w exit timeout (false, ⟨w.now + timeout.wait, false⟩)
  | interrupted {t : Nat} (disturbed : ¬ Uninterrupted moments w exit timeout.wait)
      (pending : Pending exit t) (since : w.now ≤ t) (early : t = w.now ∨ t < w.now + timeout.wait) :
      Waited moments w exit timeout (false, ⟨t, true⟩)

theorem waitBounded_waited (moments : List Nat) (w : Waiter) (exit : Option Nat) (timeout : Timeout) :
    Waited moments w exit timeout (waitBounded moments w exit timeout) := by
  rw [waitBounded, waitFor]
  split_ifs with gone
  · obtain ⟨e, is, before⟩ := (Option.any_eq_true _ _).mp gone
    have past : e ≤ w.now := of_decide_eq_true before
    refine .exited (fun pending => ?_) fun pending => ?_
    · exact absurd (pending e is) (Nat.not_lt_of_le past)
    · have later := pending e is
      omega
  · have running : Pending exit w.now := by
      rintro e rfl
      simpa using gone
    have blocked := w.block_blocked moments exit (w.now + timeout.wait)
    generalize w.block moments exit (w.now + timeout.wait) = result at blocked
    cases blocked with
    | ready came since early within calm quiet =>
        refine .exited (fun _ => ⟨calm, fun m inside later short pending => ?_⟩) fun pending => ?_
        · exact absurd (quiet m inside later short) (Nat.not_le_of_lt (pending _ came))
        · exact absurd (pending _ came) (Nat.not_lt_of_le within)
    | already status =>
        refine .interrupted (fun calm => ?_) running (Nat.le_refl _) (.inl rfl)
        rw [(calm running).1] at status
        cases status
    | interrupted inside since early pending calm =>
        exact .interrupted (fun calm => (calm running).2 _ inside since early pending) pending
          since (.inr early)
    | expired pending calm quiet =>
        refine .expired (fun _ => ⟨calm, fun m inside later short _ => ?_⟩) pending
        exact absurd (quiet m inside later) (Nat.not_le_of_lt short)

/-- A wait without an exit leaves a running child behind, no sooner than it began. -/
theorem Waited.running {moments : List Nat} {w w' : Waiter} {exit : Option Nat} {timeout : Timeout}
    (waited : Waited moments w exit timeout (false, w')) :
    Pending exit w'.now ∧ w.now ≤ w'.now := by
  cases waited with
  | expired calm pending => exact ⟨pending, Nat.le_add_right _ _⟩
  | interrupted disturbed pending since early => exact ⟨pending, since⟩

/-- It took its full timeout exactly if it was not interrupted and the timeout is a whole
number of milliseconds. -/
theorem Waited.full_iff {moments : List Nat} {w w' : Waiter} {exit : Option Nat} {timeout : Timeout}
    (positive : 0 < timeout.nanos) (waited : Waited moments w exit timeout (false, w')) :
    w.now + timeout.nanos ≤ w'.now ↔
      Uninterrupted moments w exit timeout.wait ∧ timeout.wait = timeout.nanos := by
  have within := timeout.wait_le positive
  cases waited with
  | expired calm pending =>
      rw [and_iff_right calm]
      dsimp only
      omega
  | interrupted disturbed pending since early =>
      refine iff_of_false (fun full => ?_) fun both => disturbed both.1
      dsimp only at full
      omega

theorem Waited.calm {moments : List Nat} {w w' : Waiter} {exit : Option Nat} {timeout : Timeout}
    (waited : Waited moments w exit timeout (false, w'))
    (calm : Uninterrupted moments w exit timeout.wait) :
    w' = ⟨w.now + timeout.wait, false⟩ ∧ Pending exit (w.now + timeout.wait) := by
  cases waited with
  | expired _ pending => exact ⟨rfl, pending⟩
  | interrupted disturbed => exact absurd calm disturbed

theorem Waited.exit {moments : List Nat} {w w' : Waiter} {exit : Option Nat} {timeout : Timeout}
    (waited : Waited moments w exit timeout (true, w')) :
    Uninterrupted moments w exit timeout.wait ∧ ¬ Pending exit (w.now + timeout.wait) := by
  cases waited with
  | exited calm gone => exact ⟨calm, gone⟩

/-! ## Escalation -/

/-- No signal is sent before its time: `SIGTERM` only to a child that still runs a full
timeout after its input was closed, and `SIGKILL` a further full timeout later. -/
structure Unhurried (child : Child) (timeout : Timeout) (s : Shutdown) : Prop where
  destroy : ∀ t, s.destroyed = some t → ∃ begun, s.stdinClosed = some begun ∧
    begun + timeout.nanos ≤ t ∧ Pending child.own t
  destroyForcibly : ∀ t, s.destroyedForcibly = some t → ∃ t₁, s.destroyed = some t₁ ∧
    t₁ + timeout.nanos ≤ t ∧ Pending (child.terminated t₁) t

/-- A server that exits within its time is not signalled. -/
theorem Unhurried.spares {child : Child} {timeout : Timeout} {s : Shutdown} {begun e : Nat}
    (unhurried : Unhurried child timeout s) (closed : s.stdinClosed = some begun)
    (exits : child.own = some e) (early : e ≤ begun + timeout.nanos) :
    s.destroyed = none ∧ s.destroyedForcibly = none := by
  have spared : s.destroyed = none := by
    cases sent : s.destroyed with
    | none => rfl
    | some t =>
        obtain ⟨begun', same, full, pending⟩ := unhurried.destroy t sent
        rw [closed] at same
        cases same
        have running := pending e exits
        omega
  refine ⟨spared, ?_⟩
  cases sent : s.destroyedForcibly with
  | none => rfl
  | some t =>
      obtain ⟨t₁, destroyed, _⟩ := unhurried.destroyForcibly t sent
      rw [spared] at destroyed
      cases destroyed

/-- No interrupt meets the waits of a shutdown, and where the first runs out its
timeout is a whole number of milliseconds. -/
structure Undisturbed (moments : List Nat) (child : Child) (timeout : Timeout) (w : Waiter) : Prop where
  first : Uninterrupted moments w child.own timeout.wait
  second : Pending child.own (w.now + timeout.wait) → timeout.wait = timeout.nanos ∧
    Uninterrupted moments ⟨w.now + timeout.wait, false⟩ (child.terminated (w.now + timeout.wait))
      timeout.wait

namespace DirectTransport

/-- What the stages do. -/
inductive Stages (moments : List Nat) (child : Child) (timeout : Timeout) (w : Waiter) :
    Shutdown → Prop where
  | exited {v : Waiter} (first : Waited moments w child.own timeout (true, v)) :
      Stages moments child timeout w ⟨some w.now, none, none, v⟩
  | destroyed {w₁ v : Waiter} (first : Waited moments w child.own timeout (false, w₁))
      (second : Waited moments w₁ (child.terminated w₁.now) timeout (true, v)) :
      Stages moments child timeout w ⟨some w.now, some w₁.now, none, v⟩
  | killed {w₁ w₂ v : Waiter} (first : Waited moments w child.own timeout (false, w₁))
      (second : Waited moments w₁ (child.terminated w₁.now) timeout (false, w₂)) :
      Stages moments child timeout w ⟨some w.now, some w₁.now, some w₂.now, v⟩

theorem close_stages (moments : List Nat) (child : Child) (timeout : Timeout) (w : Waiter) :
    Stages moments child timeout w (close moments child timeout w) := by
  have first := waitBounded_waited moments w child.own timeout
  rw [close]
  generalize waitBounded moments w child.own timeout = result at first
  obtain ⟨exited, w₁⟩ := result
  cases exited with
  | true => exact .exited first
  | false =>
      have second := waitBounded_waited moments w₁ (child.terminated w₁.now) timeout
      dsimp only
      generalize waitBounded moments w₁ (child.terminated w₁.now) timeout = result at second
      obtain ⟨exited, w₂⟩ := result
      cases exited with
      | true => exact .destroyed first second
      | false => exact .killed first second

/-- Without a positive timeout, no signal is early. -/
theorem close_at_once (moments : List Nat) (child : Child) {timeout : Timeout} (w : Waiter)
    (negative : timeout.nanos ≤ 0) : Unhurried child timeout (close moments child timeout w) := by
  have stages := close_stages moments child timeout w
  generalize close moments child timeout w = s at stages
  cases stages with
  | exited first => exact ⟨nofun, nofun⟩
  | destroyed first second =>
      obtain ⟨pending, since⟩ := first.running
      refine ⟨?_, nofun⟩
      rintro t ⟨⟩
      exact ⟨w.now, rfl, by omega, pending⟩
  | killed first second =>
      obtain ⟨pending, since⟩ := first.running
      obtain ⟨pending', since'⟩ := second.running
      refine ⟨?_, ?_⟩
      · rintro t ⟨⟩
        exact ⟨w.now, rfl, by omega, pending⟩
      · rintro t ⟨⟩
        exact ⟨_, rfl, by omega, pending'⟩

theorem close_unhurried_iff (moments : List Nat) (child : Child) {timeout : Timeout} (w : Waiter)
    (positive : 0 < timeout.nanos) :
    Unhurried child timeout (close moments child timeout w) ↔ Undisturbed moments child timeout w := by
  have stages := close_stages moments child timeout w
  generalize close moments child timeout w = s at stages
  cases stages with
  | exited first =>
      obtain ⟨calm, gone⟩ := first.exit
      exact iff_of_true ⟨nofun, nofun⟩ ⟨calm, fun pending => absurd pending gone⟩
  | destroyed first second =>
      have full := first.full_iff positive
      constructor
      · intro unhurried
        obtain ⟨begun, same, waited, _⟩ := unhurried.destroy _ rfl
        cases same
        obtain ⟨calm, whole⟩ := full.mp waited
        obtain ⟨rfl, _⟩ := first.calm calm
        exact ⟨calm, fun _ => ⟨whole, second.exit.1⟩⟩
      · rintro ⟨calm, after⟩
        obtain ⟨rfl, pending⟩ := first.calm calm
        refine ⟨?_, nofun⟩
        rintro t ⟨⟩
        exact ⟨w.now, rfl, full.mpr ⟨calm, (after pending).1⟩, pending⟩
  | killed first second =>
      have full := first.full_iff positive
      have further := second.full_iff positive
      constructor
      · intro unhurried
        obtain ⟨begun, same, waited, _⟩ := unhurried.destroy _ rfl
        cases same
        obtain ⟨t₁, same, waited', _⟩ := unhurried.destroyForcibly _ rfl
        cases same
        obtain ⟨calm, whole⟩ := full.mp waited
        obtain ⟨rfl, _⟩ := first.calm calm
        exact ⟨calm, fun _ => ⟨whole, (further.mp waited').1⟩⟩
      · rintro ⟨calm, after⟩
        obtain ⟨rfl, pending⟩ := first.calm calm
        obtain ⟨whole, calm'⟩ := after pending
        refine ⟨?_, ?_⟩
        · rintro t ⟨⟩
          exact ⟨w.now, rfl, full.mpr ⟨calm, whole⟩, pending⟩
        · rintro t ⟨⟩
          exact ⟨_, rfl, further.mpr ⟨calm', whole⟩, second.running.1⟩

end DirectTransport

namespace Caller

/-- Whoever closes the transport, the shutdown is unhurried exactly if its waits are
undisturbed from the state on in which `close` begins. -/
theorem shutdown_unhurried_iff (caller : Caller) (moments : List Nat) (child : Child) (w : Waiter) :
    Unhurried child caller.timeout (caller.shutdown moments child w) ↔
      ∀ v, caller.enter moments w = some v →
        caller.timeout.nanos ≤ 0 ∨ Undisturbed moments child caller.timeout v := by
  rw [shutdown]
  cases entered : caller.enter moments w with
  | none => exact iff_of_true ⟨nofun, nofun⟩ nofun
  | some v =>
      dsimp only
      by_cases positive : 0 < caller.timeout.nanos
      · rw [DirectTransport.close_unhurried_iff moments child v positive]
        constructor
        · rintro undisturbed _ ⟨⟩
          exact .inr undisturbed
        · intro undisturbed
          exact (undisturbed v rfl).resolve_left (Int.not_le_of_gt positive)
      · have negative := Int.le_of_not_gt positive
        refine iff_of_true (DirectTransport.close_at_once moments child v negative) ?_
        exact fun _ _ => .inl negative

/-- A session that is closed by an interrupted thread kills its server at once, also one
that would have exited a second later. -/
theorem shutdown_hurried : ¬ ∀ (caller : Caller) (moments : List Nat) (child : Child) (w : Waiter),
    Unhurried child caller.timeout (caller.shutdown moments child w) := by
  intro unhurried
  have shutdown := unhurried (.close (some (some 1000))) []
    ⟨some 1000000000, fun _ => none, id⟩ ⟨0, true⟩
  obtain ⟨begun, _, full, _⟩ := shutdown.destroy 0 (by decide)
  change (begun : Int) + 5000000000 ≤ (0 : Nat) at full
  omega

end Caller

end SanDbOxFormal.Java.Transport
