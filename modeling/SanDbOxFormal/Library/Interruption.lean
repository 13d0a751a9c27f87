import Mathlib

/-!
# Waits that an interrupt breaks off

A thread that waits for an event until a limit.  It wakes up at the first of three
moments: the event, an interrupt, the limit; an interrupt from before the wait breaks
it off at once.  An interrupt that has broken off a wait is forgotten, unless the
thread sets its status again.
-/

namespace SanDbOxFormal.Library

structure Waiter where
  now : Nat
  /-- The interrupt status. -/
  interrupted : Bool

namespace Waiter

inductive Wake where
  | ready
  | interrupted
  | expired
  deriving DecidableEq

/-- The first of the moments from `now` on. -/
def next (moments : List Nat) (now : Nat) : Option Nat := (moments.filter (now ≤ ·)).min?

theorem next_none {moments : List Nat} {now : Nat} (none : next moments now = none) :
    ∀ m ∈ moments, ¬ now ≤ m := by
  intro m inside later
  have member : m ∈ moments.filter (now ≤ ·) := List.mem_filter.mpr ⟨inside, decide_eq_true later⟩
  rw [List.min?_eq_none_iff.mp none] at member
  cases member

theorem next_some {moments : List Nat} {now first : Nat} (some : next moments now = some first) :
    first ∈ moments ∧ now ≤ first ∧ ∀ m ∈ moments, now ≤ m → first ≤ m := by
  obtain ⟨inside, least⟩ := List.min?_eq_some_iff.mp some
  obtain ⟨member, later⟩ := List.mem_filter.mp inside
  refine ⟨member, of_decide_eq_true later, fun m other after => least m ?_⟩
  exact List.mem_filter.mpr ⟨other, decide_eq_true after⟩

/-- Waits for an event, which comes at `event` if ever, until `limit`. -/
def block (moments : List Nat) (w : Waiter) (event : Option Nat) (limit : Nat) : Wake × Waiter :=
  if w.interrupted then (.interrupted, ⟨w.now, false⟩)
  else
    let stop := (next moments w.now).filter (· < limit)
    match event.filter (· ≤ stop.getD limit), stop with
    | some e, _ => (.ready, ⟨max w.now e, false⟩)
    | none, some m => (.interrupted, ⟨m, false⟩)
    | none, none => (.expired, ⟨limit, false⟩)

/-- The event has not come by `t`. -/
def Pending (event : Option Nat) (t : Nat) : Prop := ∀ e, event = some e → t < e

/-- How a wait ends. -/
inductive Blocked (moments : List Nat) (w : Waiter) (event : Option Nat) (limit : Nat) :
    Wake × Waiter → Prop where
  | ready {e t : Nat} (came : event = some e) (since : w.now ≤ t) (early : e ≤ t)
      (within : e ≤ limit) (calm : w.interrupted = false) (quiet : ∀ m ∈ moments, w.now ≤ m → m < limit → e ≤ m) :
      Blocked moments w event limit (.ready, ⟨t, false⟩)
  | already (status : w.interrupted = true) :
      Blocked moments w event limit (.interrupted, ⟨w.now, false⟩)
  | interrupted {m : Nat} (inside : m ∈ moments) (since : w.now ≤ m) (early : m < limit)
      (pending : Pending event m) (calm : w.interrupted = false) :
      Blocked moments w event limit (.interrupted, ⟨m, false⟩)
  | expired (pending : Pending event limit) (calm : w.interrupted = false)
      (quiet : ∀ m ∈ moments, w.now ≤ m → limit ≤ m) :
      Blocked moments w event limit (.expired, ⟨limit, false⟩)

/-- What a wait looks out for beside its event: the first interrupt before the limit. -/
theorem stop_spec (moments : List Nat) (w : Waiter) (limit : Nat) :
    match (next moments w.now).filter (· < limit) with
    | some m => m ∈ moments ∧ w.now ≤ m ∧ m < limit ∧ ∀ m' ∈ moments, w.now ≤ m' → m ≤ m'
    | none => ∀ m ∈ moments, w.now ≤ m → limit ≤ m := by
  cases first : next moments w.now with
  | none => exact fun m inside later => absurd later (next_none first m inside)
  | some m =>
      obtain ⟨inside, later, least⟩ := next_some first
      by_cases early : m < limit
      · rw [Option.filter_some, if_pos (decide_eq_true early)]
        exact ⟨inside, later, early, least⟩
      · rw [Option.filter_some, if_neg (by simpa using early)]
        exact fun m' other after => Nat.le_trans (Nat.le_of_not_lt early) (least m' other after)

theorem block_blocked (moments : List Nat) (w : Waiter) (event : Option Nat) (limit : Nat) :
    Blocked moments w event limit (w.block moments event limit) := by
  rw [block]
  split
  · rename_i status
    exact .already status
  · rename_i status
    have calm := eq_false_of_ne_true status
    have spec := stop_spec moments w limit
    generalize (next moments w.now).filter (· < limit) = stop at spec ⊢
    have pending {t : Nat} (none : event.filter (· ≤ t) = none) : Pending event t := by
      rintro e rfl
      rw [Option.filter_eq_none_iff] at none
      simpa using none e rfl
    dsimp only
    cases found : event.filter (· ≤ stop.getD limit) with
    | some e =>
        dsimp only
        obtain ⟨came, early⟩ := Option.filter_eq_some_iff.mp found
        have before : e ≤ stop.getD limit := of_decide_eq_true early
        have within : e ≤ limit := by
          cases stop with
          | none => exact before
          | some first => exact Nat.le_trans before (Nat.le_of_lt spec.2.2.1)
        refine .ready came (Nat.le_max_left _ _) (Nat.le_max_right _ _) within calm
          fun m inside later short => ?_
        cases stop with
        | none => exact absurd (spec m inside later) (Nat.not_le_of_lt short)
        | some first => exact Nat.le_trans before (spec.2.2.2 m inside later)
    | none =>
        cases stop with
        | none => exact .expired (pending found) calm spec
        | some m => exact .interrupted spec.1 spec.2.1 spec.2.2.1 (pending found) calm

end Waiter

end SanDbOxFormal.Library
