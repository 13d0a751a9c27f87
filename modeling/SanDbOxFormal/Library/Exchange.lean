import SanDbOxFormal.Library.Runs

/-!
# Requests and replies paired by order alone

One side sends requests, the other answers each with one reply in the same
order, and nothing but the order says which reply is whose.  A client that waits
for one reply at a time stays aligned; a client that leaves without its reply
can stay honest only by never taking a reply again.
-/

namespace SanDbOxFormal.Library.Exchange

open SanDbOxFormal.Library.Runs

structure State where
  /-- How many requests have been sent. -/
  sent : Nat
  /-- How many replies have been taken. -/
  taken : Nat
  /-- The number of the request that is waiting for its reply. -/
  waiting : Option Nat
  /-- No reply will be returned any more. -/
  shut : Bool
  deriving DecidableEq

def init : State := ⟨0, 0, none, false⟩

/-- The number of a request and the number of the reply returned for it. -/
structure Delivery where
  own : Nat
  reply : Nat
  deriving DecidableEq

/-- One step; a delivery is a reply returned to the request that waits. -/
inductive Step : State → Option Delivery → State → Prop where
  | send {a : State} (idle : a.waiting = none) :
      Step a none { a with sent := a.sent + 1, waiting := some a.sent }
  | take {a : State} {k : Nat} (waits : a.waiting = some k) (usable : a.shut = false) :
      Step a (some ⟨k, a.taken⟩) { a with taken := a.taken + 1, waiting := none }
  | leave {a : State} {k : Nat} (waits : a.waiting = some k) :
      Step a none { a with waiting := none, shut := true }
  | shut {a : State} : Step a none { a with shut := true }
  /-- Once shut, anything may be sent or dropped, but nothing is returned. -/
  | stray {a b : State} (before : a.shut = true) (after : b.shut = true) : Step a none b

/-- Shut, or idle with every reply taken, or waiting for the only reply that is due. -/
inductive Aligned : State → Prop where
  | shut {a : State} (shut : a.shut = true) : Aligned a
  | idle {a : State} (idle : a.waiting = none) (even : a.taken = a.sent) : Aligned a
  | waiting {a : State} {k : Nat} (waits : a.waiting = some k) (due : a.taken = k)
      (last : a.sent = k + 1) : Aligned a

theorem aligned_init : Aligned init := .idle rfl rfl

theorem Step.aligned {a b : State} {d : Option Delivery} (step : Step a d b) (aligned : Aligned a) :
    Aligned b := by
  cases step with
  | send idle =>
      cases aligned with
      | shut shut => exact .shut shut
      | idle _ even => exact .waiting rfl even rfl
      | waiting waits _ _ =>
          rw [idle] at waits
          cases waits
  | take waits usable =>
      cases aligned with
      | shut shut =>
          rw [usable] at shut
          cases shut
      | idle idle _ =>
          rw [idle] at waits
          cases waits
      | waiting _ due last => exact .idle rfl (by rw [due, last])
  | leave _ => exact .shut rfl
  | shut => exact .shut rfl
  | stray _ after => exact .shut after

/-- From an aligned state only the reply that is due is returned. -/
theorem Step.own_reply {a b : State} {d : Delivery} (step : Step a (some d) b)
    (aligned : Aligned a) : d.own = d.reply := by
  cases step with
  | take waits usable =>
      cases aligned with
      | shut shut =>
          rw [usable] at shut
          cases shut
      | idle idle _ =>
          rw [idle] at waits
          cases waits
      | waiting same due _ =>
          rw [waits] at same
          cases same
          exact due.symm

/-- In every run every returned reply is the one to the request it is returned for. -/
theorem run_paired {a b : State} {ds : List (Option Delivery)} (run : Run Step a ds b)
    (aligned : Aligned a) : ∀ d : Delivery, some d ∈ ds → d.own = d.reply := by
  have each := run.forall_labels (P := Aligned)
    (Q := fun label => ∀ d : Delivery, label = some d → d.own = d.reply)
    (fun _ _ _ before step => step.aligned before)
    (fun _ _ _ before step d same => by
      subst same
      exact step.own_reply before) aligned
  exact fun d inside => each (some d) inside d rfl

end SanDbOxFormal.Library.Exchange
