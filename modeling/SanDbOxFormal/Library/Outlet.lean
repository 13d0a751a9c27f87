import Mathlib

/-!
# The writing end of a connection

A write goes through as a whole or delivers nothing, and once a write has failed every
later one does.
-/

namespace SanDbOxFormal.Library

structure Outlet (μ α : Type) where
  /-- Everything that went through. -/
  accepted : List α
  /-- What the first write that failed failed with. -/
  broken : Option μ

namespace Outlet

variable {μ α : Type}

def fresh : Outlet μ α := ⟨[], none⟩

/-- A write, with what is to go wrong with it. -/
def write (o : Outlet μ α) (fault : Option μ) (symbols : List α) : Except μ Unit × Outlet μ α :=
  match o.broken, fault with
  | some e, _ => (.error e, o)
  | none, some e => (.error e, { o with broken := some e })
  | none, none => (.ok (), { o with accepted := o.accepted ++ symbols })

/-- What a write does. -/
inductive Wrote (o : Outlet μ α) (symbols : List α) : Except μ Unit → Outlet μ α → Prop where
  | through {o' : Outlet μ α} (live : o.broken = none) (still : o'.broken = none)
      (grown : o'.accepted = o.accepted ++ symbols) : Wrote o symbols (.ok ()) o'
  | failed {e : μ} {o' : Outlet μ α} (dead : o'.broken ≠ none)
      (same : o'.accepted = o.accepted) : Wrote o symbols (.error e) o'

theorem write_wrote {o o' : Outlet μ α} {fault : Option μ} {symbols : List α}
    {result : Except μ Unit} (wrote : o.write fault symbols = (result, o')) :
    Wrote o symbols result o' := by
  unfold write at wrote
  split at wrote
  · rename_i e dead
    cases wrote
    exact .failed (dead ▸ Option.some_ne_none e) rfl
  · cases wrote
    exact .failed (Option.some_ne_none _) rfl
  · rename_i live
    cases wrote
    exact .through live live rfl

/-- A write fails with what was wrong before, or with what is to go wrong with it. -/
theorem write_error {o : Outlet μ α} {fault : Option μ} {symbols : List α} {e : μ}
    (failed : (o.write fault symbols).1 = .error e) : o.broken = some e ∨ fault = some e := by
  obtain ⟨accepted, broken⟩ := o
  cases broken with
  | some cause =>
      cases failed
      exact .inl rfl
  | none =>
      cases fault with
      | none => cases failed
      | some cause =>
          cases failed
          exact .inr rfl

theorem write_broken {o : Outlet μ α} {fault : Option μ} {symbols : List α} {e : μ}
    (broken : (o.write fault symbols).2.broken = some e) : o.broken = some e ∨ fault = some e := by
  obtain ⟨accepted, before⟩ := o
  cases before with
  | some cause => exact .inl broken
  | none =>
      cases fault with
      | none => cases broken
      | some cause => exact .inr broken

end Outlet

end SanDbOxFormal.Library
