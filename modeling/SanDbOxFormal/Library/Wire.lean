import Mathlib

/-!
# Writes that fail midway

A write that fails may have sent any part of its symbols; the others are never sent.  A later
write may go through all the same.
-/

namespace SanDbOxFormal.Library

/-- What a write fails with, and how many of its symbols it has sent by then. -/
structure Fault (μ : Type) where
  cause : μ
  sent : ℕ

/-- What a write has sent, and whether it failed. -/
structure Write (α : Type) where
  sent : List α
  failed : Bool
  deriving DecidableEq

/-- The sending end of a stream, with its writes in order. -/
structure Wire (α : Type) where
  writes : List (Write α)

/-- A write that failed with a part of its symbols sent. -/
def Write.Cut {α : Type} (r : Write α) : Prop := r.failed = true ∧ r.sent ≠ []

namespace Wire

variable {μ α : Type}

def fresh : Wire α := ⟨[]⟩

/-- Everything sent. -/
def accepted (w : Wire α) : List α := w.writes.flatMap Write.sent

/-- A write, with what is to go wrong with it. -/
def write (w : Wire α) (fault : Option (Fault μ)) (symbols : List α) : Except μ Unit × Wire α :=
  match fault with
  | none => (.ok (), ⟨w.writes ++ [⟨symbols, false⟩]⟩)
  | some f => (.error f.cause, ⟨w.writes ++ [⟨symbols.take f.sent, true⟩]⟩)

/-- A write was cut. -/
def Spoilt (w : Wire α) : Prop := ∃ r ∈ w.writes, r.Cut

/-- No write went through behind one that was cut. -/
def Orderly (w : Wire α) : Prop := w.writes.Pairwise fun r later => r.Cut → later.failed = true

section More

variable {w : Wire α} {r : Write α}

theorem accepted_more : (⟨w.writes ++ [r]⟩ : Wire α).accepted = w.accepted ++ r.sent := by
  rw [accepted, accepted, List.flatMap_append, List.flatMap_singleton]

theorem spoilt_more : (⟨w.writes ++ [r]⟩ : Wire α).Spoilt ↔ w.Spoilt ∨ r.Cut := by
  simp only [Spoilt, List.mem_append, List.mem_singleton, or_and_right, exists_or, exists_eq_left]

theorem orderly_more :
    (⟨w.writes ++ [r]⟩ : Wire α).Orderly ↔ w.Orderly ∧ (w.Spoilt → r.failed = true) := by
  simp only [Orderly, Spoilt, List.pairwise_append, List.pairwise_singleton, true_and,
    List.mem_singleton, forall_eq, forall_exists_index, and_imp]

end More

/-- What a write does. -/
inductive Wrote (w : Wire α) (symbols : List α) : Except μ Unit → Wire α → Prop where
  | through {w' : Wire α} (grown : w'.accepted = w.accepted ++ symbols)
      (spoilt : w'.Spoilt ↔ w.Spoilt) (sound : w'.Orderly → ¬ w.Spoilt) : Wrote w symbols (.ok ()) w'
  | unsent {e : μ} {w' : Wire α} (same : w'.accepted = w.accepted) (spoilt : w'.Spoilt ↔ w.Spoilt) :
      Wrote w symbols (.error e) w'
  | cut {e : μ} {w' : Wire α} (grown : w.accepted <+: w'.accepted) (spoilt : w'.Spoilt) :
      Wrote w symbols (.error e) w'

theorem write_wrote {w w' : Wire α} {fault : Option (Fault μ)} {symbols : List α}
    {result : Except μ Unit} (wrote : w.write fault symbols = (result, w')) :
    Wrote w symbols result w' := by
  cases fault with
  | none =>
      cases wrote
      refine .through accepted_more (spoilt_more.trans (or_iff_left fun cut => ?_)) fun orderly spoilt => ?_
      · exact Bool.noConfusion cut.1
      · exact Bool.noConfusion ((orderly_more.mp orderly).2 spoilt)
  | some f =>
      cases wrote
      by_cases nothing : symbols.take f.sent = []
      · refine .unsent ?_ (spoilt_more.trans (or_iff_left fun cut => cut.2 nothing))
        rw [accepted_more, nothing, List.append_nil]
      · refine .cut ?_ (spoilt_more.mpr (.inr ⟨rfl, nothing⟩))
        rw [accepted_more]
        exact List.prefix_append _ _

theorem write_orderly {w : Wire α} {fault : Option (Fault μ)} {symbols : List α}
    (orderly : (w.write fault symbols).2.Orderly) : w.Orderly := by
  cases fault with
  | none => exact (orderly_more.mp orderly).1
  | some f => exact (orderly_more.mp orderly).1

theorem Wrote.grown {w w' : Wire α} {symbols : List α} {result : Except μ Unit}
    (wrote : Wrote w symbols result w') : w.accepted <+: w'.accepted := by
  cases wrote with
  | through grown => exact grown ▸ List.prefix_append _ _
  | unsent same => exact same ▸ List.prefix_rfl
  | cut grown => exact grown

theorem Wrote.mapError {ν : Type} {f : μ → ν} {w w' : Wire α} {symbols : List α}
    {result : Except μ Unit} (wrote : Wrote w symbols result w') :
    Wrote w symbols (result.mapError f) w' := by
  cases wrote with
  | through grown spoilt sound => exact .through grown spoilt sound
  | unsent same spoilt => exact .unsent same spoilt
  | cut grown spoilt => exact .cut grown spoilt

end Wire

end SanDbOxFormal.Library
