import Mathlib

/-!
# Counters that wrap

A counter of `m` values shows the balanced residue of what was counted.  The difference
of two readings is the distance between them, taken as a reading; comparing the readings
themselves is right only while the counter does not wrap between them.
-/

namespace SanDbOxFormal.Library.Wrapping

variable {m : Nat} {x y : Int}

theorem sub_readings (x y : Int) : (x.bmod m - y.bmod m).bmod m = (x - y).bmod m :=
  (Int.sub_bmod x y m).symm

/-- Two readings are less than a turn apart. -/
theorem readings_near (positive : 0 < m) : x.bmod m - y.bmod m < m ∧ y.bmod m - x.bmod m < m := by
  have lowX := Int.le_bmod (x := x) positive
  have highX := Int.bmod_lt (x := x) positive
  have lowY := Int.le_bmod (x := y) positive
  have highY := Int.bmod_lt (x := y) positive
  omega

/-- On an earlier turn the count is smaller, and the reading larger. -/
theorem turn_lt (near : y - x < m) (positive : 0 < m) (turn : x.bdiv m < y.bdiv m) :
    x < y ∧ y.bmod m < x.bmod m := by
  have countX := Int.bdiv_add_bmod x m
  have countY := Int.bdiv_add_bmod y m
  have close := readings_near (x := x) (y := y) positive
  have apart : (m : Int) * (x.bdiv m + 1) ≤ m * y.bdiv m :=
    Int.mul_le_mul_of_nonneg_left turn (Int.natCast_nonneg m)
  rw [Int.mul_add, Int.mul_one] at apart
  constructor
  · omega
  · omega

/-- Less than a turn apart, two counts compare as their readings do exactly if they fall
into one turn. -/
theorem compare_iff (positive : 0 < m) (before : x - y < m) (behind : y - x < m) :
    (x.bmod m ≤ y.bmod m ↔ x ≤ y) ↔ x.bdiv m = y.bdiv m := by
  rcases Int.lt_trichotomy (x.bdiv m) (y.bdiv m) with less | same | more
  · obtain ⟨smaller, larger⟩ := turn_lt behind positive less
    omega
  · have countX := Int.bdiv_add_bmod x m
    have countY := Int.bdiv_add_bmod y m
    rw [same] at countX
    omega
  · obtain ⟨larger, smaller⟩ := turn_lt before positive more
    omega

end SanDbOxFormal.Library.Wrapping
