import SanDbOxFormal.Library.Segments

/-!
# A buffer that is scanned once

Symbols are pushed at the back and segments are taken from the front.  The buffer
carries what it knows: the symbols it has scanned hold no separator, so looking
only behind them misses none.
-/

namespace SanDbOxFormal.Library

open SanDbOxFormal.Library.Segments

structure LineBuffer (α : Type) (sep : α) where
  buf : List α
  /-- How much of `buf`, from the front, is known to hold no separator. -/
  scanned : Nat
  bounded : scanned ≤ buf.length
  clean : sep ∉ buf.take scanned

namespace LineBuffer

variable {α : Type} {sep : α}

def empty : LineBuffer α sep where
  buf := []
  scanned := 0
  bounded := Nat.zero_le _
  clean := List.not_mem_nil

def push (b : LineBuffer α sep) (chunk : List α) : LineBuffer α sep where
  buf := b.buf ++ chunk
  scanned := b.scanned
  bounded := by
    rw [List.length_append]
    exact Nat.le_add_right_of_le b.bounded
  clean := by
    rw [List.take_append_of_le_length b.bounded]
    exact b.clean

/-- The symbols behind a segment, none of them scanned. -/
def restart (buf : List α) : LineBuffer α sep where
  buf := buf
  scanned := 0
  bounded := Nat.zero_le _
  clean := List.not_mem_nil

/-- A buffer that was scanned to its end in vain. -/
def exhausted (b : LineBuffer α sep) (none : sep ∉ b.buf) : LineBuffer α sep where
  buf := b.buf
  scanned := b.buf.length
  bounded := Nat.le_refl _
  clean := by
    rw [List.take_length]
    exact none

variable [DecidableEq α]

/-- Where the separator is, counted from the end of what was scanned. -/
def find? (b : LineBuffer α sep) : Option Nat := (b.buf.drop b.scanned).findIdx? (· = sep)

theorem not_mem_of_find {b : LineBuffer α sep} (found : b.find? = none) : sep ∉ b.buf := by
  rw [← List.take_append_drop b.scanned b.buf, List.mem_append, not_or]
  refine ⟨b.clean, fun inside => ?_⟩
  have missed := List.findIdx?_eq_none_iff.mp found sep inside
  simp at missed

/-- The first separator of the buffer is where the scan says. -/
theorem buf_eq_of_find {b : LineBuffer α sep} {rel : Nat} (found : b.find? = some rel) :
    b.buf = b.buf.take (b.scanned + rel) ++ sep :: b.buf.drop (b.scanned + rel + 1) ∧
      sep ∉ b.buf.take (b.scanned + rel) := by
  obtain ⟨inside, hit, before⟩ := List.findIdx?_eq_some_iff_getElem.mp found
  rw [List.length_drop] at inside
  have within : b.scanned + rel < b.buf.length := by omega
  rw [decide_eq_true_eq, List.getElem_drop] at hit
  refine ⟨?_, fun early => ?_⟩
  · have rest := List.drop_eq_getElem_cons within
    rw [hit] at rest
    rw [← rest, List.take_append_drop]
  · rw [List.take_add, List.mem_append] at early
    rcases early with early | early
    · exact b.clean early
    · obtain ⟨i, small, same⟩ := List.getElem_of_mem early
      rw [List.length_take] at small
      rw [List.getElem_take] at same
      exact before i (by omega) (decide_eq_true same)

/-- Takes the first segment, if the buffer holds a whole one. -/
def take? (b : LineBuffer α sep) : Option (List α) × LineBuffer α sep :=
  match found : b.find? with
  | some rel =>
      (some (b.buf.take (b.scanned + rel)), restart (b.buf.drop (b.scanned + rel + 1)))
  | none => (none, b.exhausted (not_mem_of_find found))

/-- What a take does, by what the buffer holds. -/
inductive Taken (b : LineBuffer α sep) : Option (List α) × LineBuffer α sep → Prop where
  | segment {segment rest : List α} {b' : LineBuffer α sep} (clean : sep ∉ segment)
      (shape : b.buf = segment ++ sep :: rest) (left : b'.buf = rest) : Taken b (some segment, b')
  | nothing {b' : LineBuffer α sep} (clean : sep ∉ b.buf) (same : b'.buf = b.buf) :
      Taken b (none, b')

theorem take?_taken (b : LineBuffer α sep) : Taken b b.take? := by
  unfold take?
  split
  · rename_i rel found
    obtain ⟨cut, before⟩ := buf_eq_of_find found
    exact .segment before cut rfl
  · rename_i found
    exact .nothing (not_mem_of_find found) rfl

omit [DecidableEq α] in
theorem Taken.length_le {b : LineBuffer α sep} {result : Option (List α) × LineBuffer α sep}
    (taken : Taken b result) : result.2.buf.length ≤ b.buf.length := by
  cases taken with
  | segment _ shape left =>
      rw [shape, left, List.length_append, List.length_cons]
      omega
  | nothing _ same => rw [same]

end LineBuffer

end SanDbOxFormal.Library
