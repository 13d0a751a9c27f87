import Mathlib

/-!
# Streams cut at a separator

A stream of symbols is read as a sequence of segments, each ended by the
separator, followed by one unfinished tail.  The cut is fixed by the stream
alone, so appending symbols only ever extends the list of complete segments.
-/

namespace SanDbOxFormal.Library.Segments

section Frame

variable {α : Type}

/-- The stream that carries exactly the given segments. -/
def frame (sep : α) (segments : List (List α)) : List α :=
  segments.flatMap (fun segment => segment ++ [sep])

@[simp] theorem frame_nil (sep : α) : frame sep [] = [] := rfl

@[simp] theorem frame_cons (sep : α) (first : List α) (rest : List (List α)) :
    frame sep (first :: rest) = first ++ sep :: frame sep rest := by
  simp [frame]

end Frame

variable {α : Type} [DecidableEq α]

/-- The complete segments of a stream, without their separators, and its tail. -/
def split (sep : α) : List α → List (List α) × List α
  | [] => ([], [])
  | x :: xs =>
      let inner := split sep xs
      if x = sep then ([] :: inner.1, inner.2)
      else
        match inner.1 with
        | [] => ([], x :: inner.2)
        | first :: rest => ((x :: first) :: rest, inner.2)

def complete (sep : α) (xs : List α) : List (List α) := (split sep xs).1

def remainder (sep : α) (xs : List α) : List α := (split sep xs).2

@[simp] theorem complete_nil (sep : α) : complete sep [] = [] := rfl

@[simp] theorem remainder_nil (sep : α) : remainder sep [] = [] := rfl

/-- The first separator ends the first segment; the rest is cut on its own. -/
theorem split_segment {sep : α} {segment : List α} (clean : sep ∉ segment) (xs : List α) :
    split sep (segment ++ sep :: xs) = (segment :: complete sep xs, remainder sep xs) := by
  induction segment with
  | nil => simp [split, complete, remainder]
  | cons x rest ih =>
      rw [List.mem_cons, not_or] at clean
      have other : x ≠ sep := fun same => clean.1 same.symm
      simp [split, ih clean.2, other]

theorem complete_segment {sep : α} {segment : List α} (clean : sep ∉ segment) (xs : List α) :
    complete sep (segment ++ sep :: xs) = segment :: complete sep xs := by
  rw [complete, split_segment clean]

theorem remainder_segment {sep : α} {segment : List α} (clean : sep ∉ segment) (xs : List α) :
    remainder sep (segment ++ sep :: xs) = remainder sep xs := by
  rw [remainder, split_segment clean]

theorem split_clean {sep : α} {xs : List α} (clean : sep ∉ xs) : split sep xs = ([], xs) := by
  induction xs with
  | nil => rfl
  | cons x rest ih =>
      rw [List.mem_cons, not_or] at clean
      have other : x ≠ sep := fun same => clean.1 same.symm
      simp [split, ih clean.2, other]

theorem complete_clean {sep : α} {xs : List α} (clean : sep ∉ xs) : complete sep xs = [] := by
  rw [complete, split_clean clean]

theorem remainder_clean {sep : α} {xs : List α} (clean : sep ∉ xs) : remainder sep xs = xs := by
  rw [remainder, split_clean clean]

/-- A stream either holds no separator or starts with one complete segment. -/
theorem clean_or_segment (sep : α) (xs : List α) :
    sep ∉ xs ∨ ∃ segment rest, xs = segment ++ sep :: rest ∧ sep ∉ segment := by
  by_cases found : sep ∈ xs
  · exact Or.inr (List.eq_append_cons_of_mem found)
  · exact Or.inl found

/-- A stream is built from its tail by putting segments in front. -/
theorem segment_induction (sep : α) {P : List α → Prop} (tail : ∀ xs, sep ∉ xs → P xs)
    (step : ∀ segment rest, sep ∉ segment → P rest → P (segment ++ sep :: rest)) (xs : List α) :
    P xs := by
  induction size : xs.length using Nat.strong_induction_on generalizing xs with
  | _ bound ih =>
      rcases clean_or_segment sep xs with clean | ⟨segment, rest, rfl, clean⟩
      · exact tail xs clean
      · have smaller : rest.length < bound := by
          rw [← size, List.length_append, List.length_cons]
          omega
        exact step segment rest clean (ih rest.length smaller rest rfl)

/-- Cutting the frame of clean segments gives them back, whatever follows. -/
theorem complete_frame_append {sep : α} {segments : List (List α)}
    (clean : ∀ segment ∈ segments, sep ∉ segment) (xs : List α) :
    complete sep (frame sep segments ++ xs) = segments ++ complete sep xs := by
  induction segments with
  | nil => rfl
  | cons first rest ih =>
      have tailClean : ∀ segment ∈ rest, sep ∉ segment :=
        fun segment inside => clean segment (List.mem_cons_of_mem _ inside)
      rw [frame_cons, List.append_assoc, List.cons_append,
        complete_segment (clean first List.mem_cons_self), ih tailClean, List.cons_append]

theorem complete_frame {sep : α} {segments : List (List α)}
    (clean : ∀ segment ∈ segments, sep ∉ segment) :
    complete sep (frame sep segments) = segments := by
  simpa using complete_frame_append clean []

theorem remainder_frame {sep : α} {segments : List (List α)}
    (clean : ∀ segment ∈ segments, sep ∉ segment) :
    remainder sep (frame sep segments) = [] := by
  induction segments with
  | nil => rfl
  | cons first rest ih =>
      rw [frame_cons, remainder_segment (clean first List.mem_cons_self)]
      exact ih fun segment inside => clean segment (List.mem_cons_of_mem _ inside)

/-- Later symbols extend the complete segments and never change one. -/
theorem complete_append (sep : α) (xs ys : List α) :
    complete sep (xs ++ ys) = complete sep xs ++ complete sep (remainder sep xs ++ ys) := by
  induction xs using segment_induction sep with
  | tail xs clean => simp [complete_clean clean, remainder_clean clean]
  | step segment rest clean ih =>
      rw [List.append_assoc, List.cons_append, complete_segment clean, complete_segment clean,
        remainder_segment clean, ih, List.cons_append]

theorem complete_mono {sep : α} {xs ys : List α} (shorter : xs <+: ys) :
    complete sep xs <+: complete sep ys := by
  obtain ⟨more, rfl⟩ := shorter
  rw [complete_append]
  exact List.prefix_append _ _

/-- A complete segment keeps its place in every longer stream. -/
theorem complete_kept {sep : α} {xs ys : List α} (shorter : xs <+: ys) {k : Nat}
    {segment : List α} (there : (complete sep xs)[k]? = some segment) :
    (complete sep ys)[k]? = some segment := by
  obtain ⟨inside, same⟩ := List.getElem?_eq_some_iff.mp there
  rw [List.prefix_iff_getElem?.mp (complete_mono shorter) k inside, same]

theorem remainder_append (sep : α) (xs ys : List α) :
    remainder sep (xs ++ ys) = remainder sep (remainder sep xs ++ ys) := by
  induction xs using segment_induction sep with
  | tail xs clean => rw [remainder_clean clean]
  | step segment rest clean ih =>
      rw [List.append_assoc, List.cons_append, remainder_segment clean, remainder_segment clean, ih]

/-- The tail is unfinished: it holds no separator. -/
theorem not_mem_remainder (sep : α) (xs : List α) : sep ∉ remainder sep xs := by
  induction xs using segment_induction sep with
  | tail xs clean =>
      rw [remainder_clean clean]
      exact clean
  | step segment rest clean ih =>
      rw [remainder_segment clean]
      exact ih

/-- Another segment, behind an unfinished one or not, is one more complete segment. -/
theorem complete_longer {sep : α} {segment : List α} (clean : sep ∉ segment) (xs : List α) :
    (complete sep xs).length < (complete sep (xs ++ (segment ++ [sep]))).length := by
  have joined : sep ∉ remainder sep xs ++ segment := fun inside =>
    (List.mem_append.mp inside).elim (not_mem_remainder sep xs) clean
  rw [complete_append, ← List.append_assoc, complete_segment joined, List.length_append]
  exact Nat.lt_add_of_pos_right Nat.zero_lt_one

theorem not_mem_complete (sep : α) (xs : List α) : ∀ segment ∈ complete sep xs, sep ∉ segment := by
  induction xs using segment_induction sep with
  | tail xs clean => simp [complete_clean clean]
  | step segment rest clean ih =>
      rw [complete_segment clean]
      exact List.forall_mem_cons.mpr ⟨clean, ih⟩

/-- Putting the separators back gives the stream. -/
theorem frame_complete (sep : α) (xs : List α) :
    frame sep (complete sep xs) ++ remainder sep xs = xs := by
  induction xs using segment_induction sep with
  | tail xs clean => rw [complete_clean clean, remainder_clean clean, frame_nil, List.nil_append]
  | step segment rest clean ih =>
      rw [complete_segment clean, remainder_segment clean, frame_cons, List.append_assoc,
        List.cons_append, ih]

/-- No segment and no tail of the stream is longer than the bound. -/
def Bounded (sep : α) (bound : Nat) (xs : List α) : Prop :=
  (∀ segment ∈ complete sep xs, segment.length ≤ bound) ∧ (remainder sep xs).length ≤ bound

/-- The unfinished tail of a prefix grows into a segment or into the tail. -/
theorem Bounded.remainder_le {sep : α} {bound : Nat} {xs ys : List α}
    (bounded : Bounded sep bound (xs ++ ys)) : (remainder sep xs).length ≤ bound := by
  have clean := not_mem_remainder sep xs
  rcases clean_or_segment sep ys with none | ⟨segment, rest, shape, first⟩
  · have whole : sep ∉ remainder sep xs ++ ys := by
      rw [List.mem_append, not_or]
      exact ⟨clean, none⟩
    have tail := bounded.2
    rw [remainder_append, remainder_clean whole, List.length_append] at tail
    omega
  · have whole : sep ∉ remainder sep xs ++ segment := by
      rw [List.mem_append, not_or]
      exact ⟨clean, first⟩
    have inside : remainder sep xs ++ segment ∈ complete sep (xs ++ ys) := by
      rw [complete_append, shape, ← List.append_assoc, complete_segment whole]
      exact List.mem_append_right _ List.mem_cons_self
    have size := bounded.1 _ inside
    rw [List.length_append] at size
    omega

end SanDbOxFormal.Library.Segments
