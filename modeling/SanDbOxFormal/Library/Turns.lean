import Mathlib

/-!
# Taking turns

A list of jobs of which each begins only when those in front of it are done, and the places
that they are given.  How a job begins and what it does is left open.
-/

namespace SanDbOxFormal.Library.Turns

variable {α : Type}

/-! ## Places of a list -/

theorem getElem?_set_cases {jobs : List α} {i j : ℕ} {g h : α} (there : (jobs.set i g)[j]? = some h) :
    j = i ∧ h = g ∨ j ≠ i ∧ jobs[j]? = some h := by
  rw [List.getElem?_set] at there
  split at there
  · rename_i same
    split at there
    · cases there
      exact .inl ⟨same.symm, rfl⟩
    · cases there
  · rename_i other
    exact .inr ⟨Ne.symm other, there⟩

/-- A new job is the last one. -/
theorem getElem?_append_cases {jobs : List α} {i : ℕ} {g h : α} (there : (jobs ++ [g])[i]? = some h) :
    jobs[i]? = some h ∨ h = g := by
  rw [List.getElem?_append] at there
  split at there
  · exact .inl there
  · exact .inr (List.mem_singleton.mp (List.mem_of_getElem? there))

theorem getElem?_append_of_some {jobs : List α} {i : ℕ} {g h : α} (there : jobs[i]? = some h) :
    (jobs ++ [g])[i]? = some h := by
  rw [List.getElem?_append_left (List.getElem?_eq_some_iff.mp there).1]
  exact there

/-! ## In turn -/

variable (begun done : α → Bool)

/-- In front of a job that has begun everything is done. -/
def InTurn (jobs : List α) : Prop :=
  ∀ (i j : ℕ) (g h : α), jobs[i]? = some g → jobs[j]? = some h → i < j → begun h = true → done g = true

variable {begun done}

theorem inTurn_nil : InTurn begun done [] := by
  rintro i j g h ⟨⟩

namespace InTurn

variable {jobs : List α} {i j : ℕ} {g h : α}

theorem append (turn : InTurn begun done jobs) (fresh : begun g = false) : InTurn begun done (jobs ++ [g]) := by
  intro i j h h' there there' less started
  rw [List.getElem?_append] at there'
  split at there'
  · rename_i small
    rw [List.getElem?_append_left (less.trans small)] at there
    exact turn i j h h' there there' less started
  · rw [List.mem_singleton.mp (List.mem_of_getElem? there'), fresh] at started
    cases started

/-- A job moves on; it may begin once those in front of it are done. -/
theorem set (turn : InTurn begun done jobs) (there : jobs[i]? = some g) {g' : α}
    (earlier : begun g' = true → begun g = true ∨ (jobs.take i).all done = true)
    (kept : done g = true → done g' = true) : InTurn begun done (jobs.set i g') := by
  intro j k h h' at_ at_' less started
  have front (began : begun g' = true) (before : j < i) (old : jobs[j]? = some h) : done h = true := by
    rcases earlier began with before' | all
    · exact turn j i h g old there before before'
    · refine List.all_eq_true.mp all h (List.mem_of_getElem? (i := j) ?_)
      rw [List.getElem?_take_of_lt before]
      exact old
  rcases getElem?_set_cases at_ with ⟨rfl, rfl⟩ | ⟨_, old⟩
  · rcases getElem?_set_cases at_' with ⟨rfl, rfl⟩ | ⟨_, at_'⟩
    · exact absurd less (lt_irrefl _)
    · exact kept (turn _ k g h' there at_' less started)
  · rcases getElem?_set_cases at_' with ⟨rfl, rfl⟩ | ⟨_, old'⟩
    · exact front started less old
    · exact turn j k h h' old old' less started

/-- Of two jobs that have begun the first is done. -/
theorem eq_of_busy (turn : InTurn begun done jobs) (there : jobs[i]? = some g) (there' : jobs[j]? = some h)
    (first : begun g = true) (second : begun h = true) (busy : done g = false) (busy' : done h = false) : i = j := by
  rcases lt_trichotomy i j with less | same | more
  · cases busy.symm.trans (turn i j g h there there' less second)
  · exact same
  · cases busy'.symm.trans (turn j i h g there' there more first)

end InTurn

/-! ## Places that are given out -/

variable {own : α → Option ℕ} {agrees : ℕ → ℕ → ℕ → ℕ → Prop}

variable (own agrees) in
/-- The places that jobs have are below `n`, and those of any two agree with where the jobs are
in the list. -/
structure Placed (jobs : List α) (n : ℕ) : Prop where
  small : ∀ (i : ℕ) (g : α) (p : ℕ), jobs[i]? = some g → own g = some p → p < n
  agrees : ∀ (i j : ℕ) (g h : α) (p q : ℕ), jobs[i]? = some g → jobs[j]? = some h → own g = some p →
    own h = some q → agrees i j p q

theorem placed_nil : Placed own agrees [] 0 := by
  constructor
  · rintro i g p ⟨⟩
  · rintro i j g h p q ⟨⟩

namespace Placed

variable {jobs : List α} {n m i : ℕ} {g g' : α}

/-- No job gets a place. -/
theorem kept (placed : Placed own agrees jobs n) (more : n ≤ m) {jobs' : List α}
    (each : ∀ (j : ℕ) (h : α), jobs'[j]? = some h →
      own h = none ∨ ∃ h', jobs[j]? = some h' ∧ own h' = own h) : Placed own agrees jobs' m := by
  have earlier {j p : ℕ} {h : α} (there : jobs'[j]? = some h) (at_ : own h = some p) :
      ∃ h', jobs[j]? = some h' ∧ own h' = some p := by
    rcases each j h there with none | ⟨h', before, same⟩
    · cases none.symm.trans at_
    · exact ⟨h', before, same.trans at_⟩
  constructor
  · intro j h p there at_
    obtain ⟨h', before, at_⟩ := earlier there at_
    exact (placed.small j h' p before at_).trans_le more
  · intro j k h h' p q there there' at_ at_'
    obtain ⟨_, before, at_⟩ := earlier there at_
    obtain ⟨_, before', at_'⟩ := earlier there' at_'
    exact placed.agrees j k _ _ p q before before' at_ at_'

theorem mono (placed : Placed own agrees jobs n) (more : n ≤ m) : Placed own agrees jobs m :=
  placed.kept more fun _ h there => .inr ⟨h, there, rfl⟩

theorem set (placed : Placed own agrees jobs n) (there : jobs[i]? = some g) (more : n ≤ m)
    (same : own g' = own g) : Placed own agrees (jobs.set i g') m := by
  refine placed.kept more fun j h after => ?_
  rcases getElem?_set_cases after with ⟨rfl, rfl⟩ | ⟨_, before⟩
  · exact .inr ⟨g, there, same.symm⟩
  · exact .inr ⟨h, before, rfl⟩

theorem append (placed : Placed own agrees jobs n) (none : own g = none) :
    Placed own agrees (jobs ++ [g]) n := by
  refine placed.kept le_rfl fun j h after => ?_
  rcases getElem?_append_cases after with before | rfl
  · exact .inr ⟨h, before, rfl⟩
  · exact .inl none

/-- A job gets the next place. -/
theorem next (placed : Placed own agrees jobs n) (more : n < m) (last : own g' = some n)
    (self : agrees i i n n)
    (others : ∀ (j p : ℕ) (h : α), jobs[j]? = some h → j ≠ i → own h = some p → p < n →
      agrees j i p n ∧ agrees i j n p) : Placed own agrees (jobs.set i g') m := by
  constructor
  · intro j h p after at_
    rcases getElem?_set_cases after with ⟨_, rfl⟩ | ⟨_, before⟩
    · cases last.symm.trans at_
      exact more
    · exact (placed.small j h p before at_).trans more
  · intro j k h h' p q after after' at_ at_'
    rcases getElem?_set_cases after with ⟨rfl, rfl⟩ | ⟨apart, before⟩
    · cases last.symm.trans at_
      rcases getElem?_set_cases after' with ⟨rfl, rfl⟩ | ⟨apart', before'⟩
      · cases last.symm.trans at_'
        exact self
      · exact (others k q h' before' apart' at_' (placed.small k h' q before' at_')).2
    · rcases getElem?_set_cases after' with ⟨rfl, rfl⟩ | ⟨_, before'⟩
      · cases last.symm.trans at_'
        exact (others j p h before apart at_ (placed.small j h p before at_)).1
      · exact placed.agrees j k h h' p q before before' at_ at_'

end Placed

end SanDbOxFormal.Library.Turns
