import Mathlib

/-!
# Which errors a computation may end with

A bound on the errors of an `Except` computation, built up along its binds.
-/

namespace SanDbOxFormal.Library

variable {ε ε' α β : Type}

/-- A computation that succeeded did so in both of its halves. -/
theorem bind_ok_iff {x : Except ε α} {f : α → Except ε β} {b : β} :
    (x >>= f) = .ok b ↔ ∃ a, x = .ok a ∧ f a = .ok b := by
  cases x with
  | error e =>
      constructor
      · intro returned
        cases returned
      · rintro ⟨a, same, _⟩
        cases same
  | ok a =>
      constructor
      · exact fun returned => ⟨a, rfl, returned⟩
      · rintro ⟨b, same, returned⟩
        cases same
        exact returned

theorem map_ok_iff {x : Except ε α} {f : α → β} {b : β} : f <$> x = .ok b ↔ ∃ a, x = .ok a ∧ f a = b := by
  cases x with
  | error e => exact ⟨fun is => (by cases is), by rintro ⟨_, ⟨⟩, _⟩⟩
  | ok a =>
      constructor
      · exact fun is => ⟨a, rfl, Except.ok.inj is⟩
      · rintro ⟨a', same, rfl⟩
        cases same
        rfl

theorem mapError_ok_iff {x : Except ε' α} {f : ε' → ε} {a : α} :
    x.mapError f = .ok a ↔ x = .ok a := by
  cases x <;> simp [Except.mapError]

def Succeeds (x : Except ε α) : Prop := ∃ a, x = .ok a

theorem succeeds_ok (a : α) : Succeeds (.ok a : Except ε α) := ⟨a, rfl⟩

/-- What follows may look at what was returned, but not for whether it succeeds. -/
theorem succeeds_bind_iff {x : Except ε α} {f : α → Except ε β} {P : Prop}
    (later : ∀ a, x = .ok a → (Succeeds (f a) ↔ P)) : Succeeds (x >>= f) ↔ Succeeds x ∧ P := by
  constructor
  · rintro ⟨b, returned⟩
    obtain ⟨a, first, second⟩ := bind_ok_iff.mp returned
    exact ⟨⟨a, first⟩, (later a first).mp ⟨b, second⟩⟩
  · rintro ⟨⟨a, first⟩, holds⟩
    obtain ⟨b, second⟩ := (later a first).mpr holds
    exact ⟨b, bind_ok_iff.mpr ⟨a, first, second⟩⟩

theorem succeeds_mapError_iff {x : Except ε' α} {f : ε' → ε} :
    Succeeds (x.mapError f) ↔ Succeeds x :=
  exists_congr fun _ => mapError_ok_iff

/-- The error that a computation ended with. -/
def failure? : Except ε α → Option ε
  | .ok _ => none
  | .error e => some e

theorem failure?_eq_some {x : Except ε α} {e : ε} : failure? x = some e ↔ x = .error e := by
  cases x <;> simp [failure?]

/-- A loop succeeds when each of its turns does. -/
theorem mapM_ok_iff (f : α → Except ε β) (xs : List α) :
    (∃ bs, xs.mapM f = .ok bs) ↔ ∀ a ∈ xs, ∃ b, f a = .ok b := by
  induction xs with
  | nil => exact ⟨fun _ => nofun, fun _ => ⟨[], rfl⟩⟩
  | cons a rest ih =>
      rw [List.mapM_cons, List.forall_mem_cons, ← ih]
      constructor
      · rintro ⟨bs, returned⟩
        obtain ⟨b, first, returned⟩ := bind_ok_iff.mp returned
        obtain ⟨more, later, _⟩ := bind_ok_iff.mp returned
        exact ⟨⟨b, first⟩, more, later⟩
      · rintro ⟨⟨b, first⟩, more, later⟩
        exact ⟨b :: more, by rw [first, later]; rfl⟩

/-- What a loop collected, one of its turns returned. -/
theorem mapM_mem {f : α → Except ε β} {xs : List α} {bs : List β} (mapped : xs.mapM f = .ok bs) :
    ∀ b ∈ bs, ∃ a ∈ xs, f a = .ok b := by
  induction xs generalizing bs with
  | nil =>
      cases mapped
      intro b inside
      cases inside
  | cons x rest ih =>
      rw [List.mapM_cons] at mapped
      obtain ⟨b, first, mapped⟩ := bind_ok_iff.mp mapped
      obtain ⟨others, more, same⟩ := bind_ok_iff.mp mapped
      cases same
      refine List.forall_mem_cons.mpr ⟨⟨x, List.mem_cons_self, first⟩, fun other inside => ?_⟩
      obtain ⟨a, among, made⟩ := ih more other inside
      exact ⟨a, List.mem_cons_of_mem _ among, made⟩

/-- Every error of the computation satisfies `P`. -/
def Throws (P : ε → Prop) (x : Except ε α) : Prop := ∀ e, x = .error e → P e

namespace Throws

variable {P : ε → Prop}

theorem ok (a : α) : Throws P (.ok a) := by
  intro e same
  cases same

theorem error {e : ε} (holds : P e) : Throws (α := α) P (.error e) := by
  intro e' same
  cases same
  exact holds

theorem mono {Q : ε → Prop} {x : Except ε α} (throws : Throws P x) (weaker : ∀ e, P e → Q e) :
    Throws Q x :=
  fun e same => weaker e (throws e same)

theorem bind {x : Except ε α} {f : α → Except ε β} (first : Throws P x)
    (second : ∀ a, x = .ok a → Throws P (f a)) : Throws P (x >>= f) := by
  cases x with
  | error e => exact error (first e rfl)
  | ok a => exact second a rfl

theorem bind_iff {x : Except ε α} {f : α → Except ε β} :
    Throws P (x >>= f) ↔ Throws P x ∧ ∀ a, x = .ok a → Throws P (f a) := by
  constructor
  · intro throws
    cases x with
    | error e => exact ⟨error (throws e rfl), nofun⟩
    | ok a =>
        refine ⟨ok a, fun b same => ?_⟩
        cases same
        exact throws
  · rintro ⟨first, second⟩
    exact first.bind second

theorem error_iff {e : ε} : Throws (α := α) P (.error e) ↔ P e :=
  ⟨fun throws => throws e rfl, error⟩

/-- A loop throws what the first turn that fails throws. -/
theorem mapM_iff {xs : List α} {f : α → Except ε β} :
    Throws P (xs.mapM f) ↔ ∀ front a back, xs = front ++ a :: back →
      (∀ b ∈ front, ∃ c, f b = .ok c) → Throws P (f a) := by
  induction xs with
  | nil =>
      refine ⟨fun _ front a back same => ?_, fun _ => ok []⟩
      simp at same
  | cons x rest ih =>
      rw [List.mapM_cons, bind_iff]
      constructor
      · rintro ⟨first, more⟩ front a back same passed
        cases front with
        | nil =>
            cases same
            exact first
        | cons b front =>
            rw [List.cons_append, List.cons.injEq] at same
            obtain ⟨rfl, same⟩ := same
            obtain ⟨⟨c, returned⟩, others⟩ := List.forall_mem_cons.mp passed
            have later := (bind_iff.mp (more c returned)).1
            exact ih.mp later front a back same others
      · intro each
        refine ⟨each [] x rest rfl (fun _ inside => absurd inside List.not_mem_nil), ?_⟩
        intro c returned
        refine bind (ih.mpr fun front a back same passed => ?_) fun cs _ => ok (c :: cs)
        refine each (x :: front) a back (by rw [same, List.cons_append]) ?_
        exact List.forall_mem_cons.mpr ⟨⟨c, returned⟩, passed⟩

theorem map_iff {x : Except ε α} {f : α → β} : Throws P (f <$> x) ↔ Throws P x := by
  cases x with
  | error e => exact error_iff.trans error_iff.symm
  | ok a => exact iff_of_true (ok (f a)) (ok a)

theorem map {x : Except ε α} {f : α → β} (throws : Throws P x) : Throws P (f <$> x) :=
  map_iff.mpr throws

theorem mapError {x : Except ε' α} {f : ε' → ε} (throws : Throws (fun e => P (f e)) x) :
    Throws P (x.mapError f) := by
  cases x with
  | error e => exact error (throws e rfl)
  | ok a => exact ok a

/-- The loop stops at an error of one of its turns. -/
theorem mapM {xs : List α} {f : α → Except ε β} (each : ∀ a ∈ xs, Throws P (f a)) :
    Throws P (xs.mapM f) := by
  induction xs with
  | nil => exact ok []
  | cons a rest ih =>
      rw [List.mapM_cons]
      apply bind (each a List.mem_cons_self)
      intro b _
      apply bind (ih fun other inside => each other (List.mem_cons_of_mem _ inside))
      intro bs _
      exact ok (b :: bs)

end Throws

/-- Every error of the computation satisfies `P` and what it returns satisfies `Q`. -/
def Ensures (P : ε → Prop) (Q : α → Prop) (x : Except ε α) : Prop :=
  Throws P x ∧ ∀ a, x = .ok a → Q a

namespace Ensures

variable {P : ε → Prop} {Q : α → Prop} {R : β → Prop}

theorem ok {a : α} (holds : Q a) : Ensures P Q (.ok a) := by
  refine ⟨Throws.ok a, fun b same => ?_⟩
  cases same
  exact holds

theorem error {e : ε} (holds : P e) : Ensures P Q (.error e) := ⟨Throws.error holds, nofun⟩

theorem mono {Q' : α → Prop} {x : Except ε α} (ensures : Ensures P Q x)
    (weaker : ∀ a, Q a → Q' a) : Ensures P Q' x :=
  ⟨ensures.1, fun a same => weaker a (ensures.2 a same)⟩

theorem bind {x : Except ε α} {f : α → Except ε β} (first : Ensures P Q x)
    (second : ∀ a, Q a → Ensures P R (f a)) : Ensures P R (x >>= f) := by
  refine ⟨first.1.bind fun a same => (second a (first.2 a same)).1, fun b returned => ?_⟩
  obtain ⟨a, same, later⟩ := bind_ok_iff.mp returned
  exact (second a (first.2 a same)).2 b later

end Ensures

end SanDbOxFormal.Library
