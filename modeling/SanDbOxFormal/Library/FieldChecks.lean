import SanDbOxFormal.Library.Failures

/-!
# Fields that are asked for in order

A decoder looks up the fields of a record one after the other and stops at the first
that is missing or does not pass.  Whether it throws nothing but errors of an allowed
kind is read off the fields that it gets to.
-/

namespace SanDbOxFormal.Library.FieldChecks

variable {V ε α β : Type}

/-- What a decoder asks of one field. -/
structure Check (V : Type) where
  key : String
  /-- The values behind which the decoder goes on. -/
  Passes : V → Prop
  /-- The values at which it throws nothing but allowed errors. -/
  Fine : V → Prop

/-- A field of one kind; a value of another kind is refused. -/
def Check.kind (accept : V → Option β) (fine : V → Prop) (key : String) : Check V where
  key := key
  Passes := fun v => ∃ b, accept v = some b
  Fine := fun v => accept v = none → fine v

/-- Every field that the checks get to is fine. -/
def AllFine (field : String → Option V) : List (Check V) → Prop
  | [] => True
  | c :: rest => ∀ v, field c.key = some v → c.Fine v ∧ (c.Passes v → AllFine field rest)

/-- Every entry of a list that a loop gets to is fine. -/
def InTurn (Passes Fine : V → Prop) : List V → Prop
  | [] => True
  | v :: rest => Fine v ∧ (Passes v → InTurn Passes Fine rest)

/-- A loop throws what the first turn that fails throws. -/
theorem throws_mapM_iff {P : ε → Prop} {f : V → Except ε α} {Passes Fine : V → Prop}
    (passes : ∀ v, (∃ a, f v = .ok a) ↔ Passes v) (fine : ∀ v, Throws P (f v) ↔ Fine v)
    (vs : List V) : Throws P (vs.mapM f) ↔ InTurn Passes Fine vs := by
  induction vs with
  | nil => exact ⟨fun _ => trivial, fun _ => Throws.ok []⟩
  | cons v rest ih =>
      rw [List.mapM_cons, Throws.bind_iff, fine, InTurn, ← ih, ← passes]
      refine and_congr Iff.rfl ⟨?_, fun more a returned => ?_⟩
      · rintro more ⟨a, returned⟩
        exact (Throws.bind_iff.mp (more a returned)).1
      · exact (more ⟨a, returned⟩).bind fun as _ => Throws.ok (a :: as)

/-- A lookup that throws an allowed error when the field is missing. -/
inductive Asks (P : ε → Prop) (field : String → Option V) (key : String) : Except ε V → Prop where
  | found {v : V} (present : field key = some v) : Asks P field key (.ok v)
  | missing {e : ε} (absent : field key = none) (allowed : P e) : Asks P field key (.error e)

variable {P : ε → Prop} {field : String → Option V} {key : String} {x : Except ε V}

theorem Asks.bind_iff (asks : Asks P field key x) {f : V → Except ε α} :
    Throws P (x >>= f) ↔ ∀ v, field key = some v → Throws P (f v) := by
  cases asks with
  | @found v present =>
      refine ⟨fun throws w same => ?_, fun each => each v present⟩
      rw [present] at same
      cases same
      exact throws
  | missing absent allowed =>
      refine ⟨fun _ v present => ?_, fun _ => Throws.error allowed⟩
      rw [absent] at present
      cases present

/-- A check in front of others. -/
theorem Asks.cons_iff (asks : Asks P field key x) {check : V → Except ε β}
    {f : β → Except ε α} {c : Check V} {rest : List (Check V)} (named : c.key = key)
    (fine : ∀ v, Throws P (check v) ↔ c.Fine v) (passes : ∀ v, (∃ b, check v = .ok b) ↔ c.Passes v)
    (more : ∀ b, Throws P (f b) ↔ AllFine field rest) :
    Throws P ((x >>= check) >>= f) ↔ AllFine field (c :: rest) := by
  rw [bind_assoc, asks.bind_iff, ← named]
  refine forall₂_congr fun v _ => ?_
  rw [Throws.bind_iff, fine]
  refine and_congr Iff.rfl ⟨fun each pass => ?_, fun each b returned => ?_⟩
  · obtain ⟨b, returned⟩ := (passes v).mpr pass
    exact (more b).mp (each b returned)
  · exact (more b).mpr (each ((passes v).mp ⟨b, returned⟩))

/-- A field of one kind in front of others. -/
theorem Asks.kind_iff (asks : Asks P field key x) {accept : V → Option β} {fine : V → Prop}
    {refuse : V → Except ε β} {f : β → Except ε α} {rest : List (Check V)}
    (refused : ∀ v, Throws P (refuse v) ↔ fine v) (never : ∀ v b, refuse v ≠ .ok b)
    (more : ∀ b, Throws P (f b) ↔ AllFine field rest) :
    Throws P ((x >>= fun v => match accept v with
      | some b => .ok b
      | none => refuse v) >>= f) ↔ AllFine field (.kind accept fine key :: rest) := by
  refine asks.cons_iff rfl (fun v => ?_) (fun v => ?_) more
  · cases accepted : accept v with
    | some b =>
        refine ⟨fun _ none => ?_, fun _ => Throws.ok b⟩
        rw [accepted] at none
        cases none
    | none => exact (refused v).trans ⟨fun fine _ => fine, fun fine => fine accepted⟩
  · cases accepted : accept v with
    | some b => exact ⟨fun _ => ⟨b, accepted⟩, fun _ => ⟨b, rfl⟩⟩
    | none =>
        constructor
        · rintro ⟨b, returned⟩
          exact absurd returned (never v b)
        · rintro ⟨b, some⟩
          rw [accepted] at some
          cases some

end SanDbOxFormal.Library.FieldChecks
