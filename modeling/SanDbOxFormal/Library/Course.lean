import SanDbOxFormal.Library.Runs

/-!
# What a reader has still to return

A reader returns items one after the other and then, if its source ends, one error
for ever.  A call may also give up before there is anything to return.  Two readers
are told apart by their items and their ending, and by nothing else.
-/

namespace SanDbOxFormal.Library

open SanDbOxFormal.Library.Runs

structure Course (α ε : Type) where
  items : List α
  /-- The error behind the items, if the source ends. -/
  ending : Option ε
  /-- The ending has been returned. -/
  told : Bool

namespace Course

variable {α ε κ : Type}

/-- One call: the label is what it returned, or `none` if it gave up. -/
inductive Step : Course α ε → Option (Except ε α) → Course α ε → Prop where
  | item (a : α) (rest : List α) (ending : Option ε) :
      Step ⟨a :: rest, ending, false⟩ (some (.ok a)) ⟨rest, ending, false⟩
  | ended (e : ε) (told : Bool) : Step ⟨[], some e, told⟩ (some (.error e)) ⟨[], some e, true⟩
  | late (items : List α) (ending : Option ε) :
      Step ⟨items, ending, false⟩ none ⟨items, ending, false⟩

/-- What a call that does not give up returns is determined. -/
theorem Step.determined {c d d' : Course α ε} {o o' : Except ε α} (step : Step c (some o) d)
    (other : Step c (some o') d') : o = o' ∧ d = d' := by
  cases step with
  | item a rest ending =>
      cases other with
      | item => exact ⟨rfl, rfl⟩
  | ended e told =>
      cases other with
      | ended => exact ⟨rfl, rfl⟩

theorem Step.of_ending {c : Course α ε} {e : ε} (items : c.items = []) (ending : c.ending = some e) :
    Step c (some (.error e)) ⟨[], some e, true⟩ := by
  obtain ⟨_, _, told⟩ := c
  cases items
  cases ending
  exact .ended e told

theorem Step.of_error {c d : Course α ε} {e : ε} (step : Step c (some (.error e)) d) :
    c.ending = some e := by
  cases step with
  | ended => rfl

theorem Step.of_late {c d : Course α ε} (step : Step c none d) : d = c := by
  cases step with
  | late => rfl

def item? : Option (Except ε α) → Option α
  | some (.ok a) => some a
  | _ => none

/-- The items among what the calls returned. -/
def returned (os : List (Option (Except ε α))) : List α := os.filterMap item?

theorem returned_append (first second : List (Option (Except ε α))) :
    returned (first ++ second) = returned first ++ returned second := List.filterMap_append

/-- One call returns the first item, or leaves the items alone. -/
theorem Step.conserves {c c' : Course α ε} {o : Option (Except ε α)} (step : Step c o c') :
    returned [o] ++ c'.items = c.items ∧ c'.ending = c.ending := by
  cases step with
  | item a rest ending => exact ⟨rfl, rfl⟩
  | ended e told => exact ⟨rfl, rfl⟩
  | late items ending => exact ⟨rfl, rfl⟩

/-- No run loses, repeats or reorders an item. -/
theorem run_conserves {c c' : Course α ε} {os : List (Option (Except ε α))}
    (run : Run Step c os c') : returned os ++ c'.items = c.items ∧ c'.ending = c.ending := by
  induction run with
  | nil c => exact ⟨rfl, rfl⟩
  | @cons c mid last o os head rest ih =>
      obtain ⟨first, same⟩ := head.conserves
      obtain ⟨later, kept⟩ := ih
      refine ⟨?_, kept.trans same⟩
      change returned ([o] ++ os) ++ last.items = c.items
      rw [returned_append, List.append_assoc, later, first]

/-- Once the ending was told, every call tells it again. -/
theorem run_told {c c' : Course α ε} {os : List (Option (Except ε α))} {e : ε}
    (run : Run Step c os c') (told : c.told = true) (ending : c.ending = some e) :
    ∀ o ∈ os, o = some (.error e) := by
  induction run with
  | nil c =>
      intro o inside
      cases inside
  | cons head rest ih =>
      cases head with
      | item a rest ending => cases told
      | ended e' told' =>
          cases ending
          intro o inside
          rcases List.mem_cons.mp inside with rfl | later
          · rfl
          · exact ih rfl rfl o later
      | late items ending => cases told

/-- The ending is told behind all items, and nothing else after it. -/
theorem run_ended {c c' : Course α ε} {first rest : List (Option (Except ε α))} {e : ε}
    (run : Run Step c (first ++ some (.error e) :: rest) c') :
    returned first = c.items ∧ c.ending = some e ∧ ∀ o ∈ rest, o = some (.error e) := by
  obtain ⟨mid, before, after⟩ := run.split
  obtain ⟨all, same⟩ := run_conserves before
  cases after with
  | cons head tail =>
      cases head with
      | ended e told =>
          rw [List.append_nil] at all
          exact ⟨all, same.symm, run_told tail rfl rfl⟩

theorem run_error {c c' : Course α ε} {os : List (Option (Except ε α))} {e : ε}
    (run : Run Step c os c') (inside : some (.error e) ∈ os) : c.ending = some e := by
  obtain ⟨first, rest, rfl⟩ := List.append_of_mem inside
  exact (run_ended run).2.1

/-- More calls than there are items, none of which gave up, have told the ending. -/
theorem run_past {items : List α} {ending : Option ε} {os : List (Option (Except ε α))}
    {c' : Course α ε} (run : Run Step ⟨items, ending, false⟩ os c') (prompt : none ∉ os)
    (long : items.length < os.length) : ∃ e, some (.error e) ∈ os := by
  induction items generalizing os with
  | nil =>
      cases run with
      | nil => exact absurd long (Nat.lt_irrefl _)
      | cons head rest =>
          cases head with
          | ended e told => exact ⟨e, List.mem_cons_self⟩
          | late items ending => exact absurd List.mem_cons_self prompt
  | cons a items ih =>
      cases run with
      | nil => exact absurd long (Nat.not_lt_zero _)
      | cons head rest =>
          cases head with
          | item a rest' ending =>
              obtain ⟨e, inside⟩ := ih rest (fun late => prompt (List.mem_cons_of_mem _ late))
                (Nat.lt_of_succ_lt_succ long)
              exact ⟨e, List.mem_cons_of_mem _ inside⟩
          | late items ending => exact absurd List.mem_cons_self prompt

/-! ## Telling two readers apart -/

/-- Calls that never give up return `os`. -/
def Tells (c : Course α ε) (os : List (Except ε α)) : Prop :=
  ∃ c', Run Step c (os.map some) c'

theorem tells_items (items : List α) (ending : Option ε) :
    Run Step ⟨items, ending, false⟩ ((items.map Except.ok).map some) ⟨[], ending, false⟩ := by
  induction items with
  | nil => exact .nil _
  | cons a rest ih => exact .cons (.item a rest ending) ih

theorem tells_ending (items : List α) (e : ε) :
    Tells ⟨items, some e, false⟩ (items.map Except.ok ++ [Except.error e]) := by
  refine ⟨⟨[], some e, true⟩, ?_⟩
  rw [List.map_append]
  exact (tells_items items (some e)).append (.single (.ended e false))

theorem returned_ok (items : List α) :
    returned ((items.map Except.ok).map (some : Except ε α → _)) = items := by
  induction items with
  | nil => rfl
  | cons a rest ih =>
      change a :: returned _ = a :: rest
      rw [ih]

theorem Tells.items {c : Course α ε} {items : List α} (tells : Tells c (items.map Except.ok)) :
    items <+: c.items := by
  obtain ⟨c', run⟩ := tells
  have all := (run_conserves run).1
  rw [returned_ok] at all
  exact ⟨c'.items, all⟩

theorem Tells.ending {c : Course α ε} {items : List α} {e : ε}
    (tells : Tells c (items.map Except.ok ++ [Except.error e])) : c.ending = some e := by
  obtain ⟨c', run⟩ := tells
  rw [List.map_append] at run
  exact (run_ended run).2.1

/-- Two readers from which nothing was read yet tell the same exactly if they have
the same items and the same ending. -/
theorem tells_iff {items items' : List α} {ending ending' : Option ε} :
    (∀ os, Tells ⟨items, ending, false⟩ os ↔ Tells ⟨items', ending', false⟩ os) ↔
      items = items' ∧ ending = ending' := by
  constructor
  · intro same
    have here : items <+: items' := ((same _).mp ⟨_, tells_items items ending⟩).items
    have there : items' <+: items := ((same _).mpr ⟨_, tells_items items' ending'⟩).items
    refine ⟨here.eq_of_length (Nat.le_antisymm here.length_le there.length_le), ?_⟩
    cases ending with
    | some e => exact ((same _).mp (tells_ending items e)).ending.symm
    | none =>
        cases ending' with
        | none => rfl
        | some e => exact ((same _).mpr (tells_ending items' e)).ending
  · rintro ⟨rfl, rfl⟩ os
    rfl

/-! ## Kinds of errors -/

/-- The course with its error seen through `kind`. -/
def mapError (c : Course α ε) (kind : ε → κ) : Course α κ := ⟨c.items, c.ending.map kind, c.told⟩

theorem tells_mapError {c : Course α ε} {kind : ε → κ} {os : List (Except κ α)} :
    Tells (c.mapError kind) os ↔ ∃ os', Tells c os' ∧ os'.map (Except.mapError kind) = os := by
  constructor
  · rintro ⟨c', run⟩
    induction os generalizing c with
    | nil => exact ⟨[], ⟨c, .nil c⟩, rfl⟩
    | cons o rest ih =>
        obtain ⟨items, ending, told⟩ := c
        cases run with
        | cons head tail =>
            generalize shape : (⟨items, ending, told⟩ : Course α ε).mapError kind = start at head
            cases head with
            | item a rest ending' =>
                cases shape
                obtain ⟨os', ⟨last, later⟩, rfl⟩ := ih (c := ⟨rest, ending, false⟩) tail
                exact ⟨.ok a :: os', ⟨last, .cons (.item a rest ending) later⟩, rfl⟩
            | ended k told' =>
                cases ending with
                | none => cases shape
                | some e =>
                    cases shape
                    obtain ⟨os', ⟨last, later⟩, rfl⟩ := ih (c := ⟨[], some e, true⟩) tail
                    exact ⟨.error e :: os', ⟨last, .cons (.ended e told) later⟩, rfl⟩
  · rintro ⟨os', ⟨c', run⟩, rfl⟩
    induction os' generalizing c with
    | nil => exact ⟨c.mapError kind, .nil _⟩
    | cons o rest ih =>
        cases run with
        | cons head tail =>
            obtain ⟨last, later⟩ := ih tail
            cases head with
            | item a items ending => exact ⟨last, .cons (.item a items _) later⟩
            | ended e told => exact ⟨last, .cons (.ended (kind e) told) later⟩

end Course

end SanDbOxFormal.Library
