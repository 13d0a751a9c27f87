import SanDbOxFormal.Library.Failures

/-!
# Runs of a labelled step relation

A run is a finite sequence of labelled steps.  An invariant of one step is an
invariant of every run, and a simulation of one step by a run of another relation
is a simulation of every run.
-/

namespace SanDbOxFormal.Library.Runs

variable {σ τ ε δ κ ρ η : Type}

inductive Run (step : σ → ε → σ → Prop) : σ → List ε → σ → Prop where
  | nil (s : σ) : Run step s [] s
  | cons {s t u : σ} {e : ε} {es : List ε} (first : step s e t) (rest : Run step t es u) :
      Run step s (e :: es) u

namespace Run

variable {step : σ → ε → σ → Prop}

theorem single {s t : σ} {e : ε} (first : step s e t) : Run step s [e] t :=
  .cons first (.nil t)

theorem append {s t u : σ} {es fs : List ε} (first : Run step s es t) (second : Run step t fs u) :
    Run step s (es ++ fs) u := by
  induction first with
  | nil s => exact second
  | cons head _ ih => exact .cons head (ih second)

/-- A run of two pieces passes through a state between them. -/
theorem split {s u : σ} {es fs : List ε} (run : Run step s (es ++ fs) u) :
    ∃ t, Run step s es t ∧ Run step t fs u := by
  induction es generalizing s with
  | nil => exact ⟨s, .nil s, run⟩
  | cons e es ih =>
      cases run with
      | cons head rest =>
          obtain ⟨t, first, second⟩ := ih rest
          exact ⟨t, .cons head first, second⟩

/-- What every step keeps, every run keeps. -/
theorem invariant {P : σ → Prop} (keeps : ∀ s e t, P s → step s e t → P t) {s t : σ}
    {es : List ε} (run : Run step s es t) (start : P s) : P t := by
  induction run with
  | nil s => exact start
  | cons head _ ih => exact ih (keeps _ _ _ start head)

/-- What holds of every step taken from a good state holds of every step of a run. -/
theorem forall_labels {P : σ → Prop} {Q : ε → Prop} (keeps : ∀ s e t, P s → step s e t → P t)
    (holds : ∀ s e t, P s → step s e t → Q e) {s t : σ} {es : List ε} (run : Run step s es t)
    (start : P s) : ∀ e ∈ es, Q e := by
  induction run with
  | nil s =>
      intro e inside
      cases inside
  | cons head _ ih =>
      intro e inside
      rcases List.mem_cons.mp inside with rfl | later
      · exact holds _ _ _ start head
      · exact ih (keeps _ _ _ start head) e later

/-- Every label of a run is that of a step between two states of the run. -/
theorem visits {s u : σ} {es : List ε} (run : Run step s es u) {e : ε} (inside : e ∈ es) :
    ∃ before after first last, step before e after ∧ es = first ++ e :: last ∧
      Run step s first before ∧ Run step after last u := by
  obtain ⟨first, last, rfl⟩ := List.append_of_mem inside
  obtain ⟨before, head, tail⟩ := run.split
  cases tail with
  | @cons _ after _ _ _ taken rest => exact ⟨before, after, first, last, taken, rfl, head, rest⟩

/-- A preorder that every step follows relates the ends of every run. -/
theorem follows {R : σ → σ → Prop} (refl : ∀ s, R s s) (trans : ∀ s t u, R s t → R t u → R s u)
    (each : ∀ s e t, step s e t → R s t) {s t : σ} {es : List ε} (run : Run step s es t) :
    R s t := by
  induction run with
  | nil s => exact refl s
  | cons head _ ih => exact trans _ _ _ (each _ _ _ head) ih

/-- A condition on states that goes back along every step holds throughout a run
that ends in it. -/
theorem restrict {P : σ → Prop} (back : ∀ s e t, step s e t → P t → P s) {s t : σ} {es : List ε}
    (run : Run step s es t) (final : P t) :
    Run (fun s e t => step s e t ∧ P t) s es t ∧ P s := by
  induction run with
  | nil s => exact ⟨.nil s, final⟩
  | cons head _ ih =>
      obtain ⟨rest, next⟩ := ih final
      exact ⟨.cons ⟨head, next⟩ rest, back _ _ _ head next⟩

/-- What holds of every label of a run may be asked of its steps. -/
theorem with_labels {Q : ε → Prop} {s t : σ} {es : List ε} (run : Run step s es t)
    (each : ∀ e ∈ es, Q e) : Run (fun s e t => step s e t ∧ Q e) s es t := by
  induction run with
  | nil s => exact .nil s
  | cons head _ ih =>
      obtain ⟨first, later⟩ := List.forall_mem_cons.mp each
      exact .cons ⟨head, first⟩ (ih later)

/-- After a label of one kind, every later label is of another, if the first kind
brings about what the second needs. -/
theorem pairwise {P : σ → Prop} {Q R : ε → Prop} (begins : ∀ s e t, step s e t → Q e → P t)
    (keeps : ∀ s e t, P s → step s e t → P t) (holds : ∀ s e t, P s → step s e t → R e) {s t : σ}
    {es : List ε} (run : Run step s es t) : es.Pairwise fun e later => Q e → R later := by
  induction run with
  | nil s => exact .nil
  | cons head rest ih =>
      apply List.Pairwise.cons _ ih
      intro later inside began
      exact rest.forall_labels keeps holds (begins _ _ _ head began) later inside

/-- A map of states and labels that takes steps to steps takes runs to runs. -/
theorem map {other : τ → δ → τ → Prop} {P : σ → Prop} {f : σ → τ} {g : ε → δ}
    (keeps : ∀ s e t, P s → step s e t → P t)
    (maps : ∀ s e t, P s → step s e t → other (f s) (g e) (f t)) {s t : σ} {es : List ε}
    (run : Run step s es t) (start : P s) : Run other (f s) (es.map g) (f t) := by
  induction run with
  | nil s => exact .nil (f s)
  | cons head _ ih => exact .cons (maps _ _ _ start head) (ih (keeps _ _ _ start head))

/-- A relation that one step of the first system and a run of the second keep is
kept by whole runs; `shows` says which labels of the second a label of the first
may stand for. -/
theorem simulates {other : τ → δ → τ → Prop} {R : σ → τ → Prop} {shows : ε → List δ → Prop}
    (sim : ∀ s e t a, R s a → step s e t → ∃ ds b, shows e ds ∧ Run other a ds b ∧ R t b) {s t : σ}
    {es : List ε} {a : τ} (run : Run step s es t) (start : R s a) :
    ∃ (labels : List (List δ)) (b : τ),
      (∀ e ∈ es, ∃ ds ∈ labels, shows e ds) ∧ Run other a labels.flatten b ∧ R t b := by
  induction run generalizing a with
  | nil s =>
      refine ⟨[], a, fun e inside => ?_, .nil a, start⟩
      cases inside
  | cons head _ ih =>
      obtain ⟨ds, b, shown, first, related⟩ := sim _ _ _ a start head
      obtain ⟨labels, c, each, rest, final⟩ := ih related
      refine ⟨ds :: labels, c, fun e inside => ?_, first.append rest, final⟩
      rcases List.mem_cons.mp inside with rfl | later
      · exact ⟨ds, List.mem_cons_self, shown⟩
      · obtain ⟨es, member, shown⟩ := each e later
        exact ⟨es, List.mem_cons_of_mem _ member, shown⟩

end Run

/-! ## Runs of a function -/

/-- Calls a function that may stop once for each command, each time from where it left
off; `entry` is what is kept of a call. -/
def replay (f : σ → κ → Except η (ρ × σ)) (entry : σ → κ → ρ → σ → ε) :
    σ → List κ → Except η (List ε × σ)
  | s, [] => .ok ([], s)
  | s, c :: rest => do
      let (outcome, t) ← f s c
      let (entries, u) ← replay f entry t rest
      .ok (entry s c outcome t :: entries, u)

theorem replay_run {step : σ → ε → σ → Prop} {f : σ → κ → Except η (ρ × σ)}
    {entry : σ → κ → ρ → σ → ε}
    (ran : ∀ s c outcome t, f s c = .ok (outcome, t) → step s (entry s c outcome t) t)
    {s t : σ} {commands : List κ} {entries : List ε}
    (replayed : replay f entry s commands = .ok (entries, t)) : Run step s entries t := by
  induction commands generalizing s entries with
  | nil =>
      cases replayed
      exact .nil _
  | cons c rest ih =>
      obtain ⟨⟨outcome, mid⟩, first, more⟩ := bind_ok_iff.mp replayed
      obtain ⟨⟨others, last⟩, later, same⟩ := bind_ok_iff.mp more
      cases same
      exact .cons (ran _ _ _ _ first) (ih later)

end SanDbOxFormal.Library.Runs
