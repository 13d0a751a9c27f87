import SanDbOxFormal.Library.Course

/-!
# A thread that reads ahead

A background thread takes one item after the other from a source and puts it into a
slot that holds one; the item that says why there are no more is the last.  Whatever
the thread has done so far, the lines still to be taken are those of the source.
-/

namespace SanDbOxFormal.Library

/-- Where the thread takes its items from: lines, and then an end. -/
structure Source (σ ω L : Type) where
  next : σ → Except ω L × σ
  /-- The lines in front of the end. -/
  lines : σ → List L
  line_next : ∀ {s s' : σ} {l : L}, next s = (.ok l, s') → lines s = l :: lines s'
  end_next : ∀ {s s' : σ} {e : ω}, next s = (.error e, s') → lines s = []

namespace Pump

/-- The slot and the thread behind it. -/
inductive Stage (ω L : Type) where
  /-- The thread reads, or waits for the slot with the item that it holds. -/
  | running (slot : Option L) (held : Option (Except ω L))
  /-- The thread has put the end and is over. -/
  | finished (slot : Option ω)

end Pump

structure Pump (σ ω L : Type) where
  source : σ
  stage : Pump.Stage ω L

namespace Pump

variable {σ ω L δ : Type} (S : Source σ ω L)

def start (s : σ) : Pump σ ω L := ⟨s, .running none none⟩

/-- One step of the thread; it is blocked while the slot is full and it holds an item. -/
def turn (p : Pump σ ω L) : Pump σ ω L :=
  match p.stage with
  | .running slot none => ⟨(S.next p.source).2, .running slot (some (S.next p.source).1)⟩
  | .running none (some (.ok l)) => { p with stage := .running (some l) none }
  | .running none (some (.error e)) => { p with stage := .finished (some e) }
  | .running (some _) (some _) => p
  | .finished _ => p

/-- Takes the item out of the slot. -/
def take? (p : Pump σ ω L) : Option (Except ω L × Pump σ ω L) :=
  match p.stage with
  | .running (some l) held => some (.ok l, { p with stage := .running none held })
  | .finished (some e) => some (.error e, { p with stage := .finished none })
  | .running none _ => none
  | .finished none => none

/-- The lines that are still to be taken. -/
def ahead (p : Pump σ ω L) : List L :=
  match p.stage with
  | .running slot none => slot.toList ++ S.lines p.source
  | .running slot (some (.ok l)) => slot.toList ++ l :: S.lines p.source
  | .running slot (some (.error _)) => slot.toList
  | .finished _ => []

theorem turn_ahead (p : Pump σ ω L) : (p.turn S).ahead S = p.ahead S := by
  obtain ⟨source, stage⟩ := p
  cases stage with
  | finished slot => rfl
  | running slot held =>
      cases held with
      | none =>
          cases read : S.next source with
          | mk item after =>
              cases item with
              | ok l => simp only [turn, ahead, read, S.line_next read]
              | error e => simp only [turn, ahead, read, S.end_next read, List.append_nil]
      | some item => cases slot <;> cases item <;> rfl

/-- What a take does. -/
inductive Taken (p : Pump σ ω L) : Except ω L → Pump σ ω L → Prop where
  | line {l : L} {p' : Pump σ ω L} (next : p.ahead S = l :: p'.ahead S) : Taken p (.ok l) p'
  | ended {e : ω} {p' : Pump σ ω L} (none : p.ahead S = []) (spent : p'.ahead S = []) :
      Taken p (.error e) p'

theorem take?_taken {p p' : Pump σ ω L} {item : Except ω L} (took : p.take? = some (item, p')) :
    Taken S p item p' := by
  obtain ⟨source, stage⟩ := p
  cases stage with
  | running slot held =>
      cases slot with
      | none => cases took
      | some l =>
          cases took
          refine .line ?_
          cases held with
          | none => rfl
          | some item => cases item <;> rfl
  | finished slot =>
      cases slot with
      | none => cases took
      | some e =>
          cases took
          exact .ended rfl rfl

/-! ## Waiting -/

/-- What may happen next while somebody waits for an item. -/
inductive Moment where
  /-- The thread goes on. -/
  | turn
  /-- The one who waits looks at the slot. -/
  | look
  /-- The time is up. -/
  | expire
  /-- The wait is broken off. -/
  | leave
  /-- It is broken off with the item already out of the slot. -/
  | lose
  deriving DecidableEq

/-- Waits for an item; `gone` says which moments end the wait without one, and how.
At a look and at the end of the time an item that is there is taken. -/
def wait (gone : Moment → Option δ) :
    Pump σ ω L → List Moment → Option (Except δ (Except ω L) × Pump σ ω L)
  | _, [] => none
  | p, .turn :: rest => wait gone (p.turn S) rest
  | p, .leave :: rest =>
      match gone .leave with
      | some d => some (.error d, p)
      | none => wait gone p rest
  | p, .lose :: rest =>
      match gone .lose, p.take? with
      | some d, some (_, p') => some (.error d, p')
      | _, _ => wait gone p rest
  | p, m :: rest =>
      match p.take? with
      | some (item, p') => some (.ok item, p')
      | none =>
          match gone m with
          | some d => some (.error d, p)
          | none => wait gone p rest

/-- How a wait ends. -/
inductive Waited (gone : Moment → Option δ) (p : Pump σ ω L) (moments : List Moment) :
    Except δ (Except ω L) → Pump σ ω L → Prop where
  | taken {item : Except ω L} {p' : Pump σ ω L} (taken : Taken S p item p') :
      Waited gone p moments (.ok item) p'
  | lost {d : δ} {item : Except ω L} {p' : Pump σ ω L} (broken : gone .lose = some d)
      (taken : Taken S p item p') : Waited gone p moments (.error d) p'
  | left {d : δ} {m : Moment} {p' : Pump σ ω L} (broken : gone m = some d) (early : m ≠ .lose)
      (inside : m ∈ moments) (kept : p'.ahead S = p.ahead S) : Waited gone p moments (.error d) p'

/-- The same, by the pump that the thread has left behind when the wait ends. -/
inductive Settled (gone : Moment → Option δ) (p : Pump σ ω L) (moments : List Moment) :
    Except δ (Except ω L) → Pump σ ω L → Prop where
  | taken {item : Except ω L} {p' : Pump σ ω L} (n : Nat)
      (took : ((turn S)^[n] p).take? = some (item, p')) : Settled gone p moments (.ok item) p'
  | lost {d : δ} {item : Except ω L} {p' : Pump σ ω L} (n : Nat) (broken : gone .lose = some d)
      (inside : .lose ∈ moments) (took : ((turn S)^[n] p).take? = some (item, p')) :
      Settled gone p moments (.error d) p'
  | left {d : δ} {m : Moment} (n : Nat) (broken : gone m = some d) (early : m ≠ .lose)
      (inside : m ∈ moments) : Settled gone p moments (.error d) ((turn S)^[n] p)

variable {S} {gone : Moment → Option δ}

theorem Settled.later {p p' : Pump σ ω L} {m : Moment} {rest : List Moment}
    {outcome : Except δ (Except ω L)} (settled : Settled S gone p rest outcome p') :
    Settled S gone p (m :: rest) outcome p' := by
  cases settled with
  | taken n took => exact .taken n took
  | lost n broken inside took => exact .lost n broken (List.mem_cons_of_mem _ inside) took
  | left n broken early inside => exact .left n broken early (List.mem_cons_of_mem _ inside)

theorem Settled.turned {p p' : Pump σ ω L} {rest : List Moment}
    {outcome : Except δ (Except ω L)} (settled : Settled S gone (p.turn S) rest outcome p') :
    Settled S gone p (.turn :: rest) outcome p' := by
  cases settled with
  | taken n took => exact .taken (n + 1) took
  | lost n broken inside took => exact .lost (n + 1) broken (List.mem_cons_of_mem _ inside) took
  | left n broken early inside =>
      exact .left (n + 1) broken early (List.mem_cons_of_mem _ inside)

theorem wait_settled {p p' : Pump σ ω L} {moments : List Moment}
    {outcome : Except δ (Except ω L)} (waited : p.wait S gone moments = some (outcome, p')) :
    Settled S gone p moments outcome p' := by
  induction moments generalizing p with
  | nil => cases waited
  | cons m rest ih =>
      cases m with
      | turn => exact (ih waited).turned
      | leave =>
          simp only [wait] at waited
          split at waited
          · rename_i d broken
            cases waited
            exact .left 0 broken nofun List.mem_cons_self
          · exact (ih waited).later
      | lose =>
          simp only [wait] at waited
          split at waited
          · rename_i d item q broken took
            cases waited
            exact .lost 0 broken List.mem_cons_self took
          · exact (ih waited).later
      | look =>
          simp only [wait] at waited
          split at waited
          · rename_i item q took
            cases waited
            exact .taken 0 took
          · split at waited
            · rename_i d broken
              cases waited
              exact .left 0 broken nofun List.mem_cons_self
            · exact (ih waited).later
      | expire =>
          simp only [wait] at waited
          split at waited
          · rename_i item q took
            cases waited
            exact .taken 0 took
          · split at waited
            · rename_i d broken
              cases waited
              exact .left 0 broken nofun List.mem_cons_self
            · exact (ih waited).later

theorem turns_ahead (n : Nat) (p : Pump σ ω L) : ((turn S)^[n] p).ahead S = p.ahead S := by
  induction n generalizing p with
  | zero => rfl
  | succ n ih => exact (ih (p.turn S)).trans (turn_ahead S p)

theorem Taken.of_ahead {p q p' : Pump σ ω L} {item : Except ω L} (same : q.ahead S = p.ahead S)
    (taken : Taken S q item p') : Taken S p item p' := by
  cases taken with
  | line next => exact .line (same.symm.trans next)
  | ended none spent => exact .ended (same.symm.trans none) spent

theorem wait_waited {p p' : Pump σ ω L} {moments : List Moment}
    {outcome : Except δ (Except ω L)} (waited : p.wait S gone moments = some (outcome, p')) :
    Waited S gone p moments outcome p' := by
  cases wait_settled waited with
  | taken n took => exact .taken ((take?_taken S took).of_ahead (turns_ahead n p))
  | lost n broken _ took => exact .lost broken ((take?_taken S took).of_ahead (turns_ahead n p))
  | left n broken early inside => exact .left broken early inside (turns_ahead n p)

/-! ## The end behind the lines -/

variable (S) in
/-- What a source says in the end. -/
structure Ending where
  ending : σ → ω
  line_next : ∀ {s s' : σ} {l : L}, S.next s = (.ok l, s') → ending s' = ending s
  end_next : ∀ {s s' : σ} {e : ω}, S.next s = (.error e, s') → ending s = e

/-- What the pump still gives out: lines, and the end unless that has been taken. -/
def course (E : Ending S) (p : Pump σ ω L) : Course L ω :=
  { items := p.ahead S
    ending :=
      match p.stage with
      | .running _ (some (.error e)) => some e
      | .running _ _ => some (E.ending p.source)
      | .finished slot => slot
    told := false }

variable {E : Ending S}

theorem turn_course (p : Pump σ ω L) : (p.turn S).course E = p.course E := by
  have items := turn_ahead S p
  have ending : ((p.turn S).course E).ending = (p.course E).ending := by
    obtain ⟨source, stage⟩ := p
    cases stage with
    | finished slot => rfl
    | running slot held =>
        cases held with
        | none =>
            cases read : S.next source with
            | mk item after =>
                cases item with
                | ok l => simp only [course, turn, read, E.line_next read]
                | error e => simp only [course, turn, read, E.end_next read]
        | some item => cases slot <;> cases item <;> rfl
  rw [course, course, Course.mk.injEq]
  exact ⟨items, ending, rfl⟩

theorem turns_course (n : Nat) (p : Pump σ ω L) : ((turn S)^[n] p).course E = p.course E := by
  induction n generalizing p with
  | zero => rfl
  | succ n ih => exact (ih (p.turn S)).trans (turn_course p)

/-- A line that is taken is the next one, and the end is taken behind all of them. -/
theorem take?_course {p p' : Pump σ ω L} {item : Except ω L} (took : p.take? = some (item, p')) :
    match item with
    | .ok l => p.course E = ⟨l :: (p'.course E).items, (p'.course E).ending, false⟩
    | .error e => p.course E = ⟨[], some e, false⟩ := by
  obtain ⟨source, stage⟩ := p
  cases stage with
  | running slot held =>
      cases slot with
      | none => cases took
      | some l =>
          cases took
          cases held with
          | none => rfl
          | some item => cases item <;> rfl
  | finished slot =>
      cases slot with
      | none => cases took
      | some e =>
          cases took
          rfl

/-- The end has been taken. -/
def spent (p : Pump σ ω L) : Prop := p.stage = .finished none

theorem turn_spent {p : Pump σ ω L} (fresh : ¬ p.spent) : ¬ (p.turn S).spent := by
  obtain ⟨source, stage⟩ := p
  cases stage with
  | finished slot => exact fresh
  | running slot held =>
      cases held with
      | none => nofun
      | some item => cases slot <;> cases item <;> nofun

theorem turns_spent {n : Nat} {p : Pump σ ω L} (fresh : ¬ p.spent) : ¬ ((turn S)^[n] p).spent := by
  induction n generalizing p with
  | zero => exact fresh
  | succ n ih => exact ih (turn_spent fresh)

/-- Only a taken end leaves nothing to wait for. -/
theorem take?_spent {p p' : Pump σ ω L} {l : L} (took : p.take? = some (.ok l, p')) : ¬ p'.spent := by
  obtain ⟨source, stage⟩ := p
  cases stage with
  | running slot held =>
      cases slot with
      | none => cases took
      | some l =>
          cases took
          nofun
  | finished slot => cases slot <;> cases took

/-- Two turns of the thread bring an item, whatever it was about. -/
theorem turn_arrives {p : Pump σ ω L} (fresh : ¬ p.spent) :
    ∃ item p', ((p.turn S).turn S).take? = some (item, p') := by
  obtain ⟨source, stage⟩ := p
  cases stage with
  | finished slot =>
      cases slot with
      | none => exact absurd rfl fresh
      | some e => exact ⟨_, _, rfl⟩
  | running slot held =>
      cases slot with
      | some l =>
          cases held with
          | none => simp [turn, take?]
          | some item => simp [turn, take?]
      | none =>
          cases held with
          | none =>
              cases item : (S.next source).1 with
              | ok l => simp [turn, item, take?]
              | error e => simp [turn, item, take?]
          | some item =>
              cases item with
              | ok l => exact ⟨_, _, rfl⟩
              | error e => exact ⟨_, _, rfl⟩

/-- So a wait through two turns and a look brings one. -/
theorem wait_arrives {p : Pump σ ω L} (fresh : ¬ p.spent) :
    ∃ item p', p.wait S gone [.turn, .turn, .look] = some (.ok item, p') := by
  obtain ⟨item, p', took⟩ := turn_arrives (S := S) fresh
  refine ⟨item, p', ?_⟩
  simp only [wait, took]

/-- The thread is over. -/
def Ended (p : Pump σ ω L) : Prop := ∃ slot, p.stage = .finished slot

/-- With nobody left to take anything, the thread ends exactly if no line is left: one
that is puts itself in the way of the end. -/
theorem ends_iff (p : Pump σ ω L) : (∃ n, ((turn S)^[n] p).Ended) ↔ p.ahead S = [] := by
  constructor
  · rintro ⟨n, slot, finished⟩
    rw [← turns_ahead n p, ahead, finished]
  · intro none
    obtain ⟨source, stage⟩ := p
    cases stage with
    | finished slot => exact ⟨0, slot, rfl⟩
    | running slot held =>
        cases slot with
        | some l =>
            cases held with
            | none => cases none
            | some item => cases item <;> cases none
        | none =>
            cases held with
            | some item =>
                cases item with
                | ok l => cases none
                | error e => exact ⟨1, some e, rfl⟩
            | none =>
                cases read : S.next source with
                | mk item after =>
                    cases item with
                    | ok l =>
                        have more := S.line_next read
                        change S.lines source = [] at none
                        rw [none] at more
                        cases more
                    | error e => exact ⟨2, some e, by simp [turn, read]⟩

/-- The thread waits for the slot with an item that it holds. -/
def Blocked (p : Pump σ ω L) : Prop := ∃ l item, p.stage = .running (some l) (some item)

/-- With nobody left to take anything, a line that is left keeps the thread from its end. -/
theorem blocked_iff (p : Pump σ ω L) : (∃ n, ((turn S)^[n] p).Blocked) ↔ p.ahead S ≠ [] := by
  constructor
  · rintro ⟨n, l, item, full⟩ none
    rw [← turns_ahead n p, ahead, full] at none
    cases item <;> cases none
  · intro left
    have unended : ∀ n, ¬ ((turn S)^[n] p).Ended := fun n ended => left ((ends_iff p).mp ⟨n, ended⟩)
    obtain ⟨source, stage⟩ := p
    cases stage with
    | finished slot => exact absurd ⟨slot, rfl⟩ (unended 0)
    | running slot held =>
        cases slot with
        | some l =>
            cases held with
            | some item => exact ⟨0, l, item, rfl⟩
            | none => exact ⟨1, l, _, rfl⟩
        | none =>
            cases held with
            | some item =>
                cases item with
                | ok l => exact ⟨2, l, _, rfl⟩
                | error e => exact absurd ⟨_, rfl⟩ (unended 1)
            | none =>
                cases read : S.next source with
                | mk item after =>
                    cases item with
                    | ok l => exact ⟨3, l, (S.next after).1, by simp [turn, read]⟩
                    | error e => exact absurd ⟨some e, by simp [turn, read]⟩ (unended 2)

theorem turn_blocked {p : Pump σ ω L} (blocked : p.Blocked) : p.turn S = p := by
  obtain ⟨source, stage⟩ := p
  obtain ⟨l, item, full⟩ := blocked
  dsimp only at full
  subst full
  cases item <;> rfl

/-- A thread that waits for the slot waits for ever where nothing is taken. -/
theorem turns_blocked {p : Pump σ ω L} (blocked : p.Blocked) (n : Nat) : ((turn S)^[n] p).Blocked := by
  rw [Function.iterate_fixed (turn_blocked blocked) n]
  exact blocked

theorem stuck_iff (p : Pump σ ω L) :
    (∃ n, ∀ m ≥ n, ((turn S)^[m] p).Blocked) ↔ p.ahead S ≠ [] := by
  rw [← blocked_iff p]
  constructor
  · rintro ⟨n, always⟩
    exact ⟨n, always n (Nat.le_refl n)⟩
  · rintro ⟨n, blocked⟩
    refine ⟨n, fun m later => ?_⟩
    obtain ⟨k, rfl⟩ := Nat.exists_eq_add_of_le' later
    rw [Function.iterate_add_apply]
    exact turns_blocked blocked k

end Pump

end SanDbOxFormal.Library
