import SanDbOxFormal.Library.Runs

/-!
# Draining a pipe into a sink

A writer fills a pipe of bounded capacity, and a loop copies what it reads there into a
sink, until the end of the pipe, a read that fails or an answer of the sink that it does not
go on behind.  The reading end may also be closed under the loop.  While every answer and
every read is good and the end stays open, the loop reads up to the end of the pipe and the
writer always gets on.  Behind anything else, a writer with more than the pipe holds never
gets through if the loop leaves its end of the pipe open, and is refused whatever it writes
if the loop closes it.
-/

namespace SanDbOxFormal.Library.Draining

open SanDbOxFormal.Library.Runs

/-- A loop that copies, by what the sink answers to it. -/
structure Loop (α : Type) where
  Answer : Type
  /-- The most that is handed to the sink at once. -/
  size : ℕ
  /-- Whether a read comes back with what is there, or only with `size` or at the end. -/
  eager : Bool
  goesOn : List α → Answer → Bool
  /-- Whether it closes its end of the pipe when it is over. -/
  closes : Bool
  size_pos : 0 < size

inductive Stage (α : Type) where
  | reading (held : List α)
  | writing (chunk : List α)
  /-- The loop is over, at the end of the pipe. -/
  | ended
  /-- The loop is over before. -/
  | stopped

/-- What the loop holds. -/
def Stage.inHand {α : Type} : Stage α → List α
  | reading held => held
  | writing chunk => chunk
  | _ => []

def Stage.over {α : Type} : Stage α → Bool
  | ended | stopped => true
  | _ => false

structure State (α : Type) where
  /-- What the writer has still to write. -/
  left : List α
  pipe : List α
  /-- The writer is through, or gone. -/
  closed : Bool
  /-- The reading end is closed. -/
  cut : Bool
  stage : Stage α
  /-- What the sink has taken. -/
  taken : List α

variable {α : Type}

def start (output : List α) : State α := ⟨output, [], false, false, .reading [], []⟩

inductive Event (L : Loop α) where
  | put (n : ℕ)
  | close
  /-- A write to a pipe without a reading end, which fails. -/
  | refused (n : ℕ)
  | read (n : ℕ)
  /-- A read of an open pipe that fails. -/
  | failed
  | eof
  | wrote (chunk : List α) (answer : L.Answer)
  /-- The reading end is closed with so much in the pipe. -/
  | cut (unread : List α)
  | broken

/-- Where the loop is with what a read has brought. -/
def got (L : Loop α) (held : List α) : Stage α :=
  if L.eager ∨ held.length = L.size then .writing held else .reading held

/-- The loop is over, and its end of the pipe with it where it closes it. -/
def State.finish (L : Loop α) (s : State α) (stage : Stage α) : State α :=
  { s with stage := stage, cut := s.cut || L.closes }

inductive Step (L : Loop α) (capacity : ℕ) : State α → Event L → State α → Prop where
  | put {s : State α} {n : ℕ} (some : 0 < n) (has : n ≤ s.left.length) (live : s.closed = false)
      (heard : s.cut = false) (room : s.pipe.length + n ≤ capacity) :
      Step L capacity s (.put n) { s with left := s.left.drop n, pipe := s.pipe ++ s.left.take n }
  | close {s : State α} : Step L capacity s .close { s with closed := true }
  | refused {s : State α} {n : ℕ} (some : 0 < n) (has : n ≤ s.left.length) (live : s.closed = false)
      (deaf : s.cut = true) : Step L capacity s (.refused n) { s with left := s.left.drop n }
  | read {s : State α} {held : List α} {n : ℕ} (stage : s.stage = .reading held)
      (opened : s.cut = false) (some : 0 < n) (there : n ≤ s.pipe.length)
      (fits : held.length + n ≤ L.size) :
      Step L capacity s (.read n)
        { s with pipe := s.pipe.drop n, stage := got L (held ++ s.pipe.take n) }
  | failed {s : State α} {held : List α} (stage : s.stage = .reading held) (opened : s.cut = false) :
      Step L capacity s .failed (s.finish L .stopped)
  | eof {s : State α} {held : List α} (stage : s.stage = .reading held) (opened : s.cut = false)
      (empty : s.pipe = []) (closed : s.closed = true) :
      Step L capacity s .eof (if held.isEmpty then s.finish L .ended else { s with stage := .writing held })
  | wrote {s : State α} {chunk : List α} {answer : L.Answer} (stage : s.stage = .writing chunk) :
      Step L capacity s (.wrote chunk answer)
        (if L.goesOn chunk answer then { s with stage := .reading [], taken := s.taken ++ chunk }
          else s.finish L .stopped)
  | cut {s : State α} (opened : s.cut = false) : Step L capacity s (.cut s.pipe) { s with cut := true }
  | broken {s : State α} {held : List α} (stage : s.stage = .reading held) (closed : s.cut = true) :
      Step L capacity s .broken (s.finish L .stopped)

variable {L : Loop α} {capacity : ℕ}

/-- The sink answered well. -/
def Event.Good : Event L → Prop
  | .wrote chunk answer => L.goesOn chunk answer = true
  | _ => True

/-- The sink answered well, the read did not fail, and the reading end was left open. -/
def Event.Fine : Event L → Prop
  | .wrote chunk answer => L.goesOn chunk answer = true
  | .failed | .cut _ => False
  | _ => True

theorem Event.Fine.good {e : Event L} (fine : e.Fine) : e.Good := by
  cases e with
  | wrote chunk answer => exact fine
  | _ => trivial

/-! ## What is kept -/

theorem got_inHand (held : List α) : (got L held).inHand = held := by
  rw [got]
  split <;> rfl

/-- Everything from the sink to the writer, in order. -/
def State.all (s : State α) : List α := s.taken ++ s.stage.inHand ++ s.pipe ++ s.left

/-- A read that failed, with what the loop held lost. -/
def Event.drops : Event L → Bool
  | .failed | .broken => true
  | _ => false

theorem step_all {s t : State α} {e : Event L} (step : Step L capacity s e t) (good : e.Good)
    (heard : ∀ n, e ≠ .refused n) (whole : e.drops = true → s.stage.inHand = []) : t.all = s.all := by
  cases step with
  | put some has live heard room =>
      simp only [State.all, List.append_assoc, List.take_append_drop]
  | close => rfl
  | refused => exact absurd rfl (heard _)
  | failed stage opened =>
      rw [State.all, State.all, whole rfl]
      rfl
  | @read held n stage opened some there fits =>
      change s.taken ++ (got L (held ++ s.pipe.take n)).inHand ++ s.pipe.drop n ++ s.left = s.all
      have inHand : s.stage.inHand = held := by rw [stage]; rfl
      rw [got_inHand, State.all, inHand, ← List.append_assoc s.taken, List.append_assoc _ (s.pipe.take n),
        List.take_append_drop]
  | @eof held stage opened empty closed =>
      cases held with
      | nil => simp only [State.all, stage, State.finish, List.isEmpty_nil, if_true, Stage.inHand]
      | cons b bs => simp [State.all, stage, Stage.inHand]
  | @wrote chunk answer stage =>
      rw [if_pos (show L.goesOn chunk answer = true from good)]
      simp only [State.all, stage, Stage.inHand, List.append_nil]
  | cut opened => rfl
  | broken stage closed =>
      rw [State.all, State.all, whole rfl]
      rfl

/-- The loop reads a full chunk as soon as it is full, and the writer waits for room. -/
structure Sound (L : Loop α) (capacity : ℕ) (s : State α) : Prop where
  room : s.pipe.length ≤ capacity
  held : ∀ held, s.stage = .reading held → held.length < L.size ∧ (L.eager = true → held = [])
  ended : s.stage = .ended → s.closed = true ∧ s.pipe = []

theorem start_sound (output : List α) : Sound L capacity (start output) := by
  refine ⟨Nat.zero_le _, fun held is => ?_, fun is => ?_⟩
  · cases is
    exact ⟨L.size_pos, fun _ => rfl⟩
  · cases is

theorem got_held {held : List α} (fits : held.length ≤ L.size) {more : List α}
    (is : got L held = .reading more) : more.length < L.size ∧ (L.eager = true → more = []) := by
  rw [got] at is
  split at is
  · cases is
  · rename_i neither
    cases is
    obtain ⟨waits, short⟩ := not_or.mp neither
    exact ⟨lt_of_le_of_ne fits short, fun eager => absurd eager waits⟩

theorem step_sound {s t : State α} {e : Event L} (sound : Sound L capacity s)
    (step : Step L capacity s e t) : Sound L capacity t := by
  cases step with
  | @put n some has live heard room =>
      refine ⟨?_, sound.held, fun is => ?_⟩
      · rw [List.length_append, List.length_take]
        omega
      · rw [(sound.ended is).1] at live
        cases live
  | close => exact ⟨sound.room, sound.held, fun is => ⟨rfl, (sound.ended is).2⟩⟩
  | refused => exact ⟨sound.room, sound.held, sound.ended⟩
  | failed => exact ⟨sound.room, nofun, nofun⟩
  | @read held n stage opened some there fits =>
      refine ⟨?_, fun more is => got_held ?_ is, fun is => ?_⟩
      · rw [List.length_drop]
        exact (Nat.sub_le _ _).trans sound.room
      · rw [List.length_append, List.length_take]
        omega
      · dsimp only [got] at is
        split at is <;> cases is
  | eof stage opened empty closed =>
      split
      · exact ⟨sound.room, nofun, fun _ => ⟨closed, empty⟩⟩
      · exact ⟨sound.room, nofun, nofun⟩
  | wrote stage =>
      split
      · refine ⟨sound.room, fun held is => ?_, nofun⟩
        cases is
        exact ⟨L.size_pos, fun _ => rfl⟩
      · exact ⟨sound.room, nofun, nofun⟩
  | cut opened => exact ⟨sound.room, sound.held, sound.ended⟩
  | broken stage closed => exact ⟨sound.room, nofun, nofun⟩

theorem run_sound {s t : State α} {es : List (Event L)} (sound : Sound L capacity s)
    (run : Run (Step L capacity) s es t) : Sound L capacity t :=
  run.invariant (fun _ _ _ sound step => step_sound sound step) sound

/-- A loop that reads eagerly holds nothing while it reads. -/
theorem run_all {s t : State α} {es : List (Event L)} (eager : L.eager = true)
    (sound : Sound L capacity s) (run : Run (Step L capacity) s es t) (good : ∀ e ∈ es, e.Good)
    (heard : ∀ n, .refused n ∉ es) : t.all = s.all := by
  induction run with
  | nil s => rfl
  | @cons s mid t e es head _ ih =>
      obtain ⟨first, later⟩ := List.forall_mem_cons.mp good
      rw [ih (step_sound sound head) later fun n inside => heard n (List.mem_cons_of_mem _ inside)]
      refine step_all head first (fun n is => heard n (is ▸ List.mem_cons_self)) fun drops => ?_
      have empty {held : List α} (stage : s.stage = .reading held) : s.stage.inHand = [] := by
        rw [stage]
        exact (sound.held _ stage).2 eager
      cases head with
      | failed stage => exact empty stage
      | broken stage => exact empty stage
      | _ => cases drops

/-! ## While the sink answers well -/

/-- The loop has not given up, and up to the end of the pipe its end is open. -/
structure Open (s : State α) : Prop where
  going : s.stage ≠ .stopped
  uncut : s.stage ≠ .ended → s.cut = false

/-- Who reads or writes is not at the end. -/
theorem Open.busy {s : State α} (opened : Open s) (running : s.stage.over = false) : s.cut = false := by
  refine opened.uncut fun is => ?_
  rw [is] at running
  cases running

theorem step_open {s t : State α} {e : Event L} (opened : Open s) (step : Step L capacity s e t)
    (fine : e.Fine) : Open t := by
  have busy {stage : Stage α} (is : s.stage = stage) (running : stage.over = false) : s.cut = false :=
    opened.busy (is ▸ running)
  cases step with
  | put => exact ⟨opened.going, opened.uncut⟩
  | close => exact ⟨opened.going, opened.uncut⟩
  | refused some has live deaf => exact ⟨opened.going, opened.uncut⟩
  | read stage =>
      refine ⟨?_, fun _ => busy stage rfl⟩
      dsimp only [got]
      split <;> nofun
  | failed => exact absurd fine id
  | eof stage =>
      split
      · exact ⟨nofun, fun running => absurd rfl running⟩
      · exact ⟨nofun, fun _ => busy stage rfl⟩
  | @wrote chunk answer stage =>
      rw [if_pos (show L.goesOn chunk answer = true from fine)]
      exact ⟨nofun, fun _ => busy stage rfl⟩
  | cut => exact absurd fine id
  | broken stage closed =>
      rw [busy stage rfl] at closed
      cases closed

/-- Nothing is refused, and no read fails. -/
theorem step_heard {s t : State α} {e : Event L} (sound : Sound L capacity s) (opened : Open s)
    (step : Step L capacity s e t) (fine : e.Fine) : (∀ n, e ≠ .refused n) ∧ e.drops = false := by
  cases step with
  | refused some has live deaf =>
      by_cases ended : s.stage = .ended
      · rw [(sound.ended ended).1] at live
        cases live
      · rw [opened.uncut ended] at deaf
        cases deaf
  | failed => exact absurd fine id
  | broken stage closed =>
      rw [opened.busy (stage ▸ rfl)] at closed
      cases closed
  | _ => exact ⟨nofun, rfl⟩

/-- While the sink answers well the loop does not give up, and everything stays in order. -/
theorem run_open {s t : State α} {es : List (Event L)} (sound : Sound L capacity s) (opened : Open s)
    (run : Run (Step L capacity) s es t) (fine : ∀ e ∈ es, e.Fine) : Open t ∧ t.all = s.all := by
  induction run with
  | nil s => exact ⟨opened, rfl⟩
  | @cons s mid t e es head _ ih =>
      obtain ⟨first, later⟩ := List.forall_mem_cons.mp fine
      obtain ⟨still, same⟩ := ih (step_sound sound head) (step_open opened head first) later
      obtain ⟨heard, keeps⟩ := step_heard sound opened head first
      refine ⟨still, same.trans (step_all head first.good heard fun drops => ?_)⟩
      rw [keeps] at drops
      cases drops

/-- A run of the loop alone, in which the sink answers well. -/
def Drains (L : Loop α) (capacity : ℕ) (s t : State α) : Prop :=
  ∃ es : List (Event L), Run (Step L capacity) s es t ∧ (∀ e ∈ es, e.Fine) ∧ t.left = s.left ∧
    t.closed = s.closed

theorem Drains.refl (s : State α) : Drains L capacity s s := ⟨[], .nil s, nofun, rfl, rfl⟩

theorem Drains.head {s t u : State α} {e : Event L} (first : Step L capacity s e t) (fine : e.Fine)
    (left : t.left = s.left) (closed : t.closed = s.closed) (rest : Drains L capacity t u) :
    Drains L capacity s u := by
  obtain ⟨es, run, good, same, still⟩ := rest
  exact ⟨e :: es, .cons first run, List.forall_mem_cons.mpr ⟨fine, good⟩, same.trans left,
    still.trans closed⟩

variable (answers : ∀ chunk, ∃ answer, L.goesOn chunk answer = true)

include answers in
/-- The loop hands over what it holds. -/
theorem hands_over {s : State α} {chunk : List α} (stage : s.stage = .writing chunk) {t : State α}
    (rest : Drains L capacity { s with stage := .reading [], taken := s.taken ++ chunk } t) :
    Drains L capacity s t := by
  obtain ⟨answer, good⟩ := answers chunk
  have step : Step L capacity s (.wrote chunk answer) _ := .wrote stage
  rw [if_pos good] at step
  exact .head step good rfl rfl rest

include answers in
/-- The loop can empty the pipe. -/
theorem empties {s : State α} (sound : Sound L capacity s) (opened : Open s)
    (running : s.stage ≠ .ended) :
    ∃ t held, Drains L capacity s t ∧ t.pipe = [] ∧ t.cut = false ∧ t.stage = .reading held := by
  induction size : s.pipe.length generalizing s with
  | zero =>
      have empty := List.length_eq_zero_iff.mp size
      cases stage : s.stage with
      | reading held => exact ⟨s, held, .refl s, empty, opened.uncut running, stage⟩
      | writing chunk =>
          exact ⟨_, [], hands_over answers stage (.refl _), empty, opened.uncut running, rfl⟩
      | ended => exact absurd stage running
      | stopped => exact absurd stage opened.going
  | succ n ih =>
      have reads {s : State α} {held : List α} (sound : Sound L capacity s) (opened : Open s)
          (stage : s.stage = .reading held) (size : s.pipe.length = n + 1) :
          ∃ t held, Drains L capacity s t ∧ t.pipe = [] ∧ t.cut = false ∧ t.stage = .reading held := by
        have room := (sound.held held stage).1
        have step : Step L capacity s (.read 1) _ :=
          .read stage (opened.busy (stage ▸ rfl)) Nat.one_pos (by omega) room
        have going : got L (held ++ s.pipe.take 1) ≠ .ended := by
          rw [got]
          split <;> nofun
        have shorter : (s.pipe.drop 1).length = n := by
          rw [List.length_drop, size]
          rfl
        obtain ⟨t, held, rest, found⟩ := ih (step_sound sound step) (step_open opened step trivial) going
          shorter
        exact ⟨t, held, .head step trivial rfl rfl rest, found⟩
      cases stage : s.stage with
      | reading held => exact reads sound opened stage size
      | writing chunk =>
          have sound' : Sound L capacity { s with stage := .reading [], taken := s.taken ++ chunk } := by
            refine ⟨sound.room, fun held is => ?_, nofun⟩
            cases is
            exact ⟨L.size_pos, fun _ => rfl⟩
          obtain ⟨t, held, rest, found⟩ := reads sound' ⟨nofun, fun _ => opened.uncut running⟩ rfl size
          exact ⟨t, held, hands_over answers stage rest, found⟩
      | ended => exact absurd stage running
      | stopped => exact absurd stage opened.going

include answers in
/-- The writer always gets on. -/
theorem gets_on {s : State α} (holds : 0 < capacity) (sound : Sound L capacity s) (opened : Open s)
    (live : s.closed = false) (more : s.left ≠ []) :
    ∃ (es : List (Event L)) (t : State α), Run (Step L capacity) s es t ∧ (∀ e ∈ es, e.Fine) ∧
      t.left = s.left.tail := by
  have running : s.stage ≠ .ended := fun is => by
    rw [(sound.ended is).1] at live
    cases live
  obtain ⟨t, held, ⟨es, run, fine, left, closed⟩, empty, cut, _⟩ := empties answers sound opened running
  have some : 0 < t.left.length := List.length_pos_iff.mpr (left ▸ more)
  have put : Step L capacity t (.put 1) _ :=
    .put Nat.one_pos some (closed.trans live) cut (by rw [empty]; exact holds)
  refine ⟨es ++ [.put 1], _, run.append (.single put), ?_, ?_⟩
  · rw [List.forall_mem_append]
    exact ⟨fine, List.forall_mem_singleton.mpr trivial⟩
  · dsimp only
    rw [left, List.drop_one]

include answers in
/-- Behind a writer that is through, the loop comes to the end of the pipe. -/
theorem comes_to_end {s : State α} (sound : Sound L capacity s) (opened : Open s)
    (closed : s.closed = true) : ∃ t, Drains L capacity s t ∧ t.stage = .ended := by
  by_cases running : s.stage = .ended
  · exact ⟨s, .refl s, running⟩
  · obtain ⟨t, held, ⟨es, run, fine, left, still⟩, empty, cut, stage⟩ :=
      empties answers sound opened running
    have onwards {u : State α} (rest : Drains L capacity t u) : Drains L capacity s u := by
      obtain ⟨more, later, good, same, kept⟩ := rest
      refine ⟨es ++ more, run.append later, ?_, same.trans left, kept.trans still⟩
      rw [List.forall_mem_append]
      exact ⟨fine, good⟩
    have ends {t : State α} (stage : t.stage = .reading []) (cut : t.cut = false) (empty : t.pipe = [])
        (closed : t.closed = true) : ∃ u, Drains L capacity t u ∧ u.stage = .ended := by
      have step : Step L capacity t .eof _ := .eof stage cut empty closed
      exact ⟨_, .head step trivial rfl rfl (.refl _), rfl⟩
    cases held with
    | nil =>
        obtain ⟨u, rest, ended⟩ := ends stage cut empty (still.trans closed)
        exact ⟨u, onwards rest, ended⟩
    | cons b bs =>
        have step : Step L capacity t .eof _ := .eof stage cut empty (still.trans closed)
        obtain ⟨u, rest, ended⟩ :=
          @ends { t with stage := .reading [], taken := t.taken ++ (b :: bs) } rfl cut empty
            (still.trans closed)
        have written : Drains L capacity { t with stage := .writing (b :: bs) } u :=
          hands_over answers rfl rest
        exact ⟨u, onwards (.head step trivial rfl rfl written), ended⟩

/-! ## Behind another answer -/

/-- What stays of a loop that has given up. -/
structure Left (s t : State α) : Prop where
  stopped : t.stage = .stopped
  taken : t.taken = s.taken
  cut : s.cut = true → t.cut = true

/-- A loop that has given up reads nothing any more. -/
theorem step_stopped {s t : State α} {e : Event L} (stopped : s.stage = .stopped)
    (step : Step L capacity s e t) : Left s t := by
  have through {stage : Stage α} {P : Prop} (is : s.stage = stage) (running : stage.over = false) : P := by
    rw [← is, stopped] at running
    cases running
  cases step with
  | put => exact ⟨stopped, rfl, id⟩
  | close => exact ⟨stopped, rfl, id⟩
  | refused => exact ⟨stopped, rfl, id⟩
  | read stage => exact through stage rfl
  | failed stage => exact through stage rfl
  | eof stage => exact through stage rfl
  | wrote stage => exact through stage rfl
  | cut => exact ⟨stopped, rfl, fun _ => rfl⟩
  | broken stage => exact through stage rfl

theorem run_stopped {s t : State α} {es : List (Event L)} (stopped : s.stage = .stopped)
    (run : Run (Step L capacity) s es t) : Left s t := by
  induction run with
  | nil s => exact ⟨stopped, rfl, id⟩
  | cons head _ ih =>
      have first := step_stopped stopped head
      have rest := ih first.stopped
      exact ⟨rest.stopped, rest.taken.trans first.taken, rest.cut ∘ first.cut⟩

/-- Behind it, nothing leaves an open pipe. -/
theorem step_stuck {s t : State α} {e : Event L} (stopped : s.stage = .stopped) (opened : s.cut = false)
    (step : Step L capacity s e t) (uncut : ∀ unread, e ≠ .cut unread) :
    t.cut = false ∧ t.left.length + t.pipe.length = s.left.length + s.pipe.length := by
  have through {stage : Stage α} {P : Prop} (is : s.stage = stage) (running : stage.over = false) : P := by
    rw [← is, stopped] at running
    cases running
  cases step with
  | @put n some has live heard room =>
      refine ⟨opened, ?_⟩
      rw [List.length_drop, List.length_append, List.length_take]
      omega
  | close => exact ⟨opened, rfl⟩
  | refused some has live deaf =>
      rw [opened] at deaf
      cases deaf
  | read stage => exact through stage rfl
  | failed stage => exact through stage rfl
  | eof stage => exact through stage rfl
  | wrote stage => exact through stage rfl
  | cut => exact absurd rfl (uncut _)
  | broken stage => exact through stage rfl

theorem run_stuck {s t : State α} {es : List (Event L)} (stopped : s.stage = .stopped) (opened : s.cut = false)
    (run : Run (Step L capacity) s es t) (uncut : ∀ unread, .cut unread ∉ es) :
    t.left.length + t.pipe.length = s.left.length + s.pipe.length := by
  induction run with
  | nil s => rfl
  | cons head _ ih =>
      obtain ⟨still, sum⟩ := step_stuck stopped opened head fun unread is => uncut unread (is ▸ List.mem_cons_self)
      exact (ih (step_stopped stopped head).stopped still fun unread inside =>
        uncut unread (List.mem_cons_of_mem _ inside)).trans sum

/-- So a writer with more than the pipe holds never gets through, while the end is open. -/
theorem starved {s t : State α} {es : List (Event L)} (sound : Sound L capacity s)
    (stopped : s.stage = .stopped) (opened : s.cut = false) (more : capacity < s.left.length + s.pipe.length)
    (run : Run (Step L capacity) s es t) (uncut : ∀ unread, .cut unread ∉ es) : t.left ≠ [] := by
  intro none
  have total := run_stuck stopped opened run uncut
  have room := (run_sound sound run).room
  rw [none, List.length_nil] at total
  omega

/-- Without a reading end, whatever the writer writes is refused. -/
theorem refuses {s : State α} (cut : s.cut = true) (live : s.closed = false) (more : s.left ≠ []) :
    ∃ t, Step L capacity s (.refused 1) t ∧ t.left = s.left.tail := by
  have some : 0 < s.left.length := List.length_pos_iff.mpr more
  exact ⟨_, .refused Nat.one_pos some live cut, List.drop_one⟩

/-- A step that is not fine ends the loop, unless it closes the reading end. -/
theorem step_unfine {s t : State α} {e : Event L} (step : Step L capacity s e t) (bad : ¬ e.Fine)
    (uncut : ∀ unread, e ≠ .cut unread) : t.stage = .stopped := by
  cases step with
  | failed => rfl
  | @wrote chunk answer stage =>
      rw [if_neg (show ¬ L.goesOn chunk answer = true from bad)]
      rfl
  | cut => exact absurd rfl (uncut _)
  | _ => exact absurd trivial bad

/-- Over an end that nothing else closes, the loop has given up exactly if the sink has answered
other than well or a read has failed. -/
theorem stopped_iff {s t : State α} {es : List (Event L)} (sound : Sound L capacity s) (opened : Open s)
    (run : Run (Step L capacity) s es t) (uncut : ∀ unread, .cut unread ∉ es) :
    t.stage = .stopped ↔ ∃ e ∈ es, ¬ e.Fine := by
  constructor
  · intro stopped
    by_contra fine
    refine (run_open sound opened run fun e inside => ?_).1.going stopped
    exact by_contra fun bad => fine ⟨e, inside, bad⟩
  · rintro ⟨e, inside, bad⟩
    obtain ⟨before, after, first, last, step, _, _, rest⟩ := run.visits inside
    exact (run_stopped (step_unfine step bad fun unread is => uncut unread (is ▸ inside)) rest).stopped

/-- Where nothing else closes it, the end of a loop that closes its own is closed exactly behind
the loop, and otherwise never. -/
theorem step_cut_iff {s t : State α} {e : Event L} (same : s.cut = (L.closes && s.stage.over))
    (step : Step L capacity s e t) (uncut : ∀ unread, e ≠ .cut unread) :
    t.cut = (L.closes && t.stage.over) := by
  have running {stage : Stage α} (is : s.stage = stage) (busy : stage.over = false) : s.cut = false := by
    rw [same, is, busy, Bool.and_false]
  cases step with
  | put => exact same
  | close => exact same
  | refused => exact same
  | read stage =>
      refine (running stage rfl).trans ?_
      dsimp only [got]
      split <;> exact (Bool.and_false _).symm
  | failed stage =>
      change (s.cut || L.closes) = (L.closes && true)
      rw [running stage rfl, Bool.false_or, Bool.and_true]
  | eof stage =>
      split
      · change (s.cut || L.closes) = (L.closes && true)
        rw [running stage rfl, Bool.false_or, Bool.and_true]
      · exact (running stage rfl).trans (Bool.and_false _).symm
  | wrote stage =>
      split
      · exact (running stage rfl).trans (Bool.and_false _).symm
      · change (s.cut || L.closes) = (L.closes && true)
        rw [running stage rfl, Bool.false_or, Bool.and_true]
  | cut => exact absurd rfl (uncut _)
  | broken stage closed =>
      change (s.cut || L.closes) = (L.closes && true)
      rw [running stage rfl, Bool.false_or, Bool.and_true]

theorem run_cut {s t : State α} {es : List (Event L)} (same : s.cut = (L.closes && s.stage.over))
    (run : Run (Step L capacity) s es t) (uncut : ∀ unread, .cut unread ∉ es) :
    t.cut = (L.closes && t.stage.over) := by
  have each : ∀ e ∈ es, ∀ unread, e ≠ .cut unread := fun e inside unread is => uncut unread (is ▸ inside)
  exact (run.with_labels each).invariant (P := fun s => s.cut = (L.closes && s.stage.over))
    (fun _ _ _ held step => step_cut_iff held step.1 step.2) same

/-- The writer fills a chunk, the loop reads it, and the sink answers other than well. -/
theorem gives_up {chunk rest : List α} {answer : L.Answer} (size : chunk.length = L.size)
    (fits : chunk.length ≤ capacity) (bad : L.goesOn chunk answer = false) :
    ∃ es : List (Event L), Run (Step L capacity) (start (chunk ++ rest)) es
      ⟨rest, [], false, L.closes, .stopped, []⟩ ∧ .failed ∉ es ∧ ∀ unread, .cut unread ∉ es := by
  have some : 0 < chunk.length := size ▸ L.size_pos
  let filled : State α := ⟨rest, chunk, false, false, .reading [], []⟩
  have put : Step L capacity (start (chunk ++ rest)) (.put chunk.length) filled := by
    have step : Step L capacity (start (chunk ++ rest)) (.put chunk.length) _ :=
      .put some (List.length_append ▸ Nat.le_add_right _ _) rfl rfl (by simpa [start] using fits)
    simpa [start] using step
  have read : Step L capacity filled (.read chunk.length)
      ⟨rest, [], false, false, .writing chunk, []⟩ := by
    have step : Step L capacity filled (.read chunk.length) _ :=
      .read rfl rfl some le_rfl (by rw [List.length_nil, Nat.zero_add, size])
    have inHand : got L ([] ++ chunk.take chunk.length) = .writing chunk := by
      rw [List.nil_append, List.take_length, got, if_pos (.inr size)]
    rw [inHand, List.drop_length] at step
    exact step
  have wrote : Step L capacity ⟨rest, [], false, false, .writing chunk, []⟩ (.wrote chunk answer)
      ⟨rest, [], false, L.closes, .stopped, []⟩ := by
    have step : Step L capacity ⟨rest, [], false, false, .writing chunk, []⟩ (.wrote chunk answer) _ :=
      .wrote rfl
    simpa [bad, State.finish] using step
  refine ⟨_, .cons put (.cons read (.single wrote)), fun inside => ?_, fun unread inside => ?_⟩
  · simp at inside
  · simp at inside

end SanDbOxFormal.Library.Draining
