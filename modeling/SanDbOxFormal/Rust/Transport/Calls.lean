import SanDbOxFormal.Rust.Transport.Script

/-!
# Runs of calls

A reader is called over and over, with a timeout or without.  Whatever the reader is,
each call takes a step of what is still to be returned, and from that follows what a
whole run of calls returns.
-/

namespace SanDbOxFormal.Rust.Transport

open SanDbOxFormal.Library
open SanDbOxFormal.Library.Runs

/-! ## One call -/

/-- Since the clock was read `begun` times, it has shown an instant at or past the
deadline. -/
def Expired (deadline : Option Nat) (begun : Nat) (clock : Clock) : Prop :=
  ∃ d i, deadline = some d ∧ begun ≤ i ∧ i < clock.read ∧ d ≤ clock.now i

/-- What a call returned and what it took from the course: it gives up only past its
deadline. -/
inductive Got (deadline : Option Nat) (begun : Nat) (clock : Clock) :
    Except Error (List UInt8) → Option (Except Error (List UInt8)) → Prop where
  | told (result : Except Error (List UInt8)) : Got deadline begun clock result (some result)
  | late (expired : Expired deadline begun clock) : Got deadline begun clock (.error readTimeout) none

/-- The check of a deadline reads the clock, and finds it late only past the deadline. -/
theorem timedOut_spec (clock : Clock) (deadline : Option Nat) :
    ((clock.timedOut deadline).1 = true → ∃ d, deadline = some d ∧
      clock.read < (clock.timedOut deadline).2.read ∧
        d ≤ (clock.timedOut deadline).2.now clock.read) ∧
    (clock.timedOut deadline).2.now = clock.now ∧
      clock.read ≤ (clock.timedOut deadline).2.read := by
  cases deadline with
  | none => exact ⟨nofun, rfl, Nat.le_refl _⟩
  | some d => exact ⟨fun late => ⟨d, rfl, Nat.lt_succ_self _, of_decide_eq_true late⟩, rfl, Nat.le_succ _⟩

/-- What a result says about the course: a timeout says nothing. -/
def told : Except Error (List UInt8) → Option (Except Error (List UInt8))
  | .error (.timeout _) => none
  | result => some result

theorem told_error {e : Error} (other : ∀ text, e ≠ .timeout text) :
    told (.error e) = some (.error e) := by
  cases e with
  | timeout text => exact absurd rfl (other text)
  | response code message => rfl
  | protocol text => rfl
  | io e => rfl
  | closed => rfl

theorem of_told {result outcome : Except Error (List UInt8)} (is : told result = some outcome) :
    result = outcome := by
  unfold told at is
  split at is
  · cases is
  · exact Option.some.inj is

/-! ## Runs -/

/-- One `read_line`, with the reader before and after it. -/
structure Call (ρ : Type) where
  before : ρ
  timeout : Option Nat
  result : Except Error (List UInt8)
  after : ρ

variable {ρ : Type}

/-- The lines among the results. -/
def delivered (calls : List (Call ρ)) : List (List UInt8) :=
  calls.filterMap fun c => c.result.toOption

/-- What was delivered is what was returned from the course. -/
theorem delivered_eq (calls : List (Call ρ)) :
    delivered calls = Course.returned (calls.map fun c => told c.result) := by
  induction calls with
  | nil => rfl
  | cons c rest ih =>
      obtain ⟨before, timeout, result, after⟩ := c
      cases result with
      | ok l =>
          change l :: delivered rest = l :: Course.returned _
          rw [ih]
      | error e =>
          change delivered rest = _
          rw [ih]
          cases e <;> rfl

theorem delivered_append (first rest : List (Call ρ)) :
    delivered (first ++ rest) = delivered first ++ delivered rest := List.filterMap_append

/-- A reader whose calls take steps of a course. -/
class LineReader (ρ : Type) where
  readLine : ρ → Option Nat → Exec (Except Error (List UInt8) × ρ)
  clock : ρ → Clock
  course : ρ → Course (List UInt8) Error
  /-- What holds between any two calls. -/
  Good : ρ → Prop
  got : ∀ {r t : ρ} {timeout : Option Nat} {result : Except Error (List UInt8)}, Good r →
    readLine r timeout = .ok (result, t) →
      Good t ∧ ∃ o, Got (timeout.map ((clock r).now (clock r).read + ·)) (clock r).read (clock t)
        result o ∧ Course.Step (course r) o (course t)

namespace LineReader

variable [LineReader ρ]

inductive Step : ρ → Call ρ → ρ → Prop where
  | ran {r t : ρ} {timeout : Option Nat} {result : Except Error (List UInt8)}
      (returned : readLine r timeout = .ok (result, t)) : Step r ⟨r, timeout, result, t⟩ t

/-- A good reader whose ending, if it has one, is not a timeout. -/
structure Sound (r : ρ) : Prop where
  good : Good r
  ending : ∀ e, (course r).ending = some e → ∀ text, e ≠ .timeout text

/-- A timeout leaves the course alone, and comes only past its deadline. -/
def InTime (c : Call ρ) : Prop :=
  ∀ text, c.result = .error (.timeout text) → course c.after = course c.before ∧
    Expired (c.timeout.map ((clock c.before).now (clock c.before).read + ·)) (clock c.before).read
      (clock c.after)

theorem Step.spec {r t : ρ} {c : Call ρ} (sound : Sound r) (step : Step r c t) :
    Sound t ∧ Course.Step (course r) (told c.result) (course t) ∧ InTime c := by
  cases step with
  | @ran _ timeout result returned =>
      obtain ⟨good, o, got, came⟩ := LineReader.got sound.good returned
      have kept : Sound t := by
        refine ⟨good, fun e ending => ?_⟩
        rw [came.conserves.2] at ending
        exact sound.ending e ending
      cases got with
      | late expired => exact ⟨kept, came, fun _ _ => ⟨came.of_late, expired⟩⟩
      | told =>
          have other : ∀ text, result ≠ .error (.timeout text) := by
            rintro text rfl
            exact sound.ending _ came.of_error text rfl
          refine ⟨kept, ?_, fun text late => absurd late (other text)⟩
          cases result with
          | ok l => exact came
          | error e =>
              rw [told_error fun text same => other text (congrArg Except.error same)]
              exact came

theorem run_sound {r t : ρ} {calls : List (Call ρ)} (run : Run Step r calls t) (sound : Sound r) :
    Sound t :=
  run.invariant (fun _ _ _ sound step => (step.spec sound).1) sound

theorem run_course {r t : ρ} {calls : List (Call ρ)} (run : Run Step r calls t) (sound : Sound r) :
    Run Course.Step (course r) (calls.map fun c => told c.result) (course t) :=
  run.map (P := Sound) (fun _ _ _ sound step => (step.spec sound).1)
    (fun _ _ _ sound step => (step.spec sound).2.1) sound

/-- What the calls returned and what is still to be returned. -/
theorem run_conserves {r t : ρ} {calls : List (Call ρ)} (run : Run Step r calls t) (sound : Sound r) :
    delivered calls ++ (course t).items = (course r).items ∧
      (course t).ending = (course r).ending := by
  rw [delivered_eq]
  exact Course.run_conserves (run_course run sound)

/-- What the caller may rely on, given all complete lines of the stream. -/
structure Delivers (all : List (List UInt8)) (calls : List (Call ρ)) : Prop where
  in_order : delivered calls <+: all
  late : ∀ c ∈ calls, InTime c
  /-- The line that a timeout missed, with what had come of it, is the next one returned. -/
  missed : ∀ first c rest text l more, calls = first ++ c :: rest →
    c.result = .error (.timeout text) → delivered rest = l :: more →
    all[(delivered first).length]? = some l
  ended : ∀ first c rest e, calls = first ++ c :: rest → c.result = .error e →
    (∀ text, e ≠ .timeout text) →
    delivered first = all ∧ ∀ later ∈ rest, later.result = .error e

theorem delivers {r t : ρ} {calls : List (Call ρ)} (run : Run Step r calls t) (sound : Sound r) :
    Delivers (course r).items calls := by
  have course := run_course run sound
  have whole := (run_conserves run sound).1
  refine ⟨⟨_, whole⟩, ?_, fun first c rest text l more shape late next => ?_,
    fun first c rest e shape failed other => ?_⟩
  · exact run.forall_labels (P := Sound) (fun _ _ _ sound step => (step.spec sound).1)
      (fun _ _ _ sound step => (step.spec sound).2.2) sound
  · subst shape
    have none : delivered [c] = [] := by
      simp [delivered, late, Except.toOption]
    rw [← List.singleton_append, delivered_append, delivered_append, none, next] at whole
    rw [← whole]
    simp
  · subst shape
    rw [List.map_append, List.map_cons, failed, told_error other] at course
    obtain ⟨all, _, again⟩ := Course.run_ended course
    rw [delivered_eq, all]
    exact ⟨rfl, fun later inside => of_told (again _ (List.mem_map_of_mem inside))⟩

end LineReader

end SanDbOxFormal.Rust.Transport
