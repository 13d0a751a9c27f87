import SanDbOxFormal.Go.Pairing

/-!
# What a session leaves behind

A call that gives up behind its write, and a `Close`, leave a session from which no reply
is received any more.  The lines that still come stay with `readLoop`, which ends only if
there are none: its channel holds one item, and the error behind the lines is another.
-/

namespace SanDbOxFormal.Go.Session

open SanDbOxFormal.Library
open SanDbOxFormal.Library.Runs
open SanDbOxFormal.Library.Turns (getElem?_set_cases getElem?_append_cases)

section Fields

variable {std : Strconv} {s t : Session} {i : ℕ} {g : Caller} {e : Event}

theorem enter_pump : (s.enter i g).pump = s.pump := by
  unfold enter
  split_ifs <;> rfl

theorem enter_closed (closed : s.closed = true) : (s.enter i g).closed = true := by
  unfold enter
  rw [if_pos closed, if_pos closed]
  split_ifs <;> exact closed

theorem write_pump {fault : Option (Fault Cause)} : (s.write i g fault).pump = s.pump := by
  unfold write
  dsimp only
  split
  · rfl
  · split <;> rfl

theorem write_closed {fault : Option (Fault Cause)} : (s.write i g fault).closed = s.closed := by
  unfold write
  dsimp only
  split
  · rfl
  · split <;> rfl

theorem answer_closed {line : List UInt8} : (answer std s i g line).closed = s.closed := by
  unfold answer
  dsimp only
  split <;> rfl

theorem fail_pump {cause : Cause} : (s.fail i g cause).pump = s.pump := by
  unfold fail
  split <;> rfl

theorem fail_closed {cause : Cause} : (s.fail i g cause).closed = (s.closed || g.done) := by
  unfold fail
  split
  · rename_i done
    rw [done, Bool.or_true]
    rfl
  · rename_i going
    rw [Bool.eq_false_iff.mpr going, Bool.or_false]
    rfl

theorem enter_callers : ∃ g', (s.enter i g).callers = s.callers.set i g' ∧ g'.own = g.own ∧ g'.took = g.took := by
  unfold enter
  split_ifs <;> exact ⟨_, rfl, rfl, rfl⟩

theorem write_callers {fault : Option (Fault Cause)} : ∃ g', (s.write i g fault).callers = s.callers.set i g' ∧
    (g'.stage = .waiting ∨ g'.own = g.own) ∧ g'.took = g.took := by
  unfold write
  dsimp only
  split
  · exact ⟨_, rfl, .inr rfl, rfl⟩
  · split
    · exact ⟨_, rfl, .inl rfl, rfl⟩
    · exact ⟨_, rfl, .inr rfl, rfl⟩

theorem fail_callers {cause : Cause} :
    ∃ g', (s.fail i g cause).callers = s.callers.set i g' ∧ g'.took = g.took := by
  unfold fail
  split <;> exact ⟨_, rfl, rfl⟩

/-- A closed session stays closed. -/
theorem Happened.closed (happened : Happened std s e t) (closed : s.closed = true) : t.closed = true := by
  cases happened with
  | locked there stage free => exact enter_closed closed
  | wrote there stage => exact write_closed.trans closed
  | line there stage took => exact answer_closed.trans closed
  | relocked there stage free => rfl
  | ended there stage took => rw [fail_closed, Bool.or_eq_true]; exact .inl closed
  | drained there stage spent => rw [fail_closed, Bool.or_eq_true]; exact .inl closed
  | expired there stage done => rw [fail_closed, Bool.or_eq_true]; exact .inl closed
  | refused failed => exact closed
  | invoked built => exact closed
  | cancelled there => exact closed
  | turned => exact closed
  | severed torn => exact closed
  | finished there stage => exact closed

/-- What is still to be received changes when a line is received, and when the connection is severed. -/
theorem Happened.ahead (happened : Happened std s e t) (quiet : ∀ i, e ≠ .received i) (whole : ∀ lines, e ≠ .severed lines) :
    t.pump.ahead reading = s.pump.ahead reading := by
  cases happened with
  | locked there stage free => rw [enter_pump]
  | wrote there stage => rw [write_pump]
  | line there stage took => exact absurd rfl (quiet _)
  | ended there stage took => exact absurd rfl (quiet _)
  | drained there stage spent => exact absurd rfl (quiet _)
  | expired there stage done => rw [fail_pump]
  | turned => exact Pump.turn_ahead reading s.pump
  | severed torn => exact absurd rfl (whole _)
  | refused failed => rfl
  | invoked built => rfl
  | cancelled there => rfl
  | relocked there stage free => rfl
  | finished there stage => rfl

end Fields

/-! ## Calls that have given up -/

/-- No line is received any more. -/
def Silent (s : Session) : Prop := s.closed = true ∨ s.pump.ahead reading = []

section Silent

variable {std : Strconv} {s t : Session} {i : ℕ} {g : Caller} {e : Event}

/-- In a silent session no line is there for the one who waits. -/
theorem Silent.no_line (silent : Silent s) (locked : Locked s) (there : s.callers[i]? = some g)
    (stage : g.stage = .waiting) {line : List UInt8} {pump : Pump Lines Cause (List UInt8)} :
    s.pump.take? ≠ some (.ok line, pump) := by
  intro took
  rcases silent with closed | none
  · cases (locked.live i g there (.inr stage)).symm.trans closed
  · cases Pump.take?_taken reading took with
    | line next => cases none.symm.trans next

theorem Happened.silent (happened : Happened std s e t) (locked : Locked s) (silent : Silent s) : Silent t := by
  rcases silent with closed | none
  · exact .inl (happened.closed closed)
  · cases happened with
    | line there stage took => exact absurd took (Silent.no_line (.inr none) locked there stage)
    | ended there stage took =>
        cases Pump.take?_taken reading took with
        | ended before spent => exact .inr ((congrArg (Pump.ahead reading) fail_pump).trans spent)
    | drained there stage spent => exact .inr ((congrArg (Pump.ahead reading) fail_pump).trans none)
    | severed torn => exact .inl (locked.torn torn)
    | refused failed => exact .inr none
    | invoked built => exact .inr none
    | cancelled there => exact .inr none
    | turned => exact .inr ((Pump.turn_ahead reading s.pump).trans none)
    | locked there stage free => exact .inr ((congrArg (Pump.ahead reading) enter_pump).trans none)
    | wrote there stage => exact .inr ((congrArg (Pump.ahead reading) write_pump).trans none)
    | expired there stage done => exact .inr ((congrArg (Pump.ahead reading) fail_pump).trans none)
    | relocked there stage free => exact .inl rfl
    | finished there stage => exact .inr none

/-- A caller that had a place and is behind its wait without a line has left a silent session. -/
def Left (s : Session) : Prop :=
  ∀ (i : ℕ) (g : Caller), s.callers[i]? = some g → g.own ≠ none → g.took = none →
    g.stage = .waiting ∨ Silent s

theorem Left.set (left : Left s) (silent : Silent s → Silent t) {g' : Caller}
    (callers : t.callers = s.callers.set i g')
    (own : g'.own ≠ none → g'.took = none → g'.stage = .waiting ∨ Silent t) : Left t := by
  intro j h there placed none
  rw [callers] at there
  rcases getElem?_set_cases there with ⟨_, rfl⟩ | ⟨_, there⟩
  · exact own placed none
  · exact (left j h there placed none).imp_right silent

theorem Left.call (left : Left s) (none : g.own = none) : Left { s with callers := s.callers ++ [g] } := by
  intro j h there placed untaken
  rcases getElem?_append_cases there with there | rfl
  · exact left j h there placed untaken
  · exact absurd none placed

/-- A caller that does not wait has left before. -/
theorem Left.before (left : Left s) (there : s.callers[i]? = some g) (stage : g.stage ≠ .waiting)
    (placed : g.own ≠ none) (none : g.took = none) : Silent s :=
  (left i g there placed none).resolve_left stage

theorem Left.fail {pump : Pump Lines Cause (List UInt8)} {cause : Cause} (left : Left s)
    (gone : Silent (Session.fail { s with pump } i g cause)) : Left (Session.fail { s with pump } i g cause) := by
  obtain ⟨g', callers, _⟩ := fail_callers
  exact left.set (fun _ => gone) callers fun _ _ => .inr gone

theorem Happened.leaves (happened : Happened std s e t) (locked : Locked s) (left : Left s) : Left t := by
  have silent : Silent s → Silent t := happened.silent locked
  cases happened with
  | refused failed => exact left.call rfl
  | invoked built => exact left.call rfl
  | cancelled there => exact left.set silent rfl fun placed none => (left _ _ there placed none).imp_right silent
  | turned => exact fun j h there placed none => (left j h there placed none).imp_right silent
  | severed torn => exact fun j h there placed none => (left j h there placed none).imp_right silent
  | locked there stage free =>
      obtain ⟨g', callers, own, took⟩ := enter_callers
      refine left.set silent callers fun placed none => .inr (silent (left.before there ?_ (own ▸ placed) (took ▸ none)))
      rw [stage]
      rintro ⟨⟩
  | wrote there stage =>
      obtain ⟨g', callers, waits | own, took⟩ := write_callers
      · exact left.set silent callers fun _ _ => .inl waits
      · refine left.set silent callers fun placed none =>
          .inr (silent (left.before there ?_ (own ▸ placed) (took ▸ none)))
        rcases stage with is | is <;> rw [is] <;> rintro ⟨⟩
  | line there stage took =>
      revert silent
      unfold answer
      dsimp only
      split
      · exact fun silent => left.set silent rfl fun placed none => by cases none
      · exact fun silent => left.set silent rfl fun placed none => by cases none
  | ended there stage took =>
      cases Pump.take?_taken reading took with
      | ended before spent => exact left.fail (.inr ((congrArg (Pump.ahead reading) fail_pump).trans spent))
  | drained there stage spent =>
      refine left.fail (.inr ((congrArg (Pump.ahead reading) fail_pump).trans ?_))
      rw [Pump.ahead, spent]
  | expired there stage done =>
      refine left.fail (.inl (fail_closed.trans ?_))
      rw [done, Bool.or_true]
  | relocked there stage free => exact left.set silent rfl fun _ _ => .inr (.inl rfl)
  | finished there stage =>
      refine left.set silent rfl fun placed none => .inr (silent (left.before there ?_ placed none))
      rw [stage]
      rintro ⟨⟩

/-- In a silent session nobody receives a line that has not got one already. -/
theorem Happened.receives (happened : Happened std s e t) (locked : Locked s) (silent : Silent s) :
    ∀ (j : ℕ) (h : Caller), t.callers[j]? = some h → h.took ≠ none →
      ∃ h', s.callers[j]? = some h' ∧ h'.took = h.took := by
  have put {i : ℕ} {g g' : Caller} (there : s.callers[i]? = some g) (callers : t.callers = s.callers.set i g')
      (same : g'.took = g.took) (j : ℕ) (h : Caller) (after : t.callers[j]? = some h) (took : h.took ≠ none) :
      ∃ h', s.callers[j]? = some h' ∧ h'.took = h.took := by
    rw [callers] at after
    rcases getElem?_set_cases after with ⟨rfl, rfl⟩ | ⟨_, after⟩
    · exact ⟨g, there, same.symm⟩
    · exact ⟨h, after, rfl⟩
  have same (callers : t.callers = s.callers) (j : ℕ) (h : Caller) (after : t.callers[j]? = some h) :
      ∃ h', s.callers[j]? = some h' ∧ h'.took = h.took := ⟨h, callers ▸ after, rfl⟩
  have call {g : Caller} (callers : t.callers = s.callers ++ [g]) (none : g.took = none) (j : ℕ) (h : Caller)
      (after : t.callers[j]? = some h) (took : h.took ≠ .none) : ∃ h', s.callers[j]? = some h' ∧ h'.took = h.took := by
    rw [callers] at after
    rcases getElem?_append_cases after with before | rfl
    · exact ⟨h, before, rfl⟩
    · exact absurd none took
  cases happened with
  | refused failed => exact call rfl rfl
  | invoked built => exact call rfl rfl
  | cancelled there => exact put there rfl rfl
  | turned => exact fun j h after _ => same rfl j h after
  | severed torn => exact fun j h after _ => same rfl j h after
  | locked there stage free =>
      obtain ⟨g', callers, _, took⟩ := enter_callers
      exact put there callers took
  | wrote there stage =>
      obtain ⟨g', callers, _, took⟩ := write_callers
      exact put there callers took
  | line there stage took => exact absurd took (silent.no_line locked there stage)
  | @ended i g cause pump there stage took =>
      obtain ⟨g', callers, took⟩ := fail_callers
      exact put there callers took
  | drained there stage spent =>
      obtain ⟨g', callers, took⟩ := fail_callers
      exact put there callers took
  | expired there stage done =>
      obtain ⟨g', callers, took⟩ := fail_callers
      exact put there callers took
  | relocked there stage free => exact put there rfl rfl
  | finished there stage => exact put there rfl rfl

/-! ## Runs -/

/-- A session whose callers have all been left in order. -/
structure Orderly (s : Session) : Prop where
  locked : Locked s
  left : Left s

theorem Orderly.step (orderly : Orderly s) (step : Step std s e t) : Orderly t :=
  ⟨(step_happened step).locks orderly.locked, (step_happened step).leaves orderly.locked orderly.left⟩

theorem run_orderly {lines : Lines} {moments : List Pump.Moment} {hello : Hello} {opening : Session}
    (opened : newSession lines moments = some (.ok hello, opening)) {events : List Event}
    (run : Run (Step std) opening events s) : Orderly s := by
  refine run.invariant (fun _ _ _ orderly step => orderly.step step) ?_
  rw [(newSession_opened opened).1]
  refine ⟨locked_start opening.pump, ?_⟩
  rintro i g ⟨⟩

theorem received_earlier {events : List Event} (run : Run (Step std) s events t) (locked : Locked s)
    (silent : Silent s) : ∀ (j : ℕ) (h : Caller), t.callers[j]? = some h → h.took ≠ none →
      ∃ h', s.callers[j]? = some h' ∧ h'.took = h.took := by
  induction run with
  | nil s => exact fun j h there _ => ⟨h, there, rfl⟩
  | cons first rest ih =>
      have happened := step_happened first
      intro j h there took
      obtain ⟨h', before, same⟩ := ih (happened.locks locked) (happened.silent locked silent) j h there took
      obtain ⟨h'', earlier, same'⟩ := happened.receives locked silent j h' before (same ▸ took)
      exact ⟨h'', earlier, same'.trans same⟩

end Silent

/-- Once a call whose write went through has returned without the line that it waited for, whatever
the reason, only calls that had their line before return a reply or an error of the server. -/
theorem abandoned_silences (std : Strconv) (laws : std.Lawful) (lines : Lines) (moments : List Pump.Moment)
    (hello : Hello) (opening : Session) (opened : newSession lines moments = some (.ok hello, opening))
    (before after : List Event) (s t : Session) (run : Run (Step std) opening before s)
    (later : Run (Step std) s after t) (g : Caller) (inside : g ∈ s.callers) (outcome : Except GoError Reply)
    (returned : g.stage = .returned outcome) (placed : g.own ≠ none) (left : g.took = none) :
    ∀ (j : ℕ) (h : Caller) (result : Except GoError Reply), t.callers[j]? = some h →
      h.stage = .returned result → h.call ≠ .close →
      (∃ e, result = .error e ∧ Own e) ∨ ∃ h', s.callers[j]? = some h' ∧ h'.took ≠ none := by
  intro j h result there concluded call
  obtain ⟨i, held⟩ := List.mem_iff_getElem?.mp inside
  have orderly := run_orderly opened run
  have silent : Silent s := orderly.left.before held (by rw [returned]; rintro ⟨⟩) placed left
  obtain ⟨ds, stories⟩ := (run_kept laws opened (run.append later)).stories
  cases stories j h there with
  | asks _ _ stage => rcases stage with is | is <;> cases concluded.symm.trans is
  | waits _ _ is _ => cases concluded.symm.trans is
  | closes is _ _ => exact absurd is call
  | failed _ is own =>
      cases concluded.symm.trans is
      exact .inl ⟨_, rfl, own⟩
  | answered own took _ _ =>
      have some : h.took ≠ none := took ▸ Option.some_ne_none _
      obtain ⟨h', earlier, same⟩ := received_earlier later orderly.locked silent j h there some
      exact .inr ⟨h', earlier, same ▸ some⟩

/-! ## The goroutine that reads -/

/-- With the session closed nobody receives a line. -/
theorem Happened.keeps {std : Strconv} {s t : Session} {e : Event} (happened : Happened std s e t)
    (locked : Locked s) (closed : s.closed = true) (whole : ∀ lines, e ≠ .severed lines) :
    t.pump.ahead reading = s.pump.ahead reading := by
  refine happened.ahead (fun i received => ?_) whole
  subst received
  have waits {g : Caller} (there : s.callers[i]? = some g) (stage : g.stage = .waiting) : False :=
    Bool.noConfusion ((locked.live i g there (.inr stage)).symm.trans closed)
  cases happened with
  | line there stage took => exact waits there stage
  | ended there stage took => exact waits there stage
  | drained there stage spent => exact waits there stage

theorem ahead_kept {std : Strconv} {s t : Session} {events : List Event} (run : Run (Step std) s events t)
    (locked : Locked s) (closed : s.closed = true) (whole : ∀ lines, .severed lines ∉ events) :
    t.pump.ahead reading = s.pump.ahead reading := by
  induction run with
  | nil s => rfl
  | cons first rest ih =>
      have happened := step_happened first
      have kept := happened.keeps locked closed fun lines is => whole lines (is ▸ List.mem_cons_self)
      exact (ih (happened.locks locked) (happened.closed closed) fun lines inside =>
        whole lines (List.mem_cons_of_mem _ inside)).trans kept

/-- Once a session is closed, and the end of its connection has come, `readLoop` can come to its end
exactly if no line is left, and otherwise stays blocked at its channel for ever, whatever
happens to the session afterwards. -/
theorem readLoop_ends_iff (std : Strconv) (lines : Lines) (moments : List Pump.Moment) (hello : Hello)
    (opening : Session) (opened : newSession lines moments = some (.ok hello, opening))
    (before after : List Event) (s t : Session) (run : Run (Step std) opening before s)
    (closed : s.closed = true) (later : Run (Step std) s after t) (whole : ∀ l, .severed l ∉ after) :
    ((∃ n, ((Pump.turn reading)^[n] t.pump).Ended) ↔ s.pump.ahead reading = []) ∧
      ((∃ n, ∀ m ≥ n, ((Pump.turn reading)^[m] t.pump).Blocked) ↔ s.pump.ahead reading ≠ []) := by
  have locked := (run_orderly opened run).locked
  rw [← ahead_kept later locked closed whole]
  exact ⟨Pump.ends_iff t.pump, Pump.stuck_iff t.pump⟩

/-- The sample session behind its hello line. -/
def sampleOpening : Session :=
  start ⟨⟨[Utf8.bytes "\x7b\"ok\":true,\"tables\":[]\x7d"], .eof⟩, .running none none⟩

/-- A call of it has given up, and another one waits for the mutex. -/
def sampleAbandoned : Session :=
  { sampleOpening with
    wire := ⟨[⟨(Request.ofOp "tables").line, false⟩]⟩, closed := true, torn := true,
    callers := [⟨.tables, .ofOp "tables", true, .returned (.error (readFailed .context)), some 0, none⟩,
      ⟨.inspect, .ofOp "inspect", false, .called, none, none⟩] }

theorem abandoned_silences_sample :
    ∃ t, Run (Step sampleStrconv) sampleOpening
        [.invoked .tables, .invoked .inspect, .locked 0, .wrote 0 none, .cancelled 0, .expired 0] sampleAbandoned ∧
      Run (Step sampleStrconv) sampleAbandoned [.turned, .turned, .locked 1] t ∧
      ∀ (j : ℕ) (h : Caller) (result : Except GoError Reply), t.callers[j]? = some h →
        h.stage = .returned result → h.call ≠ .close →
        (∃ e, result = .error e ∧ Own e) ∨ ∃ h', sampleAbandoned.callers[j]? = some h' ∧ h'.took ≠ none := by
  have run : Run (Step sampleStrconv) sampleOpening
      [.invoked .tables, .invoked .inspect, .locked 0, .wrote 0 none, .cancelled 0, .expired 0] sampleAbandoned :=
    .cons rfl (.cons rfl (.cons rfl (.cons rfl (.cons rfl (.cons rfl (.nil _))))))
  obtain ⟨t, later⟩ : ∃ t, Run (Step sampleStrconv) sampleAbandoned [.turned, .turned, .locked 1] t :=
    ⟨_, .cons rfl (.cons rfl (.cons rfl (.nil _)))⟩
  exact ⟨t, run, later, abandoned_silences sampleStrconv sampleStrconv_lawful sampleLines [.turn, .turn, .look]
    ⟨1, [], []⟩ sampleOpening rfl _ _ _ t run later _ List.mem_cons_self _ rfl (Option.some_ne_none _) rfl⟩

/-- The server acknowledges the close: that line is left, and the goroutine is stuck. -/
theorem readLoop_ends_sample :
    ∃ s, Run (Step sampleStrconv) sampleOpening
        [.invoked .close, .locked 0, .turned, .wrote 0 none, .turned, .turned, .finished 0 none] s ∧
      ((∃ n, ((Pump.turn reading)^[n] s.pump).Ended) ↔ s.pump.ahead reading = []) ∧
      ((∃ n, ∀ m ≥ n, ((Pump.turn reading)^[m] s.pump).Blocked) ↔ s.pump.ahead reading ≠ []) := by
  obtain ⟨s, run, closed⟩ : ∃ s, Run (Step sampleStrconv) sampleOpening
      [.invoked .close, .locked 0, .turned, .wrote 0 none, .turned, .turned, .finished 0 none] s ∧
      s.closed = true :=
    ⟨_, .cons rfl (.cons rfl (.cons rfl (.cons rfl (.cons rfl (.cons rfl (.cons rfl (.nil _))))))), rfl⟩
  exact ⟨s, run, readLoop_ends_iff sampleStrconv sampleLines [.turn, .turn, .look] ⟨1, [], []⟩ sampleOpening rfl
    _ [] s s run closed (.nil s) fun _ => List.not_mem_nil⟩

end SanDbOxFormal.Go.Session
