import SanDbOxFormal.TypeScript.Pairing

/-!
# No call is stuck

The first call that has not settled can always go on by itself, whatever became of those in front
of it, unless it waits for its line; and then its timer, its signal and the end of the source each
bring it to an end.
-/

namespace SanDbOxFormal.TypeScript

open SanDbOxFormal.Library
open SanDbOxFormal.Library.Runs
open SanDbOxFormal.Library.Turns

namespace Session

/-- How far a call has got. -/
def Stage.rank : Stage → ℕ
  | .queued => 0
  | .writing => 1
  | .wrote => 2
  | .reading _ => 3
  | .settled _ => 4

/-- The steps of a call itself. -/
def Event.drives (i : ℕ) : Event → Prop
  | .started j | .read j | .resumed j => j = i
  | .flushed _ => True
  | _ => False

/-- A step that takes a call further. -/
def Advances (rt : Runtime) (std : NumberText) (s : Session) (i : ℕ) (g : Caller) : Prop :=
  ∃ e t g', e.drives i ∧ Step rt std s e t ∧ t.calls[i]? = some g' ∧ g.stage.rank < g'.stage.rank

/-- The events that end a wait for a line. -/
inductive Wakes (i : ℕ) (g : Caller) : Event → Prop where
  | expired (timed : g.timed = true) : Wakes i g (.expired i)
  | aborted {reason : JsError} (live : g.signal = some none) : Wakes i g (.aborted i reason)
  | ended : Wakes i g (.source .ended)
  | failed {message : JsString} : Wakes i g (.source (.failed message))
  | unstarted {message : JsString} : Wakes i g (.source (.unstarted message))

/-- A call that waits for its line, and every end of the wait settles it. -/
def Awaits (rt : Runtime) (std : NumberText) (s : Session) (i : ℕ) (g : Caller) : Prop :=
  ∃ id, g.stage = .reading id ∧ s.reads.reader.waiters = [id] ∧ ∀ e, Wakes i g e →
    ∃ t u g', Step rt std s e t ∧ Step rt std t (.resumed i) u ∧ u.calls[i]? = some g' ∧ g'.isSettled = true

/-! ## Timers and listeners -/

/-- The read that waits has its timer and its listener. -/
def Armed (s : Session) : Prop :=
  ∀ (i : ℕ) (g : Caller) (id : ℕ), s.calls[i]? = some g → g.stage = .reading id → id ∈ s.reads.reader.waiters →
    (g.timed = true → id ∈ s.reads.timers) ∧ (g.signal.isSome = true → id ∈ s.reads.listeners)

section Armed

variable {rt : Runtime} {std : NumberText} {s t : Session} {i : ℕ} {g : Caller}

theorem Armed.same (armed : Armed s) (calls : t.calls = s.calls) (reads : t.reads = s.reads) : Armed t := by
  intro j h id after reading inside
  rw [calls] at after
  rw [reads] at inside ⊢
  exact armed j h id after reading inside

theorem Armed.set (armed : Armed s) {g' : Caller} (calls : t.calls = s.calls.set i g') (reads : t.reads = s.reads)
    (still : ∀ id, g'.stage = .reading id → id ∈ s.reads.reader.waiters →
      (g'.timed = true → id ∈ s.reads.timers) ∧ (g'.signal.isSome = true → id ∈ s.reads.listeners)) : Armed t := by
  intro j h id after reading inside
  rw [calls] at after
  rw [reads] at inside ⊢
  rcases getElem?_set_cases after with ⟨_, rfl⟩ | ⟨_, before⟩
  · exact still id reading inside
  · exact armed j h id before reading inside

theorem Armed.turn (armed : Armed s) (orderly : Orderly s) {event : Reads.Event} (other : Reads.isRead event = false) :
    Armed { s with reads := s.reads.step event } := by
  obtain ⟨o, turned⟩ := Reads.step_turned orderly.sound orderly.single other
  intro j h id there reading inside
  cases turned with
  | quiet waiters settled timers listeners =>
      rw [waiters] at inside
      rw [timers, listeners]
      exact armed j h id there reading inside
  | settles waits idle settled why =>
      rw [idle] at inside
      cases inside

theorem Armed.step {e : Event} (armed : Armed s) (orderly : Orderly s) (happened : Happened rt std s e t) : Armed t := by
  cases happened with
  | @issued req timed signal =>
      intro j h id after reading inside
      rcases getElem?_append_cases after with before | rfl
      · exact armed j h id before reading inside
      · exact absurd reading ((Caller.issue_fresh std req timed signal).2.2.2 id)
  | @started i g there stage turn =>
      unfold callNow
      split
      · exact armed.set rfl rfl fun id reading => (by cases reading)
      · split
        · exact armed.set rfl rfl fun id reading => (by cases reading)
        · exact armed.set rfl rfl fun id reading => (by cases reading)
  | flushed first =>
      unfold flush
      dsimp only
      split
      · exact armed.same rfl rfl
      · split
        · exact armed.set rfl rfl fun id reading => (by cases reading)
        · exact armed.set rfl rfl fun id reading => (by cases reading)
  | @read i g there stage =>
      intro j h id after reading inside
      cases Reads.readLine_begun (orderly.idle there (.inr stage)) g.timed g.signal with
      | waits running settled timer listener =>
          have same : id = s.reads.calls := by
            rw [show (Session.put _ i _).reads = s.reads.readLine g.timed g.signal from rfl, running] at inside
            exact List.mem_singleton.mp inside
          subst same
          rcases getElem?_set_cases after with ⟨_, rfl⟩ | ⟨_, before⟩
          · exact ⟨timer, listener⟩
          · exact absurd (orderly.early j h _ before reading) (lt_irrefl _)
      | line queued idle settled => cases idle ▸ inside
      | ended idle settled terminal queue => cases idle ▸ inside
      | aborted reason idle settled => cases idle ▸ inside
  | @resumed i g read outcome there stage settled =>
      obtain ⟨closed, result, _, same⟩ := resume_cases rt s i g outcome
      rw [same]
      exact armed.set rfl rfl fun id reading => (by cases reading)
  | @aborted i g reason there live =>
      have middle : Armed (s.put i { g with signal := some (some reason) }) :=
        armed.set rfl rfl fun id reading inside =>
          ⟨(armed i g id there reading inside).1, fun _ => (armed i g id there reading inside).2 (live ▸ rfl)⟩
      unfold abort
      split
      · exact middle.turn (signal_orderly orderly there _) rfl
      · exact middle
  | expired there stage => exact armed.turn orderly rfl
  | source => exact armed.turn orderly (Source.other _)
  | closes =>
      unfold close
      split <;> exact armed.same rfl rfl

end Armed

/-! ## Going on -/

section Advances

variable {rt : Runtime} {std : NumberText} {s t : Session} {i : ℕ} {g : Caller}

/-- A call whose read has been settled goes on to its end. -/
theorem resumes (sound : s.reads.Sound) (there : s.calls[i]? = some g) {id : ℕ} {outcome : Except JsError (List UInt8)}
    (stage : g.stage = .reading id) (settled : (id, outcome) ∈ s.reads.settled) :
    ∃ t g', Step rt std s (.resumed i) t ∧ t.calls[i]? = some g' ∧ g'.isSettled = true ∧ g'.stage.rank = 4 := by
  have small := (List.getElem?_eq_some_iff.mp there).1
  have found := (outcome?_eq_some_iff sound).mpr settled
  obtain ⟨closed, result, _, same⟩ := resume_cases rt s i g outcome
  refine ⟨s.resume rt i g outcome, { g with stage := .settled result }, ?_, ?_, rfl, rfl⟩
  · refine Option.bind_eq_some_iff.mpr ⟨g, there, ?_⟩
    rw [stage]
    exact Option.map_eq_some_iff.mpr ⟨outcome, found, rfl⟩
  · rw [same]
    exact List.getElem?_set_self small

theorem reading_settled (orderly : Orderly s) (there : s.calls[i]? = some g) {id : ℕ} (stage : g.stage = .reading id)
    (gone : id ∉ s.reads.reader.waiters) : ∃ outcome, (id, outcome) ∈ s.reads.settled := by
  have early := List.mem_range.mpr (orderly.early i g id there stage)
  rcases List.mem_append.mp (orderly.sound.once.mem_iff.mpr early) with inside | waits
  · obtain ⟨o, member, rfl⟩ := List.mem_map.mp inside
    exact ⟨o.2, member⟩
  · exact absurd waits gone

/-- The end of the source settles the read that waits. -/
theorem ended_settles {reads : Reads} (sound : reads.Sound) {id : ℕ} (waits : reads.reader.waiters = [id]) (err : JsError) :
    ∃ outcome, (id, outcome) ∈ (reads.terminate err).settled := by
  have running : reads.reader.terminal = none := by
    refine Option.eq_none_iff_forall_ne_some.mpr fun e ended => ?_
    cases waits.symm.trans (sound.ended (ended ▸ rfl))
  obtain ⟨e, ended⟩ := Option.isSome_iff_exists.mp (Reads.terminate_flow sound err).2
  have stops : (reads.step (.fail err)).reader.terminal = some e := ended
  obtain ⟨out, rejects⟩ := Reads.step_rejects sound running stops
  have inside : id ∈ out.map Prod.fst := by
    rw [rejects.all, waits]
    exact List.mem_cons_self
  obtain ⟨o, member, rfl⟩ := List.mem_map.mp inside
  exact ⟨o.2, rejects.settled ▸ List.mem_append_right _ member⟩

theorem awaits (orderly : Orderly s) (armed : Armed s) (there : s.calls[i]? = some g) {id : ℕ}
    (stage : g.stage = .reading id) (inside : id ∈ s.reads.reader.waiters) : Awaits rt std s i g := by
  have waits := orderly.waits_of_mem inside
  have small := (List.getElem?_eq_some_iff.mp there).1
  obtain ⟨timer, listener⟩ := armed i g id there stage inside
  refine ⟨id, stage, waits, fun e wakes => ?_⟩
  have woken {e : Event} {t : Session} {g' : Caller} {outcome : Except JsError (List UInt8)} (step : Step rt std s e t)
      (orderly : Orderly t) (there : t.calls[i]? = some g') (stage : g'.stage = .reading id)
      (settled : (id, outcome) ∈ t.reads.settled) :
      ∃ t u g', Step rt std s e t ∧ Step rt std t (.resumed i) u ∧ u.calls[i]? = some g' ∧ g'.isSettled = true := by
    obtain ⟨u, g'', resumed, at_, done, _⟩ := resumes orderly.sound there stage settled
    exact ⟨t, u, g'', step, resumed, at_, done⟩
  have source (e : Source) (err : JsError) (ends : s.reads.step e.event = s.reads.terminate err) :
      ∃ t u g', Step rt std s (.source e) t ∧ Step rt std t (.resumed i) u ∧ u.calls[i]? = some g' ∧
        g'.isSettled = true := by
    obtain ⟨outcome, settled⟩ := ended_settles orderly.sound waits err
    have step : Step rt std s (.source e) { s with reads := s.reads.step e.event } := rfl
    exact woken step (orderly.step (step_happened step)) there stage (ends.symm ▸ settled)
  cases wakes with
  | expired timed =>
      have step : Step rt std s (.expired i) { s with reads := s.reads.step (.timer id) } := by
        refine Option.bind_eq_some_iff.mpr ⟨g, there, ?_⟩
        rw [stage]
      have settled : (id, .error Reads.timedOut) ∈ (s.reads.step (.timer id)).settled := by
        rw [Reads.step, if_pos (timer timed)]
        exact List.mem_append_right _ List.mem_cons_self
      exact woken step (orderly.step (step_happened step)) there stage settled
  | @aborted reason live =>
      have step : Step rt std s (.aborted i reason) ((s.put i { g with signal := some (some reason) }).abort g reason) := by
        refine Option.bind_eq_some_iff.mpr ⟨g, there, ?_⟩
        rw [live]
      have next := orderly.step (step_happened step)
      have turned : (s.put i { g with signal := some (some reason) }).abort g reason =
          { s.put i { g with signal := some (some reason) } with reads := s.reads.step (.abort id reason) } := by
        rw [abort, stage]
        rfl
      rw [turned] at step next
      have settled : (id, .error reason) ∈ (s.reads.step (.abort id reason)).settled := by
        rw [Reads.step, if_pos (listener (live ▸ rfl))]
        exact List.mem_append_right _ List.mem_cons_self
      exact woken step next (List.getElem?_set_self small) stage settled
  | ended => exact source .ended Reads.eof rfl
  | @failed message => exact source (.failed message) (.other message) rfl
  | @unstarted message => exact source (.unstarted message) (.sanDBox message) rfl

theorem callNow_rank (small : i < s.calls.length) (stage : g.stage = .queued) :
    ∃ g', (s.callNow i g).calls[i]? = some g' ∧ g.stage.rank < g'.stage.rank := by
  have low : g.stage.rank = 0 := by rw [stage, Stage.rank]
  rw [low, callNow]
  split
  · exact ⟨_, List.getElem?_set_self small, Nat.zero_lt_succ 3⟩
  · split
    · exact ⟨_, List.getElem?_set_self small, Nat.zero_lt_succ 3⟩
    · exact ⟨_, List.getElem?_set_self small, Nat.zero_lt_succ 0⟩

theorem flush_rank (there : s.calls[i]? = some g) (stage : g.stage = .writing) (fault : Option JsString)
    (line : List UInt8) (rest : List (Option ℕ × List UInt8)) :
    ∃ g', (s.flush fault (some i) line rest).calls[i]? = some g' ∧ g.stage.rank < g'.stage.rank := by
  have small := (List.getElem?_eq_some_iff.mp there).1
  have low : g.stage.rank = 1 := by rw [stage, Stage.rank]
  unfold flush
  dsimp only
  rw [low, Option.bind_some, there, Option.map_some]
  dsimp only
  split
  · exact ⟨_, List.getElem?_set_self small, Nat.lt_succ_self 1⟩
  · exact ⟨_, List.getElem?_set_self small, Nat.succ_lt_succ (Nat.zero_lt_succ 2)⟩

/-- Whatever became of the calls in front of it, the first call that has not settled goes on, or waits for its
line, which its timer, its signal and the end of the source each put an end to. -/
theorem first_call_goes_on (rt : Runtime) (std : NumberText) (shown : JsString → JsString) (before : List Opening)
    (hello : Hello) (opening : Session) (opened : Session.opened rt shown before = some (.ok hello, opening))
    (events : List Event) (s : Session) (run : Run (Step rt std) opening events s) (i : ℕ) (g : Caller)
    (there : s.calls[i]? = some g) (first : (s.calls.take i).all Caller.isSettled = true) :
    g.isSettled = true ∨ Advances rt std s i g ∨ Awaits rt std s i g := by
  have both : Orderly s ∧ Armed s := by
    refine run.invariant (P := fun s => Orderly s ∧ Armed s) (fun _ _ _ both step => ?_) ?_
    · have happened := step_happened step
      exact ⟨both.1.step happened, both.2.step both.1 happened⟩
    · obtain ⟨rfl, idle, _⟩ := opened_ok opened
      refine ⟨start_orderly (Reads.run_sound Reads.start_sound _) (opening_run before) idle, ?_⟩
      rintro i g id ⟨⟩
  obtain ⟨orderly, armed⟩ := both
  have small := (List.getElem?_eq_some_iff.mp there).1
  rcases stage : g.stage with _ | _ | _ | id | outcome
  · obtain ⟨g', after, more⟩ := callNow_rank small stage
    refine .inr (.inl ⟨.started i, s.callNow i g, g', rfl, ?_, after, more⟩)
    refine Option.bind_eq_some_iff.mpr ⟨g, there, ?_⟩
    rw [stage]
    exact if_pos first
  · obtain ⟨rest, head, _⟩ := orderly.writing there stage
    obtain ⟨g', after, more⟩ := flush_rank there stage none (encodeRequestLine g.record) rest
    refine .inr (.inl ⟨.flushed none, _, g', trivial, ?_, after, more⟩)
    rw [Step, step, head]
  · let g' : Caller := { g with stage := .reading s.reads.calls }
    let t : Session := { s with reads := s.reads.readLine g.timed g.signal }.put i g'
    have after : t.calls[i]? = some g' := List.getElem?_set_self small
    refine .inr (.inl ⟨.read i, t, g', rfl, ?_, after, ?_⟩)
    · refine Option.bind_eq_some_iff.mpr ⟨g, there, ?_⟩
      rw [stage]
    · rw [stage]
      exact Nat.lt_succ_self 2
  · by_cases waits : id ∈ s.reads.reader.waiters
    · exact .inr (.inr (awaits orderly armed there stage waits))
    · obtain ⟨outcome, settled⟩ := reading_settled orderly there stage waits
      obtain ⟨t, g', resumed, at_, _, rank⟩ := resumes orderly.sound there stage settled
      refine .inr (.inl ⟨.resumed i, t, g', rfl, resumed, at_, ?_⟩)
      rw [rank, stage]
      exact Nat.lt_succ_self 3
  · refine .inl ?_
    rw [Caller.isSettled, stage]

end Advances

/-- A call with a timer and a signal has been written, and its line is not there yet. -/
theorem first_call_goes_on_sample :
    ∃ s g, Run (Step sampleHost sampleNumberText) (start sampleReads)
        [.issued .tables true (some none), .issued .inspect true none, .started 0, .flushed none, .read 0] s ∧
      s.calls[0]? = some g ∧
      (g.isSettled = true ∨ Advances sampleHost sampleNumberText s 0 g ∨ Awaits sampleHost sampleNumberText s 0 g) := by
  obtain ⟨s, g, run, there⟩ : ∃ s g, Run (Step sampleHost sampleNumberText) (start sampleReads)
      [.issued .tables true (some none), .issued .inspect true none, .started 0, .flushed none, .read 0] s ∧
      s.calls[0]? = some g :=
    ⟨_, _, .cons rfl (.cons rfl (.cons rfl (.cons rfl (.cons rfl (.nil _))))), rfl⟩
  exact ⟨s, g, run, there, first_call_goes_on sampleHost sampleNumberText id sampleBefore sampleHello _
    (sample_opened id) _ s run 0 g there rfl⟩

end Session

end SanDbOxFormal.TypeScript
