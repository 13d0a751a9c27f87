import SanDbOxFormal.Go.Session
import SanDbOxFormal.Library.Conversation

/-!
# Requests and replies of the Go driver

A reply does not say which request it is for, and any goroutine may call, give up or close
the session at any time.  Whatever they do, the session and its server stay in step: a run of
a session is a conversation in which the requests and the replies are paired by their place.
-/

namespace SanDbOxFormal.Go

open SanDbOxFormal.Library
open SanDbOxFormal.Library.Runs
open SanDbOxFormal.Library.Turns (getElem?_set_cases getElem?_append_cases)
open SanDbOxFormal.Library.Segments (complete)

/-- The request that a caller waits for. -/
def Caller.pending (g : Caller) : Option (Conversation.Pending UInt8) :=
  if g.stage = .waiting then g.own.map fun own => ⟨own, g.req.content⟩ else none

theorem Caller.pending_eq_none {g : Caller} (stage : g.stage ≠ .waiting) : g.pending = none := if_neg stage

namespace Session

/-- The request that is waited for. -/
def pending (s : Session) : Option (Conversation.Pending UInt8) :=
  (s.mu.bind fun i => s.callers[i]?).bind Caller.pending

section Pending

variable {s t : Session} {i : ℕ} {g : Caller}

theorem pending_of_holder (locked : Locked s) (there : s.callers[i]? = some g) (holds : g.stage.holds = true) :
    s.pending = g.pending := by
  rw [pending, locked.holder i g there holds, Option.bind_some, there, Option.bind_some]

theorem pending_of_free (free : s.mu = none) : s.pending = none := by
  rw [pending, free]
  rfl

/-- Behind the closing nobody waits. -/
theorem pending_of_closed (locked : Locked s) (closed : s.closed = true) : s.pending = none := by
  rw [pending]
  cases s.mu with
  | none => rfl
  | some i =>
      cases there : s.callers[i]? with
      | none => rw [Option.bind_some, there, Option.bind_none]
      | some g =>
          rw [Option.bind_some, there, Option.bind_some]
          refine Caller.pending_eq_none fun stage => ?_
          cases (locked.live i g there (.inr stage)).symm.trans closed

theorem pending_put {g' : Caller} (there : s.callers[i]? = some g) : (s.put i g').pending = g'.pending := by
  have small : i < s.callers.length := (List.getElem?_eq_some_iff.mp there).1
  rw [pending, put]
  dsimp only
  split
  · rw [Option.bind_some, List.getElem?_set_self small, Option.bind_some]
  · rename_i none
    refine (Caller.pending_eq_none fun stage => none ?_).symm
    rw [stage]
    rfl

/-- Nobody else changes what is waited for. -/
theorem pending_set {g' : Caller} (there : s.callers[i]? = some g) (same : g'.pending = g.pending) :
    pending { s with callers := s.callers.set i g' } = s.pending := by
  have small : i < s.callers.length := (List.getElem?_eq_some_iff.mp there).1
  rw [pending, pending]
  dsimp only
  cases s.mu with
  | none => rfl
  | some j =>
      rw [Option.bind_some, Option.bind_some]
      by_cases own : i = j
      · subst own
        rw [List.getElem?_set_self small, there, Option.bind_some, Option.bind_some, same]
      · rw [List.getElem?_set_ne own]

theorem pending_call (stage : g.stage ≠ .waiting) : pending { s with callers := s.callers ++ [g] } = s.pending := by
  rw [pending, pending]
  dsimp only
  cases s.mu with
  | none => rfl
  | some j =>
      rw [Option.bind_some, Option.bind_some, List.getElem?_append]
      split
      · rfl
      · rename_i large
        rw [List.getElem?_eq_none (Nat.le_of_not_lt large)]
        cases at_end : [g][j - s.callers.length]? with
        | none => rfl
        | some h =>
            rw [List.mem_singleton.mp (List.mem_of_getElem? at_end)]
            exact Caller.pending_eq_none stage

end Pending

/-! ## The conversation -/

/-- The session and the conversation that it leads. -/
structure Matched (s : Session) (c : Conversation.State UInt8) : Prop where
  accepted : c.accepted = s.wire.accepted
  spoilt : s.wire.Spoilt → s.pending = none
  silent : c.shut = true → s.closed = true ∨ s.pump.ahead reading = [] ∨ s.wire.Spoilt
  ahead : c.shut = false → s.pump.ahead reading = c.ahead
  waiting : c.shut = false → c.waiting = s.pending

/-- What one step of a session does to the connection. -/
inductive Connects (s t : Session) : Option (Conversation.Delivery UInt8) → Prop where
  | quiet (sent : t.wire.accepted = s.wire.accepted) (spoilt : t.wire.Spoilt ↔ s.wire.Spoilt)
      (closed : t.closed = s.closed) (ahead : t.pump.ahead reading = s.pump.ahead reading)
      (pending : t.pending = s.pending) : Connects s t none
  /-- From here on nothing is received any more. -/
  | ends (grown : s.wire.accepted <+: t.wire.accepted) (idle : t.pending = none)
      (silent : t.closed = true ∨ t.pump.ahead reading = [] ∨ t.wire.Spoilt) : Connects s t none
  | sends {content : List UInt8} (clean : newline ∉ content) (idle : s.pending = none)
      (sent : t.wire.accepted = s.wire.accepted ++ (content ++ [newline])) (sound : ¬ s.wire.Spoilt)
      (spoilt : t.wire.Spoilt ↔ s.wire.Spoilt) (closed : t.closed = s.closed)
      (ahead : t.pump.ahead reading = s.pump.ahead reading)
      (pending : t.pending = some ⟨(complete newline s.wire.accepted).length, content⟩) : Connects s t none
  | takes {p : Conversation.Pending UInt8} {line : List UInt8} (live : s.closed = false)
      (waits : s.pending = some p) (sent : t.wire.accepted = s.wire.accepted)
      (ahead : s.pump.ahead reading = line :: t.pump.ahead reading) (pending : t.pending = none) :
      Connects s t (some ⟨p, line⟩)

/-- A step of a session is a run of the conversation. -/
theorem Connects.converse {s t : Session} {d : Option (Conversation.Delivery UInt8)}
    {c : Conversation.State UInt8} (connects : Connects s t d) (matched : Matched s c) :
    ∃ ds c', (∀ x, d = some x → some x ∈ ds) ∧ Run (Conversation.Step newline) c ds c' ∧ Matched t c' := by
  cases connects with
  | quiet sent spoilt closed ahead pending =>
      refine ⟨[], c, fun x none => (by cases none), .nil c, matched.accepted.trans sent.symm, ?_, ?_, ?_, ?_⟩
      · rw [spoilt, pending]
        exact matched.spoilt
      · rw [closed, ahead, spoilt]
        exact matched.silent
      · rw [ahead]
        exact matched.ahead
      · rw [pending]
        exact matched.waiting
  | ends grown idle silent =>
      refine ⟨[none, none], { c with shut := true, accepted := t.wire.accepted }, fun x none => (by cases none),
        .cons .shut (.single (.stray rfl rfl ?_)), rfl, fun _ => idle, fun _ => silent, ?_, ?_⟩
      · exact matched.accepted ▸ grown
      · rintro ⟨⟩
      · rintro ⟨⟩
  | @sends content clean idle sent sound spoilt closed ahead pending =>
      have both : c.accepted ++ (content ++ [newline]) = t.wire.accepted := by rw [sent, matched.accepted]
      by_cases shut : c.shut = true
      · refine ⟨[none], { c with accepted := t.wire.accepted }, fun x none => (by cases none),
          .single (.stray shut shut ⟨_, both⟩), rfl, fun cut => absurd (spoilt.mp cut) sound, fun _ => ?_,
          fun live => ?_, fun live => ?_⟩
        · rw [closed, ahead, spoilt]
          exact matched.silent shut
        · cases live.symm.trans shut
        · cases live.symm.trans shut
      · have usable := Bool.eq_false_iff.mpr shut
        refine ⟨[none], _, fun x none => (by cases none),
          .single (.send clean ((matched.waiting usable).trans idle)), both,
          fun cut => absurd (spoilt.mp cut) sound, fun ended => absurd ended shut, fun _ => ?_, fun _ => ?_⟩
        · exact ahead.trans (matched.ahead usable)
        · rw [pending, matched.accepted]
  | @takes p line live waits sent ahead pending =>
      have usable : c.shut = false := by
        refine Bool.eq_false_iff.mpr fun shut => ?_
        rcases matched.silent shut with ended | none | spoilt
        · cases live.symm.trans ended
        · cases none.symm.trans ahead
        · cases (matched.spoilt spoilt).symm.trans waits
      exact ⟨[some ⟨p, line⟩], _, fun x same => same ▸ List.mem_cons_self,
        .single (.take ((matched.waiting usable).trans waits) usable ((matched.ahead usable).symm.trans ahead)),
        matched.accepted.trans sent.symm, fun _ => pending, fun ended => (by cases usable.symm.trans ended),
        fun _ => rfl, fun _ => pending.symm⟩

/-! ## The callers -/

/-- An error of the driver, which is none that the server sent. -/
def Own (e : GoError) : Prop := ∀ code message, e ≠ .response code message

theorem own_wrap (before : GoString) (cause : GoError) : Own (.wrap before cause) := by
  intro code message same
  cases same

/-- Where a caller has got to that has received a line. -/
def Concluded (std : Strconv) (g : Caller) (line : List UInt8) : Prop :=
  g.stage = .returned (receive std (operation g.call) line) ∨
    g.call = .overwrite ∧ receive std .overwrite line = .ok .done ∧
      (g.stage = .succeeded ∨ g.stage = .closing ∨ ∃ outcome, g.stage = .returned outcome)

/-- What a caller has been through. -/
inductive Story (std : Strconv) (ds : List (Option (Conversation.Delivery UInt8))) (g : Caller) : Prop where
  | asks (built : g.call.request std = .ok g.req) (none : g.took = none)
      (stage : g.stage = .called ∨ g.stage = .entered)
  | waits {place : ℕ} (built : g.call.request std = .ok g.req) (none : g.took = none)
      (stage : g.stage = .waiting) (own : g.own = some place)
  | closes (is : g.call = .close) (none : g.took = none)
      (stage : g.stage = .leaving ∨ g.stage = .closing ∨ ∃ outcome, g.stage = .returned outcome)
  | answered {place : ℕ} {line : List UInt8} (own : g.own = some place) (took : g.took = some line)
      (delivered : some ⟨⟨place, g.req.content⟩, line⟩ ∈ ds) (concluded : Concluded std g line)
  | failed {e : GoError} (none : g.took = none) (stage : g.stage = .returned (.error e)) (own : Own e)

/-- The stories of all callers. -/
def Stories (std : Strconv) (s : Session) (ds : List (Option (Conversation.Delivery UInt8))) : Prop :=
  ∀ (i : ℕ) (g : Caller), s.callers[i]? = some g → Story std ds g

section Stories

variable {std : Strconv} {s t : Session} {ds ds' : List (Option (Conversation.Delivery UInt8))} {i : ℕ} {g : Caller}

theorem Story.more (story : Story std ds g) (more : ds ⊆ ds') : Story std ds' g := by
  cases story with
  | asks built none stage => exact .asks built none stage
  | waits built none stage own => exact .waits built none stage own
  | closes is none stage => exact .closes is none stage
  | answered own took delivered concluded => exact .answered own took (more delivered) concluded
  | failed none stage own => exact .failed none stage own

theorem Story.cancelled (story : Story std ds g) : Story std ds { g with done := true } := by
  cases story with
  | asks built none stage => exact .asks built none stage
  | waits built none stage own => exact .waits built none stage own
  | closes is none stage => exact .closes is none stage
  | answered own took delivered concluded => exact .answered own took delivered concluded
  | failed none stage own => exact .failed none stage own

theorem Stories.set (stories : Stories std s ds) {g' : Caller} (callers : t.callers = s.callers.set i g')
    (more : ds ⊆ ds') (story : Story std ds' g') : Stories std t ds' := by
  intro j h there
  rw [callers] at there
  rcases getElem?_set_cases there with ⟨_, rfl⟩ | ⟨_, there⟩
  · exact story
  · exact (stories j h there).more more

theorem Stories.call (stories : Stories std s ds) (callers : t.callers = s.callers ++ [g]) (more : ds ⊆ ds')
    (story : Story std ds' g) : Stories std t ds' := by
  intro j h there
  rw [callers] at there
  rcases getElem?_append_cases there with there | rfl
  · exact (stories j h there).more more
  · exact story

theorem Stories.same (stories : Stories std s ds) (callers : t.callers = s.callers) (more : ds ⊆ ds') :
    Stories std t ds' := by
  intro j h there
  rw [callers] at there
  exact (stories j h there).more more

end Stories

/-! ## Steps -/

section Steps

variable {std : Strconv} {s t : Session} {i : ℕ} {g : Caller}

theorem enter_connects (there : s.callers[i]? = some g) (free : s.mu = none) : Connects s (s.enter i g) none := by
  have idle := pending_of_free free
  unfold enter
  split
  · split
    · exact .quiet rfl .rfl rfl rfl ((pending_put there).trans idle.symm)
    · exact .ends List.prefix_rfl (pending_put there) (.inl rfl)
  · split
    · exact .quiet rfl .rfl rfl rfl ((pending_put there).trans idle.symm)
    · exact .quiet rfl .rfl rfl rfl ((pending_put there).trans idle.symm)

theorem write_connects {fault : Option (Fault Cause)} (locked : Locked s) (there : s.callers[i]? = some g)
    (stage : g.stage = .entered ∨ g.stage = .leaving) (clean : g.stage = .entered → newline ∉ g.req.content)
    (orderly : (s.write i g fault).wire.Orderly) : Connects s (s.write i g fault) none := by
  revert orderly
  rw [write]
  rcases wrote : s.wire.write fault g.req.line with ⟨result, wire⟩
  have sent := Wire.write_wrote wrote
  dsimp only
  split
  · rename_i leaving
    exact fun _ => .ends sent.grown (pending_put there) (.inl (locked.leaving i g there leaving))
  · rename_i call
    have entered := stage.resolve_right call
    have idle : s.pending = none := by
      rw [pending_of_holder locked there (by rw [entered]; rfl)]
      exact Caller.pending_eq_none (by rw [entered]; rintro ⟨⟩)
    cases sent with
    | through grown spoilt sound =>
        exact fun orderly => .sends (clean entered) idle grown (sound orderly) spoilt rfl rfl (pending_put there)
    | unsent same spoilt => exact fun _ => .quiet same spoilt rfl rfl ((pending_put there).trans idle.symm)
    | cut grown spoilt => exact fun _ => .ends grown (pending_put there) (.inr (.inr spoilt))

theorem answer_connects {pump : Pump Lines Cause (List UInt8)} {line : List UInt8} {place : ℕ} (locked : Locked s)
    (there : s.callers[i]? = some g) (stage : g.stage = .waiting) (own : g.own = some place)
    (took : s.pump.take? = some (.ok line, pump)) :
    Connects s (answer std { s with pump } i g line) (some ⟨⟨place, g.req.content⟩, line⟩) := by
  have live := locked.live i g there (.inr stage)
  have waits : s.pending = some ⟨place, g.req.content⟩ := by
    rw [pending_of_holder locked there (by rw [stage]; rfl), Caller.pending, if_pos stage, own]
    rfl
  cases Pump.take?_taken reading took with
  | line next =>
      unfold answer
      dsimp only
      split
      · exact .takes live waits rfl next (pending_put there)
      · exact .takes live waits rfl next (pending_put there)

theorem fail_connects {pump : Pump Lines Cause (List UInt8)} {cause : Cause} (there : s.callers[i]? = some g)
    (silent : g.done = true ∨ pump.ahead reading = []) : Connects s (fail { s with pump } i g cause) none := by
  unfold fail
  split
  · exact .ends List.prefix_rfl (pending_put there) (.inl rfl)
  · rename_i going
    exact .ends List.prefix_rfl (pending_put there) (.inr (.inl (silent.resolve_left going)))

/-- A request that is not made fails with an error of the driver. -/
theorem request_own {call : Call} {e : GoError} (failed : call.request std = .error e) : Own e := by
  have sql {op : String} {text : GoString} {params : List Any}
      (failed : sqlRequest std op text params = .error e) : Own e := by
    rw [sqlRequest] at failed
    cases encoded : encodeParams std params with
    | ok items =>
        rw [encoded] at failed
        cases failed
    | error cause =>
        rw [encoded] at failed
        cases failed
        exact own_wrap _ _
  cases call with
  | query text params => exact sql failed
  | exec text params => exact sql failed
  | _ => cases failed

theorem enter_story {ds : List (Option (Conversation.Delivery UInt8))} (built : g.call.request std = .ok g.req)
    (none : g.took = none) : ∃ g', (s.enter i g).callers = s.callers.set i g' ∧ Story std ds g' := by
  unfold enter
  split
  · rename_i is
    split
    · exact ⟨_, rfl, .closes is none (.inr (.inr ⟨_, rfl⟩))⟩
    · exact ⟨_, rfl, .closes is none (.inl rfl)⟩
  · split
    · exact ⟨_, rfl, .failed none rfl (own_wrap _ _)⟩
    · exact ⟨_, rfl, .asks built none (.inr rfl)⟩

theorem write_story {ds : List (Option (Conversation.Delivery UInt8))} {fault : Option (Fault Cause)}
    (story : Story std ds g) (stage : g.stage = .entered ∨ g.stage = .leaving) :
    ∃ g', (s.write i g fault).callers = s.callers.set i g' ∧ Story std ds g' := by
  unfold write
  dsimp only
  split
  · rename_i leaving
    refine ⟨_, rfl, ?_⟩
    cases story with
    | closes is none _ => exact .closes is none (.inr (.inl rfl))
    | asks built none at_ => rcases at_ with is | is <;> cases leaving.symm.trans is
    | waits built none is own => cases leaving.symm.trans is
    | answered own took delivered concluded =>
        rcases concluded with is | ⟨_, _, is | is | ⟨_, is⟩⟩ <;> cases leaving.symm.trans is
    | failed none is own => cases leaving.symm.trans is
  · rename_i call
    have entered := stage.resolve_right call
    have fresh : g.call.request std = .ok g.req ∧ g.took = none := by
      cases story with
      | asks built none _ => exact ⟨built, none⟩
      | waits built none is own => exact ⟨built, none⟩
      | closes _ _ at_ => rcases at_ with is | is | ⟨_, is⟩ <;> cases entered.symm.trans is
      | answered own took delivered concluded =>
          rcases concluded with is | ⟨_, _, is | is | ⟨_, is⟩⟩ <;> cases entered.symm.trans is
      | failed _ is _ => cases entered.symm.trans is
    split
    · exact ⟨_, rfl, .waits fresh.1 fresh.2 rfl rfl⟩
    · exact ⟨_, rfl, .failed fresh.2 rfl (own_wrap _ _)⟩

theorem answer_story {ds : List (Option (Conversation.Delivery UInt8))} {line : List UInt8} {place : ℕ}
    (own : g.own = some place) (delivered : some ⟨⟨place, g.req.content⟩, line⟩ ∈ ds) :
    ∃ g', (answer std s i g line).callers = s.callers.set i g' ∧ Story std ds g' := by
  unfold answer
  dsimp only
  split
  · rename_i success
    obtain ⟨is, outcome⟩ := success
    rw [is] at outcome
    exact ⟨_, rfl, .answered own rfl delivered (.inr ⟨is, outcome, .inl rfl⟩)⟩
  · exact ⟨_, rfl, .answered own rfl delivered (.inl rfl)⟩

theorem fail_story {ds : List (Option (Conversation.Delivery UInt8))} {cause : Cause} (none : g.took = none) :
    ∃ g', (fail s i g cause).callers = s.callers.set i g' ∧ Story std ds g' := by
  unfold fail
  split
  · exact ⟨_, rfl, .failed none rfl (own_wrap _ _)⟩
  · exact ⟨_, rfl, .failed none rfl (own_wrap _ _)⟩

end Steps

theorem Story.waiting {std : Strconv} {ds : List (Option (Conversation.Delivery UInt8))} {g : Caller}
    (story : Story std ds g) (stage : g.stage = .waiting) : g.took = none ∧ ∃ place, g.own = some place := by
  cases story with
  | waits built none _ own => exact ⟨none, _, own⟩
  | asks _ _ at_ => rcases at_ with is | is <;> cases stage.symm.trans is
  | closes _ _ at_ => rcases at_ with is | is | ⟨_, is⟩ <;> cases stage.symm.trans is
  | answered own took delivered concluded =>
      rcases concluded with is | ⟨_, _, is | is | ⟨_, is⟩⟩ <;> cases stage.symm.trans is
  | failed _ is _ => cases stage.symm.trans is

theorem Story.called {std : Strconv} {ds : List (Option (Conversation.Delivery UInt8))} {g : Caller}
    (story : Story std ds g) (stage : g.stage = .called ∨ g.stage = .entered) :
    g.call.request std = .ok g.req ∧ g.took = none := by
  cases story with
  | asks built none _ => exact ⟨built, none⟩
  | waits built none _ own => exact ⟨built, none⟩
  | closes _ _ at_ =>
      rcases stage with here | here <;> rcases at_ with is | is | ⟨_, is⟩ <;> cases here.symm.trans is
  | answered own took delivered concluded =>
      rcases stage with here | here <;>
        rcases concluded with is | ⟨_, _, is | is | ⟨_, is⟩⟩ <;> cases here.symm.trans is
  | failed _ is _ => rcases stage with here | here <;> cases here.symm.trans is

/-- The `Close` of the transport changes nothing of what a caller has received. -/
theorem Story.closed {std : Strconv} {ds : List (Option (Conversation.Delivery UInt8))} {g : Caller}
    (story : Story std ds g) (stage : g.stage = .succeeded ∨ g.stage = .closing) {next : Stage}
    (later : next = .closing ∨ ∃ outcome, next = .returned outcome) : Story std ds { g with stage := next } := by
  cases story with
  | asks _ _ at_ => rcases stage with here | here <;> rcases at_ with is | is <;> cases here.symm.trans is
  | waits _ _ is _ => rcases stage with here | here <;> cases here.symm.trans is
  | closes is none _ => exact .closes is none (.inr later)
  | answered own took delivered concluded =>
      refine .answered own took delivered ?_
      rcases concluded with is | ⟨call, outcome, _⟩
      · rcases stage with here | here <;> cases here.symm.trans is
      · exact .inr ⟨call, outcome, .inr later⟩
  | failed _ is _ => rcases stage with here | here <;> cases here.symm.trans is

/-- What a step does to the connection and to the callers. -/
theorem Happened.goes {std : Strconv} {s t : Session} {e : Event}
    {ds : List (Option (Conversation.Delivery UInt8))} (happened : Happened std s e t) (locked : Locked s)
    (stories : Stories std s ds)
    (clean : ∀ (i : ℕ) (g : Caller), s.callers[i]? = some g → g.stage = .entered → newline ∉ g.req.content) :
    ∃ d, (t.wire.Orderly → Connects s t d) ∧
      ∀ ds', ds ⊆ ds' → (∀ x, d = some x → some x ∈ ds') → Stories std t ds' := by
  cases happened with
  | refused failed =>
      refine ⟨none, fun _ => .quiet rfl .rfl rfl rfl (pending_call (by rintro ⟨⟩)), fun ds' more _ => ?_⟩
      exact stories.call rfl more (.failed rfl rfl (request_own failed))
  | invoked built =>
      refine ⟨none, fun _ => .quiet rfl .rfl rfl rfl (pending_call (by rintro ⟨⟩)), fun ds' more _ => ?_⟩
      exact stories.call rfl more (.asks built rfl (.inl rfl))
  | @cancelled i g there =>
      refine ⟨none, fun _ => .quiet rfl .rfl rfl rfl (pending_set there rfl), fun ds' more _ => ?_⟩
      exact stories.set rfl more ((stories i g there).more more).cancelled
  | turned => exact ⟨none, fun _ => .quiet rfl .rfl rfl (Pump.turn_ahead reading s.pump) rfl, fun ds' more _ => stories.same rfl more⟩
  | @locked i g there stage free =>
      obtain ⟨built, none⟩ := (stories i g there).called (.inl stage)
      refine ⟨.none, fun _ => enter_connects there free, fun ds' more _ => ?_⟩
      obtain ⟨g', callers, story⟩ := enter_story built none
      exact stories.set callers more story
  | @wrote i g fault there stage =>
      refine ⟨none, write_connects locked there stage (clean i g there), fun ds' more _ => ?_⟩
      obtain ⟨g', callers, story⟩ := write_story ((stories i g there).more more) stage
      exact stories.set callers more story
  | @line i g line pump there stage took =>
      obtain ⟨_, place, own⟩ := (stories i g there).waiting stage
      refine ⟨_, fun _ => answer_connects locked there stage own took, fun ds' more delivered => ?_⟩
      obtain ⟨g', callers, story⟩ := answer_story own (delivered _ rfl)
      exact stories.set callers more story
  | @ended i g cause pump there stage took =>
      obtain ⟨none, _⟩ := (stories i g there).waiting stage
      cases Pump.take?_taken reading took with
      | ended before spent =>
          refine ⟨.none, fun _ => fail_connects there (.inr spent), fun ds' more _ => ?_⟩
          obtain ⟨g', callers, story⟩ := fail_story none
          exact stories.set callers more story
  | @drained i g slot there stage spent =>
      obtain ⟨none, _⟩ := (stories i g there).waiting stage
      refine ⟨.none, fun _ => fail_connects there (.inr ?_), fun ds' more _ => ?_⟩
      · rw [Pump.ahead, spent]
      · obtain ⟨g', callers, story⟩ := fail_story none
        exact stories.set callers more story
  | @expired i g there stage done =>
      obtain ⟨none, _⟩ := (stories i g there).waiting stage
      refine ⟨.none, fun _ => fail_connects there (.inl done), fun ds' more _ => ?_⟩
      obtain ⟨g', callers, story⟩ := fail_story none
      exact stories.set callers more story
  | @relocked i g there stage free =>
      refine ⟨none, fun _ => .ends List.prefix_rfl (pending_put there) (.inl rfl), fun ds' more _ => stories.set rfl more ?_⟩
      exact ((stories i g there).more more).closed (.inl stage) (.inl rfl)
  | severed torn =>
      have closed := locked.torn torn
      have idle : s.pending = none := pending_of_closed locked closed
      exact ⟨none, fun _ => .ends List.prefix_rfl idle (.inl closed), fun ds' more _ => stories.same rfl more⟩
  | @finished i g failure there stage =>
      refine ⟨none, fun _ => .quiet rfl .rfl rfl rfl (pending_set there ?_), fun ds' more _ => stories.set rfl more ?_⟩
      · rw [Caller.pending_eq_none, Caller.pending_eq_none]
        · rw [stage]
          rintro ⟨⟩
        · rintro ⟨⟩
      · exact ((stories i g there).more more).closed (.inr stage) (.inr ⟨_, rfl⟩)

/-! ## Places -/

/-- Every caller with a place has one of its own among the requests on the wire. -/
abbrev Placed (s : Session) : Prop :=
  Turns.Placed Caller.own (fun i j p q => p = q → i = j) s.callers s.requests.length

section Placed

variable {std : Strconv} {s t : Session} {i : ℕ} {g : Caller}

theorem write_placed {fault : Option (Fault Cause)} (placed : Placed s) (there : s.callers[i]? = some g)
    (clean : g.stage ≠ .leaving → newline ∉ g.req.content) : Placed (s.write i g fault) := by
  unfold write
  rcases wrote : s.wire.write fault g.req.line with ⟨result, wire⟩
  have sent := Wire.write_wrote wrote
  have more : (complete newline s.wire.accepted).length ≤ (complete newline wire.accepted).length :=
    (Segments.complete_mono sent.grown).length_le
  dsimp only
  split
  · exact placed.set there more rfl
  · rename_i call
    cases sent with
    | through grown spoilt sound =>
        have longer : s.requests.length < (complete newline wire.accepted).length := by
          rw [grown]
          exact Segments.complete_longer (clean call) s.wire.accepted
        refine placed.next longer rfl (fun _ => rfl) fun j p h _ apart _ small => ⟨fun same => ?_, fun same => ?_⟩
        · exact absurd same small.ne
        · exact absurd same.symm small.ne
    | unsent same spoilt => exact placed.set there more rfl
    | cut grown spoilt => exact placed.set there more rfl

theorem Happened.places {e : Event} (happened : Happened std s e t) (placed : Placed s)
    (clean : ∀ (i : ℕ) (g : Caller), s.callers[i]? = some g → g.stage = .entered → newline ∉ g.req.content) :
    Placed t := by
  cases happened with
  | refused failed => exact placed.append rfl
  | invoked built => exact placed.append rfl
  | cancelled there => exact placed.set there le_rfl rfl
  | turned => exact placed
  | locked there stage free =>
      unfold enter
      split_ifs <;> exact placed.set there le_rfl rfl
  | @wrote i g fault there stage =>
      exact write_placed placed there fun call => clean i g there (stage.resolve_right call)
  | line there stage took =>
      unfold answer
      dsimp only
      split <;> exact placed.set there le_rfl rfl
  | ended there stage took =>
      unfold fail
      split <;> exact placed.set there le_rfl rfl
  | drained there stage spent =>
      unfold fail
      split <;> exact placed.set there le_rfl rfl
  | expired there stage done =>
      unfold fail
      split <;> exact placed.set there le_rfl rfl
  | relocked there stage free => exact placed.set there le_rfl rfl
  | severed torn => exact placed
  | finished there stage => exact placed.set there le_rfl rfl

end Placed

/-! ## Runs -/

/-- What holds of a session whatever becomes of its writes. -/
structure Kept (std : Strconv) (s : Session) : Prop where
  locked : Locked s
  placed : Placed s
  stories : ∃ ds, Stories std s ds

/-- What holds of a session and of the conversation behind it. -/
structure Paired (std : Strconv) (replies : List (List UInt8)) (s : Session) : Prop where
  locked : Locked s
  talk : ∃ ds c, Run (Conversation.Step newline) (Conversation.init replies) ds c ∧ Matched s c ∧ Stories std s ds

theorem locked_start (pump : Pump Lines Cause (List UInt8)) : Locked (start pump) := by
  refine ⟨?_, ?_, ?_, ?_⟩
  · rintro i g ⟨⟩
  · rintro i g ⟨⟩
  · rintro i g ⟨⟩
  · rintro ⟨⟩
theorem kept_start (std : Strconv) (pump : Pump Lines Cause (List UInt8)) : Kept std (start pump) := by
  refine ⟨locked_start pump, Turns.placed_nil, [], ?_⟩
  rintro i g ⟨⟩

theorem paired_start (std : Strconv) (pump : Pump Lines Cause (List UInt8)) :
    Paired std (pump.ahead reading) (start pump) := by
  refine ⟨locked_start pump, [], _, .nil _, ⟨rfl, fun _ => rfl, ?_, fun _ => rfl, fun _ => rfl⟩, ?_⟩
  · rintro ⟨⟩
  · rintro i g ⟨⟩

theorem Stories.clean {std : Strconv} (laws : std.Lawful) {s : Session}
    {ds : List (Option (Conversation.Delivery UInt8))} (stories : Stories std s ds) (i : ℕ) (g : Caller)
    (there : s.callers[i]? = some g) (stage : g.stage = .entered) : newline ∉ g.req.content :=
  (Call.request_reads laws.tokens ((stories i g there).called (.inr stage)).1).1

theorem Kept.step {std : Strconv} (laws : std.Lawful) {s t : Session} {e : Event} (kept : Kept std s)
    (step : Step std s e t) : Kept std t := by
  have happened := step_happened step
  obtain ⟨locked, placed, ds, stories⟩ := kept
  have clean := stories.clean laws
  obtain ⟨d, _, told⟩ := happened.goes locked stories clean
  refine ⟨happened.locks locked, happened.places placed clean, ds ++ [d], told _ ?_ fun x same => ?_⟩
  · exact List.subset_append_left ds [d]
  · exact List.mem_append_right ds (same ▸ List.mem_cons_self)

theorem Paired.step {std : Strconv} (laws : std.Lawful) {replies : List (List UInt8)} {s t : Session} {e : Event}
    (paired : Paired std replies s) (step : Step std s e t) (orderly : t.wire.Orderly) : Paired std replies t := by
  have happened := step_happened step
  obtain ⟨locked, ds, c, talk, matched, stories⟩ := paired
  obtain ⟨d, connects, told⟩ := happened.goes locked stories (stories.clean laws)
  obtain ⟨more, c', delivered, ran, matches'⟩ := (connects orderly).converse matched
  refine ⟨happened.locks locked, ds ++ more, c', talk.append ran, matches', told _ ?_ fun x same => ?_⟩
  · exact List.subset_append_left ds more
  · exact List.mem_append_right ds (delivered x same)

/-- A write is never taken back. -/
theorem Happened.orderly {std : Strconv} {s t : Session} {e : Event} (happened : Happened std s e t)
    (orderly : t.wire.Orderly) : s.wire.Orderly := by
  cases happened with
  | locked there stage free =>
      revert orderly
      unfold enter
      split_ifs <;> exact id
  | wrote there stage =>
      revert orderly
      unfold write
      dsimp only
      split
      · exact Wire.write_orderly
      · split <;> exact Wire.write_orderly
  | line there stage took =>
      revert orderly
      unfold answer
      dsimp only
      split <;> exact id
  | ended there stage took =>
      revert orderly
      unfold fail
      split <;> exact id
  | drained there stage spent =>
      revert orderly
      unfold fail
      split <;> exact id
  | expired there stage done =>
      revert orderly
      unfold fail
      split <;> exact id
  | refused failed => exact orderly
  | invoked built => exact orderly
  | cancelled there => exact orderly
  | turned => exact orderly
  | relocked there stage free => exact orderly
  | severed torn => exact orderly
  | finished there stage => exact orderly

/-- What a caller gets: the reply at the place of its own request, or an error that is the
driver's own. -/
def Answered (std : Strconv) (s : Session) (replies : List (List UInt8)) (g : Caller)
    (outcome : Except GoError Reply) : Prop :=
  (∃ (place : ℕ) (line : List UInt8), g.own = some place ∧ s.requests[place]? = some g.req.content ∧
    replies[place]? = some line ∧
    (outcome = receive std (operation g.call) line ∨
      g.call = .overwrite ∧ receive std .overwrite line = .ok .done)) ∨
  ∃ e, outcome = .error e ∧ Own e

theorem newSession_opened {lines : Lines} {moments : List Pump.Moment} {hello : Hello} {s : Session}
    (opened : newSession lines moments = some (.ok hello, s)) :
    s = start s.pump ∧ ∃ line, lines.rest = line :: s.pump.ahead reading ∧ decodeHello line = .ok hello ∧
      hello.protocol = 1 := by
  unfold newSession at opened
  cases waited : (Pump.start lines).wait reading givenUp moments with
  | none =>
      rw [waited] at opened
      cases opened
  | some outcome =>
      obtain ⟨item, pump⟩ := outcome
      rw [waited] at opened
      dsimp only at opened
      generalize checked : checkHello (item.bind id) = result at opened
      cases result with
      | error e => cases opened
      | ok found =>
          cases opened
          refine ⟨rfl, ?_⟩
          generalize read : item.bind id = line at checked
          cases line with
          | error cause => cases checked
          | ok line =>
              obtain ⟨hello', decoded, checked⟩ := bind_ok_iff.mp checked
              split at checked
              · rename_i protocol
                cases checked
                refine ⟨line, ?_, mapError_ok_iff.mp decoded, protocol⟩
                cases Pump.wait_waited waited with
                | @taken item p' taken =>
                    cases taken with
                    | line next =>
                        cases read
                        exact next
                    | ended none spent => cases read
                | lost broken taken => cases read
                | left broken early inside kept => cases read
              · cases checked

section Opened

variable {std : Strconv} {lines : Lines} {moments : List Pump.Moment} {hello : Hello} {opening : Session}

/-- What a run of an opened session keeps. -/
theorem run_kept (laws : std.Lawful) (opened : newSession lines moments = some (.ok hello, opening))
    {events : List Event} {s : Session} (run : Run (Step std) opening events s) : Kept std s := by
  refine run.invariant (fun _ _ _ kept step => kept.step laws step) ?_
  rw [(newSession_opened opened).1]
  exact kept_start std opening.pump

theorem run_paired (laws : std.Lawful) (opened : newSession lines moments = some (.ok hello, opening))
    {events : List Event} {s : Session} (run : Run (Step std) opening events s) (orderly : s.wire.Orderly) :
    Paired std lines.rest.tail s := by
  obtain ⟨fresh, line, first, _⟩ := newSession_opened opened
  have kept := (run.restrict (P := fun s => s.wire.Orderly)
    (fun _ _ _ step => (step_happened step).orderly) orderly).1
  refine kept.invariant (fun _ _ _ paired step => paired.step laws step.1 step.2) ?_
  rw [first, List.tail_cons, fresh]
  exact paired_start std opening.pump

end Opened

/-- However goroutines call a session, give up, and close it, whatever the server sends and when, and
whatever part of a line a write leaves behind that fails: no two calls have one place; and where no
write goes through behind one that has left a part of its line, a call that has returned was answered
by the reply at the place of its own request, which is on the wire at that place, or failed with an
error of the driver. -/
theorem calls_answered (std : Strconv) (laws : std.Lawful) (lines : Lines) (moments : List Pump.Moment)
    (hello : Hello) (opening : Session) (opened : newSession lines moments = some (.ok hello, opening))
    (events : List Event) (s : Session) (run : Run (Step std) opening events s) :
    (s.wire.Orderly → ∀ g ∈ s.callers, ∀ outcome, g.stage = .returned outcome → g.call ≠ .close →
      Answered std s lines.rest.tail g outcome) ∧
    ∀ (i j : ℕ) (g h : Caller) (place : ℕ), s.callers[i]? = some g → s.callers[j]? = some h →
      g.own = some place → h.own = some place → i = j := by
  constructor
  · intro orderly g inside outcome returned call
    obtain ⟨locked, ds, c, talk, matched, stories⟩ := run_paired laws opened run orderly
    obtain ⟨i, there⟩ := List.mem_iff_getElem?.mp inside
    cases stories i g there with
    | asks _ _ stage => rcases stage with is | is <;> cases returned.symm.trans is
    | waits _ _ is _ => cases returned.symm.trans is
    | closes is _ _ => exact absurd is call
    | failed _ is own =>
        cases returned.symm.trans is
        exact .inr ⟨_, rfl, own⟩
    | @answered place line own took delivered concluded =>
        obtain ⟨sent, reply⟩ := Conversation.run_paired talk _ delivered
        rw [matched.accepted] at sent
        refine .inl ⟨place, line, own, sent, reply, ?_⟩
        rcases concluded with is | ⟨is, success, _⟩
        · cases returned.symm.trans is
          exact .inl rfl
        · exact .inr ⟨is, success⟩
  · intro i j g h place there there' own own'
    exact (run_kept laws opened run).placed.agrees i j g h place place there there' own own' rfl

def sampleLines : Lines :=
  ⟨[Utf8.bytes "\x7b\"protocol\":1\x7d", Utf8.bytes "\x7b\"ok\":true,\"tables\":[]\x7d"], .eof⟩

/-- One caller is answered while another waits for the mutex and gives up. -/
theorem calls_answered_sample :
    ∃ opening s, newSession sampleLines [.turn, .turn, .look] = some (.ok ⟨1, [], []⟩, opening) ∧
      Run (Step sampleStrconv) opening [.invoked .tables, .invoked .inspect, .locked 1, .wrote 1 none, .turned,
        .cancelled 0, .turned, .received 1] s ∧
      (∀ g ∈ s.callers, ∀ outcome, g.stage = .returned outcome → g.call ≠ .close →
        Answered sampleStrconv s sampleLines.rest.tail g outcome) ∧
      ∀ (i j : ℕ) (g h : Caller) (place : ℕ), s.callers[i]? = some g → s.callers[j]? = some h →
        g.own = some place → h.own = some place → i = j := by
  have opened : newSession sampleLines [.turn, .turn, .look] = some (.ok ⟨1, [], []⟩,
      start ⟨⟨[Utf8.bytes "\x7b\"ok\":true,\"tables\":[]\x7d"], .eof⟩, .running none none⟩) := by
    rfl
  obtain ⟨s, run, orderly⟩ : ∃ s, Run (Step sampleStrconv)
      (start ⟨⟨[Utf8.bytes "\x7b\"ok\":true,\"tables\":[]\x7d"], .eof⟩, .running none none⟩)
      [.invoked .tables, .invoked .inspect, .locked 1, .wrote 1 none, .turned, .cancelled 0, .turned,
        .received 1] s ∧ s.wire.Orderly :=
    ⟨_, .cons rfl (.cons rfl (.cons rfl (.cons rfl (.cons rfl (.cons rfl (.cons rfl (.cons rfl (.nil _)))))))),
      List.pairwise_singleton _ _⟩
  obtain ⟨answered, apart⟩ := calls_answered sampleStrconv sampleStrconv_lawful _ _ _ _ opened _ _ run
  exact ⟨_, s, opened, run, answered orderly, apart⟩

end Session

end SanDbOxFormal.Go
