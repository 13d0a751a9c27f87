import SanDbOxFormal.Library.Conversation
import SanDbOxFormal.TypeScript.OneCall

/-!
# What a session says on the wire

Each callback of a session as what it does to the connection: a request is sent, a line is taken, the
lines are at their end for all calls, or nothing.  The line that `close` writes without waiting for its turn
is no part of the conversation.
-/

namespace SanDbOxFormal.TypeScript

open SanDbOxFormal.Library
open SanDbOxFormal.Library.Runs
open SanDbOxFormal.Library.Segments (complete)
open SanDbOxFormal.Library.Turns

namespace Session

/-! ## The conversation -/

/-- The request of a call that waits for its line; `waiters` are the reads that wait. -/
def Caller.due (waiters : List ℕ) (g : Caller) : Option (Conversation.Pending UInt8) :=
  match g.stage with
  | .wrote => g.own.map fun own => ⟨own, content g.record⟩
  | .reading id => if id ∈ waiters then g.own.map fun own => ⟨own, content g.record⟩ else none
  | _ => none

/-- The request that is waited for. -/
def Due (s : Session) (p : Conversation.Pending UInt8) : Prop :=
  ∃ (i : ℕ) (g : Caller), s.calls[i]? = some g ∧ g.due s.reads.reader.waiters = some p

/-- What the calls have put on the wire; the line of `close` may stand behind it. -/
def Wire (s : Session) (accepted : List UInt8) : Prop :=
  s.outlet.accepted = accepted ∨
    s.closing = true ∧ s.outbox = [] ∧ s.outlet.accepted = accepted ++ closeLine

/-- The error of its read makes the call close the session. -/
def Caller.Quits (g : Caller) (e : JsError) : Prop :=
  (∃ message, e = .timeout message) ∨ ∃ reason, g.signal = some (some reason)

/-- No call gets a line any more. -/
inductive Over (s : Session) : Prop where
  | dead (dead : s.reads.Dead) : Over s
  | closed (idle : s.reads.reader.waiters = [])
      (none : ∀ (i : ℕ) (g : Caller), s.calls[i]? = some g → g.stage ≠ .writing ∧ g.stage ≠ .wrote)
      (closed : s.closed = true) : Over s
  /-- The one active call has given up, and will close the session. -/
  | doomed {i id : ℕ} {g : Caller} {e : JsError} (idle : s.reads.reader.waiters = []) (there : s.calls[i]? = some g)
      (stage : g.stage = .reading id) (failed : (id, .error e) ∈ s.reads.settled) (quits : g.Quits e) : Over s

/-- The lines that were handed out. -/
def handed (s : Session) : List (List UInt8) := LineReader.lines s.reads.settled

/-- The session and the conversation that it leads; `all` are the lines that its reader will have
passed on or queued. -/
structure Matched (all : List (List UInt8)) (s : Session) (c : Conversation.State UInt8) : Prop where
  wire : Wire s c.accepted
  silent : c.shut = true → Over s
  ahead : c.shut = false → c.ahead = all.drop s.handed.length
  waiting : c.shut = false → ∀ p, c.waiting = some p ↔ Due s p

/-- What one step of a session does to the connection. -/
inductive Connects (s t : Session) : Option (Conversation.Delivery UInt8) → Prop where
  | quiet (wire : ∀ accepted, Wire s accepted → Wire t accepted) (handed : t.handed = s.handed)
      (due : ∀ p, Due t p ↔ Due s p) (silent : Over s → Over t) : Connects s t none
  /-- From here on no call gets a line any more. -/
  | ends (wire : ∀ accepted, Wire s accepted → Wire t accepted) (silent : Over t) : Connects s t none
  | sends {content : List UInt8} (clean : lf ∉ content) (idle : ∀ p, ¬ Due s p)
      (wire : ∀ accepted, Wire s accepted → Wire t (accepted ++ (content ++ [lf]))) (handed : t.handed = s.handed)
      (due : ∀ accepted, Wire s accepted → ∀ p, Due t p ↔ p = ⟨(complete lf accepted).length, content⟩)
      (silent : Over s → Over t) : Connects s t none
  | takes {p : Conversation.Pending UInt8} {line : List UInt8} (live : ¬ Over s)
      (wire : ∀ accepted, Wire s accepted → Wire t accepted) (handed : t.handed = s.handed ++ [line])
      (waits : Due s p) (due : ∀ q, ¬ Due t q) : Connects s t (some ⟨p, line⟩)

/-- A step of a session is a run of the conversation. -/
theorem Connects.converse {all : List (List UInt8)} {s t : Session} {d : Option (Conversation.Delivery UInt8)}
    {c : Conversation.State UInt8} (connects : Connects s t d) (matched : Matched all s c)
    (within : t.reads.flow <+: all) :
    ∃ ds c', (∀ x, d = some x → some x ∈ ds) ∧ Run (Conversation.Step lf) c ds c' ∧ Matched all t c' := by
  cases connects with
  | quiet wire handed due silent =>
      refine ⟨[], c, fun x none => (by cases none), .nil c, wire _ matched.wire, fun shut => silent (matched.silent shut),
        ?_, fun live p => (matched.waiting live p).trans (due p).symm⟩
      rw [handed]
      exact matched.ahead
  | ends wire silent =>
      refine ⟨[none], { c with shut := true }, fun x none => (by cases none), .single .shut, wire _ matched.wire,
        fun _ => silent, ?_, ?_⟩
      · rintro ⟨⟩
      · rintro ⟨⟩
  | @sends content clean idle wire handed due silent =>
      by_cases shut : c.shut = true
      · refine ⟨[none], { c with accepted := c.accepted ++ (content ++ [lf]) }, fun x none => (by cases none),
          .single (.stray shut shut (List.prefix_append _ _)), wire _ matched.wire, fun _ => silent (matched.silent shut),
          fun live => ?_, fun live => ?_⟩
        · cases live.symm.trans shut
        · cases live.symm.trans shut
      · have usable := Bool.eq_false_iff.mpr shut
        have waits : c.waiting = none :=
          Option.eq_none_iff_forall_ne_some.mpr fun p same => idle p ((matched.waiting usable p).mp same)
        refine ⟨[none], _, fun x none => (by cases none), .single (.send clean waits), wire _ matched.wire,
          fun ended => absurd ended shut, fun _ => ?_, fun _ p => ?_⟩
        · rw [handed]
          exact matched.ahead usable
        · rw [due _ matched.wire p]
          exact Option.some_inj.trans eq_comm
  | @takes p line live wire handed waits due =>
      have usable : c.shut = false := Bool.eq_false_iff.mpr fun shut => live (matched.silent shut)
      have next : c.ahead = line :: all.drop t.handed.length := by
        obtain ⟨more, same⟩ := (List.prefix_append t.handed t.reads.reader.queue).trans within
        rw [handed] at same
        rw [matched.ahead usable, ← same, handed, List.append_assoc, List.drop_left' rfl, ← List.append_assoc,
          List.drop_left' rfl, List.singleton_append]
      refine ⟨[some ⟨p, line⟩], _, fun x same => same ▸ List.mem_cons_self,
        .single (.take ((matched.waiting usable p).mpr waits) usable next), wire _ matched.wire, fun ended => ?_,
        fun _ => rfl, fun _ q => ⟨fun same => ?_, fun waits => absurd waits (due q)⟩⟩
      · cases usable.symm.trans ended
      · cases same

/-! ## What is waited for -/

section Due

variable {s t : Session} {i : ℕ} {g g' : Caller} {p : Conversation.Pending UInt8} {waiters : List ℕ}

theorem Caller.due_stage (due : g.due waiters = some p) :
    g.stage = .wrote ∨ ∃ id ∈ waiters, g.stage = .reading id := by
  unfold Caller.due at due
  split at due
  · rename_i stage
    exact .inl stage
  · rename_i id stage
    split at due
    · rename_i inside
      exact .inr ⟨id, inside, stage⟩
    · cases due
  · cases due

theorem Caller.due_active (due : g.due waiters = some p) : g.active = true := by
  rcases Caller.due_stage due with stage | ⟨id, _, stage⟩ <;> rw [Caller.active, stage]

theorem Caller.due_none (stage : g.stage ≠ .wrote) (unread : ∀ id ∈ waiters, g.stage ≠ .reading id) :
    g.due waiters = none := by
  refine Option.eq_none_iff_forall_ne_some.mpr fun p due => ?_
  rcases Caller.due_stage due with is | ⟨id, inside, is⟩
  · exact stage is
  · exact unread id inside is

theorem Caller.due_reading {id place : ℕ} (stage : g.stage = .reading id) (own : g.own = some place) :
    g.due waiters = some p ↔ id ∈ waiters ∧ p = ⟨place, content g.record⟩ := by
  rw [due, stage, own]
  dsimp only
  split
  · rename_i inside
    exact ⟨fun same => ⟨inside, (Option.some_inj.mp same).symm⟩, fun same => congrArg some same.2.symm⟩
  · rename_i outside
    exact ⟨fun same => (by cases same), fun same => absurd same.1 outside⟩

theorem due_set (there : s.calls[i]? = some g) (calls : t.calls = s.calls.set i g')
    (same : g'.due t.reads.reader.waiters = g.due s.reads.reader.waiters)
    (waiters : t.reads.reader.waiters = s.reads.reader.waiters) : Due t p ↔ Due s p := by
  have small := (List.getElem?_eq_some_iff.mp there).1
  constructor
  · rintro ⟨j, h, after, due⟩
    rw [calls] at after
    rcases getElem?_set_cases after with ⟨_, rfl⟩ | ⟨_, before⟩
    · exact ⟨i, g, there, same ▸ due⟩
    · exact ⟨j, h, before, waiters ▸ due⟩
  · rintro ⟨j, h, before, due⟩
    by_cases own : i = j
    · subst own
      cases there.symm.trans before
      exact ⟨i, g', calls ▸ List.getElem?_set_self small, same ▸ due⟩
    · refine ⟨j, h, ?_, waiters ▸ due⟩
      rw [calls, List.getElem?_set_ne own]
      exact before

theorem due_append (fresh : g.due s.reads.reader.waiters = none) :
    Due { s with calls := s.calls ++ [g] } p ↔ Due s p := by
  constructor
  · rintro ⟨j, h, after, due⟩
    rcases getElem?_append_cases after with before | rfl
    · exact ⟨j, h, before, due⟩
    · cases fresh.symm.trans due
  · rintro ⟨j, h, before, due⟩
    exact ⟨j, h, getElem?_append_of_some before, due⟩

/-- The active call is the one that waits. -/
theorem Orderly.due_iff (orderly : Orderly s) (there : s.calls[i]? = some g) (active : g.active = true) :
    Due s p ↔ g.due s.reads.reader.waiters = some p := by
  constructor
  · rintro ⟨j, h, there', due⟩
    obtain ⟨_, rfl⟩ := orderly.alone there there' active (Caller.due_active due)
    exact due
  · intro due
    exact ⟨i, g, there, due⟩

end Due

/-! ## The end of the lines -/

section Over

variable {s t : Session} {i : ℕ} {g g' : Caller}

/-- A call that moves on without starting a write leaves the end as it is. -/
theorem Over.set (silent : Over s) (there : s.calls[i]? = some g) {closed : Bool} (shut : s.closed = true → closed = true)
    (none : g'.stage ≠ .writing ∧ g'.stage ≠ .wrote)
    (doomed : ∀ id e, g.stage = .reading id → (id, .error e) ∈ s.reads.settled → g.Quits e →
      closed = true ∨ g'.stage = .reading id ∧ g'.Quits e) (orderly : Orderly s) :
    Over { s with closed, calls := s.calls.set i g' } := by
  have small := (List.getElem?_eq_some_iff.mp there).1
  cases silent with
  | dead dead => exact .dead dead
  | closed idle others ended =>
      refine .closed idle (fun j h after => ?_) (shut ended)
      rcases getElem?_set_cases after with ⟨_, rfl⟩ | ⟨_, before⟩
      · exact none
      · exact others j h before
  | @doomed j id h e idle there' stage failed quits =>
      by_cases own : i = j
      · subst own
        cases there.symm.trans there'
        rcases doomed id e stage failed quits with ended | ⟨stage', quits'⟩
        · refine .closed idle (fun k h' after => ?_) ended
          rcases getElem?_set_cases after with ⟨_, rfl⟩ | ⟨other, before⟩
          · exact none
          · have apart {kind : Stage} (is : h'.stage = kind) (active : h'.active = true) : False :=
              other (orderly.alone before there active (by rw [Caller.active, stage])).1
            exact ⟨fun is => apart is (by rw [Caller.active, is]), fun is => apart is (by rw [Caller.active, is])⟩
        · exact .doomed idle (List.getElem?_set_self small) stage' failed quits'
      · exact .doomed idle ((List.getElem?_set_ne own).trans there') stage failed quits

/-- The wire and the count of the lines do not matter for it. -/
theorem Over.same (silent : Over s) (reads : t.reads = s.reads) (calls : t.calls = s.calls)
    (shut : s.closed = true → t.closed = true) : Over t := by
  cases silent with
  | dead dead => exact .dead (reads ▸ dead)
  | closed idle none ended => exact .closed (reads ▸ idle) (calls ▸ none) (shut ended)
  | doomed idle there stage failed quits => exact .doomed (reads ▸ idle) (calls ▸ there) stage (reads ▸ failed) quits

theorem Over.append (silent : Over s) (fresh : g.active = false) : Over { s with calls := s.calls ++ [g] } := by
  cases silent with
  | dead dead => exact .dead dead
  | closed idle none ended =>
      refine .closed idle (fun j h after => ?_) ended
      rcases getElem?_append_cases after with before | rfl
      · exact none j h before
      · have apart {kind : Stage} (is : h.stage = kind) (active : h.active = true) : False :=
          Bool.false_ne_true (fresh.symm.trans active)
        exact ⟨fun is => apart is (by rw [Caller.active, is]), fun is => apart is (by rw [Caller.active, is])⟩
  | doomed idle there stage failed quits =>
      exact .doomed idle (getElem?_append_of_some there) stage failed quits

/-- While a call is to be written, the end has come only if the source is at its end. -/
theorem Orderly.dead_of_over (orderly : Orderly s) (silent : Over s) (there : s.calls[i]? = some g)
    (stage : g.stage = .writing ∨ g.stage = .wrote) : s.reads.Dead := by
  have active : g.active = true := by rcases stage with is | is <;> rw [Caller.active, is]
  cases silent with
  | dead dead => exact dead
  | closed idle none ended =>
      rcases stage with is | is
      · exact absurd is (none i g there).1
      · exact absurd is (none i g there).2
  | doomed idle there' reading failed quits =>
      obtain ⟨_, rfl⟩ := orderly.alone there there' active (by rw [Caller.active, reading])
      rcases stage with is | is <;> cases is.symm.trans reading

end Over

/-! ## Steps -/

section Steps

variable {rt : Runtime} {std : NumberText} {s t : Session} {i : ℕ} {g g' : Caller}

theorem append_connects (fresh : g.active = false) : Connects s { s with calls := s.calls ++ [g] } none := by
  have undue : g.due s.reads.reader.waiters = none := by
    refine Option.eq_none_iff_forall_ne_some.mpr fun p due => ?_
    cases fresh.symm.trans (Caller.due_active due)
  exact .quiet (fun _ => id) rfl (fun _ => due_append undue) fun silent => silent.append fresh

/-- A call that does not wait moves on, and the connection does not notice. -/
theorem set_connects (orderly : Orderly s) (there : s.calls[i]? = some g) {closed : Bool}
    (shut : s.closed = true → closed = true) (idle : g'.stage ≠ .writing ∧ g'.stage ≠ .wrote)
    (same : g'.due s.reads.reader.waiters = g.due s.reads.reader.waiters)
    (doomed : ∀ id e, g.stage = .reading id → (id, .error e) ∈ s.reads.settled → g.Quits e →
      closed = true ∨ g'.stage = .reading id ∧ g'.Quits e) :
    Connects s { s with closed, calls := s.calls.set i g' } none :=
  .quiet (fun _ => id) rfl (fun _ => due_set there rfl same rfl) fun silent =>
    silent.set there shut idle doomed orderly

theorem Caller.settled_due {outcome : Except JsError (Option Result)} (stage : g.stage = .settled outcome)
    (waiters : List ℕ) : g.due waiters = none := by
  rw [due, stage]

theorem Caller.settled_idle {outcome : Except JsError (Option Result)} (stage : g.stage = .settled outcome) :
    g.stage ≠ .writing ∧ g.stage ≠ .wrote := by
  rw [stage]
  constructor
  · rintro ⟨⟩
  · rintro ⟨⟩

theorem callNow_connects (orderly : Orderly s) (there : s.calls[i]? = some g) (stage : g.stage = .queued)
    (turn : (s.calls.take i).all Caller.isSettled = true) : Connects s (s.callNow i g) none := by
  have undue : g.due s.reads.reader.waiters = none := by rw [Caller.due, stage]
  have refused (outcome : Except JsError (Option Result)) :
      Connects s (s.put i { g with stage := .settled outcome }) none := by
    refine set_connects orderly there id (Caller.settled_idle rfl) ?_
      fun id e reading => ?_
    · exact (Caller.settled_due rfl _).trans undue.symm
    · cases stage.symm.trans reading
  rw [callNow]
  split
  · exact refused _
  · rename_i live
    split
    · exact refused _
    · refine .quiet (fun accepted wire => ?_) rfl (fun _ => due_set there rfl ?_ rfl) fun silent => ?_
      · rcases wire with same | ⟨closing, _⟩
        · exact .inl same
        · exact absurd (orderly.closing closing) live
      · rw [undue, Caller.due]
      · cases silent with
        | dead dead => exact .dead dead
        | closed idle none ended => exact absurd ended live
        | doomed idle there' reading failed quits =>
            have none := orderly.inactive there stage turn there'
            rw [Caller.active, reading] at none
            cases none

theorem flush_connects (orderly : Orderly s) {fault : Option JsString} {who : Option ℕ} {line : List UInt8}
    {rest : List (Option ℕ × List UInt8)} (first : s.outbox = (who, line) :: rest)
    (clean : ∀ (i : ℕ) (g : Caller), s.calls[i]? = some g → g.stage = .writing →
      encodeRequestLine g.record = content g.record ++ [lf] ∧ lf ∉ content g.record) :
    Connects s (s.flush fault who line rest) none := by
  have after : Orderly (s.flush fault who line rest) := flush_orderly orderly first
  have plain {accepted : List UInt8} (wire : Wire s accepted) : s.outlet.accepted = accepted := by
    rcases wire with same | ⟨_, empty, _⟩
    · exact same
    · cases first.symm.trans empty
  unfold flush at after ⊢
  dsimp only at after ⊢
  rcases wrote : s.outlet.write (fault.map writeFailed) line with ⟨result, outlet⟩
  rw [wrote] at after
  have sent := Outlet.write_wrote wrote
  rcases orderly.head first with ⟨i, g, rfl, there, stage, rfl, last⟩ | ⟨rfl, rfl, rfl, closing, idle⟩
  · have undue : g.due s.reads.reader.waiters = none := by rw [Caller.due, stage]
    have active : g.active = true := by rw [Caller.active, stage]
    rw [Option.bind_some, there, Option.map_some] at after ⊢
    dsimp only at after ⊢
    cases sent with
    | @failed e outlet dead same =>
        refine .quiet (fun accepted wire => .inl (same.trans (plain wire))) rfl (fun _ => due_set there rfl ?_ rfl)
          fun silent => .dead (orderly.dead_of_over silent there (.inl stage))
        exact (Caller.settled_due rfl _).trans undue.symm
    | through live still grown =>
        obtain ⟨shape, whole⟩ := clean i g there stage
        refine .sends whole (fun p due => ?_) (fun accepted wire => .inl ?_) rfl (fun accepted wire p => ?_)
          fun silent => .dead (orderly.dead_of_over silent there (.inl stage))
        · cases undue.symm.trans ((orderly.due_iff there active).mp due)
        · exact grown.trans (shape ▸ congrArg (· ++ _) (plain wire))
        · rw [after.due_iff (List.getElem?_set_self (List.getElem?_eq_some_iff.mp there).1) rfl, ← plain wire]
          exact Option.some_inj.trans eq_comm
  · refine .quiet (fun accepted wire => ?_) rfl (fun _ => Iff.rfl) fun silent => silent.same rfl rfl id
    cases sent with
    | failed dead same => exact .inl (same.trans (plain wire))
    | through live still grown => exact .inr ⟨closing, rfl, grown.trans (congrArg (· ++ _) (plain wire))⟩

theorem resume_connects (orderly : Orderly s) (there : s.calls[i]? = some g) {read : ℕ}
    {outcome : Except JsError (List UInt8)} (stage : g.stage = .reading read)
    (settled : outcome? s.reads read = some outcome) : Connects s (s.resume rt i g outcome) none := by
  have settled := (outcome?_eq_some_iff orderly.sound).mp settled
  have gone := not_waits_of_settled orderly.sound settled
  have undue : g.due s.reads.reader.waiters = none := by
    refine Caller.due_none (by rw [stage]; rintro ⟨⟩) fun id inside reading => ?_
    cases stage.symm.trans reading
    exact gone inside
  have only {id : ℕ} {e : JsError} (reading : g.stage = .reading id) (failed : (id, .error e) ∈ s.reads.settled) :
      outcome = .error e := by
    cases stage.symm.trans reading
    have once := (List.nodup_append.mp orderly.sound.nodup).1
    exact congrArg Prod.snd (List.inj_on_of_nodup_map once settled failed rfl)
  have moved {closed : Bool} {result : Except JsError (Option Result)}
      (shut : s.closed = true → closed = true) (quits : ∀ e, outcome = .error e → g.Quits e → closed = true) :
      Connects s { s with closed, calls := s.calls.set i { g with stage := .settled result } } none :=
    set_connects orderly there shut (Caller.settled_idle rfl) ((Caller.settled_due rfl _).trans undue.symm)
      fun id e reading failed leaves => .inl (quits e (only reading failed) leaves)
  unfold resume
  split
  · exact moved id fun e same => (by cases same)
  · exact moved (fun _ => rfl) fun _ _ _ => rfl
  · rename_i e other _
    split
    · exact moved (fun _ => rfl) fun _ _ _ => rfl
    · rename_i live
      refine moved id fun e' same quits => ?_
      cases same
      rcases quits with ⟨message, rfl⟩ | ⟨reason, aborted⟩
      · exact absurd rfl (other message)
      · exact absurd aborted (live reason)

theorem signal_connects (orderly : Orderly s) (there : s.calls[i]? = some g) (reason : JsError) :
    Connects s (s.put i { g with signal := some (some reason) }) none := by
  refine .quiet (fun _ => id) rfl (fun _ => due_set there rfl rfl rfl) fun silent => ?_
  by_cases writes : g.stage = .writing ∨ g.stage = .wrote
  · exact .dead (orderly.dead_of_over silent there writes)
  · refine silent.set there id (not_or.mp writes) (fun id e reading failed quits => .inr ⟨reading, ?_⟩)
      orderly
    exact .inr ⟨reason, rfl⟩

theorem close_connects : Connects s s.close none := by
  rw [close]
  split
  · exact .quiet (fun _ => id) rfl (fun _ => Iff.rfl) id
  · rename_i fresh
    refine .quiet (fun accepted wire => .inl ?_) rfl (fun _ => Iff.rfl) fun silent => silent.same rfl rfl fun _ => rfl
    rcases wire with same | ⟨closing, _⟩
    · exact same
    · exact absurd closing fresh

theorem handed_settles {r r' : Reads} {call : ℕ} {outcome : Except JsError (List UInt8)}
    (settled : r'.settled = r.settled ++ [(call, outcome)]) :
    LineReader.lines r'.settled = LineReader.lines r.settled ++ outcome.toOption.toList := by
  rw [settled, LineReader.lines_append]
  cases outcome <;> rfl

/-- A callback of the source, a timer or a signal settles the read of the active call, or none. -/
theorem turned_connects (orderly : Orderly s) {event : Reads.Event} {o : Option (ℕ × Except JsError (List UInt8))}
    (turned : Reads.Turned event.late s.reads (s.reads.step event) o)
    (placed : ∀ (i : ℕ) (g : Caller) (id : ℕ), s.calls[i]? = some g → g.stage = .reading id → g.own.isSome = true)
    (quits : ∀ (i : ℕ) (g : Caller) (id : ℕ) (e : JsError), s.calls[i]? = some g → g.stage = .reading id →
      event.late e → g.Quits e) :
    ∃ d, Connects s { s with reads := s.reads.step event } d ∧
      ∀ (i : ℕ) (g : Caller) (id : ℕ) (line : List UInt8) (place : ℕ), s.calls[i]? = some g → g.stage = .reading id →
        o = some (id, .ok line) → g.own = some place → d = some ⟨⟨place, content g.record⟩, line⟩ := by
  have wire (accepted : List UInt8) (wire : Wire s accepted) : Wire { s with reads := s.reads.step event } accepted := wire
  cases turned with
  | quiet waiters settled timers listeners =>
      refine ⟨none, .quiet wire (congrArg LineReader.lines settled) (fun p => ?_) fun silent => ?_, ?_⟩
      · rw [Due, Due]
        dsimp only
        rw [waiters]
      · cases silent with
        | dead dead => exact .dead (dead.step orderly.sound event)
        | closed idle none ended => exact .closed (waiters.trans idle) none ended
        | doomed idle there stage failed quits =>
            exact .doomed (waiters.trans idle) there stage (settled.symm ▸ failed) quits
      · rintro i g id line place there stage ⟨⟩
  | @settles call outcome waits idle settled why =>
      obtain ⟨i, g, there, stage⟩ := orderly.waiter call (waits ▸ List.mem_cons_self)
      obtain ⟨place, own⟩ := Option.isSome_iff_exists.mp (placed i g call there stage)
      cases outcome with
      | error e =>
          refine ⟨none, .ends wire ?_, ?_⟩
          · rcases why e rfl with ⟨terminal, queue⟩ | late
            · exact .dead ⟨Option.isSome_iff_exists.mpr ⟨e, terminal⟩, queue⟩
            · exact .doomed idle there stage (settled.symm ▸ List.mem_append_right _ List.mem_cons_self)
                (quits i g call e there stage late)
          · rintro i g id line place there stage ⟨⟩
      | ok line =>
          refine ⟨some ⟨⟨place, content g.record⟩, line⟩, .takes ?_ wire (handed_settles settled) ⟨i, g, there, ?_⟩ ?_, ?_⟩
          · rintro (⟨terminal, _⟩ | none | none)
            · cases waits.symm.trans (orderly.sound.ended terminal)
            · cases waits.symm.trans none
            · cases waits.symm.trans none
          · rw [Caller.due, stage, own, waits]
            exact if_pos List.mem_cons_self
          · rintro q ⟨j, h, there', due⟩
            rw [idle] at due
            rcases Caller.due_stage due with wrote | ⟨_, none, _⟩
            · obtain ⟨_, rfl⟩ := orderly.alone there there' (by rw [Caller.active, stage]) (by rw [Caller.active, wrote])
              cases stage.symm.trans wrote
            · cases none
          · intro j h id line' place' there' stage' same own'
            cases same
            obtain ⟨_, rfl⟩ := orderly.alone there there' (by rw [Caller.active, stage]) (by rw [Caller.active, stage'])
            cases own.symm.trans own'
            rfl

/-- A read of a call that has been written. -/
theorem read_connects (orderly : Orderly s) (there : s.calls[i]? = some g) (stage : g.stage = .wrote) {place : ℕ}
    (own : g.own = some place) :
    ∃ d, Connects s
        ({ s with reads := s.reads.readLine g.timed g.signal }.put i { g with stage := .reading s.reads.calls }) d ∧
      ∀ line, (s.reads.calls, .ok line) ∈ (s.reads.readLine g.timed g.signal).settled →
        d = some ⟨⟨place, content g.record⟩, line⟩ := by
  have after := read_orderly orderly there stage
  have small := (List.getElem?_eq_some_iff.mp there).1
  have active : g.active = true := by rw [Caller.active, stage]
  have fresh {outcome : Except JsError (List UInt8)} : (s.reads.calls, outcome) ∉ s.reads.settled := fun inside =>
    absurd (orderly.sound.early (List.mem_append_left _ (List.mem_map.mpr ⟨_, inside, rfl⟩))) (lt_irrefl _)
  have due (p : Conversation.Pending UInt8) : Due s p ↔ p = ⟨place, content g.record⟩ := by
    rw [orderly.due_iff there active, Caller.due, stage, own]
    exact Option.some_inj.trans eq_comm
  have due' (p : Conversation.Pending UInt8) :
      Due ({ s with reads := s.reads.readLine g.timed g.signal }.put i { g with stage := .reading s.reads.calls }) p ↔
        s.reads.calls ∈ (s.reads.readLine g.timed g.signal).reader.waiters ∧ p = ⟨place, content g.record⟩ := by
    exact (after.due_iff (List.getElem?_set_self small) rfl).trans (Caller.due_reading rfl own)
  have wire (accepted : List UInt8) (wire : Wire s accepted) :
      Wire ({ s with reads := s.reads.readLine g.timed g.signal }.put i { g with stage := .reading s.reads.calls })
        accepted := wire
  cases Reads.readLine_begun (orderly.idle there (.inr stage)) g.timed g.signal with
  | waits running settled timer listener =>
      refine ⟨none, .quiet wire (congrArg LineReader.lines settled) (fun p => ?_) fun silent => .dead ?_, fun line inside => ?_⟩
      · rw [due', due, running]
        exact and_iff_right List.mem_cons_self
      · exact (orderly.dead_of_over silent there (.inr stage)).step orderly.sound (.readLine g.timed g.signal)
      · exact absurd (settled ▸ inside) fresh
  | @line line queued idle settled =>
      refine ⟨some ⟨⟨place, content g.record⟩, line⟩, .takes (fun silent => ?_) wire (handed_settles settled) ((due _).mpr rfl)
        fun q waits => ?_, fun line' inside => ?_⟩
      · exact queued (orderly.dead_of_over silent there (.inr stage)).2
      · rw [due', idle] at waits
        cases waits.1
      · rw [settled] at inside
        rcases List.mem_append.mp inside with before | last
        · exact absurd before fresh
        · cases List.mem_singleton.mp last
          rfl
  | @ended err idle settled terminal queue =>
      refine ⟨none, .ends wire (.dead ⟨Option.isSome_iff_exists.mpr ⟨err, terminal⟩, queue⟩), fun line inside => ?_⟩
      rw [settled] at inside
      rcases List.mem_append.mp inside with before | last
      · exact absurd before fresh
      · cases List.mem_singleton.mp last
  | @aborted err reason idle settled =>
      refine ⟨none, .ends wire (.doomed idle (List.getElem?_set_self small) rfl
        (settled.symm ▸ List.mem_append_right _ List.mem_cons_self) (.inr ⟨err, reason⟩)), fun line inside => ?_⟩
      rw [settled] at inside
      rcases List.mem_append.mp inside with before | last
      · exact absurd before fresh
      · cases List.mem_singleton.mp last

end Steps

end Session

end SanDbOxFormal.TypeScript
