import SanDbOxFormal.Library.Turns
import SanDbOxFormal.TypeScript.Session
import SanDbOxFormal.TypeScript.Timeouts

/-!
# One call at a time

Whatever the order of the callbacks, one call at most is between the start of its write and the
end of its read, and the line reader has no waiter but the read of that call.
-/

namespace SanDbOxFormal.TypeScript

open SanDbOxFormal.Library
open SanDbOxFormal.Library.Turns

/-- An error of the driver or of its runtime, which is none that the server sent. -/
def Own (e : JsError) : Prop := ∀ code message, e ≠ .response code message

namespace Session

/-- It has left the queue, and may have been written. -/
def Caller.begun (g : Caller) : Bool := g.active || g.own.isSome

theorem Caller.active_begun {g : Caller} (active : g.active = true) : g.begun = true := by
  rw [begun, active, Bool.true_or]

theorem Caller.active_unsettled {g : Caller} (active : g.active = true) : g.isSettled = false := by
  unfold Caller.active at active
  unfold Caller.isSettled
  split
  · rename_i outcome stage
    rw [stage] at active
    cases active
  · rfl

theorem Caller.queued_unsettled {g : Caller} (stage : g.stage = .queued) : g.isSettled = false := by
  rw [isSettled, stage]

/-- What `close` writes. -/
def closeLine : List UInt8 := encodeRequestLine [opField "close"]

/-- What may stand behind the line of a call: nothing, or the line of `close`. -/
def Last (s : Session) (rest : List (Option ℕ × List UInt8)) : Prop :=
  rest = [] ∨ rest = [(none, closeLine)] ∧ s.closing = true

/-- The line of the call that is writing, and that of `close`. -/
inductive Writes (s : Session) : Prop where
  | idle (none : ∀ (i : ℕ) (g : Caller), s.calls[i]? = some g → g.stage ≠ .writing) (rest : Last s s.outbox)
  | one {i : ℕ} {g : Caller} {rest : List (Option ℕ × List UInt8)} (there : s.calls[i]? = some g)
      (stage : g.stage = .writing) (first : s.outbox = (some i, encodeRequestLine g.record) :: rest) (last : Last s rest)

structure Orderly (s : Session) : Prop where
  sound : s.reads.Sound
  terminal : ∀ e, s.reads.reader.terminal = some e → Own e
  waiter : ∀ id ∈ s.reads.reader.waiters, ∃ (i : ℕ) (g : Caller), s.calls[i]? = some g ∧ g.stage = .reading id
  early : ∀ (i : ℕ) (g : Caller) (id : ℕ), s.calls[i]? = some g → g.stage = .reading id → id < s.reads.calls
  turn : InTurn Caller.begun Caller.isSettled s.calls
  closing : s.closing = true → s.closed = true
  writes : Writes s

namespace Orderly

variable {s t : Session} {i j : ℕ} {g h : Caller}

/-- One call at most is active. -/
theorem alone (orderly : Orderly s) (there : s.calls[i]? = some g) (there' : s.calls[j]? = some h)
    (active : g.active = true) (active' : h.active = true) : i = j ∧ g = h := by
  have same := orderly.turn.eq_of_busy there there' (Caller.active_begun active) (Caller.active_begun active')
    (Caller.active_unsettled active) (Caller.active_unsettled active')
  subst same
  exact ⟨rfl, Option.some_inj.mp (there.symm.trans there')⟩

theorem single (orderly : Orderly s) : s.reads.reader.waiters.length ≤ 1 := by
  have nodup := (orderly.sound.nodup).of_append_right
  have waiter := orderly.waiter
  rcases waits : s.reads.reader.waiters with _ | ⟨first, _ | ⟨second, more⟩⟩
  · exact Nat.zero_le _
  · exact le_rfl
  · rw [waits] at nodup waiter
    obtain ⟨i, g, there, stage⟩ := waiter first List.mem_cons_self
    obtain ⟨j, h, there', stage'⟩ := waiter second (List.mem_cons_of_mem _ List.mem_cons_self)
    obtain ⟨_, rfl⟩ := orderly.alone there there' (by rw [Caller.active, stage]) (by rw [Caller.active, stage'])
    cases stage.symm.trans stage'
    exact absurd List.mem_cons_self (List.nodup_cons.mp nodup).1

/-- While a call writes or has just written, no read waits. -/
theorem idle (orderly : Orderly s) (there : s.calls[i]? = some g) (stage : g.stage = .writing ∨ g.stage = .wrote) :
    s.reads.reader.waiters = [] := by
  refine List.eq_nil_iff_forall_not_mem.mpr fun id inside => ?_
  obtain ⟨j, h, there', reading⟩ := orderly.waiter id inside
  have active : g.active = true := by rcases stage with is | is <;> rw [Caller.active, is]
  obtain ⟨_, rfl⟩ := orderly.alone there there' active (by rw [Caller.active, reading])
  rcases stage with is | is <;> cases is.symm.trans reading

theorem waits_of_mem (orderly : Orderly s) {id : ℕ} (inside : id ∈ s.reads.reader.waiters) :
    s.reads.reader.waiters = [id] := by
  have single := orderly.single
  rcases waits : s.reads.reader.waiters with _ | ⟨first, _ | ⟨second, more⟩⟩
  · rw [waits] at inside
    cases inside
  · rw [waits] at inside
    rw [List.mem_singleton.mp inside]
  · rw [waits, List.length_cons, List.length_cons] at single
    omega

/-- When it is the turn of a call that is queued, no call is active. -/
theorem inactive (orderly : Orderly s) (there : s.calls[i]? = some g) (stage : g.stage = .queued)
    (turn : (s.calls.take i).all Caller.isSettled = true) (there' : s.calls[j]? = some h) : h.active = false := by
  refine Bool.eq_false_iff.mpr fun active => ?_
  rcases lt_trichotomy i j with less | rfl | more
  · have done := orderly.turn i j g h there there' less (Caller.active_begun active)
    cases (Caller.queued_unsettled stage).symm.trans done
  · cases there.symm.trans there'
    rw [Caller.active, stage] at active
    cases active
  · have inside : (s.calls.take i)[j]? = some h := by
      rw [List.getElem?_take_of_lt more]
      exact there'
    cases (Caller.active_unsettled active).symm.trans (List.all_eq_true.mp turn h (List.mem_of_getElem? inside))

/-- Who writes is at the head of the outbox. -/
theorem writing (orderly : Orderly s) (there : s.calls[i]? = some g) (stage : g.stage = .writing) :
    ∃ rest, s.outbox = (some i, encodeRequestLine g.record) :: rest ∧ Last s rest := by
  cases orderly.writes with
  | idle none rest => exact absurd stage (none i g there)
  | @one j h rest there' stage' first last =>
      obtain ⟨rfl, rfl⟩ := orderly.alone there there' (by rw [Caller.active, stage]) (by rw [Caller.active, stage'])
      exact ⟨rest, first, last⟩

/-- The head of the outbox is the line of the call that writes, or that of `close`. -/
theorem head (orderly : Orderly s) {who : Option ℕ} {line : List UInt8} {rest : List (Option ℕ × List UInt8)}
    (first : s.outbox = (who, line) :: rest) :
    (∃ i g, who = some i ∧ s.calls[i]? = some g ∧ g.stage = .writing ∧ line = encodeRequestLine g.record ∧ Last s rest) ∨
    who = none ∧ line = closeLine ∧ rest = [] ∧ s.closing = true ∧
      ∀ (i : ℕ) (g : Caller), s.calls[i]? = some g → g.stage ≠ .writing := by
  cases orderly.writes with
  | idle none last =>
      rcases last with empty | ⟨one, closing⟩
      · cases first.symm.trans empty
      · cases first.symm.trans one
        exact .inr ⟨rfl, rfl, rfl, closing, none⟩
  | one there stage first' last =>
      cases first.symm.trans first'
      exact .inl ⟨_, _, rfl, there, stage, rfl, last⟩

end Orderly

/-! ## The reads -/

end Session

namespace Reads

/-- Nothing but a new read starts to wait. -/
theorem step_waiters {s : Reads} (sound : s.Sound) {event : Event} (other : isRead event = false) :
    (s.step event).reader.waiters ⊆ s.reader.waiters := by
  have handed {out : LineReader.Settled ℕ} {reader : LineReader ℕ} (handed : Handed s.reader out reader) :
      ({ s with reader }.settle out).reader.waiters ⊆ s.reader.waiters := by
    rw [(sound.handed handed).2.1, handed.waiters]
    exact List.subset_append_right _ _
  have withdrawn (call : ℕ) (err : JsError) : (s.settleOne (call, .error err)).reader.waiters ⊆ s.reader.waiters :=
    List.erase_subset
  cases event with
  | data chunk => exact handed (onData_handed s.reader chunk)
  | ended => exact handed (terminate_handed s.reader eof)
  | failed err => exact handed (terminate_handed s.reader err)
  | fail err => exact handed (terminate_handed s.reader err)
  | readLine timed signal => cases other
  | timer call =>
      rw [step]
      split
      · exact withdrawn call timedOut
      · exact List.Subset.refl _
  | abort call reason =>
      rw [step]
      split
      · exact withdrawn call reason
      · exact List.Subset.refl _

/-- What an event that is no read leaves of the terminal and of the count. -/
theorem step_terminal {s : Reads} {event : Event} (other : isRead event = false) :
    (∀ e, (s.step event).reader.terminal = some e → s.reader.terminal = some e ∨ e = event.brings) ∧
      (s.step event).calls = s.calls := by
  have adds {P : ℕ → JsError → Prop} {Q : JsError → Prop} (adds : Adds s P Q 0 (s.step event))
      (brought : ∀ e, Q e → e = event.brings) :
      (∀ e, (s.step event).reader.terminal = some e → s.reader.terminal = some e ∨ e = event.brings) ∧
        (s.step event).calls = s.calls :=
    ⟨fun e is => (adds.terminal e is).imp id (brought e), adds.calls⟩
  cases event with
  | readLine timed signal => cases other
  | timer call => exact adds (timer_adds s call) fun e none => none.elim
  | abort call reason => exact adds (abort_adds s call reason) fun e none => none.elim
  | data chunk => exact adds (source_adds s (.data chunk) rfl) fun e same => same
  | ended => exact adds (source_adds s .ended rfl) fun e same => same
  | failed err => exact adds (source_adds s (.failed err) rfl) fun e same => same
  | fail err => exact adds (source_adds s (.fail err) rfl) fun e same => same

theorem readLine_terminal (s : Reads) (timed : Bool) (signal : Option (Option JsError)) :
    (∀ e, (s.readLine timed signal).reader.terminal = some e → s.reader.terminal = some e) ∧
      (s.readLine timed signal).calls = s.calls + 1 := by
  have adds := readLine_adds s timed signal
  exact ⟨fun e is => (adds.terminal e is).resolve_right id, adds.calls⟩

end Reads

theorem own_eof : Own Reads.eof := by
  intro code message same
  cases same

theorem own_tooLong : Own LineReader.tooLong := by
  intro code message same
  cases same

theorem Session.Source.own (e : Source) : Own e.event.brings := by
  cases e with
  | data chunk => exact own_tooLong
  | ended => exact own_eof
  | failed message =>
      intro code text same
      cases same
  | unstarted message =>
      intro code text same
      cases same

theorem Session.Source.other (e : Source) : Reads.isRead e.event = false := by
  cases e <;> rfl

namespace Session

/-! ## Steps -/

section Steps

variable {s t : Session} {i : ℕ} {g g' : Caller}

theorem Writes.set (writes : Writes s) (there : s.calls[i]? = some g) {reads : Reads} {closed : Bool}
    (still : g.stage = .writing → g'.stage = .writing ∧ g'.record = g.record)
    (none : g'.stage = .writing → g.stage = .writing) :
    Writes { s with reads, closed, calls := s.calls.set i g' } := by
  have small := (List.getElem?_eq_some_iff.mp there).1
  cases writes with
  | idle idle rest =>
      refine .idle (fun j h after stage => ?_) rest
      rcases getElem?_set_cases after with ⟨_, rfl⟩ | ⟨_, before⟩
      · exact idle i g there (none stage)
      · exact idle j h before stage
  | @one j h rest there' stage first last =>
      by_cases same : i = j
      · subst same
        cases there.symm.trans there'
        obtain ⟨stage', record⟩ := still stage
        exact .one (List.getElem?_set_self small) stage' (record ▸ first) last
      · exact .one ((List.getElem?_set_ne same).trans there') stage first last

/-- A call moves on. -/
theorem Orderly.move (orderly : Orderly s) (there : s.calls[i]? = some g) {reads : Reads} {closed : Bool}
    (sound : reads.Sound) (terminal : ∀ e, reads.reader.terminal = some e → Own e)
    (waiter : ∀ id ∈ reads.reader.waiters, g'.stage = .reading id ∨ id ∈ s.reads.reader.waiters ∧ g.stage ≠ .reading id)
    (calls : s.reads.calls ≤ reads.calls) (early : ∀ id, g'.stage = .reading id → id < reads.calls)
    (earlier : g'.begun = true → g.begun = true ∨ (s.calls.take i).all Caller.isSettled = true)
    (kept : g.isSettled = true → g'.isSettled = true) (shut : s.closed = true → closed = true)
    (writes : Writes { s with reads, closed, calls := s.calls.set i g' }) :
    Orderly { s with reads, closed, calls := s.calls.set i g' } := by
  have small := (List.getElem?_eq_some_iff.mp there).1
  refine ⟨sound, terminal, fun id inside => ?_, fun j h id after stage => ?_, orderly.turn.set there earlier kept,
    fun closing => shut (orderly.closing closing), writes⟩
  · rcases waiter id inside with stage | ⟨before, other⟩
    · exact ⟨i, g', List.getElem?_set_self small, stage⟩
    · obtain ⟨j, h, there', stage⟩ := orderly.waiter id before
      have apart : i ≠ j := by
        rintro rfl
        cases there.symm.trans there'
        exact other stage
      exact ⟨j, h, (List.getElem?_set_ne apart).trans there', stage⟩
  · rcases getElem?_set_cases after with ⟨_, rfl⟩ | ⟨_, before⟩
    · exact early id stage
    · exact (orderly.early j h id before stage).trans_le calls

/-- The reads move on by themselves. -/
theorem Orderly.reads (orderly : Orderly s) {event : Reads.Event} (other : Reads.isRead event = false)
    (own : Own event.brings) : Orderly { s with reads := s.reads.step event } := by
  obtain ⟨terminal, calls⟩ := Reads.step_terminal (s := s.reads) other
  refine ⟨orderly.sound.step event, fun e is => ?_, fun id inside => ?_, fun i g id there stage => ?_, orderly.turn,
    orderly.closing, ?_⟩
  · rcases terminal e is with before | rfl
    · exact orderly.terminal e before
    · exact own
  · exact orderly.waiter id (Reads.step_waiters orderly.sound other inside)
  · exact (orderly.early i g id there stage).trans_le calls.ge
  · cases orderly.writes with
    | idle none rest => exact .idle none rest
    | one there stage first last => exact .one there stage first last

/-- A call that has not begun is queued, or could not be encoded. -/
theorem Caller.issue_fresh (std : NumberText) (req : Request) (timed : Bool) (signal : Option (Option JsError)) :
    (Caller.issue std req timed signal).begun = false ∧ (Caller.issue std req timed signal).own = none ∧
      (Caller.issue std req timed signal).stage ≠ .writing ∧
      ∀ id, (Caller.issue std req timed signal).stage ≠ .reading id := by
  rw [issue]
  cases req.record std with
  | ok record =>
      refine ⟨rfl, rfl, ?_, fun id => ?_⟩
      · rintro ⟨⟩
      · rintro ⟨⟩
  | error e =>
      refine ⟨rfl, rfl, ?_, fun id => ?_⟩
      · rintro ⟨⟩
      · rintro ⟨⟩

theorem Orderly.issued (orderly : Orderly s) (fresh : g.begun = false) (idle : g.stage ≠ .writing)
    (unread : ∀ id, g.stage ≠ .reading id) : Orderly { s with calls := s.calls ++ [g] } := by
  refine ⟨orderly.sound, orderly.terminal, fun id inside => ?_, fun j h id after stage => ?_, orderly.turn.append fresh,
    orderly.closing, ?_⟩
  · obtain ⟨j, h, there, stage⟩ := orderly.waiter id inside
    exact ⟨j, h, getElem?_append_of_some there, stage⟩
  · rcases getElem?_append_cases after with before | rfl
    · exact orderly.early j h id before stage
    · exact absurd stage (unread id)
  · cases orderly.writes with
    | idle none rest =>
        refine .idle (fun j h after => ?_) rest
        rcases getElem?_append_cases after with before | rfl
        · exact none j h before
        · exact idle
    | one there stage first last => exact .one (getElem?_append_of_some there) stage first last

/-- A call moves on, and nothing of its reads changes. -/
theorem Orderly.kept (orderly : Orderly s) (there : s.calls[i]? = some g) {closed : Bool}
    (waits : ∀ id ∈ s.reads.reader.waiters, g.stage = .reading id → g'.stage = .reading id)
    (reads : ∀ id, g'.stage = .reading id → g.stage = .reading id)
    (earlier : g'.begun = true → g.begun = true ∨ (s.calls.take i).all Caller.isSettled = true)
    (kept : g.isSettled = true → g'.isSettled = true) (shut : s.closed = true → closed = true)
    (still : g.stage = .writing → g'.stage = .writing ∧ g'.record = g.record)
    (none : g'.stage = .writing → g.stage = .writing) :
    Orderly { s with closed, calls := s.calls.set i g' } := by
  refine orderly.move there orderly.sound orderly.terminal (fun id inside => ?_) le_rfl
    (fun id stage => orderly.early i g id there (reads id stage)) earlier kept shut
    (orderly.writes.set there still none)
  by_cases reading : g.stage = .reading id
  · exact .inl (waits id inside reading)
  · exact .inr ⟨inside, reading⟩

theorem callNow_orderly (orderly : Orderly s) (there : s.calls[i]? = some g) (stage : g.stage = .queued)
    (turn : (s.calls.take i).all Caller.isSettled = true) : Orderly (s.callNow i g) := by
  have small := (List.getElem?_eq_some_iff.mp there).1
  have refused (outcome : Except JsError (Option Result)) :
      Orderly (s.put i { g with stage := .settled outcome }) := by
    refine orderly.kept there (fun id _ reading => ?_) (fun id reading => ?_) (fun _ => .inr turn) (fun _ => rfl) id
      (fun writing => ?_) fun writing => ?_
    · cases stage.symm.trans reading
    · cases reading
    · cases stage.symm.trans writing
    · cases writing
  rw [callNow]
  split
  · exact refused _
  · rename_i live
    split
    · exact refused _
    · have idle := fun j h => orderly.inactive (j := j) (h := h) there stage turn
      have unwritten (j : ℕ) (h : Caller) (there' : s.calls[j]? = some h) : h.stage ≠ .writing := by
        intro writing
        have none := idle j h there'
        rw [Caller.active, writing] at none
        cases none
      have empty : s.outbox = [] := by
        cases orderly.writes with
        | idle none rest =>
            rcases rest with empty | ⟨_, closing⟩
            · exact empty
            · exact absurd (orderly.closing closing) live
        | one there' writing _ _ => exact absurd writing (unwritten _ _ there')
      rw [empty]
      refine ⟨orderly.sound, orderly.terminal, fun id inside => ?_, fun j h id after reading => ?_,
        orderly.turn.set there (fun _ => .inr turn) (fun done => ?_), orderly.closing,
        .one (List.getElem?_set_self small) rfl rfl (.inl rfl)⟩
      · obtain ⟨j, h, there', reading⟩ := orderly.waiter id inside
        have none := idle j h there'
        rw [Caller.active, reading] at none
        cases none
      · rcases getElem?_set_cases after with ⟨_, rfl⟩ | ⟨_, before⟩
        · cases reading
        · exact orderly.early j h id before reading
      · cases (Caller.queued_unsettled stage).symm.trans done

theorem Caller.writing_begun (stage : g.stage = .writing) : g.begun = true :=
  Caller.active_begun (by rw [active, stage])

theorem flush_orderly (orderly : Orderly s) {fault : Option JsString} {who : Option ℕ} {line : List UInt8}
    {rest : List (Option ℕ × List UInt8)} (first : s.outbox = (who, line) :: rest) :
    Orderly (s.flush fault who line rest) := by
  unfold flush
  dsimp only
  rcases orderly.head first with ⟨i, g, rfl, there, stage, rfl, last⟩ | ⟨rfl, rfl, rfl, closing, idle⟩
  · have small := (List.getElem?_eq_some_iff.mp there).1
    have unwritten (j : ℕ) (h : Caller) (there' : s.calls[j]? = some h) (other : j ≠ i) : h.stage ≠ .writing := by
      intro writing
      exact other (orderly.alone there' there (by rw [Caller.active, writing]) (by rw [Caller.active, stage])).1
    have none := orderly.idle there (.inl stage)
    have moved {outlet : Outlet JsError UInt8} {h : Caller} (begun : h.begun = true → g.begun = true)
        (apart : h.stage ≠ .writing ∧ ∀ id, h.stage ≠ .reading id) :
        Orderly { s with outlet, outbox := rest, calls := s.calls.set i h } := by
      refine ⟨orderly.sound, orderly.terminal, fun id inside => ?_, fun j h' id after reading => ?_,
        orderly.turn.set there (fun started => .inl (begun started)) (fun done => ?_), orderly.closing,
        .idle (fun j h' after writing => ?_) last⟩
      · rw [none] at inside
        cases inside
      · rcases getElem?_set_cases after with ⟨_, rfl⟩ | ⟨_, before⟩
        · exact absurd reading (apart.2 id)
        · exact orderly.early j h' id before reading
      · cases (Caller.active_unsettled (by rw [Caller.active, stage])).symm.trans done
      · rcases getElem?_set_cases after with ⟨_, rfl⟩ | ⟨other, before⟩
        · exact apart.1 writing
        · exact unwritten j h' before other writing
    rw [Option.bind_some, there, Option.map_some]
    dsimp only
    split
    · refine moved (fun _ => Caller.writing_begun stage) ⟨?_, fun id => ?_⟩
      · rintro ⟨⟩
      · rintro ⟨⟩
    · refine moved (fun _ => Caller.writing_begun stage) ⟨?_, fun id => ?_⟩
      · rintro ⟨⟩
      · rintro ⟨⟩
  · exact ⟨orderly.sound, orderly.terminal, orderly.waiter, orderly.early, orderly.turn, orderly.closing,
      .idle idle (.inl rfl)⟩

theorem read_orderly (orderly : Orderly s) (there : s.calls[i]? = some g) (stage : g.stage = .wrote) :
    Orderly ({ s with reads := s.reads.readLine g.timed g.signal }.put i { g with stage := .reading s.reads.calls }) := by
  obtain ⟨terminal, calls⟩ := Reads.readLine_terminal s.reads g.timed g.signal
  have begun := Reads.readLine_begun (orderly.idle there (.inr stage)) g.timed g.signal
  have waits : ∀ id ∈ (s.reads.readLine g.timed g.signal).reader.waiters, id = s.reads.calls := by
    intro id inside
    cases begun with
    | waits running settled timer listener =>
        rw [running] at inside
        exact List.mem_singleton.mp inside
    | line queued idle settled =>
        rw [idle] at inside
        cases inside
    | ended idle settled terminal queue =>
        rw [idle] at inside
        cases inside
    | aborted reason idle settled =>
        rw [idle] at inside
        cases inside
  refine orderly.move there (orderly.sound.readLine _ _)
    (fun e is => orderly.terminal e (terminal e is)) (fun id inside => .inl (waits id inside ▸ rfl)) ?_ (fun id same => ?_)
    (fun _ => .inl (Caller.active_begun (by rw [Caller.active, stage]))) (fun done => ?_) id
    (orderly.writes.set there (fun writing => ?_) fun writing => ?_)
  · exact calls ▸ Nat.le_succ _
  · cases same
    exact calls ▸ Nat.lt_succ_self _
  · cases (Caller.active_unsettled (by rw [Caller.active, stage])).symm.trans done
  · cases stage.symm.trans writing
  · cases writing

/-- The outcome of a read that has been settled. -/
theorem outcome?_eq_some_iff {reads : Reads} (sound : reads.Sound) {id : ℕ} {outcome : Except JsError (List UInt8)} :
    outcome? reads id = some outcome ↔ (id, outcome) ∈ reads.settled := by
  constructor
  · intro found
    obtain ⟨o, there, rfl⟩ := Option.map_eq_some_iff.mp found
    have hit := List.find?_some there
    have same := beq_iff_eq.mp hit
    have inside := List.mem_of_find?_eq_some there
    rwa [← same]
  · intro inside
    have once := (List.nodup_append.mp sound.nodup).1
    obtain ⟨o, found⟩ : ∃ o, reads.settled.find? (fun o => o.1 == id) = some o := by
      refine Option.isSome_iff_exists.mp (List.find?_isSome.mpr ⟨_, inside, ?_⟩)
      exact beq_iff_eq.mpr rfl
    have hit := List.find?_some found
    have same := beq_iff_eq.mp hit
    have whole := List.inj_on_of_nodup_map once (List.mem_of_find?_eq_some found) inside same
    rw [outcome?, found, whole]
    rfl

/-- A read that has been settled does not wait. -/
theorem not_waits_of_settled {reads : Reads} (sound : reads.Sound) {id : ℕ} {outcome : Except JsError (List UInt8)}
    (settled : (id, outcome) ∈ reads.settled) : id ∉ reads.reader.waiters := fun waits =>
  (List.nodup_append.mp sound.nodup).2.2 _ (List.mem_map.mpr ⟨_, settled, rfl⟩) _ waits rfl

/-- What `resume` does to the session. -/
theorem resume_cases (rt : Runtime) (s : Session) (i : ℕ) (g : Caller) (outcome : Except JsError (List UInt8)) :
    ∃ (closed : Bool) (result : Except JsError (Option Result)), (s.closed = true → closed = true) ∧
      s.resume rt i g outcome = { s with closed, calls := s.calls.set i { g with stage := .settled result } } := by
  unfold resume
  split
  · exact ⟨s.closed, _, id, rfl⟩
  · exact ⟨true, _, fun _ => rfl, rfl⟩
  · split
    · exact ⟨true, _, fun _ => rfl, rfl⟩
    · exact ⟨s.closed, _, id, rfl⟩

theorem resume_orderly {rt : Runtime} (orderly : Orderly s) (there : s.calls[i]? = some g) {read : ℕ}
    {outcome : Except JsError (List UInt8)} (stage : g.stage = .reading read)
    (settled : outcome? s.reads read = some outcome) : Orderly (s.resume rt i g outcome) := by
  obtain ⟨closed, result, shut, same⟩ := resume_cases rt s i g outcome
  have gone := not_waits_of_settled orderly.sound ((outcome?_eq_some_iff orderly.sound).mp settled)
  rw [same]
  refine orderly.kept there (fun id inside reading => ?_) (fun id reading => ?_)
    (fun _ => .inl (Caller.active_begun (by rw [Caller.active, stage]))) (fun _ => rfl) shut (fun writing => ?_)
    fun writing => ?_
  · cases stage.symm.trans reading
    exact absurd inside gone
  · cases reading
  · cases stage.symm.trans writing
  · cases writing

theorem signal_orderly (orderly : Orderly s) (there : s.calls[i]? = some g) (signal : Option (Option JsError)) :
    Orderly (s.put i { g with signal := signal }) :=
  orderly.kept there (fun _ _ => id) (fun _ => id) .inl id id (fun writing => ⟨writing, rfl⟩) id

theorem abort_orderly (orderly : Orderly s) (g : Caller) (reason : JsError) : Orderly (s.abort g reason) := by
  rw [abort]
  split
  · exact orderly.reads rfl own_tooLong
  · exact orderly

theorem close_orderly (orderly : Orderly s) : Orderly s.close := by
  rw [close]
  split
  · exact orderly
  · rename_i fresh
    have last {rest : List (Option ℕ × List UInt8)} (last : Last s rest) : rest = [] := by
      rcases last with empty | ⟨_, closing⟩
      · exact empty
      · exact absurd closing fresh
    refine ⟨orderly.sound, orderly.terminal, orderly.waiter, orderly.early, orderly.turn, fun _ => rfl, ?_⟩
    cases orderly.writes with
    | idle none rest => exact .idle none (.inr ⟨congrArg (· ++ _) (last rest), rfl⟩)
    | one there stage first behind =>
        have outbox := congrArg (· ++ [(none, encodeRequestLine [opField "close"])]) first
        exact .one there stage outbox (.inr ⟨congrArg (· ++ _) (last behind), rfl⟩)

theorem Orderly.step {rt : Runtime} {std : NumberText} (orderly : Orderly s) {e : Event}
    (happened : Happened rt std s e t) : Orderly t := by
  cases happened with
  | @issued req timed signal =>
      obtain ⟨fresh, _, idle, unread⟩ := Caller.issue_fresh std req timed signal
      exact orderly.issued fresh idle unread
  | started there stage turn => exact callNow_orderly orderly there stage turn
  | flushed first => exact flush_orderly orderly first
  | read there stage => exact read_orderly orderly there stage
  | resumed there stage settled => exact resume_orderly orderly there stage settled
  | aborted there signal => exact abort_orderly (signal_orderly orderly there _) _ _
  | expired there stage => exact orderly.reads rfl own_tooLong
  | source => exact orderly.reads (Source.other _) (Source.own _)
  | closes => exact close_orderly orderly

end Steps

/-! ## The start -/

theorem start_orderly {reads : Reads} (sound : reads.Sound) (own : ∀ e, reads.reader.terminal = some e → Own e)
    (idle : reads.reader.waiters = []) : Orderly (start reads) := by
  refine ⟨sound, own, fun id inside => ?_, ?_, inTurn_nil, ?_, .idle ?_ (.inl rfl)⟩
  · rw [start, idle] at inside
    cases inside
  · rintro i g id ⟨⟩
  · rintro ⟨⟩
  · rintro i g ⟨⟩

end Session

end SanDbOxFormal.TypeScript
