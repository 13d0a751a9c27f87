import SanDbOxFormal.TypeScript.Conversing

/-!
# Requests and replies of the TypeScript driver

A reply does not say which request it is for, and a call may time out or be aborted at any moment,
while `close` writes without waiting for its turn.  Whatever the order of the callbacks, a run of a session
is a conversation in which the requests and the replies are paired by their place.
-/

namespace SanDbOxFormal.TypeScript

open SanDbOxFormal.Library
open SanDbOxFormal.Library.CappedFraming (progress)
open SanDbOxFormal.Library.Runs
open SanDbOxFormal.Library.Segments (complete)
open SanDbOxFormal.Library.Turns

namespace Session

/-! ## The calls -/

/-- What a call may fail with: an error of the driver, or the reason of its own signal. -/
def Caller.Blames (g : Caller) (e : JsError) : Prop := Own e ∨ g.signal = some (some e)

/-- What a call has been through. -/
inductive Story (rt : Runtime) (std : NumberText) (ds : List (Option (Conversation.Delivery UInt8))) (reads : Reads)
    (g : Caller) : Prop where
  | asks (built : g.req.record std = .ok g.record) (own : g.own = none) (stage : g.stage = .queued ∨ g.stage = .writing)
  | waits {place : ℕ} (built : g.req.record std = .ok g.record) (own : g.own = some place)
      (stage : g.stage = .wrote ∨ ∃ id ∈ reads.reader.waiters, g.stage = .reading id)
  | got {place id : ℕ} {line : List UInt8} (built : g.req.record std = .ok g.record) (own : g.own = some place) (stage : g.stage = .reading id)
      (settled : (id, .ok line) ∈ reads.settled) (delivered : some ⟨⟨place, content g.record⟩, line⟩ ∈ ds)
  | lost {place id : ℕ} {e : JsError} (built : g.req.record std = .ok g.record) (own : g.own = some place) (stage : g.stage = .reading id)
      (settled : (id, .error e) ∈ reads.settled) (blames : g.Blames e)
  | answered {place : ℕ} {line : List UInt8} (built : g.req.record std = .ok g.record) (own : g.own = some place)
      (delivered : some ⟨⟨place, content g.record⟩, line⟩ ∈ ds) (stage : g.stage = .settled (receive rt g.req line))
  | failed {e : JsError} (stage : g.stage = .settled (.error e)) (blames : g.Blames e)

/-- The stories of all calls. -/
def Stories (rt : Runtime) (std : NumberText) (s : Session) (ds : List (Option (Conversation.Delivery UInt8))) : Prop :=
  ∀ (i : ℕ) (g : Caller), s.calls[i]? = some g → Story rt std ds s.reads g

section Stories

variable {rt : Runtime} {std : NumberText} {ds ds' : List (Option (Conversation.Delivery UInt8))} {s t : Session}
  {reads : Reads} {i : ℕ} {g : Caller}

namespace Story

theorem more (story : Story rt std ds reads g) (more : ds ⊆ ds') : Story rt std ds' reads g := by
  cases story with
  | asks built own stage => exact .asks built own stage
  | waits built own stage => exact .waits built own stage
  | got built own stage settled delivered => exact .got built own stage settled (more delivered)
  | lost built own stage settled blames => exact .lost built own stage settled blames
  | answered built own delivered stage => exact .answered built own (more delivered) stage
  | failed stage blames => exact .failed stage blames

/-- A call that is not active does not depend on the reads. -/
theorem inactive (story : Story rt std ds reads g) (idle : g.active = false) (more : ds ⊆ ds') (reads' : Reads) :
    Story rt std ds' reads' g := by
  have busy {kind : Stage} (stage : g.stage = kind) (active : g.active = true) : Story rt std ds' reads' g := by
    cases idle.symm.trans active
  cases story with
  | asks built own stage => exact .asks built own stage
  | waits built own stage =>
      rcases stage with is | ⟨_, _, is⟩
      · exact busy is (by rw [Caller.active, is])
      · exact busy is (by rw [Caller.active, is])
  | got built own stage settled delivered => exact busy stage (by rw [Caller.active, stage])
  | lost built own stage settled blames => exact busy stage (by rw [Caller.active, stage])
  | answered built own delivered stage => exact .answered built own (more delivered) stage
  | failed stage blames => exact .failed stage blames

/-- The abort of a signal leaves the story as it is, since it happens once. -/
theorem aborted (story : Story rt std ds reads g) (live : g.signal = some none) (reason : JsError) :
    Story rt std ds reads { g with signal := some (some reason) } := by
  have still {e : JsError} (blames : g.Blames e) : Own e := by
    rcases blames with own | signal
    · exact own
    · cases live.symm.trans signal
  cases story with
  | asks built own stage => exact .asks built own stage
  | waits built own stage => exact .waits built own stage
  | got built own stage settled delivered => exact .got built own stage settled delivered
  | lost built own stage settled blames => exact .lost built own stage settled (.inl (still blames))
  | answered built own delivered stage => exact .answered built own delivered stage
  | failed stage blames => exact .failed stage (.inl (still blames))

theorem placed (story : Story rt std ds reads g) (stage : g.stage = .wrote ∨ ∃ id, g.stage = .reading id) :
    ∃ place, g.own = some place := by
  have other {kind : Stage} (is : g.stage = kind) (unlike : kind ≠ .wrote ∧ ∀ id, kind ≠ .reading id) :
      ∃ place, g.own = some place := by
    rcases stage with same | ⟨id, same⟩
    · exact absurd (is.symm.trans same) unlike.1
    · exact absurd (is.symm.trans same) (unlike.2 id)
  cases story with
  | asks built own is =>
      rcases is with is | is
      · exact other is ⟨by rintro ⟨⟩, fun id => by rintro ⟨⟩⟩
      · exact other is ⟨by rintro ⟨⟩, fun id => by rintro ⟨⟩⟩
  | waits built own is => exact ⟨_, own⟩
  | got built own is settled delivered => exact ⟨_, own⟩
  | lost built own is settled blames => exact ⟨_, own⟩
  | answered built own delivered is => exact other is ⟨by rintro ⟨⟩, fun id => by rintro ⟨⟩⟩
  | failed is blames => exact other is ⟨by rintro ⟨⟩, fun id => by rintro ⟨⟩⟩

theorem built (story : Story rt std ds reads g) (active : g.active = true) : g.req.record std = .ok g.record := by
  cases story with
  | asks built none stage => exact built
  | waits built own stage => exact built
  | got built own stage settled delivered => exact built
  | lost built own stage settled blames => exact built
  | answered built own delivered stage => exact built
  | failed stage blames =>
      rw [Caller.active, stage] at active
      cases active

theorem asking (story : Story rt std ds reads g) (stage : g.stage = .queued ∨ g.stage = .writing) :
    g.req.record std = .ok g.record ∧ g.own = none := by
  have other {kind : Stage} (is : g.stage = kind) (unlike : kind ≠ .queued ∧ kind ≠ .writing) :
      g.req.record std = .ok g.record ∧ g.own = none := by
    rcases stage with same | same
    · exact absurd (is.symm.trans same) unlike.1
    · exact absurd (is.symm.trans same) unlike.2
  cases story with
  | asks built own is => exact ⟨built, own⟩
  | waits built own is =>
      rcases is with is | ⟨_, _, is⟩
      · exact other is ⟨by rintro ⟨⟩, by rintro ⟨⟩⟩
      · exact other is ⟨by rintro ⟨⟩, by rintro ⟨⟩⟩
  | got built own is settled delivered => exact other is ⟨by rintro ⟨⟩, by rintro ⟨⟩⟩
  | lost built own is settled blames => exact other is ⟨by rintro ⟨⟩, by rintro ⟨⟩⟩
  | answered built own delivered is => exact other is ⟨by rintro ⟨⟩, by rintro ⟨⟩⟩
  | failed is blames => exact other is ⟨by rintro ⟨⟩, by rintro ⟨⟩⟩

/-- The reads move on. -/
theorem turned {late : JsError → Prop} {reads' : Reads} {o : Option (ℕ × Except JsError (List UInt8))}
    (story : Story rt std ds reads g) (turned : Reads.Turned late reads reads' o) (more : ds ⊆ ds')
    (line : ∀ (id : ℕ) (line : List UInt8) (place : ℕ), g.stage = .reading id → o = some (id, .ok line) →
      g.own = some place → some ⟨⟨place, content g.record⟩, line⟩ ∈ ds')
    (blames : ∀ (id : ℕ) (e : JsError), g.stage = .reading id → o = some (id, .error e) → g.Blames e) :
    Story rt std ds' reads' g := by
  have grown : reads.settled ⊆ reads'.settled := by
    cases turned with
    | quiet waiters settled timers listeners => exact settled ▸ List.Subset.refl _
    | settles waits idle settled why => exact settled ▸ List.subset_append_left _ _
  cases story with
  | asks built own stage => exact .asks built own stage
  | got built own stage settled delivered => exact .got built own stage (grown settled) (more delivered)
  | lost built own stage settled blames => exact .lost built own stage (grown settled) blames
  | answered built own delivered stage => exact .answered built own (more delivered) stage
  | failed stage blames => exact .failed stage blames
  | waits built own stage =>
      rcases stage with wrote | ⟨id, inside, reading⟩
      · exact .waits built own (.inl wrote)
      · cases turned with
        | quiet waiters settled timers listeners => exact .waits built own (.inr ⟨id, waiters ▸ inside, reading⟩)
        | @settles call outcome waits idle settled why =>
            rw [waits, List.mem_singleton] at inside
            subst inside
            have last : (id, outcome) ∈ reads'.settled := settled ▸ List.mem_append_right _ List.mem_cons_self
            cases outcome with
            | ok line' => exact .got built own reading last (line id line' _ reading rfl own)
            | error e => exact .lost built own reading last (blames id e reading rfl)

end Story

theorem Stories.set (stories : Stories rt std s ds) {g' : Caller} (calls : t.calls = s.calls.set i g')
    (reads : t.reads = s.reads) (more : ds ⊆ ds') (story : Story rt std ds' s.reads g') : Stories rt std t ds' := by
  intro j h after
  rw [calls] at after
  rw [reads]
  rcases getElem?_set_cases after with ⟨_, rfl⟩ | ⟨_, before⟩
  · exact story
  · exact (stories j h before).more more

theorem Stories.same (stories : Stories rt std s ds) (calls : t.calls = s.calls) (reads : t.reads = s.reads)
    (more : ds ⊆ ds') : Stories rt std t ds' := by
  intro j h after
  rw [calls] at after
  rw [reads]
  exact (stories j h after).more more

end Stories

/-! ## Places -/

/-- The request lines on the wire. -/
def requests (s : Session) : List (List UInt8) := complete lf s.outlet.accepted

/-- The calls that have been written have the places of their requests, in the order of the calls. -/
abbrev Placed (s : Session) : Prop :=
  Turns.Placed Caller.own (fun i j p q => i < j → p < q) s.calls s.requests.length

section Placed

variable {s : Session} {i : ℕ} {g : Caller}

/-- No call behind the one that is being written has been written. -/
theorem Orderly.written (orderly : Orderly s) (there : s.calls[i]? = some g) (stage : g.stage = .writing) {j : ℕ}
    {h : Caller} (before : s.calls[j]? = some h) (other : j ≠ i) {p : ℕ} (own : h.own = some p) : j < i := by
  refine lt_of_le_of_ne (Nat.le_of_not_lt fun behind => ?_) other
  have begun : h.begun = true := by rw [Caller.begun, own, Option.isSome_some, Bool.or_true]
  cases (Caller.active_unsettled (by rw [Caller.active, stage])).symm.trans
    (orderly.turn i j g h there before behind begun)

/-- The call that has just been written has the last place. -/
theorem Placed.sent (placed : Placed s) (orderly : Orderly s) (there : s.calls[i]? = some g) (stage : g.stage = .writing)
    {g' : Caller} {content accepted : List UInt8} (clean : lf ∉ content)
    (sent : accepted = s.outlet.accepted ++ (content ++ [lf])) (own : g'.own = some s.requests.length) :
    Turns.Placed Caller.own (fun i j p q => i < j → p < q) (s.calls.set i g') (complete lf accepted).length := by
  have longer : s.requests.length < (complete lf accepted).length := by
    rw [sent]
    exact Segments.complete_longer clean s.outlet.accepted
  refine placed.next longer own (fun less => absurd less (lt_irrefl i)) fun j p h before other at_ small => ⟨fun _ => small, ?_⟩
  intro behind
  exact absurd (behind.trans (orderly.written there stage before other at_)) (lt_irrefl i)

end Placed

/-! ## Steps -/

section Steps

variable {rt : Runtime} {std : NumberText} {s t : Session} {i : ℕ} {g : Caller}
  {ds : List (Option (Conversation.Delivery UInt8))}

/-- What a step does to the connection, and what the calls have been through behind it. -/
def Goes (rt : Runtime) (std : NumberText) (s t : Session) (ds : List (Option (Conversation.Delivery UInt8))) : Prop :=
  ∃ d, Connects s t d ∧ ∀ ds', ds ⊆ ds' → (∀ x, d = some x → some x ∈ ds') → Stories rt std t ds'

theorem own_of_foreign {e : JsError} (foreign : Foreign e) : Own e := by
  rintro code message rfl
  cases foreign

theorem encodeValue_foreign (std : NumberText) (v : ParamValue) : Throws Foreign (encodeValue std v) := by
  cases v with
  | null => exact Throws.ok _
  | bool b => exact Throws.error rfl
  | bigint n =>
      rw [encodeValue]
      split
      · exact Throws.error rfl
      · exact Throws.ok _
  | number v =>
      rw [encodeValue]
      split
      · exact Throws.error rfl
      · exact Throws.ok _
  | string s => exact Throws.ok _
  | bytes b => exact Throws.ok _
  | other typeName => exact Throws.error rfl

theorem encodeItems_foreign (std : NumberText) (i : ℕ) (params : List ParamValue) :
    Throws Foreign (encodeItems std i params) := by
  induction params generalizing i with
  | nil => exact Throws.ok _
  | cons v rest ih =>
      have numbered : Throws (fun e => Foreign (e.atParam i)) (encodeValue std v) := by
        refine (encodeValue_foreign std v).mono fun e foreign => ?_
        cases e <;> exact foreign
      rw [encodeItems]
      exact numbered.mapError.bind fun item _ => (ih (i + 1)).bind fun items _ => Throws.ok _

/-- A request that cannot be encoded fails with an error of the driver. -/
theorem record_own {req : Request} : Throws Own (req.record std) := by
  have sql (op : String) (text : JsString) (params : List ParamValue) : Throws Own (sqlRecord std op text params) := by
    refine Throws.bind ?_ fun encoded _ => Throws.ok _
    rw [encodeParams]
    split
    · exact Throws.ok _
    · refine Throws.bind ?_ fun items _ => Throws.ok _
      exact (encodeItems_foreign std 0 params).mono fun e => own_of_foreign
  cases req with
  | query text params => exact sql "query" text params
  | exec text params => exact sql "exec" text params
  | _ => exact Throws.ok _

theorem own_writeFailed (message : JsString) : Own (writeFailed message) := by
  intro code text same
  cases same

theorem own_connectionClosed : Own connectionClosed := by
  intro code text same
  cases same

theorem issued_goes (stories : Stories rt std s ds) (req : Request) (timed : Bool) (signal : Option (Option JsError)) :
    Goes rt std s { s with calls := s.calls ++ [.issue std req timed signal] } ds := by
  have fresh : (Caller.issue std req timed signal).active = false ∧
      ∀ ds', Story rt std ds' s.reads (Caller.issue std req timed signal) := by
    rw [Caller.issue]
    cases built : req.record std with
    | ok record => exact ⟨rfl, fun _ => .asks built rfl (.inl rfl)⟩
    | error e => exact ⟨rfl, fun _ => .failed rfl (.inl (record_own e built))⟩
  refine ⟨none, append_connects fresh.1, fun ds' more _ j h after => ?_⟩
  rcases getElem?_append_cases after with before | rfl
  · exact (stories j h before).more more
  · exact fresh.2 ds'

theorem callNow_goes (orderly : Orderly s) (stories : Stories rt std s ds) (there : s.calls[i]? = some g)
    (stage : g.stage = .queued) (turn : (s.calls.take i).all Caller.isSettled = true) :
    Goes rt std s (s.callNow i g) ds := by
  refine ⟨none, callNow_connects orderly there stage turn, fun ds' more _ => ?_⟩
  obtain ⟨built, own⟩ := (stories i g there).asking (.inl stage)
  rw [callNow]
  split
  · exact stories.set rfl rfl more (.failed rfl (.inl own_connectionClosed))
  · split
    · rename_i reason aborted
      exact stories.set rfl rfl more (.failed rfl (.inr aborted))
    · exact stories.set rfl rfl more (.asks built own (.inr rfl))

theorem flush_goes (laws : std.Lawful) (orderly : Orderly s) (stories : Stories rt std s ds)
    (broken : ∀ e, s.outlet.broken = some e → Own e) {fault : Option JsString} {who : Option ℕ} {line : List UInt8}
    {rest : List (Option ℕ × List UInt8)} (first : s.outbox = (who, line) :: rest) :
    Goes rt std s (s.flush fault who line rest) ds := by
  refine ⟨none, flush_connects orderly first fun i g there stage => ?_, fun ds' more _ => ?_⟩
  · obtain ⟨tokens, _⟩ := record_carried laws.tokens ((stories i g there).asking (.inr stage)).1
    exact ⟨encodeRequestLine_eq tokens, newline_not_mem_content tokens⟩
  · unfold flush
    dsimp only
    rcases orderly.head first with ⟨i, g, rfl, there, stage, rfl, last⟩ | ⟨rfl, rfl, rfl, closing, idle⟩
    · obtain ⟨built, _⟩ := (stories i g there).asking (.inr stage)
      rw [Option.bind_some, there, Option.map_some]
      dsimp only
      split
      · exact stories.set rfl rfl more (.waits built rfl (.inl rfl))
      · rename_i e failed
        refine stories.set rfl rfl more (.failed rfl (.inl ?_))
        rcases Outlet.write_error failed with before | fault
        · exact broken e before
        · obtain ⟨message, _, rfl⟩ := Option.map_eq_some_iff.mp fault
          exact own_writeFailed message
    · exact stories.same rfl rfl more

theorem read_goes (orderly : Orderly s) (stories : Stories rt std s ds) (there : s.calls[i]? = some g)
    (stage : g.stage = .wrote) :
    Goes rt std s
      ({ s with reads := s.reads.readLine g.timed g.signal }.put i { g with stage := .reading s.reads.calls }) ds := by
  obtain ⟨place, own⟩ := (stories i g there).placed (.inl stage)
  obtain ⟨d, connects, taken⟩ := read_connects orderly there stage own
  have built : g.req.record std = .ok g.record := (stories i g there).built (by rw [Caller.active, stage])
  refine ⟨d, connects, fun ds' more delivered j h after => ?_⟩
  rcases getElem?_set_cases after with ⟨_, rfl⟩ | ⟨other, before⟩
  · have last {outcome : Except JsError (List UInt8)} (settled : (s.reads.readLine g.timed g.signal).settled =
        s.reads.settled ++ [(s.reads.calls, outcome)]) :
        (s.reads.calls, outcome) ∈ (s.reads.readLine g.timed g.signal).settled :=
      settled ▸ List.mem_append_right _ List.mem_cons_self
    cases Reads.readLine_begun (orderly.idle there (.inr stage)) g.timed g.signal with
    | waits running settled timer listener => exact .waits built own (.inr ⟨_, running ▸ List.mem_cons_self, rfl⟩)
    | line queued idle settled =>
        exact .got built own rfl (last settled) (delivered _ (taken _ (last settled)))
    | @ended err idle settled terminal queue =>
        have before := (Reads.readLine_terminal s.reads g.timed g.signal).1 err terminal
        exact .lost built own rfl (last settled) (.inl (orderly.terminal err before))
    | aborted reason idle settled => exact .lost built own rfl (last settled) (.inr reason)
  · refine ((stories j h before).inactive ?_ more _)
    refine Bool.eq_false_iff.mpr fun active => other ?_
    exact (orderly.alone before there active (by rw [Caller.active, stage])).1

/-- What a call makes of the error of its read. -/
theorem resume_error (rt : Runtime) (s : Session) (i : ℕ) (g : Caller) (e : JsError) :
    ∃ (closed : Bool) (r : JsError), (g.Blames e → g.Blames r) ∧
      s.resume rt i g (.error e) = { s with closed, calls := s.calls.set i { g with stage := .settled (.error r) } } := by
  unfold resume
  split
  · rename_i same
    cases same
  · rename_i same
    cases same
    exact ⟨true, _, id, rfl⟩
  · rename_i same
    cases same
    split
    · rename_i reason aborted
      exact ⟨true, _, fun _ => .inr aborted, rfl⟩
    · rename_i live
      refine ⟨s.closed, _, fun blames => .inl ?_, rfl⟩
      have own := blames.resolve_right (live e)
      split
      · exact own
      · intro code message same
        cases same

theorem resume_goes (orderly : Orderly s) (stories : Stories rt std s ds) (there : s.calls[i]? = some g) {read : ℕ}
    {outcome : Except JsError (List UInt8)} (stage : g.stage = .reading read)
    (settled : outcome? s.reads read = some outcome) : Goes rt std s (s.resume rt i g outcome) ds := by
  refine ⟨none, resume_connects orderly there stage settled, fun ds' more _ => ?_⟩
  have settled := (outcome?_eq_some_iff orderly.sound).mp settled
  have once := (List.nodup_append.mp orderly.sound.nodup).1
  have same {id : ℕ} {outcome' : Except JsError (List UInt8)} (is : g.stage = .reading id)
      (inside : (id, outcome') ∈ s.reads.settled) : outcome = outcome' := by
    cases stage.symm.trans is
    exact congrArg Prod.snd (List.inj_on_of_nodup_map once settled inside rfl)
  have ended {line : List UInt8} (ok : outcome = .ok line) : ∃ place, g.req.record std = .ok g.record ∧
      g.own = some place ∧ some ⟨⟨place, content g.record⟩, line⟩ ∈ ds := by
    cases stories i g there with
    | asks _ _ is => rcases is with is | is <;> cases stage.symm.trans is
    | waits _ _ is =>
        rcases is with is | ⟨id, inside, is⟩
        · cases stage.symm.trans is
        · cases stage.symm.trans is
          exact absurd inside (not_waits_of_settled orderly.sound settled)
    | got built own is got delivered =>
        cases ok.symm.trans (same is got)
        exact ⟨_, built, own, delivered⟩
    | lost _ _ is lost _ => cases ok.symm.trans (same is lost)
    | answered _ _ _ is => cases stage.symm.trans is
    | failed is _ => cases stage.symm.trans is
  have blames {e : JsError} (failed : outcome = .error e) : g.Blames e := by
    cases stories i g there with
    | asks _ _ is => rcases is with is | is <;> cases stage.symm.trans is
    | waits _ _ is =>
        rcases is with is | ⟨id, inside, is⟩
        · cases stage.symm.trans is
        · cases stage.symm.trans is
          exact absurd inside (not_waits_of_settled orderly.sound settled)
    | got _ _ is got _ => cases failed.symm.trans (same is got)
    | lost _ _ is lost blames =>
        cases failed.symm.trans (same is lost)
        exact blames
    | answered _ _ _ is => cases stage.symm.trans is
    | failed is _ => cases stage.symm.trans is
  cases outcome with
  | ok line =>
      obtain ⟨place, built, own, delivered⟩ := ended rfl
      exact stories.set rfl rfl more (.answered built own (more delivered) rfl)
  | error e =>
      obtain ⟨closed, r, still, same⟩ := resume_error rt s i g e
      rw [same]
      exact stories.set rfl rfl more (.failed rfl (still (blames rfl)))

/-- The reads move on by themselves; what the active call may be given up with is its own. -/
theorem turn_goes (orderly : Orderly s) (stories : Stories rt std s ds) {event : Reads.Event}
    (other : Reads.isRead event = false) (own : Own event.brings)
    (late : ∀ (i : ℕ) (g : Caller) (id : ℕ) (e : JsError), s.calls[i]? = some g → g.stage = .reading id →
      event.late e → g.Quits e ∧ g.Blames e) : Goes rt std s { s with reads := s.reads.step event } ds := by
  obtain ⟨o, turned⟩ := Reads.step_turned orderly.sound orderly.single other
  obtain ⟨d, connects, taken⟩ := turned_connects orderly turned
    (fun i g id there stage => Option.isSome_iff_exists.mpr ((stories i g there).placed (.inr ⟨id, stage⟩)))
    (fun i g id e there stage why => (late i g id e there stage why).1)
  refine ⟨d, connects, fun ds' more delivered i g there => (stories i g there).turned turned more ?_ ?_⟩
  · intro id line place stage same own
    exact delivered _ (taken i g id line place there stage same own)
  · intro id e stage same
    cases turned with
    | quiet waiters settled timers listeners => cases same
    | settles waits idle settled why =>
        cases same
        rcases why e rfl with ⟨terminal, _⟩ | given
        · exact .inl ((orderly.reads other own).terminal e terminal)
        · exact (late i g id e there stage given).2

theorem signal_goes (orderly : Orderly s) (stories : Stories rt std s ds) (there : s.calls[i]? = some g)
    (live : g.signal = some none) (reason : JsError) :
    Goes rt std s (s.put i { g with signal := some (some reason) }) ds :=
  ⟨none, signal_connects orderly there reason, fun _ more _ =>
    stories.set rfl rfl more (((stories i g there).aborted live reason).more more)⟩

/-- The read of the active call hears the signal. -/
theorem abort_goes (orderly : Orderly s) (stories : Stories rt std s ds) {h : Caller} (there : s.calls[i]? = some h)
    {reason : JsError} (aborted : h.signal = some (some reason)) (stage : g.stage = h.stage) :
    Goes rt std s (s.abort g reason) ds := by
  rw [abort]
  split
  · rename_i read reading
    refine turn_goes orderly stories rfl own_tooLong fun j h' id e there' reading' why => ?_
    cases why
    have is := stage.symm.trans reading
    obtain ⟨_, rfl⟩ := orderly.alone there there' (by rw [Caller.active, is]) (by rw [Caller.active, reading'])
    exact ⟨.inr ⟨reason, aborted⟩, .inr aborted⟩
  · exact ⟨none, .quiet (fun _ => id) rfl (fun _ => Iff.rfl) id, fun _ more _ => stories.same rfl rfl more⟩

theorem own_timedOut : Own Reads.timedOut := by
  intro code message same
  cases same

/-- What holds of a session and of the conversation behind it. -/
structure Paired (rt : Runtime) (std : NumberText) (all : List (List UInt8)) (s : Session) : Prop where
  orderly : Orderly s
  placed : Placed s
  broken : ∀ e, s.outlet.broken = some e → Own e
  talk : ∃ ds c, Run (Conversation.Step lf) (Conversation.init all.tail) ds c ∧ Matched all s c ∧ Stories rt std s ds

theorem Paired.goes {all : List (List UInt8)} (paired : Paired rt std all s) (orderly : Orderly t) (placed : Placed t)
    (broken : ∀ e, t.outlet.broken = some e → Own e) (goes : ∀ ds, Stories rt std s ds → Goes rt std s t ds)
    (within : t.reads.flow <+: all) : Paired rt std all t := by
  obtain ⟨ds, c, talk, matched, stories⟩ := paired.talk
  obtain ⟨d, connects, told⟩ := goes ds stories
  obtain ⟨more, c', delivered, ran, matches'⟩ := connects.converse matched within
  refine ⟨orderly, placed, broken, ds ++ more, c', talk.append ran, matches', told _ ?_ fun x same => ?_⟩
  · exact List.subset_append_left ds more
  · exact List.mem_append_right ds (delivered x same)

theorem flush_placed (placed : Placed s) (orderly : Orderly s) (laws : std.Lawful) (stories : Stories rt std s ds)
    {fault : Option JsString} {who : Option ℕ} {line : List UInt8} {rest : List (Option ℕ × List UInt8)}
    (first : s.outbox = (who, line) :: rest) : Placed (s.flush fault who line rest) := by
  unfold flush
  dsimp only
  rcases wrote : s.outlet.write (fault.map writeFailed) line with ⟨result, outlet⟩
  have sent := Outlet.write_wrote wrote
  have grown : s.requests.length ≤ (complete lf outlet.accepted).length := by
    have longer : s.outlet.accepted <+: outlet.accepted := by
      cases sent with
      | through live still grown => exact grown ▸ List.prefix_append _ _
      | failed dead same => exact same ▸ List.prefix_rfl
    exact (Segments.complete_mono longer).length_le
  rcases orderly.head first with ⟨i, g, rfl, there, stage, rfl, last⟩ | ⟨rfl, rfl, rfl, closing, idle⟩
  · obtain ⟨tokens, _⟩ := record_carried laws.tokens ((stories i g there).asking (.inr stage)).1
    rw [Option.bind_some, there, Option.map_some]
    dsimp only
    cases sent with
    | failed dead same => exact placed.set there grown rfl
    | through live still written =>
        refine Placed.sent placed orderly there stage (newline_not_mem_content tokens) ?_ rfl
        rw [← encodeRequestLine_eq tokens]
        exact written
  · exact placed.mono grown

theorem flush_outlet {fault : Option JsString} {who : Option ℕ} {line : List UInt8}
    {rest : List (Option ℕ × List UInt8)} :
    (s.flush fault who line rest).outlet = (s.outlet.write (fault.map writeFailed) line).2 := by
  unfold flush
  dsimp only
  split
  · rfl
  · split <;> rfl

theorem Paired.step (laws : std.Lawful) {all : List (List UInt8)} {e : Event} (paired : Paired rt std all s)
    (happened : Happened rt std s e t) (flow : s.reads.flow <+: t.reads.flow) (within : t.reads.flow <+: all) :
    Paired rt std all t := by
  have next := paired.orderly.step happened
  have orderly := paired.orderly
  have placed := paired.placed
  have broken := paired.broken
  cases happened with
  | @issued req timed signal =>
      exact paired.goes next (placed.append (Caller.issue_fresh std req timed signal).2.1) broken
        (fun ds stories => issued_goes stories req timed signal) within
  | @started i g there stage turn =>
      refine paired.goes next ?_ ?_ (fun ds stories => callNow_goes orderly stories there stage turn) ?_
      · unfold callNow
        split
        · exact placed.set there le_rfl rfl
        · split <;> exact placed.set there le_rfl rfl
      · unfold callNow
        split
        · exact broken
        · split <;> exact broken
      · exact within
  | @flushed fault who line rest first =>
      obtain ⟨ds, _, _, _, stories⟩ := paired.talk
      refine paired.goes next (flush_placed placed orderly laws stories first) (fun e fails => ?_)
        (fun ds stories => flush_goes laws orderly stories broken first) within
      rw [flush_outlet] at fails
      rcases Outlet.write_broken fails with before | fault
      · exact broken e before
      · obtain ⟨message, _, rfl⟩ := Option.map_eq_some_iff.mp fault
        exact own_writeFailed message
  | @read i g there stage =>
      exact paired.goes next (placed.set there le_rfl rfl) broken
        (fun ds stories => read_goes orderly stories there stage) within
  | @resumed i g read outcome there stage settled =>
      obtain ⟨closed, result, _, same⟩ := resume_cases rt s i g outcome
      refine paired.goes next ?_ ?_ (fun ds stories => resume_goes orderly stories there stage settled) within
      · rw [same]
        exact placed.set there le_rfl rfl
      · rw [same]
        exact broken
  | @aborted i g reason there live =>
      have middle : Paired rt std all (s.put i { g with signal := some (some reason) }) :=
        paired.goes (signal_orderly orderly there _) (placed.set there le_rfl rfl) broken
          (fun ds stories => signal_goes orderly stories there live reason) (flow.trans within)
      have small := (List.getElem?_eq_some_iff.mp there).1
      refine middle.goes next ?_ ?_
        (fun ds stories => abort_goes middle.orderly stories (List.getElem?_set_self small) rfl rfl) within
      · unfold abort
        split <;> exact middle.placed
      · unfold abort
        split <;> exact broken
  | @expired i g read there stage =>
      refine paired.goes next placed broken (fun ds stories => ?_) within
      refine turn_goes orderly stories rfl own_tooLong fun j h id e _ _ why => ?_
      cases why
      exact ⟨.inl ⟨_, rfl⟩, .inl own_timedOut⟩
  | @source e =>
      refine paired.goes next placed broken (fun ds stories => ?_) within
      refine turn_goes orderly stories (Source.other e) (Source.own e) fun j h id err _ _ why => ?_
      cases e <;> exact why.elim
  | closes =>
      refine paired.goes next ?_ ?_ (fun ds stories => ⟨none, close_connects, fun _ more _ => ?_⟩) within
      · unfold close
        split <;> exact placed
      · unfold close
        split <;> exact broken
      · unfold close
        split
        · exact stories.same rfl rfl more
        · exact stories.same rfl rfl more

end Steps

/-! ## Runs -/

section Runs

variable {rt : Runtime} {std : NumberText} {s t : Session} {es : List Event}

theorem source_sources (e : Source) : Reads.Event.sources e.event = true := by
  cases e <;> rfl

/-- What an event does to the reads. -/
theorem Happened.reads {e : Event} (happened : Happened rt std s e t) :
    ∃ more, t.reads = s.reads.run more ∧ more.filter Reads.Event.sources = e.source?.toList := by
  have still (same : t.reads = s.reads) (silent : e.source? = none) :
      ∃ more, t.reads = s.reads.run more ∧ more.filter Reads.Event.sources = e.source?.toList :=
    ⟨[], same, by rw [silent]; rfl⟩
  cases happened with
  | issued => exact still rfl rfl
  | started there stage turn =>
      refine still ?_ rfl
      unfold callNow
      split
      · rfl
      · split <;> rfl
  | flushed first =>
      refine still ?_ rfl
      unfold flush
      dsimp only
      split
      · rfl
      · split <;> rfl
  | @read i g there stage => exact ⟨[.readLine g.timed g.signal], rfl, rfl⟩
  | @resumed i g read outcome there stage settled =>
      obtain ⟨closed, result, _, same⟩ := resume_cases rt s i g outcome
      refine still ?_ rfl
      rw [same]
  | @aborted i g reason there live =>
      unfold abort
      split
      · rename_i read reading
        exact ⟨[.abort read reason], rfl, rfl⟩
      · exact ⟨[], rfl, rfl⟩
  | @expired i g read there stage => exact ⟨[.timer read], rfl, rfl⟩
  | @source e =>
      refine ⟨[e.event], rfl, ?_⟩
      rw [List.filter_cons_of_pos (source_sources e)]
      rfl
  | closes =>
      refine still ?_ rfl
      unfold close
      split <;> rfl

theorem run_reads (run : Run (Step rt std) s es t) :
    ∃ more, t.reads = s.reads.run more ∧ more.filter Reads.Event.sources = es.filterMap Event.source? := by
  induction run with
  | nil s => exact ⟨[], rfl, rfl⟩
  | @cons s u t e es first rest ih =>
      obtain ⟨more, later, sources⟩ := ih
      obtain ⟨now, first, source⟩ := (step_happened first).reads
      refine ⟨now ++ more, ?_, ?_⟩
      · rw [later, first, Reads.run_append]
      · rw [List.filter_append, source, sources, List.filterMap_cons]
        cases e.source? <;> rfl

theorem run_flow (run : Run (Step rt std) s es t) (orderly : Orderly s) : s.reads.flow <+: t.reads.flow := by
  obtain ⟨more, same, _⟩ := run_reads run
  exact same ▸ Reads.run_flow_grows orderly.sound more

/-- A run is one conversation over the lines that have come by its end. -/
theorem run_paired (laws : std.Lawful) {all : List (List UInt8)} (run : Run (Step rt std) s es t)
    (paired : Paired rt std all s) (within : t.reads.flow <+: all) : Paired rt std all t := by
  induction run with
  | nil s => exact paired
  | cons first rest ih =>
      have happened := step_happened first
      have flow := run_flow (.single first) paired.orderly
      exact ih (paired.step laws happened flow ((run_flow rest (paired.orderly.step happened)).trans within)) within

/-! ## The opening -/

theorem opening_run (before : List Opening) :
    (∀ e, (Reads.start.run (before.map Opening.event)).reader.terminal = some e → Own e) := by
  induction before using List.reverseRecOn with
  | nil => rintro e ⟨⟩
  | append_singleton before event ih =>
      rw [List.map_append, Reads.run_append]
      intro e terminal
      have other (other : Reads.isRead event.event = false) (own : Own event.event.brings) : Own e := by
        rcases (Reads.step_terminal other).1 e terminal with earlier | rfl
        · exact ih e earlier
        · exact own
      cases event with
      | source source => exact other (Source.other source) (Source.own source)
      | read timed => exact ih e ((Reads.readLine_terminal _ timed none).1 e terminal)
      | timer => exact other rfl own_tooLong

/-- Behind a connect the hello line has been taken, and no read waits. -/
theorem opened_ok {shown : JsString → JsString} {before : List Opening} {hello : Hello} {opening : Session}
    (opened : opened rt shown before = some (.ok hello, opening)) :
    opening = start (Reads.start.run (before.map Opening.event)) ∧
      opening.reads.reader.waiters = [] ∧ ∃ line, opening.reads.settled = [(0, .ok line)] := by
  have sound := Reads.run_sound Reads.start_sound (before.map Opening.event)
  unfold Session.opened at opened
  dsimp only at opened
  split at opened
  · rename_i one
    obtain ⟨outcome, found, same⟩ := Option.map_eq_some_iff.mp opened
    obtain ⟨read, rfl⟩ := Prod.mk.inj same
    have inside := (outcome?_eq_some_iff sound).mp found
    have size := sound.once.length_eq
    rw [one, List.length_append, List.length_map, List.length_range] at size
    have settled : (Reads.start.run (before.map Opening.event)).settled = [(0, outcome)] := by
      rcases shape : (Reads.start.run (before.map Opening.event)).settled with _ | ⟨first, _ | ⟨second, more⟩⟩
      · rw [shape] at inside
        cases inside
      · rw [shape] at inside
        rw [List.mem_singleton.mp inside]
      · rw [shape, List.length_cons, List.length_cons] at size
        omega
    refine ⟨rfl, ?_, ?_⟩
    · rw [settled, List.length_singleton] at size
      exact List.length_eq_zero_iff.mp (Nat.add_left_cancel size)
    · cases outcome with
      | error e => cases read
      | ok line => exact ⟨line, settled⟩
  · cases opened

theorem opened_paired {shown : JsString → JsString} {before : List Opening} {hello : Hello} {opening : Session}
    (opened : Session.opened rt shown before = some (.ok hello, opening)) (all : List (List UInt8)) :
    Paired rt std all opening := by
  obtain ⟨rfl, idle, line, settled⟩ := opened_ok opened
  have sound := Reads.run_sound Reads.start_sound (before.map Opening.event)
  have none {p : Conversation.Pending UInt8} (due : Due (start (Reads.start.run (before.map Opening.event))) p) : False := by
    obtain ⟨i, g, there, _⟩ := due
    cases there
  refine ⟨start_orderly sound (opening_run before) idle, ⟨?_, ?_⟩, ?_, [], _, .nil _, ⟨.inl rfl, ?_, fun _ => ?_, fun _ p => ?_⟩, ?_⟩
  · rintro i g place ⟨⟩
  · rintro i j g h p q ⟨⟩
  · rintro e ⟨⟩
  · rintro ⟨⟩
  · rw [handed, settled]
    exact List.drop_one.symm
  · exact ⟨fun same => (by cases same), fun due => (none due).elim⟩
  · rintro i g ⟨⟩

/-! ## Answers -/

/-- The lines of the chunks that have come, up to the end of the source. -/
def received (before : List Opening) (events : List Event) : List (List UInt8) :=
  (progress lf maxLineBytes (Reads.chunks (before.map Opening.event ++ events.filterMap Event.source?))).lines

/-- What a call gets: the reply at the place of its own request, or an error that is the driver's own or
the reason of its own signal. -/
def Answered (rt : Runtime) (std : NumberText) (s : Session) (replies : List (List UInt8)) (g : Caller)
    (outcome : Except JsError (Option Result)) : Prop :=
  (∃ (place : ℕ) (record : Record) (line : List UInt8), g.own = some place ∧ g.req.record std = .ok record ∧
    s.requests[place]? = some (content record) ∧ replies[place]? = some line ∧ outcome = receive rt g.req line) ∨
  ∃ e, outcome = .error e ∧ g.Blames e

theorem run_received {shown : JsString → JsString} {before : List Opening} {hello : Hello} {opening : Session}
    (opened : Session.opened rt shown before = some (.ok hello, opening)) (run : Run (Step rt std) opening es s) :
    s.reads.flow = received before es := by
  obtain ⟨rfl, _, _⟩ := opened_ok opened
  obtain ⟨more, same, sources⟩ := run_reads run
  have whole : s.reads = Reads.start.run (before.map Opening.event ++ more) := same.trans (Reads.run_append _ _ _).symm
  have silent : (es.filterMap Event.source?).filter Reads.Event.sources = es.filterMap Event.source? := by
    refine List.filter_eq_self.mpr fun event inside => ?_
    obtain ⟨e, _, told⟩ := List.mem_filterMap.mp inside
    cases e with
    | source e =>
        cases told
        exact source_sources e
    | _ => cases told
  rw [whole, Reads.flow, (Reads.reads_fifo _).lines, received, ← Reads.chunks_sources, List.filter_append, sources, ← silent,
    ← List.filter_append, Reads.chunks_sources, silent]

/-- However calls are issued, time out, are aborted or fail, whatever the source and the stream do and whenever
`close` comes: a call that has settled was answered by the reply at the place of its own request, which is on the wire at
that place, or failed with an error that no server sent; the requests are on the wire in the order
of the calls; and no two calls are between their write and the end of their read. -/
theorem promises_paired (rt : Runtime) (std : NumberText) (laws : std.Lawful) (shown : JsString → JsString)
    (before : List Opening) (hello : Hello) (opening : Session)
    (opened : Session.opened rt shown before = some (.ok hello, opening)) (events : List Event) (s : Session)
    (run : Run (Step rt std) opening events s) :
    (∀ g ∈ s.calls, ∀ outcome, g.stage = .settled outcome →
      Answered rt std s (received before events).tail g outcome) ∧
    (∀ (i j : ℕ) (g h : Caller) (p q : ℕ), s.calls[i]? = some g → s.calls[j]? = some h → i < j →
      g.own = some p → h.own = some q → p < q) ∧
    ∀ (i j : ℕ) (g h : Caller), s.calls[i]? = some g → s.calls[j]? = some h → g.active = true → h.active = true →
      i = j := by
  have flow := run_received opened run
  obtain ⟨orderly, placed, _, ds, c, talk, matched, stories⟩ :=
    run_paired laws run (opened_paired opened s.reads.flow) List.prefix_rfl
  refine ⟨fun g inside outcome settled => ?_, fun i j g h p q there there' less own own' =>
    placed.agrees i j g h p q there there' own own' less, fun i j g h there there' active active' =>
    (orderly.alone there there' active active').1⟩
  obtain ⟨i, there⟩ := List.mem_iff_getElem?.mp inside
  cases stories i g there with
  | asks _ _ stage => rcases stage with is | is <;> cases settled.symm.trans is
  | waits _ _ stage => rcases stage with is | ⟨_, _, is⟩ <;> cases settled.symm.trans is
  | got _ _ is _ _ => cases settled.symm.trans is
  | lost _ _ is _ _ => cases settled.symm.trans is
  | failed is blames =>
      cases settled.symm.trans is
      exact .inr ⟨_, rfl, blames⟩
  | @answered place line built own delivered is =>
      cases settled.symm.trans is
      obtain ⟨sent, reply⟩ := Conversation.run_paired talk _ delivered
      have grown : c.accepted <+: s.outlet.accepted := by
        rcases matched.wire with same | ⟨_, _, same⟩
        · exact same ▸ List.prefix_rfl
        · exact same ▸ List.prefix_append _ _
      exact .inl ⟨place, g.record, line, own, built, Segments.complete_kept grown sent, flow ▸ reply, rfl⟩

end Runs

/-! ## A session -/

def sampleHost : Runtime := ⟨2, 2, 2, fun _ => [], id⟩

def sampleHello : Hello := ⟨lit "1", [], lit "x"⟩

def sampleHelloLine : List UInt8 := Utf8.bytes "\x7b\"protocol\":1,\"version\":\"\",\"product\":\"x\"\x7d"

def sampleBefore : List Opening := [.read true, .source (.data (sampleHelloLine ++ [lf]))]

def sampleReads : Reads := Reads.start.run (sampleBefore.map Opening.event)

theorem sample_opened (shown : JsString → JsString) :
    opened sampleHost shown sampleBefore = some (.ok sampleHello, start sampleReads) := by
  have token : Protocol.IntegerToken ['1'] 1 := .whole (.digits rfl (by decide) Rfc8259.Digits.nil)
  have one : isOne sampleHello.protocol = true := (isOne_integer token).mpr rfl
  have decoded : decodeHello sampleHost sampleHelloLine = .ok sampleHello := by decide +kernel
  have found : outcome? sampleReads 0 = some (.ok sampleHelloLine) := by decide +kernel
  have single : sampleReads.calls = 1 := by decide +kernel
  have read : readHello sampleHost shown (.ok sampleHelloLine) = (.ok sampleHello, false) := by
    rw [readHello, decoded]
    exact if_pos one
  unfold opened
  change (if sampleReads.calls = 1 then (outcome? sampleReads 0).map fun outcome =>
    ((readHello sampleHost shown outcome).1, start sampleReads) else none) = _
  rw [if_pos single, found, Option.map_some, read]

def sampleReply : List UInt8 := Utf8.bytes "\x7b\"ok\":true,\"tables\":[]\x7d\n"

def sampleEvents : List Event :=
  [.issued .tables false (some none), .issued .inspect true none, .started 0, .flushed none, .read 0,
    .source (.data sampleReply), .closes, .resumed 0, .flushed none, .started 1]

/-- A call is answered while the next one is queued, and `close` comes between them. -/
theorem promises_paired_sample :
    ∃ s, Run (Step sampleHost sampleNumberText) (start sampleReads) sampleEvents s ∧
      (∀ g ∈ s.calls, ∀ outcome, g.stage = .settled outcome →
        Answered sampleHost sampleNumberText s (received sampleBefore sampleEvents).tail g outcome) ∧
      (∀ (i j : ℕ) (g h : Caller) (p q : ℕ), s.calls[i]? = some g → s.calls[j]? = some h → i < j →
        g.own = some p → h.own = some q → p < q) ∧
      ∀ (i j : ℕ) (g h : Caller), s.calls[i]? = some g → s.calls[j]? = some h → g.active = true → h.active = true →
        i = j := by
  obtain ⟨s, run⟩ : ∃ s, Run (Step sampleHost sampleNumberText) (start sampleReads) sampleEvents s :=
    ⟨_, .cons rfl (.cons rfl (.cons rfl (.cons rfl (.cons rfl (.cons rfl (.cons rfl (.cons rfl (.cons rfl (.cons rfl
      (.nil _))))))))))⟩
  exact ⟨s, run, promises_paired sampleHost sampleNumberText sampleNumberText_lawful id sampleBefore sampleHello _
    (sample_opened id) sampleEvents s run⟩

end Session

end SanDbOxFormal.TypeScript
