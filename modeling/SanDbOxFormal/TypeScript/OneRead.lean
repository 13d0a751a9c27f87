import SanDbOxFormal.TypeScript.Reads

/-!
# One read at a time

A session reads only when it has nothing else to wait for, so its line reader never has
more than one waiter.  What an event does is then said of that one read.
-/

namespace SanDbOxFormal.TypeScript

namespace Reads

/-- No read gets a line any more. -/
def Dead (s : Reads) : Prop := s.reader.terminal.isSome = true ∧ s.reader.queue = []

/-- What a callback of the source does. -/
inductive Served (s t : Reads) : Prop where
  | quiet (waiters : t.reader.waiters = s.reader.waiters) (settled : t.settled = s.settled)
      (timers : t.timers = s.timers) (listeners : t.listeners = s.listeners)
  | line {call : Nat} {line : List UInt8} (waits : s.reader.waiters = [call]) (idle : t.reader.waiters = [])
      (settled : t.settled = s.settled ++ [(call, .ok line)])
  | ended {call : Nat} {err : JsError} (waits : s.reader.waiters = [call]) (idle : t.reader.waiters = [])
      (settled : t.settled = s.settled ++ [(call, .error err)]) (terminal : t.reader.terminal = some err)
      (queue : t.reader.queue = [])

/-- A loop that hands nothing out while somebody waits has found no line. -/
theorem scan_fruitless {r : LineReader Nat} {piece chunk : List UInt8} (waits : r.waiters ≠ [])
    (none : (r.scan piece chunk).2.2 = []) : (r.scan piece chunk).1.queue = r.queue := by
  induction chunk generalizing piece with
  | nil => rfl
  | cons b bs ih =>
      rw [LineReader.scan] at none ⊢
      split at none
      · rename_i other
        rw [if_pos other]
        exact ih none
      · obtain ⟨nothing, _⟩ := List.append_eq_nil_iff.mp none
        rw [LineReader.deliver] at nothing
        split at nothing
        · cases nothing
        · rename_i idle
          exact absurd idle waits

theorem Sound.served {s : Reads} (sound : s.Sound) (single : s.reader.waiters.length ≤ 1)
    {out : LineReader.Settled Nat} {reader : LineReader Nat} (handed : Handed s.reader out reader)
    (last : ∀ call err, out = [(call, .error err)] → reader.terminal = some err ∧ reader.queue = []) :
    Served s ({ s with reader }.settle out) := by
  obtain ⟨_, same, settled, _⟩ := sound.handed handed
  have waiters := handed.waiters
  rcases out with _ | ⟨⟨call, outcome⟩, more⟩
  · exact .quiet ((congrArg LineReader.waiters same).trans waiters.symm) (settled.trans (List.append_nil _)) rfl rfl
  · rw [waiters, List.map_cons, List.cons_append, List.length_cons, List.length_append, List.length_map] at single
    have others : more = [] := List.length_eq_zero_iff.mp (by omega)
    have idle : reader.waiters = [] := List.length_eq_zero_iff.mp (by omega)
    subst others
    rw [idle] at waiters
    cases outcome with
    | ok line => exact .line waiters ((congrArg LineReader.waiters same).trans idle) settled
    | error err =>
        obtain ⟨terminal, queue⟩ := last call err rfl
        exact .ended waiters ((congrArg LineReader.waiters same).trans idle) settled
          ((congrArg LineReader.terminal same).trans terminal) ((congrArg LineReader.queue same).trans queue)

/-- A waiter that a chunk leaves without a line leaves an empty queue. -/
theorem onData_fruitless {r : LineReader Nat} (prompt : r.Prompt) {chunk : List UInt8} {call : Nat} {err : JsError}
    (waits : r.waiters ≠ []) (failed : (r.onData chunk).2 = [(call, .error err)]) :
    (r.onData chunk).1.terminal = some err ∧ (r.onData chunk).1.queue = [] := by
  have empty : r.queue = [] := prompt.resolve_right waits
  have terminal : (r.onData chunk).1.terminal = some err := by
    rcases onData_outcomes _ (failed ▸ List.mem_cons_self) with ⟨line, same⟩ | ⟨e, same, ended⟩
    · cases same
    · cases same
      exact ended
  refine ⟨terminal, ?_⟩
  have lines := scan_lines r [] chunk
  rw [LineReader.onData] at failed ⊢
  split at failed
  · cases failed
  · rename_i running
    rw [if_neg running]
    dsimp only at failed ⊢
    split at failed
    · rw [failed] at lines
      obtain ⟨line, same⟩ := lines _ List.mem_cons_self
      cases same
    · rename_i some
      rw [if_neg some]
      split at failed
      · rename_i long
        rw [if_pos long]
        have none : (r.scan [] chunk).2.2 = [] := by
          cases scanned : (r.scan [] chunk).2.2 with
          | nil => rfl
          | cons first rest =>
              rw [scanned] at failed lines
              obtain ⟨line, same⟩ := lines first List.mem_cons_self
              obtain ⟨head, _⟩ := List.cons.inj failed
              rw [head] at same
              cases same
        have queue := scan_fruitless waits none
        rw [LineReader.terminate]
        split <;> exact queue.trans empty
      · rw [failed] at lines
        obtain ⟨line, same⟩ := lines _ List.mem_cons_self
        cases same

theorem terminate_served {s : Reads} (sound : s.Sound) (single : s.reader.waiters.length ≤ 1) (err : JsError) :
    Served s (s.terminate err) := by
  refine sound.served single (terminate_handed _ err) fun call e failed => ?_
  have handed := (terminate_handed s.reader err).waiters
  rw [failed] at handed
  have empty : s.reader.queue = [] := sound.prompt.resolve_right (handed ▸ List.cons_ne_nil _ _)
  obtain ⟨same, ended⟩ := terminate_errors _ (failed ▸ List.mem_cons_self)
  cases same
  refine ⟨ended, ?_⟩
  rw [LineReader.terminate]
  split <;> exact empty

/-- Every callback of the source serves the one read that waits, or none. -/
theorem step_served {s : Reads} (sound : s.Sound) (single : s.reader.waiters.length ≤ 1) {event : Event}
    (source : event = .ended ∨ (∃ chunk, event = .data chunk) ∨ (∃ err, event = .failed err) ∨
      ∃ err, event = .fail err) : Served s (s.step event) := by
  rcases source with rfl | ⟨chunk, rfl⟩ | ⟨err, rfl⟩ | ⟨err, rfl⟩
  · exact terminate_served sound single eof
  · refine sound.served single (onData_handed _ chunk) fun call err failed => ?_
    have handed := (onData_handed s.reader chunk).waiters
    rw [failed] at handed
    exact onData_fruitless sound.prompt (handed ▸ List.cons_ne_nil _ _) failed
  · exact terminate_served sound single err
  · exact terminate_served sound single err

/-- What a new read does that is the only one. -/
inductive Begun (s t : Reads) (timed : Bool) (signal : Option (Option JsError)) : Prop where
  | waits (running : t.reader.waiters = [s.calls]) (settled : t.settled = s.settled)
      (timer : timed = true → s.calls ∈ t.timers) (listener : signal.isSome = true → s.calls ∈ t.listeners) :
      Begun s t timed signal
  | line {line : List UInt8} (queued : s.reader.queue ≠ []) (idle : t.reader.waiters = [])
      (settled : t.settled = s.settled ++ [(s.calls, .ok line)]) : Begun s t timed signal
  | ended {err : JsError} (idle : t.reader.waiters = [])
      (settled : t.settled = s.settled ++ [(s.calls, .error err)]) (terminal : t.reader.terminal = some err)
      (queue : t.reader.queue = []) : Begun s t timed signal
  | aborted {err : JsError} (reason : signal = some (some err)) (idle : t.reader.waiters = [])
      (settled : t.settled = s.settled ++ [(s.calls, .error err)]) : Begun s t timed signal

theorem readLine_begun {s : Reads} (none : s.reader.waiters = []) (timed : Bool)
    (signal : Option (Option JsError)) : Begun s (s.readLine timed signal) timed signal := by
  rw [readLine, LineReader.readLine.eq_def]
  cases queued : s.reader.queue with
  | cons line queue => exact .line (queued ▸ List.cons_ne_nil _ _) none rfl
  | nil =>
      cases ended : s.reader.terminal with
      | some err => exact .ended none rfl ended queued
      | none =>
          have running : s.reader.waiters ++ [s.calls] = [s.calls] := congrArg (· ++ [s.calls]) none
          have timer (on : timed = true) : s.calls ∈ if timed = true then s.timers ++ [s.calls] else s.timers := by
            rw [if_pos on]
            exact List.mem_append_right _ List.mem_cons_self
          rcases signal with _ | _ | reason
          · exact .waits running rfl timer fun none => (by cases none)
          · exact .waits running rfl timer fun _ => List.mem_append_right _ List.mem_cons_self
          · exact .aborted rfl none rfl

/-- Giving up settles the one read. -/
theorem settleOne_waiter {s : Reads} {call : Nat} (waits : s.reader.waiters = [call]) (err : JsError) :
    (s.settleOne (call, .error err)).reader.waiters = [] ∧
      (s.settleOne (call, .error err)).settled = s.settled ++ [(call, .error err)] := by
  refine ⟨?_, rfl⟩
  rw [settleOne, LineReader.withdraw, waits]
  exact List.erase_cons_head _ _

theorem Dead.step {s : Reads} (dead : s.Dead) (sound : s.Sound) (event : Event) : (s.step event).Dead := by
  obtain ⟨terminal, queue⟩ := dead
  cases kind : isRead event with
  | false =>
      rw [step_ended sound terminal kind]
      exact ⟨terminal, queue⟩
  | true =>
      cases event with
      | readLine timed signal =>
          obtain ⟨err, ended⟩ := Option.isSome_iff_exists.mp terminal
          obtain ⟨still, left, _⟩ := readLine_ended ended timed signal
          exact ⟨(congrArg Option.isSome still).trans rfl, left.trans (congrArg List.tail queue)⟩
      | _ => cases kind

/-- What a read may be given up with by the caller. -/
def Event.late : Event → JsError → Prop
  | .timer _, e => e = timedOut
  | .abort _ reason, e => e = reason
  | _, _ => False

/-- What an event does that is no read: it settles the one read that waits, or none. -/
inductive Turned (late : JsError → Prop) (s t : Reads) : Option (Nat × Except JsError (List UInt8)) → Prop where
  | quiet (waiters : t.reader.waiters = s.reader.waiters) (settled : t.settled = s.settled)
      (timers : t.timers = s.timers) (listeners : t.listeners = s.listeners) : Turned late s t none
  | settles {call : Nat} {outcome : Except JsError (List UInt8)} (waits : s.reader.waiters = [call])
      (idle : t.reader.waiters = []) (settled : t.settled = s.settled ++ [(call, outcome)])
      (why : ∀ e, outcome = .error e → t.reader.terminal = some e ∧ t.reader.queue = [] ∨ late e) :
      Turned late s t (some (call, outcome))

theorem Served.turned {s t : Reads} (served : Served s t) (late : JsError → Prop) : ∃ o, Turned late s t o := by
  cases served with
  | quiet waiters settled timers listeners => exact ⟨none, .quiet waiters settled timers listeners⟩
  | line waits idle settled =>
      refine ⟨_, .settles waits idle settled fun e same => ?_⟩
      cases same
  | ended waits idle settled terminal queue =>
      refine ⟨_, .settles waits idle settled fun e same => .inl ?_⟩
      cases same
      exact ⟨terminal, queue⟩

/-- A read that gives up was the one that waited. -/
theorem given_up {s : Reads} (single : s.reader.waiters.length ≤ 1) {late : JsError → Prop} {call : Nat} {err : JsError}
    (waits : call ∈ s.reader.waiters) (why : late err) :
    ∃ o, Turned late s (s.settleOne (call, .error err)) o := by
  have one : s.reader.waiters = [call] := by
    rcases shape : s.reader.waiters with _ | ⟨first, _ | ⟨second, more⟩⟩
    · rw [shape] at waits
      cases waits
    · rw [shape] at waits
      rw [List.mem_singleton.mp waits]
    · rw [shape, List.length_cons, List.length_cons] at single
      omega
  obtain ⟨idle, settled⟩ := settleOne_waiter one err
  refine ⟨_, .settles one idle settled fun e same => .inr ?_⟩
  cases same
  exact why

theorem step_turned {s : Reads} (sound : s.Sound) (single : s.reader.waiters.length ≤ 1) {event : Event}
    (other : isRead event = false) : ∃ o, Turned event.late s (s.step event) o := by
  cases event with
  | data chunk => exact (step_served sound single (.inr (.inl ⟨chunk, rfl⟩))).turned _
  | ended => exact (step_served sound single (.inl rfl)).turned _
  | failed err => exact (step_served sound single (.inr (.inr (.inl ⟨err, rfl⟩)))).turned _
  | fail err => exact (step_served sound single (.inr (.inr (.inr ⟨err, rfl⟩)))).turned _
  | readLine timed signal => cases other
  | timer call =>
      rw [step]
      split
      · rename_i running
        exact given_up single (sound.timers.subset running) rfl
      · exact ⟨none, .quiet rfl rfl rfl rfl⟩
  | abort call reason =>
      rw [step]
      split
      · rename_i listens
        exact given_up single (sound.listeners.subset listens) rfl
      · exact ⟨none, .quiet rfl rfl rfl rfl⟩

/-! ## The flow of the lines -/

theorem scan_grows {r : LineReader Nat} (prompt : r.Prompt) (piece chunk : List UInt8) :
    r.queue <+: LineReader.lines (r.scan piece chunk).2.2 ++ (r.scan piece chunk).1.queue := by
  induction chunk generalizing r piece with
  | nil => exact List.prefix_rfl
  | cons b bs ih =>
      rw [LineReader.scan]
      split
      · exact ih prompt _
      · have clear : r.clear.Prompt := prompt
        obtain ⟨given, after, _⟩ := LineReader.deliver_lines clear
        have later := ih after []
        dsimp only
        rw [LineReader.lines_append, List.append_assoc]
        refine (List.prefix_append r.queue [(r.pending ++ [piece]).flatten]).trans ?_
        have queue : r.clear.queue = r.queue := rfl
        rw [← queue, ← given]
        exact List.prefix_append_right_inj _ |>.mpr later

/-- The lines that were handed out and those that are queued only ever grow. -/
theorem step_flow {s : Reads} (sound : s.Sound) (event : Event) : s.flow <+: (s.step event).flow := by
  cases event with
  | data chunk =>
      obtain ⟨_, reader, settled, _⟩ := sound.handed (onData_handed s.reader chunk)
      change s.flow <+: (s.onData chunk).flow
      rw [flow, flow, onData, reader, settled, LineReader.lines_append, List.append_assoc]
      refine List.prefix_append_right_inj _ |>.mpr ?_
      have scanned := scan_grows sound.prompt [] chunk
      rw [LineReader.onData]
      split
      · exact List.prefix_rfl
      · dsimp only
        split
        · exact scanned
        · split
          · rw [LineReader.lines_append, List.append_assoc]
            rename_i running _ _
            refine scanned.trans (List.prefix_append_right_inj _ |>.mpr ?_)
            have none (err : JsError) (waiters : List Nat) :
                LineReader.lines (waiters.map fun waiter => (waiter, Except.error (α := List UInt8) err)) = [] := by
              rw [LineReader.lines, List.filterMap_map]
              exact List.filterMap_eq_nil_iff.mpr fun _ _ => rfl
            rw [LineReader.terminate]
            split
            · exact List.prefix_rfl
            · rw [none]
              exact List.prefix_rfl
          · exact scanned
  | ended => exact (terminate_flow sound eof).1 ▸ List.prefix_rfl
  | failed err => exact (terminate_flow sound err).1 ▸ List.prefix_rfl
  | fail err => exact (terminate_flow sound err).1 ▸ List.prefix_rfl
  | readLine timed signal =>
      obtain ⟨reader, lines⟩ := s.readLine_lines timed signal
      change s.flow <+: (s.readLine timed signal).flow
      rw [flow, flow, reader, lines, List.append_assoc]
      refine List.prefix_append_right_inj _ |>.mpr ?_
      rw [LineReader.readLine.eq_def]
      cases queued : s.reader.queue with
      | nil => exact List.nil_prefix
      | cons line queue => exact List.prefix_rfl
  | timer call =>
      rw [step]
      split
      · rw [flow, flow, settleOne_lines]
        exact List.prefix_rfl
      · exact List.prefix_rfl
  | abort call reason =>
      rw [step]
      split
      · rw [flow, flow, settleOne_lines]
        exact List.prefix_rfl
      · exact List.prefix_rfl

/-- Only these events tell of the source. -/
def Event.sources : Event → Bool
  | .data _ | .ended | .failed _ | .fail _ => true
  | _ => false

theorem chunks_sources (events : List Event) : chunks (events.filter Event.sources) = chunks events := by
  induction events with
  | nil => rfl
  | cons event rest ih =>
      cases event with
      | data chunk => exact congrArg (chunk :: ·) ih
      | readLine timed signal => exact ih
      | timer call => exact ih
      | abort call reason => exact ih
      | _ => rfl

theorem run_flow_grows {s : Reads} (sound : s.Sound) (events : List Event) : s.flow <+: (s.run events).flow := by
  induction events generalizing s with
  | nil => exact List.prefix_rfl
  | cons event rest ih => exact (step_flow sound event).trans (ih (sound.step event))

theorem run_append (s : Reads) (first second : List Event) : s.run (first ++ second) = (s.run first).run second :=
  List.foldl_append

end Reads

end SanDbOxFormal.TypeScript
