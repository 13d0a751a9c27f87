import SanDbOxFormal.TypeScript.LineReader

/-!
# The reads of the TypeScript driver

The promises that `readLine` returns, with the timers and abort listeners that they
wait with, under every order of the callbacks of the source, of the timers and of the
signals.  The reads are numbered in the order of the calls.
-/

namespace SanDbOxFormal.TypeScript

open SanDbOxFormal.Library.CappedFraming

/-- A line reader and the reads on it. -/
structure Reads where
  reader : LineReader Nat
  /-- The reads whose timer runs. -/
  timers : List Nat
  /-- The reads whose listener is on its signal. -/
  listeners : List Nat
  calls : Nat
  /-- How the promises were settled, in order. -/
  settled : LineReader.Settled Nat

namespace Reads

def start : Reads := ⟨.new, [], [], 0, []⟩

inductive Event where
  | data (chunk : List UInt8)
  | ended
  | failed (err : JsError)
  | fail (err : JsError)
  /-- `signal` is there with the reason of its abort, if it has been aborted. -/
  | readLine (timed : Bool) (signal : Option (Option JsError))
  | timer (call : Nat)
  | abort (call : Nat) (reason : JsError)

def eof : JsError := .sanDBox (lit "connection closed (EOF)")

def timedOut : JsError := .timeout (lit "timed out waiting for a response line")

/-- `settle` for one read: its `cleanup`, and what its promise is settled with. -/
def settleOne (s : Reads) (o : Nat × Except JsError (List UInt8)) : Reads where
  reader := s.reader.withdraw o.1
  timers := s.timers.erase o.1
  listeners := s.listeners.erase o.1
  calls := s.calls
  settled := s.settled ++ [o]

/-- The waiters that a callback of the source has shifted out are settled one after the
other; their cleanup does not reach back into that callback. -/
def settle (s : Reads) (out : LineReader.Settled Nat) : Reads := out.foldl settleOne s

def onData (s : Reads) (chunk : List UInt8) : Reads :=
  { s with reader := (s.reader.onData chunk).1 }.settle (s.reader.onData chunk).2

def terminate (s : Reads) (err : JsError) : Reads :=
  { s with reader := (s.reader.terminate err).1 }.settle (s.reader.terminate err).2

def readLine (s : Reads) (timed : Bool) (signal : Option (Option JsError)) : Reads :=
  match s.reader.readLine s.calls signal.join with
  | (reader, some outcome) =>
      { s with reader, calls := s.calls + 1, settled := s.settled ++ [(s.calls, outcome)] }
  | (reader, none) =>
      { s with
        reader
        calls := s.calls + 1
        timers := if timed then s.timers ++ [s.calls] else s.timers
        listeners := if signal.isSome then s.listeners ++ [s.calls] else s.listeners }

/-- A timer that was cleared and a listener that was removed do nothing. -/
def step (s : Reads) : Event → Reads
  | .data chunk => s.onData chunk
  | .ended => s.terminate eof
  | .failed err => s.terminate err
  | .fail err => s.terminate err
  | .readLine timed signal => s.readLine timed signal
  | .timer call => if call ∈ s.timers then s.settleOne (call, .error timedOut) else s
  | .abort call reason => if call ∈ s.listeners then s.settleOne (call, .error reason) else s

def run (s : Reads) (events : List Event) : Reads := events.foldl step s

/-! ## The books -/

/-- The reads that got a line, in the order in which they got it. -/
def given (settled : LineReader.Settled Nat) : List Nat :=
  (settled.filter fun o => o.2.toBool).map Prod.fst

theorem given_append (first second : LineReader.Settled Nat) :
    given (first ++ second) = given first ++ given second := by
  simp [given]

theorem given_sublist (settled : LineReader.Settled Nat) :
    (given settled).Sublist (settled.map Prod.fst) :=
  List.filter_sublist.map _

/-- Every read is settled once or waits, and those who wait are the last ones. -/
structure Sound (s : Reads) : Prop where
  prompt : s.reader.Prompt
  ended : s.reader.terminal.isSome = true → s.reader.waiters = []
  once : (s.settled.map Prod.fst ++ s.reader.waiters).Perm (List.range s.calls)
  order : (given s.settled ++ s.reader.waiters).Pairwise (· < ·)
  timers : s.timers.Sublist s.reader.waiters
  listeners : s.listeners.Sublist s.reader.waiters

theorem Sound.nodup {s : Reads} (sound : s.Sound) :
    (s.settled.map Prod.fst ++ s.reader.waiters).Nodup :=
  sound.once.nodup_iff.mpr List.nodup_range

theorem Sound.early {s : Reads} (sound : s.Sound) {call : Nat}
    (inside : call ∈ s.settled.map Prod.fst ++ s.reader.waiters) : call < s.calls :=
  List.mem_range.mp (sound.once.mem_iff.mp inside)

theorem start_sound : start.Sound where
  prompt := .inl rfl
  ended := nofun
  once := .nil
  order := .nil
  timers := .slnil
  listeners := .slnil

/-- What a callback of the source does with the waiters: those whom it hands something
are the first ones. -/
structure Handed (r : LineReader Nat) (out : LineReader.Settled Nat) (r' : LineReader Nat) :
    Prop where
  waiters : r.waiters = out.map Prod.fst ++ r'.waiters
  prompt : r.Prompt → r'.Prompt
  ended : (r.terminal.isSome = true → r.waiters = []) → r'.terminal.isSome = true → r'.waiters = []

theorem Handed.refl (r : LineReader Nat) : Handed r [] r := ⟨rfl, id, id⟩

theorem Handed.trans {r r' r'' : LineReader Nat} {out more : LineReader.Settled Nat}
    (first : Handed r out r') (second : Handed r' more r'') : Handed r (out ++ more) r'' where
  waiters := by rw [first.waiters, second.waiters, List.map_append, List.append_assoc]
  prompt := second.prompt ∘ first.prompt
  ended := second.ended ∘ first.ended

theorem deliver_handed (r : LineReader Nat) (line : List UInt8) :
    Handed r (r.deliver line).2 (r.deliver line).1 := by
  rw [LineReader.deliver]
  split
  · rename_i waiter waiters waiting
    refine ⟨by simp [waiting], fun prompt => .inl (prompt.resolve_right (by simp [waiting])), ?_⟩
    intro idle ended
    exact absurd (waiting.symm.trans (idle ended)) (List.cons_ne_nil _ _)
  · rename_i waiting
    exact ⟨rfl, fun _ => .inr waiting, id⟩

theorem clear_handed (r : LineReader Nat) : Handed r [] r.clear := ⟨rfl, id, id⟩

theorem scan_handed (r : LineReader Nat) (piece chunk : List UInt8) :
    Handed r (r.scan piece chunk).2.2 (r.scan piece chunk).1 := by
  induction chunk generalizing r piece with
  | nil => exact .refl r
  | cons b bs ih =>
      rw [LineReader.scan]
      split
      · exact ih r _
      · exact ((clear_handed r).trans (deliver_handed r.clear _)).trans (ih _ [])

theorem terminate_handed (r : LineReader Nat) (err : JsError) :
    Handed r (r.terminate err).2 (r.terminate err).1 := by
  rw [LineReader.terminate]
  split
  · exact .refl r
  · exact ⟨by simp [Function.comp_def], fun _ => .inr rfl, fun _ _ => rfl⟩

theorem onData_handed (r : LineReader Nat) (chunk : List UInt8) :
    Handed r (r.onData chunk).2 (r.onData chunk).1 := by
  have scanned := scan_handed r [] chunk
  rw [LineReader.onData]
  split
  · exact .refl r
  · dsimp only
    split
    · exact ⟨scanned.waiters, scanned.prompt, scanned.ended⟩
    · have kept : Handed r (r.scan [] chunk).2.2 ((r.scan [] chunk).1.keep (r.scan [] chunk).2.1) :=
        ⟨scanned.waiters, scanned.prompt, scanned.ended⟩
      split
      · exact kept.trans (terminate_handed _ _)
      · exact ⟨scanned.waiters, scanned.prompt, scanned.ended⟩

/-- The cleanup of those who were handed something leaves the others alone. -/
theorem settle_handed {s : Reads} {out : LineReader.Settled Nat}
    (nodup : (out.map Prod.fst ++ s.reader.waiters).Nodup)
    (timers : s.timers.Sublist (out.map Prod.fst ++ s.reader.waiters))
    (listeners : s.listeners.Sublist (out.map Prod.fst ++ s.reader.waiters)) :
    (s.settle out).reader = s.reader ∧ (s.settle out).settled = s.settled ++ out ∧
      (s.settle out).calls = s.calls ∧ (s.settle out).timers.Sublist s.reader.waiters ∧
      (s.settle out).listeners.Sublist s.reader.waiters := by
  induction out generalizing s with
  | nil => exact ⟨rfl, (List.append_nil _).symm, rfl, timers, listeners⟩
  | cons o rest ih =>
      have fresh : o.1 ∉ rest.map Prod.fst ++ s.reader.waiters := (List.nodup_cons.mp nodup).1
      have kept : (s.settleOne o).reader = s.reader := by
        have gone : o.1 ∉ s.reader.waiters := fun inside => fresh (List.mem_append_right _ inside)
        simp [settleOne, LineReader.withdraw, List.erase_of_not_mem gone]
      have smaller {marked : List Nat}
          (sub : marked.Sublist ((o :: rest).map Prod.fst ++ s.reader.waiters)) :
          (marked.erase o.1).Sublist (rest.map Prod.fst ++ (s.settleOne o).reader.waiters) := by
        rw [kept]
        have dropped := sub.erase o.1
        rwa [List.map_cons, List.cons_append, List.erase_cons_head] at dropped
      obtain ⟨reader, settled, calls, left, heard⟩ :=
        @ih (s.settleOne o) (kept ▸ (List.nodup_cons.mp nodup).2) (smaller timers) (smaller listeners)
      rw [kept] at reader left heard
      refine ⟨reader, settled.trans ?_, calls, left, heard⟩
      rw [settleOne, List.append_assoc]
      rfl

/-- A callback of the source keeps the books. -/
theorem Sound.handed {s : Reads} (sound : s.Sound) {out : LineReader.Settled Nat}
    {reader : LineReader Nat} (handed : Handed s.reader out reader) :
    ({ s with reader }.settle out).Sound ∧ ({ s with reader }.settle out).reader = reader ∧
      ({ s with reader }.settle out).settled = s.settled ++ out ∧
      ({ s with reader }.settle out).calls = s.calls := by
  obtain ⟨prompt, ended, once, order, timers, listeners⟩ := sound
  have nodup := (once.nodup_iff.mpr List.nodup_range).of_append_right
  rw [handed.waiters] at nodup timers listeners once order
  obtain ⟨same, settled, calls, less, fewer⟩ :=
    settle_handed (s := { s with reader }) nodup timers listeners
  refine ⟨⟨?_, ?_, ?_, ?_, ?_, ?_⟩, same, settled, calls⟩
  · exact same ▸ handed.prompt prompt
  · exact same ▸ handed.ended ended
  · rw [settled, same, calls, List.map_append, List.append_assoc]
    exact once
  · rw [settled, same, given_append, List.append_assoc]
    exact order.sublist (((given_sublist out).append_right _).append_left _)
  · exact same ▸ less
  · exact same ▸ fewer

/-- A read that gives up takes nothing with it. -/
theorem Sound.withdrawn {s : Reads} (sound : s.Sound) {call : Nat} (waits : call ∈ s.reader.waiters)
    (err : JsError) : (s.settleOne (call, .error err)).Sound := by
  obtain ⟨prompt, ended, once, order, timers, listeners⟩ := sound
  refine ⟨?_, fun over' => ?_, ?_, ?_, timers.erase call, listeners.erase call⟩
  · rcases prompt with empty | idle
    · exact .inl empty
    · exact absurd (idle ▸ waits) List.not_mem_nil
  · rw [ended over'] at waits
    exact absurd waits List.not_mem_nil
  · refine List.Perm.trans ?_ once
    rw [settleOne, List.map_append, List.append_assoc]
    exact (List.perm_cons_erase waits).symm.append_left _
  · have same : given (s.settled ++ [(call, .error err)]) = given s.settled := by
      rw [given_append]
      exact List.append_nil _
    rw [settleOne, same]
    exact order.sublist (List.erase_sublist.append_left _)

/-- A read that is settled at once is a new one. -/
theorem Sound.settles {s : Reads} (sound : s.Sound) {reader : LineReader Nat}
    {outcome : Except JsError (List UInt8)} (waiters : reader.waiters = s.reader.waiters)
    (prompt : reader.Prompt) (terminal : reader.terminal = s.reader.terminal)
    (free : outcome.toBool = true → reader.waiters = []) :
    Sound { s with reader, calls := s.calls + 1, settled := s.settled ++ [(s.calls, outcome)] } := by
  refine ⟨prompt, ?_, ?_, ?_, waiters ▸ sound.timers, waiters ▸ sound.listeners⟩
  · rw [waiters, terminal]
    exact sound.ended
  · rw [waiters, List.map_append, List.append_assoc, List.range_succ]
    exact (List.perm_append_comm.append_left _).trans
      ((List.append_assoc _ _ _).symm ▸ sound.once.append_right [s.calls])
  · rw [given_append]
    cases outcome with
    | error err =>
        rw [waiters]
        exact (List.append_nil (given s.settled)).symm ▸ sound.order
    | ok line =>
        rw [free rfl, List.append_nil]
        refine List.pairwise_append.mpr
          ⟨(List.pairwise_append.mp sound.order).1, List.pairwise_singleton _ _, ?_⟩
        intro call inside _ last
        rw [List.mem_singleton.mp last]
        exact sound.early (List.mem_append_left _ ((given_sublist _).subset inside))

theorem Sound.readLine {s : Reads} (sound : s.Sound) (timed : Bool)
    (signal : Option (Option JsError)) : (s.readLine timed signal).Sound := by
  rw [Reads.readLine, LineReader.readLine.eq_def]
  split
  · rename_i reader outcome read
    split at read
    · rename_i line queue queued
      cases read
      have idle := sound.prompt.resolve_left (by simp [queued])
      exact sound.settles rfl (.inr idle) rfl fun _ => idle
    · split at read
      · cases read
        exact sound.settles rfl sound.prompt rfl nofun
      · split at read
        · cases read
          exact sound.settles rfl sound.prompt rfl nofun
        · cases read
  · rename_i reader read
    split at read
    · cases read
    · rename_i empty
      split at read
      · cases read
      · rename_i running
        split at read
        · cases read
        · cases read
          have later {marked : List Nat} (sub : marked.Sublist s.reader.waiters) (b : Bool) :
              (if b = true then marked ++ [s.calls] else marked).Sublist (s.reader.waiters ++ [s.calls]) := by
            split
            · exact sub.append_right _
            · exact sub.trans (List.sublist_append_left _ _)
          refine ⟨.inl empty, ?_, ?_, ?_, later sound.timers timed, later sound.listeners _⟩
          · intro ended
            rw [running] at ended
            cases ended
          · rw [← List.append_assoc, List.range_succ]
            exact sound.once.append_right _
          · rw [← List.append_assoc]
            refine List.pairwise_append.mpr ⟨sound.order, List.pairwise_singleton _ _, ?_⟩
            intro call inside _ last
            rw [List.mem_singleton.mp last]
            exact sound.early (((given_sublist _).append_right _).subset inside)

theorem Sound.step {s : Reads} (sound : s.Sound) (event : Event) : (s.step event).Sound := by
  cases event with
  | data chunk => exact (sound.handed (onData_handed _ chunk)).1
  | ended => exact (sound.handed (terminate_handed _ eof)).1
  | failed err => exact (sound.handed (terminate_handed _ err)).1
  | fail err => exact (sound.handed (terminate_handed _ err)).1
  | readLine timed signal => exact sound.readLine timed signal
  | timer call =>
      rw [Reads.step]
      split
      · rename_i running
        exact sound.withdrawn (sound.timers.subset running) timedOut
      · exact sound
  | abort call reason =>
      rw [Reads.step]
      split
      · rename_i listens
        exact sound.withdrawn (sound.listeners.subset listens) reason
      · exact sound

theorem run_sound {s : Reads} (sound : s.Sound) (events : List Event) : (s.run events).Sound := by
  induction events generalizing s with
  | nil => exact sound
  | cons event rest ih => exact ih (sound.step event)

/-! ## Behind the end -/

def isRead : Event → Bool
  | .readLine _ _ => true
  | _ => false

/-- How many reads are called. -/
def reads (events : List Event) : Nat := events.countP isRead

/-- What the next reads are settled with, once the source is at its end. -/
def due : List (List UInt8) → JsError → Nat → List (Except JsError (List UInt8))
  | _, _, 0 => []
  | [], err, n + 1 => .error err :: due [] err n
  | line :: queue, err, n + 1 => .ok line :: due queue err n

theorem terminate_ended {s : Reads} (ended : s.reader.terminal.isSome = true) (err : JsError) :
    s.terminate err = s := by
  simp [terminate, LineReader.terminate, ended, settle]

theorem onData_ended {s : Reads} (ended : s.reader.terminal.isSome = true) (chunk : List UInt8) :
    s.onData chunk = s := by
  simp [onData, LineReader.onData, ended, settle]

/-- At its end the source has settled everything, and only a new read does anything. -/
theorem step_ended {s : Reads} (sound : s.Sound) (ended : s.reader.terminal.isSome = true)
    {event : Event} (other : isRead event = false) : s.step event = s := by
  have idle := sound.ended ended
  have timers : s.timers = [] := List.sublist_nil.mp (idle ▸ sound.timers)
  have listeners : s.listeners = [] := List.sublist_nil.mp (idle ▸ sound.listeners)
  cases event with
  | data chunk => exact onData_ended ended chunk
  | ended => exact terminate_ended ended eof
  | failed err => exact terminate_ended ended err
  | fail err => exact terminate_ended ended err
  | readLine timed signal => cases other
  | timer call => simp [step, timers]
  | abort call reason => simp [step, listeners]

theorem readLine_ended {s : Reads} {err : JsError} (ended : s.reader.terminal = some err)
    (timed : Bool) (signal : Option (Option JsError)) :
    (s.readLine timed signal).reader.terminal = some err ∧
      (s.readLine timed signal).reader.queue = s.reader.queue.tail ∧
      (s.readLine timed signal).settled.map Prod.snd =
        s.settled.map Prod.snd ++ due s.reader.queue err 1 := by
  rw [readLine, LineReader.readLine.eq_def]
  cases queued : s.reader.queue with
  | nil =>
      simp only [ended, List.map_append]
      exact ⟨trivial, queued, rfl⟩
  | cons line queue =>
      simp only [List.map_append]
      exact ⟨ended, rfl, rfl⟩

/-- From there on the reads get what is queued and then the same error for ever. -/
theorem run_ended {s : Reads} {err : JsError} (sound : s.Sound)
    (ended : s.reader.terminal = some err) (events : List Event) :
    (s.run events).reader.terminal = some err ∧
      (s.run events).reader.queue = s.reader.queue.drop (reads events) ∧
      (s.run events).settled.map Prod.snd =
        s.settled.map Prod.snd ++ due s.reader.queue err (reads events) := by
  induction events generalizing s with
  | nil => exact ⟨ended, rfl, (List.append_nil _).symm⟩
  | cons event rest ih =>
      change ((s.step event).run rest).reader.terminal = some err ∧
        ((s.step event).run rest).reader.queue = _ ∧ ((s.step event).run rest).settled.map Prod.snd = _
      cases kind : isRead event with
      | false =>
          rw [step_ended sound (by rw [ended]; rfl) kind, reads, List.countP_cons_of_neg (by simp [kind])]
          exact ih sound ended
      | true =>
          rw [reads, List.countP_cons_of_pos kind]
          cases event with
          | readLine timed signal =>
              obtain ⟨still, queue, settled⟩ := readLine_ended ended timed signal
              obtain ⟨last, left, all⟩ := ih (sound.readLine timed signal) still
              refine ⟨last, left.trans ?_, all.trans ?_⟩
              · rw [queue, List.drop_tail]
                rfl
              · rw [queue, settled, List.append_assoc]
                congr 1
                cases s.reader.queue <;> rfl
          | _ => cases kind

/-! ## The lines -/

/-- The chunks in front of what ends the source from outside. -/
def chunks : List Event → List (List UInt8)
  | .data chunk :: rest => chunk :: chunks rest
  | .ended :: _ => []
  | .failed _ :: _ => []
  | .fail _ :: _ => []
  | _ :: rest => chunks rest
  | [] => []

theorem lines_eq (settled : LineReader.Settled Nat) :
    LineReader.lines settled = (settled.map Prod.snd).filterMap Except.toOption := by
  rw [List.filterMap_map]
  rfl

theorem lines_due (queue : List (List UInt8)) (err : JsError) (n : Nat) :
    (due queue err n).filterMap Except.toOption = queue.take n := by
  induction n generalizing queue with
  | zero => rfl
  | succ n ih =>
      cases queue with
      | nil => exact (ih []).trans List.take_nil
      | cons line queue => exact congrArg (line :: ·) (ih queue)

/-- The lines that were handed out and those that are queued. -/
def flow (s : Reads) : List (List UInt8) := LineReader.lines s.settled ++ s.reader.queue

theorem run_flow_ended {s : Reads} (sound : s.Sound) (ended : s.reader.terminal.isSome = true)
    (events : List Event) : (s.run events).flow = s.flow := by
  obtain ⟨err, ended⟩ := Option.isSome_iff_exists.mp ended
  obtain ⟨_, queue, settled⟩ := run_ended sound ended events
  rw [flow, flow, lines_eq, settled, List.filterMap_append, lines_due, queue, List.append_assoc,
    List.take_append_drop, ← lines_eq]

theorem terminate_flow {s : Reads} (sound : s.Sound) (err : JsError) :
    (s.terminate err).flow = s.flow ∧ (s.terminate err).reader.terminal.isSome = true := by
  obtain ⟨_, reader, settled, _⟩ := sound.handed (terminate_handed s.reader err)
  change (s.terminate err).reader = _ at reader
  change (s.terminate err).settled = _ at settled
  rw [flow, flow, reader, settled, LineReader.lines_append, LineReader.terminate]
  split
  · rename_i ended
    exact ⟨by simp [LineReader.lines], ended⟩
  · refine ⟨?_, rfl⟩
    simp [LineReader.lines, LineReader.clear, Except.toOption]

/-- A read takes a line out of the queue, or no line. -/
theorem readLine_lines (s : Reads) (timed : Bool) (signal : Option (Option JsError)) :
    (s.readLine timed signal).reader = (s.reader.readLine s.calls signal.join).1 ∧
      LineReader.lines (s.readLine timed signal).settled = LineReader.lines s.settled ++
        ((s.reader.readLine s.calls signal.join).2.bind Except.toOption).toList := by
  rw [readLine]
  split
  · rename_i reader outcome read
    rw [read]
    refine ⟨rfl, ?_⟩
    rw [LineReader.lines_append]
    cases outcome <;> rfl
  · rename_i reader read
    rw [read]
    exact ⟨rfl, (List.append_nil _).symm⟩

theorem settleOne_lines (s : Reads) (call : Nat) (err : JsError) :
    LineReader.lines (s.settleOne (call, .error err)).settled = LineReader.lines s.settled := by
  rw [settleOne, LineReader.lines_append]
  exact List.append_nil _

theorem run_terminate_flow {s : Reads} (sound : s.Sound) (err : JsError) (events : List Event) :
    ((s.terminate err).run events).flow = s.flow := by
  obtain ⟨kept, ended⟩ := terminate_flow sound err
  exact (run_flow_ended (sound.step (.fail err)) ended events).trans kept

/-- The flow is that of the chunks in front of the end. -/
theorem run_flow {p : Progress UInt8} {s : Reads} (sound : s.Sound)
    (measured : LineReader.Measured p s.reader (LineReader.lines s.settled)) (events : List Event) :
    (s.run events).flow = ((chunks events).foldl (Progress.feed lf maxLineBytes) p).lines := by
  induction events generalizing p s with
  | nil => exact measured.lines
  | cons event rest ih =>
      have next {q : Progress UInt8} (more : LineReader.Measured q (s.step event).reader
          (LineReader.lines (s.step event).settled)) :
          ((s.step event).run rest).flow = ((chunks rest).foldl (Progress.feed lf maxLineBytes) q).lines :=
        ih (sound.step event) more
      cases event with
      | data chunk =>
          obtain ⟨_, reader, settled, _⟩ := sound.handed (onData_handed s.reader chunk)
          refine next ?_
          change LineReader.Measured _ (s.onData chunk).reader (LineReader.lines (s.onData chunk).settled)
          rw [onData, reader, settled, LineReader.lines_append]
          exact measured.onData chunk
      | ended => exact (run_terminate_flow sound eof rest).trans measured.lines
      | failed err => exact (run_terminate_flow sound err rest).trans measured.lines
      | fail err => exact (run_terminate_flow sound err rest).trans measured.lines
      | readLine timed signal =>
          obtain ⟨reader, lines⟩ := s.readLine_lines timed signal
          refine next ?_
          change LineReader.Measured p (s.readLine timed signal).reader
            (LineReader.lines (s.readLine timed signal).settled)
          rw [reader, lines]
          exact measured.readLine _ _
      | timer call =>
          refine next ?_
          rw [step]
          split
          · rw [settleOne_lines]
            exact measured.withdraw call
          · exact measured
      | abort call reason =>
          refine next ?_
          rw [step]
          split
          · rw [settleOne_lines]
            exact measured.withdraw call
          · exact measured

/-! ## What ends the source -/

theorem scan_lines (r : LineReader Nat) (piece chunk : List UInt8) :
    ∀ o ∈ (r.scan piece chunk).2.2, ∃ line, o.2 = .ok line := by
  induction chunk generalizing r piece with
  | nil => exact fun o inside => absurd inside List.not_mem_nil
  | cons b bs ih =>
      rw [LineReader.scan]
      split
      · exact ih r _
      · intro o inside
        rcases List.mem_append.mp inside with first | later
        · rw [LineReader.deliver] at first
          split at first
          · rw [List.mem_singleton.mp first]
            exact ⟨_, rfl⟩
          · exact absurd first List.not_mem_nil
        · exact ih _ [] o later

theorem terminate_errors {r : LineReader Nat} {err : JsError} :
    ∀ o ∈ (r.terminate err).2, o.2 = .error err ∧ (r.terminate err).1.terminal = some err := by
  intro o inside
  rw [LineReader.terminate] at inside ⊢
  split at inside
  · exact absurd inside List.not_mem_nil
  · rename_i running
    obtain ⟨waiter, _, rfl⟩ := List.mem_map.mp inside
    rw [if_neg running]
    exact ⟨rfl, rfl⟩

theorem onData_outcomes {r : LineReader Nat} {chunk : List UInt8} :
    ∀ o ∈ (r.onData chunk).2,
      (∃ line, o.2 = .ok line) ∨ ∃ err, o.2 = .error err ∧ (r.onData chunk).1.terminal = some err := by
  intro o inside
  rw [LineReader.onData] at inside ⊢
  split at inside
  · exact absurd inside List.not_mem_nil
  · rename_i running
    rw [if_neg running]
    dsimp only at inside ⊢
    split at inside
    · exact .inl (scan_lines r [] chunk o inside)
    · rename_i some
      rw [if_neg some]
      split at inside
      · rename_i long
        rw [if_pos long]
        rcases List.mem_append.mp inside with first | rejected
        · exact .inl (scan_lines r [] chunk o first)
        · exact .inr ⟨_, terminate_errors o rejected⟩
      · exact .inl (scan_lines r [] chunk o inside)

/-- Whoever waits when the source ends gets a line of the last chunk or the error. -/
structure Rejects (s t : Reads) (err : JsError) (out : LineReader.Settled Nat) : Prop where
  settled : t.settled = s.settled ++ out
  all : out.map Prod.fst = s.reader.waiters
  each : ∀ o ∈ out, (∃ line, o.2 = .ok line) ∨ o.2 = .error err

theorem Sound.rejects {s : Reads} (sound : s.Sound) {out : LineReader.Settled Nat}
    {reader : LineReader Nat} {err : JsError} (handed : Handed s.reader out reader)
    (outcomes : ∀ o ∈ out, (∃ line, o.2 = .ok line) ∨ ∃ e, o.2 = .error e ∧ reader.terminal = some e)
    (ended : ({ s with reader }.settle out).reader.terminal = some err) :
    Rejects s ({ s with reader }.settle out) err out := by
  obtain ⟨_, same, settled, _⟩ := sound.handed handed
  rw [same] at ended
  refine ⟨settled, ?_, fun o inside => (outcomes o inside).imp_right ?_⟩
  · rw [handed.waiters, handed.ended sound.ended (by rw [ended]; rfl), List.append_nil]
  · rintro ⟨e, failed, terminal⟩
    rw [failed, Option.some.inj (terminal.symm.trans ended)]

theorem step_rejects {s : Reads} (sound : s.Sound) {event : Event} {err : JsError}
    (running : s.reader.terminal = none) (ended : (s.step event).reader.terminal = some err) :
    ∃ out, Rejects s (s.step event) err out := by
  have terminates {e : JsError} (ended : (s.terminate e).reader.terminal = some err) :
      ∃ out, Rejects s (s.terminate e) err out :=
    ⟨_, sound.rejects (terminate_handed _ e) (fun o inside => .inr ⟨e, terminate_errors o inside⟩) ended⟩
  cases event with
  | data chunk => exact ⟨_, sound.rejects (onData_handed _ chunk) onData_outcomes ended⟩
  | ended => exact terminates ended
  | failed e => exact terminates ended
  | fail e => exact terminates ended
  | readLine timed signal =>
      have same : (s.readLine timed signal).reader.terminal = s.reader.terminal := by
        rw [(s.readLine_lines timed signal).1, LineReader.readLine.eq_def]
        split
        · rfl
        · split
          · rfl
          · split <;> rfl
      cases running.symm.trans (same.symm.trans ended)
  | timer call =>
      rw [step] at ended
      split at ended <;> cases running.symm.trans ended
  | abort call reason =>
      rw [step] at ended
      split at ended <;> cases running.symm.trans ended

/-- What is settled stays so. -/
theorem step_grows {s : Reads} (sound : s.Sound) (event : Event) :
    s.settled <+: (s.step event).settled := by
  have handed {out : LineReader.Settled Nat} {reader : LineReader Nat}
      (handed : Handed s.reader out reader) : s.settled <+: ({ s with reader }.settle out).settled :=
    ⟨out, (sound.handed handed).2.2.1.symm⟩
  cases event with
  | data chunk => exact handed (onData_handed _ chunk)
  | ended => exact handed (terminate_handed _ eof)
  | failed err => exact handed (terminate_handed _ err)
  | fail err => exact handed (terminate_handed _ err)
  | readLine timed signal =>
      rw [step, readLine]
      split
      · exact List.prefix_append _ _
      · exact List.prefix_rfl
  | timer call =>
      rw [step]
      split
      · exact List.prefix_append _ _
      · exact List.prefix_rfl
  | abort call reason =>
      rw [step]
      split
      · exact List.prefix_append _ _
      · exact List.prefix_rfl

theorem run_grows {s : Reads} (sound : s.Sound) (events : List Event) :
    s.settled <+: (s.run events).settled := by
  induction events generalizing s with
  | nil => exact List.prefix_rfl
  | cons event rest ih => exact (step_grows sound event).trans (ih (sound.step event))

/-- A read that has given up never gets a line. -/
theorem Sound.gives_up {s : Reads} (sound : s.Sound) {call : Nat} (waits : call ∈ s.reader.waiters)
    (err : JsError) (later : List Event) (line : List UInt8) :
    (call, .ok line) ∉ ((s.settleOne (call, .error err)).run later).settled := by
  have sound' := sound.withdrawn waits err
  have failed : (call, .error err) ∈ ((s.settleOne (call, .error err)).run later).settled :=
    (run_grows sound' later).subset (List.mem_append_right _ List.mem_cons_self)
  have once := (List.nodup_append.mp (run_sound sound' later).nodup).1
  intro got
  cases List.inj_on_of_nodup_map once failed got rfl

/-- What a line reader owes the reads, after these events. -/
structure Fifo (events : List Event) (s : Reads) : Prop where
  /-- Every line in front of the end goes to a read, in order, or is queued. -/
  lines : LineReader.lines s.settled ++ s.reader.queue = (progress lf maxLineBytes (chunks events)).lines
  /-- Every read is settled once, or waits. -/
  once : (s.settled.map Prod.fst ++ s.reader.waiters).Perm (List.range s.calls)
  /-- The reads get their lines in the order of the calls. -/
  order : (given s.settled).Pairwise (· < ·)
  prompt : s.reader.waiters ≠ [] → s.reader.queue = []
  timesOut : ∀ call ∈ s.timers, (s.step (.timer call)).settled = s.settled ++ [(call, .error timedOut)] ∧
    ∀ later line, (call, .ok line) ∉ ((s.step (.timer call)).run later).settled
  aborts : ∀ call ∈ s.listeners, ∀ reason,
    (s.step (.abort call reason)).settled = s.settled ++ [(call, .error reason)] ∧
    ∀ later line, (call, .ok line) ∉ ((s.step (.abort call reason)).run later).settled
  /-- The end rejects whoever waits, -/
  rejects : ∀ event err, s.reader.terminal = none → (s.step event).reader.terminal = some err →
    ∃ out, Rejects s (s.step event) err out
  /-- and all later reads behind the queue. -/
  ends : ∀ err, s.reader.terminal = some err → s.reader.waiters = [] ∧ ∀ later,
    (s.run later).settled.map Prod.snd =
      s.settled.map Prod.snd ++ due s.reader.queue err (reads later)

/-- Whatever the order of the callbacks, the lines come out first in, first out, each
for one read. -/
theorem reads_fifo (events : List Event) : Fifo events (start.run events) := by
  have sound := run_sound start_sound events
  have first : LineReader.Measured .start start.reader (LineReader.lines start.settled) :=
    ⟨.inl rfl, rfl, rfl, fun _ => rfl, fun _ => List.not_mem_nil, fun _ => Nat.zero_le _⟩
  generalize made : start.run events = s at sound ⊢
  refine ⟨?_, sound.once, (List.pairwise_append.mp sound.order).1, sound.prompt.resolve_right, ?_, ?_,
    fun event err => step_rejects sound, ?_⟩
  · rw [← made]
    exact run_flow start_sound first events
  · intro call running
    rw [step, if_pos running]
    exact ⟨rfl, sound.gives_up (sound.timers.subset running) timedOut⟩
  · intro call listens reason
    rw [step, if_pos listens]
    exact ⟨rfl, sound.gives_up (sound.listeners.subset listens) reason⟩
  · intro err ended
    exact ⟨sound.ended (by rw [ended]; rfl), fun later => (run_ended sound ended later).2.2⟩

end Reads

end SanDbOxFormal.TypeScript
