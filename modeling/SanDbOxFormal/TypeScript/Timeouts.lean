import SanDbOxFormal.TypeScript.Timers

/-!
# When the timeouts of the TypeScript driver are early

A timer is set for the timeout itself.  Where Node runs no callback early, the numbers that it
takes as they are and those up to one never come early in any run; where it does, only zero
and what is left of the first millisecond.  For every other one a run exists in which it
comes early.
-/

namespace SanDbOxFormal.TypeScript

namespace Millis

/-- So much has passed when the timer may run exactly for those. -/
theorem exact_iff (t : Millis) (early since : ℚ≥0) :
    t.Exact early ↔ t.Passed since (since + (t.delay - early)) := by
  cases t with
  | infinity => exact Iff.rfl
  | ms n =>
      rw [Exact, Passed, delay, add_le_add_iff_left]
      split
      · rename_i one
        rw [Nat.cast_one]
        constructor
        · rintro (rfl | within | ⟨rfl, small, k, rfl⟩)
          · exact zero_le
          · exact le_tsub_of_add_le_right within
          · rcases one with below | above
            · rw [tsub_zero]
              exact below.le
            · exact absurd above (not_lt.mpr small)
        · intro held
          rcases eq_or_ne n 0 with none | some
          · exact .inl none
          · have room : early ≤ 1 := by
              by_contra more
              rw [tsub_eq_zero_of_le (not_le.mp more).le] at held
              exact some (le_zero_iff.mp held)
            exact .inr (.inl ((le_tsub_iff_right room).mp held))
      · rename_i taken
        obtain ⟨low, high⟩ := not_or.mp taken
        have floor : (⌊n⌋₊ : ℚ≥0) ≤ n := Nat.floor_le zero_le
        constructor
        · rintro (rfl | within | ⟨rfl, _, k, rfl⟩)
          · exact zero_le
          · have whole : n = 1 := le_antisymm (le_trans le_self_add within) (not_lt.mp low)
            have never : early = 0 := by
              rw [whole] at within
              exact le_zero_iff.mp (le_of_add_le_add_left (within.trans_eq (add_zero 1).symm))
            rw [whole, never, tsub_zero, Nat.floor_one, Nat.cast_one]
          · rw [tsub_zero, Nat.floor_natCast]
        · intro held
          have least : n ≤ ⌊n⌋₊ := held.trans tsub_le_self
          have exact : n = ⌊n⌋₊ := le_antisymm least floor
          have room : early ≤ ⌊n⌋₊ := by
            by_contra more
            rw [tsub_eq_zero_of_le (not_le.mp more).le] at held
            exact low (lt_of_le_of_lt held one_pos)
          have never : n + early ≤ n := ((le_tsub_iff_right room).mp held).trans floor
          refine .inr (.inr ⟨?_, not_lt.mp high, ⌊n⌋₊, exact⟩)
          exact le_zero_iff.mp (le_of_add_le_add_left (never.trans_eq (add_zero n).symm))

theorem Passed.later {t : Millis} {since now later : ℚ≥0} (passed : t.Passed since now)
    (le : now ≤ later) : t.Passed since later := by
  cases t with
  | ms n => exact le_trans passed le
  | infinity => exact passed

theorem Passed.earlier {t : Millis} {since before now : ℚ≥0} (passed : t.Passed since now)
    (le : before ≤ since) : t.Passed before now := by
  cases t with
  | ms n => exact le_trans (add_le_add_left le n) passed
  | infinity => exact passed

end Millis

/-! ## Where a read gets a timeout from -/

namespace Reads

theorem settle_settled (s : Reads) (out : LineReader.Settled ℕ) :
    (s.settle out).settled = s.settled ++ out ∧
      (s.settle out).reader.terminal = s.reader.terminal ∧ (s.settle out).calls = s.calls := by
  induction out generalizing s with
  | nil => exact ⟨(List.append_nil _).symm, rfl, rfl⟩
  | cons o rest ih =>
      obtain ⟨settled, terminal, calls⟩ := ih (s.settleOne o)
      refine ⟨settled.trans ?_, terminal, calls⟩
      rw [settleOne, List.append_assoc]
      rfl

/-- A callback of the source hands out no error but those, and none is left for later. -/
structure Hands (r : LineReader ℕ) (P : JsError → Prop) (out : LineReader.Settled ℕ)
    (r' : LineReader ℕ) : Prop where
  errors : ∀ n e, (n, .error e) ∈ out → P e
  terminal : ∀ e, r'.terminal = some e → r.terminal = some e ∨ P e

theorem Hands.trans {r r' r'' : LineReader ℕ} {P : JsError → Prop} {out more : LineReader.Settled ℕ}
    (first : Hands r P out r') (second : Hands r' P more r'') : Hands r P (out ++ more) r'' where
  errors n e inside := (List.mem_append.mp inside).elim (first.errors n e) (second.errors n e)
  terminal e is := (second.terminal e is).elim (first.terminal e) .inr

theorem Hands.refl {r r' : LineReader ℕ} {P : JsError → Prop} (same : r'.terminal = r.terminal) :
    Hands r P [] r' :=
  ⟨nofun, fun _ is => .inl (same ▸ is)⟩

theorem deliver_hands (r : LineReader ℕ) (P : JsError → Prop) (line : List UInt8) :
    Hands r P (r.deliver line).2 (r.deliver line).1 := by
  rw [LineReader.deliver]
  split
  · refine ⟨fun n e inside => ?_, fun e is => .inl is⟩
    cases List.mem_singleton.mp inside
  · exact .refl rfl

theorem scan_hands (r : LineReader ℕ) (P : JsError → Prop) (piece chunk : List UInt8) :
    Hands r P (r.scan piece chunk).2.2 (r.scan piece chunk).1 := by
  induction chunk generalizing r piece with
  | nil => exact .refl rfl
  | cons b bs ih =>
      rw [LineReader.scan]
      split
      · exact ih r _
      · have cleared : Hands r P [] r.clear := .refl rfl
        exact (cleared.trans (deliver_hands r.clear P _)).trans (ih _ [])

theorem terminate_hands (r : LineReader ℕ) (err : JsError) :
    Hands r (· = err) (r.terminate err).2 (r.terminate err).1 := by
  rw [LineReader.terminate]
  split
  · exact .refl rfl
  · refine ⟨fun n e inside => ?_, fun e is => .inr (Option.some.inj is).symm⟩
    obtain ⟨waiter, _, same⟩ := List.mem_map.mp inside
    cases same
    rfl

theorem onData_hands (r : LineReader ℕ) (chunk : List UInt8) :
    Hands r (· = LineReader.tooLong) (r.onData chunk).2 (r.onData chunk).1 := by
  have scanned := scan_hands r (· = LineReader.tooLong) [] chunk
  rw [LineReader.onData]
  split
  · exact .refl rfl
  · dsimp only
    split
    · exact ⟨scanned.errors, scanned.terminal⟩
    · have kept : Hands r (· = LineReader.tooLong) (r.scan [] chunk).2.2
          ((r.scan [] chunk).1.keep (r.scan [] chunk).2.1) := ⟨scanned.errors, scanned.terminal⟩
      split
      · exact kept.trans (terminate_hands _ _)
      · exact ⟨scanned.errors, scanned.terminal⟩

/-- What an event can add to the rejections, and to the error at the end of the source. -/
structure Adds (s : Reads) (P : ℕ → JsError → Prop) (Q : JsError → Prop) (calls : ℕ) (s' : Reads) :
    Prop where
  errors : ∀ n e, (n, .error e) ∈ s'.settled → (n, .error e) ∈ s.settled ∨ P n e
  terminal : ∀ e, s'.reader.terminal = some e → s.reader.terminal = some e ∨ Q e
  calls : s'.calls = s.calls + calls

theorem Hands.adds {s : Reads} {P : JsError → Prop} {out : LineReader.Settled ℕ}
    {reader : LineReader ℕ} (hands : Hands s.reader P out reader) :
    Adds s (fun _ => P) P 0 ({ s with reader }.settle out) := by
  obtain ⟨settled, terminal, calls⟩ := settle_settled { s with reader } out
  refine ⟨fun n e inside => ?_, fun e is => ?_, calls⟩
  · rw [settled] at inside
    exact (List.mem_append.mp inside).imp id (hands.errors n e)
  · rw [terminal] at is
    exact hands.terminal e is

/-- The error that an event of the source brings. -/
def Event.brings : Event → JsError
  | .failed err => err
  | .fail err => err
  | .ended => eof
  | _ => LineReader.tooLong

theorem source_adds (s : Reads) (e : Event)
    (streams : e matches .data _ | .ended | .failed _ | .fail _) :
    Adds s (fun _ => (· = e.brings)) (· = e.brings) 0 (s.step e) := by
  cases e with
  | data chunk => exact (onData_hands s.reader chunk).adds
  | ended => exact (terminate_hands s.reader eof).adds
  | failed err => exact (terminate_hands s.reader err).adds
  | fail err => exact (terminate_hands s.reader err).adds
  | readLine timed signal => cases streams
  | timer call => cases streams
  | abort call reason => cases streams

theorem settleOne_adds (s : Reads) (call : ℕ) (err : JsError) :
    Adds s (fun n e => n = call ∧ e = err) (fun _ => False) 0 (s.settleOne (call, .error err)) := by
  refine ⟨fun n e inside => ?_, fun e is => .inl is, rfl⟩
  refine (List.mem_append.mp inside).imp id fun last => ?_
  cases List.mem_singleton.mp last
  exact ⟨rfl, rfl⟩

theorem timer_adds (s : Reads) (call : ℕ) :
    Adds s (fun n e => n = call ∧ e = timedOut) (fun _ => False) 0 (s.step (.timer call)) := by
  rw [step]
  split
  · exact settleOne_adds s call timedOut
  · exact ⟨fun _ _ => .inl, fun _ => .inl, rfl⟩

theorem abort_adds (s : Reads) (call : ℕ) (reason : JsError) :
    Adds s (fun n e => n = call ∧ e = reason) (fun _ => False) 0 (s.step (.abort call reason)) := by
  rw [step]
  split
  · exact settleOne_adds s call reason
  · exact ⟨fun _ _ => .inl, fun _ => .inl, rfl⟩

/-- A new read is rejected at once with what ended the source, or by its signal. -/
theorem readLine_adds (s : Reads) (timed : Bool) (signal : Option (Option JsError)) :
    Adds s (fun _ e => s.reader.terminal = some e ∨ signal.join = some e) (fun _ => False) 1
      (s.step (.readLine timed signal)) := by
  have once {outcome : Except JsError (List UInt8)} {reader : LineReader ℕ}
      (terminal : reader.terminal = s.reader.terminal)
      (due : ∀ e, outcome = .error e → s.reader.terminal = some e ∨ signal.join = some e) :
      Adds s (fun _ e => s.reader.terminal = some e ∨ signal.join = some e) (fun _ => False) 1
        { s with reader, calls := s.calls + 1, settled := s.settled ++ [(s.calls, outcome)] } := by
    refine ⟨fun n e inside => ?_, fun e is => .inl (terminal ▸ is), rfl⟩
    refine (List.mem_append.mp inside).imp id fun last => ?_
    exact due e (congrArg Prod.snd (List.mem_singleton.mp last)).symm
  rw [step, readLine, LineReader.readLine.eq_def]
  split
  · rename_i reader outcome read
    split at read
    · cases read
      exact once rfl fun e is => by cases is
    · split at read
      · rename_i err ended
        cases read
        exact once rfl fun e same => .inl (ended.trans (congrArg some (Except.error.inj same)))
      · split at read
        · rename_i reason stopped
          cases read
          exact once rfl fun e same => .inr (stopped.trans (congrArg some (Except.error.inj same)))
        · cases read
  · rename_i reader read
    have kept : reader.terminal = s.reader.terminal := by
      split at read
      · cases read
      · split at read
        · cases read
        · split at read
          · cases read
          · cases read
            rfl
    exact ⟨fun _ _ => .inl, fun e is => .inl (kept ▸ is), rfl⟩

end Reads


/-! ## What every run keeps -/

/-- An operation that has failed with a timeout was asked for that long ago, and the read
of an operation was asked for later, for the timeout of the operation. -/
structure Op.Timely (early now : ℚ≥0) (asked : List (Option Millis × ℚ≥0)) (o : Op) : Prop where
  past : o.since ≤ now
  exact : ∀ t : Millis, o.timeout = some t → t.Exact early
  aborted : ∀ e, o.aborted = some e → e.isTimeout = false
  failed : ∀ e, o.stage = .failed e → e.isTimeout = true →
    ∃ t, o.timeout = some t ∧ t.Passed o.since now
  reading : ∀ n, o.stage = .reading n → ∃ since, asked[n]? = some (o.timeout, since) ∧ o.since ≤ since

namespace World

structure Timely (w : World) : Prop where
  exact : ∀ t : Millis, w.default = some t → t.Exact w.early
  ops : ∀ o ∈ w.ops, o.Timely w.early w.now w.asked
  calls : w.asked.length = w.reads.calls
  asks : ∀ (n : ℕ) (t : Millis) (since : ℚ≥0), w.asked[n]? = some (some t, since) →
    t.Exact w.early ∧ since ≤ w.now
  late : ∀ n e, (n, .error e) ∈ w.reads.settled → e.isTimeout = true →
    ∃ t since, w.asked[n]? = some (some t, since) ∧ t.Passed since w.now
  ended : ∀ e, w.reads.reader.terminal = some e → e.isTimeout = false

/-- What the stream and the signals bring is no timeout. -/
def Event.Quiet : Event → Prop
  | .source e _ => e.brings.isTimeout = false
  | .aborted _ reason => reason.isTimeout = false
  | _ => True

/-- The timeouts are exact, also where a connect or a hello is left with the default one. -/
def Event.Exact (early : ℚ≥0) : Event → Prop
  | .invoked kind given _ => ∀ t : Millis,
      resolveTimeout given (if kind = .call then none else some defaultTimeoutMs) = some t → t.Exact early
  | _ => True

end World

theorem Op.Timely.later {early now later : ℚ≥0} {asked more : List (Option Millis × ℚ≥0)} {o : Op}
    (timely : o.Timely early now asked) (le : now ≤ later) : o.Timely early later (asked ++ more) where
  past := timely.past.trans le
  exact := timely.exact
  aborted := timely.aborted
  failed e stage late :=
    let ⟨t, is, passed⟩ := timely.failed e stage late
    ⟨t, is, passed.later le⟩
  reading n stage :=
    let ⟨since, is, le⟩ := timely.reading n stage
    ⟨since, (List.getElem?_append_left (List.getElem?_eq_some_iff.mp is).1).trans is, le⟩

theorem Op.Timely.later' {early now later : ℚ≥0} {asked : List (Option Millis × ℚ≥0)} {o : Op}
    (timely : o.Timely early now asked) (le : now ≤ later) : o.Timely early later asked :=
  (List.append_nil asked) ▸ @Op.Timely.later _ _ _ _ [] _ timely le

theorem mem_modify {α : Type} {l : List α} {i : ℕ} {f : α → α} {b : α} (inside : b ∈ l.modify i f) :
    b ∈ l ∨ ∃ a, l[i]? = some a ∧ b = f a := by
  obtain ⟨j, place⟩ := List.mem_iff_getElem?.mp inside
  rw [List.getElem?_modify] at place
  obtain ⟨a, is, same⟩ := Option.map_eq_some_iff.mp place
  split at same
  · rename_i here
    exact .inr ⟨a, here ▸ is, same.symm⟩
  · exact .inl (same ▸ List.mem_of_getElem? is)

namespace World

/-- Time goes on, and reads are added. -/
theorem ops_later {w : World} (timely : w.Timely) {later : ℚ≥0}
    {more : List (Option Millis × ℚ≥0)} (le : w.now ≤ later) :
    ∀ o ∈ w.ops, o.Timely w.early later (w.asked ++ more) :=
  fun o inside => (timely.ops o inside).later le

/-- When the timer may run, an exact timeout has passed. -/
theorem due_passed {w : World} {t : Millis} {since : ℚ≥0} (exact : t.Exact w.early) (past : since ≤ w.now)
    (due : since + t.delay ≤ w.now + w.early) : t.Passed since w.now := by
  refine ((t.exact_iff w.early since).mp exact).later ?_
  obtain ⟨gone, now⟩ := le_iff_exists_add.mp past
  rw [now] at due ⊢
  rw [add_assoc] at due
  exact add_le_add_right (tsub_le_iff_right.mpr (le_of_add_le_add_left due)) since

/-- Only the stage of one operation changes. -/
theorem moved_timely {w : World} {op : ℕ} {f : Op → Option Op.Stage} (timely : w.Timely)
    (moves : ∀ o stage, w.ops[op]? = some o → f o = some stage →
      (∀ e, stage = .failed e → e.isTimeout = true → ∃ t, o.timeout = some t ∧ t.Passed o.since w.now) ∧
      ∀ n, stage = .reading n → ∃ since, w.asked[n]? = some (o.timeout, since) ∧ o.since ≤ since) :
    (w.moved op f).Timely := by
  refine { timely with ops := fun o inside => ?_ }
  rcases mem_modify inside with kept | ⟨o', here, rfl⟩
  · exact timely.ops o kept
  · have before := timely.ops o' (List.mem_of_getElem? here)
    cases changed : f o' with
    | none => exact before
    | some stage =>
        obtain ⟨failed, reading⟩ := moves o' stage here changed
        exact { before with failed := failed, reading := reading }

/-- A step of the reader that rejects no read with a timeout. -/
theorem reads_timely {w : World} (timely : w.Timely) {reads : Reads} {P : ℕ → JsError → Prop}
    {Q : JsError → Prop} (adds : w.reads.Adds P Q 0 reads)
    (late : ∀ n e, P n e → e.isTimeout = true →
      ∃ t since, w.asked[n]? = some (some t, since) ∧ t.Passed since w.now)
    (ends : ∀ e, Q e → e.isTimeout = false) : ({ w with reads } : World).Timely where
  exact := timely.exact
  ops := timely.ops
  calls := timely.calls.trans adds.calls.symm
  asks := timely.asks
  late n e inside timeout := (adds.errors n e inside).elim
    (fun before => timely.late n e before timeout) fun added => late n e added timeout
  ended e is := (adds.terminal e is).elim (timely.ended e) (ends e)

theorem startRead_timely {w : World} {op : ℕ} {o : Op} (timely : w.Timely)
    (here : w.ops[op]? = some o) : (w.startRead op o).Timely := by
  have before := timely.ops o (List.mem_of_getElem? here)
  have adds := w.reads.readLine_adds o.timeout.isSome (if o.signalled then some o.aborted else none)
  have last : (w.asked ++ [(o.timeout, w.now)])[w.reads.calls]? = some (o.timeout, w.now) := by
    rw [← timely.calls, List.getElem?_concat_length]
  have kept {n : ℕ} {v : Option Millis × ℚ≥0} (is : w.asked[n]? = some v) :
      (w.asked ++ [(o.timeout, w.now)])[n]? = some v :=
    (List.getElem?_append_left (List.getElem?_eq_some_iff.mp is).1).trans is
  have reading : ({ w with
      reads := w.reads.step (.readLine o.timeout.isSome (if o.signalled then some o.aborted else none))
      asked := w.asked ++ [(o.timeout, w.now)] } : World).Timely := by
    refine ⟨timely.exact, ops_later timely le_rfl, ?_, ?_, ?_, ?_⟩
    · rw [List.length_append, timely.calls]
      exact adds.calls.symm
    · intro n t since is
      rcases Nat.lt_or_ge n w.asked.length with old | new
      · exact timely.asks n t since ((List.getElem?_append_left old).symm.trans is)
      · rw [List.getElem?_append_right new] at is
        have single := List.mem_singleton.mp (List.mem_of_getElem? is)
        obtain ⟨timeout, rfl⟩ := Prod.mk.inj single
        exact ⟨before.exact t timeout.symm, le_rfl⟩
    · intro n e inside timeout
      rcases adds.errors n e inside with settled | ended | stopped
      · obtain ⟨t, since, is, passed⟩ := timely.late n e settled timeout
        exact ⟨t, since, kept is, passed⟩
      · rw [timely.ended e ended] at timeout
        cases timeout
      · have reason : o.aborted = some e := by
          split at stopped
          · exact stopped
          · cases stopped
        rw [before.aborted e reason] at timeout
        cases timeout
    · intro e is
      exact (adds.terminal e is).elim (timely.ended e) False.elim
  refine moved_timely reading fun o' stage there moves => ?_
  cases moves
  have same : o' = o := Option.some.inj (there.symm.trans here)
  refine ⟨nofun, fun n is => ?_⟩
  cases is
  exact ⟨w.now, same ▸ last, same ▸ before.past⟩

theorem callNow_plain {o : Op} {closed : Bool} {e : JsError}
    (plain : ∀ e, o.aborted = some e → e.isTimeout = false) (failed : callNow closed o = .failed e) :
    e.isTimeout = false := by
  rw [callNow] at failed
  split at failed
  · cases failed
    rfl
  · split at failed
    · rename_i reason is
      cases failed
      exact plain e is
    · cases failed

theorem callNow_unread {o : Op} {closed : Bool} {n : ℕ} : callNow closed o ≠ .reading n := by
  rw [callNow]
  split
  · nofun
  · split <;> nofun

theorem passed_timely {w : World} (timely : w.Timely) (time : ℚ≥0) :
    ({ w with now := w.now + time } : World).Timely := by
  have le : w.now ≤ w.now + time := le_self_add
  refine { timely with
    ops := fun o inside => (timely.ops o inside).later' le
    asks := fun n t since is => ⟨(timely.asks n t since is).1, (timely.asks n t since is).2.trans le⟩
    late := ?_ }
  intro n e inside timeout
  obtain ⟨t, since, is, passed⟩ := timely.late n e inside timeout
  exact ⟨t, since, is, passed.later le⟩

theorem source_timely {w : World} (timely : w.Timely) {e : Reads.Event}
    (streams : e matches .data _ | .ended | .failed _ | .fail _) (plain : e.brings.isTimeout = false) :
    ({ w with reads := w.reads.step e } : World).Timely := by
  refine reads_timely timely (w.reads.source_adds e streams) ?_ fun err is => is ▸ plain
  rintro n err rfl timeout
  rw [plain] at timeout
  cases timeout

/-- An operation that is asked for now. -/
theorem invoked_timely {w : World} (timely : w.Timely) (kind : Op.Kind) {timeout : Option Millis}
    (signalled : Bool) (exact : ∀ t : Millis, timeout = some t → t.Exact w.early) :
    ({ w with ops := w.ops ++ [⟨kind, timeout, signalled, none, w.now,
        if kind = .connect then .connecting else .queued⟩] } : World).Timely := by
  refine { timely with ops := fun o inside => ?_ }
  rcases List.mem_append.mp inside with before | last
  · exact timely.ops o before
  · rw [List.mem_singleton.mp last]
    refine ⟨le_rfl, exact, nofun, fun e stage => ?_, fun n stage => ?_⟩
    · dsimp only at stage
      split at stage <;> cases stage
    · dsimp only at stage
      split at stage <;> cases stage

theorem connectTimer_timely {shown : Millis → JsString} {w : World} (timely : w.Timely) (op : ℕ) :
    (w.step shown (.connectTimer op)).Timely := by
  refine moved_timely timely fun o stage here moves => ?_
  split at moves
  · rename_i due
    cases moves
    obtain ⟨t, is, late⟩ := due.2
    have before := timely.ops o (List.mem_of_getElem? here)
    exact ⟨fun _ _ _ => ⟨t, is, due_passed (before.exact t is) before.past late⟩, nofun⟩
  · cases moves

theorem began_timely {shown : Millis → JsString} {w : World} (timely : w.Timely) (op : ℕ) (closed : Bool) :
    (w.step shown (.began op closed)).Timely := by
  rw [step]
  split
  · exact timely
  · rename_i o here
    split
    · exact timely
    · split
      · exact startRead_timely timely here
      · refine moved_timely timely fun o' stage there moves => ?_
        cases moves
        have before := timely.ops o' (List.mem_of_getElem? there)
        refine ⟨fun e failed timeout => ?_, fun n reading => absurd reading callNow_unread⟩
        rw [callNow_plain before.aborted failed] at timeout
        cases timeout

theorem wrote_timely {shown : Millis → JsString} {w : World} (timely : w.Timely) (op : ℕ)
    (failure : Option JsString) : (w.step shown (.wrote op failure)).Timely := by
  rw [step]
  split
  · exact timely
  · rename_i o here
    split
    · exact timely
    · split
      · refine moved_timely timely fun o' stage _ moves => ?_
        cases moves
        refine ⟨fun e failed timeout => ?_, nofun⟩
        cases failed
        cases timeout
      · exact startRead_timely timely here

theorem readTimer_timely {shown : Millis → JsString} {w : World} (timely : w.Timely) (read : ℕ) :
    (w.step shown (.readTimer read)).Timely := by
  rw [step]
  split
  · exact timely
  · rename_i timeout since asked
    split
    · rename_i due
      obtain ⟨t, rfl, late⟩ := due
      obtain ⟨exact, past⟩ := timely.asks read t since asked
      refine reads_timely timely (w.reads.timer_adds read) ?_ fun e => False.elim
      rintro n e ⟨rfl, rfl⟩ _
      exact ⟨t, since, asked, due_passed exact past late⟩
    · exact timely

theorem aborted_timely {shown : Millis → JsString} {w : World} (timely : w.Timely) (op : ℕ) {reason : JsError}
    (plain : reason.isTimeout = false) : (w.step shown (.aborted op reason)).Timely := by
  rw [step]
  split
  · exact timely
  · rename_i o here
    split
    · exact timely
    · have marked : ({ w with
          ops := w.ops.modify op fun o => { o with aborted := some reason } } : World).Timely := by
        refine { timely with ops := fun o' inside => ?_ }
        rcases mem_modify inside with kept | ⟨o'', there, rfl⟩
        · exact timely.ops o' kept
        · have before := timely.ops o'' (List.mem_of_getElem? there)
          refine { before with aborted := fun e is => ?_ }
          cases is
          exact plain
      dsimp only
      split
      · rename_i read _
        refine reads_timely marked (w.reads.abort_adds read reason) ?_ fun e => False.elim
        rintro n e ⟨_, rfl⟩ timeout
        rw [plain] at timeout
        cases timeout
      · exact marked

theorem step_timely {shown : Millis → JsString} {w : World} {event : Event} (timely : w.Timely)
    (quiet : event.Quiet) (exact : event.Exact w.early) : (w.step shown event).Timely := by
  cases event with
  | passed time => exact passed_timely timely time
  | source e streams => exact source_timely timely streams quiet
  | invoked kind given signalled =>
      refine invoked_timely timely kind _ fun t is => ?_
      cases given with
      | some timeout => exact exact t is
      | none =>
          by_cases call : kind = .call
          · rw [if_pos call] at is
            exact timely.exact t is
          · rw [if_neg call] at is
            refine exact t ?_
            rw [if_neg call]
            exact is
  | connected op =>
      refine moved_timely timely fun o stage _ moves => ?_
      split at moves
      · cases moves
        exact ⟨nofun, nofun⟩
      · cases moves
  | refused op message =>
      refine moved_timely timely fun o stage _ moves => ?_
      split at moves
      · cases moves
        refine ⟨fun e failed timeout => ?_, nofun⟩
        cases failed
        cases timeout
      · cases moves
  | connectTimer op => exact connectTimer_timely timely op
  | began op closed => exact began_timely timely op closed
  | wrote op failure => exact wrote_timely timely op failure
  | readTimer read => exact readTimer_timely timely read
  | aborted op reason => exact aborted_timely timely op quiet

/-- No event changes how early callbacks are. -/
theorem step_early (shown : Millis → JsString) (w : World) (event : Event) :
    (w.step shown event).early = w.early := by
  cases event with
  | began op closed =>
      rw [step]
      split
      · rfl
      · split_ifs <;> rfl
  | wrote op failure =>
      rw [step]
      split
      · rfl
      · split_ifs
        · rfl
        · cases failure <;> rfl
  | readTimer read =>
      rw [step]
      split
      · rfl
      · split_ifs <;> rfl
  | aborted op reason =>
      rw [step]
      split
      · rfl
      · split_ifs
        · rfl
        · dsimp only
          split <;> rfl
  | _ => rfl

theorem start_timely {early : ℚ≥0} {default : Option Millis}
    (exact : ∀ t : Millis, default = some t → t.Exact early) : (start early default).Timely where
  exact := exact
  ops _ inside := absurd inside List.not_mem_nil
  calls := rfl
  asks _ _ _ is := absurd (List.mem_of_getElem? is) List.not_mem_nil
  late _ _ inside := absurd inside List.not_mem_nil
  ended _ is := by cases is

theorem run_timely {shown : Millis → JsString} {w : World} {events : List Event} (timely : w.Timely)
    (plain : ∀ e ∈ events, e.Quiet ∧ e.Exact w.early) : (w.run shown events).Timely := by
  induction events generalizing w with
  | nil => exact timely
  | cons e rest ih =>
      obtain ⟨first, later⟩ := List.forall_mem_cons.mp plain
      exact ih (step_timely timely first.1 first.2) (by rwa [step_early])

/-- What an operation makes of a rejected read is a timeout only where the rejection was. -/
theorem rejection_plain {o : Op} {e : JsError} (plain : ∀ e, o.aborted = some e → e.isTimeout = false)
    (timeout : (o.rejection e).isTimeout = true) : e.isTimeout = true := by
  rw [Op.rejection] at timeout
  split at timeout
  · split at timeout
    · exact timeout
    · cases timeout
  · split at timeout
    · assumption
    · split at timeout
      · rename_i reason is
        rw [plain reason is] at timeout
        cases timeout
      · split at timeout
        · exact timeout
        · cases timeout

theorem Timely.punctual {w : World} (timely : w.Timely) : w.Punctual := by
  intro o inside e fails timeout
  have op := timely.ops o inside
  cases fails with
  | before stage => exact op.failed e stage timeout
  | @read n e stage settled =>
      obtain ⟨t, since, is, passed⟩ := timely.late n e settled (rejection_plain op.aborted timeout)
      obtain ⟨asked, same, le⟩ := op.reading n stage
      obtain ⟨timeout, rfl⟩ := Prod.mk.inj (Option.some.inj (is.symm.trans same))
      exact ⟨t, timeout.symm, passed.earlier le⟩

end World

/-! ## Runs that are early -/

namespace World

/-- An operation, and its timer as soon as Node may run it. -/
def hasty (early : ℚ≥0) (t : Millis) : Op.Kind → List Event
  | .connect => [.invoked .connect (some (some t)) false, .passed (t.delay - early), .connectTimer 0]
  | .hello => [.invoked .hello (some (some t)) false, .began 0 false, .passed (t.delay - early),
      .readTimer 0]
  | .call => [.invoked .call (some (some t)) false, .began 0 false, .wrote 0 none,
      .passed (t.delay - early), .readTimer 0]

/-- An operation that is behind a read of its own, which has timed out. -/
def expired (early : ℚ≥0) (kind : Op.Kind) (t : Millis) : World :=
  ⟨early, none, t.delay - early, Reads.start.run [.readLine true none, .timer 0], [(some t, 0)],
    [⟨kind, some t, false, none, 0, .reading 0⟩]⟩

theorem due_delay {w : World} {t : Millis} (now : w.now = t.delay - w.early) : w.Due (some t) 0 :=
  ⟨t, rfl, by rw [now, zero_add]; exact le_tsub_add⟩

variable {shown : Millis → JsString} {early : ℚ≥0} {t : Millis}

theorem hasty_hello : (start early none).run shown (hasty early t .hello) = expired early .hello t := by
  have first : Reads.start.calls = 0 := rfl
  simp [first, run, hasty, step, start, startRead, moved, resolveTimeout, due_delay, expired, Reads.run]

theorem hasty_call : (start early none).run shown (hasty early t .call) = expired early .call t := by
  have first : Reads.start.calls = 0 := rfl
  simp [first, run, hasty, step, start, startRead, moved, resolveTimeout, due_delay, expired, Reads.run, callNow]

theorem hasty_connect : (start early none).run shown (hasty early t .connect) =
    ⟨early, none, t.delay - early, .start, [], [⟨.connect, some t, false, none, 0,
      .failed (.timeout (lit "timed out connecting after " ++ shown t ++ lit "ms"))⟩]⟩ := by
  simp [run, hasty, step, start, moved, resolveTimeout, due_delay, connectTimedOut]

/-- The operation of such a run has failed with a timeout when its timer has run. -/
theorem hasty_passed {kind : Op.Kind}
    (punctual : ((start early none).run shown (hasty early t kind)).Punctual) :
    t.Passed 0 (t.delay - early) := by
  have behind (kind : Op.Kind) (punctual : (expired early kind t).Punctual) :
      t.Passed 0 (t.delay - early) := by
    have settled : (0, .error Reads.timedOut) ∈ (expired early kind t).reads.settled :=
      List.mem_singleton_self _
    have timeout : (Op.rejection ⟨kind, some t, false, none, 0, .reading 0⟩ Reads.timedOut).isTimeout = true := by
      cases kind <;> rfl
    obtain ⟨t', same, passed⟩ := punctual _ List.mem_cons_self _ (.read rfl settled) timeout
    cases same
    exact passed
  cases kind with
  | hello =>
      rw [hasty_hello] at punctual
      exact behind .hello punctual
  | call =>
      rw [hasty_call] at punctual
      exact behind .call punctual
  | connect =>
      rw [hasty_connect] at punctual
      obtain ⟨t', same, passed⟩ := punctual _ List.mem_cons_self _ (.before rfl) rfl
      cases same
      exact passed

/-- The only operations are of that kind and have that timeout. -/
def Event.Only (kind : Op.Kind) (t : Millis) : Event → Prop
  | .invoked other given _ => other = kind ∧ given = some (some t)
  | _ => True

theorem hasty_only (kind : Op.Kind) : ∀ e ∈ hasty early t kind, e.Quiet ∧ e.Only kind t := by
  cases kind <;> simp [hasty, Event.Only, Event.Quiet]

end World

/-- However early callbacks may be: over a connection whose timeouts are exact no connect,
hello or call fails with a timeout before its time; and for each kind of operation and each
timeout, none of that kind with that timeout does in any run exactly if it is exact. -/
theorem timeouts_early (shown : Millis → JsString) (early : ℚ≥0) :
    (∀ (default : Option Millis) (events : List World.Event),
      (∀ t : Millis, default = some t → t.Exact early) →
      (∀ e ∈ events, e.Quiet ∧ e.Exact early) →
        ((World.start early default).run shown events).Punctual) ∧
    ∀ (kind : Op.Kind) (t : Millis),
      (∀ events : List World.Event, (∀ e ∈ events, e.Quiet ∧ e.Only kind t) →
        ((World.start early none).run shown events).Punctual) ↔ t.Exact early := by
  have always (default : Option Millis) (events : List World.Event)
      (exact : ∀ t : Millis, default = some t → t.Exact early)
      (plain : ∀ e ∈ events, e.Quiet ∧ e.Exact early) : ((World.start early default).run shown events).Punctual :=
    (World.run_timely (World.start_timely exact) plain).punctual
  refine ⟨always, fun kind t => ⟨fun law => ?_, fun exact events only => ?_⟩⟩
  · have passed := World.hasty_passed (law _ (World.hasty_only kind))
    exact (t.exact_iff early 0).mpr (by rwa [zero_add])
  · refine always none events nofun fun e inside => ?_
    obtain ⟨quiet, kept⟩ := only e inside
    refine ⟨quiet, ?_⟩
    cases e with
    | invoked other given signalled =>
        obtain ⟨_, rfl⟩ := kept
        intro t' is
        cases is
        exact exact
    | _ => trivial

/-- The least number of milliseconds that is too long for a timer. -/
def tooLongMs : Millis := .ms 2147483648

/-- A call that is given some 25 days fails with a timeout after a millisecond, though no
callback is early. -/
theorem long_timeout_early :
    ¬ ((World.start 0 none).run (fun _ => []) [.invoked .call (some (some tooLongMs)) false, .began 0 false,
      .wrote 0 none, .passed 1, .readTimer 0]).Punctual := by
  have delay : (tooLongMs.delay : ℚ≥0) - 0 = 1 := by
    rw [tooLongMs, Millis.delay, if_pos (.inr (by norm_num)), tsub_zero, Nat.cast_one]
  intro punctual
  have late := @World.hasty_passed (fun _ => []) 0 tooLongMs .call
  rw [World.hasty, delay] at late
  exact absurd (show (0 : ℚ≥0) + 2147483648 ≤ 1 from late punctual) (by norm_num)

end SanDbOxFormal.TypeScript
