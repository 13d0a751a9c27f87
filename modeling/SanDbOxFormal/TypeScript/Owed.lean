import SanDbOxFormal.TypeScript.Reads

/-!
# What the reads are owed

Which reads are without a line, by the account of what has happened outside: the chunks
and the end of the source, the calls of `readLine`, the timers that ran and the signals
that were aborted.  The reads that have not given up stand in the order of the calls, and
the lines that have come go to the first of them.
-/

namespace SanDbOxFormal.TypeScript

open SanDbOxFormal.Library.CappedFraming

/-- A call of `readLine`, by its number, with or without a timer and a signal. -/
structure Asked where
  call : ℕ
  timed : Bool
  signalled : Bool

/-- The chunks that came, whether the source is at its end, how many reads were called and
which of them have not given up. -/
structure Account where
  came : List (List UInt8)
  ended : Bool
  calls : ℕ
  standing : List Asked

namespace Account

def start : Account := ⟨[], false, 0, []⟩

def stream (a : Account) : Progress UInt8 := progress lf maxLineBytes a.came

def lines (a : Account) : ℕ := a.stream.lines.length

/-- The reads for which no line has come. -/
def waiting (a : Account) : List Asked := a.standing.drop a.lines

/-- Some of those who wait give up. -/
def dismiss (a : Account) (p : Asked → Bool) : Account :=
  { a with standing := a.standing.take a.lines ++ a.waiting.filter fun r => !p r }

/-- A read whose signal is aborted already stands only where a line is there for it. -/
def step (a : Account) : Reads.Event → Account
  | .data chunk => { a with came := a.came ++ [chunk] }
  | .ended => { a with ended := true }
  | .failed _ => { a with ended := true }
  | .fail _ => { a with ended := true }
  | .readLine timed signal =>
      { a with
        calls := a.calls + 1
        standing := a.standing ++
          if signal.join.isSome ∧ a.lines ≤ a.standing.length then []
          else [⟨a.calls, timed, signal.isSome⟩] }
  | .timer call => a.dismiss fun r => decide (r.call = call) && r.timed
  | .abort call _ => a.dismiss fun r => decide (r.call = call) && r.signalled

def run (a : Account) (events : List Reads.Event) : Account := events.foldl step a

/-- The source goes on, and more reads stand than lines have come. -/
def Owes (a : Account) : Prop :=
  a.ended = false ∧ a.stream.capped = false ∧ a.lines < a.standing.length

instance (a : Account) : Decidable a.Owes := inferInstanceAs (Decidable (_ ∧ _ ∧ _))

/-! ## What the reader keeps of it -/

/-- The reads with a mark are those of the waiting ones that were called with it. -/
def Marked (a : Account) (mark : Asked → Bool) (marks : List ℕ) : Prop :=
  ∀ call, call ∈ marks ↔ ∃ r ∈ a.waiting, r.call = call ∧ mark r = true

structure Live (a : Account) (s : Reads) : Prop where
  standing : a.standing.map Asked.call = Reads.given s.settled ++ s.reader.waiters
  timers : a.Marked Asked.timed s.timers
  listeners : a.Marked Asked.signalled s.listeners

structure Kept (a : Account) (s : Reads) : Prop where
  sound : s.Sound
  calls : s.calls = a.calls
  ended : a.ended = true → s.reader.terminal.isSome = true
  measured : a.ended = false → LineReader.Measured a.stream s.reader (LineReader.lines s.settled)
  live : s.reader.terminal = none → Live a s

theorem start_kept : Kept .start .start where
  sound := Reads.start_sound
  calls := rfl
  ended := nofun
  measured _ := ⟨.inl rfl, rfl, rfl, fun _ => rfl, fun _ => List.not_mem_nil, fun _ => Nat.zero_le _⟩
  live _ := ⟨rfl, fun _ => by simp [Reads.start, waiting, start], fun _ => by simp [Reads.start, waiting, start]⟩

theorem given_length (settled : LineReader.Settled ℕ) :
    (Reads.given settled).length = (LineReader.lines settled).length := by
  induction settled with
  | nil => rfl
  | cons o rest ih =>
      obtain ⟨call, outcome⟩ := o
      cases outcome with
      | error err => exact ih
      | ok line => exact congrArg Nat.succ ih

variable {a : Account} {s : Reads}

theorem Kept.running (kept : Kept a s) (live : s.reader.terminal = none) : a.ended = false := by
  cases ended : a.ended with
  | false => rfl
  | true =>
      have gone := kept.ended ended
      rw [live] at gone
      cases gone

/-- The lines that came went to the first reads, or are queued. -/
theorem lines_eq (measured : LineReader.Measured a.stream s.reader (LineReader.lines s.settled)) :
    a.lines = (Reads.given s.settled).length + s.reader.queue.length := by
  rw [lines, ← measured.lines, List.length_append, given_length]

theorem waiting_eq (measured : LineReader.Measured a.stream s.reader (LineReader.lines s.settled))
    (standing : a.standing.map Asked.call = Reads.given s.settled ++ s.reader.waiters) :
    a.waiting.map Asked.call = s.reader.waiters := by
  have lines := lines_eq measured
  rw [Account.waiting, List.map_drop, standing]
  rcases measured.prompt with empty | idle
  · rw [empty, List.length_nil, Nat.add_zero] at lines
    rw [lines, List.drop_left]
  · rw [idle, List.append_nil, List.drop_eq_nil_of_le]
    omega

theorem Kept.waiting (kept : Kept a s) (live : s.reader.terminal = none) :
    a.waiting.map Asked.call = s.reader.waiters :=
  waiting_eq (kept.measured (kept.running live)) (kept.live live).standing

/-- By the account a read is owed a line exactly if one waits at a source that goes on. -/
theorem Kept.owes_iff (kept : Kept a s) :
    a.Owes ↔ s.reader.terminal = none ∧ s.reader.waiters ≠ [] := by
  have counts (live : s.reader.terminal = none) : a.lines < a.standing.length ↔ s.reader.waiters ≠ [] := by
    rw [← kept.waiting live, ← List.length_pos_iff, List.length_map, Account.waiting, List.length_drop,
      Nat.sub_pos_iff_lt]
  constructor
  · rintro ⟨running, short, more⟩
    have live : s.reader.terminal = none := by
      rw [(kept.measured running).terminal, short]
      rfl
    exact ⟨live, (counts live).mp more⟩
  · rintro ⟨live, waits⟩
    have running := kept.running live
    refine ⟨running, ?_, (counts live).mpr waits⟩
    have terminal := (kept.measured running).terminal
    rw [live] at terminal
    cases capped : a.stream.capped with
    | false => rfl
    | true =>
        rw [capped] at terminal
        cases terminal

/-! ## One event -/

theorem settle_marks (s : Reads) (out : LineReader.Settled ℕ) :
    (s.settle out).timers = s.timers.diff (out.map Prod.fst) ∧
      (s.settle out).listeners = s.listeners.diff (out.map Prod.fst) := by
  induction out generalizing s with
  | nil => exact ⟨rfl, rfl⟩
  | cons o rest ih =>
      rw [List.map_cons, List.diff_cons, List.diff_cons]
      exact ih (s.settleOne o)

/-- The marks of those who got something are taken away. -/
theorem Marked.handed {b : Account} {mark : Asked → Bool} {marks out : List ℕ} {front : List Asked}
    (marked : a.Marked mark marks) (nodup : marks.Nodup) (split : a.waiting = front ++ b.waiting)
    (same : front.map Asked.call = out) (apart : (a.waiting.map Asked.call).Nodup) :
    b.Marked mark (marks.diff out) := by
  intro call
  rw [nodup.mem_sdiff_iff, marked call, split, ← same]
  rw [split, List.map_append] at apart
  constructor
  · rintro ⟨⟨r, inside, rfl, is⟩, other⟩
    refine ⟨r, (List.mem_append.mp inside).resolve_left fun before => ?_, rfl, is⟩
    exact other (List.mem_map_of_mem before)
  · rintro ⟨r, inside, rfl, is⟩
    refine ⟨⟨r, List.mem_append_right _ inside, rfl, is⟩, fun before => ?_⟩
    exact (List.nodup_append.mp apart).2.2 _ before _ (List.mem_map_of_mem inside) rfl

theorem Kept.distinct (kept : Kept a s) : s.reader.waiters.Nodup :=
  (List.nodup_append.mp kept.sound.nodup).2.1

/-- A chunk: the lines that it completes go to those who have waited longest. -/
theorem Kept.data (kept : Kept a s) (chunk : List UInt8) :
    Kept (a.step (.data chunk)) (s.step (.data chunk)) := by
  have handed := Reads.onData_handed s.reader chunk
  obtain ⟨sound, reader, settled, calls⟩ := kept.sound.handed handed
  have measured (running : a.ended = false) : LineReader.Measured (a.step (.data chunk)).stream
      (s.step (.data chunk)).reader (LineReader.lines (s.step (.data chunk)).settled) := by
    change LineReader.Measured (progress lf maxLineBytes (a.came ++ [chunk])) (s.onData chunk).reader
      (LineReader.lines (s.onData chunk).settled)
    rw [Reads.onData, reader, settled, LineReader.lines_append, progress_concat]
    exact (kept.measured running).onData chunk
  refine ⟨sound, calls.trans kept.calls, fun ended => ?_, measured, fun live => ?_⟩
  · exact Option.isSome_iff_exists.mpr ((Option.isSome_iff_exists.mp (kept.ended ended)).imp
      fun _ terminal => (Reads.run_ended kept.sound terminal [.data chunk]).1)
  · have before : s.reader.terminal = none := by
      by_contra some
      obtain ⟨err, terminal⟩ := Option.ne_none_iff_exists'.mp some
      have still := (Reads.run_ended kept.sound terminal [.data chunk]).1
      change (s.step (.data chunk)).reader.terminal = _ at still
      cases live.symm.trans still
    obtain ⟨standing, timers, listeners⟩ := kept.live before
    have lined : ∀ o ∈ (s.reader.onData chunk).2, ∃ line, o.2 = .ok line := by
      intro o inside
      refine (Reads.onData_outcomes o inside).resolve_right ?_
      rintro ⟨err, _, terminal⟩
      rw [← reader] at terminal
      cases live.symm.trans terminal
    have given : Reads.given (s.reader.onData chunk).2 = (s.reader.onData chunk).2.map Prod.fst := by
      rw [Reads.given, List.filter_eq_self.mpr]
      intro o inside
      obtain ⟨line, is⟩ := lined o inside
      rw [is]
      rfl
    have standing' : (a.step (.data chunk)).standing.map Asked.call =
        Reads.given (s.step (.data chunk)).settled ++ (s.step (.data chunk)).reader.waiters := by
      change a.standing.map Asked.call = Reads.given (s.onData chunk).settled ++ (s.onData chunk).reader.waiters
      rw [standing, Reads.onData, reader, settled, Reads.given_append, given, List.append_assoc,
        ← handed.waiters]
    have now := kept.waiting before
    have then' := waiting_eq (measured (kept.running before)) standing'
    change (a.step (.data chunk)).waiting.map Asked.call = (s.onData chunk).reader.waiters at then'
    rw [handed.waiters] at now
    rw [Reads.onData, reader] at then'
    obtain ⟨front, split⟩ : (a.step (.data chunk)).waiting <:+ a.waiting := by
      refine List.suffix_of_suffix_length_le (List.drop_suffix _ _) (List.drop_suffix _ a.standing) ?_
      rw [← List.length_map Asked.call, then', ← List.length_map Asked.call, now,
        List.length_append]
      exact Nat.le_add_left _ _
    have same : front.map Asked.call = (s.reader.onData chunk).2.map Prod.fst := by
      rw [← split, List.map_append, then'] at now
      exact List.append_cancel_right now
    have apart : (a.waiting.map Asked.call).Nodup := kept.waiting before ▸ kept.distinct
    obtain ⟨marks, listens⟩ := settle_marks { s with reader := (s.reader.onData chunk).1 } (s.reader.onData chunk).2
    refine ⟨standing', ?_, ?_⟩
    · change (a.step (.data chunk)).Marked _ (s.onData chunk).timers
      rw [Reads.onData, marks]
      exact timers.handed (kept.distinct.sublist kept.sound.timers) split.symm same apart
    · change (a.step (.data chunk)).Marked _ (s.onData chunk).listeners
      rw [Reads.onData, listens]
      exact listeners.handed (kept.distinct.sublist kept.sound.listeners) split.symm same apart

/-- The end of the source settles everything. -/
theorem Kept.ends (kept : Kept a s) {event : Reads.Event} (err : JsError)
    (ends : s.step event = s.terminate err) (marks : a.step event = { a with ended := true }) :
    Kept (a.step event) (s.step event) := by
  obtain ⟨sound, _, _, calls⟩ := kept.sound.handed (Reads.terminate_handed s.reader err)
  have ended := (Reads.terminate_flow kept.sound err).2
  rw [ends, marks]
  refine ⟨sound, calls.trans kept.calls, fun _ => ended, nofun, fun live => ?_⟩
  rw [live] at ended
  cases ended

theorem standing_length (standing : a.standing.map Asked.call = Reads.given s.settled ++ s.reader.waiters) :
    a.standing.length = (Reads.given s.settled).length + s.reader.waiters.length := by
  rw [← List.length_map Asked.call, standing, List.length_append]

/-- A new read that takes a queued line: nobody waited. -/
theorem Kept.takes (kept : Kept a s) (live : s.reader.terminal = none) {line : List UInt8}
    {queue : List (List UInt8)} (queued : s.reader.queue = line :: queue) (timed : Bool)
    (signal : Option (Option JsError)) :
    Live (a.step (.readLine timed signal)) (s.step (.readLine timed signal)) := by
  have measured := kept.measured (kept.running live)
  obtain ⟨standing, timers, listeners⟩ := kept.live live
  have idle : s.reader.waiters = [] := measured.prompt.resolve_left (by simp [queued])
  have size := standing_length standing
  have lines := lines_eq measured
  rw [idle, List.length_nil, Nat.add_zero] at size
  rw [queued, List.length_cons] at lines
  have asked : a.step (.readLine timed signal) =
      { a with calls := a.calls + 1, standing := a.standing ++ [⟨a.calls, timed, signal.isSome⟩] } := by
    rw [step, if_neg]
    rintro ⟨_, few⟩
    omega
  have read : s.step (.readLine timed signal) = { s with
      reader := { s.reader with queue := queue, paused := s.reader.paused && !queue.isEmpty }
      calls := s.calls + 1
      settled := s.settled ++ [(s.calls, .ok line)] } := by
    rw [Reads.step, Reads.readLine, LineReader.readLine.eq_def, queued]
  have none (b : Account) (came : b.came = a.came)
      (more : b.standing = a.standing ++ [⟨a.calls, timed, signal.isSome⟩]) : b.waiting = [] := by
    apply List.drop_eq_nil_of_le
    rw [more, Account.lines, stream, came, List.length_append, size]
    change _ ≤ a.lines
    rw [lines, List.length_singleton]
    omega
  have quiet {mark : Asked → Bool} {marks : List ℕ} (sub : marks.Sublist s.reader.waiters) :
      (a.step (.readLine timed signal)).Marked mark marks := by
    intro call
    rw [idle] at sub
    rw [List.sublist_nil.mp sub, none _ (by rw [asked]) (by rw [asked])]
    simp
  rw [read]
  refine ⟨?_, quiet kept.sound.timers, quiet kept.sound.listeners⟩
  rw [asked, List.map_append, standing, Reads.given_append, kept.calls]
  simp [idle, Reads.given, Except.toBool]

/-- A new read whose signal was aborted before, and for which no line is there. -/
theorem Kept.refused (kept : Kept a s) (live : s.reader.terminal = none) (empty : s.reader.queue = [])
    {signal : Option (Option JsError)} {reason : JsError} (stopped : signal.join = some reason)
    (timed : Bool) : Live (a.step (.readLine timed signal)) (s.step (.readLine timed signal)) := by
  have lines := lines_eq (kept.measured (kept.running live))
  obtain ⟨standing, timers, listeners⟩ := kept.live live
  have size := standing_length standing
  rw [empty, List.length_nil, Nat.add_zero] at lines
  have asked : a.step (.readLine timed signal) = { a with calls := a.calls + 1 } := by
    rw [step, if_pos ⟨by rw [stopped]; rfl, by omega⟩, List.append_nil]
  have read : s.step (.readLine timed signal) =
      { s with calls := s.calls + 1, settled := s.settled ++ [(s.calls, .error reason)] } := by
    rw [Reads.step, Reads.readLine, LineReader.readLine.eq_def, empty, live, stopped]
  rw [asked, read]
  refine ⟨?_, timers, listeners⟩
  rw [Reads.given_append]
  exact standing.trans (by simp [Reads.given, Except.toBool])

/-- A new read that waits. -/
theorem Kept.joins (kept : Kept a s) (live : s.reader.terminal = none) (empty : s.reader.queue = [])
    {signal : Option (Option JsError)} (goes : signal.join = none) (timed : Bool) :
    Live (a.step (.readLine timed signal)) (s.step (.readLine timed signal)) := by
  have lines := lines_eq (kept.measured (kept.running live))
  obtain ⟨standing, timers, listeners⟩ := kept.live live
  have size := standing_length standing
  rw [empty, List.length_nil, Nat.add_zero] at lines
  have asked : a.step (.readLine timed signal) =
      { a with calls := a.calls + 1, standing := a.standing ++ [⟨a.calls, timed, signal.isSome⟩] } := by
    rw [step, if_neg (by simp [goes])]
  have read : s.step (.readLine timed signal) = { s with
      reader := { s.reader with waiters := s.reader.waiters ++ [s.calls] }
      calls := s.calls + 1
      timers := if timed then s.timers ++ [s.calls] else s.timers
      listeners := if signal.isSome then s.listeners ++ [s.calls] else s.listeners } := by
    simp only [Reads.step, Reads.readLine, LineReader.readLine, empty, live, goes]
  have waiting : (a.step (.readLine timed signal)).waiting = a.waiting ++ [⟨a.calls, timed, signal.isSome⟩] := by
    rw [asked]
    exact List.drop_append_of_le_length (show a.lines ≤ a.standing.length by omega)
  have joined {mark : Asked → Bool} {marks : List ℕ} (marked : a.Marked mark marks) {flag : Bool}
      (is : mark ⟨a.calls, timed, signal.isSome⟩ = flag) :
      (a.step (.readLine timed signal)).Marked mark (if flag then marks ++ [s.calls] else marks) := by
    have more (call : ℕ) : (∃ r ∈ a.waiting ++ [⟨a.calls, timed, signal.isSome⟩], r.call = call ∧ mark r = true) ↔
        call ∈ marks ∨ s.calls = call ∧ flag = true := by
      simp only [List.mem_append, List.mem_singleton, or_and_right, exists_or, exists_eq_left, ← marked call, is,
        kept.calls]
    intro call
    rw [waiting, more]
    cases flag with
    | false => simp
    | true => simp [eq_comm]
  rw [read]
  refine ⟨?_, joined timers rfl, joined listeners rfl⟩
  rw [asked, List.map_append, standing, List.append_assoc, kept.calls]
  rfl

/-- A new read takes a queued line, is rejected, or waits. -/
theorem Kept.readLine (kept : Kept a s) (timed : Bool) (signal : Option (Option JsError)) :
    Kept (a.step (.readLine timed signal)) (s.step (.readLine timed signal)) := by
  obtain ⟨reader, lines⟩ := s.readLine_lines timed signal
  have measured (running : (a.step (.readLine timed signal)).ended = false) :
      LineReader.Measured (a.step (.readLine timed signal)).stream (s.step (.readLine timed signal)).reader
        (LineReader.lines (s.step (.readLine timed signal)).settled) := by
    change LineReader.Measured a.stream (s.readLine timed signal).reader
      (LineReader.lines (s.readLine timed signal).settled)
    rw [reader, lines]
    exact (kept.measured running).readLine _ _
  have terminal : (s.step (.readLine timed signal)).reader.terminal = s.reader.terminal := by
    change (s.readLine timed signal).reader.terminal = _
    rw [reader, LineReader.readLine.eq_def]
    split
    · rfl
    · split
      · rfl
      · split <;> rfl
  have calls : (s.step (.readLine timed signal)).calls = s.calls + 1 := by
    change (s.readLine timed signal).calls = _
    rw [Reads.readLine]
    split <;> rfl
  refine ⟨kept.sound.step _, calls.trans (congrArg Nat.succ kept.calls), fun ended => ?_, measured,
    fun live => ?_⟩
  · rw [terminal]
    exact kept.ended ended
  · rw [terminal] at live
    cases queued : s.reader.queue with
    | cons line queue => exact kept.takes live queued timed signal
    | nil =>
        cases stopped : signal.join with
        | some reason => exact kept.refused live queued stopped timed
        | none => exact kept.joins live queued stopped timed

/-! ## Giving up -/

theorem dismiss_lines (a : Account) (p : Asked → Bool) : (a.dismiss p).lines = a.lines := rfl

theorem dismiss_waiting (a : Account) (p : Asked → Bool) :
    (a.dismiss p).waiting = a.waiting.filter fun r => !p r := by
  rw [waiting, dismiss_lines, dismiss]
  rcases Nat.le_total a.lines a.standing.length with some | none
  · exact List.drop_left' (List.length_take_of_le some)
  · rw [waiting, List.drop_eq_nil_of_le none, List.filter_nil, List.append_nil, List.take_of_length_le none]
    exact List.drop_eq_nil_of_le none

/-- Nobody gives up. -/
theorem dismiss_none {a : Account} {p : Asked → Bool} (none : ∀ r ∈ a.waiting, p r = false) :
    a.dismiss p = a := by
  have all : a.waiting.filter (fun r => !p r) = a.waiting :=
    List.filter_eq_self.mpr fun r inside => by rw [none r inside]; rfl
  rw [dismiss, all, waiting, List.take_append_drop]

/-- The timer or the signal of a read that waits: it stands no longer, and nothing else
changes. -/
theorem Kept.quits (kept : Kept a s) (live : s.reader.terminal = none) {mark : Asked → Bool}
    {marks : List ℕ} (marked : a.Marked mark marks) {call : ℕ} (there : call ∈ marks) (err : JsError) :
    Live (a.dismiss fun r => decide (r.call = call) && mark r) (s.settleOne (call, .error err)) := by
  have measured := kept.measured (kept.running live)
  have same := kept.waiting live
  have distinct : (a.waiting.map Asked.call).Nodup := same ▸ kept.distinct
  obtain ⟨standing, timers, listeners⟩ := kept.live live
  obtain ⟨r, waits, rfl, is⟩ := (marked call).mp there
  have only (q : Asked) (inside : q ∈ a.waiting) : (decide (q.call = r.call) && mark q) = decide (q.call = r.call) := by
    by_cases one : q.call = r.call
    · rw [List.inj_on_of_nodup_map distinct inside waits one, is, Bool.and_true]
    · rw [decide_eq_false one, Bool.false_and]
  have left : (a.dismiss fun q => decide (q.call = r.call) && mark q).waiting =
      a.waiting.filter fun q => !decide (q.call = r.call) := by
    rw [dismiss_waiting]
    exact List.filter_congr fun q inside => by rw [only q inside]
  have fewer {mark' : Asked → Bool} {marks' : List ℕ} (marked' : a.Marked mark' marks') (nodup : marks'.Nodup) :
      (a.dismiss fun q => decide (q.call = r.call) && mark q).Marked mark' (marks'.erase r.call) := by
    intro other
    rw [nodup.mem_erase_iff, marked' other, left]
    constructor
    · rintro ⟨apart, q, inside, rfl, holds⟩
      exact ⟨q, List.mem_filter.mpr ⟨inside, by simpa using apart⟩, rfl, holds⟩
    · rintro ⟨q, inside, rfl, holds⟩
      obtain ⟨inside, apart⟩ := List.mem_filter.mp inside
      exact ⟨by simpa using apart, q, inside, rfl, holds⟩
  refine ⟨?_, fewer timers (kept.distinct.sublist kept.sound.timers),
    fewer listeners (kept.distinct.sublist kept.sound.listeners)⟩
  -- Someone waits, so nothing is queued, and the first reads are those who got the lines.
  have busy : s.reader.waiters ≠ [] := by
    rw [← same]
    exact List.ne_nil_of_mem (List.mem_map_of_mem waits)
  have lines := lines_eq measured
  rw [measured.prompt.resolve_right busy, List.length_nil, Nat.add_zero] at lines
  have got : (a.standing.take a.lines).map Asked.call = Reads.given s.settled := by
    rw [List.map_take, standing, lines, List.take_left]
  have gone : (a.waiting.filter fun q => !decide (q.call = r.call)).map Asked.call =
      s.reader.waiters.erase r.call := by
    rw [kept.distinct.erase_eq_filter, ← same, List.filter_map]
    refine congrArg (List.map Asked.call) (List.filter_congr fun q _ => ?_)
    by_cases one : q.call = r.call <;> simp [one]
  rw [dismiss, ← dismiss_waiting, left, List.map_append, got, gone]
  change _ = Reads.given (s.settled ++ [(r.call, .error err)]) ++ s.reader.waiters.erase r.call
  rw [Reads.given_append]
  simp [Reads.given, Except.toBool]

theorem Kept.gives (kept : Kept a s) {mark : Asked → Bool} {marks : List ℕ}
    (marked : s.reader.terminal = none → a.Marked mark marks) (waiting : marks.Sublist s.reader.waiters)
    (call : ℕ) (err : JsError) :
    Kept (a.dismiss fun r => decide (r.call = call) && mark r)
      (if call ∈ marks then s.settleOne (call, .error err) else s) := by
  split
  · rename_i there
    refine ⟨kept.sound.withdrawn (waiting.subset there) err, kept.calls, kept.ended, fun running => ?_,
      fun live => kept.quits live (marked live) there err⟩
    change LineReader.Measured a.stream _ _
    rw [Reads.settleOne_lines]
    exact (kept.measured running).withdraw call
  · rename_i other
    refine ⟨kept.sound, kept.calls, kept.ended, kept.measured, fun live => ?_⟩
    rw [dismiss_none]
    · exact kept.live live
    · intro r inside
      by_contra holds
      rw [Bool.not_eq_false, Bool.and_eq_true, decide_eq_true_eq] at holds
      exact other ((marked live call).mpr ⟨r, inside, holds⟩)

theorem Kept.step (kept : Kept a s) (event : Reads.Event) : Kept (a.step event) (s.step event) := by
  cases event with
  | data chunk => exact kept.data chunk
  | ended => exact kept.ends Reads.eof rfl rfl
  | failed err => exact kept.ends err rfl rfl
  | fail err => exact kept.ends err rfl rfl
  | readLine timed signal => exact kept.readLine timed signal
  | timer call =>
      exact kept.gives (fun live => (kept.live live).timers) kept.sound.timers call Reads.timedOut
  | abort call reason =>
      exact kept.gives (fun live => (kept.live live).listeners) kept.sound.listeners call reason

theorem Kept.run (kept : Kept a s) (events : List Reads.Event) : Kept (a.run events) (s.run events) := by
  induction events generalizing a s with
  | nil => exact kept
  | cons event rest ih => exact ih (kept.step event)

/-- After any events a read waits at a source that goes on exactly if the account of these
events has one without a line. -/
theorem run_owes_iff (events : List Reads.Event) :
    (start.run events).Owes ↔
      (Reads.start.run events).reader.terminal = none ∧ (Reads.start.run events).reader.waiters ≠ [] :=
  (start_kept.run events).owes_iff

end Account

end SanDbOxFormal.TypeScript
