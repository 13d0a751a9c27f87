import SanDbOxFormal.Rust.Transport.Direct

/-!
# Whom SIGTERM reaches

Once the exit of a child was collected, its process id may belong to a stranger.
`wait_bounded` takes an error of `try_wait` for a child that still runs, so the signal is
sent to the child alone as long as nobody else in the process collects its exit.
-/

namespace SanDbOxFormal.Rust.Transport

/-- The event tells that the exit of the child was collected, by this handle or, if it is
an error, by another part of the process. -/
def ChildEvent.collected : ChildEvent → Bool
  | .tryWait (.ok none) => false
  | .tryWait _ => true
  | .wait _ => true
  | .terminate => false
  | .kill => false

/-- Every SIGTERM was sent before the exit of the child was collected. -/
def OwnSignals (log : List ChildEvent) : Prop :=
  ∀ front back, log = front ++ .terminate :: back → ∀ e ∈ front, e.collected = false

theorem OwnSignals.append {log events : List ChildEvent} (own : OwnSignals log)
    (quiet : .terminate ∉ events) : OwnSignals (log ++ events) := by
  intro front back shape e inside
  obtain ⟨more, same, rest⟩ | ⟨more, same, rest⟩ := List.append_eq_append_iff.mp shape
  · refine absurd ?_ quiet
    rw [rest]
    exact List.mem_append_right _ List.mem_cons_self
  · cases more with
    | nil =>
        refine absurd ?_ quiet
        rw [List.nil_append] at rest
        rw [← rest]
        exact List.mem_cons_self
    | cons first more =>
        obtain ⟨rfl, _⟩ := List.cons.inj rest
        exact own front more same e inside

theorem ownSignals_terminate {log : List ChildEvent}
    (unreaped : ∀ e ∈ log, e.collected = false) : OwnSignals (log ++ [.terminate]) := by
  intro front back shape e inside
  obtain ⟨more, same, rest⟩ | ⟨more, same, rest⟩ := List.append_eq_append_iff.mp shape
  · have none : more = [] := by
      cases more with
      | nil => rfl
      | cons first more =>
          have tail := (List.cons.inj rest).2
          simp at tail
    rw [same, none, List.append_nil] at inside
    exact unreaped e inside
  · exact unreaped e (same ▸ List.mem_append_left _ inside)

namespace Child

/-- Nobody but this handle collects the exit: no look at the child ends in an error. -/
structure Ours (c : Child) : Prop where
  looks : ∀ e, .error e ∉ c.tryWaits
  waits : ∀ e, .error e ∉ c.waits

/-- What `wait_bounded` adds to the log. -/
theorem waitLoop_log {deadline : Option Nat} {script : List (Except IoError (Option ExitStatus))}
    {c c' : Child} {clock clock' : Clock} {status : Option ExitStatus}
    (looped : waitLoop deadline script c clock = .ok (status, c', clock')) :
    ∃ seen, seen <+: script ∧ seen ≠ [] ∧ c'.log = c.log ++ seen.map .tryWait ∧ c'.waits = c.waits ∧
      c'.tryWaits <:+ script ∧ (∀ st, status = some st ↔ .ok (some st) ∈ seen) := by
  induction script generalizing c clock with
  | nil => cases looped
  | cons result rest ih =>
      rw [waitLoop.eq_def] at looped
      dsimp only at looped
      split at looped
      · rename_i st
        cases looped
        refine ⟨[.ok (some st)], List.prefix_append [_] rest, List.cons_ne_nil _ _, rfl, rfl,
          List.suffix_cons _ _, fun st' => ?_⟩
        rw [List.mem_singleton]
        exact ⟨fun same => by rw [same], fun same => Except.ok.inj same.symm⟩
      · rename_i running
        have apart (st : ExitStatus) : (.ok (some st) : Except IoError (Option ExitStatus)) ≠ result :=
          fun same => running st same.symm
        split at looped
        · cases looped
          refine ⟨[result], List.prefix_append [_] rest, List.cons_ne_nil _ _, rfl, rfl,
            List.suffix_cons _ _, fun st => ⟨nofun, fun inside => ?_⟩⟩
          exact absurd (List.mem_singleton.mp inside) (apart st)
        · obtain ⟨seen, front, _, log, waits, back, status⟩ := ih looped
          refine ⟨result :: seen, List.cons_prefix_cons.mpr ⟨rfl, front⟩, List.cons_ne_nil _ _, ?_, waits,
            back.trans (List.suffix_cons _ _), fun st => ?_⟩
          · rw [log, List.map_cons]
            exact List.append_assoc _ _ _
          · rw [status, List.mem_cons]
            exact ⟨.inr, fun inside => inside.resolve_left (apart st)⟩

theorem waitBounded_log {c c' : Child} {clock clock' : Clock} {timeout : Nat} {status : Option ExitStatus}
    (waited : c.waitBounded clock timeout = .ok (status, c', clock')) :
    ∃ seen, seen <+: c.tryWaits ∧ seen ≠ [] ∧ c'.log = c.log ++ seen.map .tryWait ∧ c'.waits = c.waits ∧
      c'.tryWaits <:+ c.tryWaits ∧ (∀ st, status = some st ↔ .ok (some st) ∈ seen) := by
  rw [waitBounded] at waited
  obtain ⟨⟨deadline, clock₁⟩, _, looped⟩ := Exec.bind_ok waited
  exact waitLoop_log looped

/-- A bounded wait for a child of ours; if it ends without a status, the child runs. -/
theorem waitBounded_ours {c c' : Child} {clock clock' : Clock} {timeout : Nat} {status : Option ExitStatus}
    (ours : Ours c) (own : OwnSignals c.log) (unreaped : ∀ e ∈ c.log, e.collected = false)
    (waited : c.waitBounded clock timeout = .ok (status, c', clock')) :
    Ours c' ∧ OwnSignals c'.log ∧ (status = none → ∀ e ∈ c'.log, e.collected = false) := by
  obtain ⟨seen, front, _, log, waits, back, status⟩ := waitBounded_log waited
  have quiet : ChildEvent.terminate ∉ seen.map ChildEvent.tryWait := by
    intro inside
    obtain ⟨_, _, other⟩ := List.mem_map.mp inside
    cases other
  refine ⟨⟨fun e inside => ours.looks e (back.subset inside), waits ▸ ours.waits⟩, ?_, fun ended e inside => ?_⟩
  · rw [log]
    exact own.append quiet
  · rw [log] at inside
    rcases List.mem_append.mp inside with before | after
    · exact unreaped e before
    · obtain ⟨result, among, rfl⟩ := List.mem_map.mp after
      match result with
      | .ok none => rfl
      | .ok (some st) =>
          rw [← status st, ended] at among
          cases among
      | .error e => exact absurd (front.subset among) (ours.looks e)

/-- The shutdown of a child of ours comes to a status and signals nobody else. -/
theorem shutdown_ours {c c' : Child} {clock clock' : Clock} {timeout : Nat} {status : Option ExitStatus}
    (ours : Ours c) (own : OwnSignals c.log) (unreaped : ∀ e ∈ c.log, e.collected = false)
    (shut : c.shutdown clock timeout = .ok (status, c', clock')) :
    Ours c' ∧ OwnSignals c'.log ∧ status.isSome = true := by
  rw [shutdown] at shut
  obtain ⟨⟨first, c₁, clock₁⟩, waited, shut⟩ := Exec.bind_ok shut
  obtain ⟨ours₁, own₁, running₁⟩ := waitBounded_ours ours own unreaped waited
  dsimp only at shut
  split at shut
  · cases shut
    exact ⟨ours₁, own₁, rfl⟩
  · obtain ⟨⟨second, c₂, clock₂⟩, waited₂, shut⟩ := Exec.bind_ok shut
    have unreaped₁ := running₁ rfl
    have noted : ∀ e ∈ (c₁.note .terminate).log, e.collected = false := by
      intro e inside
      rcases List.mem_append.mp inside with before | after
      · exact unreaped₁ e before
      · rw [List.mem_singleton.mp after]
        rfl
    obtain ⟨ours₂, own₂, running₂⟩ := waitBounded_ours (c := c₁.note .terminate) ⟨ours₁.looks, ours₁.waits⟩
      (ownSignals_terminate unreaped₁) noted waited₂
    dsimp only at shut
    split at shut
    · cases shut
      exact ⟨ours₂, own₂, rfl⟩
    · obtain ⟨⟨third, c₃⟩, ended, shut⟩ := Exec.bind_ok shut
      cases shut
      rw [wait] at ended
      split at ended
      · cases ended
      · rename_i result rest waits
        cases ended
        have kept : c₂.waits = result :: rest := waits
        have own₃ : OwnSignals (c₂.log ++ [.kill] ++ [.wait result]) :=
          (own₂.append (by simp)).append (by simp)
        refine ⟨⟨ours₂.looks, fun e inside => ?_⟩, own₃, ?_⟩
        · refine ours₂.waits e ?_
          rw [kept]
          exact List.mem_cons_of_mem _ inside
        · cases result with
          | ok status => rfl
          | error e => exact absurd (kept ▸ List.mem_cons_self) (ours₂.waits e)

/-- What the stages behind the first wait add to the log. -/
theorem terminate_sent {c c' : Child} {clock clock' : Clock} {timeout : Nat} {status : Option ExitStatus}
    (shut : (do
      let (status, c, clock) ← (c.note .terminate).waitBounded clock timeout
      match status with
      | some status => .ok (some status, c, clock)
      | none => do
          let (status, c) ← (c.note .kill).wait
          .ok (status, c, clock) : Exec (Option ExitStatus × Child × Clock)) = .ok (status, c', clock')) :
    ∃ more, c'.log = c.log ++ .terminate :: more := by
  obtain ⟨⟨second, c₂, clock₂⟩, waited, shut⟩ := Exec.bind_ok shut
  obtain ⟨seen, _, _, log, _⟩ := waitBounded_log waited
  have behind : c₂.log = c.log ++ .terminate :: seen.map .tryWait := by
    rw [log]
    exact List.append_assoc _ _ _
  dsimp only at shut
  split at shut
  · cases shut
    exact ⟨_, behind⟩
  · obtain ⟨⟨third, c₃⟩, ended, shut⟩ := Exec.bind_ok shut
    cases shut
    rw [wait] at ended
    split at ended
    · cases ended
    · rename_i result rest waits
      cases ended
      refine ⟨seen.map .tryWait ++ [.kill] ++ [.wait result], ?_⟩
      change c₂.log ++ [.kill] ++ [.wait result] = _
      rw [behind]
      simp

end Child

namespace DirectTransport

/-- What a session asks of its transport. -/
inductive Operation where
  | write (line : List UInt8)
  | read (timeout : Option Nat)
  | close (timeout : Nat)

def operate (d : DirectTransport) : Operation → Exec DirectTransport
  | .write line => do
      let (_, d) ← d.writeLine line
      .ok d
  | .read timeout => do
      let (_, d) ← d.readLine timeout
      .ok d
  | .close timeout => d.close timeout

def operations (d : DirectTransport) (ops : List Operation) : Exec DirectTransport := ops.foldlM operate d

/-- The exit of the child is collected once, and then everything is torn down. -/
structure Minds (d : DirectTransport) : Prop where
  ours : d.child.Ours
  own : OwnSignals d.child.log
  unreaped : d.exitCode = none → ∀ e ∈ d.child.log, e.collected = false
  torn : d.exitCode.isSome = true → d.stdin = false ∧ d.reader.isNone = true ∧ d.stderrThread.isNone = true

theorem dropReader_child {timeout : Nat} {d t : DirectTransport} (dropped : d.dropReader timeout = .ok t) :
    t.child = d.child ∧ t.exitCode = d.exitCode ∧ t.stdin = d.stdin ∧ t.stderrThread = d.stderrThread ∧
      t.reader.isNone = true := by
  rw [dropReader] at dropped
  split at dropped
  · rename_i none
    cases dropped
    exact ⟨rfl, rfl, rfl, rfl, by rw [none]; rfl⟩
  · obtain ⟨r, _, same⟩ := Exec.bind_ok dropped
    cases same
    exact ⟨rfl, rfl, rfl, rfl, rfl⟩

theorem close_minds {timeout : Nat} {d t : DirectTransport} (minds : Minds d)
    (closed : d.close timeout = .ok t) : Minds t := by
  rw [close] at closed
  split at closed
  · cases closed
    exact minds
  · rename_i running
    have unknown : d.exitCode = none := by
      by_contra known
      have code : d.exitCode.isSome = true := Option.isSome_iff_ne_none.mpr known
      obtain ⟨stdin, reader, stderr⟩ := minds.torn code
      exact running ⟨stdin, reader, stderr, code⟩
    obtain ⟨⟨status, child, clock⟩, shut, closed⟩ := Exec.bind_ok closed
    obtain ⟨ours, own, some⟩ := Child.shutdown_ours minds.ours minds.own (minds.unreaped unknown) shut
    obtain ⟨_, _, dropped⟩ := Exec.bind_ok closed
    obtain ⟨sameChild, sameCode, sameStdin, sameStderr, noReader⟩ := dropReader_child dropped
    obtain ⟨st, rfl⟩ := Option.isSome_iff_exists.mp some
    refine ⟨sameChild ▸ ours, sameChild ▸ own, fun none => ?_, fun _ => ⟨sameStdin, noReader, ?_⟩⟩
    · rw [none] at sameCode
      cases sameCode
    · rw [sameStderr]
      rfl

theorem operate_minds {d t : DirectTransport} (minds : Minds d) {op : Operation}
    (ran : d.operate op = .ok t) : Minds t := by
  cases op with
  | write line =>
      obtain ⟨⟨result, d'⟩, wrote, same⟩ := Exec.bind_ok ran
      cases same
      obtain ⟨pipe, _, rfl⟩ := writeLine_wrote wrote
      exact ⟨minds.ours, minds.own, minds.unreaped, minds.torn⟩
  | read timeout =>
      obtain ⟨⟨result, d'⟩, read, same⟩ := Exec.bind_ok ran
      cases same
      rw [readLine] at read
      split at read
      · rename_i r held
        obtain ⟨⟨inner, r'⟩, _, same⟩ := Exec.bind_ok read
        cases same
        refine ⟨minds.ours, minds.own, minds.unreaped, fun code => ?_⟩
        have gone := (minds.torn code).2.1
        rw [held] at gone
        cases gone
      · cases read
        exact minds
  | close timeout => exact close_minds minds ran

theorem operations_minds {d t : DirectTransport} (minds : Minds d) {ops : List Operation}
    (ran : d.operations ops = .ok t) : Minds t := by
  induction ops generalizing d with
  | nil =>
      cases ran
      exact minds
  | cons op ops ih =>
      obtain ⟨mid, first, rest⟩ := Exec.bind_ok ran
      exact ih (operate_minds minds first) rest

/-! ## A child that somebody else has reaped -/

/-- The first bounded wait of a close sees errors alone, and SIGTERM follows them. -/
theorem close_stranger {timeout : Nat} {d t : DirectTransport} (open_ : d.exitCode = none)
    (reaped : ∀ r ∈ d.child.tryWaits, ∃ e, r = .error e) (closed : d.close timeout = .ok t) :
    ¬ OwnSignals t.child.log := by
  intro own
  rw [close] at closed
  split at closed
  · rename_i torn
    rw [open_] at torn
    cases torn.2.2.2
  · obtain ⟨⟨status, child, clock⟩, shut, closed⟩ := Exec.bind_ok closed
    obtain ⟨_, _, dropped⟩ := Exec.bind_ok closed
    have same := (dropReader_child dropped).1
    change t.child = child at same
    rw [same] at own
    rw [Child.shutdown] at shut
    obtain ⟨⟨first, c₁, clock₁⟩, waited, shut⟩ := Exec.bind_ok shut
    obtain ⟨seen, front, some, log, _, _, ended⟩ := Child.waitBounded_log waited
    have errors : ∀ r ∈ seen, ∃ e, r = .error e := fun r inside => reaped r (front.subset inside)
    have late : first = none := by
      refine Option.eq_none_iff_forall_not_mem.mpr fun st known => ?_
      obtain ⟨e, other⟩ := errors _ ((ended st).mp known)
      cases other
    subst late
    obtain ⟨more, signalled⟩ := Child.terminate_sent shut
    obtain ⟨r, inside⟩ := List.exists_mem_of_ne_nil seen some
    obtain ⟨e, rfl⟩ := errors r inside
    have event : ChildEvent.tryWait (.error e) ∈ c₁.log := by
      rw [log]
      exact List.mem_append_right _ (List.mem_map_of_mem inside)
    have unreaped := own c₁.log more signalled _ event
    cases unreaped

theorem start_minds {child : Child} (ours : child.Ours) (fresh : child.log = []) (pipe : Sink)
    (reader : ThreadedReader) (stderr : Option Bool) (clock : Clock) :
    Minds (start child pipe reader stderr clock) where
  ours := ours
  own := by
    intro front back shape
    rw [show (start child pipe reader stderr clock).child.log = [] from fresh] at shape
    cases front <;> cases shape
  unreaped := by
    intro _ e inside
    rw [show (start child pipe reader stderr clock).child.log = [] from fresh] at inside
    cases inside
  torn := nofun

end DirectTransport

open DirectTransport

/-- While nobody else collects the exit of the child, SIGTERM reaches no one but it; where
somebody has collected it before the first look, the close that looks sends one all the same. -/
theorem signals_own_child (child : Child) (fresh : child.log = []) (pipe : Sink) (reader : ThreadedReader)
    (stderr : Option Bool) (clock : Clock) :
    (child.Ours → ∀ ops t, (start child pipe reader stderr clock).operations ops = .ok t →
      OwnSignals t.child.log) ∧
      ((∀ r ∈ child.tryWaits, ∃ e, r = .error e) → ∀ timeout t,
        (start child pipe reader stderr clock).close timeout = .ok t → ¬ OwnSignals t.child.log) :=
  ⟨fun ours _ _ ran => (operations_minds (start_minds ours fresh pipe reader stderr clock) ran).own,
    fun reaped _ _ closed => close_stranger rfl reaped closed⟩

/-- A clock on which ten nanoseconds pass between two looks. -/
def ticking : Clock := ⟨fun looks => looks * 10, 0, 1000⟩

/-- A transport without output to read, over a child that does what `child` says. -/
def silent (child : Child) : DirectTransport :=
  start child (.fresh [] []) (.spawn [] [.wake] ticking) none ticking

/-- The child ends at the signal. -/
theorem signals_own_child_term : ∃ t,
    (silent ⟨[.ok none, .ok (some ⟨none, some 15⟩)], [], []⟩).operations [.close 1] = .ok t ∧
      t.exitCode = some (-15) ∧ OwnSignals t.child.log := by
  have calm : Child.Ours ⟨[.ok none, .ok (some ⟨none, some 15⟩)], [], []⟩ := by
    constructor <;> intro e inside <;> simp at inside
  have ran : ∃ t, (silent ⟨[.ok none, .ok (some ⟨none, some 15⟩)], [], []⟩).operations [.close 1] = .ok t ∧
      t.exitCode = some (-15) := ⟨_, rfl, rfl⟩
  obtain ⟨t, closed, code⟩ := ran
  exact ⟨t, closed, code, (signals_own_child _ rfl _ _ _ _).1 calm _ t closed⟩

/-- A child that the host process has reaped, say because it ignores SIGCHLD. -/
def reapedElsewhere : Child :=
  let gone : IoError := ⟨.other, "No child processes (os error 10)"⟩
  ⟨[.error gone, .error gone], [.error gone], []⟩

theorem stranger_signalled : ¬ ∀ (child : Child) (ops : List Operation) (t : DirectTransport),
    child.log = [] → (silent child).operations ops = .ok t → OwnSignals t.child.log := by
  intro safe
  have ran : ∃ t, (silent reapedElsewhere).close 1 = .ok t := ⟨_, rfl⟩
  obtain ⟨t, closed⟩ := ran
  have errors : ∀ r ∈ (silent reapedElsewhere).child.tryWaits, ∃ e, r = .error e := by
    intro r inside
    rcases List.mem_pair.mp inside with rfl | rfl
    · exact ⟨_, rfl⟩
    · exact ⟨_, rfl⟩
  have whole : (silent reapedElsewhere).operations [.close 1] = .ok t := (bind_pure _).trans closed
  exact close_stranger rfl errors closed (safe reapedElsewhere [.close 1] t rfl whole)

end SanDbOxFormal.Rust.Transport
