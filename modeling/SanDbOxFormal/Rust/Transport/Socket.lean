import SanDbOxFormal.Rust.Transport.Basic

/-!
# The socket transport

`transport/socket.rs`: reads inline on the caller's thread, so a partial line
stays in the framer when a call times out.
-/

namespace SanDbOxFormal.Rust.Transport

open SanDbOxFormal.Library.Segments

structure SocketTransport where
  /-- The writing half of the stream. -/
  sink : Sink
  /-- The results of the reads still to come. -/
  reads : List ReadResult
  framer : LineFramer
  terminal : Option Terminal
  clock : Clock

namespace SocketTransport

def fromStream (sink : Sink) (reads : List ReadResult) (clock : Clock) : SocketTransport :=
  { sink, reads, framer := .new, terminal := none, clock }

def writeLine (s : SocketTransport) (line : List UInt8) :
    Exec (Except Error Unit × SocketTransport) := do
  let (result, sink) ← s.sink.writeLine line
  .ok (result, { s with sink := sink })

/-- A framing error is memoized. -/
def takeOrTerminal (s : SocketTransport) :
    Except Terminal (Option (List UInt8)) × SocketTransport :=
  match taken : s.framer.takeLine with
  | (.ok v, framer) => (.ok v, { s with framer := framer })
  | (.error e, framer) =>
      let e : Terminal := ⟨e, LineFramer.takeLine_code (congrArg Prod.fst taken)⟩
      (.error e, { s with framer := framer, terminal := some e })

def timedOut (s : SocketTransport) (deadline : Option Nat) : Bool × SocketTransport :=
  ((s.clock.timedOut deadline).1, { s with clock := (s.clock.timedOut deadline).2 })

/-- `self.terminal = Some(e.clone()); return Err(e)`. -/
def fail (s : SocketTransport) (e : Terminal) : Except Error (List UInt8) × SocketTransport :=
  (.error e.val, { s with terminal := some e })

/-- The loop of `read_line`, over the reads still to come. -/
def readLoop (deadline : Option Nat) :
    List ReadResult → SocketTransport → Exec (Except Error (List UInt8) × SocketTransport)
  | [], _ => .error .blocked
  | .ok chunk :: rest, s =>
      let s := { s with reads := rest }
      if chunk.isEmpty then .ok (s.fail .eof)
      else
        let (taken, s) := { s with framer := s.framer.push chunk }.takeOrTerminal
        match taken with
        | .error e => .ok (.error e.val, s)
        | .ok (some line) => .ok (.ok line, s)
        | .ok none =>
            let (late, s) := s.timedOut deadline
            if late then .ok (.error readTimeout, s) else readLoop deadline rest s
  | .err e :: rest, s =>
      let s := { s with reads := rest }
      match e.kind with
      | .wouldBlock | .timedOut =>
          let (late, s) := s.timedOut deadline
          if late then .ok (.error readTimeout, s) else readLoop deadline rest s
      | .interrupted => readLoop deadline rest s
      | _ => .ok (s.fail (.io e))

def readLine (s : SocketTransport) (timeout : Option Nat) :
    Exec (Except Error (List UInt8) × SocketTransport) :=
  match s.terminal with
  | some e => .ok (.error e.val, s)
  | none =>
      let (taken, s) := s.takeOrTerminal
      match taken with
      | .error e => .ok (.error e.val, s)
      | .ok (some line) => .ok (.ok line, s)
      | .ok none => do
          let (deadline, clock) ← s.clock.deadline timeout
          readLoop deadline s.reads { s with clock := clock }

/-- Only marks the transport; dropping the stream is left to its owner. -/
def close (s : SocketTransport) (_timeout : Nat) : Exec SocketTransport :=
  .ok { s with terminal := some .closed }

instance : Transport SocketTransport where
  writeLine := writeLine
  readLine := readLine
  close := close

/-! ## What it hands out -/

/-- The lines that the bytes in the framer and those still to be read make. -/
def ahead (s : SocketTransport) : List (List UInt8) :=
  complete newline (s.framer.buf ++ incoming s.reads)

def spent (s : SocketTransport) : Prop := s.terminal ≠ none

theorem ahead_read {s : SocketTransport} {chunk : List UInt8} {rest : List ReadResult}
    (next : s.reads = .ok chunk :: rest) :
    ahead { s with reads := rest, framer := s.framer.push chunk } = s.ahead := by
  rw [ahead, ahead, next, incoming_ok, LineFramer.push, List.append_assoc]

theorem ahead_error {s : SocketTransport} {e : IoError} {rest : List ReadResult}
    (next : s.reads = .err e :: rest) : ahead { s with reads := rest } = s.ahead := by
  rw [ahead, ahead, next, incoming_err]

/-- What taking from the framer does: it gives out the next line ahead, or
nothing, or it ends the reading. -/
inductive Took (s t : SocketTransport) : Except Terminal (Option (List UInt8)) → Prop where
  | line {l : List UInt8} (same : t.terminal = s.terminal) (next : s.ahead = l :: t.ahead) :
      Took s t (.ok (some l))
  | nothing (same : t.terminal = s.terminal) (kept : t.ahead = s.ahead) (reads : t.reads = s.reads) :
      Took s t (.ok none)
  | failed {e : Terminal} (memoized : t.terminal = some e) : Took s t (.error e)

theorem takeOrTerminal_clock (s : SocketTransport) : s.takeOrTerminal.2.clock = s.clock := by
  unfold takeOrTerminal
  split <;> rfl

theorem takeOrTerminal_took (s : SocketTransport) :
    Took s s.takeOrTerminal.2 s.takeOrTerminal.1 ∧ s.takeOrTerminal.2.sink = s.sink := by
  have lines := LineFramer.takeLine_complete s.framer (incoming s.reads)
  unfold takeOrTerminal
  split
  · rename_i v framer taken
    rw [taken] at lines
    refine ⟨?_, rfl⟩
    cases v with
    | none => exact .nothing rfl lines.symm rfl
    | some line => exact .line rfl lines
  · exact ⟨.failed rfl, rfl⟩

theorem readLoop_heard {deadline : Option Nat} {reads : List ReadResult} {s t : SocketTransport}
    {result : Except Error (List UInt8)} (script : s.reads = reads)
    (read : readLoop deadline reads s = .ok (result, t)) :
    Heard s.ahead t.ahead t.spent result ∧ t.sink = s.sink := by
  induction reads generalizing s with
  | nil => cases read
  | cons first rest ih =>
      cases first with
      | ok chunk =>
          rw [readLoop] at read
          dsimp only at read
          have pushed := ahead_read script
          split at read
          · cases read
            exact ⟨.failed rfl (Option.some_ne_none _), rfl⟩
          · obtain ⟨took, sink⟩ :=
              takeOrTerminal_took { s with reads := rest, framer := s.framer.push chunk }
            generalize takeOrTerminal { s with reads := rest, framer := s.framer.push chunk } = pair
              at took sink read
            obtain ⟨taken, after⟩ := pair
            rw [← pushed]
            cases took with
            | line same next =>
                cases read
                exact ⟨.line next, sink⟩
            | nothing same kept left =>
                dsimp only at read kept left sink
                rw [← kept, ← sink]
                split at read
                · cases read
                  exact ⟨.late rfl, rfl⟩
                · exact ih (s := (after.timedOut deadline).2) left read
            | @failed e memoized =>
                cases read
                refine ⟨.failed e.property ?_, sink⟩
                rw [spent, memoized]
                exact Option.some_ne_none _
      | err e =>
          rw [readLoop] at read
          dsimp only at read
          have kept := ahead_error script
          rw [← kept]
          split at read
          -- an expired wait ends the call only past its deadline
          · split at read
            · cases read
              exact ⟨.late rfl, rfl⟩
            · exact ih (s := (timedOut { s with reads := rest } deadline).2) rfl read
          · split at read
            · cases read
              exact ⟨.late rfl, rfl⟩
            · exact ih (s := (timedOut { s with reads := rest } deadline).2) rfl read
          · exact ih (s := { s with reads := rest }) rfl read
          · cases read
            exact ⟨.failed rfl (Option.some_ne_none _), rfl⟩

theorem readLine_heard {timeout : Option Nat} {s t : SocketTransport}
    {result : Except Error (List UInt8)} (read : s.readLine timeout = .ok (result, t)) :
    Heard s.ahead t.ahead t.spent result ∧ t.sink = s.sink := by
  rw [readLine] at read
  split at read
  · rename_i e memoized
    cases read
    refine ⟨.failed e.property ?_, rfl⟩
    rw [spent, memoized]
    exact Option.some_ne_none _
  · obtain ⟨took, sink⟩ := s.takeOrTerminal_took
    generalize s.takeOrTerminal = pair at took sink read
    obtain ⟨taken, after⟩ := pair
    cases took with
    | line same next =>
        cases read
        exact ⟨.line next, sink⟩
    | nothing same kept left =>
        obtain ⟨⟨deadline, clock⟩, _, looped⟩ := Exec.bind_ok read
        dsimp only at looped kept sink
        rw [← kept, ← sink]
        exact readLoop_heard (s := { after with clock := clock }) rfl looped
    | @failed e memoized =>
        cases read
        refine ⟨.failed e.property ?_, sink⟩
        rw [spent, memoized]
        exact Option.some_ne_none _

theorem readLine_spent {timeout : Option Nat} {s t : SocketTransport}
    {result : Except Error (List UInt8)} (read : s.readLine timeout = .ok (result, t))
    (ended : s.spent) : ∃ e : Error, result = .error e ∧ e.code = none ∧ t.spent := by
  rw [readLine] at read
  split at read
  · rename_i e memoized
    cases read
    exact ⟨e.val, rfl, e.property, ended⟩
  · rename_i usable
    exact absurd usable ended

theorem writeLine_wrote {s t : SocketTransport} {line : List UInt8} {result : Except Error Unit}
    (wrote : s.writeLine line = .ok (result, t)) :
    ∃ sink, s.sink.writeLine line = .ok (result, sink) ∧ t = { s with sink := sink } := by
  obtain ⟨⟨written, sink⟩, sent, same⟩ := Exec.bind_ok wrote
  cases same
  exact ⟨sink, sent, rfl⟩

instance : Observed SocketTransport where
  sink := sink
  ahead := ahead
  spent := spent
  wrote := fun wrote => by
    obtain ⟨sink, sent, rfl⟩ := writeLine_wrote wrote
    exact ⟨Sink.writeLine_wrote sent, rfl, id⟩
  heard := readLine_heard
  silent := readLine_spent
  closed := fun closed => by
    cases closed
    rfl

end SocketTransport

end SanDbOxFormal.Rust.Transport
