import SanDbOxFormal.Java.Transport.FramerArray

/-!
# The callers of the line framer

`ReaderThread.runLoop` and `SocketTransport.readLine`, as far as they drive the framer:
both take what is complete before they push again, and stop at the first error.
-/

namespace SanDbOxFormal.Java.Transport

open SanDbOxFormal.Library
open SanDbOxFormal.Library.Segments

/-- The array of a caller behind a read that has put `chunk` in its front. -/
def filled (buf chunk : List UInt8) : List UInt8 := chunk ++ buf.drop chunk.length

/-- A framer, with everything that was pushed and every line that was taken. -/
structure Fed where
  framer : FramerArray
  received : List UInt8
  taken : List (List UInt8)

namespace Fed

def new : Fed := ⟨.new, [], []⟩

def push (f : Fed) (chunk : List UInt8) (off chunkLen : Int) : Except Fault Fed := do
  let framer ← f.framer.push chunk off chunkLen
  .ok ⟨framer, f.received ++ (chunk.drop off.toNat).take chunkLen.toNat, f.taken⟩

def takeLine (f : Fed) : Except Fault (Except TransportException (Option (List UInt8)) × Fed) := do
  let (result, framer) ← f.framer.takeLine
  .ok (result, { f with framer := framer, taken := f.taken ++ (result.toOption.bind id).toList })

/-- The framer holds the queue of the bytes that came, less the lines that were taken. -/
structure Split (f : Fed) : Prop where
  sound : f.framer.Sound
  lines : f.taken ++ complete newline f.framer.content = complete newline f.received
  rest : remainder newline f.framer.content = remainder newline f.received

/-- Every line that is complete was taken. -/
structure Drained (f : Fed) : Prop where
  framer : f.framer.Drained
  split : Split f

theorem Drained.taken {f : Fed} (drained : Drained f) : f.taken = complete newline f.received := by
  rw [← drained.split.lines, complete_clean drained.framer.clean, List.append_nil]

theorem push_ok {f : Fed} {chunk stale : List UInt8} (drained : Drained f) (fits : chunk.length ≤ readSize) :
    ∃ f', f.push (chunk ++ stale) 0 chunk.length = .ok f' ∧ Split f' := by
  obtain ⟨framer, pushed, sound, content⟩ := @FramerArray.push_ok _ _ stale drained.framer fits
  refine ⟨_, bind_ok_iff.mpr ⟨_, pushed, rfl⟩, sound, ?_, ?_⟩
  · dsimp only
    rw [content, Int.toNat_zero, List.drop_zero, Int.toNat_natCast, List.take_left,
      complete_append _ f.framer.content, complete_append _ f.received, drained.split.rest,
      ← drained.split.lines, List.append_assoc]
  · dsimp only
    rw [content, Int.toNat_zero, List.drop_zero, Int.toNat_natCast, List.take_left, remainder_append,
      drained.split.rest, ← remainder_append]

end Fed

/-! ## The reader thread -/

/-- Where `runLoop` stands. -/
inductive RunLoop.Point where
  /-- In front of `source.read(buf)`. -/
  | reading
  /-- In front of `framer.takeLine()`. -/
  | taking
  | returned
  deriving DecidableEq

structure RunLoop where
  fed : Fed
  buf : List UInt8
  point : RunLoop.Point

namespace RunLoop

def start : RunLoop := ⟨.new, List.replicate readSize 0, .reading⟩

/-- What the thread meets; what does not concern the point where it stands changes nothing. -/
inductive Event where
  | read (outcome : Outcome)
  /-- A look for a line, and whether the `put` of the line is interrupted. -/
  | look (interrupted : Bool)

def step (s : RunLoop) : Event → Except Fault RunLoop
  | .read outcome =>
      match s.point, outcome with
      | .reading, .bytes chunk _ =>
          if chunk.isEmpty then .ok s
          else do
            let buf := filled s.buf chunk
            let fed ← s.fed.push buf 0 chunk.length
            .ok ⟨fed, buf, .taking⟩
      | .reading, _ => .ok { s with point := .returned }
      | _, _ => .ok s
  | .look interrupted =>
      match s.point with
      | .taking => do
          match ← s.fed.takeLine with
          | (.error _, fed) => .ok { s with fed := fed, point := .returned }
          | (.ok none, fed) => .ok { s with fed := fed, point := .reading }
          | (.ok (some _), fed) =>
              .ok { s with fed := fed, point := if interrupted then .returned else .taking }
      | _ => .ok s

def run (events : List Event) : Except Fault RunLoop := events.foldlM step start

/-- What holds wherever the thread stands. -/
structure Good (s : RunLoop) : Prop where
  split : s.fed.Split
  drained : s.point = .reading → s.fed.Drained

end RunLoop

/-! ## The socket transport -/

/-- The transport, and the `buf` of the call that is in its loop. -/
structure ReadCalls where
  fed : Fed
  terminal : Bool
  loop : Option (List UInt8)

namespace ReadCalls

def start : ReadCalls := ⟨.new, false, none⟩

inductive Event where
  /-- A call, at the value `now` of the clock. -/
  | call (now : Int) (timeout : Option Int)
  /-- How the read of a call comes back, and whether the deadline has passed then. -/
  | read (outcome : Outcome) (expired : Bool)
  | close

/-- Behind a look for a line: the error is kept, a line is returned, else the call goes
`onwards`. -/
def looked (s : ReadCalls) (onwards : Fed → ReadCalls) :
    Except TransportException (Option (List UInt8)) × Fed → ReadCalls
  | (.error _, fed) => ⟨fed, true, none⟩
  | (.ok (some _), fed) => ⟨fed, s.terminal, none⟩
  | (.ok none, fed) => onwards fed

/-- The session holds its lock for a call, so that calls and `close` do not overlap: what
does not concern the point where the transport stands changes nothing. -/
def step (s : ReadCalls) : Event → Except Fault ReadCalls
  | .call now timeout =>
      if s.terminal ∨ s.loop.isSome then .ok s
      else do
        let looked ← s.fed.takeLine
        .ok (s.looked (fun fed => ⟨fed, s.terminal,
          match SocketTransport.deadline now timeout with
          | .error _ => none
          | .ok _ => some (List.replicate readSize 0)⟩) looked)
  | .read outcome expired =>
      match s.loop, outcome with
      | none, _ => .ok s
      | some _, .failed _ => .ok { s with terminal := true, loop := none }
      | some _, .eof => .ok { s with terminal := true, loop := none }
      | some buf, .timedOut => .ok { s with loop := if expired then none else some buf }
      | some buf, .bytes chunk _ => do
          let buf := filled buf chunk
          let fed ← s.fed.push buf 0 chunk.length
          let looked ← fed.takeLine
          .ok (s.looked (fun fed => ⟨fed, s.terminal, some buf⟩) looked)
  | .close => if s.loop.isSome then .ok s else .ok { s with terminal := true }

def run (events : List Event) : Except Fault ReadCalls := events.foldlM step start

/-- What holds wherever the transport stands. -/
structure Good (s : ReadCalls) : Prop where
  split : s.fed.Split
  drained : s.loop.isSome = true → s.fed.Drained

end ReadCalls

end SanDbOxFormal.Java.Transport
