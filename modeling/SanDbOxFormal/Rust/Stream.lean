import SanDbOxFormal.Rust.Error

/-!
# Streams and clocks

What the standard library hands to a transport: the results of the `read`,
`write` and `flush` calls on a stream and the readings of the clock.  Each is a
script fixed before the run, so a statement about every script is one about every
behaviour of the outside.  `Write::write_all` is modelled on top of it.
-/

namespace SanDbOxFormal.Rust

/-- The ways in which a call does not return. -/
inductive Halt where
  | blocked
  | panicked (reason : String)
  deriving DecidableEq

abbrev Exec (α : Type) := Except Halt α

/-- A computation that returned did so in both of its halves. -/
theorem Exec.bind_ok {α β : Type} {x : Exec α} {f : α → Exec β} {b : β}
    (returned : (x >>= f) = .ok b) : ∃ a, x = .ok a ∧ f a = .ok b := by
  cases x with
  | error halt => cases returned
  | ok a => exact ⟨a, rfl, returned⟩

/-! ## Time -/

/-- Times are in nanoseconds, and the clock has a latest one. -/
structure Clock where
  /-- What the calls of `Instant::now` return, in order. -/
  now : Nat → Nat
  /-- How many of them have been made. -/
  read : Nat
  latest : Nat

namespace Clock

def tick (c : Clock) : Clock := { c with read := c.read + 1 }

/-- `timeout.map(|t| Instant::now() + t)`; the sum panics past the latest instant. -/
def deadline (c : Clock) : Option Nat → Exec (Option Nat × Clock)
  | none => .ok (none, c)
  | some timeout =>
      if c.now c.read + timeout ≤ c.latest then .ok (some (c.now c.read + timeout), c.tick)
      else .error (.panicked "overflow when adding duration to instant")

/-- `deadline.is_some_and(|dl| Instant::now() >= dl)`. -/
def timedOut (c : Clock) : Option Nat → Bool × Clock
  | none => (false, c)
  | some deadline => (decide (deadline ≤ c.now c.read), c.tick)

end Clock

/-! ## Reading -/

/-- The result of one `read`; an empty chunk is the end of the stream. -/
inductive ReadResult where
  | ok (chunk : List UInt8)
  | err (e : IoError)
  deriving DecidableEq

def ReadResult.bytes : ReadResult → List UInt8
  | .ok chunk => chunk
  | .err _ => []

/-- All bytes that a script of reads carries. -/
def incoming (reads : List ReadResult) : List UInt8 := reads.flatMap ReadResult.bytes

@[simp] theorem incoming_ok (chunk : List UInt8) (rest : List ReadResult) :
    incoming (.ok chunk :: rest) = chunk ++ incoming rest := rfl

@[simp] theorem incoming_err (e : IoError) (rest : List ReadResult) :
    incoming (.err e :: rest) = incoming rest := rfl

/-! ## Writing -/

/-- The result of one `write`: how many bytes were accepted. -/
inductive WriteResult where
  | ok (n : Nat)
  | err (e : IoError)
  deriving DecidableEq

/-- What one `write_line` did: how many bytes of the line were accepted, and
whether it returned `Ok`. -/
structure WriteRecord where
  line : List UInt8
  accepted : Nat
  ok : Bool
  deriving DecidableEq

structure Sink where
  writes : List WriteResult
  flushes : List (Except IoError Unit)
  /-- Every byte accepted so far. -/
  accepted : List UInt8
  /-- One record for each `write_line`. -/
  records : List WriteRecord

/-- The error of `write_all` when a stream accepts nothing. -/
def writeZero : IoError := ⟨.writeZero, "failed to write whole buffer"⟩

/-- `Write::write_all`: the error if it failed, the bytes accepted, the results
left. -/
def writeAll : List WriteResult → List UInt8 →
    Exec (Except IoError Unit × List UInt8 × List WriteResult)
  | writes, [] => .ok (.ok (), [], writes)
  | [], _ :: _ => .error .blocked
  | .ok n :: rest, b :: bs =>
      if n = 0 then .ok (.error writeZero, [], rest)
      else if n ≤ (b :: bs).length then do
        let (result, taken, left) ← writeAll rest ((b :: bs).drop n)
        .ok (result, (b :: bs).take n ++ taken, left)
      else .error (.panicked "range start index out of range for slice")
  | .err e :: rest, b :: bs =>
      if e.kind = .interrupted then writeAll rest (b :: bs)
      else .ok (.error e, [], rest)

/-- The stream fails before it has accepted `size` bytes. -/
def breaks : List WriteResult → Nat → Bool
  | _, 0 => false
  | [], _ + 1 => true
  | .ok n :: rest, size + 1 => n = 0 || breaks rest (size + 1 - n)
  | .err e :: rest, size + 1 => if e.kind = .interrupted then breaks rest (size + 1) else true

/-- The stream fails before it accepts a byte. -/
def refuses : List WriteResult → Bool
  | [] => true
  | .ok n :: _ => n = 0
  | .err e :: rest => if e.kind = .interrupted then refuses rest else true

namespace Sink

/-- A stream of which nothing has been asked yet. -/
def fresh (writes : List WriteResult) (flushes : List (Except IoError Unit)) : Sink :=
  ⟨writes, flushes, [], []⟩

/-- The stream after a `write_line` that had `taken` accepted. -/
def record (s : Sink) (line taken : List UInt8) (ok : Bool) : Sink :=
  { s with
    accepted := s.accepted ++ taken
    records := s.records ++ [⟨line, taken.length, ok⟩] }

/-- `write_all(line)?; flush()?`, the body of both transports' `write_line`. -/
def writeLine (s : Sink) (line : List UInt8) : Exec (Except Error Unit × Sink) := do
  let (written, taken, writes) ← writeAll s.writes line
  match written with
  | .error e => .ok (.error (.io e), { s with writes := writes }.record line taken false)
  | .ok () =>
      match s.flushes with
      | [] => .error .blocked
      | .ok () :: flushes =>
          .ok (.ok (), { s with writes := writes, flushes := flushes }.record line taken true)
      | .error e :: flushes =>
          .ok (.error (.io e),
            { s with writes := writes, flushes := flushes }.record line taken false)

/-- A `write_line` of so many bytes fails, in a write or in the flush. -/
def fails (s : Sink) (size : Nat) : Bool :=
  breaks s.writes size || s.flushes.head?.any fun flush => !flush.isOk

end Sink

theorem writeAll_taken {writes left : List WriteResult} {line taken : List UInt8}
    {result : Except IoError Unit} (wrote : writeAll writes line = .ok (result, taken, left)) :
    taken <+: line ∧ (result = .ok () → taken = line) := by
  fun_induction writeAll writes line generalizing result taken left with
  | case1 writes =>
      cases wrote
      exact ⟨List.prefix_rfl, fun _ => rfl⟩
  | case2 b bs => cases wrote
  | case3 rest b bs =>
      cases wrote
      refine ⟨List.nil_prefix, fun done => ?_⟩
      cases done
  | case4 n rest b bs positive small ih =>
      obtain ⟨⟨inner, more, after⟩, written, same⟩ := Exec.bind_ok wrote
      cases same
      obtain ⟨shorter, whole⟩ := ih written
      constructor
      · obtain ⟨unsent, shape⟩ := shorter
        refine ⟨unsent, ?_⟩
        rw [List.append_assoc, shape, List.take_append_drop]
      · intro done
        rw [whole done, List.take_append_drop]
  | case5 n rest b bs positive large => cases wrote
  | case6 e rest b bs retried ih => exact ih wrote
  | case7 e rest b bs fatal =>
      cases wrote
      refine ⟨List.nil_prefix, fun done => ?_⟩
      cases done

theorem writeAll_breaks {writes left : List WriteResult} {line taken : List UInt8}
    {result : Except IoError Unit} (wrote : writeAll writes line = .ok (result, taken, left))
    (broken : breaks writes line.length = true) : ∃ e, result = .error e := by
  fun_induction writeAll writes line generalizing result taken left with
  | case1 writes =>
      rw [List.length_nil, breaks.eq_def] at broken
      cases broken
  | case2 b bs => cases wrote
  | case3 rest b bs =>
      cases wrote
      exact ⟨writeZero, rfl⟩
  | case4 n rest b bs positive small ih =>
      obtain ⟨⟨inner, more, after⟩, written, same⟩ := Exec.bind_ok wrote
      cases same
      rw [List.length_cons, breaks, Bool.or_eq_true, decide_eq_true_eq] at broken
      rcases broken with zero | broken
      · exact absurd zero positive
      · refine ih written ?_
        rw [List.length_drop]
        exact broken
  | case5 n rest b bs positive large => cases wrote
  | case6 e rest b bs retried ih =>
      rw [List.length_cons, breaks, if_pos retried] at broken
      exact ih wrote broken
  | case7 e rest b bs fatal =>
      cases wrote
      exact ⟨e, rfl⟩

theorem writeAll_refuses {writes left : List WriteResult} {line taken : List UInt8}
    {result : Except IoError Unit} (wrote : writeAll writes line = .ok (result, taken, left))
    (refused : refuses writes = true) : taken = [] := by
  fun_induction writeAll writes line generalizing result taken left with
  | case1 writes =>
      cases wrote
      rfl
  | case2 b bs => cases wrote
  | case3 rest b bs =>
      cases wrote
      rfl
  | case4 n rest b bs positive small ih => exact absurd (of_decide_eq_true refused) positive
  | case5 n rest b bs positive large => cases wrote
  | case6 e rest b bs retried ih =>
      rw [refuses, if_pos retried] at refused
      exact ih wrote refused
  | case7 e rest b bs fatal =>
      cases wrote
      rfl

namespace Sink

/-- What a `write_line` that returned can have done to the stream. -/
structure Wrote (s : Sink) (line : List UInt8) (result : Except Error Unit) (s' : Sink) : Prop where
  /-- A beginning of the line was accepted, all of it if the call succeeded. -/
  sent : ∃ taken, taken <+: line ∧ (result = .ok () → taken = line) ∧
    s'.accepted = s.accepted ++ taken ∧
    s'.records = s.records ++ [⟨line, taken.length, result.isOk⟩]
  /-- The error is never one that the server sent. -/
  plain : ∀ e, result = .error e → e.code = none
  failed : s.fails line.length = true → ∃ e, result = .error e
  refused : refuses s.writes = true → s'.accepted = s.accepted

theorem Wrote.whole {s s' : Sink} {line : List UInt8} (wrote : Wrote s line (.ok ()) s') :
    s'.accepted = s.accepted ++ line := by
  obtain ⟨taken, _, all, sent, _⟩ := wrote.sent
  rw [sent, all rfl]

theorem writeLine_wrote {s s' : Sink} {line : List UInt8} {result : Except Error Unit}
    (wrote : s.writeLine line = .ok (result, s')) : Wrote s line result s' := by
  obtain ⟨⟨written, taken, writes⟩, all, same⟩ := Exec.bind_ok wrote
  obtain ⟨shorter, whole⟩ := writeAll_taken all
  have nothing : refuses s.writes = true → s.accepted ++ taken = s.accepted := by
    intro refused
    rw [writeAll_refuses all refused, List.append_nil]
  cases written with
  | error e =>
      cases same
      refine ⟨⟨taken, shorter, fun done => ?_, rfl, rfl⟩, fun e' is => ?_, fun _ => ⟨_, rfl⟩,
        nothing⟩
      · cases done
      · cases is
        rfl
  | ok =>
      have every := whole rfl
      dsimp only at same
      split at same
      · cases same
      · rename_i flushes flushed
        cases same
        refine ⟨⟨taken, shorter, fun _ => every, rfl, rfl⟩, fun e' is => ?_, fun broken => ?_,
          nothing⟩
        · cases is
        · rw [fails, flushed, Bool.or_eq_true] at broken
          rcases broken with broken | broken
          · obtain ⟨e, failed⟩ := writeAll_breaks all broken
            cases failed
          · cases broken
      · cases same
        refine ⟨⟨taken, shorter, fun done => ?_, rfl, rfl⟩, fun e' is => ?_, fun _ => ⟨_, rfl⟩,
          nothing⟩
        · cases done
        · cases is
          rfl

end Sink

end SanDbOxFormal.Rust
