import SanDbOxFormal.Rust.Stream
import SanDbOxFormal.Rust.Transport.LineFramer

/-!
# Transports

The trait of `transport/mod.rs`, and what a session may rely on: a write sends a
beginning of its line, a read hands out the next line of the peer, and an error
other than a timeout is the end of reading.
-/

namespace SanDbOxFormal.Rust

class Transport (τ : Type) where
  writeLine : τ → List UInt8 → Exec (Except Error Unit × τ)
  readLine : τ → Option Nat → Exec (Except Error (List UInt8) × τ)
  close : τ → Nat → Exec τ

namespace Transport

/-- An error that a transport may memoize: never one that the server sent. -/
abbrev Terminal := { e : Error // e.code = none }

namespace Terminal

def eof : Terminal := ⟨.protocol "connection closed (EOF)", rfl⟩

def closed : Terminal := ⟨.closed, rfl⟩

def ended : Terminal := ⟨.protocol "reader thread ended unexpectedly", rfl⟩

def io (e : IoError) : Terminal := ⟨.io e, rfl⟩

end Terminal

def readTimeout : Error := .timeout "timed out waiting for a response line"

theorem LineFramer.takeLine_code {f : LineFramer} {e : Error} (failed : f.takeLine.1 = .error e) :
    e.code = none := by
  unfold LineFramer.takeLine at failed
  split at failed
  · cases failed
  · dsimp only at failed
    split at failed
    · cases failed
      rfl
    · cases failed

/-- Whatever a framer gives out, the lines still to come are the same. -/
theorem LineFramer.takeLine_complete (f : LineFramer) (later : List UInt8) :
    Library.Segments.complete newline (f.buf ++ later) =
      (match f.takeLine.1 with
        | .ok (some line) => [line]
        | _ => []) ++ Library.Segments.complete newline (f.takeLine.2.buf ++ later) := by
  rcases Library.Segments.clean_or_segment newline f.buf with none | ⟨line, rest, shape, clean⟩
  · rw [(LineFramer.takeLine_clean none).1]
    have nothing : ∀ line, f.takeLine.1 ≠ .ok (some line) := by
      intro line taken
      unfold LineFramer.takeLine at taken
      split at taken
      · rename_i rel found
        obtain ⟨cut, _⟩ := LineFramer.buf_eq_of_position found
        refine none ?_
        rw [cut]
        exact List.mem_append_right _ List.mem_cons_self
      · dsimp only at taken
        split at taken
        · cases taken
        · cases taken
    split
    · rename_i line taken
      exact absurd taken (nothing line)
    · rfl
  · obtain ⟨taken, left⟩ := LineFramer.takeLine_segment clean shape
    rw [taken, left, shape, List.append_assoc, List.cons_append,
      Library.Segments.complete_segment clean]
    rfl

/-- What a read may return: the first of the lines ahead, a timeout that leaves
them alone, or an error after which reading has ended. -/
inductive Heard (ahead ahead' : List (List UInt8)) (spent' : Prop) :
    Except Error (List UInt8) → Prop where
  | line {l : List UInt8} (next : ahead = l :: ahead') : Heard ahead ahead' spent' (.ok l)
  | late {text : String} (kept : ahead' = ahead) : Heard ahead ahead' spent' (.error (.timeout text))
  | failed {e : Error} (plain : e.code = none) (ended : spent') :
      Heard ahead ahead' spent' (.error e)

/-- What can be seen of a transport from outside, and what its functions do to it. -/
class Observed (τ : Type) extends Transport τ where
  /-- The stream that takes the requests. -/
  sink : τ → Sink
  /-- The lines of the peer that have not been handed out. -/
  ahead : τ → List (List UInt8)
  /-- No later read hands out a line. -/
  spent : τ → Prop
  wrote : ∀ {t t' : τ} {line : List UInt8} {result : Except Error Unit},
    writeLine t line = .ok (result, t') →
      Sink.Wrote (sink t) line result (sink t') ∧ ahead t' = ahead t ∧ (spent t → spent t')
  heard : ∀ {t t' : τ} {timeout : Option Nat} {result : Except Error (List UInt8)},
    readLine t timeout = .ok (result, t') →
      Heard (ahead t) (ahead t') (spent t') result ∧ sink t' = sink t
  silent : ∀ {t t' : τ} {timeout : Option Nat} {result : Except Error (List UInt8)},
    readLine t timeout = .ok (result, t') → spent t →
      ∃ e : Error, result = .error e ∧ e.code = none ∧ spent t'
  closed : ∀ {t t' : τ} {timeout : Nat}, close t timeout = .ok t' → sink t' = sink t

end Transport

end SanDbOxFormal.Rust
