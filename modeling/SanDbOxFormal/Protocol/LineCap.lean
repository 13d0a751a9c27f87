import SanDbOxFormal.Java.Transport.LineFramer
import SanDbOxFormal.Rust.Transport.Script
import SanDbOxFormal.TypeScript.LineReader

/-!
# The cap on a line, in three drivers

The framers of the Rust and the Java driver and the line reader of the TypeScript
driver measure the unfinished tail of what they have, once after each chunk.  They
give out the same lines, but whether a line behind the cap is refused depends on
where the chunks end.
-/

namespace SanDbOxFormal.Protocol

open SanDbOxFormal.Library.Segments
open SanDbOxFormal.Library.CappedFraming
open SanDbOxFormal.Rust.Transport
open SanDbOxFormal.TypeScript (LineReader)

/-- The Rust framer as one that measures the unfinished tail. -/
def rustFramer : Framer LineFramer UInt8 Rust.Error where
  start := .new
  buf := LineFramer.buf
  push := fun f chunk => some (f.push chunk)
  take := LineFramer.takeLine

theorem rustFramer_measures : rustFramer.Measures newline maxLineBytes tooLong.val none where
  start := rfl
  take := by
    intro f
    have taken := f.takeLine_taken
    change rustFramer.Taken newline maxLineBytes tooLong.val f f.takeLine
    generalize f.takeLine = result at taken ⊢
    cases taken with
    | line clean shape left => exact .line clean shape left
    | nothing clean short same => exact .nothing clean short same
    | long clean exceeds _ => exact .refused clean exceeds
  push := fun f chunk _ => ⟨f.push chunk, rfl, rfl⟩
  full := nofun

/-- What the law demands of the three drivers for one stream in chunks: the lines in
front of the first over-long one come out, and the error stands in its place.  The
TypeScript reader keeps the lines that no read has asked for. -/
structure CapLaw (chunks : List (List UInt8)) : Prop where
  rust : rustFramer.outcome chunks = some ((lawful newline maxLineBytes chunks.flatten).1,
    if (lawful newline maxLineBytes chunks.flatten).2 then some tooLong.val else none)
  java : Java.Transport.LineFramer.framer.outcome chunks =
    some ((lawful newline maxLineBytes chunks.flatten).1,
      if (lawful newline maxLineBytes chunks.flatten).2 then
        some Java.Transport.LineFramer.tooLong else none)
  typeScript : ∀ events : List (LineReader.Event Nat), LineReader.chunks events = chunks →
    (LineReader.serve events).2 ++ (LineReader.serve events).1.queue =
        (lawful newline maxLineBytes chunks.flatten).1 ∧
      (LineReader.serve events).1.terminal =
        if (lawful newline maxLineBytes chunks.flatten).2 then some LineReader.tooLong else none

/-- Every chunk that is pushed before a line is refused leaves the Java array at most
2^30 bytes long. -/
def FitsJava (chunks : List (List UInt8)) : Prop :=
  Framer.Fits newline maxLineBytes (some Java.Transport.maxCapacity) chunks

/-- The law holds of a stream in chunks exactly when the chunks fit the Java array and
either no line is over-long or a chunk ends inside the first one that is, behind the
cap and before its newline. -/
theorem line_cap_iff (chunks : List (List UInt8)) :
    CapLaw chunks ↔ FitsJava chunks ∧
      ((∀ line ∈ complete newline chunks.flatten, line.length ≤ maxLineBytes) ∨
        Noticed newline maxLineBytes chunks) := by
  constructor
  · intro law
    exact (Java.Transport.LineFramer.framer_measures.lawful_iff chunks).mp law.java
  · rintro ⟨fits, noticed⟩
    have roomy : Framer.Fits newline maxLineBytes none chunks := fun _ _ _ _ => nofun
    have measured := (progress_lawful_iff chunks).mpr noticed
    constructor
    · exact (rustFramer_measures.lawful_iff chunks).mpr ⟨roomy, noticed⟩
    · exact (Java.Transport.LineFramer.framer_measures.lawful_iff chunks).mpr ⟨fits, noticed⟩
    · rintro events rfl
      obtain ⟨_, lines, terminal, _⟩ := LineReader.serve_measured events
      rw [← measured]
      exact ⟨lines, terminal⟩

/-- A line of one byte more than the cap. -/
def overLong : List UInt8 := List.replicate (maxLineBytes + 1) 0x78

/-- An over-long line that comes in one chunk with its newline is delivered. -/
theorem line_cap_broken : ¬ ∀ chunks, CapLaw chunks := by
  intro law
  have clean : newline ∉ overLong := by
    rw [overLong, List.mem_replicate, not_and]
    exact fun _ => by decide
  have whole : [overLong ++ [newline]].flatten = overLong ++ newline :: [] := by simp
  obtain ⟨_, short | ⟨front, inside, long, _⟩⟩ :=
    (rustFramer_measures.lawful_iff _).mp (law [overLong ++ [newline]]).rust
  · have small := short overLong (by
      rw [whole, complete_segment clean]
      exact List.mem_cons_self)
    rw [overLong, List.length_replicate] at small
    omega
  · rcases List.prefix_concat_iff.mp (show front <+: [] ++ [overLong ++ [newline]] from inside)
      with rfl | early
    · rw [List.nil_append, whole, remainder_segment clean] at long
      exact absurd long (Nat.not_lt_zero _)
    · rw [List.prefix_nil.mp early] at long
      exact absurd long (Nat.not_lt_zero _)

end SanDbOxFormal.Protocol
