import SanDbOxFormal.Go.Scanner
import SanDbOxFormal.Protocol.LineCap

/-!
# The framing of the Go driver

The Go driver leaves its framing to a library scanner.  Beside the law of the line cap
and the Rust framer, that scanner drops a carriage return in front of a newline, takes
the tail of a broken stream for a line and wants room for the newline below the cap.
-/

namespace SanDbOxFormal.Protocol

open SanDbOxFormal.Library.Segments
open SanDbOxFormal.Library.CappedFraming
open SanDbOxFormal.Go

/-- What the law demands of the Go session for one stream as it comes in: it hands over
the lines in front of the first over-long one, as the Rust framer does. -/
structure GoLaw (chunks : List (List UInt8)) (ending : Cause) : Prop where
  lines : (newLineScanner chunks ending).readLoop.1 = (lawful newline maxLineSize chunks.flatten).1
  rust : (rustFramer.outcome chunks).map Prod.fst =
    some (newLineScanner chunks ending).readLoop.1

theorem dropCR_eq_iff {line : List UInt8} :
    dropCR line = line ↔ line.getLast? ≠ some carriageReturn := by
  rw [dropCR]
  split_ifs with ends
  · refine iff_of_false (fun same => ?_) (not_not.mpr ends)
    have size := congrArg List.length same
    have some := List.length_pos_of_mem (List.mem_of_getLast? ends)
    rw [List.length_dropLast] at size
    omega
  · exact iff_of_true rfl ends

theorem map_dropCR_iff {lines : List (List UInt8)} :
    lines.map dropCR = lines ↔ ∀ line ∈ lines, line.getLast? ≠ some carriageReturn := by
  have each := List.map_inj_left (l := lines) (f := dropCR) (g := id)
  rw [List.map_id] at each
  exact each.trans (forall₂_congr fun _ _ => dropCR_eq_iff)

/-- The scanner does nothing to the lines that the law keeps, and adds none. -/
structure Untouched (xs : List UInt8) : Prop where
  /-- The line leaves room for its newline. -/
  fits : ∀ line ∈ (lawful newline maxLineSize xs).1, line.length < maxLineSize
  plain : ∀ line ∈ (lawful newline maxLineSize xs).1, line.getLast? ≠ some carriageReturn
  /-- The stream does not break off inside a line that the scanner reaches. -/
  whole : (∃ line ∈ complete newline xs, maxLineSize < line.length) ∨ remainder newline xs = [] ∨
    maxLineSize ≤ (remainder newline xs).length

theorem fitting_eq_iff (xs : List UInt8) :
    (lawful newline (maxLineSize - 1) xs).1 = (lawful newline maxLineSize xs).1 ↔
      ∀ line ∈ (lawful newline maxLineSize xs).1, line.length < maxLineSize := by
  have positive : 0 < maxLineSize := by decide
  rw [lawful_smaller (Nat.sub_le _ _), List.takeWhile_eq_self_iff]
  refine forall₂_congr fun line _ => ?_
  rw [decide_eq_true_eq]
  omega

/-- What the smaller cap of the scanner refuses, when it keeps the same lines. -/
theorem fitting_snd {xs : List UInt8}
    (fits : ∀ line ∈ (lawful newline maxLineSize xs).1, line.length < maxLineSize) :
    (lawful newline (maxLineSize - 1) xs).2 = true ↔
      (∃ line ∈ complete newline xs, maxLineSize < line.length) ∨
        maxLineSize ≤ (remainder newline xs).length := by
  have positive : 0 < maxLineSize := by decide
  rw [lawful_snd]
  refine or_congr ⟨?_, ?_⟩ (by omega)
  · rintro ⟨line, inside, long⟩
    by_contra short
    push Not at short
    rw [lawful_of_short short] at fits
    have small := fits line inside
    omega
  · rintro ⟨line, inside, long⟩
    exact ⟨line, inside, by omega⟩

theorem tokens_lawful_iff (xs : List UInt8) :
    Scanner.tokens xs = (lawful newline maxLineSize xs).1 ↔ Untouched xs := by
  have fewer : (lawful newline (maxLineSize - 1) xs).1 <+: (lawful newline maxLineSize xs).1 := by
    rw [lawful_smaller (Nat.sub_le _ _)]
    exact List.takeWhile_prefix _
  constructor
  · intro same
    by_cases stops : (lawful newline (maxLineSize - 1) xs).2 = true ∨ remainder newline xs = []
    · rw [Scanner.tokens, if_pos stops, List.append_nil] at same
      have fits := (fitting_eq_iff xs).mp (fewer.eq_of_length (by rw [← same, List.length_map]))
      rw [(fitting_eq_iff xs).mpr fits] at same
      refine ⟨fits, map_dropCR_iff.mp same, ?_⟩
      · rcases stops with refused | whole
        · exact ((fitting_snd fits).mp refused).imp_right Or.inr
        · exact .inr (.inl whole)
    · rw [Scanner.tokens, if_neg stops] at same
      have short : ∀ line ∈ complete newline xs, line.length ≤ maxLineSize - 1 := by
        intro line inside
        by_contra long
        exact stops (.inl ((lawful_snd xs).mpr (.inl ⟨line, inside, Nat.lt_of_not_le long⟩)))
      have size := congrArg List.length same
      rw [lawful_of_short short, lawful_of_short fun line inside =>
        Nat.le_trans (short line inside) (Nat.sub_le _ _)] at size
      simp at size
  · rintro ⟨fits, plain, whole⟩
    have stops : (lawful newline (maxLineSize - 1) xs).2 = true ∨ remainder newline xs = [] := by
      rw [fitting_snd fits]
      rcases whole with long | none | long
      · exact .inl (.inl long)
      · exact .inr none
      · exact .inl (.inr long)
    rw [Scanner.tokens, if_pos stops, List.append_nil, (fitting_eq_iff xs).mpr fits]
    exact map_dropCR_iff.mpr plain

/-- The lines of the Rust framer are those of the law unless an over-long line goes
unnoticed. -/
theorem rust_lines (chunks : List (List UInt8)) :
    (rustFramer.outcome chunks).map Prod.fst =
      some (progress newline maxLineSize chunks).lines := by
  rw [rustFramer_measures.outcome_eq fun _ _ _ _ => nofun]
  rfl

theorem go_law_iff (chunks : List (List UInt8)) (ending : Cause) :
    GoLaw chunks ending ↔ Untouched chunks.flatten ∧
      ((∀ line ∈ complete newline chunks.flatten, line.length ≤ maxLineSize) ∨
        Noticed newline maxLineSize chunks) := by
  have read : (newLineScanner chunks ending).readLoop.1 = Scanner.tokens chunks.flatten :=
    (newLineScanner chunks ending).readLoop_lines
  rw [← tokens_lawful_iff, ← progress_lines_iff]
  constructor
  · rintro ⟨lines, rust⟩
    rw [lines, rust_lines] at rust
    exact ⟨read ▸ lines, Option.some_inj.mp rust⟩
  · rintro ⟨lines, rust⟩
    refine ⟨read.trans lines, ?_⟩
    rw [rust_lines, rust, read, lines]

/-- A stream that breaks off behind one byte is handed over as a line. -/
theorem go_law_broken : ¬ ∀ chunks ending, GoLaw chunks ending := by
  intro law
  obtain ⟨⟨_, _, ⟨line, inside, _⟩ | whole | long⟩, _⟩ := (go_law_iff _ _).mp (law [[0x7B]] .eof)
  · cases inside
  · cases whole
  · exact absurd long (by decide)

end SanDbOxFormal.Protocol
