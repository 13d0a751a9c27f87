import SanDbOxFormal.Java.Text
import SanDbOxFormal.Library.CappedFraming
import SanDbOxFormal.Library.LineBuffer

/-!
# The line framer of the Java driver

`internal/transport`: `TransportException` and `LineFramer`.  The array of the framer
is `buf[0, len)` and its capacity, which grows by doubling an `int`; past 2^30 the
doubling overflows and never reaches what is needed.
-/

namespace SanDbOxFormal.Java.Transport

open SanDbOxFormal.Library
open SanDbOxFormal.Library.CappedFraming

inductive Kind where
  | timeout
  | closed
  | protocol
  | io
  deriving DecidableEq

structure TransportException where
  kind : Kind
  message : JString
  deriving DecidableEq

/-- The value an `int` has after an addition or a product that may overflow. -/
def int (n : Int) : Int := n.bmod 0x100000000

theorem int_eq {n : Int} (low : 0 ≤ n) (high : n < 2 ^ 31) : int n = n := by
  rw [int, Int.bmod_eq_of_le] <;> omega

def maxLineBytes : Nat := 2 * 1024 * 1024

/-- 2^30, the largest array that doubling from 256 reaches. -/
def maxCapacity : Nat := 0x40000000

/-- `while (newCap < needed) newCap *= 2`.  After 32 doublings the value is zero and
stays zero, so a loop that has not ended by then never ends. -/
def doubled : Nat → Int → Int → Option Int
  | 0, newCap, needed => if newCap < needed then none else some newCap
  | n + 1, newCap, needed =>
      if newCap < needed then doubled n (int (newCap * 2)) needed else some newCap

def ensureCapacity (capacity : Nat) (needed : Int) : Option Nat :=
  if needed ≤ capacity then some capacity else (doubled 32 capacity needed).map Int.toNat

/-- A capacity is 256 doubled some times, without an overflow. -/
def Sized (capacity : Nat) : Prop := ∃ k, k ≤ 22 ∧ capacity = 256 * 2 ^ k

theorem Sized.le {capacity : Nat} (sized : Sized capacity) : capacity ≤ maxCapacity := by
  obtain ⟨k, small, rfl⟩ := sized
  have power : 2 ^ k ≤ 2 ^ 22 := Nat.pow_le_pow_right (by decide) small
  rw [maxCapacity]
  omega

theorem doubled_zero {n : Nat} {needed : Int} (positive : 0 < needed) :
    doubled n 0 needed = none := by
  induction n with
  | zero => simp [doubled, positive]
  | succ n ih => simpa [doubled, positive, int] using ih

/-- Doubling 2^30 overflows to the least `int`, and doubling that gives zero. -/
theorem doubled_full {n : Nat} {needed : Int} (large : maxCapacity < needed) :
    doubled n maxCapacity needed = none := by
  have least : int (maxCapacity * 2) = -0x80000000 := rfl
  have zero : int (-0x80000000 * 2) = 0 := rfl
  have wide : (0x40000000 : Int) < needed := large
  cases n with
  | zero => exact if_pos large
  | succ n =>
      rw [doubled, if_pos large, least]
      cases n with
      | zero => exact if_pos (by omega)
      | succ n =>
          rw [doubled, if_pos (by omega), zero]
          exact doubled_zero (by omega)

theorem int_double {k : Nat} (small : k < 22) :
    int ((256 * 2 ^ k : Nat) * 2) = (256 * 2 ^ (k + 1) : Nat) := by
  have power : 2 ^ k ≤ 2 ^ 21 := Nat.pow_le_pow_right (by decide) (Nat.le_of_lt_succ small)
  rw [int_eq (by omega) (by omega), Nat.pow_succ]
  omega

/-- A loop that ends has found a capacity that holds what is needed. -/
theorem doubled_sized {n k : Nat} {needed found : Int} (small : k ≤ 22)
    (ends : doubled n (256 * 2 ^ k : Nat) needed = some found) :
    needed ≤ found ∧ Sized found.toNat := by
  induction n generalizing k with
  | zero =>
      rw [doubled] at ends
      split at ends
      · cases ends
      · rename_i enough
        cases ends
        exact ⟨Int.le_of_not_gt enough, k, small, Int.toNat_natCast _⟩
  | succ n ih =>
      rw [doubled] at ends
      split at ends
      · rename_i short
        rcases Nat.lt_or_eq_of_le small with less | rfl
        · rw [int_double less] at ends
          exact ih less ends
        · have same : (256 * 2 ^ 22 : Nat) = maxCapacity := rfl
          rw [same] at short ends
          have full := @doubled_full (n + 1) needed short
          rw [doubled, if_pos short, ends] at full
          cases full
      · rename_i enough
        cases ends
        exact ⟨Int.le_of_not_gt enough, k, small, Int.toNat_natCast _⟩

/-- Up to 2^30 the loop ends. -/
theorem doubled_ends {n k : Nat} {needed : Int} (fuel : 22 ≤ k + n) (small : k ≤ 22)
    (fits : needed ≤ maxCapacity) : ∃ found, doubled n (256 * 2 ^ k : Nat) needed = some found := by
  induction n generalizing k with
  | zero =>
      obtain rfl : k = 22 := by omega
      exact ⟨_, if_neg (Int.not_lt_of_ge fits)⟩
  | succ n ih =>
      rw [doubled]
      split
      · rename_i short
        have less : k < 22 := by
          rcases Nat.lt_or_eq_of_le small with less | rfl
          · exact less
          · exact absurd short (Int.not_lt_of_ge fits)
        rw [int_double less]
        exact ih (by omega) less
      · exact ⟨_, rfl⟩

theorem ensureCapacity_sized {capacity grown : Nat} {needed : Int} (sized : Sized capacity)
    (found : ensureCapacity capacity needed = some grown) : needed ≤ grown ∧ Sized grown := by
  rw [ensureCapacity] at found
  split at found
  · rename_i enough
    cases found
    exact ⟨enough, sized⟩
  · obtain ⟨newCap, ends, rfl⟩ := Option.map_eq_some_iff.mp found
    obtain ⟨k, small, rfl⟩ := sized
    obtain ⟨enough, sized⟩ := doubled_sized small ends
    exact ⟨Int.le_trans enough (Int.self_le_toNat newCap), sized⟩

theorem ensureCapacity_ends {capacity : Nat} {needed : Int} (sized : Sized capacity)
    (fits : needed ≤ maxCapacity) : ∃ grown, ensureCapacity capacity needed = some grown := by
  rw [ensureCapacity]
  split
  · exact ⟨_, rfl⟩
  · obtain ⟨k, small, rfl⟩ := sized
    obtain ⟨found, ends⟩ := @doubled_ends 32 k needed (by omega) small fits
    rw [ends]
    exact ⟨_, rfl⟩

/-! ## The framer -/

structure LineFramer where
  /-- `buf[0, len)`, and how much of it has been scanned. -/
  data : LineBuffer UInt8 newline
  /-- `buf.length`. -/
  capacity : Nat
  held : data.buf.length ≤ capacity
  sized : Sized capacity

namespace LineFramer

def new : LineFramer where
  data := .empty
  capacity := 256
  held := Nat.zero_le _
  sized := ⟨0, by decide, rfl⟩

/-- `push`: nothing when the loop of `ensureCapacity` never ends, or when an overflow
of `len + chunkLen` makes `arraycopy` throw. -/
def push (f : LineFramer) (chunk : List UInt8) : Option LineFramer := do
  let grown ← (ensureCapacity f.capacity (int (f.data.buf.length + chunk.length))).attach
  if room : f.data.buf.length + chunk.length ≤ grown.val then
    some
      { data := f.data.push chunk
        capacity := grown.val
        held := by simpa [LineBuffer.push] using room
        sized := (ensureCapacity_sized f.sized grown.property).2 }
  else none

/-- The framer behind the scan of `takeLine`. -/
def scan (f : LineFramer) : LineFramer :=
  { f with
    data := f.data.take?.2
    held := Nat.le_trans f.data.take?_taken.length_le f.held }

def tooLong : TransportException :=
  ⟨.protocol, lit ("response line exceeds " ++ toString maxLineBytes ++ " bytes without a newline")⟩

def takeLine (f : LineFramer) : Except TransportException (Option (List UInt8)) × LineFramer :=
  match f.data.take?.1 with
  | some line => (.ok (some line), f.scan)
  | none =>
      if f.scan.data.buf.length > maxLineBytes then (.error tooLong, f.scan)
      else (.ok none, f.scan)

theorem push_some {f : LineFramer} {chunk : List UInt8}
    (room : f.data.buf.length + chunk.length ≤ maxCapacity) :
    ∃ g, f.push chunk = some g ∧ g.data = f.data.push chunk := by
  have small : f.data.buf.length + chunk.length ≤ 0x40000000 := room
  have exact : int (f.data.buf.length + chunk.length) = f.data.buf.length + chunk.length :=
    int_eq (by omega) (by omega)
  obtain ⟨capacity, found⟩ := @ensureCapacity_ends f.capacity
    (int (f.data.buf.length + chunk.length)) f.sized (by rw [exact]; exact_mod_cast room)
  have enough := (ensureCapacity_sized f.sized found).1
  rw [exact] at enough
  have attached : (ensureCapacity f.capacity (int (f.data.buf.length + chunk.length))).attach =
      some ⟨capacity, found⟩ := Option.attach_eq_some_iff.mpr found
  rw [push, attached]
  exact ⟨_, dif_pos (by exact_mod_cast enough), rfl⟩

theorem push_none {f : LineFramer} {chunk : List UInt8}
    (full : maxCapacity < f.data.buf.length + chunk.length) : f.push chunk = none := by
  rw [push, Option.bind_eq_bind, Option.bind_eq_none_iff]
  intro grown found
  have most := (ensureCapacity_sized f.sized grown.property).2.le
  exact dif_neg (Nat.not_le_of_lt (Nat.lt_of_le_of_lt most full))

/-- The framer as one that measures the unfinished tail. -/
def framer : Framer LineFramer UInt8 TransportException where
  start := new
  buf := fun f => f.data.buf
  push := push
  take := takeLine

theorem takeLine_taken (f : LineFramer) :
    framer.Taken newline maxLineBytes tooLong f f.takeLine := by
  have taken := f.data.take?_taken
  have after : f.scan.data = f.data.take?.2 := rfl
  rw [takeLine]
  generalize f.data.take? = result at taken after ⊢
  cases taken with
  | segment clean shape left =>
      refine .line clean shape ?_
      rw [← left]
      exact congrArg LineBuffer.buf after
  | nothing clean same =>
      have kept : f.scan.data.buf = f.data.buf := by rw [after, same]
      dsimp only
      rw [kept]
      split
      · rename_i long
        exact .refused clean long
      · rename_i short
        exact .nothing clean (Nat.le_of_not_lt short) kept

theorem framer_measures : framer.Measures newline maxLineBytes tooLong (some maxCapacity) where
  start := rfl
  take := takeLine_taken
  push := by
    intro f chunk room
    obtain ⟨g, pushed, data⟩ := push_some (room maxCapacity (Option.mem_some_self _))
    exact ⟨g, pushed, congrArg LineBuffer.buf data⟩
  full := by
    intro f chunk most given full
    rw [Option.mem_some_iff] at given
    exact push_none (given ▸ full)

end LineFramer

end SanDbOxFormal.Java.Transport
