import SanDbOxFormal.Java.Transport.SocketTransport
import SanDbOxFormal.Library.Failures

/-!
# The line framer and its array

`LineFramer` once more, statement by statement over its `byte[]`: where the code would
leave the array, or an `int` would not hold a sum, there is a fault.
-/

namespace SanDbOxFormal.Java.Transport

open SanDbOxFormal.Library
open SanDbOxFormal.Library.Segments

inductive Fault where
  /-- An `IndexOutOfBoundsException`, also out of a copy. -/
  | outOfBounds
  /-- The `NegativeArraySizeException` of a copy. -/
  | negativeSize
  /-- An `int` that is not what was computed. -/
  | overflow
  /-- A growth that has not ended when the doublings of an `int` have. -/
  | endless
  deriving DecidableEq

/-- An `int` that holds `n`. -/
def exact (n : Int) : Except Fault Int := if int n = n then .ok n else .error .overflow

theorem exact_ok {n : Int} (low : -2 ^ 31 ≤ n) (high : n < 2 ^ 31) : exact n = .ok n := by
  rw [exact, if_pos]
  rw [int, Int.bmod_eq_of_le] <;> omega

/-! ## Arrays -/

/-- `bytes[i]`. -/
def byteAt (bytes : List UInt8) (i : Int) : Except Fault UInt8 :=
  if i < 0 then .error .outOfBounds
  else
    match bytes[i.toNat]? with
    | some b => .ok b
    | none => .error .outOfBounds

/-- `System.arraycopy`, with the array that `dest` is afterwards. -/
def arraycopy (src : List UInt8) (srcPos : Int) (dest : List UInt8) (destPos length : Int) :
    Except Fault (List UInt8) :=
  if srcPos < 0 ∨ destPos < 0 ∨ length < 0 ∨ src.length < srcPos + length ∨ dest.length < destPos + length then
    .error .outOfBounds
  else
    .ok (dest.take destPos.toNat ++ (src.drop srcPos.toNat).take length.toNat ++
      dest.drop (destPos + length).toNat)

/-- `Arrays.copyOf`. -/
def copyOf (bytes : List UInt8) (newLength : Int) : Except Fault (List UInt8) :=
  if newLength < 0 then .error .negativeSize
  else .ok (bytes.take newLength.toNat ++ List.replicate (newLength.toNat - bytes.length) 0)

/-- `Arrays.copyOfRange`, where the range does not end behind the array. -/
def copyOfRange (bytes : List UInt8) (start stop : Int) : Except Fault (List UInt8) :=
  if start < 0 ∨ stop < start ∨ bytes.length < stop then .error .outOfBounds
  else .ok ((bytes.take stop.toNat).drop start.toNat)

theorem arraycopy_ok {src dest : List UInt8} {srcPos destPos length : Nat}
    (source : srcPos + length ≤ src.length) (target : destPos + length ≤ dest.length) :
    arraycopy src srcPos dest destPos length =
      .ok (dest.take destPos ++ (src.drop srcPos).take length ++ dest.drop (destPos + length)) := by
  rw [arraycopy, if_neg (by omega)]
  rfl

theorem copyOf_ok {bytes : List UInt8} {newLength : Nat} (larger : bytes.length ≤ newLength) :
    copyOf bytes newLength = .ok (bytes ++ List.replicate (newLength - bytes.length) 0) := by
  rw [copyOf, if_neg (by omega), Int.toNat_natCast, List.take_of_length_le larger]

theorem copyOfRange_ok {bytes : List UInt8} {stop : Nat} (inside : stop ≤ bytes.length) :
    copyOfRange bytes 0 stop = .ok (bytes.take stop) := by
  rw [copyOfRange, if_neg (by omega)]
  rfl

/-! ## The framer -/

structure FramerArray where
  buf : List UInt8
  len : Int
  scanned : Int

namespace FramerArray

/-- `new LineFramer()`. -/
def new : FramerArray := ⟨List.replicate 256 0, 0, 0⟩

/-- `while (newCap < needed) newCap *= 2`. -/
def growth : Nat → Int → Int → Except Fault Int
  | 0, newCap, needed => if newCap < needed then .error .endless else .ok newCap
  | turns + 1, newCap, needed =>
      if newCap < needed then do
        let twice ← exact (newCap * 2)
        growth turns twice needed
      else .ok newCap

def ensureCapacity (a : FramerArray) (needed : Int) : Except Fault FramerArray :=
  if needed ≤ a.buf.length then .ok a
  else do
    let newCap ← growth 32 a.buf.length needed
    let buf ← copyOf a.buf newCap
    .ok { a with buf := buf }

/-- `push(chunk, off, chunkLen)`. -/
def push (a : FramerArray) (chunk : List UInt8) (off chunkLen : Int) : Except Fault FramerArray := do
  let needed ← exact (a.len + chunkLen)
  let a ← a.ensureCapacity needed
  let buf ← arraycopy chunk off a.buf a.len chunkLen
  let len ← exact (a.len + chunkLen)
  .ok { a with buf := buf, len := len }

/-- `for (int i = scanned; i < len; i++)`: the newline it stops at. -/
def scan (buf : List UInt8) : Nat → Int → Except Fault (Option Int)
  | 0, _ => .ok none
  | turns + 1, i => do
      let b ← byteAt buf i
      if b = newline then .ok (some i)
      else do
        let next ← exact (i + 1)
        scan buf turns next

def takeLine (a : FramerArray) : Except Fault (Except TransportException (Option (List UInt8)) × FramerArray) := do
  let found ← scan a.buf (a.len - a.scanned).toNat a.scanned
  match found with
  | some i =>
      let line ← copyOfRange a.buf 0 i
      let behind ← exact (i + 1)
      let remaining ← exact (a.len - behind)
      let buf ← arraycopy a.buf behind a.buf 0 remaining
      .ok (.ok (some line), ⟨buf, remaining, 0⟩)
  | none =>
      let a := { a with scanned := a.len }
      if a.len > (maxLineBytes : Int) then .ok (.error LineFramer.tooLong, a) else .ok (.ok none, a)

/-! ## What the array holds -/

/-- The bytes that were pushed and not taken. -/
def content (a : FramerArray) : List UInt8 := a.buf.take a.len.toNat

/-- The representation: how `scanned`, `len` and the array bound each other, and what
the scan has seen. -/
structure Sound (a : FramerArray) : Prop where
  scanned_nonneg : 0 ≤ a.scanned
  scanned_le : a.scanned ≤ a.len
  len_le : a.len ≤ a.buf.length
  clean : newline ∉ a.buf.take a.scanned.toNat
  /-- One chunk behind the cap at most. -/
  small : a.len ≤ maxLineBytes + readSize
  /-- Doubled at most fourteen times: 4 MiB. -/
  doubled : ∃ k ≤ 14, a.buf.length = 256 * 2 ^ k

/-- A line that is not complete fits the cap, and all of it is scanned. -/
structure Drained (a : FramerArray) : Prop where
  sound : Sound a
  clean : newline ∉ a.content
  short : a.len ≤ maxLineBytes

theorem Sound.nonneg {a : FramerArray} (sound : Sound a) : 0 ≤ a.len :=
  sound.scanned_nonneg.trans sound.scanned_le

theorem Sound.content_length {a : FramerArray} (sound : Sound a) : (a.content.length : Int) = a.len := by
  have nonneg := sound.nonneg
  have inside := sound.len_le
  rw [content, List.length_take]
  omega

/-- Up to 4 MiB the growth ends, and no doubling overflows. -/
theorem growth_ok {turns k : Nat} {needed : Int} (enough : 14 ≤ k + turns) (small : k ≤ 14)
    (fits : needed ≤ (256 * 2 ^ 14 : Nat)) :
    ∃ j ≤ 14, growth turns (256 * 2 ^ k : Nat) needed = .ok (256 * 2 ^ j : Nat) ∧ k ≤ j ∧
      needed ≤ (256 * 2 ^ j : Nat) := by
  induction turns generalizing k with
  | zero =>
      obtain rfl : k = 14 := by omega
      exact ⟨14, le_rfl, if_neg (by omega), le_rfl, fits⟩
  | succ turns ih =>
      rw [growth]
      split
      · rename_i less
        have short : k < 14 := by
          refine Nat.lt_of_le_of_ne small ?_
          rintro rfl
          omega
        have power : 2 ^ k ≤ 2 ^ 13 := Nat.pow_le_pow_right (by decide) (Nat.le_of_lt_succ short)
        have twice : exact ((256 * 2 ^ k : Nat) * 2) = .ok (256 * 2 ^ (k + 1) : Nat) := by
          rw [exact_ok (by omega) (by omega), Nat.pow_succ]
          exact congrArg Except.ok (by omega)
        obtain ⟨j, top, grown, later, holds⟩ := ih (k := k + 1) (by omega) short
        refine ⟨j, top, ?_, by omega, holds⟩
        rw [twice]
        exact grown
      · rename_i holds
        exact ⟨k, small, rfl, le_rfl, by omega⟩

theorem ensureCapacity_ok {a : FramerArray} {needed : Int} (sized : ∃ k ≤ 14, a.buf.length = 256 * 2 ^ k)
    (fits : needed ≤ (256 * 2 ^ 14 : Nat)) : ∃ more, a.ensureCapacity needed = .ok { a with buf := a.buf ++ more } ∧
      (∃ k ≤ 14, (a.buf ++ more).length = 256 * 2 ^ k) ∧ needed ≤ (a.buf ++ more).length := by
  obtain ⟨k, small, size⟩ := sized
  rw [ensureCapacity]
  split
  · rename_i enough
    refine ⟨[], by rw [List.append_nil], ?_, ?_⟩
    · rw [List.append_nil]
      exact ⟨k, small, size⟩
    · rw [List.append_nil]
      exact enough
  · obtain ⟨j, top, grown, later, holds⟩ := @growth_ok 32 k needed (by omega) small fits
    have power : 2 ^ k ≤ 2 ^ j := Nat.pow_le_pow_right (by decide) later
    have copied := @copyOf_ok a.buf (256 * 2 ^ j) (by omega)
    have length : (a.buf ++ List.replicate (256 * 2 ^ j - a.buf.length) 0).length = 256 * 2 ^ j := by
      rw [List.length_append, List.length_replicate]
      omega
    rw [← size] at grown
    exact ⟨_, bind_ok_iff.mpr ⟨_, grown, bind_ok_iff.mpr ⟨_, copied, rfl⟩⟩, ⟨j, top, length⟩,
      by rw [length]; exact holds⟩

theorem content_mk (data junk : List UInt8) (scanned : Int) :
    content ⟨data ++ junk, data.length, scanned⟩ = data := by
  rw [content]
  dsimp only
  rw [Int.toNat_natCast, List.take_left]

/-- A framer with the array spelled out. -/
theorem Sound.shape {a : FramerArray} (sound : Sound a) : ∃ (data junk : List UInt8) (scanned : Nat),
    a = ⟨data ++ junk, data.length, scanned⟩ ∧ scanned ≤ data.length ∧ newline ∉ data.take scanned := by
  obtain ⟨buf, len, scanned⟩ := a
  obtain ⟨n, rfl⟩ := Int.eq_ofNat_of_zero_le sound.nonneg
  obtain ⟨m, rfl⟩ := Int.eq_ofNat_of_zero_le sound.scanned_nonneg
  have inside : (n : Int) ≤ buf.length := sound.len_le
  have before : (m : Int) ≤ n := sound.scanned_le
  have clean : newline ∉ buf.take m := sound.clean
  have held : (buf.take n).length = n := by
    rw [List.length_take]
    omega
  refine ⟨buf.take n, buf.drop n, m, ?_, ?_, ?_⟩
  · rw [List.take_append_drop, held]
  · omega
  · rw [List.take_take, min_eq_left (by omega)]
    exact clean

/-- Pushing what a read has brought, behind a line that fits the cap. -/
theorem push_ok {a : FramerArray} {chunk stale : List UInt8} (drained : Drained a)
    (fits : chunk.length ≤ readSize) : ∃ a', a.push (chunk ++ stale) 0 chunk.length = .ok a' ∧ Sound a' ∧
      a'.content = a.content ++ chunk := by
  obtain ⟨held, junk, scanned, rfl, before, clean⟩ := drained.sound.shape
  have short := drained.short
  have inside := drained.sound.len_le
  have sized := drained.sound.doubled
  rw [content_mk]
  rw [readSize] at fits
  rw [maxLineBytes] at short
  dsimp only at short inside sized
  have needed : exact ((held.length : Int) + chunk.length) = .ok (held.length + chunk.length) :=
    exact_ok (by omega) (by omega)
  obtain ⟨more, grown, sized, enough⟩ := @ensureCapacity_ok
    ⟨held ++ junk, held.length, scanned⟩ (held.length + chunk.length) sized (by omega)
  dsimp only at grown sized enough
  have target : held.length + chunk.length ≤ (held ++ junk ++ more).length := by omega
  have copied := @arraycopy_ok (chunk ++ stale) (held ++ junk ++ more) 0 held.length chunk.length
    (by rw [List.length_append]; omega) target
  have front : (held ++ junk ++ more).take held.length = held := by
    rw [List.append_assoc, List.take_left]
  rw [front, List.drop_zero, List.take_left] at copied
  have room : (held ++ chunk ++ (held ++ junk ++ more).drop (held.length + chunk.length)).length =
      (held ++ junk ++ more).length := by
    rw [List.length_append, List.length_append, List.length_drop]
    omega
  refine ⟨_, bind_ok_iff.mpr ⟨_, needed, bind_ok_iff.mpr ⟨_, grown, bind_ok_iff.mpr ⟨_, copied,
    bind_ok_iff.mpr ⟨_, needed, rfl⟩⟩⟩⟩, ⟨?_, ?_, ?_, ?_, ?_, ?_⟩, ?_⟩
  · exact Int.natCast_nonneg scanned
  · dsimp only
    omega
  · dsimp only
    rw [room]
    exact_mod_cast target
  · dsimp only
    rw [Int.toNat_natCast, List.append_assoc, List.take_append_of_le_length before]
    exact clean
  · rw [maxLineBytes, readSize]
    dsimp only
    omega
  · dsimp only
    rw [room]
    exact sized
  · rw [content]
    dsimp only
    have size : ((held.length : Int) + chunk.length).toNat = (held ++ chunk).length := by
      rw [List.length_append]
      rfl
    rw [size, List.take_left]

/-- The scan finds the first newline behind `front`. -/
theorem scan_ok {front part rest : List UInt8} (small : front.length + part.length < 2 ^ 31) :
    scan (front ++ part ++ rest) part.length front.length = .ok none ∧ newline ∉ part ∨
      ∃ line more, part = line ++ newline :: more ∧ newline ∉ line ∧
        scan (front ++ part ++ rest) part.length front.length = .ok (some (front.length + line.length : Nat)) := by
  induction part generalizing front with
  | nil => exact .inl ⟨rfl, List.not_mem_nil⟩
  | cons b part ih =>
      have here : byteAt (front ++ b :: part ++ rest) front.length = .ok b := by
        rw [byteAt, if_neg (by omega), Int.toNat_natCast, List.append_assoc,
          List.getElem?_append_right le_rfl, Nat.sub_self]
        rfl
      by_cases mark : b = newline
      · refine .inr ⟨[], part, by rw [mark, List.nil_append], List.not_mem_nil, ?_⟩
        rw [List.length_cons, scan]
        exact bind_ok_iff.mpr ⟨b, here, if_pos mark⟩
      · have next : exact ((front.length : Int) + 1) = .ok ((front ++ [b]).length : Nat) := by
          rw [List.length_cons] at small
          rw [exact_ok (by omega) (by omega), List.length_append]
          rfl
        have moved : front ++ b :: part ++ rest = front ++ [b] ++ part ++ rest := by simp
        have step {result : Option Int} (later : scan (front ++ [b] ++ part ++ rest) part.length
            (front ++ [b]).length = .ok result) :
            scan (front ++ b :: part ++ rest) (b :: part).length front.length = .ok result := by
          rw [List.length_cons, scan]
          refine bind_ok_iff.mpr ⟨b, here, ?_⟩
          rw [if_neg mark, moved]
          exact bind_ok_iff.mpr ⟨_, next, later⟩
        rcases @ih (front ++ [b]) (by simp at small ⊢; omega) with ⟨none, clean⟩ |
            ⟨line, more, rfl, clean, found⟩
        · refine .inl ⟨step none, ?_⟩
          rw [List.mem_cons, not_or]
          exact ⟨fun same => mark same.symm, clean⟩
        · refine .inr ⟨b :: line, more, rfl, ?_, ?_⟩
          · rw [List.mem_cons, not_or]
            exact ⟨fun same => mark same.symm, clean⟩
          · have place : (front ++ [b]).length + line.length = front.length + (b :: line).length := by
              simp only [List.length_append, List.length_cons, List.length_nil]
              omega
            rw [step found, place]

/-- What `takeLine` does, by what the framer holds. -/
inductive Took (a : FramerArray) : Except TransportException (Option (List UInt8)) × FramerArray → Prop where
  | line {line rest : List UInt8} {a' : FramerArray} (clean : newline ∉ line)
      (shape : a.content = line ++ newline :: rest) (left : a'.content = rest) (sound : Sound a') :
      Took a (.ok (some line), a')
  | nothing {a' : FramerArray} (clean : newline ∉ a.content) (same : a'.content = a.content)
      (drained : Drained a') : Took a (.ok none, a')
  | long {a' : FramerArray} (clean : newline ∉ a.content) (same : a'.content = a.content)
      (exceeds : maxLineBytes < a.len) (sound : Sound a') : Took a (.error LineFramer.tooLong, a')

/-- Popping the line in front: what the three copies and sums of it give. -/
theorem pop_ok {line more junk : List UInt8} (small : (line ++ newline :: more).length < 2 ^ 31) :
    copyOfRange (line ++ newline :: more ++ junk) 0 line.length = .ok line ∧
      exact (line.length + 1) = .ok (line.length + 1 : Nat) ∧
      exact ((line ++ newline :: more).length - (line.length + 1 : Nat)) = .ok more.length ∧
      arraycopy (line ++ newline :: more ++ junk) (line.length + 1 : Nat) (line ++ newline :: more ++ junk) 0
        more.length = .ok (more ++ (line ++ newline :: more ++ junk).drop more.length) := by
  have size : (line ++ newline :: more).length = line.length + 1 + more.length := by
    rw [List.length_append, List.length_cons]
    omega
  have total : (line ++ newline :: more ++ junk).length = line.length + 1 + more.length + junk.length := by
    rw [List.length_append, size]
  refine ⟨?_, exact_ok (by omega) (by omega), ?_, ?_⟩
  · rw [copyOfRange_ok (by omega), List.append_assoc, List.take_left]
  · rw [exact_ok (by omega) (by omega)]
    exact congrArg Except.ok (by omega)
  · have moved := @arraycopy_ok (line ++ newline :: more ++ junk) (line ++ newline :: more ++ junk)
      (line.length + 1) 0 more.length
      (by omega) (by omega)
    have behind : (line ++ newline :: more ++ junk).drop (line.length + 1) = more ++ junk := by
      have regroup : line ++ newline :: more ++ junk = (line ++ [newline]) ++ (more ++ junk) := by simp
      have length : line.length + 1 = (line ++ [newline]).length := by simp
      rw [regroup, length, List.drop_left]
    rw [behind, List.take_left, List.take_zero, List.nil_append, Nat.zero_add] at moved
    exact moved

/-- The array keeps its size. -/
theorem length_moved {line more junk : List UInt8} :
    (more ++ (line ++ newline :: more ++ junk).drop more.length).length =
      (line ++ newline :: more ++ junk).length := by
  simp only [List.length_append, List.length_drop, List.length_cons]
  omega

theorem takeLine_took {a : FramerArray} (sound : Sound a) :
    ∃ result, a.takeLine = .ok result ∧ Took a result := by
  obtain ⟨data, junk, scanned, rfl, before, clean⟩ := sound.shape
  have small := sound.small
  have inside := sound.len_le
  have sized := sound.doubled
  have nonneg := sound.nonneg
  rw [maxLineBytes, readSize] at small
  dsimp only at small inside sized
  -- The part that is scanned starts behind what was scanned before.
  obtain ⟨front, part, rfl, rfl⟩ : ∃ front part, data = front ++ part ∧ front.length = scanned :=
    ⟨data.take scanned, data.drop scanned, (List.take_append_drop _ _).symm, by
      rw [List.length_take, min_eq_left before]⟩
  rw [List.take_left] at clean
  have turns : (((front ++ part).length : Int) - front.length).toNat = part.length := by
    rw [List.length_append]
    omega
  rcases @scan_ok front part junk
    (by rw [← List.length_append]; omega) with ⟨missed, tail⟩ | ⟨line, more, rfl, before, found⟩
  · have whole : newline ∉ front ++ part := by
      rw [List.mem_append, not_or]
      exact ⟨clean, tail⟩
    have held (scanned : Int) : content ⟨front ++ part ++ junk, (front ++ part).length, scanned⟩ =
        front ++ part := content_mk _ _ _
    have after : Sound ⟨front ++ part ++ junk, (front ++ part).length, (front ++ part).length⟩ := by
      refine ⟨nonneg, le_rfl, inside, ?_, by rw [maxLineBytes, readSize]; exact small, sized⟩
      dsimp only
      rw [Int.toNat_natCast, List.take_left]
      exact whole
    by_cases long : (maxLineBytes : Int) < (front ++ part).length
    · refine ⟨_, bind_ok_iff.mpr ⟨none, by rw [turns]; exact missed, if_pos long⟩, ?_⟩
      exact .long ((held _).symm ▸ whole) ((held _).trans (held _).symm) long after
    · refine ⟨_, bind_ok_iff.mpr ⟨none, by rw [turns]; exact missed, if_neg long⟩, ?_⟩
      exact .nothing ((held _).symm ▸ whole) ((held _).trans (held _).symm)
        ⟨after, (held _).symm ▸ whole, Int.le_of_not_gt long⟩
  · have regroup : front ++ (line ++ newline :: more) = (front ++ line) ++ newline :: more :=
      (List.append_assoc front line (newline :: more)).symm
    have place : front.length + line.length = (front ++ line).length := List.length_append.symm
    have full : newline ∉ front ++ line := by
      rw [List.mem_append, not_or]
      exact ⟨clean, before⟩
    rw [place] at found
    rw [regroup] at found inside sized small turns nonneg ⊢
    generalize front ++ line = line at *
    obtain ⟨copied, behind, remaining, moved⟩ := @pop_ok line more junk (by omega)
    have popped : takeLine ⟨line ++ newline :: more ++ junk, (line ++ newline :: more).length, front.length⟩ =
        .ok (.ok (some line),
          ⟨more ++ (line ++ newline :: more ++ junk).drop more.length, more.length, 0⟩) := by
      rw [takeLine]
      refine bind_ok_iff.mpr ⟨_, by rw [turns]; exact found, ?_⟩
      exact bind_ok_iff.mpr ⟨_, copied, bind_ok_iff.mpr ⟨_, behind,
        bind_ok_iff.mpr ⟨_, remaining, bind_ok_iff.mpr ⟨_, moved, rfl⟩⟩⟩⟩
    refine ⟨_, popped, .line full (content_mk _ _ _) (content_mk _ _ _)
      ⟨le_rfl, Int.natCast_nonneg _, ?_, List.not_mem_nil, ?_, ?_⟩⟩
    · dsimp only
      rw [List.length_append]
      omega
    · rw [List.length_append, List.length_cons] at small
      rw [maxLineBytes, readSize]
      dsimp only
      omega
    · dsimp only
      rw [length_moved]
      exact sized

/-! ## The framer without its array -/

/-- The framer that keeps a buffer in place of the array gives out the same. -/
theorem takeLine_refines {a : FramerArray} {f : LineFramer} (sound : Sound a)
    (same : a.content = f.data.buf) : ∃ a', a.takeLine = .ok (f.takeLine.1, a') ∧
      a'.content = f.takeLine.2.data.buf ∧ Sound a' := by
  obtain ⟨⟨result, a'⟩, took, shape⟩ := takeLine_took sound
  have taken := f.data.take?_taken
  have length := sound.content_length
  rw [took, LineFramer.takeLine]
  have after : f.scan.data = f.data.take?.2 := rfl
  generalize f.data.take? = pair at taken after ⊢
  cases taken with
  | @segment line rest b clean cut left =>
      rw [← same] at cut
      cases shape with
      | line clean' cut' left' sound' =>
          have first := complete_segment clean rest
          rw [← cut, cut', complete_segment clean'] at first
          obtain rfl := (List.cons.inj first).1
          rw [cut] at cut'
          have tails := (List.cons.inj (List.append_cancel_left cut')).2
          exact ⟨a', rfl, by dsimp only; rw [left', after, left, tails], sound'⟩
      | nothing clean' => exact absurd (cut ▸ List.mem_append_right _ List.mem_cons_self) clean'
      | long clean' => exact absurd (cut ▸ List.mem_append_right _ List.mem_cons_self) clean'
  | nothing clean kept =>
      rw [← same] at clean kept
      have held : f.scan.data.buf = a.content := by rw [after, kept]
      cases shape with
      | line clean' cut' => exact absurd (cut' ▸ List.mem_append_right _ List.mem_cons_self) clean
      | nothing clean' same' drained =>
          have short := drained.short
          rw [← drained.sound.content_length, same', ← held] at short
          dsimp only
          rw [if_neg (by omega)]
          exact ⟨a', rfl, same'.trans held.symm, drained.sound⟩
      | long clean' same' exceeds sound' =>
          rw [← length, ← held] at exceeds
          dsimp only
          rw [if_pos (by omega)]
          exact ⟨a', rfl, same'.trans held.symm, sound'⟩

theorem push_refines {a : FramerArray} {f : LineFramer} {chunk stale : List UInt8} (drained : Drained a)
    (same : a.content = f.data.buf) (fits : chunk.length ≤ readSize) :
    ∃ a' f', a.push (chunk ++ stale) 0 chunk.length = .ok a' ∧ f.push chunk = some f' ∧
      a'.content = f'.data.buf ∧ Sound a' := by
  obtain ⟨a', pushed, sound, content⟩ := @push_ok _ _ stale drained fits
  have short : f.data.buf.length ≤ maxLineBytes := by
    have small := drained.short
    rw [← drained.sound.content_length, same] at small
    omega
  obtain ⟨f', pushed', held⟩ := SocketTransport.push_fits (s := ⟨.socket, f, none, false⟩) fits short
  exact ⟨a', f', pushed, pushed', by rw [content, held, same], sound⟩

end FramerArray

end SanDbOxFormal.Java.Transport
