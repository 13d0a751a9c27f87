import SanDbOxFormal.Library.Decimal

/-!
# Strings of the Java runtime

A `String` is a sequence of UTF-16 units, which need not be paired.
`getBytes(UTF_8)` encodes the pairs and replaces every unpaired surrogate by `?`.
-/

namespace SanDbOxFormal.Java

abbrev JString := List UInt16

/-- A literal of the source that has only characters below U+10000. -/
def lit (s : String) : JString := s.toList.map fun c => UInt16.ofNat c.toNat

def newline : UInt8 := 0x0A

def newlineUnit : UInt16 := 0x0A

def isHigh (u : UInt16) : Bool := decide (u.toNat / 0x400 = 0x36)

def isLow (u : UInt16) : Bool := decide (u.toNat / 0x400 = 0x37)

/-- The code point of a surrogate pair. -/
def pair (high low : UInt16) : Nat := 0x10000 + high.toNat % 0x400 * 0x400 + low.toNat % 0x400

def encodeCodePoint (cp : Nat) : List UInt8 :=
  if cp < 0x80 then [UInt8.ofNat cp]
  else if cp < 0x800 then [UInt8.ofNat (0xC0 + cp / 0x40), UInt8.ofNat (0x80 + cp % 0x40)]
  else if cp < 0x10000 then
    [UInt8.ofNat (0xE0 + cp / 0x1000), UInt8.ofNat (0x80 + cp / 0x40 % 0x40),
      UInt8.ofNat (0x80 + cp % 0x40)]
  else
    [UInt8.ofNat (0xF0 + cp / 0x40000 % 8), UInt8.ofNat (0x80 + cp / 0x1000 % 0x40),
      UInt8.ofNat (0x80 + cp / 0x40 % 0x40), UInt8.ofNat (0x80 + cp % 0x40)]

/-- `s.getBytes(StandardCharsets.UTF_8)`. -/
def getBytes : JString → List UInt8
  | [] => []
  | [u] => if isHigh u || isLow u then [0x3F] else encodeCodePoint u.toNat
  | u :: v :: rest =>
      if isHigh u then
        if isLow v then encodeCodePoint (pair u v) ++ getBytes rest
        else 0x3F :: getBytes (v :: rest)
      else if isLow u then 0x3F :: getBytes (v :: rest)
      else encodeCodePoint u.toNat ++ getBytes (v :: rest)

theorem ofNat_ne_newline {n : Nat} (large : 0x80 ≤ n) (small : n < 0x100) :
    UInt8.ofNat n ≠ newline := by
  intro same
  have value := congrArg UInt8.toNat same
  rw [UInt8.toNat_ofNat', Nat.mod_eq_of_lt small] at value
  rw [value] at large
  exact absurd large (by decide)

/-- Only the code point of the newline has the newline in its encoding. -/
theorem newline_not_mem_encodeCodePoint {cp : Nat} (other : cp ≠ 0x0A) (range : cp < 0x110000) :
    newline ∉ encodeCodePoint cp := by
  rw [encodeCodePoint]
  split
  · rename_i small
    intro inside
    have value := congrArg UInt8.toNat (List.mem_singleton.mp inside)
    rw [UInt8.toNat_ofNat', Nat.mod_eq_of_lt (by omega)] at value
    exact other value.symm
  · split
    · intro inside
      simp only [List.mem_cons, List.not_mem_nil, or_false] at inside
      rcases inside with same | same
      · exact ofNat_ne_newline (by omega) (by omega) same.symm
      · exact ofNat_ne_newline (by omega) (by omega) same.symm
    · split
      · intro inside
        simp only [List.mem_cons, List.not_mem_nil, or_false] at inside
        rcases inside with same | same | same
        · exact ofNat_ne_newline (by omega) (by omega) same.symm
        · exact ofNat_ne_newline (by omega) (by omega) same.symm
        · exact ofNat_ne_newline (by omega) (by omega) same.symm
      · intro inside
        simp only [List.mem_cons, List.not_mem_nil, or_false] at inside
        rcases inside with same | same | same | same
        · exact ofNat_ne_newline (by omega) (by omega) same.symm
        · exact ofNat_ne_newline (by omega) (by omega) same.symm
        · exact ofNat_ne_newline (by omega) (by omega) same.symm
        · exact ofNat_ne_newline (by omega) (by omega) same.symm

theorem unit_ne_newline {u : UInt16} (other : u ≠ newlineUnit) : u.toNat ≠ 0x0A := by
  intro same
  exact other (UInt16.toNat_inj.mp same)

theorem pair_range (high low : UInt16) : pair high low ≠ 0x0A ∧ pair high low < 0x110000 := by
  rw [pair]
  omega

theorem question_ne_newline : (0x3F : UInt8) ≠ newline := by decide

/-- Encoding a text without newlines makes none. -/
theorem newline_not_mem_getBytes {s : JString} (clean : newlineUnit ∉ s) :
    newline ∉ getBytes s := by
  have one {u : UInt16} (other : u ≠ newlineUnit) : newline ∉ encodeCodePoint u.toNat :=
    newline_not_mem_encodeCodePoint (unit_ne_newline other)
      (Nat.lt_trans u.toNat_lt (by decide))
  fun_induction getBytes s with
  | case1 => exact List.not_mem_nil
  | case2 u lone =>
      intro inside
      exact question_ne_newline (List.mem_singleton.mp inside).symm
  | case3 u plain => exact one fun same => clean (same ▸ List.mem_cons_self)
  | case4 u v rest high low ih =>
      rw [List.mem_append, not_or]
      refine ⟨newline_not_mem_encodeCodePoint (pair_range u v).1 (pair_range u v).2, ih ?_⟩
      exact fun inside => clean (List.mem_cons_of_mem _ (List.mem_cons_of_mem _ inside))
  | case5 u v rest high other ih =>
      rw [List.mem_cons, not_or]
      exact ⟨question_ne_newline.symm, ih fun inside => clean (List.mem_cons_of_mem _ inside)⟩
  | case6 u v rest plain low ih =>
      rw [List.mem_cons, not_or]
      exact ⟨question_ne_newline.symm, ih fun inside => clean (List.mem_cons_of_mem _ inside)⟩
  | case7 u v rest plain other ih =>
      rw [List.mem_append, not_or]
      exact ⟨one fun same => clean (same ▸ List.mem_cons_self),
        ih fun inside => clean (List.mem_cons_of_mem _ inside)⟩

/-- A newline at the end is encoded on its own, whatever stands before it. -/
theorem getBytes_append_newline (s : JString) :
    getBytes (s ++ [newlineUnit]) = getBytes s ++ [newline] := by
  have last : getBytes [newlineUnit] = [newline] := rfl
  have single : isLow newlineUnit = false := rfl
  fun_induction getBytes s with
  | case1 => rfl
  | case2 u lone =>
      rw [List.singleton_append, getBytes, single, last]
      rw [Bool.or_eq_true] at lone
      rcases lone with high | low
      · rw [if_pos high]
        rfl
      · by_cases high : isHigh u = true
        · rw [if_pos high]
          rfl
        · rw [if_neg high, if_pos low]
          rfl
  | case3 u plain =>
      rw [Bool.or_eq_true, not_or] at plain
      rw [List.singleton_append, getBytes, if_neg plain.1, if_neg plain.2, last]
  | case4 u v rest high low ih =>
      rw [List.cons_append, List.cons_append, getBytes, if_pos high, if_pos low, ih,
        List.append_assoc]
  | case5 u v rest high other ih =>
      rw [List.cons_append, List.cons_append, getBytes, if_pos high, if_neg other,
        ← List.cons_append, ih, List.cons_append]
  | case6 u v rest plain low ih =>
      rw [List.cons_append, List.cons_append, getBytes, if_neg plain, if_pos low,
        ← List.cons_append, ih, List.cons_append]
  | case7 u v rest plain other ih =>
      rw [List.cons_append, List.cons_append, getBytes, if_neg plain, if_neg other,
        ← List.cons_append, ih, List.append_assoc]

end SanDbOxFormal.Java
