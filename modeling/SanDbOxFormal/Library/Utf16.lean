import Mathlib

/-!
# UTF-16

The units of characters, and the characters that units make; a surrogate without its
other half makes none.
-/

namespace SanDbOxFormal.Library.Utf16

/-- The units of a character. -/
def units (c : Char) : List UInt16 :=
  if c.toNat < 0x10000 then [UInt16.ofNat c.toNat]
  else
    [UInt16.ofNat (0xD800 + (c.toNat - 0x10000) / 0x400),
      UInt16.ofNat (0xDC00 + (c.toNat - 0x10000) % 0x400)]

def encode (cs : List Char) : List UInt16 := cs.flatMap units

def isHigh (u : UInt16) : Bool := 0xD800 ≤ u.toNat && u.toNat ≤ 0xDBFF

def isLow (u : UInt16) : Bool := 0xDC00 ≤ u.toNat && u.toNat ≤ 0xDFFF

/-- The character of a pair of surrogates. -/
def joined (u v : UInt16) : Char :=
  Char.ofNat (0x10000 + (u.toNat - 0xD800) * 0x400 + (v.toNat - 0xDC00))

/-- The characters of a text; a lone surrogate becomes U+FFFD. -/
def characters : List UInt16 → List Char
  | [] => []
  | [u] => [if isHigh u || isLow u then '\uFFFD' else Char.ofNat u.toNat]
  | u :: v :: rest =>
      if isHigh u && isLow v then joined u v :: characters rest
      else (if isHigh u || isLow u then '\uFFFD' else Char.ofNat u.toNat) :: characters (v :: rest)

@[simp] theorem encode_nil : encode [] = [] := rfl

@[simp] theorem encode_cons (c : Char) (cs : List Char) : encode (c :: cs) = units c ++ encode cs :=
  List.flatMap_cons

@[simp] theorem encode_append (first second : List Char) :
    encode (first ++ second) = encode first ++ encode second :=
  List.flatMap_append

theorem encode_single (c : Char) : encode [c] = units c := List.flatMap_singleton units c

/-- A character of ASCII is its own unit. -/
theorem encode_narrow {cs : List Char} (narrow : cs.all (fun c => c.toNat < 0x80) = true) :
    cs.map (fun c => UInt16.ofNat c.toNat) = encode cs := by
  induction cs with
  | nil => rfl
  | cons c rest ih =>
      rw [List.all_cons, Bool.and_eq_true, decide_eq_true_eq] at narrow
      rw [List.map_cons, ih narrow.2, encode_cons, units, if_pos (by omega)]
      rfl

/-! ## Whole texts -/

/-- A text without lone surrogates. -/
def Whole (text : List UInt16) : Prop := ∃ cs : List Char, text = encode cs

theorem Whole.nil : Whole [] := ⟨[], rfl⟩

theorem Whole.append {first second : List UInt16} (one : Whole first) (two : Whole second) :
    Whole (first ++ second) := by
  obtain ⟨cs, rfl⟩ := one
  obtain ⟨ds, rfl⟩ := two
  exact ⟨cs ++ ds, (encode_append cs ds).symm⟩

theorem whole_unit {u : UInt16} (high : isHigh u = false) (low : isLow u = false) : Whole [u] := by
  have range := u.toNat_lt
  simp only [isHigh, isLow, Bool.and_eq_false_iff, decide_eq_false_iff_not] at high low
  have valid : u.toNat.isValidChar := by
    rw [Nat.isValidChar]
    omega
  have value : (Char.ofNat u.toNat).toNat = u.toNat := (Char.toNat_ofNat _).trans (if_pos valid)
  refine ⟨[Char.ofNat u.toNat], ?_⟩
  rw [encode_single, units, value, if_pos (by omega), UInt16.ofNat_toNat]

theorem whole_ascii {text : List UInt16} (narrow : ∀ u ∈ text, u.toNat < 0x80) : Whole text := by
  induction text with
  | nil => exact .nil
  | cons u rest ih =>
      obtain ⟨first, others⟩ := List.forall_mem_cons.mp narrow
      have high : isHigh u = false := by
        rw [isHigh, Bool.and_eq_false_iff]
        exact .inl (decide_eq_false (by omega))
      have low : isLow u = false := by
        rw [isLow, Bool.and_eq_false_iff]
        exact .inl (decide_eq_false (by omega))
      exact (whole_unit high low).append (ih others)

/-- A text of the source. -/
theorem whole_of_all {text : List UInt16} (narrow : text.all (fun u => u.toNat < 0x80) = true) :
    Whole text :=
  whole_ascii fun u inside => of_decide_eq_true (List.all_eq_true.mp narrow u inside)

theorem joined_toNat {u v : UInt16} (high : isHigh u = true) (low : isLow v = true) :
    (joined u v).toNat = 0x10000 + (u.toNat - 0xD800) * 0x400 + (v.toNat - 0xDC00) := by
  simp only [isHigh, isLow, Bool.and_eq_true, decide_eq_true_eq] at high low
  have valid : (0x10000 + (u.toNat - 0xD800) * 0x400 + (v.toNat - 0xDC00)).isValidChar := by
    rw [Nat.isValidChar]
    omega
  exact (Char.toNat_ofNat _).trans (if_pos valid)

/-- The character of a pair, and its two units. -/
theorem units_joined {u v : UInt16} (high : isHigh u = true) (low : isLow v = true) :
    units (joined u v) = [u, v] := by
  have value := joined_toNat high low
  simp only [isHigh, isLow, Bool.and_eq_true, decide_eq_true_eq] at high low
  have first : 0xD800 + ((joined u v).toNat - 0x10000) / 0x400 = u.toNat := by omega
  have second : 0xDC00 + ((joined u v).toNat - 0x10000) % 0x400 = v.toNat := by omega
  rw [units, if_neg (by omega), first, second, UInt16.ofNat_toNat, UInt16.ofNat_toNat]

theorem whole_pair {u v : UInt16} (high : isHigh u = true) (low : isLow v = true) : Whole [u, v] :=
  ⟨[joined u v], by rw [encode_single, units_joined high low]⟩

theorem ofNat_toNat {n : Nat} (small : n < 0x10000) : (UInt16.ofNat n).toNat = n := by
  rw [UInt16.toNat_ofNat', Nat.mod_eq_of_lt small]

theorem characters_pair {u v : UInt16} (high : isHigh u = true) (low : isLow v = true)
    (rest : List UInt16) : characters (u :: v :: rest) = joined u v :: characters rest := by
  rw [characters, high, low, Bool.and_self, if_pos rfl]

theorem characters_single {u : UInt16} (high : isHigh u = false) (low : isLow u = false)
    (rest : List UInt16) : characters (u :: rest) = Char.ofNat u.toNat :: characters rest := by
  cases rest with
  | nil =>
      rw [characters.eq_2, high, low, Bool.or_self, if_neg Bool.false_ne_true, characters.eq_1]
  | cons v more =>
      rw [characters, high, low, Bool.false_and, if_neg Bool.false_ne_true, Bool.or_self,
        if_neg Bool.false_ne_true]

theorem joined_units {c : Char} (wide : 0x10000 ≤ c.toNat) :
    joined (UInt16.ofNat (0xD800 + (c.toNat - 0x10000) / 0x400))
      (UInt16.ofNat (0xDC00 + (c.toNat - 0x10000) % 0x400)) = c ∧
    isHigh (UInt16.ofNat (0xD800 + (c.toNat - 0x10000) / 0x400)) = true ∧
    isLow (UInt16.ofNat (0xDC00 + (c.toNat - 0x10000) % 0x400)) = true := by
  have range : c.toNat < 0x110000 := by
    rcases c.valid with low | ⟨_, high⟩
    · exact Nat.lt_trans low (by decide)
    · exact high
  have first : (UInt16.ofNat (0xD800 + (c.toNat - 0x10000) / 0x400)).toNat =
      0xD800 + (c.toNat - 0x10000) / 0x400 := ofNat_toNat (by omega)
  have second : (UInt16.ofNat (0xDC00 + (c.toNat - 0x10000) % 0x400)).toNat =
      0xDC00 + (c.toNat - 0x10000) % 0x400 := ofNat_toNat (by omega)
  refine ⟨?_, ?_, ?_⟩
  · have whole : 0x10000 + (0xD800 + (c.toNat - 0x10000) / 0x400 - 0xD800) * 0x400 +
        (0xDC00 + (c.toNat - 0x10000) % 0x400 - 0xDC00) = c.toNat := by omega
    rw [joined, first, second, whole, Char.ofNat_toNat]
  · rw [isHigh, first, Bool.and_eq_true, decide_eq_true_eq, decide_eq_true_eq]
    omega
  · rw [isLow, second, Bool.and_eq_true, decide_eq_true_eq, decide_eq_true_eq]
    omega

/-- A character of the first plane is no half of a pair. -/
theorem narrow_unit {c : Char} (narrow : c.toNat < 0x10000) :
    isHigh (UInt16.ofNat c.toNat) = false ∧ isLow (UInt16.ofNat c.toNat) = false := by
  have range : c.toNat < 0xD800 ∨ 0xDFFF < c.toNat := by
    rcases c.valid with low | ⟨high, _⟩
    · exact .inl low
    · exact .inr high
  rw [isHigh, isLow, ofNat_toNat narrow, Bool.and_eq_false_iff, Bool.and_eq_false_iff,
    decide_eq_false_iff_not, decide_eq_false_iff_not, decide_eq_false_iff_not,
    decide_eq_false_iff_not]
  omega

/-- The characters come off a text one by one. -/
theorem characters_units (c : Char) (rest : List UInt16) :
    characters (units c ++ rest) = c :: characters rest := by
  rw [units]
  split
  · rename_i narrow
    obtain ⟨high, low⟩ := narrow_unit narrow
    rw [List.singleton_append, characters_single high low, ofNat_toNat narrow, Char.ofNat_toNat]
  · rename_i wide
    obtain ⟨back, high, low⟩ := joined_units (Nat.le_of_not_lt wide)
    rw [List.cons_append, List.cons_append, List.nil_append, characters_pair high low, back]

theorem characters_encode (cs : List Char) : characters (encode cs) = cs := by
  induction cs with
  | nil => rfl
  | cons c rest ih => rw [encode_cons, characters_units, ih]

end SanDbOxFormal.Library.Utf16
