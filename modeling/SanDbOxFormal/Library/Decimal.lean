import SanDbOxFormal.Library.Rfc8259

/-!
# Decimal integers

The decimal text of an integer is a numeral without fraction or exponent, and
reading its digits gives the integer back.
-/

namespace SanDbOxFormal.Library.Decimal

open SanDbOxFormal.Library.Rfc8259

/-- A run of at least one digit. -/
def parseNat? (cs : List Char) : Option Nat :=
  if cs ≠ [] ∧ cs.all isDigit then some (Nat.ofDigitChars 10 cs 0) else none

/-- Digits behind an optional sign. -/
def parseInt? : List Char → Option Int
  | '-' :: ds => (parseNat? ds).map fun n : Nat => -Int.ofNat n
  | '+' :: ds => (parseNat? ds).map Int.ofNat
  | ds => (parseNat? ds).map Int.ofNat

/-- The characters that make a numeral a REAL. -/
def isRealMark (c : Char) : Bool := c = '.' || c = 'e' || c = 'E'

theorem digitChar_isDigit {k : Nat} (small : k < 10) : isDigit k.digitChar = true := by
  revert k
  decide

theorem digitChar_ne_zero {k : Nat} (small : k < 10) (positive : 0 < k) : k.digitChar ≠ '0' := by
  revert k
  decide

/-- A positive number has no leading zero. -/
theorem toDigits_positive (n : Nat) (positive : 0 < n) :
    ∃ d ds, Nat.toDigits 10 n = d :: ds ∧ isDigit d = true ∧ d ≠ '0' ∧ Digits ds := by
  induction n using Nat.strong_induction_on with
  | _ n ih =>
      by_cases small : n < 10
      · exact ⟨n.digitChar, [], Nat.toDigits_of_lt_base small, digitChar_isDigit small,
          digitChar_ne_zero small positive, Digits.nil⟩
      · have large : 10 ≤ n := Nat.le_of_not_lt small
        obtain ⟨d, ds, shape, lead, nonzero, more⟩ := ih (n / 10) (by omega) (by omega)
        refine ⟨d, ds ++ [(n % 10).digitChar], ?_, lead, nonzero, ?_⟩
        · rw [Nat.toDigits_of_base_le (by decide) large, shape, List.cons_append]
        · exact List.forall_mem_append.mpr ⟨more,
            Digits.cons (digitChar_isDigit (Nat.mod_lt _ (by decide))) Digits.nil⟩

theorem toDigits_intPart (n : Nat) : IntPart (Nat.toDigits 10 n) := by
  rcases Nat.eq_zero_or_pos n with rfl | positive
  · rw [Nat.toDigits_zero]
    exact .zero
  · obtain ⟨d, ds, shape, lead, nonzero, more⟩ := toDigits_positive n positive
    rw [shape]
    exact .digits lead nonzero more

theorem toDigits_digits (n : Nat) : Digits (Nat.toDigits 10 n) := by
  have part := toDigits_intPart n
  generalize Nat.toDigits 10 n = cs at part
  cases part with
  | zero => exact Digits.cons (by decide) Digits.nil
  | digits lead _ more => exact Digits.cons lead more

theorem parseNat?_toDigits (n : Nat) : parseNat? (Nat.toDigits 10 n) = some n := by
  have digits : (Nat.toDigits 10 n).all isDigit = true :=
    List.all_eq_true.mpr (toDigits_digits n)
  rw [parseNat?, if_pos ⟨Nat.toDigits_ne_nil, digits⟩, Nat.ofDigitChars_ten_toDigits]

/-- The sign and the digits of the text of an integer. -/
theorem toList_toString (i : Int) :
    (toString i).toList =
      if 0 ≤ i then Nat.toDigits 10 i.toNat else '-' :: Nat.toDigits 10 (-i).toNat := by
  rw [Int.toString_eq_repr, Int.repr_eq_if]
  split
  · exact Nat.toList_repr
  · rw [String.toList_append, Nat.toList_repr]
    rfl

theorem parseInt?_toString (i : Int) : parseInt? (toString i).toList = some i := by
  rw [toList_toString]
  split
  · rename_i nonneg
    have read := parseNat?_toDigits i.toNat
    have digits := toDigits_digits i.toNat
    generalize Nat.toDigits 10 i.toNat = cs at read digits
    unfold parseInt?
    split
    · exact absurd (digits '-' List.mem_cons_self) (by decide)
    · exact absurd (digits '+' List.mem_cons_self) (by decide)
    · rw [read, Option.map_some, Int.ofNat_eq_natCast, Int.toNat_of_nonneg nonneg]
  · rename_i negative
    have value : -Int.ofNat (-i).toNat = i := by
      rw [Int.ofNat_eq_natCast]
      omega
    rw [parseInt?, parseNat?_toDigits, Option.map_some, value]

theorem toString_number (i : Int) : Number (toString i).toList := by
  rw [toList_toString]
  split
  · have number := Number.mk .absent (toDigits_intPart i.toNat) .absent .absent
    rwa [List.nil_append, List.nil_append, List.append_nil] at number
  · have number := Number.mk .minus (toDigits_intPart (-i).toNat) .absent .absent
    rwa [List.nil_append, List.append_nil] at number

theorem digits_not_real {ds : List Char} (digits : Digits ds) : ds.any isRealMark = false := by
  rw [List.any_eq_false]
  intro c inside real
  have digit := digits c inside
  simp only [isRealMark, Bool.or_eq_true, decide_eq_true_eq] at real
  rcases real with (rfl | rfl) | rfl <;> cases digit

/-- The text of an integer never reads as a REAL. -/
theorem toString_not_real (i : Int) : (toString i).toList.any isRealMark = false := by
  rw [toList_toString]
  split
  · exact digits_not_real (toDigits_digits _)
  · rw [List.any_cons, digits_not_real (toDigits_digits _)]
    rfl

/-- A numeral without fraction and exponent is a sign and an integer. -/
theorem number_whole {cs : List Char} (number : Number cs) (whole : cs.any isRealMark = false) :
    ∃ sign int, cs = sign ++ int ∧ Sign sign ∧ IntPart int := by
  cases number with
  | @mk sign int frac exp hsign hint hfrac hexp =>
      rw [List.any_append, List.any_append, List.any_append] at whole
      simp only [Bool.or_eq_false_iff] at whole
      obtain ⟨_, _, noPoint, noLetter⟩ := whole
      cases hexp with
      | exponent letter _ _ _ =>
          rcases letter with rfl | rfl <;> simp [isRealMark] at noLetter
      | absent =>
          cases hfrac with
          | point _ _ => simp [isRealMark] at noPoint
          | absent => exact ⟨sign, int, by simp, hsign, hint⟩

/-- It stays a numeral with a fraction behind it. -/
theorem number_suffix {cs : List Char} (number : Number cs) (whole : cs.any isRealMark = false) :
    Number (cs ++ ['.', '0']) := by
  obtain ⟨sign, int, rfl, hsign, hint⟩ := number_whole number whole
  have suffixed := Number.mk hsign hint
    (.point (List.cons_ne_nil '0' []) (Digits.cons (by decide) Digits.nil)) .absent
  simpa using suffixed

/-- And with an exponent behind it. -/
theorem number_exponent {cs : List Char} (number : Number cs) (whole : cs.any isRealMark = false) :
    Number (cs ++ ['e', '0']) := by
  obtain ⟨sign, int, rfl, hsign, hint⟩ := number_whole number whole
  have suffixed := Number.mk hsign hint .absent
    (.exponent (.inl rfl) .absent (List.cons_ne_nil '0' []) (Digits.cons (by decide) Digits.nil))
  simpa using suffixed

end SanDbOxFormal.Library.Decimal
