import SanDbOxFormal.Library.Decimal
import SanDbOxFormal.Library.Utf8

/-!
# The hello line

What a server says first, apart from any driver: an object that names the protocol
by an integer token and the product by two strings.  How a member is looked up is
left to the driver, since an object may hold a key twice.
-/

namespace SanDbOxFormal.Protocol

open SanDbOxFormal.Library
open SanDbOxFormal.Library.Rfc8259

/-- A token without fraction and exponent, and the integer it denotes. -/
inductive IntegerToken : List Char → Int → Prop where
  | whole {ds : List Char} (int : IntPart ds) : IntegerToken ds (Nat.ofDigitChars 10 ds 0)
  | negative {ds : List Char} (int : IntPart ds) :
      IntegerToken ('-' :: ds) (-(Nat.ofDigitChars 10 ds 0))

/-- The first member under a key. -/
def first? (pairs : List (String × Json)) (key : String) : Option Json :=
  (pairs.find? fun pair => pair.1 == key).map Prod.snd

/-- The members of a hello of the given protocol, under a way to look them up. -/
structure Greeting (member? : String → Option Json) (protocol : Int) : Prop where
  protocol : ∃ n, member? "protocol" = some (.number n) ∧ IntegerToken n.raw.toList protocol
  version : ∃ s, member? "version" = some (.string s)
  product : ∃ s, member? "product" = some (.string s)

/-- A line that is a hello of the given protocol. -/
def HelloLine (lookup : List (String × Json) → String → Option Json) (protocol : Int)
    (line : List UInt8) : Prop :=
  ∃ cs pairs, line = Utf8.encode cs ∧ Text cs (.object pairs) ∧ Greeting (lookup pairs) protocol

/-! ## Reading an integer token -/

theorem intPart_digits {ds : List Char} (int : IntPart ds) : ds ≠ [] ∧ Digits ds := by
  cases int with
  | zero => exact ⟨List.cons_ne_nil _ _, Digits.cons (by decide) Digits.nil⟩
  | digits lead _ more => exact ⟨List.cons_ne_nil _ _, Digits.cons lead more⟩

theorem parseNat?_intPart {ds : List Char} (int : IntPart ds) :
    Decimal.parseNat? ds = some (Nat.ofDigitChars 10 ds 0) := by
  obtain ⟨nonempty, digits⟩ := intPart_digits int
  have all : ds.all isDigit = true := List.all_eq_true.mpr digits
  simp [Decimal.parseNat?, nonempty, all]

/-- Digits have no sign in front of them. -/
theorem parseInt?_intPart {ds : List Char} (int : IntPart ds) :
    Decimal.parseInt? ds = some (Int.ofNat (Nat.ofDigitChars 10 ds 0)) := by
  have read := parseNat?_intPart int
  have digits := (intPart_digits int).2
  unfold Decimal.parseInt?
  split
  · exact absurd (digits '-' List.mem_cons_self) (by decide)
  · exact absurd (digits '+' List.mem_cons_self) (by decide)
  · simp [read]

theorem IntegerToken.parseInt? {cs : List Char} {i : Int} (token : IntegerToken cs i) :
    Decimal.parseInt? cs = some i := by
  cases token with
  | whole int => exact parseInt?_intPart int
  | negative int => simp [Decimal.parseInt?, parseNat?_intPart int]

theorem parseInt?_not_real {cs : List Char} {i : Int} (read : Decimal.parseInt? cs = some i) :
    cs.any Decimal.isRealMark = false := by
  have run {ds : List Char} {n : Nat} (nat : Decimal.parseNat? ds = some n) :
      ds.any Decimal.isRealMark = false := by
    rw [Decimal.parseNat?] at nat
    split at nat
    · rename_i digits
      exact Decimal.digits_not_real (List.all_eq_true.mp digits.2)
    · cases nat
  unfold Decimal.parseInt? at read
  split at read
  · rename_i ds
    obtain ⟨n, nat, _⟩ := Option.map_eq_some_iff.mp read
    rw [List.any_cons, run nat]
    decide
  · rename_i ds
    obtain ⟨n, nat, _⟩ := Option.map_eq_some_iff.mp read
    rw [List.any_cons, run nat]
    decide
  · obtain ⟨n, nat, _⟩ := Option.map_eq_some_iff.mp read
    exact run nat

/-- Among the numbers of the grammar, those that read as an integer are the integer
tokens. -/
theorem parseInt?_eq_some_iff {cs : List Char} {i : Int} (number : Number cs) :
    Decimal.parseInt? cs = some i ↔ IntegerToken cs i := by
  constructor
  · intro read
    obtain ⟨sign, int, rfl, hsign, hint⟩ :=
      Decimal.number_whole number (parseInt?_not_real read)
    cases hsign with
    | absent =>
        rw [List.nil_append] at read ⊢
        rw [parseInt?_intPart hint] at read
        cases read
        exact .whole hint
    | minus =>
        simp only [List.singleton_append, Decimal.parseInt?, parseNat?_intPart hint] at read
        cases read
        exact .negative hint
  · exact IntegerToken.parseInt?

end SanDbOxFormal.Protocol
