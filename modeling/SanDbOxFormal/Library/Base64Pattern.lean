import SanDbOxFormal.Library.Base64

/-!
# The pattern of Base64

The texts that the decoder takes are those of a regular expression: groups of four
letters, and a last group that may end in padding.
-/

namespace SanDbOxFormal.Library.Base64

open scoped Computability

variable {α : Type}

/-- `[...]`. -/
def oneOf (letter : α → Prop) : Language α := {word | ∃ u, word = [u] ∧ letter u}

/-- `(?:L{2}==|L{3}=)?`. -/
def ending (letter : α → Prop) (mark : α) : Language α :=
  1 + (oneOf letter * oneOf letter * {[mark, mark]} + oneOf letter * oneOf letter * oneOf letter * {[mark]})

/-- `^(?:L{4})*(?:L{2}==|L{3}=)?$`. -/
def pattern (letter : α → Prop) (mark : α) : Language α :=
  (oneOf letter * oneOf letter * oneOf letter * oneOf letter)∗ * ending letter mark

variable {letter : α → Prop} {mark : α} {word : List α}

theorem mem_oneOf_mul {l : Language α} :
    word ∈ oneOf letter * l ↔ ∃ u rest, word = u :: rest ∧ letter u ∧ rest ∈ l := by
  rw [Language.mem_mul]
  constructor
  · rintro ⟨_, ⟨u, rfl, good⟩, rest, inside, rfl⟩
    exact ⟨u, rest, rfl, good, inside⟩
  · rintro ⟨u, rest, rfl, good, inside⟩
    exact ⟨[u], ⟨u, rfl, good⟩, rest, inside, rfl⟩

theorem mem_ending : word ∈ ending letter mark ↔
    word = [] ∨ (∃ a b, word = [a, b, mark, mark] ∧ letter a ∧ letter b) ∨
      ∃ a b c, word = [a, b, c, mark] ∧ letter a ∧ letter b ∧ letter c := by
  rw [ending, Language.mem_add, Language.mem_one, Language.mem_add]
  refine or_congr Iff.rfl (or_congr ?_ ?_)
  · rw [mul_assoc, mem_oneOf_mul]
    constructor
    · rintro ⟨a, _, rfl, first, more⟩
      obtain ⟨b, _, rfl, second, rfl⟩ := mem_oneOf_mul.mp more
      exact ⟨a, b, rfl, first, second⟩
    · rintro ⟨a, b, rfl, first, second⟩
      exact ⟨a, _, rfl, first, mem_oneOf_mul.mpr ⟨b, _, rfl, second, rfl⟩⟩
  · rw [mul_assoc, mul_assoc, mem_oneOf_mul]
    constructor
    · rintro ⟨a, _, rfl, first, more⟩
      obtain ⟨b, _, rfl, second, more⟩ := mem_oneOf_mul.mp more
      obtain ⟨c, _, rfl, third, rfl⟩ := mem_oneOf_mul.mp more
      exact ⟨a, b, c, rfl, first, second, third⟩
    · rintro ⟨a, b, c, rfl, first, second, third⟩
      exact ⟨a, _, rfl, first, mem_oneOf_mul.mpr ⟨b, _, rfl, second,
        mem_oneOf_mul.mpr ⟨c, _, rfl, third, rfl⟩⟩⟩

/-- A text of the pattern is an ending, or a group of letters and a text of the pattern. -/
theorem mem_pattern : word ∈ pattern letter mark ↔ word ∈ ending letter mark ∨
    ∃ a b c d rest, word = a :: b :: c :: d :: rest ∧ letter a ∧ letter b ∧ letter c ∧ letter d ∧
      rest ∈ pattern letter mark := by
  have unfolded : pattern letter mark = ending letter mark +
      oneOf letter * (oneOf letter * (oneOf letter * (oneOf letter * pattern letter mark))) := by
    conv => lhs; rw [pattern, ← Language.one_add_self_mul_kstar_eq_kstar, add_mul, one_mul]
    rw [pattern]
    simp only [mul_assoc]
  conv => lhs; rw [unfolded, Language.mem_add, mem_oneOf_mul]
  refine or_congr Iff.rfl ?_
  constructor
  · rintro ⟨a, _, rfl, first, more⟩
    obtain ⟨b, _, rfl, second, more⟩ := mem_oneOf_mul.mp more
    obtain ⟨c, _, rfl, third, more⟩ := mem_oneOf_mul.mp more
    obtain ⟨d, rest, rfl, fourth, inside⟩ := mem_oneOf_mul.mp more
    exact ⟨a, b, c, d, rest, rfl, first, second, third, fourth, inside⟩
  · rintro ⟨a, b, c, d, rest, rfl, first, second, third, fourth, inside⟩
    exact ⟨a, _, rfl, first, mem_oneOf_mul.mpr ⟨b, _, rfl, second, mem_oneOf_mul.mpr ⟨c, _, rfl, third,
      mem_oneOf_mul.mpr ⟨d, rest, rfl, fourth, inside⟩⟩⟩⟩

/-- The letters of the alphabet. -/
def IsLetter (u : Nat) : Prop := ∃ n, sextet? u = some n

theorem not_letter_pad : ¬ IsLetter pad := nofun

/-- The decoder takes the texts of the pattern and no others. -/
theorem decodes_iff (us : List Nat) : (∃ bytes, decode? us = some bytes) ↔ us ∈ pattern IsLetter pad := by
  induction us using decode?.induct with
  | case1 => exact ⟨fun _ => mem_pattern.mpr (.inl (mem_ending.mpr (.inl rfl))), fun _ => ⟨[], rfl⟩⟩
  | case2 a b c d rest ih =>
      rw [mem_pattern, mem_ending]
      constructor
      · rintro ⟨bytes, decoded⟩
        simp only [decode?, Option.bind_eq_bind, Option.bind_eq_some_iff] at decoded
        obtain ⟨x, first, y, second, decoded⟩ := decoded
        split_ifs at decoded with last short
        · obtain ⟨rfl, rfl⟩ := last
          subst short
          exact .inl (.inr (.inl ⟨a, b, rfl, ⟨x, first⟩, ⟨y, second⟩⟩))
        · obtain ⟨rfl, rfl⟩ := last
          obtain ⟨z, third, _⟩ := Option.bind_eq_some_iff.mp decoded
          exact .inl (.inr (.inr ⟨a, b, c, rfl, ⟨x, first⟩, ⟨y, second⟩, ⟨z, third⟩⟩))
        · simp only [Option.bind_eq_some_iff] at decoded
          obtain ⟨z, third, w, fourth, more, later, _⟩ := decoded
          exact .inr ⟨a, b, c, d, rest, rfl, ⟨x, first⟩, ⟨y, second⟩, ⟨z, third⟩, ⟨w, fourth⟩,
            ih.mp ⟨more, later⟩⟩
      · rintro ((none | ⟨a', b', same, ⟨x, first⟩, ⟨y, second⟩⟩ |
          ⟨a', b', c', same, ⟨x, first⟩, ⟨y, second⟩, ⟨z, third⟩⟩) |
          ⟨a', b', c', d', rest', same, ⟨x, first⟩, ⟨y, second⟩, ⟨z, third⟩, ⟨w, fourth⟩, inside⟩)
        · cases none
        · cases same
          rw [decode?, first, second]
          exact ⟨_, rfl⟩
        · cases same
          have data : c ≠ pad := by
            rintro rfl
            exact not_letter_pad ⟨z, third⟩
          rw [decode?, first, second, third]
          simp [data]
        · cases same
          have data : d ≠ pad := by
            rintro rfl
            exact not_letter_pad ⟨w, fourth⟩
          obtain ⟨more, later⟩ := ih.mpr inside
          rw [decode?, first, second, third, fourth, later]
          simp [data]
  | case3 us none other =>
      constructor
      · rintro ⟨bytes, decoded⟩
        rw [decode?.eq_3 us none other] at decoded
        cases decoded
      · intro inside
        rcases mem_pattern.mp inside with last | ⟨a, b, c, d, rest, rfl, _⟩
        · rcases mem_ending.mp last with rfl | ⟨a, b, rfl, _⟩ | ⟨a, b, c, rfl, _⟩
          · exact absurd rfl none
          · exact absurd rfl (other a b pad pad [])
          · exact absurd rfl (other a b c pad [])
        · exact absurd rfl (other a b c d rest)

/-- The pattern over other units. -/
theorem map_mem_pattern {β : Type} {f : β → α} (injective : Function.Injective f) {mark : β} {word : List β} :
    word.map f ∈ pattern letter (f mark) ↔ word ∈ pattern (fun u => letter (f u)) mark := by
  induction length : word.length using Nat.strong_induction_on generalizing word with
  | _ n ih =>
      subst length
      rw [mem_pattern, mem_pattern, mem_ending, mem_ending]
      refine or_congr (or_congr List.map_eq_nil_iff (or_congr ?_ ?_)) ?_
      · constructor
        · rintro ⟨a, b, same, first, second⟩
          obtain ⟨a', _, rfl, rfl, same₁⟩ := List.map_eq_cons_iff.mp same
          obtain ⟨b', _, rfl, rfl, same₂⟩ := List.map_eq_cons_iff.mp same₁
          obtain ⟨c', _, rfl, third, same₃⟩ := List.map_eq_cons_iff.mp same₂
          obtain ⟨d', _, rfl, fourth, same₄⟩ := List.map_eq_cons_iff.mp same₃
          exact ⟨a', b', by rw [injective third, injective fourth, List.map_eq_nil_iff.mp same₄],
            first, second⟩
        · rintro ⟨a, b, rfl, first, second⟩
          exact ⟨f a, f b, rfl, first, second⟩
      · constructor
        · rintro ⟨a, b, c, same, first, second, third⟩
          obtain ⟨a', _, rfl, rfl, same₁⟩ := List.map_eq_cons_iff.mp same
          obtain ⟨b', _, rfl, rfl, same₂⟩ := List.map_eq_cons_iff.mp same₁
          obtain ⟨c', _, rfl, rfl, same₃⟩ := List.map_eq_cons_iff.mp same₂
          obtain ⟨d', _, rfl, fourth, same₄⟩ := List.map_eq_cons_iff.mp same₃
          exact ⟨a', b', c', by rw [injective fourth, List.map_eq_nil_iff.mp same₄],
            first, second, third⟩
        · rintro ⟨a, b, c, rfl, first, second, third⟩
          exact ⟨f a, f b, f c, rfl, first, second, third⟩
      · constructor
        · rintro ⟨a, b, c, d, rest, same, first, second, third, fourth, inside⟩
          obtain ⟨a', _, rfl, rfl, same₁⟩ := List.map_eq_cons_iff.mp same
          obtain ⟨b', _, rfl, rfl, same₂⟩ := List.map_eq_cons_iff.mp same₁
          obtain ⟨c', _, rfl, rfl, same₃⟩ := List.map_eq_cons_iff.mp same₂
          obtain ⟨d', rest', rfl, rfl, rfl⟩ := List.map_eq_cons_iff.mp same₃
          exact ⟨a', b', c', d', rest', rfl, first, second, third, fourth,
            (ih rest'.length (by simp only [List.length_cons]; omega) rfl).mp inside⟩
        · rintro ⟨a, b, c, d, rest, rfl, first, second, third, fourth, inside⟩
          exact ⟨f a, f b, f c, f d, rest.map f, rfl, first, second, third, fourth,
            (ih rest.length (by simp only [List.length_cons]; omega) rfl).mpr inside⟩

end SanDbOxFormal.Library.Base64
