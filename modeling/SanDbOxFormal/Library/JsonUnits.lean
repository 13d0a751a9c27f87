import SanDbOxFormal.Library.JsonSoundness

/-!
# Where the units of a JSON text go

A unit beyond ASCII can only stand inside a string, and it is a unit of that string.
-/

namespace SanDbOxFormal.Library.JsonReader

mutual

/-- The strings of a tree, keys among them. -/
def Tree.strings : Tree → List (List Nat)
  | .string us => [us]
  | .array items => itemsStrings items
  | .object ms => membersStrings ms
  | _ => []

def itemsStrings : List Tree → List (List Nat)
  | [] => []
  | t :: rest => t.strings ++ itemsStrings rest

def membersStrings : List (List Nat × Tree) → List (List Nat)
  | [] => []
  | (key, t) :: rest => key :: (t.strings ++ membersStrings rest)

end

def Category.strings : Category → List (List Nat)
  | .value t => t.strings
  | .elements ts => itemsStrings ts
  | .members ms => membersStrings ms

variable {d : Dialect} {c : Nat}

/-- It stands in one of the strings. -/
def Among (c : Nat) (strings : List (List Nat)) : Prop := ∃ s ∈ strings, c ∈ s

theorem Among.left {ss ts : List (List Nat)} (among : Among c ss) : Among c (ss ++ ts) := by
  obtain ⟨s, inside, there⟩ := among
  exact ⟨s, List.mem_append_left _ inside, there⟩

theorem Among.right {ss ts : List (List Nat)} (among : Among c ts) : Among c (ss ++ ts) := by
  obtain ⟨s, inside, there⟩ := among
  exact ⟨s, List.mem_append_right _ inside, there⟩

theorem Among.behind {s : List Nat} {ss : List (List Nat)} (among : Among c ss) : Among c (s :: ss) := by
  obtain ⟨t, inside, there⟩ := among
  exact ⟨t, List.mem_cons_of_mem _ inside, there⟩

theorem Among.here {s : List Nat} (ss : List (List Nat)) (there : c ∈ s) : Among c (s :: ss) :=
  ⟨s, List.mem_cons_self, there⟩

section Beyond

variable (wide : 0x80 ≤ c)
include wide

theorem not_space {ws : List Nat} (space : Ws ws) : c ∉ ws := by
  intro inside
  have white := space c inside
  simp only [isWs, Bool.or_eq_true, decide_eq_true_eq] at white
  omega

theorem not_word {word : String} (ascii : ∀ u ∈ units word, u < 0x80) : c ∉ units word := by
  intro inside
  have narrow := ascii c inside
  omega

theorem not_number {cs : List Char} (number : Rfc8259.Number cs) : c ∉ points cs := by
  intro inside
  obtain ⟨x, there, rfl⟩ := List.mem_map.mp inside
  have narrow := (number_ascii number x there).2
  omega

theorem hexValue?_beyond : hexValue? c = none := by
  unfold hexValue?
  simp only [Bool.and_eq_true, decide_eq_true_eq]
  rw [if_neg (by omega), if_neg (by omega), if_neg (by omega)]

theorem not_hex {a b e f u : Nat} (found : hex4? a b e f = some u) : c ≠ a ∧ c ≠ b ∧ c ≠ e ∧ c ≠ f := by
  obtain ⟨va, ha, found⟩ := Option.bind_eq_some_iff.mp found
  obtain ⟨vb, hb, found⟩ := Option.bind_eq_some_iff.mp found
  obtain ⟨ve, he, found⟩ := Option.bind_eq_some_iff.mp found
  obtain ⟨vf, hf, _⟩ := Option.bind_eq_some_iff.mp found
  have other {x v : Nat} (hx : hexValue? x = some v) : c ≠ x := by
    rintro rfl
    rw [hexValue?_beyond wide] at hx
    cases hx
  exact ⟨other ha, other hb, other he, other hf⟩

theorem not_simple {e u : Nat} (found : simpleEscape? e = some u) : c ≠ e := by
  rintro rfl
  unfold simpleEscape? at found
  simp only [Bool.or_eq_true, decide_eq_true_eq] at found
  rw [if_neg (by omega), if_neg (by omega), if_neg (by omega), if_neg (by omega), if_neg (by omega), if_neg (by omega)]
    at found
  cases found

/-- Only a unit that stands for itself is beyond ASCII. -/
theorem Piece.beyond {text : List Nat} {u : Nat} (piece : Piece d text u) (inside : c ∈ text) : c = u := by
  cases piece with
  | plain => exact List.mem_singleton.mp inside
  | escape found =>
      rcases List.mem_pair.mp inside with rfl | same
      · omega
      · exact absurd same (not_simple wide found)
  | unicode found =>
      obtain ⟨a, b, e, f⟩ := not_hex wide found
      simp only [List.mem_cons, List.not_mem_nil, or_false] at inside
      omega

theorem Pieces.beyond {text us : List Nat} (pieces : Pieces d text us) (inside : c ∈ text) : c ∈ us := by
  induction pieces with
  | nil => cases inside
  | cons piece _ ih =>
      rcases List.mem_append.mp inside with first | later
      · exact piece.beyond wide first ▸ List.mem_cons_self
      · exact List.mem_cons_of_mem _ (ih later)

/-- A unit beyond ASCII stands in a string. -/
theorem Spelled.beyond {n : Nat} {category : Category} {text : List Nat} (spelled : Spelled d n category text)
    (inside : c ∈ text) : Among c category.strings := by
  induction spelled with
  | null => exact absurd inside (not_word wide (by decide))
  | true => exact absurd inside (not_word wide (by decide))
  | false => exact absurd inside (not_word wide (by decide))
  | number token => exact absurd inside (not_number wide token)
  | string pieces =>
      simp only [List.mem_cons, List.mem_append, List.not_mem_nil, or_false] at inside
      rcases inside with rfl | there | rfl
      · omega
      · exact .here _ (pieces.beyond wide there)
      · omega
  | emptyArray space =>
      simp only [List.mem_cons, List.mem_append, List.not_mem_nil, or_false] at inside
      rcases inside with rfl | there | rfl
      · omega
      · exact absurd there (not_space wide space)
      · omega
  | array _ ih =>
      simp only [List.mem_cons, List.mem_append, List.not_mem_nil, or_false] at inside
      rcases inside with rfl | there | rfl
      · omega
      · exact ih there
      · omega
  | emptyObject space =>
      simp only [List.mem_cons, List.mem_append, List.not_mem_nil, or_false] at inside
      rcases inside with rfl | there | rfl
      · omega
      · exact absurd there (not_space wide space)
      · omega
  | object _ ih =>
      simp only [List.mem_cons, List.mem_append, List.not_mem_nil, or_false] at inside
      rcases inside with rfl | there | rfl
      · omega
      · exact ih there
      · omega
  | lastElement hbefore _ hafter ih =>
      rcases List.mem_append.mp inside with space | later
      · exact absurd space (not_space wide hbefore)
      · rcases List.mem_append.mp later with there | space
        · exact (ih there).left
        · exact absurd space (not_space wide hafter)
  | nextElement hbefore _ hafter _ ih ih' =>
      simp only [List.mem_append, List.mem_cons] at inside
      rcases inside with space | there | space | rfl | there
      · exact absurd space (not_space wide hbefore)
      · exact (ih there).left
      · exact absurd space (not_space wide hafter)
      · omega
      · exact (ih' there).right
  | lastMember hbefore hkey hmiddle hgap _ hafter ih =>
      simp only [List.mem_append, List.mem_cons] at inside
      rcases inside with space | rfl | there | rfl | space | rfl | space | there | space
      · exact absurd space (not_space wide hbefore)
      · omega
      · exact .here _ (hkey.beyond wide there)
      · omega
      · exact absurd space (not_space wide hmiddle)
      · omega
      · exact absurd space (not_space wide hgap)
      · exact (ih there).left.behind
      · exact absurd space (not_space wide hafter)
  | nextMember hbefore hkey hmiddle hgap _ hafter _ ih ih' =>
      simp only [List.mem_append, List.mem_cons] at inside
      rcases inside with space | rfl | there | rfl | space | rfl | space | there | space | rfl | there
      · exact absurd space (not_space wide hbefore)
      · omega
      · exact .here _ (hkey.beyond wide there)
      · omega
      · exact absurd space (not_space wide hmiddle)
      · omega
      · exact absurd space (not_space wide hgap)
      · exact (ih there).left.behind
      · exact absurd space (not_space wide hafter)
      · omega
      · exact (ih' there).right.behind

/-- So does one of a whole text. -/
theorem Writes.beyond {n : Nat} {text : List Nat} {t : Tree} (writes : Writes d n text t) (inside : c ∈ text) :
    Among c t.strings := by
  obtain ⟨before, middle, after, rfl, hbefore, spelled, hafter⟩ := writes
  rcases List.mem_append.mp inside with space | later
  · exact absurd space (not_space wide hbefore)
  · rcases List.mem_append.mp later with there | space
    · exact spelled.beyond wide there
    · exact absurd space (not_space wide hafter)

end Beyond

end SanDbOxFormal.Library.JsonReader
