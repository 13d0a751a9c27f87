import SanDbOxFormal.Rust.Codec.Json

/-!
# Where the parser stands

The parser walks bytes and the grammar speaks of characters.  `At s p cs` says
that `p` stands in the text `s` with exactly the characters `cs` left, hence on
a character boundary.  The scanning steps are restated in those terms.
-/

namespace SanDbOxFormal.Rust.Codec.Json.Parser

open SanDbOxFormal.Library
open SanDbOxFormal.Library.Utf8 (encode)
open SanDbOxFormal.Library.Rfc8259

variable {s : String}

structure At (s : String) (p : Parser) (cs : List Char) : Prop where
  text : p.s = s
  rest : p.b.drop p.pos = encode cs
  within : p.pos ≤ p.b.length

@[simp] theorem next_s (p : Parser) : p.next.s = p.s := rfl

@[simp] theorem next_b (p : Parser) : p.next.b = p.b := rfl

theorem at_new (s : String) : At s (new s) s.toList :=
  ⟨rfl, by simp [new, b, Utf8.bytes_eq_encode], Nat.zero_le _⟩

theorem peekByte_eq (p : Parser) : p.peekByte = (p.b.drop p.pos).head? := by
  rw [peekByte, List.head?_drop]

theorem bumpByte_some {p : Parser} {byte : UInt8} (peeked : p.peekByte = some byte) :
    p.bumpByte = (some byte, p.next) := by
  rw [bumpByte, peeked]

theorem bumpByte_none {p : Parser} (peeked : p.peekByte = none) : p.bumpByte = (none, p) := by
  rw [bumpByte, peeked]

theorem bumpByte_eq_some {p q : Parser} {byte : UInt8} (bumped : p.bumpByte = (some byte, q)) :
    p.peekByte = some byte ∧ q = p.next := by
  cases peeked : p.peekByte with
  | none => rw [bumpByte_none peeked] at bumped; cases bumped
  | some found => rw [bumpByte_some peeked] at bumped; cases bumped; exact ⟨rfl, rfl⟩

namespace At

theorem peek_nil {p : Parser} (here : At s p []) : p.peekByte = none := by
  rw [peekByte_eq, here.rest]
  rfl

/-- At a character, the byte under the parser is its lead byte. -/
theorem peek_cons {p : Parser} {c : Char} {cs : List Char} (here : At s p (c :: cs)) :
    ∃ lead, p.peekByte = some lead ∧
      (c.toNat < 0x80 → lead.toNat = c.toNat) ∧ (0x80 ≤ c.toNat → 0xC0 ≤ lead.toNat) := by
  obtain ⟨lead, more, shape, narrow, wide⟩ := Utf8.utf8EncodeChar_lead c
  refine ⟨lead, ?_, fun low => (narrow low).1, wide⟩
  rw [peekByte_eq, here.rest, Utf8.encode_cons, shape]
  rfl


/-- The position and what is left of the text add up to the whole of it. -/
theorem pos_add {p : Parser} {cs : List Char} (here : At s p cs) :
    p.pos + (encode cs).length = (Utf8.bytes s).length := by
  have size := congrArg List.length here.rest
  have within := here.within
  rw [List.length_drop] at size
  rw [b, here.text] at size within
  omega

theorem skip {p : Parser} {rest : List Char} (text : List Char) (here : At s p (text ++ rest)) :
    At s { p with pos := p.pos + (encode text).length } rest := by
  have sum := here.pos_add
  rw [Utf8.encode_append, List.length_append] at sum
  refine ⟨here.text, ?_, ?_⟩
  · change p.b.drop (p.pos + (encode text).length) = encode rest
    rw [← List.drop_drop, here.rest, Utf8.encode_append, List.drop_left]
  · change p.pos + (encode text).length ≤ (Utf8.bytes p.s).length
    rw [here.text]
    omega

theorem advance {p : Parser} {c : Char} {cs : List Char} (here : At s p (c :: cs)) :
    At s { p with pos := p.pos + c.utf8Size } cs := by
  have moved := At.skip [c] here
  rwa [Utf8.encode_cons, Utf8.encode_nil, List.append_nil, String.length_utf8EncodeChar] at moved

theorem next_ascii {p : Parser} {c : Char} {cs : List Char} (here : At s p (c :: cs))
    (narrow : c.toNat < 0x80) : At s p.next cs := by
  have size : c.utf8Size = 1 := by
    rw [← String.length_utf8EncodeChar, Utf8.utf8EncodeChar_ascii narrow]
    rfl
  have moved := here.advance
  rw [size] at moved
  exact moved

/-- An ASCII byte under the parser is a character of its own. -/
theorem of_peek {p : Parser} {cs : List Char} {byte : UInt8} (here : At s p cs)
    (peeked : p.peekByte = some byte) (narrow : byte.toNat < 0x80) :
    ∃ c rest, cs = c :: rest ∧ c.toNat = byte.toNat ∧ At s p.next rest := by
  cases cs with
  | nil => rw [here.peek_nil] at peeked; cases peeked
  | cons c rest =>
      obtain ⟨lead, found, low, high⟩ := here.peek_cons
      rw [found] at peeked
      have same := Option.some.inj peeked
      subst same
      have ascii : c.toNat < 0x80 := by
        by_contra wide
        have := high (Nat.le_of_not_lt wide)
        omega
      exact ⟨c, rest, rfl, (low ascii).symm, here.next_ascii ascii⟩

/-- The byte of a given ASCII character under the parser is that character. -/
theorem of_peek_char {p : Parser} {cs : List Char} (c : Char) (here : At s p cs)
    (peeked : p.peekByte = some (UInt8.ofNat c.toNat))
    (narrow : c.toNat < 0x80) :
    ∃ rest, cs = c :: rest ∧ At s p.next rest := by
  have value : (UInt8.ofNat c.toNat).toNat = c.toNat := by
    rw [UInt8.toNat_ofNat']
    omega
  obtain ⟨d, rest, shape, same, moved⟩ := here.of_peek peeked (by omega)
  rw [value, Char.toNat_inj] at same
  rw [same] at shape
  exact ⟨rest, shape, moved⟩

theorem of_bump_char {p q : Parser} {cs : List Char} (c : Char) (here : At s p cs)
    (bumped : p.bumpByte = (some (UInt8.ofNat c.toNat), q))
    (narrow : c.toNat < 0x80) : ∃ rest, cs = c :: rest ∧ At s q rest := by
  obtain ⟨peeked, rfl⟩ := bumpByte_eq_some bumped
  exact here.of_peek_char c peeked narrow

/-- A byte that is an ASCII character's code. -/
theorem peek_ascii {p : Parser} {c : Char} {cs : List Char} (here : At s p (c :: cs))
    (narrow : c.toNat < 0x80) : p.peekByte = some (UInt8.ofNat c.toNat) := by
  obtain ⟨lead, found, low, _⟩ := here.peek_cons
  rw [found, ← low narrow, UInt8.ofNat_toNat]

theorem bump_ascii {p : Parser} {c : Char} {cs : List Char} (here : At s p (c :: cs))
    (narrow : c.toNat < 0x80) : p.bumpByte = (some (UInt8.ofNat c.toNat), p.next) :=
  bumpByte_some (here.peek_ascii narrow)

theorem boundary {p : Parser} {cs : List Char} (here : At s p cs) :
    p.isCharBoundary p.pos = true := by
  have under : p.b[p.pos]? = p.peekByte := rfl
  unfold isCharBoundary
  cases cs with
  | nil =>
      have size := congrArg List.length here.rest
      rw [List.length_drop, Utf8.encode_nil, List.length_nil] at size
      have := here.within
      rw [under, here.peek_nil]
      exact decide_eq_true (by omega)
  | cons c rest =>
      obtain ⟨lead, found, low, high⟩ := here.peek_cons
      have lead_ok : lead.toNat < 0x80 ∨ 0xC0 ≤ lead.toNat := by
        by_cases narrow : c.toNat < 0x80
        · exact Or.inl (low narrow ▸ narrow)
        · exact Or.inr (high (Nat.le_of_not_lt narrow))
      rw [under, found]
      simp only [Utf8.isContinuation, Bool.not_eq_true', Bool.and_eq_false_iff,
        decide_eq_false_iff_not, UInt8.le_iff_toNat_le, UInt8.lt_iff_toNat_lt]
      rcases lead_ok with small | large
      · exact Or.inl (Nat.not_le_of_lt small)
      · exact Or.inr (Nat.not_lt_of_le large)

theorem sliceFrom {p : Parser} {cs : List Char} (here : At s p cs) :
    p.sliceFrom = .ok (encode cs) := by
  rw [Parser.sliceFrom, if_pos here.boundary, here.rest]

theorem same_b {p q : Parser} {cs ds : List Char} (first : At s p cs) (second : At s q ds) :
    q.b = p.b := by
  rw [b, b, first.text, second.text]

/-- Two positions in one text are the same exactly when they leave the same characters. -/
theorem pos_eq_iff {p q : Parser} {cs ds : List Char} (first : At s p cs) (second : At s q ds) :
    q.pos = p.pos ↔ ds = cs := by
  constructor
  · intro pos
    exact Utf8.encode_injective
      (by rw [← first.rest, ← second.rest, first.same_b second, pos])
  · intro same
    have firstSum := first.pos_add
    have secondSum := second.pos_add
    rw [same] at secondSum
    omega

theorem atEnd_iff {p : Parser} {cs : List Char} (here : At s p cs) :
    p.pos = p.b.length ↔ cs = [] := by
  have last : At s (⟨s, p.b.length⟩ : Parser) [] := by
    refine ⟨rfl, ?_, ?_⟩
    · simp [b, here.text]
    · simp [b, here.text]
  exact ⟨fun pos => (last.pos_eq_iff here).mp pos, fun same => (last.pos_eq_iff here).mpr same⟩

/-- Slicing between two positions gives the characters between them. -/
theorem sliceStr {p q : Parser} {text rest : List Char} (start : At s p (text ++ rest))
    (stop : At s q rest) : q.sliceStr p.pos = .ok (String.ofList text) := by
  have bytes : q.b = p.b := start.same_b stop
  have startSum := start.pos_add
  have stopSum := stop.pos_add
  rw [Utf8.encode_append, List.length_append] at startSum
  have between : q.pos - p.pos = (encode text).length := by omega
  have startBoundary : q.isCharBoundary p.pos = true := by
    have := start.boundary
    unfold isCharBoundary at this ⊢
    rw [bytes]
    exact this
  have ordered : p.pos ≤ q.pos := by omega
  have cut : (q.b.drop p.pos).take (q.pos - p.pos) = Utf8.bytes (String.ofList text) := by
    rw [bytes, start.rest, Utf8.encode_append, between, List.take_left, Utf8.bytes_ofList]
  rw [Parser.sliceStr, startBoundary, stop.boundary, cut,
    (Utf8.decode?_eq_some_iff _ _).mpr rfl]
  simp [ordered]

/-! ## Loops over a class of characters -/

/-- A test on bytes that tests the character whose lead byte it sees. -/
def Agrees (matching : UInt8 → Bool) (pred : Char → Bool) : Prop :=
  (∀ c, pred c = true → c.toNat < 0x80) ∧
    ∀ (c : Char) (lead : UInt8), (c.toNat < 0x80 → lead.toNat = c.toNat) →
      (0x80 ≤ c.toNat → 0xC0 ≤ lead.toNat) → matching lead = pred c

theorem advanceWhile {matching : UInt8 → Bool} {pred : Char → Bool}
    (agrees : Agrees matching pred) {n : Nat} {p : Parser} {cs : List Char} (here : At s p cs)
    (enough : cs.length ≤ n) : At s (Parser.advanceWhile matching n p) (cs.dropWhile pred) := by
  induction n generalizing p cs with
  | zero =>
      rw [List.length_eq_zero_iff.mp (Nat.le_zero.mp enough)] at here ⊢
      exact here
  | succ n ih =>
      cases cs with
      | nil =>
          rw [Parser.advanceWhile, here.peek_nil]
          exact here
      | cons c rest =>
          obtain ⟨lead, found, low, high⟩ := here.peek_cons
          have test := agrees.2 c lead low high
          rw [Parser.advanceWhile, found]
          cases taken : pred c with
          | false =>
              rw [List.dropWhile_cons_of_neg (by rw [taken]; decide)]
              simpa [test, taken] using here
          | true =>
              rw [List.dropWhile_cons_of_pos taken]
              have moved := here.next_ascii (agrees.1 c taken)
              simp only [test, taken, if_true]
              exact ih moved (Nat.le_of_succ_le_succ enough)

theorem length_le_remaining {p : Parser} {cs : List Char} (here : At s p cs) :
    cs.length ≤ p.remaining := by
  have size := congrArg List.length here.rest
  rw [List.length_drop] at size
  rw [remaining, size]
  exact Utf8.length_le_encode cs

theorem length_le_whole {p : Parser} {cs : List Char} (here : At s p cs) :
    cs.length ≤ p.b.length :=
  Nat.le_trans here.length_le_remaining (Nat.sub_le _ _)

theorem ws_agrees : Agrees isWsByte isWs := by
  refine ⟨?_, ?_⟩
  · intro c space
    simp only [isWs, Bool.or_eq_true, decide_eq_true_eq] at space
    rcases space with ((rfl | rfl) | rfl) | rfl <;> decide
  · intro c lead low high
    have code (d : Char) : c = d ↔ c.toNat = d.toNat := Char.toNat_inj.symm
    have value (n : UInt8) : lead = n ↔ lead.toNat = n.toNat := UInt8.toNat_inj.symm
    simp only [isWsByte, isWs, code, value]
    by_cases narrow : c.toNat < 0x80
    · rw [low narrow]
      rfl
    · have := high (Nat.le_of_not_lt narrow)
      have wide : ∀ n : Nat, n < 0x80 → decide (c.toNat = n) = false ∧ decide (lead.toNat = n) = false :=
        fun n small => ⟨decide_eq_false (by omega), decide_eq_false (by omega)⟩
      simp [wide]

theorem digit_agrees : Agrees isDigitByte isDigit := by
  refine ⟨?_, ?_⟩
  · intro c digit
    simp only [isDigit, Bool.and_eq_true, decide_eq_true_eq] at digit
    omega
  · intro c lead low high
    simp only [isDigitByte, isDigit, UInt8.le_iff_toNat_le]
    by_cases narrow : c.toNat < 0x80
    · rw [low narrow]
      rfl
    · have := high (Nat.le_of_not_lt narrow)
      have tooWide : ¬ c.toNat ≤ 0x39 := by omega
      have leadWide : ¬ lead.toNat ≤ (0x39 : UInt8).toNat := Nat.not_le_of_lt (Nat.lt_of_lt_of_le (by decide) this)
      simp only [decide_eq_false tooWide, decide_eq_false leadWide, Bool.and_false]

theorem skipWs {p : Parser} {cs : List Char} (here : At s p cs) :
    At s p.skipWs (cs.dropWhile isWs) :=
  here.advanceWhile ws_agrees here.length_le_remaining

theorem skipDigits {p : Parser} {cs : List Char} (here : At s p cs) :
    At s p.skipDigits (cs.dropWhile isDigit) :=
  here.advanceWhile digit_agrees here.length_le_remaining

end At

end SanDbOxFormal.Rust.Codec.Json.Parser
