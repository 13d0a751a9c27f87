import SanDbOxFormal.Library.Failures
import SanDbOxFormal.Rust.Codec.JsonCompleteness

/-!
# How deep the parser recurses

`parse_value` calls itself through arrays and objects.  How many of its activations are
live at once is counted along the runs of the parser: as many as the tree is high, for
which the code has no bound.
-/

namespace SanDbOxFormal.Rust.Codec.Json

open SanDbOxFormal.Library
open SanDbOxFormal.Library.Rfc8259

namespace Parser

mutual

/-- The most activations of `parse_value` that are live at once in `parseValue n p`, its
own among them. -/
def valueLive : Nat → Parser → Nat
  | 0, _ => 0
  | n + 1, p =>
      let p := p.skipWs
      match p.peekByte with
      | some byte =>
          if byte = 0x7B then objectLive n p + 1
          else if byte = 0x5B then arrayLive n p + 1
          else 1
      | none => 1

/-- Those below a call of `parse_array`. -/
def arrayLive : Nat → Parser → Nat
  | 0, _ => 0
  | n + 1, p =>
      match p.expectByte 0x5B with
      | .error _ => 0
      | .ok p =>
          let p := p.skipWs
          if p.peekByte = some 0x5D then 0 else itemsLive n p

/-- The loop of `parse_array`: its values are read one after the other. -/
def itemsLive : Nat → Parser → Nat
  | 0, _ => 0
  | n + 1, p =>
      match parseValue n p with
      | .error _ => valueLive n p
      | .ok (_, q) =>
          match q.skipWs.bumpByte with
          | (some 0x2C, r) => max (valueLive n p) (itemsLive n r.skipWs)
          | _ => valueLive n p

/-- Those below a call of `parse_object`. -/
def objectLive : Nat → Parser → Nat
  | 0, _ => 0
  | n + 1, p =>
      match p.expectByte 0x7B with
      | .error _ => 0
      | .ok p =>
          let p := p.skipWs
          if p.peekByte = some 0x7D then 0 else pairsLive n p

/-- The loop of `parse_object`; in front of the value of a member nothing recurses. -/
def pairsLive : Nat → Parser → Nat
  | 0, _ => 0
  | n + 1, p =>
      let p := p.skipWs
      if p.peekByte ≠ some 0x22 then 0
      else
        match p.parseString with
        | .error _ => 0
        | .ok (_, p) =>
            match p.skipWs.expectByte 0x3A with
            | .error _ => 0
            | .ok p =>
                let p := p.skipWs
                match parseValue n p with
                | .error _ => valueLive n p
                | .ok (_, q) =>
                    match q.skipWs.bumpByte with
                    | (some 0x2C, r) => max (valueLive n p) (pairsLive n r.skipWs)
                    | _ => valueLive n p

end

end Parser

/-- The most activations of `parse_value` that are live at once in `parse input`. -/
def live (input : List UInt8) : Nat :=
  match Utf8.decode? input with
  | none => 0
  | some s =>
      let p := (Parser.new s).skipWs
      p.valueLive (parseFuel p.b.length)

mutual

/-- How high a tree is: one, or one more than the highest of its children. -/
def height : Json → Nat
  | .array items => itemsHeight items + 1
  | .object pairs => pairsHeight pairs + 1
  | _ => 1

def itemsHeight : List Json → Nat
  | [] => 0
  | v :: rest => max (height v) (itemsHeight rest)

def pairsHeight : List (String × Json) → Nat
  | [] => 0
  | (_, v) :: rest => max (height v) (pairsHeight rest)

end

namespace Parser

/-! ## What is accepted -/

/-- Where the five functions return a tree, the activations count its height. -/
structure Counted (n : Nat) : Prop where
  value : ∀ {p v q}, parseValue n p = .ok (v, q) → valueLive n p = height v
  array : ∀ {p v q}, parseArray n p = .ok (v, q) → arrayLive n p + 1 = height v
  items : ∀ {p items v q}, parseItems n p items = .ok (v, q) →
    ∃ more, v = .array (items ++ more) ∧ itemsLive n p = itemsHeight more
  object : ∀ {p v q}, parseObject n p = .ok (v, q) → objectLive n p + 1 = height v
  pairs : ∀ {p pairs v q}, parsePairs n p pairs = .ok (v, q) →
    ∃ more, v = .object (pairs ++ more) ∧ pairsLive n p = pairsHeight more

theorem parseLiteral_value {p q : Parser} {lit : String} {val v : Json}
    (read : p.parseLiteral lit val = .ok (v, q)) : v = val := by
  rw [parseLiteral] at read
  obtain ⟨rest, _, read⟩ := bind_ok_iff.mp read
  split at read
  · cases read
    rfl
  · cases read

theorem parseValue_counted {n : Nat} (ih : Counted n) {p q : Parser} {v : Json}
    (read : parseValue (n + 1) p = .ok (v, q)) : valueLive (n + 1) p = height v := by
  rw [parseValue] at read
  rw [valueLive]
  dsimp only at read ⊢
  generalize p.skipWs.peekByte = peeked at read ⊢
  cases peeked with
  | none => cases read
  | some byte =>
    dsimp only at read ⊢
    split at read
    · rename_i brace
      rw [if_pos brace]
      exact ih.object read
    · rename_i noBrace
      rw [if_neg noBrace]
      split at read
      · rename_i bracket
        rw [if_pos bracket]
        exact ih.array read
      · rename_i noBracket
        rw [if_neg noBracket]
        split_ifs at read
        · obtain ⟨_, _, read⟩ := bind_ok_iff.mp read
          cases read
          rfl
        · cases parseLiteral_value read
          rfl
        · cases parseLiteral_value read
          rfl
        · cases parseLiteral_value read
          rfl
        · obtain ⟨_, _, read⟩ := bind_ok_iff.mp read
          cases read
          rfl
        · cases read

theorem parseArray_counted {n : Nat} (ih : Counted n) {p q : Parser} {v : Json}
    (read : parseArray (n + 1) p = .ok (v, q)) : arrayLive (n + 1) p + 1 = height v := by
  rw [parseArray] at read
  obtain ⟨p', opened, read⟩ := bind_ok_iff.mp read
  rw [arrayLive, opened]
  dsimp only at read ⊢
  split at read
  · rename_i closed
    rw [if_pos closed]
    cases read
    rfl
  · rename_i filled
    rw [if_neg filled]
    obtain ⟨more, rfl, counted⟩ := ih.items read
    rw [counted]
    rfl

theorem parseObject_counted {n : Nat} (ih : Counted n) {p q : Parser} {v : Json}
    (read : parseObject (n + 1) p = .ok (v, q)) : objectLive (n + 1) p + 1 = height v := by
  rw [parseObject] at read
  obtain ⟨p', opened, read⟩ := bind_ok_iff.mp read
  rw [objectLive, opened]
  dsimp only at read ⊢
  split at read
  · rename_i closed
    rw [if_pos closed]
    cases read
    rfl
  · rename_i filled
    rw [if_neg filled]
    obtain ⟨more, rfl, counted⟩ := ih.pairs read
    rw [counted]
    rfl

theorem parseItems_counted {n : Nat} (ih : Counted n) {p q : Parser} {items : List Json} {v : Json}
    (read : parseItems (n + 1) p items = .ok (v, q)) :
    ∃ more, v = .array (items ++ more) ∧ itemsLive (n + 1) p = itemsHeight more := by
  rw [parseItems] at read
  obtain ⟨⟨item, r⟩, first, read⟩ := bind_ok_iff.mp read
  have here := ih.value first
  rw [itemsLive, first]
  dsimp only at read ⊢
  split at read
  · rename_i comma bumped
    obtain ⟨more, rfl, counted⟩ := ih.items read
    rw [bumped]
    refine ⟨item :: more, by rw [List.append_assoc, List.singleton_append], ?_⟩
    rw [itemsHeight, ← here, ← counted]
    rfl
  · rename_i closed bumped
    cases read
    rw [bumped]
    refine ⟨[item], rfl, ?_⟩
    rw [itemsHeight, itemsHeight, Nat.max_zero]
    exact here
  · cases read

theorem parsePairs_counted {n : Nat} (ih : Counted n) {p q : Parser} {pairs : List (String × Json)} {v : Json}
    (read : parsePairs (n + 1) p pairs = .ok (v, q)) :
    ∃ more, v = .object (pairs ++ more) ∧ pairsLive (n + 1) p = pairsHeight more := by
  rw [parsePairs] at read
  rw [pairsLive]
  dsimp only at read ⊢
  split at read
  · cases read
  · rename_i quote
    rw [if_neg quote]
    obtain ⟨⟨key, p₁⟩, keyed, read⟩ := bind_ok_iff.mp read
    obtain ⟨p₂, colon, read⟩ := bind_ok_iff.mp read
    obtain ⟨⟨val, r⟩, first, read⟩ := bind_ok_iff.mp read
    have here := ih.value first
    rw [keyed]
    dsimp only
    rw [colon]
    dsimp only
    rw [first]
    dsimp only at read ⊢
    split at read
    · rename_i comma bumped
      obtain ⟨more, rfl, counted⟩ := ih.pairs read
      rw [bumped]
      refine ⟨(key, val) :: more, by rw [List.append_assoc, List.singleton_append], ?_⟩
      rw [pairsHeight, ← here, ← counted]
      rfl
    · rename_i closed bumped
      cases read
      rw [bumped]
      refine ⟨[(key, val)], rfl, ?_⟩
      rw [pairsHeight, pairsHeight, Nat.max_zero]
      exact here
    · cases read

theorem counted (n : Nat) : Counted n := by
  induction n with
  | zero => exact ⟨nofun, nofun, nofun, nofun, nofun⟩
  | succ n ih =>
      exact ⟨parseValue_counted ih, parseArray_counted ih, parseItems_counted ih,
        parseObject_counted ih, parsePairs_counted ih⟩

end Parser

theorem live_of_ok {input : List UInt8} {v : Json} (read : parse input = .ok v) : live input = height v := by
  rw [parse] at read
  rw [live]
  generalize Utf8.decode? input = decoded at read ⊢
  cases decoded with
  | none => cases read
  | some s =>
    dsimp only at read ⊢
    obtain ⟨⟨w, q⟩, first, read⟩ := bind_ok_iff.mp read
    have value := (Parser.counted _).value first
    dsimp only at read ⊢
    split at read
    · cases read
    · cases read
      exact value

/-! ## Every input -/

/-- `[` or `{`. -/
def isOpening (byte : UInt8) : Bool := byte = 0x5B || byte = 0x7B

/-- How many arrays and objects a text opens. -/
def opens (cs : List Char) : Nat := (Utf8.encode cs).countP isOpening

theorem opens_append (first second : List Char) : opens (first ++ second) = opens first + opens second := by
  rw [opens, Utf8.encode_append, List.countP_append]
  rfl

theorem opens_rest {cs text rest : List Char} (shape : cs = text ++ rest) : opens rest ≤ opens cs := by
  rw [shape, opens_append]
  exact Nat.le_add_left _ _

theorem opens_cons (c : Char) (rest : List Char) : opens (c :: rest) = opens [c] + opens rest :=
  opens_append [c] rest

namespace Parser

variable {s : String}

theorem Outcome.of_ok {α : Type} {good : α → Prop} {x : Except Stop α} {a : α} (outcome : Outcome good x)
    (returned : x = .ok a) : good a := by
  rw [returned] at outcome
  cases outcome with
  | ok holds => exact holds

/-- With fuel enough, no function has more activations below it than the rest of the text
has openings. -/
structure Bounded (s : String) (n : Nat) : Prop where
  value : ∀ {p cs}, At s p cs → 3 * cs.length + 2 ≤ n → valueLive n p ≤ opens cs + 1
  array : ∀ {p cs}, At s p cs → 3 * cs.length + 1 ≤ n → arrayLive n p ≤ opens cs
  items : ∀ {p cs}, At s p cs → 3 * cs.length + 3 ≤ n → itemsLive n p ≤ opens cs + 1
  object : ∀ {p cs}, At s p cs → 3 * cs.length + 1 ≤ n → objectLive n p ≤ opens cs
  pairs : ∀ {p cs}, At s p cs → 3 * cs.length + 3 ≤ n → pairsLive n p ≤ opens cs + 1

theorem valueLive_bounded {n : Nat} (ih : Bounded s n) {p : Parser} {cs : List Char} (here : At s p cs)
    (enough : 3 * cs.length + 2 ≤ n + 1) : valueLive (n + 1) p ≤ opens cs + 1 := by
  obtain ⟨ws, rest, shape, _, there⟩ := skipWs_spec here
  have fewer := opens_rest shape
  have shorter : rest.length ≤ cs.length := by
    rw [shape, List.length_append]
    exact Nat.le_add_left _ _
  rw [valueLive]
  split
  · split_ifs
    · exact Nat.succ_le_succ ((ih.object there (by omega)).trans fewer)
    · exact Nat.succ_le_succ ((ih.array there (by omega)).trans fewer)
    · exact Nat.le_add_left _ _
  · exact Nat.le_add_left _ _

theorem arrayLive_bounded {n : Nat} (ih : Bounded s n) {p : Parser} {cs : List Char} (here : At s p cs)
    (enough : 3 * cs.length + 1 ≤ n + 1) : arrayLive (n + 1) p ≤ opens cs := by
  rw [arrayLive]
  split
  · exact Nat.zero_le _
  · rename_i q opened
    obtain ⟨rest, shape, moved⟩ := (expectByte_spec here '[' (by decide)).of_ok opened
    obtain ⟨ws, inside, shape', _, there⟩ := skipWs_spec moved
    have fewer := opens_rest shape'
    have one : opens cs = opens rest + 1 := by
      rw [shape, opens_cons, Nat.add_comm]
      rfl
    have size := congrArg List.length shape
    rw [shape', List.length_cons, List.length_append] at size
    dsimp only
    split
    · exact Nat.zero_le _
    · rw [one]
      exact (ih.items there (by omega)).trans (Nat.succ_le_succ fewer)

theorem objectLive_bounded {n : Nat} (ih : Bounded s n) {p : Parser} {cs : List Char} (here : At s p cs)
    (enough : 3 * cs.length + 1 ≤ n + 1) : objectLive (n + 1) p ≤ opens cs := by
  rw [objectLive]
  split
  · exact Nat.zero_le _
  · rename_i q opened
    obtain ⟨rest, shape, moved⟩ := (expectByte_spec here '{' (by decide)).of_ok opened
    obtain ⟨ws, inside, shape', _, there⟩ := skipWs_spec moved
    have fewer := opens_rest shape'
    have one : opens cs = opens rest + 1 := by
      rw [shape, opens_cons, Nat.add_comm]
      rfl
    have size := congrArg List.length shape
    rw [shape', List.length_cons, List.length_append] at size
    dsimp only
    split
    · exact Nat.zero_le _
    · rw [one]
      exact (ih.pairs there (by omega)).trans (Nat.succ_le_succ fewer)

/-- Behind a value and a comma there is less text, with no more openings. -/
theorem onward {n : Nat} {p q r : Parser} {v : Json} {cs : List Char} (here : At s p cs)
    (enough : 3 * cs.length + 2 ≤ n) (read : parseValue n p = .ok (v, q))
    (comma : q.skipWs.bumpByte = (some 0x2C, r)) :
    ∃ rest, At s r.skipWs rest ∧ rest.length < cs.length ∧ opens rest ≤ opens cs := by
  obtain ⟨text, rest, shape, _, moved⟩ := ((specified s n).value here enough).of_ok read
  obtain ⟨ws, rest1, shape1, _, there⟩ := skipWs_spec moved
  obtain ⟨rest2, shape2, behind⟩ := there.of_bump_char ',' comma (by decide)
  obtain ⟨ws', rest3, shape3, _, last⟩ := skipWs_spec behind
  have whole : cs = (text ++ ws ++ ',' :: ws') ++ rest3 := by
    rw [shape, shape1, shape2, shape3]
    simp
  have size := congrArg List.length whole
  simp only [List.length_append, List.length_cons] at size
  exact ⟨rest3, last, by omega, opens_rest whole⟩

theorem itemsLive_bounded {n : Nat} (ih : Bounded s n) {p : Parser} {cs : List Char} (here : At s p cs)
    (enough : 3 * cs.length + 3 ≤ n + 1) : itemsLive (n + 1) p ≤ opens cs + 1 := by
  have first := ih.value here (by omega)
  rw [itemsLive]
  split
  · exact first
  · rename_i v q read
    split
    · rename_i r comma
      obtain ⟨rest, last, shorter, fewer⟩ := onward here (by omega) read comma
      exact max_le first ((ih.items last (by omega)).trans (Nat.succ_le_succ fewer))
    · exact first

theorem pairsLive_bounded {n : Nat} (ih : Bounded s n) {p : Parser} {cs : List Char} (here : At s p cs)
    (enough : 3 * cs.length + 3 ≤ n + 1) : pairsLive (n + 1) p ≤ opens cs + 1 := by
  obtain ⟨before, rest1, shape1, _, at1⟩ := skipWs_spec here
  rw [pairsLive]
  dsimp only
  split
  · exact Nat.zero_le _
  · split
    · exact Nat.zero_le _
    · rename_i key q keyed
      obtain ⟨text, rest2, shape2, _, at2⟩ := (parseString_spec at1).of_ok keyed
      obtain ⟨middle, rest3, shape3, _, at3⟩ := skipWs_spec at2
      split
      · exact Nat.zero_le _
      · rename_i q4 colon
        obtain ⟨rest4, shape4, at4⟩ := (expectByte_spec at3 ':' (by decide)).of_ok colon
        obtain ⟨gap, rest5, shape5, _, at5⟩ := skipWs_spec at4
        have whole : cs = (before ++ text ++ middle ++ ':' :: gap) ++ rest5 := by
          rw [shape1, shape2, shape3, shape4, shape5]
          simp
        have fewer := opens_rest whole
        have size := congrArg List.length whole
        simp only [List.length_append, List.length_cons] at size
        have first := (ih.value at5 (by omega)).trans (Nat.succ_le_succ fewer)
        split
        · exact first
        · rename_i v q6 read
          split
          · rename_i r comma
            obtain ⟨rest, last, shorter, less⟩ := onward at5 (by omega) read comma
            exact max_le first ((ih.pairs last (by omega)).trans (Nat.succ_le_succ (less.trans fewer)))
          · exact first

theorem bounded (s : String) (n : Nat) : Bounded s n := by
  induction n with
  | zero =>
      refine ⟨?_, ?_, ?_, ?_, ?_⟩ <;> intros <;> omega
  | succ n ih =>
      exact ⟨valueLive_bounded ih, arrayLive_bounded ih, itemsLive_bounded ih, objectLive_bounded ih,
        pairsLive_bounded ih⟩

end Parser

theorem live_le (input : List UInt8) : live input ≤ input.countP isOpening + 1 := by
  rw [live]
  split
  · exact Nat.zero_le _
  · rename_i s decoded
    rw [Utf8.decode?_eq_some_iff, Utf8.bytes_eq_encode] at decoded
    obtain ⟨before, rest, shape, _, there⟩ := Parser.skipWs_spec (Parser.at_new s)
    have bound := there.length_le_whole
    have size := congrArg List.length shape
    have most := (Parser.bounded s _).value there (n := parseFuel (Parser.new s).skipWs.b.length) (by
      unfold parseFuel
      omega)
    rw [decoded]
    exact most.trans (Nat.succ_le_succ (opens_rest shape))

/-! ## No bound for all inputs -/

/-- An array in an array, and so on. -/
def nested : Nat → Json
  | 0 => .array []
  | n + 1 => .array [nested n]

def nestedText : Nat → List Char
  | 0 => ['[', ']']
  | n + 1 => '[' :: (nestedText n ++ [']'])

theorem height_nested (n : Nat) : height (nested n) = n + 1 := by
  induction n with
  | zero => rfl
  | succ n ih =>
      rw [nested, height, itemsHeight, itemsHeight, ih, Nat.max_zero]

theorem nested_value (n : Nat) : Value (nestedText n) (nested n) := by
  induction n with
  | zero => exact .emptyArray .nil
  | succ n ih =>
      have inside : Derives (.elements [nested n]) ([] ++ (nestedText n ++ [])) :=
        .lastElement .nil ih .nil
      rw [List.nil_append, List.append_nil] at inside
      exact .array inside

theorem parse_nested (n : Nat) : parse (Utf8.encode (nestedText n)) = .ok (nested n) :=
  Parser.parse_complete ⟨[], nestedText n, [], by simp, .nil, nested_value n, .nil⟩

theorem live_nested (n : Nat) : live (Utf8.encode (nestedText n)) = n + 1 :=
  (live_of_ok (parse_nested n)).trans (height_nested n)

/-- As many activations are live as an accepted tree is high, and never more than the
input has openings, and one; nested arrays reach every number. -/
theorem recursion_depth :
    (∀ input v, parse input = .ok v → live input = height v) ∧
      (∀ input, live input ≤ input.countP isOpening + 1) ∧
      ∀ n, ∃ input v, parse input = .ok v ∧ live input = n + 1 :=
  ⟨fun _ _ read => live_of_ok read, live_le, fun n => ⟨_, _, parse_nested n, live_nested n⟩⟩

theorem recursion_unbounded : ¬ ∃ most, ∀ input, live input ≤ most := by
  rintro ⟨most, bound⟩
  have reached := bound (Utf8.encode (nestedText most))
  rw [live_nested] at reached
  omega

end SanDbOxFormal.Rust.Codec.Json
