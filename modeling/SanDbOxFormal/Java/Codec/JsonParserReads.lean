import SanDbOxFormal.Java.Codec.JsonParser
import SanDbOxFormal.Library.JsonSoundness

/-!
# The Java parser is a reader of JSON

Without its positions and messages, `JsonParser` is the reader of JSON over UTF-16 units.
-/

namespace SanDbOxFormal.Java.Codec.JsonParser

open SanDbOxFormal.Library
open SanDbOxFormal.Library.JsonReader (Fault Tree Piece strictUnits)

/-- The units of a string as numbers. -/
def nats (s : JString) : List Nat := s.map UInt16.toNat

mutual

def treeOf : Json → Tree
  | .null => .null
  | .bool b => .bool b
  | .num raw => .number (nats raw)
  | .str s => .string (nats s)
  | .arr items => .array (treesOf items)
  | .obj members => .object (membersOf members)

def treesOf : List Json → List Tree
  | [] => []
  | v :: rest => treeOf v :: treesOf rest

def membersOf : List (JString × Json) → List (List Nat × Tree)
  | [] => []
  | (key, v) :: rest => (nats key, treeOf v) :: membersOf rest

end

def Stop.fault : Stop → Fault
  | .codec _ => .malformed
  | .stackOverflow => .tooDeep
  | .turns => .malformed

/-- A result without positions and messages. -/
def erase {α β : Type} (f : α → β) : Except Stop (α × Cursor) → Except Fault (β × List Nat)
  | .ok (a, c) => .ok (f a, nats c.rest)
  | .error e => .error e.fault

theorem erase_bind {α β γ δ : Type} {f : α → β} {g : γ → δ} {x : Except Stop (α × Cursor)}
    {k : α × Cursor → Except Stop (γ × Cursor)} {k' : β × List Nat → Except Fault (δ × List Nat)}
    (same : ∀ a c, x = .ok (a, c) → erase g (k (a, c)) = k' (f a, nats c.rest)) :
    erase g (x >>= k) = erase f x >>= k' := by
  cases x with
  | error e => rfl
  | ok r => exact same r.1 r.2 rfl

/-! ## Units -/

@[simp] theorem nats_nil : nats [] = [] := rfl

@[simp] theorem nats_cons (u : UInt16) (s : JString) : nats (u :: s) = u.toNat :: nats s := rfl

@[simp] theorem nats_append (s t : JString) : nats (s ++ t) = nats s ++ nats t := List.map_append

theorem nats_length (s : JString) : (nats s).length = s.length := List.length_map _

theorem nats_injective {s t : JString} (same : nats s = nats t) : s = t :=
  List.map_injective_iff.mpr (fun _ _ => UInt16.toNat_inj.mp) same

theorem toNat_ne {u v : UInt16} (other : ¬ u = v) : ¬ u.toNat = v.toNat :=
  mt UInt16.toNat_inj.mp other

theorem isWhitespace_eq (u : UInt16) : isWhitespace u = JsonReader.isWs u.toNat := by
  have space : decide (u = 0x20) = decide (u.toNat = 0x20) := decide_eq_decide.mpr UInt16.toNat_inj.symm
  have tab : decide (u = 0x09) = decide (u.toNat = 0x09) := decide_eq_decide.mpr UInt16.toNat_inj.symm
  have feed : decide (u = 0x0A) = decide (u.toNat = 0x0A) := decide_eq_decide.mpr UInt16.toNat_inj.symm
  have carriage : decide (u = 0x0D) = decide (u.toNat = 0x0D) :=
    decide_eq_decide.mpr UInt16.toNat_inj.symm
  rw [isWhitespace, JsonReader.isWs, space, tab, feed, carriage]

theorem isDigit_eq (u : UInt16) : isDigit u = JsonReader.isDigit u.toNat := rfl

theorem nats_skipWhile {p : UInt16 → Bool} {q : Nat → Bool} (same : ∀ u : UInt16, p u = q u.toNat)
    (s : JString) : nats (s.dropWhile p) = (nats s).dropWhile q ∧
      nats (s.takeWhile p) = (nats s).takeWhile q := by
  have composed : p = q ∘ UInt16.toNat := funext same
  rw [nats, nats, nats, List.dropWhile_map, List.takeWhile_map, composed]
  exact ⟨rfl, rfl⟩

theorem nats_skipWhitespace (c : Cursor) :
    nats (skipWhitespace c).rest = JsonReader.skipWs (nats c.rest) :=
  (nats_skipWhile isWhitespace_eq c.rest).1

theorem startsWith_iff (c : Cursor) (u : UInt16) :
    c.startsWith u = true ↔ ∃ rest, c.rest = u :: rest := by
  rw [Cursor.startsWith, decide_eq_true_eq, List.head?_eq_some_iff]

/-! ## Strings -/

theorem hexDigit_spec (c : Cursor) (u : UInt16) :
    (∃ n, hexDigit c u = .ok n ∧ JsonReader.hexValue? u.toNat = some n) ∨
      ∃ m, hexDigit c u = .error (.codec m) ∧ JsonReader.hexValue? u.toNat = none := by
  have digit : 0x30 ≤ u ∧ u ≤ 0x39 ↔ 0x30 ≤ u.toNat ∧ u.toNat ≤ 0x39 :=
    and_congr UInt16.le_iff_toNat_le UInt16.le_iff_toNat_le
  have small : 0x61 ≤ u ∧ u ≤ 0x66 ↔ 0x61 ≤ u.toNat ∧ u.toNat ≤ 0x66 :=
    and_congr UInt16.le_iff_toNat_le UInt16.le_iff_toNat_le
  have capital : 0x41 ≤ u ∧ u ≤ 0x46 ↔ 0x41 ≤ u.toNat ∧ u.toNat ≤ 0x46 :=
    and_congr UInt16.le_iff_toNat_le UInt16.le_iff_toNat_le
  unfold hexDigit JsonReader.hexValue?
  simp only [Bool.and_eq_true, decide_eq_true_eq]
  by_cases first : 0x30 ≤ u.toNat ∧ u.toNat ≤ 0x39
  · rw [if_pos (digit.mpr first), if_pos first]
    exact .inl ⟨_, rfl, rfl⟩
  · rw [if_neg (mt digit.mp first), if_neg first]
    by_cases second : 0x61 ≤ u.toNat ∧ u.toNat ≤ 0x66
    · rw [if_pos (small.mpr second), if_pos second]
      exact .inl ⟨_, rfl, rfl⟩
    · rw [if_neg (mt small.mp second), if_neg second]
      by_cases third : 0x41 ≤ u.toNat ∧ u.toNat ≤ 0x46
      · rw [if_pos (capital.mpr third), if_pos third]
        exact .inl ⟨_, rfl, rfl⟩
      · rw [if_neg (mt capital.mp third), if_neg third]
        exact .inr ⟨_, rfl, rfl⟩

theorem hexValue?_lt {n v : Nat} (found : JsonReader.hexValue? n = some v) : v < 16 := by
  unfold JsonReader.hexValue? at found
  simp only [Bool.and_eq_true, decide_eq_true_eq] at found
  split_ifs at found with digit small capital
  all_goals
    cases found
    omega

theorem parseHex4_spec (c : Cursor) (u₁ u₂ u₃ u₄ : UInt16) :
    (∃ u, parseHex4 c u₁ u₂ u₃ u₄ = .ok u ∧
        JsonReader.hex4? u₁.toNat u₂.toNat u₃.toNat u₄.toNat = some u.toNat) ∨
      ∃ m, parseHex4 c u₁ u₂ u₃ u₄ = .error (.codec m) ∧
        JsonReader.hex4? u₁.toNat u₂.toNat u₃.toNat u₄.toNat = none := by
  unfold parseHex4 JsonReader.hex4?
  rcases hexDigit_spec c u₁ with ⟨d₁, one, value₁⟩ | ⟨m, one, value₁⟩
  · rcases hexDigit_spec c u₂ with ⟨d₂, two, value₂⟩ | ⟨m, two, value₂⟩
    · rcases hexDigit_spec c u₃ with ⟨d₃, three, value₃⟩ | ⟨m, three, value₃⟩
      · rcases hexDigit_spec c u₄ with ⟨d₄, four, value₄⟩ | ⟨m, four, value₄⟩
        · have := hexValue?_lt value₁
          have := hexValue?_lt value₂
          have := hexValue?_lt value₃
          have := hexValue?_lt value₄
          refine .inl ⟨UInt16.ofNat (((d₁ * 16 + d₂) * 16 + d₃) * 16 + d₄), ?_, ?_⟩
          · rw [one, two, three, four]
            rfl
          · rw [value₁, value₂, value₃, value₄, UInt16.toNat_ofNat', Nat.mod_eq_of_lt (by omega)]
            rfl
        · rw [one, two, three, four, value₁, value₂, value₃, value₄]
          exact .inr ⟨m, rfl, rfl⟩
      · rw [one, two, three, value₁, value₂, value₃]
        exact .inr ⟨m, rfl, rfl⟩
    · rw [one, two, value₁, value₂]
      exact .inr ⟨m, rfl, rfl⟩
  · rw [one, value₁]
    exact .inr ⟨m, rfl, rfl⟩

theorem simpleEscape?_eq (e : UInt16) :
    (simpleEscape? e).map UInt16.toNat = JsonReader.simpleEscape? e.toNat := by
  have test (v : UInt16) (result : UInt16) (others : Option UInt16) :
      (if e = v then some result else others).map UInt16.toNat =
        if e.toNat = v.toNat then some result.toNat else others.map UInt16.toNat := by
    by_cases same : e = v
    · rw [if_pos same, if_pos (congrArg UInt16.toNat same)]
      rfl
    · rw [if_neg same, if_neg (mt UInt16.toNat_inj.mp same)]
  rw [simpleEscape?, JsonReader.simpleEscape?]
  simp only [test, Bool.or_eq_true, decide_eq_true_eq]
  by_cases kept : (e.toNat = 0x22 ∨ e.toNat = 0x5C) ∨ e.toNat = 0x2F
  · rw [if_pos kept]
    rcases kept with (same | same) | same <;> rw [same] <;> rfl
  · rw [if_neg kept]
    rw [not_or, not_or] at kept
    obtain ⟨⟨quote, escape⟩, slash⟩ := kept
    exact (if_neg quote).trans ((if_neg escape).trans (if_neg slash))

theorem erase_append (u : UInt16) (x : Except Stop (JString × Cursor)) :
    erase nats (append u x) = JsonReader.prepend u.toNat (erase nats x) := by
  cases x <;> rfl

/-- The loop of `parseString` reads the body of a string. -/
theorem stringLoop_reads (i : Nat) (s : JString) (n : Nat) (enough : s.length < n) :
    erase nats (stringLoop i s) = JsonReader.body strictUnits n (nats s) := by
  obtain ⟨n, rfl⟩ : ∃ m, n = m + 1 := ⟨n - 1, by omega⟩
  have shorter {rest : JString} {m : Nat} (long : (0x5C :: rest).length < m + 1) :
      ∃ k, m = k + 1 ∧ rest.length < k + 1 := by
    rw [List.length_cons] at long
    exact ⟨m - 1, by omega, by omega⟩
  fun_induction stringLoop i s generalizing n with
  | case1 | case2 | case3 => rfl
  | case4 i u₁ u₂ u₃ u₄ rest u parsed _ ih =>
      rcases parseHex4_spec ⟨i + 2, u₁ :: u₂ :: u₃ :: u₄ :: rest⟩ u₁ u₂ u₃ u₄ with
        ⟨v, same, value⟩ | ⟨m, same, value⟩
      · rw [parsed] at same
        cases same
        obtain ⟨k, rfl, long⟩ := shorter enough
        simp only [List.length_cons] at long
        rw [erase_append, ih k (by omega)]
        exact ((Piece.unicode (d := strictUnits) value fun joins => nomatch joins).reads (k + 1) (nats rest)).symm
      · rw [parsed] at same
        cases same
  | case5 i u₁ u₂ u₃ u₄ rest stop parsed _ =>
      rcases parseHex4_spec ⟨i + 2, u₁ :: u₂ :: u₃ :: u₄ :: rest⟩ u₁ u₂ u₃ u₄ with
        ⟨v, same, value⟩ | ⟨m, same, value⟩
      · rw [parsed] at same
        cases same
      · rw [parsed] at same
        cases same
        simp only [nats_cons, JsonReader.body, value]
        rfl
  | case6 i rest short =>
      rcases rest with _ | ⟨u₁, _ | ⟨u₂, _ | ⟨u₃, _ | ⟨u₄, rest⟩⟩⟩⟩
      · rfl
      · rfl
      · rfl
      · rfl
      · exact absurd rfl (short u₁ u₂ u₃ u₄ rest)
  | case7 i e rest other u found _ ih =>
      obtain ⟨k, rfl, long⟩ := shorter enough
      rw [List.length_cons] at long
      have value : JsonReader.simpleEscape? e.toNat = some u.toNat := by
        rw [← simpleEscape?_eq, found]
        rfl
      rw [erase_append, ih k (by omega)]
      exact ((Piece.escape value).reads (k + 1) (nats rest)).symm
  | case8 i e rest other unknown _ =>
      have value : JsonReader.simpleEscape? e.toNat = none := by
        rw [← simpleEscape?_eq, unknown]
        rfl
      have letter : ¬ e.toNat = 0x75 := toNat_ne other
      simp only [nats_cons, JsonReader.body, letter, value]
      rfl
  | case9 i c rest quote escape control =>
      have notQuote : ¬ c.toNat = 0x22 := toNat_ne quote
      have notEscape : ¬ c.toNat = 0x5C := toNat_ne escape
      rw [nats_cons, JsonReader.body.eq_def]
      simp only [notQuote, notEscape, if_false]
      have low : c.toNat < 0x20 := UInt16.lt_iff_toNat_lt.mp control
      rw [if_pos low]
      rfl
  | case10 i c rest quote escape visible ih =>
      have notQuote : c.toNat ≠ 0x22 := toNat_ne quote
      have notEscape : c.toNat ≠ 0x5C := toNat_ne escape
      have shown : 0x20 ≤ c.toNat := UInt16.le_iff_toNat_le.mp (UInt16.not_lt.mp visible)
      rw [List.length_cons] at enough
      obtain ⟨k, rfl⟩ : ∃ k, n = k + 1 := ⟨n - 1, by omega⟩
      rw [erase_append, ih k (by omega)]
      exact ((Piece.plain notQuote notEscape shown).reads (k + 1) (nats rest)).symm

theorem parseString_reads {c : Cursor} {u : UInt16} {rest : JString} (shape : c.rest = u :: rest) :
    erase nats (parseString c) = JsonReader.string strictUnits (nats rest) := by
  have behind : c.next.rest = rest := by rw [Cursor.next, shape]; rfl
  rw [parseString, behind, JsonReader.string]
  exact stringLoop_reads _ _ _ (by rw [nats_length]; omega)

/-! ## Numbers -/

/-- A part of a number: the cursor moves over its text, or a message. -/
inductive Part (c : Cursor) : Except Stop Cursor → Option (List Nat × List Nat) → Prop where
  | ok {d : Cursor} {text : List Nat} (split : nats c.rest = text ++ nats d.rest)
      (moved : d.i = c.i + text.length) : Part c (.ok d) (some (text, nats d.rest))
  | stop (m : JString) : Part c (.error (.codec m)) none

theorem skipDigits_part (c : Cursor) :
    nats c.rest = (JsonReader.digits (nats c.rest)).1 ++ nats (skipDigits c).rest ∧
      nats (skipDigits c).rest = (JsonReader.digits (nats c.rest)).2 ∧
      (skipDigits c).i = c.i + (JsonReader.digits (nats c.rest)).1.length := by
  obtain ⟨dropped, taken⟩ := nats_skipWhile isDigit_eq c.rest
  refine ⟨?_, dropped, ?_⟩
  · rw [JsonReader.digits]
    change _ = _ ++ nats (c.rest.dropWhile isDigit)
    rw [dropped, List.takeWhile_append_dropWhile]
  · rw [JsonReader.digits, ← taken, nats_length]
    rfl

theorem atDigit_iff (c : Cursor) :
    atDigit c = true ↔ ∃ u rest, c.rest = u :: rest ∧ JsonReader.isDigit u.toNat = true := by
  rw [atDigit]
  cases shape : c.rest with
  | nil => exact ⟨nofun, fun ⟨_, _, same, _⟩ => nomatch same⟩
  | cons u rest =>
      constructor
      · exact fun digit => ⟨u, rest, rfl, digit⟩
      · rintro ⟨_, _, same, digit⟩
        cases same
        exact digit

theorem next_part {c : Cursor} {u : UInt16} {rest : JString} (shape : c.rest = u :: rest) :
    nats c.rest = [u.toNat] ++ nats c.next.rest ∧ c.next.i = c.i + 1 := by
  rw [Cursor.next, shape]
  exact ⟨rfl, rfl⟩

theorem parseInt_part (c : Cursor) : Part c (parseInt c) (JsonReader.intPart (nats c.rest)) := by
  unfold parseInt
  by_cases digit : atDigit c = true
  · obtain ⟨u, rest, shape, isDigit⟩ := (atDigit_iff c).mp digit
    rw [digit, Bool.not_true, if_neg Bool.false_ne_true]
    by_cases zero : c.startsWith 0x30 = true
    · obtain ⟨more, same⟩ := (startsWith_iff c 0x30).mp zero
      have read : JsonReader.intPart (nats c.rest) = some ([0x30], nats c.next.rest) := by
        rw [Cursor.next, same]
        rfl
      obtain ⟨split, moved⟩ := next_part same
      rw [if_pos zero, read]
      exact .ok split moved
    · have other : u.toNat ≠ 0x30 := by
        intro same
        have letter : u = 0x30 := UInt16.toNat_inj.mp same
        exact zero ((startsWith_iff c 0x30).mpr ⟨rest, letter ▸ shape⟩)
      obtain ⟨split, behind, moved⟩ := skipDigits_part c
      have read : JsonReader.intPart (nats c.rest) =
          some ((JsonReader.digits (nats c.rest)).1, nats (skipDigits c).rest) := by
        rw [behind, shape, nats_cons, JsonReader.intPart, isDigit, if_neg (by decide), if_neg other]
      rw [if_neg zero, read]
      exact .ok split moved
  · have unread : JsonReader.intPart (nats c.rest) = none := by
      cases shape : c.rest with
      | nil => rfl
      | cons u rest =>
          have other : JsonReader.isDigit u.toNat = false :=
            Bool.eq_false_iff.mpr fun held => digit ((atDigit_iff c).mpr ⟨u, rest, shape, held⟩)
          rw [nats_cons, JsonReader.intPart, other]
          rfl
    rw [Bool.not_eq_true] at digit
    rw [digit, unread]
    exact .stop _

/-- Digits behind a mark. -/
theorem skipDigits_mark {c d : Cursor} {mark : List Nat} (split : nats c.rest = mark ++ nats d.rest)
    (moved : d.i = c.i + mark.length) (m : JString) :
    Part c (if !atDigit d then err d m else .ok (skipDigits d))
      (JsonReader.someDigits mark (nats d.rest)) := by
  obtain ⟨whole, behind, along⟩ := skipDigits_part d
  by_cases digit : atDigit d = true
  · obtain ⟨u, rest, shape, isDigit⟩ := (atDigit_iff d).mp digit
    have some : (JsonReader.digits (nats d.rest)).1 ≠ [] := by
      rw [shape, nats_cons, JsonReader.digits, List.takeWhile_cons_of_pos isDigit]
      exact List.cons_ne_nil _ _
    have read : JsonReader.someDigits mark (nats d.rest) =
        .some (mark ++ (JsonReader.digits (nats d.rest)).1, nats (skipDigits d).rest) := by
      rw [behind, JsonReader.someDigits]
      split
      · rename_i none
        rw [none] at some
        exact absurd rfl some
      · rename_i ds more same
        rw [same]
    rw [digit, Bool.not_true, if_neg Bool.false_ne_true, read]
    refine .ok ?_ ?_
    · rw [List.append_assoc, ← whole, split]
    · rw [along, moved, List.length_append, Nat.add_assoc]
  · have none : (JsonReader.digits (nats d.rest)).1 = [] := by
      cases shape : d.rest with
      | nil => rfl
      | cons u rest =>
          have other : JsonReader.isDigit u.toNat = false :=
            Bool.eq_false_iff.mpr fun held => digit ((atDigit_iff d).mpr ⟨u, rest, shape, held⟩)
          exact List.takeWhile_cons_of_neg (by rw [other]; exact Bool.false_ne_true)
    have unread : JsonReader.someDigits mark (nats d.rest) = .none := by
      rw [JsonReader.someDigits]
      split
      · rfl
      · rename_i ds more filled same
        rw [same] at none
        exact absurd none filled
    rw [Bool.not_eq_true] at digit
    rw [digit, unread]
    exact .stop _

theorem startsWith_cons {c : Cursor} {u v : UInt16} {rest : JString} (shape : c.rest = u :: rest) :
    c.startsWith v = decide (u = v) := by
  rw [Cursor.startsWith, shape, List.head?_cons, decide_eq_decide, Option.some_inj]

theorem startsWith_nil {c : Cursor} {v : UInt16} (shape : c.rest = []) : c.startsWith v = false := by
  rw [Cursor.startsWith, shape]
  rfl

theorem Part.stay (c : Cursor) : Part c (.ok c) (some ([], nats c.rest)) := .ok rfl rfl

theorem parseFraction_part (c : Cursor) :
    Part c (parseFraction c) (JsonReader.fracPart (nats c.rest)) := by
  have stays := Part.stay c
  cases shape : c.rest with
  | nil =>
      rw [shape] at stays
      rw [parseFraction, startsWith_nil shape]
      exact stays
  | cons u rest =>
      obtain ⟨split, moved⟩ := next_part shape
      have behind : nats rest = nats c.next.rest := by rw [Cursor.next, shape]; rfl
      rw [parseFraction, startsWith_cons shape, nats_cons, JsonReader.fracPart]
      by_cases point : u = 0x2E
      · have value : u.toNat = 0x2E := congrArg UInt16.toNat point
        rw [if_pos (decide_eq_true point), if_pos value, behind]
        exact skipDigits_mark split moved _
      · have value : ¬ u.toNat = 0x2E := toNat_ne point
        rw [shape, nats_cons] at stays
        rw [if_neg (by simpa using point), if_neg value]
        exact stays

theorem letter_iff (u : UInt16) (v w : UInt16) :
    (decide (u = v) || decide (u = w)) = (decide (u.toNat = v.toNat) || decide (u.toNat = w.toNat)) := by
  rw [decide_eq_decide.mpr UInt16.toNat_inj.symm, decide_eq_decide.mpr UInt16.toNat_inj.symm]

theorem parseExponent_part (c : Cursor) :
    Part c (parseExponent c) (JsonReader.expPart (nats c.rest)) := by
  have stays := Part.stay c
  cases shape : c.rest with
  | nil =>
      rw [shape] at stays
      rw [parseExponent, startsWith_nil shape, startsWith_nil shape]
      exact stays
  | cons u rest =>
      obtain ⟨split, moved⟩ := next_part shape
      have behind : c.next.rest = rest := by rw [Cursor.next, shape]; rfl
      have mark : (decide (u.toNat = 0x65) || decide (u.toNat = 0x45)) =
          (decide (u = 0x65) || decide (u = 0x45)) := (letter_iff u 0x65 0x45).symm
      rw [parseExponent, startsWith_cons shape, startsWith_cons shape, nats_cons,
        JsonReader.expPart.eq_def]
      dsimp only
      rw [mark]
      by_cases letter : (decide (u = 0x65) || decide (u = 0x45)) = true
      · rw [if_pos letter, if_pos letter]
        cases next : rest with
        | nil =>
            rw [next] at behind
            have none : atDigit c.next = false := by rw [atDigit, behind]; rfl
            rw [startsWith_nil behind, startsWith_nil behind, Bool.or_self,
              if_neg Bool.false_ne_true, none]
            exact .stop _
        | cons v tail =>
            rw [next] at behind
            have sign : (decide (v.toNat = 0x2B) || decide (v.toNat = 0x2D)) =
                (decide (v = 0x2B) || decide (v = 0x2D)) := (letter_iff v 0x2B 0x2D).symm
            rw [startsWith_cons behind, startsWith_cons behind, nats_cons]
            dsimp only
            rw [sign]
            by_cases signed : (decide (v = 0x2B) || decide (v = 0x2D)) = true
            · obtain ⟨splitSign, movedSign⟩ := next_part behind
              have after : nats tail = nats c.next.next.rest := by
                rw [Cursor.next, behind]
                rfl
              rw [if_pos signed, if_pos signed, after]
              refine skipDigits_mark ?_ ?_ _
              · rw [split, splitSign]
                rfl
              · rw [movedSign, moved]
                rfl
            · have after : v.toNat :: nats tail = nats c.next.rest := by rw [behind]; rfl
              rw [if_neg signed, if_neg signed, after]
              exact skipDigits_mark split moved _
      · rw [shape, nats_cons] at stays
        rw [if_neg letter, if_neg letter]
        exact stays

/-- What a number is read as behind its sign. -/
def unsigned (sign cs : List Nat) : Option (List Nat × List Nat) := do
  let (int, cs) ← JsonReader.intPart cs
  let (frac, cs) ← JsonReader.fracPart cs
  let (exp, cs) ← JsonReader.expPart cs
  some (sign ++ (int ++ (frac ++ exp)), cs)

theorem skipMinus_part (c : Cursor) : ∃ sign, nats c.rest = sign ++ nats (skipMinus c).rest ∧
    (skipMinus c).i = c.i + sign.length ∧
    JsonReader.number (nats c.rest) = unsigned sign (nats (skipMinus c).rest) := by
  cases shape : c.rest with
  | nil =>
      refine ⟨[], ?_⟩
      rw [skipMinus, startsWith_nil shape, if_neg Bool.false_ne_true, shape]
      exact ⟨rfl, rfl, rfl⟩
  | cons u rest =>
      obtain ⟨split, moved⟩ := next_part shape
      rw [skipMinus, startsWith_cons shape, nats_cons, JsonReader.number]
      by_cases minus : u = 0x2D
      · have value : u.toNat = 0x2D := congrArg UInt16.toNat minus
        have behind : c.next.rest = rest := by rw [Cursor.next, shape]; rfl
        refine ⟨[u.toNat], ?_⟩
        rw [if_pos (decide_eq_true minus), behind]
        dsimp only
        rw [if_pos value]
        exact ⟨rfl, moved, rfl⟩
      · have value : ¬ u.toNat = 0x2D := toNat_ne minus
        refine ⟨[], ?_⟩
        rw [if_neg (by simpa using minus), shape]
        dsimp only
        rw [if_neg value]
        exact ⟨rfl, rfl, rfl⟩

/-- `parseNumber` reads a number token. -/
theorem parseNumber_reads (c : Cursor) : erase treeOf (parseNumber c) =
    match JsonReader.number (nats c.rest) with
    | some (raw, rest) => .ok (.number raw, rest)
    | none => .error .malformed := by
  obtain ⟨sign, splitSign, movedSign, readSign⟩ := skipMinus_part c
  have int := parseInt_part (skipMinus c)
  rw [readSign]
  unfold parseNumber unsigned
  generalize parseInt (skipMinus c) = x, JsonReader.intPart (nats (skipMinus c).rest) = y at int
  cases int with
  | stop m => rfl
  | @ok d int splitInt movedInt =>
      have frac := parseFraction_part d
      simp only [Option.bind_eq_bind, Option.bind_some]
      change erase treeOf (parseFraction d >>= _) = _
      generalize parseFraction d = x, JsonReader.fracPart (nats d.rest) = y at frac
      cases frac with
      | stop m => rfl
      | @ok e frac splitFrac movedFrac =>
          have exp := parseExponent_part e
          simp only [Option.bind_some]
          change erase treeOf (parseExponent e >>= _) = _
          generalize parseExponent e = x, JsonReader.expPart (nats e.rest) = y at exp
          cases exp with
          | stop m => rfl
          | @ok f exp splitExp movedExp =>
              have whole : nats c.rest = (sign ++ (int ++ (frac ++ exp))) ++ nats f.rest := by
                rw [splitSign, splitInt, splitFrac, splitExp]
                simp only [List.append_assoc]
              have length : f.i - c.i = (sign ++ (int ++ (frac ++ exp))).length := by
                simp only [List.length_append]
                omega
              have token : nats (c.substring f) = sign ++ (int ++ (frac ++ exp)) := by
                rw [Cursor.substring, nats, List.map_take, length]
                change (nats c.rest).take _ = _
                rw [whole, List.take_left']
                rfl
              change Except.ok (Tree.number (nats (c.substring f)), nats f.rest) = _
              rw [token]
              rfl

/-! ## Words -/

theorem isPrefixOf_nats (s t : JString) : (nats s).isPrefixOf (nats t) = s.isPrefixOf t := by
  induction s generalizing t with
  | nil => rfl
  | cons u s ih =>
      cases t with
      | nil => rfl
      | cons v t =>
          have unit : (u.toNat == v.toNat) = (u == v) := by
            rw [Bool.eq_iff_iff, beq_iff_eq, beq_iff_eq, UInt16.toNat_inj]
          rw [nats_cons, nats_cons, List.isPrefixOf, List.isPrefixOf, unit, ih]

theorem parseWord_reads (c : Cursor) {word : String} (plain : nats (lit word) = JsonReader.units word)
    (value : Json) : erase treeOf (parseWord c word value) =
      match JsonReader.after? (JsonReader.units word) (nats c.rest) with
      | some rest => .ok (treeOf value, rest)
      | none => .error .malformed := by
  unfold parseWord expectLiteral JsonReader.after?
  rw [← plain, isPrefixOf_nats, nats_length]
  by_cases found : (lit word).isPrefixOf c.rest = true
  · rw [if_pos found, if_pos found]
    have behind : nats (c.advance (lit word).length).rest = (nats c.rest).drop (lit word).length :=
      List.map_drop
    change Except.ok (treeOf value, nats (c.advance (lit word).length).rest) = _
    rw [behind]
  · rw [if_neg found, if_neg found]
    rfl

theorem after?_other {w u : Nat} {ws rest : List Nat} (other : u ≠ w) :
    JsonReader.after? (w :: ws) (u :: rest) = none := by
  have start : (w == u) = false := beq_eq_false_iff_ne.mpr (Ne.symm other)
  rw [JsonReader.after?, List.isPrefixOf, start, Bool.false_and, if_neg Bool.false_ne_true]

theorem number_other {u : Nat} {rest : List Nat} (digit : JsonReader.isDigit u = false) (minus : u ≠ 0x2D) :
    JsonReader.number (u :: rest) = none := by
  have unread : JsonReader.intPart (u :: rest) = none := by
    rw [JsonReader.intPart, digit]
    rfl
  rw [JsonReader.number]
  dsimp only
  rw [if_neg minus]
  dsimp only
  rw [unread]
  rfl

/-- A value that is no array and no object. -/
theorem scalar_reads {c : Cursor} {u : UInt16} {rest : JString} (shape : c.rest = u :: rest) :
    erase treeOf (if u = 0x74 then parseWord c "true" (.bool true)
      else if u = 0x66 then parseWord c "false" (.bool false)
      else if u = 0x6E then parseWord c "null" .null
      else if u = 0x2D || isDigit u then parseNumber c
      else err c (lit "unexpected character '" ++ [u] ++ lit "'")) =
    JsonReader.scalar strictUnits (nats c.rest) := by
  have known : JsonReader.bareword? strictUnits (nats c.rest) = none := rfl
  have words : JsonReader.units "true" = [0x74, 0x72, 0x75, 0x65] ∧
      JsonReader.units "false" = [0x66, 0x61, 0x6C, 0x73, 0x65] ∧
      JsonReader.units "null" = [0x6E, 0x75, 0x6C, 0x6C] := by decide
  obtain ⟨wordTrue, wordFalse, wordNull⟩ := words
  rw [JsonReader.scalar, known]
  dsimp only
  by_cases t : u = 0x74
  · subst t
    have notFalse : JsonReader.after? (JsonReader.units "false") (nats c.rest) = none := by
      rw [wordFalse, shape]
      exact after?_other (by decide)
    have notNull : JsonReader.after? (JsonReader.units "null") (nats c.rest) = none := by
      rw [wordNull, shape]
      exact after?_other (by decide)
    have noNumber : JsonReader.number (nats c.rest) = none := by
      rw [shape]
      exact number_other rfl (by decide)
    rw [if_pos rfl, parseWord_reads c rfl, notFalse, notNull, noNumber]
    cases JsonReader.after? (JsonReader.units "true") (nats c.rest) <;> rfl
  · rw [if_neg t]
    have notTrue : JsonReader.after? (JsonReader.units "true") (nats c.rest) = none := by
      rw [wordTrue, shape]
      exact after?_other (toNat_ne t)
    by_cases f : u = 0x66
    · subst f
      have notNull : JsonReader.after? (JsonReader.units "null") (nats c.rest) = none := by
        rw [wordNull, shape]
        exact after?_other (by decide)
      have noNumber : JsonReader.number (nats c.rest) = none := by
        rw [shape]
        exact number_other rfl (by decide)
      rw [if_pos rfl, parseWord_reads c rfl, notTrue, notNull, noNumber]
      cases JsonReader.after? (JsonReader.units "false") (nats c.rest) <;> rfl
    · rw [if_neg f]
      have notFalse : JsonReader.after? (JsonReader.units "false") (nats c.rest) = none := by
        rw [wordFalse, shape]
        exact after?_other (toNat_ne f)
      by_cases n : u = 0x6E
      · subst n
        have noNumber : JsonReader.number (nats c.rest) = none := by
          rw [shape]
          exact number_other rfl (by decide)
        rw [if_pos rfl, parseWord_reads c rfl, notTrue, notFalse, noNumber]
        cases JsonReader.after? (JsonReader.units "null") (nats c.rest) <;> rfl
      · have notNull : JsonReader.after? (JsonReader.units "null") (nats c.rest) = none := by
          rw [wordNull, shape]
          exact after?_other (toNat_ne n)
        rw [if_neg n, notTrue, notFalse, notNull]
        dsimp only
        by_cases numeral : (decide (u = 0x2D) || isDigit u) = true
        · rw [if_pos numeral, parseNumber_reads]
          cases JsonReader.number (nats c.rest) <;> rfl
        · have other := Bool.eq_false_iff.mpr numeral
          rw [Bool.or_eq_false_iff, decide_eq_false_iff_not] at other
          have noNumber : JsonReader.number (nats c.rest) = none := by
            rw [shape]
            exact number_other other.2 (toNat_ne other.1)
          rw [if_neg numeral, noNumber]
          rfl

/-! ## Arrays and objects -/

/-- The cursor behind the space, by its first unit. -/
theorem skipped (c : Cursor) : JsonReader.skipWs (nats c.rest) = nats (skipWhitespace c).rest :=
  (nats_skipWhitespace c).symm

theorem skipWs_twice (cs : List Nat) : JsonReader.skipWs (JsonReader.skipWs cs) = JsonReader.skipWs cs :=
  List.dropWhile_idempotent _ cs

section Loops

variable {parse : Cursor → Except Stop (Json × Cursor)}
  {value : List Nat → Except Fault (Tree × List Nat)}

theorem next_rest {c : Cursor} {u : UInt16} {rest : JString} (shape : c.rest = u :: rest) :
    nats c.next.rest = nats rest := by
  rw [Cursor.next, shape]
  rfl

theorem arrayLoop_reads (same : ∀ c, erase treeOf (parse c) = value (nats c.rest)) (n : Nat) (c : Cursor) :
    erase treesOf (arrayLoop parse n c) = JsonReader.elements value n (nats c.rest) := by
  induction n generalizing c with
  | zero => rfl
  | succ n ih =>
      rw [arrayLoop, JsonReader.elements, skipped, ← same]
      refine erase_bind fun item d _ => ?_
      dsimp only
      rw [skipped]
      cases shape : (skipWhitespace d).rest with
      | nil => rfl
      | cons u rest =>
          rw [nats_cons]
          dsimp only
          by_cases comma : u = 0x2C
          · have unit : u.toNat = 0x2C := congrArg UInt16.toNat comma
            rw [if_pos comma, if_pos unit, ← next_rest shape, ← ih]
            exact erase_bind fun items e _ => rfl
          · have unit : ¬ u.toNat = 0x2C := toNat_ne comma
            rw [if_neg comma, if_neg unit]
            by_cases bracket : u = 0x5D
            · have unit : u.toNat = 0x5D := congrArg UInt16.toNat bracket
              rw [if_pos bracket, if_pos unit, ← next_rest shape]
              rfl
            · have unit : ¬ u.toNat = 0x5D := toNat_ne bracket
              rw [if_neg bracket, if_neg unit]
              rfl

theorem elements_skipped (n : Nat) (cs : List Nat) :
    JsonReader.elements value n (JsonReader.skipWs cs) = JsonReader.elements value n cs := by
  cases n with
  | zero => rfl
  | succ n => rw [JsonReader.elements, JsonReader.elements, skipWs_twice]

theorem members_skipped (n : Nat) (cs : List Nat) : JsonReader.members strictUnits value n (JsonReader.skipWs cs) =
    JsonReader.members strictUnits value n cs := by
  cases n with
  | zero => rfl
  | succ n => rw [JsonReader.members, JsonReader.members, skipWs_twice]

theorem parseArray_reads (same : ∀ c, erase treeOf (parse c) = value (nats c.rest))
    (empty : value [] = .error .malformed) (c : Cursor) :
    erase treeOf (parseArray parse c) = JsonReader.array value (nats c.next.rest) := by
  have loop : erase treeOf (arrayLoop parse (c.next.rest.length + 1) (skipWhitespace c.next) >>= fun r =>
        .ok (.arr r.1, r.2)) =
      JsonReader.elements value ((nats c.next.rest).length + 1) (nats c.next.rest) >>= fun r =>
        .ok (.array r.1, r.2) := by
    rw [← elements_skipped, skipped, ← arrayLoop_reads same, nats_length]
    exact erase_bind fun items d _ => rfl
  unfold parseArray JsonReader.array
  dsimp only
  cases shape : (skipWhitespace c.next).rest with
  | nil =>
      have space : JsonReader.skipWs (nats c.next.rest) = [] := by
        rw [skipped, shape]
        rfl
      rw [startsWith_nil shape, if_neg Bool.false_ne_true, space]
      refine loop.trans ?_
      rw [JsonReader.elements, space, empty]
      rfl
  | cons u rest =>
      rw [skipped, startsWith_cons shape, shape, nats_cons]
      dsimp only
      by_cases bracket : u = 0x5D
      · have unit : u.toNat = 0x5D := congrArg UInt16.toNat bracket
        rw [if_pos (decide_eq_true bracket), if_pos unit, ← next_rest shape]
        rfl
      · have unit : ¬ u.toNat = 0x5D := toNat_ne bracket
        rw [if_neg (by simpa using bracket), if_neg unit]
        exact loop

/-- What stands behind a member. -/
theorem member_ends {n : Nat}
    (later : ∀ c, erase membersOf (objectLoop parse n c) =
      JsonReader.members strictUnits value n (nats c.rest)) (key : JString) (item : Json) (c : Cursor) :
    erase membersOf (match (skipWhitespace c).rest with
      | [] => err (skipWhitespace c) (lit "unterminated object")
      | u :: _ =>
          if u = 0x2C then do
            let (members, d) ← objectLoop parse n (skipWhitespace c).next
            .ok ((key, item) :: members, d)
          else if u = 0x7D then .ok ([(key, item)], (skipWhitespace c).next)
          else err (skipWhitespace c) (lit "expected ',' or '\x7d'")) =
      match JsonReader.skipWs (nats c.rest) with
      | [] => .error .malformed
      | u :: rest =>
          if u = 0x2C then do
            let (more, rest) ← JsonReader.members strictUnits value n rest
            .ok ((nats key, treeOf item) :: more, rest)
          else if u = 0x7D then .ok ([(nats key, treeOf item)], rest)
          else .error .malformed := by
  rw [skipped]
  cases shape : (skipWhitespace c).rest with
  | nil => rfl
  | cons u rest =>
      rw [nats_cons]
      dsimp only
      by_cases comma : u = 0x2C
      · have unit : u.toNat = 0x2C := congrArg UInt16.toNat comma
        rw [if_pos comma, if_pos unit, ← next_rest shape, ← later]
        exact erase_bind fun members e _ => rfl
      · have unit : ¬ u.toNat = 0x2C := toNat_ne comma
        rw [if_neg comma, if_neg unit]
        by_cases brace : u = 0x7D
        · have unit : u.toNat = 0x7D := congrArg UInt16.toNat brace
          rw [if_pos brace, if_pos unit, ← next_rest shape]
          rfl
        · have unit : ¬ u.toNat = 0x7D := toNat_ne brace
          rw [if_neg brace, if_neg unit]
          rfl

theorem objectLoop_reads (same : ∀ c, erase treeOf (parse c) = value (nats c.rest)) (n : Nat) (c : Cursor) :
    erase membersOf (objectLoop parse n c) = JsonReader.members strictUnits value n (nats c.rest) := by
  induction n generalizing c with
  | zero => rfl
  | succ n ih =>
      rw [objectLoop, JsonReader.members, skipped]
      unfold parseMember
      dsimp only
      cases shape : (skipWhitespace c).rest with
      | nil =>
          rw [startsWith_nil shape]
          rfl
      | cons u rest =>
          rw [startsWith_cons shape, nats_cons]
          dsimp only
          by_cases quote : u = 0x22
          · have unit : u.toNat = 0x22 := congrArg UInt16.toNat quote
            rw [if_neg (by simpa using quote), if_pos unit, ← parseString_reads shape]
            rw [bind_assoc]
            refine erase_bind fun key d _ => ?_
            dsimp only
            rw [skipped]
            cases behind : (skipWhitespace d).rest with
            | nil =>
                rw [startsWith_nil behind]
                rfl
            | cons v more =>
                rw [startsWith_cons behind, nats_cons]
                dsimp only
                by_cases colon : v = 0x3A
                · have unit : v.toNat = 0x3A := congrArg UInt16.toNat colon
                  rw [if_neg (by simpa using colon), if_pos unit, ← next_rest behind, skipped, ← same,
                    bind_assoc]
                  refine erase_bind fun item e _ => ?_
                  exact member_ends ih key item e
                · have unit : ¬ v.toNat = 0x3A := toNat_ne colon
                  rw [if_pos (by simpa using colon), if_neg unit]
                  rfl
          · have unit : ¬ u.toNat = 0x22 := toNat_ne quote
            rw [if_pos (by simpa using quote), if_neg unit]
            rfl

theorem parseObject_reads (same : ∀ c, erase treeOf (parse c) = value (nats c.rest)) (c : Cursor) :
    erase treeOf (parseObject parse c) = JsonReader.object strictUnits value (nats c.next.rest) := by
  have loop : erase treeOf (objectLoop parse (c.next.rest.length + 1) (skipWhitespace c.next) >>= fun r =>
        .ok (.obj r.1, r.2)) =
      JsonReader.members strictUnits value ((nats c.next.rest).length + 1) (nats c.next.rest) >>= fun r =>
        .ok (.object r.1, r.2) := by
    rw [← members_skipped, skipped, ← objectLoop_reads same, nats_length]
    exact erase_bind fun members d _ => rfl
  unfold parseObject JsonReader.object
  dsimp only
  cases shape : (skipWhitespace c.next).rest with
  | nil =>
      have space : JsonReader.skipWs (nats c.next.rest) = [] := by
        rw [skipped, shape]
        rfl
      rw [startsWith_nil shape, if_neg Bool.false_ne_true, space]
      refine loop.trans ?_
      rw [JsonReader.members, space]
      rfl
  | cons u rest =>
      rw [skipped, startsWith_cons shape, shape, nats_cons]
      dsimp only
      by_cases brace : u = 0x7D
      · have unit : u.toNat = 0x7D := congrArg UInt16.toNat brace
        rw [if_pos (decide_eq_true brace), if_pos unit, ← next_rest shape]
        rfl
      · have unit : ¬ u.toNat = 0x7D := toNat_ne brace
        rw [if_neg (by simpa using brace), if_neg unit]
        exact loop

end Loops

theorem value_nil (depth : Nat) : JsonReader.value strictUnits depth [] = .error .malformed := by
  cases depth <;> rfl

/-- `parseValue` where the next unit opens neither an array nor an object. -/
theorem parseValue_flat {c : Cursor} {u : UInt16} {rest : JString} (shape : c.rest = u :: rest)
    (brace : u ≠ 0x7B) (bracket : u ≠ 0x5B) (depth : Nat) :
    erase treeOf (parseValue depth c) = JsonReader.value strictUnits depth (nats c.rest) := by
  have braceUnit : ¬ u.toNat = 0x7B := toNat_ne brace
  have bracketUnit : ¬ u.toNat = 0x5B := toNat_ne bracket
  have read : JsonReader.value strictUnits depth (nats c.rest) =
      if u.toNat = 0x22 then (do
        let (s, rest) ← JsonReader.string strictUnits (nats rest)
        .ok (.string s, rest))
      else JsonReader.scalar strictUnits (nats c.rest) := by
    rw [shape, nats_cons, JsonReader.value.eq_def]
    dsimp only
    rw [if_neg bracketUnit, if_neg braceUnit]
  rw [read, parseValue.eq_def]
  dsimp only
  rw [shape]
  dsimp only
  rw [if_neg brace, if_neg bracket]
  by_cases quote : u = 0x22
  · have unit : u.toNat = 0x22 := congrArg UInt16.toNat quote
    rw [if_pos quote, if_pos unit, ← parseString_reads shape]
    exact erase_bind fun s d _ => rfl
  · have unit : ¬ u.toNat = 0x22 := toNat_ne quote
    rw [if_neg quote, if_neg unit, ← shape]
    exact scalar_reads shape

/-- `parseValue` reads a value. -/
theorem parseValue_reads (depth : Nat) (c : Cursor) :
    erase treeOf (parseValue depth c) = JsonReader.value strictUnits depth (nats c.rest) := by
  induction depth generalizing c with
  | zero =>
      cases shape : c.rest with
      | nil =>
          rw [parseValue.eq_def]
          dsimp only
          rw [shape]
          rfl
      | cons u rest =>
          by_cases brace : u = 0x7B
          · subst brace
            rw [parseValue.eq_def]
            dsimp only
            rw [shape]
            rfl
          · by_cases bracket : u = 0x5B
            · subst bracket
              rw [parseValue.eq_def]
              dsimp only
              rw [shape]
              rfl
            · rw [← shape]
              exact parseValue_flat shape brace bracket 0
  | succ inner ih =>
      cases shape : c.rest with
      | nil =>
          rw [parseValue.eq_def]
          dsimp only
          rw [shape]
          rfl
      | cons u rest =>
          by_cases brace : u = 0x7B
          · subst brace
            have behind := next_rest shape
            rw [parseValue.eq_def]
            dsimp only
            rw [shape]
            change erase treeOf (parseObject (parseValue inner) c) =
              JsonReader.object strictUnits (JsonReader.value strictUnits inner) (nats rest)
            rw [parseObject_reads ih, behind]
          · by_cases bracket : u = 0x5B
            · subst bracket
              have behind := next_rest shape
              rw [parseValue.eq_def]
              dsimp only
              rw [shape]
              change erase treeOf (parseArray (parseValue inner) c) =
                JsonReader.array (JsonReader.value strictUnits inner) (nats rest)
              rw [parseArray_reads ih (value_nil inner), behind]
            · rw [← shape]
              exact parseValue_flat shape brace bracket (inner + 1)

/-- `parse` is the reader of JSON over UTF-16 units. -/
theorem parse_reads (depth : Nat) (s : JString) :
    (match parse depth s with
      | .ok v => .ok (treeOf v)
      | .error e => .error e.fault) = JsonReader.read strictUnits depth (nats s) := by
  have value := parseValue_reads depth (skipWhitespace ⟨0, s⟩)
  rw [nats_skipWhitespace] at value
  rw [JsonReader.read, ← value]
  unfold parse
  cases parseValue depth (skipWhitespace ⟨0, s⟩) with
  | error e => rfl
  | ok r =>
      obtain ⟨v, c⟩ := r
      change (match (if (skipWhitespace c).rest ≠ [] then err (skipWhitespace c)
          (lit "unexpected trailing data after JSON value") else Except.ok v : Except Stop Json) with
        | .ok v => .ok (treeOf v)
        | .error e => .error e.fault) =
        if JsonReader.skipWs (nats c.rest) = [] then Except.ok (treeOf v) else .error .malformed
      rw [skipped]
      cases shape : (skipWhitespace c).rest with
      | nil => rfl
      | cons u rest =>
          rw [if_pos (List.cons_ne_nil _ _), nats_cons, if_neg (List.cons_ne_nil _ _)]
          rfl

/-! ## No loop runs out of turns -/

/-- What returns leaves fewer units, and no loop inside runs out of turns. -/
def Advances {α : Type} (c : Cursor) (x : Except Stop (α × Cursor)) : Prop :=
  (∀ a d, x = .ok (a, d) → d.rest.length < c.rest.length) ∧ x ≠ .error .turns

theorem Advances.err {α : Type} {c d : Cursor} {m : JString} : Advances (α := α) c (err d m) := ⟨nofun, nofun⟩

theorem Advances.ok {α : Type} {c d : Cursor} {a : α} (fewer : d.rest.length < c.rest.length) :
    Advances c (.ok (a, d)) := by
  refine ⟨fun b e same => ?_, nofun⟩
  cases same
  exact fewer

theorem Advances.mono {α : Type} {c d : Cursor} {x : Except Stop (α × Cursor)} (advances : Advances d x)
    (fewer : d.rest.length ≤ c.rest.length) : Advances c x :=
  ⟨fun a e same => Nat.lt_of_lt_of_le (advances.1 a e same) fewer, advances.2⟩

theorem Advances.bind {α β : Type} {c : Cursor} {x : Except Stop (α × Cursor)}
    {k : α × Cursor → Except Stop (β × Cursor)} (first : Advances c x)
    (later : ∀ a d, d.rest.length < c.rest.length → Advances c (k (a, d))) : Advances c (x >>= k) := by
  cases x with
  | error e => exact ⟨nofun, fun same => first.2 (congrArg Except.error (Except.error.inj same))⟩
  | ok r => exact later r.1 r.2 (first.1 r.1 r.2 rfl)

theorem skipWhile_le (p : UInt16 → Bool) (c : Cursor) : (c.skipWhile p).rest.length ≤ c.rest.length :=
  List.length_dropWhile_le p c.rest

theorem next_lt {c : Cursor} {u : UInt16} {rest : JString} (shape : c.rest = u :: rest) :
    c.next.rest.length < c.rest.length := by
  rw [Cursor.next, shape]
  exact Nat.lt_succ_self rest.length

theorem Advances.append {c : Cursor} {x : Except Stop (JString × Cursor)} (advances : Advances c x) (u : UInt16) :
    Advances c (append u x) := by
  cases x with
  | error e => exact ⟨nofun, fun same => advances.2 (congrArg Except.error (Except.error.inj same))⟩
  | ok r => exact .ok (advances.1 r.1 r.2 rfl)

theorem stringLoop_advances (i : Nat) (s : JString) : Advances ⟨0, s⟩ (stringLoop i s) := by
  have later {rest more : JString} {x : Except Stop (JString × Cursor)} (advances : Advances ⟨0, rest⟩ x)
      (fewer : rest.length ≤ more.length) : Advances ⟨0, more⟩ x := advances.mono fewer
  fun_induction stringLoop i s with
  | case1 | case3 | case6 | case8 | case9 => exact .err
  | case2 => exact .ok (Nat.lt_succ_self _)
  | case4 i u₁ u₂ u₃ u₄ rest u _ _ ih =>
      refine (later ih ?_).append u
      simp only [List.length_cons]
      omega
  | case5 i u₁ u₂ u₃ u₄ rest stop parsed _ =>
      rcases parseHex4_spec ⟨i + 2, u₁ :: u₂ :: u₃ :: u₄ :: rest⟩ u₁ u₂ u₃ u₄ with
        ⟨v, same, _⟩ | ⟨m, same, _⟩
      · rw [parsed] at same
        cases same
      · rw [parsed] at same
        cases same
        exact ⟨nofun, nofun⟩
  | case7 i e rest _ u _ _ ih =>
      refine (later ih ?_).append u
      simp only [List.length_cons]
      omega
  | case10 i c rest _ _ _ ih => exact (later ih (Nat.le_succ _)).append c

theorem parseString_advances {c : Cursor} {u : UInt16} {rest : JString} (shape : c.rest = u :: rest) :
    Advances c (parseString c) :=
  (stringLoop_advances c.next.i c.next.rest).mono (Nat.le_of_lt (next_lt shape))

theorem parseNumber_advances (c : Cursor) : Advances c (parseNumber c) := by
  have reads := parseNumber_reads c
  constructor
  · intro v d returned
    rw [returned] at reads
    cases read : JsonReader.number (nats c.rest) with
    | none =>
        rw [read] at reads
        cases reads
    | some r =>
        obtain ⟨raw, rest⟩ := r
        rw [read] at reads
        have behind : nats d.rest = rest := congrArg Prod.snd (Except.ok.inj reads)
        have filled := List.length_pos_iff.mpr (JsonReader.number_token read).ne_nil
        have whole := congrArg List.length (JsonReader.number_split read)
        rw [List.length_append, ← behind, nats_length, nats_length] at whole
        omega
  · have stops {c : Cursor} {x : Except Stop Cursor} {y : Option (List Nat × List Nat)}
        (part : Part c x y) : Throws (fun e => e ≠ Stop.turns) x := by
      cases part with
      | ok => exact .ok _
      | stop => exact .error nofun
    have throws : Throws (fun e => e ≠ Stop.turns) (parseNumber c) :=
      (stops (parseInt_part _)).bind fun d _ => (stops (parseFraction_part d)).bind fun e _ =>
        (stops (parseExponent_part e)).bind fun f _ => .ok _
    exact fun same => throws _ same rfl

theorem parseWord_advances {c : Cursor} {u : UInt16} {rest : JString} (shape : c.rest = u :: rest)
    {word : String} (filled : 0 < (lit word).length) (value : Json) : Advances c (parseWord c word value) := by
  unfold parseWord expectLiteral
  split
  · refine .ok ?_
    rw [Cursor.advance, List.length_drop, shape, List.length_cons]
    omega
  · exact .err

theorem startsWith_lt {c : Cursor} {u : UInt16} (starts : c.startsWith u = true) :
    c.next.rest.length < c.rest.length := by
  obtain ⟨rest, shape⟩ := (startsWith_iff c u).mp starts
  exact next_lt shape

theorem skipWhitespace_le (c : Cursor) : (skipWhitespace c).rest.length ≤ c.rest.length :=
  skipWhile_le isWhitespace c

section Loops

variable {parse : Cursor → Except Stop (Json × Cursor)}

/-- A loop with more turns than there are units does not run out of them. -/
theorem arrayLoop_advances (each : ∀ c, Advances c (parse c)) (n : Nat) (c : Cursor)
    (enough : c.rest.length < n) : Advances c (arrayLoop parse n c) := by
  induction n generalizing c with
  | zero => exact absurd enough (Nat.not_lt_zero _)
  | succ n ih =>
      rw [arrayLoop]
      refine ((each _).mono (skipWhitespace_le c)).bind fun item d fewer => ?_
      have less := Nat.lt_of_le_of_lt (skipWhitespace_le d) fewer
      dsimp only
      cases shape : (skipWhitespace d).rest with
      | nil => exact .err
      | cons u rest =>
          have behind := Nat.lt_trans (next_lt shape) less
          dsimp only
          split_ifs
          · refine ((ih _ (by omega)).mono (Nat.le_of_lt behind)).bind fun items e fewer => ?_
            exact .ok fewer
          · exact .ok behind
          · exact .err

theorem parseMember_advances (each : ∀ c, Advances c (parse c)) (c : Cursor) :
    Advances c (parseMember parse c) := by
  unfold parseMember
  dsimp only
  have space := skipWhitespace_le c
  split_ifs with quote
  · exact .err
  · rw [Bool.not_eq_true, Bool.not_eq_false'] at quote
    obtain ⟨rest, shape⟩ := (startsWith_iff _ _).mp quote
    refine ((parseString_advances shape).mono space).bind fun key d fewer => ?_
    have less := Nat.lt_of_le_of_lt (skipWhitespace_le d) fewer
    dsimp only
    split_ifs with colon
    · exact .err
    · rw [Bool.not_eq_true, Bool.not_eq_false'] at colon
      have behind := startsWith_lt colon
      have after := skipWhitespace_le (skipWhitespace d).next
      refine ((each _).mono (by omega)).bind fun item e fewer => ?_
      exact .ok (Nat.lt_of_le_of_lt (skipWhitespace_le e) fewer)

theorem objectLoop_advances (each : ∀ c, Advances c (parse c)) (n : Nat) (c : Cursor)
    (enough : c.rest.length < n) : Advances c (objectLoop parse n c) := by
  induction n generalizing c with
  | zero => exact absurd enough (Nat.not_lt_zero _)
  | succ n ih =>
      rw [objectLoop]
      refine (parseMember_advances each c).bind fun member d fewer => ?_
      dsimp only
      cases shape : d.rest with
      | nil => exact .err
      | cons u rest =>
          have behind := Nat.lt_trans (next_lt shape) fewer
          dsimp only
          split_ifs
          · refine ((ih _ (by omega)).mono (Nat.le_of_lt behind)).bind fun members e fewer => ?_
            exact .ok fewer
          · exact .ok behind
          · exact .err

theorem parseArray_advances (each : ∀ c, Advances c (parse c)) {c : Cursor} {u : UInt16} {rest : JString}
    (shape : c.rest = u :: rest) : Advances c (parseArray parse c) := by
  have behind := next_lt shape
  have space := skipWhitespace_le c.next
  unfold parseArray
  dsimp only
  split_ifs with bracket
  · exact .ok (Nat.lt_trans (startsWith_lt bracket) (by omega))
  · exact ((arrayLoop_advances each _ _ (by omega)).mono (by omega)).bind fun items d fewer => .ok fewer

theorem parseObject_advances (each : ∀ c, Advances c (parse c)) {c : Cursor} {u : UInt16} {rest : JString}
    (shape : c.rest = u :: rest) : Advances c (parseObject parse c) := by
  have behind := next_lt shape
  have space := skipWhitespace_le c.next
  unfold parseObject
  dsimp only
  split_ifs with brace
  · exact .ok (Nat.lt_trans (startsWith_lt brace) (by omega))
  · exact ((objectLoop_advances each _ _ (by omega)).mono (by omega)).bind fun members d fewer => .ok fewer

end Loops

theorem parseValue_advances (depth : Nat) (c : Cursor) : Advances c (parseValue depth c) := by
  have words : 0 < (lit "true").length ∧ 0 < (lit "false").length ∧ 0 < (lit "null").length := by decide
  have overflow {c : Cursor} : Advances (α := Json) c (.error .stackOverflow) := ⟨nofun, nofun⟩
  induction depth generalizing c with
  | zero =>
      rw [parseValue.eq_def]
      dsimp only
      cases shape : c.rest with
      | nil => exact .err
      | cons u rest =>
          dsimp only
          split_ifs
          · exact overflow
          · exact overflow
          · exact (parseString_advances shape).bind fun s d fewer => .ok fewer
          · exact parseWord_advances shape words.1 _
          · exact parseWord_advances shape words.2.1 _
          · exact parseWord_advances shape words.2.2 _
          · exact parseNumber_advances c
          · exact .err
  | succ inner ih =>
      rw [parseValue.eq_def]
      dsimp only
      cases shape : c.rest with
      | nil => exact .err
      | cons u rest =>
          dsimp only
          split_ifs
          · exact parseObject_advances ih shape
          · exact parseArray_advances ih shape
          · exact (parseString_advances shape).bind fun s d fewer => .ok fewer
          · exact parseWord_advances shape words.1 _
          · exact parseWord_advances shape words.2.1 _
          · exact parseWord_advances shape words.2.2 _
          · exact parseNumber_advances c
          · exact .err

theorem parse_turns (depth : Nat) (s : JString) : parse depth s ≠ .error .turns := by
  have value := (parseValue_advances depth (skipWhitespace ⟨0, s⟩)).2
  unfold parse
  cases returned : parseValue depth (skipWhitespace ⟨0, s⟩) with
  | error e =>
      rw [returned] at value
      exact fun same => value (congrArg Except.error (Except.error.inj same))
  | ok r =>
      change (if (skipWhitespace r.2).rest ≠ [] then err (skipWhitespace r.2)
        (lit "unexpected trailing data after JSON value") else Except.ok r.1 : Except Stop Json) ≠ _
      split
      · exact nofun
      · exact nofun

end SanDbOxFormal.Java.Codec.JsonParser
