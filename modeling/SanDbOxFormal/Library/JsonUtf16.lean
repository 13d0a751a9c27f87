import SanDbOxFormal.Library.JsonSoundness
import SanDbOxFormal.Library.Utf16

/-!
# JSON over UTF-16 and over characters

A reader of UTF-16 units lets a lone surrogate escape pass, which the grammar over
characters does not have.  On texts whose surrogate escapes are paired the two agree.
-/

namespace SanDbOxFormal.Library.JsonUtf16

open JsonReader (Tree Fault Piece Pieces Spelled strictUnits points)
open Rfc8259 (Json Derives Body Element Hex4)

/-- The units of a text, as numbers. -/
def units (cs : List Char) : List Nat := (Utf16.encode cs).map UInt16.toNat

/-- The value of four characters that are hexadecimal digits. -/
def hex4? (a b c d : Char) : Option Nat := JsonReader.hex4? a.toNat b.toNat c.toNat d.toNat

def high (u : Nat) : Bool := 0xD800 ≤ u && u ≤ 0xDBFF

def low (u : Nat) : Bool := 0xDC00 ≤ u && u ≤ 0xDFFF

/-- Read from the left, every escape of a surrogate is one half of a pair of escapes. -/
def escapesPaired : List Char → Bool
  | [] => true
  | c :: rest =>
      if c = '\\' then
        match rest with
        | [] => true
        | e :: rest =>
            if e = 'u' then
              match rest with
              | h₁ :: h₂ :: h₃ :: h₄ :: rest =>
                  match hex4? h₁ h₂ h₃ h₄ with
                  | none => escapesPaired (h₁ :: h₂ :: h₃ :: h₄ :: rest)
                  | some u =>
                      if high u then
                        match rest with
                        | b :: e :: l₁ :: l₂ :: l₃ :: l₄ :: rest =>
                            b = '\\' && e = 'u' && (hex4? l₁ l₂ l₃ l₄).any low && escapesPaired rest
                        | _ => false
                      else !low u && escapesPaired rest
              | rest => escapesPaired rest
            else escapesPaired rest
      else escapesPaired rest

/-! ## Units of characters -/

@[simp] theorem units_nil : units [] = [] := rfl

theorem units_append (cs ds : List Char) : units (cs ++ ds) = units cs ++ units ds := by
  rw [units, Utf16.encode_append, List.map_append]
  rfl

theorem units_narrow {c : Char} (narrow : c.toNat < 0x10000) (cs : List Char) :
    units (c :: cs) = c.toNat :: units cs := by
  rw [units, Utf16.encode_cons, Utf16.units, if_pos narrow, List.singleton_append, List.map_cons,
    Utf16.ofNat_toNat narrow]
  rfl

/-- The two units of a character of another plane. -/
theorem units_wide {c : Char} (wide : 0x10000 ≤ c.toNat) (cs : List Char) :
    ∃ h l, units (c :: cs) = h :: l :: units cs ∧ high h = true ∧ low l = true ∧
      c.toNat = 0x10000 + (h - 0xD800) * 0x400 + (l - 0xDC00) := by
  obtain ⟨_, isHigh, isLow⟩ := Utf16.joined_units wide
  have range : c.toNat < 0x110000 := by
    rcases c.valid with low | ⟨_, high⟩
    · exact Nat.lt_trans low (by decide)
    · exact high
  refine ⟨0xD800 + (c.toNat - 0x10000) / 0x400, 0xDC00 + (c.toNat - 0x10000) % 0x400, ?_, ?_, ?_, ?_⟩
  · rw [units, Utf16.encode_cons, Utf16.units, if_neg (by omega), List.cons_append, List.cons_append,
      List.nil_append, List.map_cons, List.map_cons, Utf16.ofNat_toNat (by omega),
      Utf16.ofNat_toNat (by omega)]
    rfl
  · rw [high, Bool.and_eq_true, decide_eq_true_eq, decide_eq_true_eq]
    omega
  · rw [low, Bool.and_eq_true, decide_eq_true_eq, decide_eq_true_eq]
    omega
  · omega

theorem units_ascii {cs : List Char} (narrow : ∀ c ∈ cs, c.toNat < 0x80) (rest : List Char) :
    units (cs ++ rest) = points cs ++ units rest := by
  induction cs with
  | nil => rfl
  | cons c cs ih =>
      obtain ⟨first, others⟩ := List.forall_mem_cons.mp narrow
      rw [List.cons_append, units_narrow (by omega), ih others]
      rfl

/-- A unit that is no surrogate is a character. -/
theorem units_uncons {cs : List Char} {n : Nat} {rest : List Nat} (shape : units cs = n :: rest)
    (plain : n < 0xD800) : ∃ c more, cs = c :: more ∧ c.toNat = n ∧ rest = units more := by
  cases cs with
  | nil => cases shape
  | cons c more =>
      by_cases narrow : c.toNat < 0x10000
      · rw [units_narrow narrow] at shape
        cases shape
        exact ⟨c, more, rfl, rfl, rfl⟩
      · obtain ⟨h, l, same, isHigh, _, _⟩ := units_wide (Nat.le_of_not_lt narrow) more
        rw [same] at shape
        cases shape
        rw [high, Bool.and_eq_true, decide_eq_true_eq, decide_eq_true_eq] at isHigh
        omega

theorem units_eq_nil {cs : List Char} (none : units cs = []) : cs = [] := by
  cases cs with
  | nil => rfl
  | cons c more =>
      by_cases narrow : c.toNat < 0x10000
      · rw [units_narrow narrow] at none
        cases none
      · obtain ⟨h, l, same, _⟩ := units_wide (Nat.le_of_not_lt narrow) more
        rw [same] at none
        cases none

/-- Units below the surrogates in front are the characters in front. -/
theorem units_prefixed {ds cs : List Char} {rest : List Nat} (narrow : ∀ c ∈ ds, c.toNat < 0x80)
    (shape : points ds ++ rest = units cs) : ∃ es, cs = ds ++ es ∧ rest = units es := by
  induction ds generalizing cs with
  | nil => exact ⟨cs, rfl, shape⟩
  | cons d ds ih =>
      obtain ⟨first, others⟩ := List.forall_mem_cons.mp narrow
      obtain ⟨c, more, rfl, same, behind⟩ := units_uncons shape.symm (by omega)
      obtain ⟨es, rfl, after⟩ := ih others behind
      exact ⟨es, by rw [Char.toNat_inj.mp same]; rfl, after⟩

/-! ## Escapes -/

theorem hexDigit_narrow {n v : Nat} (found : JsonReader.hexValue? n = some v) : n < 0x80 ∧ v < 16 := by
  unfold JsonReader.hexValue? at found
  simp only [Bool.and_eq_true, decide_eq_true_eq] at found
  split_ifs at found with digit small capital
  all_goals
    cases found
    omega

/-- The digits and the values behind a unit that is read. -/
theorem hex4?_some {a b c d u : Nat} (found : JsonReader.hex4? a b c d = some u) :
    ∃ va vb vc vd, JsonReader.hexValue? a = some va ∧ JsonReader.hexValue? b = some vb ∧
      JsonReader.hexValue? c = some vc ∧ JsonReader.hexValue? d = some vd ∧
      u = ((va * 16 + vb) * 16 + vc) * 16 + vd := by
  obtain ⟨va, ha, found⟩ := Option.bind_eq_some_iff.mp found
  obtain ⟨vb, hb, found⟩ := Option.bind_eq_some_iff.mp found
  obtain ⟨vc, hc, found⟩ := Option.bind_eq_some_iff.mp found
  obtain ⟨vd, hd, found⟩ := Option.bind_eq_some_iff.mp found
  exact ⟨va, vb, vc, vd, ha, hb, hc, hd, (Option.some.inj found).symm⟩

theorem hex4_of {a b c d : Char} {u : Nat} (found : hex4? a b c d = some u) : Hex4 [a, b, c, d] u := by
  obtain ⟨va, vb, vc, vd, ha, hb, hc, hd, rfl⟩ := hex4?_some found
  exact .mk ha hb hc hd

/-- Four units that are hexadecimal digits are four characters. -/
theorem units_hex {cs : List Char} {a b c d u : Nat} {rest : List Nat}
    (shape : units cs = a :: b :: c :: d :: rest) (found : JsonReader.hex4? a b c d = some u) :
    ∃ h₁ h₂ h₃ h₄ more, cs = h₁ :: h₂ :: h₃ :: h₄ :: more ∧ hex4? h₁ h₂ h₃ h₄ = some u ∧
      rest = units more := by
  obtain ⟨va, vb, vc, vd, ha, hb, hc, hd, _⟩ := hex4?_some found
  have narrow {n v : Nat} (digit : JsonReader.hexValue? n = some v) : n < 0xD800 := by
    have := (hexDigit_narrow digit).1
    omega
  obtain ⟨h₁, cs₁, rfl, rfl, shape₁⟩ := units_uncons shape (narrow ha)
  obtain ⟨h₂, cs₂, rfl, rfl, shape₂⟩ := units_uncons shape₁.symm (narrow hb)
  obtain ⟨h₃, cs₃, rfl, rfl, shape₃⟩ := units_uncons shape₂.symm (narrow hc)
  obtain ⟨h₄, cs₄, rfl, rfl, shape₄⟩ := units_uncons shape₃.symm (narrow hd)
  exact ⟨h₁, h₂, h₃, h₄, cs₄, rfl, found, shape₄⟩

theorem simpleEscape?_char {e : Char} {u : Nat} (found : JsonReader.simpleEscape? e.toNat = some u) :
    ∃ c, Rfc8259.simpleEscape? e = some c ∧ c.toNat = u := by
  have char {d : Char} (same : e.toNat = d.toNat) : e = d := Char.toNat_inj.mp same
  unfold JsonReader.simpleEscape? at found
  simp only [Bool.or_eq_true, decide_eq_true_eq] at found
  split_ifs at found with kept b f n r t
  · cases found
    rcases kept with (same | same) | same
    · cases char (d := '"') same
      exact ⟨_, rfl, rfl⟩
    · cases char (d := '\\') same
      exact ⟨_, rfl, rfl⟩
    · cases char (d := '/') same
      exact ⟨_, rfl, rfl⟩
  · cases found
    cases char (d := 'b') b
    exact ⟨_, rfl, rfl⟩
  · cases found
    cases char (d := 'f') f
    exact ⟨_, rfl, rfl⟩
  · cases found
    cases char (d := 'n') n
    exact ⟨_, rfl, rfl⟩
  · cases found
    cases char (d := 'r') r
    exact ⟨_, rfl, rfl⟩
  · cases found
    cases char (d := 't') t
    exact ⟨_, rfl, rfl⟩

theorem hex4_narrow {cs : List Char} {u : Nat} (hex : Hex4 cs u) : ∀ c ∈ cs, c.toNat < 0x80 := by
  cases hex with
  | mk ha hb hc hd =>
      simp only [List.forall_mem_cons]
      exact ⟨Rfc8259.hexValue?_narrow ha, Rfc8259.hexValue?_narrow hb, Rfc8259.hexValue?_narrow hc,
        Rfc8259.hexValue?_narrow hd, nofun⟩

/-- The character of two halves. -/
theorem joined_char {h l : Nat} (isHigh : high h = true) (isLow : low l = true) :
    ∃ c : Char, units [c] = [h, l] ∧ c.toNat = 0x10000 + (h - 0xD800) * 0x400 + (l - 0xDC00) := by
  rw [high, Bool.and_eq_true, decide_eq_true_eq, decide_eq_true_eq] at isHigh
  rw [low, Bool.and_eq_true, decide_eq_true_eq, decide_eq_true_eq] at isLow
  have valid : (0x10000 + (h - 0xD800) * 0x400 + (l - 0xDC00)).isValidChar := by
    rw [Nat.isValidChar]
    omega
  have value : (Char.ofNat (0x10000 + (h - 0xD800) * 0x400 + (l - 0xDC00))).toNat =
      0x10000 + (h - 0xD800) * 0x400 + (l - 0xDC00) := (Char.toNat_ofNat _).trans (if_pos valid)
  refine ⟨_, ?_, value⟩
  obtain ⟨h', l', shape, isHigh', isLow', value'⟩ := units_wide (c := Char.ofNat _)
    (by rw [value]; omega) []
  rw [high, Bool.and_eq_true, decide_eq_true_eq, decide_eq_true_eq] at isHigh'
  rw [low, Bool.and_eq_true, decide_eq_true_eq, decide_eq_true_eq] at isLow'
  rw [value] at value'
  have first : h' = h := by omega
  have second : l' = l := by omega
  rw [shape, first, second]
  rfl

theorem simpleEscape?_narrow {e c : Char} (found : Rfc8259.simpleEscape? e = some c) :
    c.toNat < 0x10000 := by
  unfold Rfc8259.simpleEscape? at found
  split at found <;> cases found <;> decide

theorem simpleEscape?_surrogate {u : Nat} (large : 0xD800 ≤ u) : JsonReader.simpleEscape? u = none := by
  unfold JsonReader.simpleEscape?
  simp only [Bool.or_eq_true, decide_eq_true_eq]
  rw [if_neg (by omega), if_neg (by omega), if_neg (by omega), if_neg (by omega), if_neg (by omega),
    if_neg (by omega)]

theorem escapesPaired_plain {c : Char} (other : c ≠ '\\') (rest : List Char) :
    escapesPaired (c :: rest) = escapesPaired rest := by
  rw [escapesPaired.eq_def]
  dsimp only
  rw [if_neg other]

theorem escapesPaired_simple {e : Char} (other : e ≠ 'u') (rest : List Char) :
    escapesPaired ('\\' :: e :: rest) = escapesPaired rest := by
  rw [escapesPaired.eq_def]
  dsimp only
  rw [if_pos rfl, if_neg other]

theorem escapesPaired_unit {h₁ h₂ h₃ h₄ : Char} {u : Nat} (found : hex4? h₁ h₂ h₃ h₄ = some u)
    (single : high u = false) (rest : List Char) :
    escapesPaired ('\\' :: 'u' :: h₁ :: h₂ :: h₃ :: h₄ :: rest) = (!low u && escapesPaired rest) := by
  rw [escapesPaired.eq_def]
  dsimp only
  rw [if_pos rfl, if_pos rfl, found]
  dsimp only
  rw [single, if_neg Bool.false_ne_true]

/-- A high surrogate is followed by a low one. -/
theorem escapesPaired_pair {h₁ h₂ h₃ h₄ : Char} {u : Nat} {rest : List Char}
    (found : hex4? h₁ h₂ h₃ h₄ = some u) (isHigh : high u = true)
    (paired : escapesPaired ('\\' :: 'u' :: h₁ :: h₂ :: h₃ :: h₄ :: rest) = true) :
    ∃ l₁ l₂ l₃ l₄ l more, rest = '\\' :: 'u' :: l₁ :: l₂ :: l₃ :: l₄ :: more ∧
      hex4? l₁ l₂ l₃ l₄ = some l ∧ low l = true ∧ escapesPaired more = true := by
  rw [escapesPaired.eq_def] at paired
  dsimp only at paired
  rw [if_pos rfl, if_pos rfl, found] at paired
  dsimp only at paired
  rw [if_pos isHigh] at paired
  split at paired
  · rename_i b e l₁ l₂ l₃ l₄ more
    simp only [Bool.and_eq_true, decide_eq_true_eq] at paired
    obtain ⟨⟨⟨rfl, rfl⟩, isLow⟩, paired⟩ := paired
    cases value : hex4? l₁ l₂ l₃ l₄ with
    | none =>
        rw [value] at isLow
        cases isLow
    | some l =>
        rw [value] at isLow
        exact ⟨l₁, l₂, l₃, l₄, l, more, rfl, value, isLow, paired⟩
  · cases paired

/-! ## Strings -/

/-- A unit that stands for itself in a string. -/
theorem body_visible {u : Nat} (quote : u ≠ 0x22) (escape : u ≠ 0x5C) (visible : 0x20 ≤ u) (n : Nat)
    (rest : List Nat) : JsonReader.body strictUnits (n + 1) (u :: rest) =
      JsonReader.prepend u (JsonReader.body strictUnits n rest) :=
  (Piece.plain quote escape visible).reads n rest

theorem prepend_ok {u : Nat} {x : Except Fault (List Nat × List Nat)} {us rest : List Nat}
    (returned : JsonReader.prepend u x = .ok (us, rest)) : ∃ vs, us = u :: vs ∧ x = .ok (vs, rest) := by
  cases x with
  | error e => cases returned
  | ok r =>
      cases returned
      exact ⟨_, rfl, rfl⟩

theorem body_escape {e : Nat} (other : e ≠ 0x75) {n : Nat} {text us rest : List Nat}
    (read : JsonReader.body strictUnits (n + 1) (0x5C :: e :: text) = .ok (us, rest)) :
    ∃ u vs, JsonReader.simpleEscape? e = some u ∧ us = u :: vs ∧
      JsonReader.body strictUnits n text = .ok (vs, rest) := by
  cases found : JsonReader.simpleEscape? e with
  | none =>
      simp only [JsonReader.body, other, found] at read
      cases read
  | some u =>
      have shape : 0x5C :: e :: text = [0x5C, e] ++ text := rfl
      rw [shape, (Piece.escape found).reads] at read
      obtain ⟨vs, rfl, tail⟩ := prepend_ok read
      exact ⟨u, vs, rfl, rfl, tail⟩

/-- An escape `\u` that is read has four digits behind it. -/
theorem body_unit {n : Nat} {text us rest : List Nat}
    (read : JsonReader.body strictUnits (n + 1) (0x5C :: 0x75 :: text) = .ok (us, rest)) :
    ∃ a b c d more u vs, text = a :: b :: c :: d :: more ∧ JsonReader.hex4? a b c d = some u ∧
      us = u :: vs ∧ JsonReader.body strictUnits n more = .ok (vs, rest) := by
  rcases text with _ | ⟨a, _ | ⟨b, _ | ⟨c, _ | ⟨d, more⟩⟩⟩⟩
  · cases read
  · cases read
  · cases read
  · cases read
  · cases value : JsonReader.hex4? a b c d with
    | none =>
        simp only [JsonReader.body, value] at read
        cases read
    | some u =>
        have piece : Piece strictUnits [0x5C, 0x75, a, b, c, d] u :=
          .unicode value fun joins => absurd joins Bool.false_ne_true
        have shape : 0x5C :: 0x75 :: a :: b :: c :: d :: more = [0x5C, 0x75, a, b, c, d] ++ more := rfl
        rw [shape, piece.reads] at read
        obtain ⟨vs, rfl, tail⟩ := prepend_ok read
        exact ⟨a, b, c, d, more, u, vs, rfl, value, rfl, tail⟩

/-- An element in front of a string body was read, and the rest is read in fewer steps. -/
def Front (n : Nat) (cs : List Char) (us rest : List Nat) : Prop :=
  ∃ m first more vs c, m < n ∧ Element first c ∧ cs = first ++ more ∧ us = units [c] ++ vs ∧
    JsonReader.body strictUnits m (units more) = .ok (vs, rest) ∧ escapesPaired more = true

theorem units_single {c : Char} (narrow : c.toNat < 0x10000) : units [c] = [c.toNat] := units_narrow narrow []

theorem body_succ {n : Nat} {text us rest : List Nat} (read : JsonReader.body strictUnits n text = .ok (us, rest)) :
    ∃ m, n = m + 1 := by
  cases n with
  | zero => cases read
  | succ m => exact ⟨m, rfl⟩

section Front

variable {n : Nat} {more : List Char} {us rest : List Nat}

/-- Two units stand for a wide character. -/
theorem front_wide {c : Char} (wide : 0x10000 ≤ c.toNat)
    (read : JsonReader.body strictUnits (n + 1) (units (c :: more)) = .ok (us, rest))
    (paired : escapesPaired (c :: more) = true) : Front (n + 1) (c :: more) us rest := by
  obtain ⟨h, l, shape, isHigh, isLow, _⟩ := units_wide wide more
  have single : units [c] = [h, l] := by
    obtain ⟨h', l', shape', _⟩ := units_wide wide []
    have whole := units_append [c] more
    rw [shape', List.singleton_append, shape] at whole
    cases whole
    exact shape'
  have apart {d : Char} (narrow : d.toNat < 0x10000) : c ≠ d := by
    rintro rfl
    exact absurd wide (Nat.not_le_of_lt narrow)
  have plain : c ≠ '\\' := apart (by decide)
  rw [high, Bool.and_eq_true, decide_eq_true_eq, decide_eq_true_eq] at isHigh
  rw [low, Bool.and_eq_true, decide_eq_true_eq, decide_eq_true_eq] at isLow
  rw [shape, body_visible (by omega) (by omega) (by omega)] at read
  obtain ⟨vs, rfl, second⟩ := prepend_ok read
  obtain ⟨m, rfl⟩ := body_succ second
  rw [body_visible (by omega) (by omega) (by omega)] at second
  obtain ⟨ws, rfl, tail⟩ := prepend_ok second
  rw [escapesPaired_plain plain] at paired
  refine ⟨m, [c], more, ws, c, by omega, .plain (apart (by decide)) plain (by omega), rfl, ?_, tail, paired⟩
  rw [single]
  rfl

/-- A character below that stands for itself. -/
theorem front_visible {c : Char} (narrow : c.toNat < 0x10000) (quote : c ≠ '"') (escape : c ≠ '\\')
    (read : JsonReader.body strictUnits (n + 1) (units (c :: more)) = .ok (us, rest))
    (paired : escapesPaired (c :: more) = true) : Front (n + 1) (c :: more) us rest := by
  have notQuote : c.toNat ≠ 0x22 := fun same => quote (Char.toNat_inj.mp same)
  have notEscape : c.toNat ≠ 0x5C := fun same => escape (Char.toNat_inj.mp same)
  rw [units_narrow narrow] at read
  by_cases visible : 0x20 ≤ c.toNat
  · rw [body_visible notQuote notEscape visible] at read
    obtain ⟨vs, rfl, tail⟩ := prepend_ok read
    rw [escapesPaired_plain escape] at paired
    refine ⟨n, [c], more, vs, c, Nat.lt_succ_self n, .plain quote escape visible, rfl, ?_, tail, paired⟩
    rw [units_single narrow]
    rfl
  · rw [JsonReader.body.eq_def] at read
    simp only [notQuote, notEscape, if_false] at read
    rw [if_pos (Nat.lt_of_not_le visible)] at read
    cases read

/-- Two escapes stand for a surrogate pair. -/
theorem front_pair {h₁ h₂ h₃ h₄ : Char} {u : Nat} (found : hex4? h₁ h₂ h₃ h₄ = some u) (isHigh : high u = true)
    (tail : JsonReader.body strictUnits n (units more) = .ok (us, rest))
    (paired : escapesPaired ('\\' :: 'u' :: h₁ :: h₂ :: h₃ :: h₄ :: more) = true) :
    Front (n + 1) ('\\' :: 'u' :: h₁ :: h₂ :: h₃ :: h₄ :: more) (u :: us) rest := by
  obtain ⟨l₁, l₂, l₃, l₄, l, es, rfl, foundLow, isLow, left⟩ := escapesPaired_pair found isHigh paired
  obtain ⟨m, rfl⟩ := body_succ tail
  have hex := hex4_of found
  have hexLow := hex4_of foundLow
  have narrow := units_ascii (hex4_narrow hexLow) es
  rw [units_narrow (by decide), units_narrow (by decide)] at tail
  change JsonReader.body strictUnits (m + 1) (0x5C :: 0x75 :: units ([l₁, l₂, l₃, l₄] ++ es)) = _ at tail
  rw [narrow] at tail
  obtain ⟨a, b, c, d, text, u', ws, shape, value, rfl, tail⟩ := body_unit tail
  cases shape
  have same : u' = l := Option.some.inj (value.symm.trans foundLow)
  subst same
  obtain ⟨d, single, joined⟩ := joined_char isHigh isLow
  rw [high, Bool.and_eq_true, decide_eq_true_eq, decide_eq_true_eq] at isHigh
  rw [low, Bool.and_eq_true, decide_eq_true_eq, decide_eq_true_eq] at isLow
  have element : Element ('\\' :: 'u' :: ([h₁, h₂, h₃, h₄] ++ '\\' :: 'u' :: [l₁, l₂, l₃, l₄])) d :=
    .pair hex hexLow isHigh isLow joined
  refine ⟨m, _, es, ws, d, by omega, element, rfl, ?_, tail, left⟩
  rw [single]
  rfl

/-- One escape stands for a unit that is no surrogate. -/
theorem front_unit {h₁ h₂ h₃ h₄ : Char} {u : Nat} (found : hex4? h₁ h₂ h₃ h₄ = some u) (single : high u = false)
    (tail : JsonReader.body strictUnits n (units more) = .ok (us, rest))
    (paired : escapesPaired ('\\' :: 'u' :: h₁ :: h₂ :: h₃ :: h₄ :: more) = true) :
    Front (n + 1) ('\\' :: 'u' :: h₁ :: h₂ :: h₃ :: h₄ :: more) (u :: us) rest := by
  have hex := hex4_of found
  have small := hex.lt
  rw [escapesPaired_unit found single, Bool.and_eq_true, Bool.not_eq_true'] at paired
  obtain ⟨notLow, left⟩ := paired
  have valid : u.isValidChar := by
    rw [high, Bool.and_eq_false_iff, decide_eq_false_iff_not, decide_eq_false_iff_not] at single
    rw [low, Bool.and_eq_false_iff, decide_eq_false_iff_not, decide_eq_false_iff_not] at notLow
    rw [Nat.isValidChar]
    omega
  have back : (Char.ofNat u).toNat = u := (Char.toNat_ofNat u).trans (if_pos valid)
  rw [← back] at hex
  have element : Element ('\\' :: 'u' :: [h₁, h₂, h₃, h₄]) (Char.ofNat u) := .unicode hex
  refine ⟨n, _, more, us, _, Nat.lt_succ_self n, element, rfl, ?_, tail, left⟩
  rw [units_single (by omega), back]
  rfl

/-- A short escape, which stands for one character. -/
theorem front_short {e : Char} (other : e ≠ 'u')
    (read : JsonReader.body strictUnits (n + 1) (0x5C :: units (e :: more)) = .ok (us, rest))
    (paired : escapesPaired ('\\' :: e :: more) = true) : Front (n + 1) ('\\' :: e :: more) us rest := by
  by_cases wide : e.toNat < 0x10000
  · rw [units_narrow wide] at read
    obtain ⟨u, vs, found, rfl, tail⟩ := body_escape (fun same => other (Char.toNat_inj.mp same)) read
    obtain ⟨d, known, rfl⟩ := simpleEscape?_char found
    rw [escapesPaired_simple other] at paired
    refine ⟨n, ['\\', e], more, vs, d, Nat.lt_succ_self n, .escape known, rfl, ?_, tail, paired⟩
    rw [units_single (simpleEscape?_narrow known)]
    rfl
  · obtain ⟨h, l, shape, isHigh, _⟩ := units_wide (Nat.le_of_not_lt wide) more
    rw [high, Bool.and_eq_true, decide_eq_true_eq, decide_eq_true_eq] at isHigh
    rw [shape] at read
    obtain ⟨u, vs, found, _⟩ := body_escape (by omega) read
    rw [simpleEscape?_surrogate isHigh.1] at found
    cases found

/-- What is read behind a backslash. -/
theorem front_escape (read : JsonReader.body strictUnits (n + 1) (units ('\\' :: more)) = .ok (us, rest))
    (paired : escapesPaired ('\\' :: more) = true) : Front (n + 1) ('\\' :: more) us rest := by
  rw [units_narrow (by decide)] at read
  cases more with
  | nil => cases read
  | cons e more =>
      by_cases unicode : e = 'u'
      · subst unicode
        rw [units_narrow (by decide)] at read
        obtain ⟨a, b, c, d, text, u, vs, shape, value, rfl, tail⟩ := body_unit read
        obtain ⟨h₁, h₂, h₃, h₄, cs, rfl, found, rfl⟩ := units_hex shape value
        by_cases isHigh : high u = true
        · exact front_pair found isHigh tail paired
        · exact front_unit found (Bool.eq_false_iff.mpr isHigh) tail paired
      · exact front_short unicode read paired

end Front

/-- What the units of a string body denote, when its surrogate escapes are paired. -/
theorem body_sound {n : Nat} {cs : List Char} {us rest : List Nat}
    (read : JsonReader.body strictUnits n (units cs) = .ok (us, rest))
    (paired : escapesPaired cs = true) :
    ∃ raw ds es, cs = raw ++ '"' :: es ∧ Body raw ds ∧ us = units ds ∧ rest = units es ∧
      escapesPaired es = true := by
  induction n using Nat.strong_induction_on generalizing cs us with
  | _ n ih =>
      -- The element in front, and what the rest of the string gives.
      have step (front : Front n cs us rest) :
          ∃ raw ds es, cs = raw ++ '"' :: es ∧ Body raw ds ∧ us = units ds ∧ rest = units es ∧
            escapesPaired es = true := by
        obtain ⟨m, first, more, vs, c, fewer, element, shape, values, later, paired⟩ := front
        obtain ⟨raw, ds, es, rfl, body, rfl, behind, left⟩ := ih m fewer later paired
        refine ⟨first ++ raw, c :: ds, es, ?_, .cons element body, ?_, behind, left⟩
        · rw [shape, List.append_assoc]
        · rw [values, ← units_append]
          rfl
      obtain ⟨n, rfl⟩ := body_succ read
      cases cs with
      | nil => cases read
      | cons c more =>
          by_cases wide : 0x10000 ≤ c.toNat
          · exact step (front_wide wide read paired)
          · have narrow : c.toNat < 0x10000 := Nat.lt_of_not_le wide
            by_cases quote : c = '"'
            · subst quote
              rw [units_narrow narrow] at read
              cases read
              exact ⟨[], [], more, rfl, .nil, rfl, rfl, by rwa [escapesPaired_plain (by decide)] at paired⟩
            · by_cases escape : c = '\\'
              · subst escape
                exact step (front_escape read paired)
              · exact step (front_visible narrow quote escape read paired)

/-! ## Values -/

mutual

/-- The tree over units of a value over characters. -/
def unitTree : Json → Tree
  | .null => .null
  | .bool b => .bool b
  | .number n => .number (units n.raw.toList)
  | .string s => .string (units s.toList)
  | .array items => .array (unitTrees items)
  | .object pairs => .object (unitMembers pairs)

def unitTrees : List Json → List Tree
  | [] => []
  | v :: rest => unitTree v :: unitTrees rest

def unitMembers : List (String × Json) → List (List Nat × Tree)
  | [] => []
  | (key, v) :: rest => (units key.toList, unitTree v) :: unitMembers rest

end

/-- The text in front was taken, and the escapes behind it are still paired. -/
def Took (cs ds es : List Char) (rest : List Nat) : Prop :=
  cs = ds ++ es ∧ rest = units es ∧ (escapesPaired cs = true → escapesPaired es = true)

theorem escapesPaired_append {ds : List Char} (plain : ∀ c ∈ ds, c ≠ '\\') (es : List Char) :
    escapesPaired (ds ++ es) = escapesPaired es := by
  induction ds with
  | nil => rfl
  | cons d ds ih =>
      obtain ⟨first, others⟩ := List.forall_mem_cons.mp plain
      rw [List.cons_append, escapesPaired_plain first, ih others]

theorem Took.plain {ds es : List Char} (plain : ∀ c ∈ ds, c ≠ '\\') : Took (ds ++ es) ds es (units es) :=
  ⟨rfl, rfl, fun paired => by rwa [escapesPaired_append plain] at paired⟩

/-- A unit below the surrogates that was taken was a character. -/
theorem took_unit {c : Char} (plain : c ≠ '\\') {cs : List Char} {rest : List Nat}
    (shape : units cs = c.toNat :: rest) (small : c.toNat < 0xD800) : ∃ es, Took cs [c] es rest := by
  obtain ⟨d, es, rfl, same, rfl⟩ := units_uncons shape small
  cases Char.toNat_inj.mp same
  exact ⟨es, .plain (List.forall_mem_singleton.mpr plain)⟩

theorem Took.trans {cs ds es fs gs : List Char} {rest more : List Nat} (first : Took cs ds es rest)
    (second : Took es fs gs more) : Took cs (ds ++ fs) gs more := by
  obtain ⟨rfl, _, paired⟩ := first
  obtain ⟨rfl, behind, later⟩ := second
  exact ⟨(List.append_assoc ds fs gs).symm, behind, later ∘ paired⟩

theorem ws_plain {ws : List Char} (space : Rfc8259.Ws ws) : ∀ c ∈ ws, c ≠ '\\' := by
  rintro c inside rfl
  exact absurd (space _ inside) (by decide)

theorem isWs_toNat (c : Char) : JsonReader.isWs c.toNat = Rfc8259.isWs c := by
  have same (d : Char) : decide (c = d) = decide (c.toNat = d.toNat) :=
    decide_eq_decide.mpr Char.toNat_inj.symm
  rw [Rfc8259.isWs, same, same, same, same]
  rfl

/-- Space over units is space over characters. -/
theorem skipWs_sound (cs : List Char) :
    ∃ ws es, Rfc8259.Ws ws ∧ Took cs ws es (JsonReader.skipWs (units cs)) := by
  induction cs with
  | nil => exact ⟨[], [], .nil, rfl, rfl, id⟩
  | cons c more ih =>
      by_cases space : Rfc8259.isWs c = true
      · have narrow : c.toNat < 0x10000 := by
          simp only [Rfc8259.isWs, Bool.or_eq_true, decide_eq_true_eq] at space
          rcases space with ((rfl | rfl) | rfl) | rfl <;> decide
        have unit : JsonReader.isWs c.toNat = true := by rw [isWs_toNat, space]
        obtain ⟨ws, es, white, rfl, behind, paired⟩ := ih
        have all := Rfc8259.Ws.cons space white
        have skipped : JsonReader.skipWs (units (c :: (ws ++ es))) = units es := by
          rw [units_narrow narrow, JsonReader.skipWs, List.dropWhile_cons_of_pos unit]
          exact behind
        rw [skipped]
        exact ⟨c :: ws, es, all, .plain (ws_plain all)⟩
      · have stays : JsonReader.skipWs (units (c :: more)) = units (c :: more) := by
          by_cases narrow : c.toNat < 0x10000
          · have visible : JsonReader.isWs c.toNat = false := by
              rw [isWs_toNat]
              exact Bool.eq_false_iff.mpr space
            rw [units_narrow narrow, JsonReader.skipWs, List.dropWhile_cons_of_neg]
            rw [visible]
            exact Bool.false_ne_true
          · obtain ⟨h, l, shape, isHigh, _⟩ := units_wide (Nat.le_of_not_lt narrow) more
            rw [high, Bool.and_eq_true, decide_eq_true_eq, decide_eq_true_eq] at isHigh
            have visible : JsonReader.isWs h = false := by
              simp only [JsonReader.isWs, Bool.or_eq_false_iff, decide_eq_false_iff_not]
              omega
            rw [shape, JsonReader.skipWs, List.dropWhile_cons_of_neg]
            rw [visible]
            exact Bool.false_ne_true
        rw [stays]
        exact ⟨[], c :: more, .nil, rfl, rfl, id⟩

theorem after?_sound {word cs : List Char} {rest : List Nat} (narrow : ∀ c ∈ word, c.toNat < 0x80)
    (plain : ∀ c ∈ word, c ≠ '\\') (found : JsonReader.after? (points word) (units cs) = some rest) :
    ∃ es, Took cs word es rest := by
  rw [JsonReader.after?] at found
  split_ifs at found with starts
  obtain ⟨more, whole⟩ := List.isPrefixOf_iff_prefix.mp starts
  have behind : more = rest := by
    rw [← whole, List.drop_left] at found
    exact Option.some.inj found
  obtain ⟨es, rfl, same⟩ := units_prefixed narrow whole
  rw [← behind, same]
  exact ⟨es, .plain plain⟩

/-- ASCII without a backslash. -/
def Flat (cs : List Char) : Prop := (∀ c ∈ cs, c.toNat < 0x80) ∧ ∀ c ∈ cs, c ≠ '\\'

theorem flat_of_all {cs : List Char} (all : cs.all (fun c => c.toNat < 0x80 && c ≠ '\\') = true) : Flat cs := by
  have each (c : Char) (inside : c ∈ cs) : c.toNat < 0x80 ∧ c ≠ '\\' := by
    simpa using List.all_eq_true.mp all c inside
  exact ⟨fun c inside => (each c inside).1, fun c inside => (each c inside).2⟩

theorem trueText : Flat ['t', 'r', 'u', 'e'] := flat_of_all rfl

theorem falseText : Flat ['f', 'a', 'l', 's', 'e'] := flat_of_all rfl

theorem nullText : Flat ['n', 'u', 'l', 'l'] := flat_of_all rfl

theorem number_flat {cs : List Char} (number : Rfc8259.Number cs) : Flat cs := by
  have run {ds : List Char} (digits : Rfc8259.Digits ds) : ∀ c ∈ ds, c ≠ '\\' := by
    rintro c inside rfl
    exact absurd (digits _ inside) (by decide)
  refine ⟨fun c inside => (JsonReader.number_ascii number c inside).2, ?_⟩
  cases number with
  | mk hsign hint hfrac hexp =>
      refine List.forall_mem_append.mpr ⟨?_, List.forall_mem_append.mpr ⟨?_,
        List.forall_mem_append.mpr ⟨?_, ?_⟩⟩⟩
      · cases hsign <;> simp
      · cases hint with
        | zero => simp
        | digits lead _ more => exact run (Rfc8259.Digits.cons lead more)
      · cases hfrac with
        | absent => exact nofun
        | point _ digits => exact List.forall_mem_cons.mpr ⟨by decide, run digits⟩
      · cases hexp with
        | absent => exact nofun
        | exponent letter signed _ digits =>
            refine List.forall_mem_cons.mpr ⟨?_, List.forall_mem_append.mpr ⟨?_, run digits⟩⟩
            · rcases letter with rfl | rfl <;> decide
            · cases signed <;> simp

/-- The units of ASCII text. -/
theorem units_flat {cs : List Char} (flat : Flat cs) : units cs = points cs := by
  have whole := units_ascii flat.1 []
  rwa [List.append_nil, units_nil, List.append_nil] at whole

theorem scalar_sound {cs : List Char} {t : Tree} {rest : List Nat}
    (read : JsonReader.scalar strictUnits (units cs) = .ok (t, rest)) :
    ∃ ds es v, Took cs ds es rest ∧ Derives (.value v) ds ∧ t = unitTree v := by
  have known : JsonReader.bareword? strictUnits (units cs) = none := rfl
  rw [JsonReader.scalar, known] at read
  dsimp only at read
  split at read
  · rename_i found
    cases read
    obtain ⟨es, took⟩ := after?_sound trueText.1 trueText.2 found
    exact ⟨_, es, _, took, .true, rfl⟩
  · rename_i found _
    cases read
    obtain ⟨es, took⟩ := after?_sound falseText.1 falseText.2 found
    exact ⟨_, es, _, took, .false, rfl⟩
  · rename_i found _ _
    cases read
    obtain ⟨es, took⟩ := after?_sound nullText.1 nullText.2 found
    exact ⟨_, es, _, took, .null, rfl⟩
  · split at read
    · rename_i raw more found
      cases read
      obtain ⟨ds, rfl, number⟩ := JsonReader.number_token found
      have flat := number_flat number
      obtain ⟨es, rfl, rfl⟩ := units_prefixed flat.1 (JsonReader.number_split found)
      refine ⟨ds, es, _, .plain flat.2, .number number, ?_⟩
      rw [unitTree, String.toList_ofList, units_flat flat]
      rfl
    · cases read

/-- What a reader of values does on texts whose escapes are paired. -/
def Sound (value : List Nat → Except Fault (Tree × List Nat)) : Prop :=
  ∀ cs t rest, value (units cs) = .ok (t, rest) → escapesPaired cs = true →
    ∃ ds es v, Took cs ds es rest ∧ Derives (.value v) ds ∧ t = unitTree v

variable {value : List Nat → Except Fault (Tree × List Nat)}

/-- A value with spaces around it. -/
theorem Sound.spaced (sound : Sound value) {cs : List Char} {t : Tree} {rest : List Nat}
    (read : value (JsonReader.skipWs (units cs)) = .ok (t, rest)) (paired : escapesPaired cs = true) :
    ∃ before text after es v, Rfc8259.Ws before ∧ Derives (.value v) text ∧ Rfc8259.Ws after ∧
      t = unitTree v ∧ Took cs (before ++ (text ++ after)) es (JsonReader.skipWs rest) := by
  obtain ⟨before, es, hbefore, took⟩ := skipWs_sound cs
  rw [took.2.1] at read
  obtain ⟨text, fs, v, tookValue, derives, rfl⟩ := sound es t rest read (took.2.2 paired)
  obtain ⟨after, gs, hafter, tookAfter⟩ := skipWs_sound fs
  rw [← tookValue.2.1] at tookAfter
  refine ⟨before, text, after, gs, v, hbefore, derives, hafter, rfl, ?_⟩
  exact took.trans (tookValue.trans tookAfter)

theorem elements_sound (sound : Sound value) {n : Nat} {cs : List Char} {ts : List Tree} {rest : List Nat}
    (read : JsonReader.elements value n (units cs) = .ok (ts, rest)) (paired : escapesPaired cs = true) :
    ∃ inside es vs, Took cs (inside ++ [']']) es rest ∧ Derives (.elements vs) inside ∧
      ts = unitTrees vs := by
  induction n generalizing cs ts with
  | zero => cases read
  | succ n ih =>
      obtain ⟨⟨t, behind⟩, first, read⟩ := bind_ok_iff.mp read
      obtain ⟨before, text, after, es, v, hbefore, derives, hafter, rfl, took⟩ := sound.spaced first paired
      dsimp only at read
      rw [took.2.1] at read
      split at read
      · cases read
      · rename_i u tail shape
        split_ifs at read with comma bracket
        · obtain ⟨⟨ts', rest'⟩, later, read⟩ := bind_ok_iff.mp read
          cases read
          obtain ⟨fs, tookComma⟩ := took_unit (c := ',') (by decide) (comma ▸ shape) (by decide)
          rw [tookComma.2.1] at later
          obtain ⟨inside, gs, vs, tookRest, more, rfl⟩ := ih later (tookComma.2.2 (took.2.2 paired))
          have whole := took.trans (tookComma.trans tookRest)
          refine ⟨before ++ (text ++ (after ++ ',' :: inside)), gs, v :: vs, ?_,
            .nextElement hbefore derives hafter more, rfl⟩
          simpa only [List.append_assoc, List.cons_append, List.nil_append] using whole
        · cases read
          obtain ⟨fs, tookBracket⟩ := took_unit (c := ']') (by decide) (bracket ▸ shape) (by decide)
          refine ⟨before ++ (text ++ after), fs, [v], ?_, .lastElement hbefore derives hafter, rfl⟩
          exact took.trans tookBracket

theorem string_sound {cs : List Char} {us rest : List Nat}
    (read : JsonReader.string strictUnits (units cs) = .ok (us, rest)) (paired : escapesPaired cs = true) :
    ∃ raw ds es, Took cs (raw ++ ['"']) es rest ∧ Body raw ds ∧ us = units ds := by
  obtain ⟨raw, ds, es, rfl, body, rfl, rfl, left⟩ := body_sound read paired
  refine ⟨raw, ds, es, ⟨?_, rfl, fun _ => left⟩, body, rfl⟩
  rw [List.append_assoc]
  rfl

theorem members_sound (sound : Sound value) {n : Nat} {cs : List Char} {ms : List (List Nat × Tree)}
    {rest : List Nat} (read : JsonReader.members strictUnits value n (units cs) = .ok (ms, rest))
    (paired : escapesPaired cs = true) :
    ∃ inside es ps, Took cs (inside ++ ['\x7d']) es rest ∧ Derives (.members ps) inside ∧
      ms = unitMembers ps := by
  induction n generalizing cs ms with
  | zero => cases read
  | succ n ih =>
      rw [JsonReader.members] at read
      obtain ⟨before, es₀, hbefore, tookBefore⟩ := skipWs_sound cs
      rw [tookBefore.2.1] at read
      split at read
      · cases read
      rename_i u₀ tail₀ shape₀
      split_ifs at read with quote
      · obtain ⟨es₁, tookQuote⟩ := took_unit (c := '"') (by decide) (quote ▸ shape₀) (by decide)
        rw [tookQuote.2.1] at read
        obtain ⟨⟨key, behind⟩, string, read⟩ := bind_ok_iff.mp read
        have paired₁ := tookQuote.2.2 (tookBefore.2.2 paired)
        obtain ⟨raw, ds, es₂, tookKey, hkey, rfl⟩ := string_sound string paired₁
        dsimp only at read
        obtain ⟨middle, es₃, hmiddle, tookMiddle⟩ := skipWs_sound es₂
        rw [tookKey.2.1, tookMiddle.2.1] at read
        split at read
        · cases read
        rename_i u₁ tail₁ shape₁
        split_ifs at read with colon
        · obtain ⟨es₄, tookColon⟩ := took_unit (c := ':') (by decide) (colon ▸ shape₁) (by decide)
          rw [tookColon.2.1] at read
          obtain ⟨⟨t, behind⟩, first, read⟩ := bind_ok_iff.mp read
          have head := tookBefore.trans (tookQuote.trans (tookKey.trans (tookMiddle.trans tookColon)))
          obtain ⟨gap, text, after, es₅, v, hgap, derives, hafter, rfl, tookValue⟩ :=
            sound.spaced first (head.2.2 paired)
          have took := head.trans tookValue
          dsimp only at read
          rw [tookValue.2.1] at read
          split at read
          · cases read
          rename_i u₂ tail₂ shape₂
          split_ifs at read with comma brace
          · obtain ⟨⟨ms', rest'⟩, later, read⟩ := bind_ok_iff.mp read
            cases read
            obtain ⟨es₆, tookComma⟩ := took_unit (c := ',') (by decide) (comma ▸ shape₂) (by decide)
            rw [tookComma.2.1] at later
            obtain ⟨inside, es₇, ps, tookRest, more, rfl⟩ :=
              ih later (tookComma.2.2 (took.2.2 paired))
            refine ⟨_, es₇, (String.ofList ds, v) :: ps, ?_,
              .nextMember hbefore hkey hmiddle hgap derives hafter more, ?_⟩
            · simpa only [List.append_assoc, List.cons_append, List.nil_append] using
                took.trans (tookComma.trans tookRest)
            · rw [unitMembers, String.toList_ofList]
          · cases read
            obtain ⟨es₆, tookBrace⟩ := took_unit (c := '\x7d') (by decide) (brace ▸ shape₂) (by decide)
            refine ⟨_, es₆, [(String.ofList ds, v)], ?_,
              .lastMember hbefore hkey hmiddle hgap derives hafter, ?_⟩
            · simpa only [List.append_assoc, List.cons_append, List.nil_append] using
                took.trans tookBrace
            · rw [unitMembers, String.toList_ofList]
              rfl

theorem array_sound (sound : Sound value) {cs : List Char} {t : Tree} {rest : List Nat}
    (read : JsonReader.array value (units cs) = .ok (t, rest)) (paired : escapesPaired cs = true) :
    ∃ ds es v, Took cs ds es rest ∧ Derives (.value v) ('[' :: ds) ∧ t = unitTree v := by
  rw [JsonReader.array] at read
  obtain ⟨before, es, hbefore, took⟩ := skipWs_sound cs
  rw [took.2.1] at read
  split at read
  · cases read
  rename_i u tail shape
  split_ifs at read with bracket
  · cases read
    obtain ⟨fs, tookBracket⟩ := took_unit (c := ']') (by decide) (bracket ▸ shape) (by decide)
    exact ⟨_, fs, .array [], took.trans tookBracket, .emptyArray hbefore, rfl⟩
  · obtain ⟨⟨ts, behind⟩, filled, read⟩ := bind_ok_iff.mp read
    cases read
    obtain ⟨inside, fs, vs, tookAll, derives, rfl⟩ := elements_sound sound filled paired
    exact ⟨_, fs, .array vs, tookAll, .array derives, rfl⟩

theorem object_sound (sound : Sound value) {cs : List Char} {t : Tree} {rest : List Nat}
    (read : JsonReader.object strictUnits value (units cs) = .ok (t, rest))
    (paired : escapesPaired cs = true) :
    ∃ ds es v, Took cs ds es rest ∧ Derives (.value v) ('\x7b' :: ds) ∧ t = unitTree v := by
  rw [JsonReader.object] at read
  obtain ⟨before, es, hbefore, took⟩ := skipWs_sound cs
  rw [took.2.1] at read
  split at read
  · cases read
  rename_i u tail shape
  split_ifs at read with brace
  · cases read
    obtain ⟨fs, tookBrace⟩ := took_unit (c := '\x7d') (by decide) (brace ▸ shape) (by decide)
    exact ⟨_, fs, .object [], took.trans tookBrace, .emptyObject hbefore, rfl⟩
  · obtain ⟨⟨ms, behind⟩, filled, read⟩ := bind_ok_iff.mp read
    cases read
    obtain ⟨inside, fs, ps, tookAll, derives, rfl⟩ := members_sound sound filled paired
    exact ⟨_, fs, .object ps, tookAll, .object derives, rfl⟩

theorem value_sound_of {depth : Nat}
    (inside : ∀ m, depth = m + 1 → Sound (JsonReader.value strictUnits m)) :
    Sound (JsonReader.value strictUnits depth) := by
  intro cs t rest read paired
  cases shape : units cs with
  | nil =>
      rw [shape, JsonReader.value.eq_def] at read
      cases read
  | cons u tail =>
      rw [shape, JsonReader.value.eq_def] at read
      dsimp only at read
      split_ifs at read with quote bracket brace
      · obtain ⟨es, took⟩ := took_unit (c := '"') (by decide) (quote ▸ shape) (by decide)
        rw [took.2.1] at read
        obtain ⟨⟨us, behind⟩, string, read⟩ := bind_ok_iff.mp read
        cases read
        obtain ⟨raw, ds, fs, tookString, body, rfl⟩ := string_sound string (took.2.2 paired)
        refine ⟨_, fs, _, took.trans tookString, .string body, ?_⟩
        rw [unitTree, String.toList_ofList]
      · obtain ⟨es, took⟩ := took_unit (c := '[') (by decide) (bracket ▸ shape) (by decide)
        split at read
        · cases read
        · rw [took.2.1] at read
          obtain ⟨ds, fs, v, tookInside, derives, rfl⟩ :=
            array_sound (inside _ rfl) read (took.2.2 paired)
          exact ⟨_, fs, v, took.trans tookInside, derives, rfl⟩
      · obtain ⟨es, took⟩ := took_unit (c := '\x7b') (by decide) (brace ▸ shape) (by decide)
        split at read
        · cases read
        · rw [took.2.1] at read
          obtain ⟨ds, fs, v, tookInside, derives, rfl⟩ :=
            object_sound (inside _ rfl) read (took.2.2 paired)
          exact ⟨_, fs, v, took.trans tookInside, derives, rfl⟩
      · rw [← shape] at read
        exact scalar_sound read

/-- What is read of a text whose escapes are paired, the grammar derives. -/
theorem value_sound (depth : Nat) : Sound (JsonReader.value strictUnits depth) := by
  induction depth with
  | zero => exact value_sound_of nofun
  | succ inner ih =>
      refine value_sound_of fun m same => ?_
      cases same
      exact ih

theorem read_sound {depth : Nat} {cs : List Char} {t : Tree}
    (read : JsonReader.read strictUnits depth (units cs) = .ok t) (paired : escapesPaired cs = true) :
    ∃ v, Rfc8259.Text cs v ∧ t = unitTree v := by
  obtain ⟨⟨t', rest⟩, took, ended⟩ := bind_ok_iff.mp read
  obtain ⟨before, text, after, es, v, hbefore, derives, hafter, rfl, whole⟩ :=
    (value_sound depth).spaced took paired
  dsimp only at ended
  split_ifs at ended with space
  cases ended
  have nothing : es = [] := units_eq_nil (whole.2.1.symm.trans space)
  refine ⟨v, ⟨before, text, after, ?_, hbefore, derives, hafter⟩, rfl⟩
  rw [whole.1, nothing, List.append_nil]

/-! ## Texts of the grammar are read -/

theorem ws_units {ws : List Char} (space : Rfc8259.Ws ws) : JsonReader.Ws (units ws) := by
  have narrow : ∀ c ∈ ws, c.toNat < 0x80 := by
    intro c inside
    have white := space c inside
    simp only [Rfc8259.isWs, Bool.or_eq_true, decide_eq_true_eq] at white
    rcases white with ((rfl | rfl) | rfl) | rfl <;> decide
  rw [units_flat ⟨narrow, ws_plain space⟩]
  intro n inside
  obtain ⟨c, among, rfl⟩ := List.mem_map.mp inside
  rw [isWs_toNat]
  exact space c among

theorem simpleEscape?_units {e c : Char} (found : Rfc8259.simpleEscape? e = some c) :
    JsonReader.simpleEscape? e.toNat = some c.toNat ∧ e.toNat < 0x10000 := by
  unfold Rfc8259.simpleEscape? at found
  split at found <;> cases found <;> exact ⟨rfl, by decide⟩

/-- The escape of a unit. -/
theorem hex4_piece {hex : List Char} {u : Nat} (unit : Hex4 hex u) :
    Piece strictUnits (0x5C :: 0x75 :: points hex) u := by
  cases unit with
  | mk ha hb hc hd =>
      refine .unicode ?_ fun joins => nomatch joins
      exact Option.bind_eq_some_iff.mpr ⟨_, ha, Option.bind_eq_some_iff.mpr ⟨_, hb,
        Option.bind_eq_some_iff.mpr ⟨_, hc, Option.bind_eq_some_iff.mpr ⟨_, hd, rfl⟩⟩⟩⟩

theorem element_pieces {raw : List Char} {c : Char} (element : Element raw c) :
    Pieces strictUnits (units raw) (units [c]) := by
  have escaped {hex : List Char} {u : Nat} (unit : Hex4 hex u) (rest : List Char) :
      units ('\\' :: 'u' :: (hex ++ rest)) = 0x5C :: 0x75 :: (points hex ++ units rest) := by
    rw [units_narrow (by decide), units_narrow (by decide), units_ascii (hex4_narrow unit)]
    rfl
  cases element with
  | plain notQuote notEscape visible =>
      by_cases narrow : c.toNat < 0x10000
      · rw [units_narrow narrow, units_nil]
        exact .single (.plain (fun same => notQuote (Char.toNat_inj.mp same))
          (fun same => notEscape (Char.toNat_inj.mp same)) visible)
      · obtain ⟨h, l, shape, isHigh, isLow, _⟩ := units_wide (Nat.le_of_not_lt narrow) []
        rw [high, Bool.and_eq_true, decide_eq_true_eq, decide_eq_true_eq] at isHigh
        rw [low, Bool.and_eq_true, decide_eq_true_eq, decide_eq_true_eq] at isLow
        rw [shape, units_nil]
        have first : Piece strictUnits [h] h := .plain (by omega) (by omega) (by omega)
        have second : Piece strictUnits [l] l := .plain (by omega) (by omega) (by omega)
        exact (Pieces.single first).append (Pieces.single second)
  | @escape e _ found =>
      obtain ⟨value, narrow⟩ := simpleEscape?_units found
      rw [units_narrow (by decide), units_narrow narrow, units_nil,
        units_narrow (simpleEscape?_narrow found), units_nil]
      exact .single (.escape value)
  | @unicode hex _ unit =>
      have small := unit.lt
      have shape := escaped unit []
      rw [List.append_nil, units_nil, List.append_nil] at shape
      rw [shape, units_narrow (by omega), units_nil]
      exact .single (hex4_piece unit)
  | @pair hexHigh hexLow h l _ hhigh hlow highRange lowRange value =>
      have isHigh : high h = true := by
        rw [high, Bool.and_eq_true, decide_eq_true_eq, decide_eq_true_eq]
        exact highRange
      have isLow : low l = true := by
        rw [low, Bool.and_eq_true, decide_eq_true_eq, decide_eq_true_eq]
        exact lowRange
      obtain ⟨d, single, value'⟩ := joined_char isHigh isLow
      have same : c = d := Char.toNat_inj.mp (value.trans value'.symm)
      have second := escaped hlow []
      rw [List.append_nil, units_nil, List.append_nil] at second
      rw [escaped hhigh, second, same, single]
      exact (Pieces.single (hex4_piece hhigh)).append (Pieces.single (hex4_piece hlow))

theorem body_pieces {raw cs : List Char} (body : Body raw cs) : Pieces strictUnits (units raw) (units cs) := by
  induction body with
  | nil => exact .nil
  | @cons raw rest c cs first _ ih =>
      have split : units (c :: cs) = units [c] ++ units cs := units_append [c] cs
      rw [units_append, split]
      exact (element_pieces first).append ih

/-- What a production denotes over units. -/
def unitCategory : Rfc8259.Category → JsonReader.Category
  | .value v => .value (unitTree v)
  | .elements items => .elements (unitTrees items)
  | .members pairs => .members (unitMembers pairs)

/-- Every reader that nests deep enough reads what the grammar derives. -/
theorem derives_spelled {category : Rfc8259.Category} {cs : List Char} (derives : Derives category cs) :
    ∃ depth, ∀ n, depth ≤ n → Spelled strictUnits n (unitCategory category) (units cs) := by
  have wrapped {open_ close : Char} (first : open_.toNat < 0x10000) (last : close.toNat < 0x10000)
      (inside : List Char) : units (open_ :: (inside ++ [close])) =
        open_.toNat :: (units inside ++ [close.toNat]) := by
    rw [units_narrow first, units_append, units_narrow last, units_nil]
  induction derives with
  | null => exact ⟨0, fun n _ => .null⟩
  | true => exact ⟨0, fun n _ => .true⟩
  | false => exact ⟨0, fun n _ => .false⟩
  | @number cs token =>
      refine ⟨0, fun n _ => ?_⟩
      have flat := number_flat token
      rw [unitCategory, unitTree, String.toList_ofList, units_flat flat]
      exact .number token rfl
  | @string raw cs body =>
      refine ⟨0, fun n _ => ?_⟩
      rw [wrapped (by decide) (by decide), unitCategory, unitTree, String.toList_ofList]
      exact .string (body_pieces body)
  | emptyArray space =>
      refine ⟨1, fun n deep => ?_⟩
      obtain ⟨m, rfl⟩ : ∃ m, n = m + 1 := ⟨n - 1, by omega⟩
      rw [wrapped (by decide) (by decide)]
      exact .emptyArray (ws_units space)
  | array _ ih =>
      obtain ⟨depth, spelled⟩ := ih
      refine ⟨depth + 1, fun n deep => ?_⟩
      obtain ⟨m, rfl⟩ : ∃ m, n = m + 1 := ⟨n - 1, by omega⟩
      rw [wrapped (by decide) (by decide)]
      exact .array (spelled m (by omega))
  | emptyObject space =>
      refine ⟨1, fun n deep => ?_⟩
      obtain ⟨m, rfl⟩ : ∃ m, n = m + 1 := ⟨n - 1, by omega⟩
      rw [wrapped (by decide) (by decide)]
      exact .emptyObject (ws_units space)
  | object _ ih =>
      obtain ⟨depth, spelled⟩ := ih
      refine ⟨depth + 1, fun n deep => ?_⟩
      obtain ⟨m, rfl⟩ : ∃ m, n = m + 1 := ⟨n - 1, by omega⟩
      rw [wrapped (by decide) (by decide)]
      exact .object (spelled m (by omega))
  | lastElement hbefore _ hafter ih =>
      obtain ⟨depth, spelled⟩ := ih
      refine ⟨depth, fun n deep => ?_⟩
      rw [units_append, units_append]
      exact .lastElement (ws_units hbefore) (spelled n deep) (ws_units hafter)
  | nextElement hbefore _ hafter _ ih later =>
      obtain ⟨depth, spelled⟩ := ih
      obtain ⟨depth', spelled'⟩ := later
      refine ⟨max depth depth', fun n deep => ?_⟩
      rw [units_append, units_append, units_append, units_narrow (by decide)]
      exact .nextElement (ws_units hbefore) (spelled n (by omega)) (ws_units hafter) (spelled' n (by omega))
  | @lastMember before raw key middle gap text after v hbefore hkey hmiddle hgap _ hafter ih =>
      obtain ⟨depth, spelled⟩ := ih
      refine ⟨depth, fun n deep => ?_⟩
      rw [units_append, units_narrow (by decide), units_append, units_narrow (by decide), units_append,
        units_narrow (by decide), units_append, units_append, unitCategory, unitMembers,
        String.toList_ofList]
      exact .lastMember (ws_units hbefore) (body_pieces hkey) (ws_units hmiddle) (ws_units hgap)
        (spelled n deep) (ws_units hafter)
  | @nextMember before raw key middle gap text after rest v pairs hbefore hkey hmiddle hgap _ hafter _ ih later =>
      obtain ⟨depth, spelled⟩ := ih
      obtain ⟨depth', spelled'⟩ := later
      refine ⟨max depth depth', fun n deep => ?_⟩
      rw [units_append, units_narrow (by decide), units_append, units_narrow (by decide), units_append,
        units_narrow (by decide), units_append, units_append, units_append, units_narrow (by decide),
        unitCategory, unitMembers, String.toList_ofList]
      exact .nextMember (ws_units hbefore) (body_pieces hkey) (ws_units hmiddle) (ws_units hgap)
        (spelled n (by omega)) (ws_units hafter) (spelled' n (by omega))

theorem text_read {cs : List Char} {v : Json} (text : Rfc8259.Text cs v) :
    ∃ depth, ∀ n, depth ≤ n → JsonReader.read strictUnits n (units cs) = .ok (unitTree v) := by
  obtain ⟨before, inside, after, rfl, hbefore, derives, hafter⟩ := text
  obtain ⟨depth, spelled⟩ := derives_spelled derives
  refine ⟨depth, fun n deep => ?_⟩
  rw [units_append, units_append]
  exact (spelled n deep).read (JsonReader.standard_of_plain rfl) (ws_units hbefore) (ws_units hafter)

end SanDbOxFormal.Library.JsonUtf16
