import SanDbOxFormal.TypeScript.Encode
import SanDbOxFormal.TypeScript.Tokens

/-!
# What `JSON.stringify` prints

It prints no lone surrogate, so the bytes of the text decode to the text, and the text
spells the value that was printed.
-/

namespace SanDbOxFormal.TypeScript

open SanDbOxFormal.Library
open SanDbOxFormal.Library.Utf16
open SanDbOxFormal.Library.JsonReader (Piece Pieces Spelled Tree points strictUnits)

/-! ## Whole texts -/

/-- The bytes of a text without lone surrogates decode to the text. -/
theorem decodeText_encodeText {text : JsString} (whole : Whole text)
    (unmarked : text.head? ≠ some 0xFEFF) : decodeText (encodeText text) = .ok text := by
  obtain ⟨cs, rfl⟩ := whole
  have decoded : Utf8.decode? (Utf8.encode cs) = some (String.ofList cs) :=
    (Utf8.decode?_eq_some_iff _ _).mpr (Utf8.bytes_ofList cs).symm
  rw [encodeText, characters_encode, decodeText, decoded]
  dsimp only
  rw [String.toList_ofList, if_neg unmarked]

/-! ## Strings -/

theorem hexUnit_spec {n : Nat} (small : n < 16) :
    JsonReader.hexValue? (hexUnit n).toNat = some n ∧ (hexUnit n).toNat < 0x80 := by
  revert n
  decide

theorem unicodeEscape_narrow (u : UInt16) : ∀ v ∈ unicodeEscape u, v.toNat < 0x80 := by
  have range := u.toNat_lt
  have digit {n : Nat} (small : n < 16) : (hexUnit n).toNat < 0x80 := (hexUnit_spec small).2
  refine List.forall_mem_cons.mpr ⟨by decide, List.forall_mem_cons.mpr ⟨by decide, ?_⟩⟩
  exact List.forall_mem_cons.mpr ⟨digit (by omega), List.forall_mem_cons.mpr ⟨digit (by omega),
    List.forall_mem_cons.mpr ⟨digit (by omega), List.forall_mem_singleton.mpr (digit (by omega))⟩⟩⟩

theorem unicodeEscape_piece (u : UInt16) :
    Piece strictUnits ((unicodeEscape u).map UInt16.toNat) u.toNat := by
  have range := u.toNat_lt
  have value : ((u.toNat / 0x1000 * 16 + u.toNat / 0x100 % 0x10) * 16 + u.toNat / 0x10 % 0x10) * 16 +
      u.toNat % 0x10 = u.toNat := by omega
  refine .unicode ?_ nofun
  rw [JsonReader.hex4?, (hexUnit_spec (by omega)).1, (hexUnit_spec (by omega)).1,
    (hexUnit_spec (by omega)).1, (hexUnit_spec (by omega)).1]
  exact congrArg some value

/-- A unit on its own is spelled, without lone surrogates. -/
theorem quoteUnit_spec (u : UInt16) :
    Piece strictUnits ((quoteUnit u).map UInt16.toNat) u.toNat ∧ Whole (quoteUnit u) := by
  unfold quoteUnit
  split_ifs with quote backslash b f n r t escaped
  · subst quote
    exact ⟨.escape rfl, whole_of_all rfl⟩
  · subst backslash
    exact ⟨.escape rfl, whole_of_all rfl⟩
  · subst b
    exact ⟨.escape rfl, whole_of_all rfl⟩
  · subst f
    exact ⟨.escape rfl, whole_of_all rfl⟩
  · subst n
    exact ⟨.escape rfl, whole_of_all rfl⟩
  · subst r
    exact ⟨.escape rfl, whole_of_all rfl⟩
  · subst t
    exact ⟨.escape rfl, whole_of_all rfl⟩
  · exact ⟨unicodeEscape_piece u, whole_ascii (unicodeEscape_narrow u)⟩
  · simp only [Bool.or_eq_true, not_or, Bool.not_eq_true, decide_eq_true_eq] at escaped
    have notQuote : u.toNat ≠ 0x22 := fun same => quote (UInt16.toNat_inj.mp same)
    have notEscape : u.toNat ≠ 0x5C := fun same => backslash (UInt16.toNat_inj.mp same)
    exact ⟨.plain notQuote notEscape (by omega), whole_unit escaped.1.2 escaped.2⟩

theorem quoteUnits_cons (u v : UInt16) (rest : JsString) :
    quoteUnits (u :: v :: rest) =
      if isHigh u && isLow v then u :: v :: quoteUnits rest
      else quoteUnit u ++ quoteUnits (v :: rest) := rfl

/-- The units of a pair stand for themselves. -/
theorem half_piece {u : UInt16} (half : 0xD800 ≤ u.toNat) :
    Piece strictUnits [u.toNat] u.toNat :=
  .plain (by omega) (by omega) (by omega)

theorem quoteUnits_spec (s : JsString) :
    Pieces strictUnits ((quoteUnits s).map UInt16.toNat) (s.map UInt16.toNat) ∧
      Whole (quoteUnits s) := by
  induction s using quoteUnits.induct with
  | case1 => exact ⟨.nil, .nil⟩
  | case2 u => exact ⟨.single (quoteUnit_spec u).1, (quoteUnit_spec u).2⟩
  | case3 u v rest pair ih =>
      have halves := Bool.and_eq_true_iff.mp pair
      have high : 0xD800 ≤ u.toNat := by
        have range := halves.1
        rw [isHigh, Bool.and_eq_true, decide_eq_true_eq] at range
        exact range.1
      have low : 0xD800 ≤ v.toNat := by
        have range := halves.2
        rw [isLow, Bool.and_eq_true, decide_eq_true_eq] at range
        omega
      rw [quoteUnits_cons, if_pos pair]
      exact ⟨.cons (half_piece high) (.cons (half_piece low) ih.1),
        (whole_pair halves.1 halves.2).append ih.2⟩
  | case4 u v rest alone ih =>
      obtain ⟨piece, whole⟩ := quoteUnit_spec u
      rw [quoteUnits_cons, if_neg alone, List.map_append]
      exact ⟨.cons piece ih.1, whole.append ih.2⟩

theorem quote_spec (s : JsString) (n : Nat) :
    Spelled strictUnits n (.value (.string (s.map UInt16.toNat))) ((quote s).map UInt16.toNat) ∧
      Whole (quote s) := by
  obtain ⟨pieces, whole⟩ := quoteUnits_spec s
  have mark : Whole [(0x22 : UInt16)] := whole_of_all rfl
  refine ⟨?_, mark.append (whole.append mark)⟩
  rw [quote, List.map_cons, List.map_append]
  exact .string pieces

/-! ## Values -/

mutual

/-- Every raw token is a number. -/
def Outgoing.Tokens : Outgoing → Prop
  | .raw token => Rfc8259.Number token
  | .array items => TokensItems items
  | .object members => TokensMembers members
  | _ => True

def TokensItems : List Outgoing → Prop
  | [] => True
  | v :: rest => v.Tokens ∧ TokensItems rest

def TokensMembers : List (JsString × Outgoing) → Prop
  | [] => True
  | (_, v) :: rest => v.Tokens ∧ TokensMembers rest

end

mutual

/-- How deep a value nests. -/
def Outgoing.depth : Outgoing → Nat
  | .array items => depthItems items + 1
  | .object members => depthMembers members + 1
  | _ => 0

def depthItems : List Outgoing → Nat
  | [] => 0
  | v :: rest => max v.depth (depthItems rest)

def depthMembers : List (JsString × Outgoing) → Nat
  | [] => 0
  | (_, v) :: rest => max v.depth (depthMembers rest)

end

mutual

/-- The value that the text of a value denotes. -/
def Outgoing.tree : Outgoing → Tree
  | .null => .null
  | .bool b => .bool b
  | .raw token => .number (points token)
  | .string s => .string (s.map UInt16.toNat)
  | .array items => .array (treeItems items)
  | .object members => .object (treeMembers members)

def treeItems : List Outgoing → List Tree
  | [] => []
  | v :: rest => v.tree :: treeItems rest

def treeMembers : List (JsString × Outgoing) → List (List Nat × Tree)
  | [] => []
  | (key, v) :: rest => (key.map UInt16.toNat, v.tree) :: treeMembers rest

end

theorem ascii_toNat {cs : List Char} (narrow : ∀ c ∈ cs, c.toNat < 0x80) :
    (ascii cs).map UInt16.toNat = points cs := by
  rw [ascii, points, List.map_map]
  refine List.map_congr_left fun c inside => Nat.mod_eq_of_lt ?_
  have range := narrow c inside
  omega

theorem ascii_whole {cs : List Char} (narrow : ∀ c ∈ cs, c.toNat < 0x80) : Whole (ascii cs) := by
  refine whole_ascii fun u inside => ?_
  obtain ⟨c, among, rfl⟩ := List.mem_map.mp inside
  have range := narrow c among
  rw [UInt16.toNat_ofNat']
  omega

theorem noSpace : JsonReader.Ws [] := fun _ inside => absurd inside List.not_mem_nil

mutual

/-- The text of a value spells its tree, without lone surrogates. -/
theorem print_spec : ∀ (v : Outgoing), v.Tokens → ∀ n, v.depth ≤ n →
    Spelled strictUnits n (.value v.tree) ((print v).map UInt16.toNat) ∧ Whole (print v)
  | .null, _, _, _ => by
      rw [print]
      exact ⟨.null, whole_of_all rfl⟩
  | .bool true, _, _, _ => by
      rw [print]
      exact ⟨.true, whole_of_all rfl⟩
  | .bool false, _, _, _ => by
      rw [print]
      exact ⟨.false, whole_of_all rfl⟩
  | .raw token, number, n, _ => by
      have narrow : ∀ c ∈ token, c.toNat < 0x80 := fun c inside =>
        (JsonReader.number_ascii number c inside).2
      rw [print, ascii_toNat narrow]
      exact ⟨.number number rfl, ascii_whole narrow⟩
  | .string s, _, n, _ => by
      rw [print]
      exact quote_spec s n
  | .array [], _, n, deep => by
      obtain ⟨m, rfl⟩ : ∃ m, n = m + 1 := ⟨n - 1, by rw [Outgoing.depth] at deep; omega⟩
      rw [print, printItems]
      exact ⟨.emptyArray noSpace, whole_of_all rfl⟩
  | .array (v :: rest), tokens, n, deep => by
      rw [Outgoing.depth] at deep
      obtain ⟨m, rfl⟩ : ∃ m, n = m + 1 := ⟨n - 1, by omega⟩
      obtain ⟨spelled, whole⟩ := printItems_spec v rest tokens m (by omega)
      rw [print, List.map_cons, List.map_append]
      exact ⟨.array spelled, (whole_unit (u := 0x5B) rfl rfl).append
        (whole.append (whole_of_all rfl))⟩
  | .object [], _, n, deep => by
      obtain ⟨m, rfl⟩ : ∃ m, n = m + 1 := ⟨n - 1, by rw [Outgoing.depth] at deep; omega⟩
      rw [print, printMembers]
      exact ⟨.emptyObject noSpace, whole_of_all rfl⟩
  | .object ((key, v) :: rest), tokens, n, deep => by
      rw [Outgoing.depth] at deep
      obtain ⟨m, rfl⟩ : ∃ m, n = m + 1 := ⟨n - 1, by omega⟩
      obtain ⟨spelled, whole⟩ := printMembers_spec key v rest tokens m (by omega)
      rw [print, List.map_cons, List.map_append]
      exact ⟨.object spelled, (whole_unit (u := 0x7B) rfl rfl).append
        (whole.append (whole_of_all rfl))⟩
termination_by v => sizeOf v

theorem printItems_spec : ∀ (v : Outgoing) (rest : List Outgoing), TokensItems (v :: rest) →
    ∀ n, depthItems (v :: rest) ≤ n →
      Spelled strictUnits n (.elements (treeItems (v :: rest)))
        ((printItems (v :: rest)).map UInt16.toNat) ∧ Whole (printItems (v :: rest))
  | v, [], tokens, n, deep => by
      rw [depthItems] at deep
      obtain ⟨spelled, whole⟩ := print_spec v tokens.1 n (by omega)
      have one := Spelled.lastElement noSpace spelled noSpace
      rw [List.nil_append, List.append_nil] at one
      exact ⟨one, whole⟩
  | v, w :: rest, tokens, n, deep => by
      rw [depthItems] at deep
      obtain ⟨spelled, whole⟩ := print_spec v tokens.1 n (by omega)
      obtain ⟨more, wholeMore⟩ := printItems_spec w rest tokens.2 n (by omega)
      have one := Spelled.nextElement noSpace spelled noSpace more
      rw [List.nil_append, List.nil_append] at one
      have shape : printItems (v :: w :: rest) = print v ++ 0x2C :: printItems (w :: rest) := by
        rw [printItems]
        exact nofun
      rw [shape, List.map_append, List.map_cons]
      exact ⟨one, whole.append ((whole_unit (u := 0x2C) rfl rfl).append wholeMore)⟩
termination_by v rest => sizeOf (v :: rest)

theorem printMembers_spec : ∀ (key : JsString) (v : Outgoing) (rest : List (JsString × Outgoing)),
    TokensMembers ((key, v) :: rest) → ∀ n, depthMembers ((key, v) :: rest) ≤ n →
      Spelled strictUnits n (.members (treeMembers ((key, v) :: rest)))
        ((printMembers ((key, v) :: rest)).map UInt16.toNat) ∧
      Whole (printMembers ((key, v) :: rest))
  | key, v, [], tokens, n, deep => by
      rw [depthMembers] at deep
      obtain ⟨spelled, whole⟩ := print_spec v tokens.1 n (by omega)
      have one := Spelled.lastMember noSpace (quoteUnits_spec key).1 noSpace noSpace spelled noSpace
      rw [List.nil_append, List.nil_append, List.nil_append, List.append_nil] at one
      refine ⟨?_, (quote_spec key n).2.append
        ((whole_unit (u := 0x3A) rfl rfl).append whole)⟩
      rw [printMembers, quote, List.cons_append, List.append_assoc, List.map_cons, List.map_append]
      exact one
  | key, v, (key', w) :: rest, tokens, n, deep => by
      rw [depthMembers] at deep
      obtain ⟨spelled, whole⟩ := print_spec v tokens.1 n (by omega)
      obtain ⟨more, wholeMore⟩ := printMembers_spec key' w rest tokens.2 n (by omega)
      have one := Spelled.nextMember noSpace (quoteUnits_spec key).1 noSpace noSpace spelled noSpace
        more
      rw [List.nil_append, List.nil_append, List.nil_append, List.nil_append] at one
      have shape : printMembers ((key, v) :: (key', w) :: rest) =
          quote key ++ 0x3A :: (print v ++ 0x2C :: printMembers ((key', w) :: rest)) := by
        rw [printMembers]
        exact nofun
      rw [shape]
      refine ⟨?_, (quote_spec key n).2.append ((whole_unit (u := 0x3A) rfl rfl).append
        (whole.append ((whole_unit (u := 0x2C) rfl rfl).append wholeMore)))⟩
      rw [quote, List.cons_append, List.append_assoc, List.map_cons, List.map_append,
        List.singleton_append, List.map_cons, List.map_cons, List.map_append, List.map_cons]
      exact one
termination_by key v rest => sizeOf ((key, v) :: rest)

end

end SanDbOxFormal.TypeScript
