import SanDbOxFormal.Java.Bytes
import SanDbOxFormal.Java.Codec.JsonParserReads
import SanDbOxFormal.Library.JsonUtf16

/-!
# What the Java driver writes

The bytes of a string are the UTF-8 of its characters, with a question mark for each
lone surrogate.  What `JsonWriter` writes of a tree spells the tree, but for those.
-/

namespace SanDbOxFormal.Java

open SanDbOxFormal.Library

/-- The characters that `getBytes` encodes. -/
def sent : JString → List Char
  | [] => []
  | [u] => [if isHigh u || isLow u then '?' else Char.ofNat u.toNat]
  | u :: v :: rest =>
      if isHigh u then
        if isLow v then Utf16.joined u v :: sent rest else '?' :: sent (v :: rest)
      else (if isLow u then '?' else Char.ofNat u.toNat) :: sent (v :: rest)

theorem sent_pair {u v : UInt16} (high : isHigh u = true) (low : isLow v = true) (rest : JString) :
    sent (u :: v :: rest) = Utf16.joined u v :: sent rest := by
  rw [sent, if_pos high, if_pos low]

/-- A high surrogate with no low one behind it. -/
theorem sent_high {u : UInt16} {rest : JString} (high : isHigh u = true)
    (alone : ∀ v, rest.head? = some v → isLow v = false) : sent (u :: rest) = '?' :: sent rest := by
  cases rest with
  | nil => rw [sent.eq_2, high, Bool.true_or, if_pos rfl, sent.eq_1]
  | cons v more => rw [sent, if_pos high, alone v rfl, if_neg Bool.false_ne_true]

theorem sent_low {u : UInt16} (high : isHigh u = false) (low : isLow u = true) (rest : JString) :
    sent (u :: rest) = '?' :: sent rest := by
  cases rest with
  | nil => rw [sent.eq_2, low, Bool.or_true, if_pos rfl, sent.eq_1]
  | cons v more => rw [sent, if_neg (Bool.eq_false_iff.mp high), if_pos low]

theorem sent_single {u : UInt16} (high : isHigh u = false) (low : isLow u = false) (rest : JString) :
    sent (u :: rest) = Char.ofNat u.toNat :: sent rest := by
  cases rest with
  | nil => rw [sent.eq_2, high, low, Bool.or_self, if_neg Bool.false_ne_true, sent.eq_1]
  | cons v more =>
      rw [sent, if_neg (Bool.eq_false_iff.mp high), if_neg (Bool.eq_false_iff.mp low)]

/-- How a string starts, by what becomes of its first unit. -/
inductive Front : JString → Prop where
  | nil : Front []
  | pair {u v : UInt16} {rest : JString} (high : isHigh u = true) (low : isLow v = true) :
      Front (u :: v :: rest)
  | high {u : UInt16} {rest : JString} (high : isHigh u = true)
      (alone : ∀ v, rest.head? = some v → isLow v = false) : Front (u :: rest)
  | low {u : UInt16} {rest : JString} (high : isHigh u = false) (low : isLow u = true) : Front (u :: rest)
  | single {u : UInt16} {rest : JString} (high : isHigh u = false) (low : isLow u = false) :
      Front (u :: rest)

theorem front (s : JString) : Front s := by
  cases s with
  | nil => exact .nil
  | cons u rest =>
      cases high : isHigh u with
      | false =>
          cases low : isLow u with
          | false => exact .single high low
          | true => exact .low high low
      | true =>
          cases rest with
          | nil => exact .high high nofun
          | cons v more =>
              cases low : isLow v with
              | true => exact .pair high low
              | false =>
                  refine .high high fun w same => ?_
                  cases same
                  exact low

theorem getBytes_lone {u : UInt16} {rest : JString} (lone : sent (u :: rest) = '?' :: sent rest)
    (replaced : getBytes (u :: rest) = 0x3F :: getBytes rest)
    (ih : getBytes rest = Utf8.encode (sent rest)) : getBytes (u :: rest) = Utf8.encode (sent (u :: rest)) := by
  rw [lone, replaced, ih, Utf8.encode_cons]
  rfl

theorem single_char {u : UInt16} (high : isHigh u = false) (low : isLow u = false) :
    (Char.ofNat u.toNat).toNat = u.toNat := by
  have range := u.toNat_lt
  rw [isHigh, decide_eq_false_iff_not] at high
  rw [isLow, decide_eq_false_iff_not] at low
  refine (Char.toNat_ofNat _).trans (if_pos ?_)
  rw [Nat.isValidChar]
  omega

/-- `getBytes` encodes the characters that are sent. -/
theorem getBytes_sent (s : JString) : getBytes s = Utf8.encode (sent s) := by
  induction length : s.length using Nat.strong_induction_on generalizing s with
  | _ n ih =>
      subst length
      have shorter (rest : JString) (fewer : rest.length < s.length) := ih rest.length fewer rest rfl
      cases front s with
      | nil => rfl
      | @pair u v rest high low =>
          have isHigh' := high
          have isLow' := low
          rw [isHigh_eq] at isHigh'
          rw [isLow_eq] at isLow'
          rw [getBytes_pair high low, sent_pair high low, Utf8.encode_cons, pair_joined isHigh' isLow',
            shorter rest (by simp only [List.length_cons]; omega)]
      | @high u rest high alone =>
          refine getBytes_lone (sent_high high alone) ?_ (shorter rest (Nat.lt_succ_self _))
          cases rest with
          | nil => rw [getBytes.eq_2, high, Bool.true_or, if_pos rfl, getBytes.eq_1]
          | cons v more => rw [getBytes, if_pos high, alone v rfl, if_neg Bool.false_ne_true]
      | @low u rest high low =>
          refine getBytes_lone (sent_low high low rest) ?_ (shorter rest (Nat.lt_succ_self _))
          cases rest with
          | nil => rw [getBytes.eq_2, low, Bool.or_true, if_pos rfl, getBytes.eq_1]
          | cons v more => rw [getBytes, if_neg (Bool.eq_false_iff.mp high), if_pos low]
      | @single u rest high low =>
          rw [getBytes_single high low, sent_single high low, Utf8.encode_cons, ← encodeCodePoint_char,
            single_char high low, shorter rest (Nat.lt_succ_self _)]

/-- A text without lone surrogates is sent as it is. -/
theorem sent_encode (cs : List Char) : sent (Utf16.encode cs) = cs := by
  have bytes := getBytes_sent (Utf16.encode cs)
  rw [getBytes_encode] at bytes
  exact Utf8.encode_injective bytes.symm

/-- The string that the bytes of a string denote. -/
def asSent (s : JString) : JString := Utf16.encode (sent s)

theorem asSent_eq_iff (s : JString) : asSent s = s ↔ Utf16.Whole s := by
  constructor
  · intro same
    exact ⟨sent s, same.symm⟩
  · rintro ⟨cs, rfl⟩
    rw [asSent, sent_encode]

/-! ## Texts that lie between ASCII -/

/-- ASCII parts a string in two. -/
theorem sent_parts {u : UInt16} (ascii : u.toNat < 0x80) (a b : JString) :
    sent (a ++ u :: b) = sent a ++ Char.ofNat u.toNat :: sent b := by
  have notHigh : isHigh u = false := decide_eq_false (by omega)
  have notLow : isLow u = false := decide_eq_false (by omega)
  induction length : a.length using Nat.strong_induction_on generalizing a with
  | _ n ih =>
      subst length
      have shorter (rest : JString) (fewer : rest.length < a.length) := ih rest.length fewer rest rfl
      cases front a with
      | nil => rw [List.nil_append, sent_single notHigh notLow, sent, List.nil_append]
      | @pair x y rest high low =>
          rw [List.cons_append, List.cons_append, sent_pair high low, sent_pair high low,
            shorter rest (by simp only [List.length_cons]; omega), List.cons_append]
      | @high x rest high alone =>
          have behind : ∀ v, (rest ++ u :: b).head? = some v → isLow v = false := by
            intro v head
            cases rest with
            | nil =>
                cases head
                exact notLow
            | cons w more => exact alone v head
          rw [List.cons_append, sent_high high behind, sent_high high alone,
            shorter rest (Nat.lt_succ_self _), List.cons_append]
      | @low x rest high low =>
          rw [List.cons_append, sent_low high low, sent_low high low, shorter rest (Nat.lt_succ_self _),
            List.cons_append]
      | @single x rest high low =>
          rw [List.cons_append, sent_single high low, sent_single high low,
            shorter rest (Nat.lt_succ_self _), List.cons_append]

/-- A text whose characters do not depend on what stands on its sides. -/
def Sealed (s : JString) : Prop := ∀ a b, sent (a ++ (s ++ b)) = sent a ++ (sent s ++ sent b)

theorem Sealed.append {s t : JString} (first : Sealed s) (second : Sealed t) : Sealed (s ++ t) := by
  intro a b
  have inner := second [] b
  have both := first [] t
  rw [List.nil_append, sent, List.nil_append] at inner both
  rw [List.append_assoc, first a, inner, both, List.append_assoc]

/-- What ASCII encloses. -/
theorem Sealed.enclosed {u v : UInt16} (first : u.toNat < 0x80) (last : v.toNat < 0x80) (s : JString) :
    Sealed (u :: (s ++ [v])) ∧
      sent (u :: (s ++ [v])) = Char.ofNat u.toNat :: (sent s ++ [Char.ofNat v.toNat]) := by
  have whole : sent (u :: (s ++ [v])) = Char.ofNat u.toNat :: (sent s ++ [Char.ofNat v.toNat]) := by
    have outer := sent_parts first [] (s ++ [v])
    rw [List.nil_append, sent, List.nil_append] at outer
    rw [outer, sent_parts last s [], sent]
  refine ⟨fun a b => ?_, whole⟩
  rw [List.cons_append, sent_parts first, List.append_assoc, List.singleton_append,
    sent_parts last, whole, List.cons_append, List.append_assoc, List.singleton_append]

theorem Sealed.ascii {s : JString} (filled : s ≠ []) (narrow : ∀ u ∈ s, u.toNat < 0x80) : Sealed s := by
  induction s with
  | nil => exact absurd rfl filled
  | cons u rest ih =>
      obtain ⟨first, others⟩ := List.forall_mem_cons.mp narrow
      have single : Sealed [u] := by
        intro a b
        have alone := sent_parts first [] []
        rw [List.nil_append, sent, List.nil_append] at alone
        rw [List.singleton_append, sent_parts first, alone, List.singleton_append]
      cases rest with
      | nil => exact single
      | cons v more => exact single.append (ih (List.cons_ne_nil v more) others)

/-- ASCII is sent as it is. -/
theorem sent_ascii {s : JString} (narrow : ∀ u ∈ s, u.toNat < 0x80) : asSent s = s :=
  (asSent_eq_iff s).mpr (Utf16.whole_ascii narrow)

namespace Codec

open SanDbOxFormal.Java.Codec.JsonParser (nats treeOf treesOf membersOf)
open SanDbOxFormal.Library.JsonReader (Piece Pieces Spelled Tree strictUnits)

/-- The units that the bytes of a string denote. -/
def wire (s : JString) : List Nat := nats (asSent s)

theorem wire_pair {u v : UInt16} (high : isHigh u = true) (low : isLow v = true) (rest : JString) :
    wire (u :: v :: rest) = u.toNat :: v.toNat :: wire rest := by
  have isHigh' := high
  have isLow' := low
  rw [isHigh_eq] at isHigh'
  rw [isLow_eq] at isLow'
  rw [wire, asSent, sent_pair high low, Utf16.encode_cons, Utf16.units_joined isHigh' isLow']
  rfl

theorem wire_lone {u : UInt16} {rest : JString} (lone : sent (u :: rest) = '?' :: sent rest) :
    wire (u :: rest) = 0x3F :: wire rest := by
  rw [wire, asSent, lone]
  rfl

theorem wire_single {u : UInt16} (high : isHigh u = false) (low : isLow u = false) (rest : JString) :
    wire (u :: rest) = u.toNat :: wire rest := by
  have value := single_char high low
  have narrow : (Char.ofNat u.toNat).toNat < 0x10000 := Nat.lt_of_le_of_lt value.le u.toNat_lt
  rw [wire, asSent, sent_single high low, Utf16.encode_cons, Utf16.units, if_pos narrow, value,
    UInt16.ofNat_toNat]
  rfl

theorem wire_sealed {s : JString} (closed : Sealed s) (b : JString) : wire (s ++ b) = wire s ++ wire b := by
  have both := closed [] b
  rw [List.nil_append, sent, List.nil_append] at both
  rw [wire, asSent, both, Utf16.encode_append]
  exact List.map_append

theorem wire_ascii {s : JString} (narrow : ∀ u ∈ s, u.toNat < 0x80) : wire s = nats s :=
  congrArg nats (sent_ascii narrow)

theorem narrow_of_all {s : JString} (all : s.all (fun u => u.toNat < 0x80) = true) :
    ∀ u ∈ s, u.toNat < 0x80 :=
  fun u inside => of_decide_eq_true (List.all_eq_true.mp all u inside)

/-! ## Strings -/

/-- A surrogate stands for itself. -/
theorem writeUnit_surrogate {u : UInt16} (half : 0xD800 ≤ u.toNat) : writeUnit u = [u] := by
  have other {v : UInt16} (small : v.toNat < 0xD800) : ¬ u = v := by
    rintro rfl
    omega
  have visible : ¬ u < 0x20 := by
    rw [UInt16.lt_iff_toNat_lt]
    exact Nat.not_lt.mpr (Nat.le_trans (by decide) half)
  rw [writeUnit, if_neg (other (by decide)), if_neg (other (by decide)), if_neg (other (by decide)),
    if_neg (other (by decide)), if_neg (other (by decide)), if_neg (other (by decide)),
    if_neg (other (by decide)), if_neg visible]

theorem hexUnit_value {n : Nat} (small : n < 16) :
    JsonReader.hexValue? (hexUnit n).toNat = some n ∧ (hexUnit n).toNat < 0x80 := by
  revert n
  decide

theorem unicodeEscape_spec (u : UInt16) : Piece strictUnits (nats (unicodeEscape u)) u.toNat ∧
    ∀ v ∈ unicodeEscape u, v.toNat < 0x80 := by
  have range := u.toNat_lt
  have value : ((u.toNat / 0x1000 * 16 + u.toNat / 0x100 % 0x10) * 16 + u.toNat / 0x10 % 0x10) * 16 +
      u.toNat % 0x10 = u.toNat := by omega
  constructor
  · refine .unicode ?_ nofun
    rw [JsonReader.hex4?, (hexUnit_value (by omega)).1, (hexUnit_value (by omega)).1,
      (hexUnit_value (by omega)).1, (hexUnit_value (by omega)).1]
    exact congrArg some value
  · have digit {n : Nat} (small : n < 16) : (hexUnit n).toNat < 0x80 := (hexUnit_value small).2
    refine List.forall_mem_append.mpr ⟨narrow_of_all rfl, ?_⟩
    exact List.forall_mem_cons.mpr ⟨digit (by omega), List.forall_mem_cons.mpr ⟨digit (by omega),
      List.forall_mem_cons.mpr ⟨digit (by omega), List.forall_mem_singleton.mpr (digit (by omega))⟩⟩⟩

/-- What is written for a unit starts with the unit or a backslash, spells the unit, and
is ASCII or the unit itself. -/
theorem writeUnit_spec (u : UInt16) : Piece strictUnits (nats (writeUnit u)) u.toNat ∧
    (writeUnit u = [u] ∨ (∀ v ∈ writeUnit u, v.toNat < 0x80) ∧ (writeUnit u).head? = some 0x5C) := by
  unfold writeUnit
  split_ifs with quote backslash n r t b f control
  · subst quote
    exact ⟨.escape rfl, .inr ⟨narrow_of_all rfl, rfl⟩⟩
  · subst backslash
    exact ⟨.escape rfl, .inr ⟨narrow_of_all rfl, rfl⟩⟩
  · subst n
    exact ⟨.escape rfl, .inr ⟨narrow_of_all rfl, rfl⟩⟩
  · subst r
    exact ⟨.escape rfl, .inr ⟨narrow_of_all rfl, rfl⟩⟩
  · subst t
    exact ⟨.escape rfl, .inr ⟨narrow_of_all rfl, rfl⟩⟩
  · subst b
    exact ⟨.escape rfl, .inr ⟨narrow_of_all rfl, rfl⟩⟩
  · subst f
    exact ⟨.escape rfl, .inr ⟨narrow_of_all rfl, rfl⟩⟩
  · obtain ⟨piece, narrow⟩ := unicodeEscape_spec u
    exact ⟨piece, .inr ⟨narrow, rfl⟩⟩
  · have notQuote : u.toNat ≠ 0x22 := fun same => quote (UInt16.toNat_inj.mp same)
    have notEscape : u.toNat ≠ 0x5C := fun same => backslash (UInt16.toNat_inj.mp same)
    rw [UInt16.lt_iff_toNat_lt] at control
    exact ⟨.plain notQuote notEscape (Nat.le_of_not_lt control), .inl rfl⟩

/-- What is written of a string spells what is sent of it. -/
theorem writeUnits_pieces (s : JString) : Pieces strictUnits (wire (s.flatMap writeUnit)) (wire s) := by
  induction length : s.length using Nat.strong_induction_on generalizing s with
  | _ n ih =>
      subst length
      have shorter (rest : JString) (fewer : rest.length < s.length) := ih rest.length fewer rest rfl
      have surrogate {u : UInt16} (half : isHigh u = true ∨ isLow u = true) : 0xD800 ≤ u.toNat := by
        simp only [isHigh, isLow, decide_eq_true_eq] at half
        omega
      have question : Piece strictUnits [0x3F] 0x3F := .plain (by decide) (by decide) (by decide)
      have half {u : UInt16} (large : 0xD800 ≤ u.toNat) : Piece strictUnits [u.toNat] u.toNat :=
        .plain (by omega) (by omega) (by omega)
      cases front s with
      | nil => exact .nil
      | @pair u v rest high low =>
          have first := surrogate (.inl high)
          have second := surrogate (.inr low)
          rw [List.flatMap_cons, List.flatMap_cons, writeUnit_surrogate first, writeUnit_surrogate second,
            List.singleton_append, List.singleton_append, wire_pair high low, wire_pair high low]
          exact .cons (half first) (.cons (half second)
            (shorter rest (by simp only [List.length_cons]; omega)))
      | @high u rest high alone =>
          -- What is written behind the surrogate starts with no low one either.
          have behind : ∀ v, (rest.flatMap writeUnit).head? = some v → isLow v = false := by
            intro v head
            cases rest with
            | nil => cases head
            | cons w more =>
                rw [List.flatMap_cons] at head
                rcases (writeUnit_spec w).2 with itself | ⟨_, escape⟩
                · rw [itself] at head
                  exact alone v head
                · rw [List.head?_append, escape] at head
                  cases head
                  rfl
          rw [List.flatMap_cons, writeUnit_surrogate (surrogate (.inl high)), List.singleton_append,
            wire_lone (sent_high high behind), wire_lone (sent_high high alone)]
          exact .cons question (shorter rest (Nat.lt_succ_self _))
      | @low u rest high low =>
          rw [List.flatMap_cons, writeUnit_surrogate (surrogate (.inr low)), List.singleton_append,
            wire_lone (sent_low high low _), wire_lone (sent_low high low _)]
          exact .cons question (shorter rest (Nat.lt_succ_self _))
      | @single u rest high low =>
          obtain ⟨piece, itself | ⟨narrow, escape⟩⟩ := writeUnit_spec u
          · rw [itself] at piece
            rw [List.flatMap_cons, itself, List.singleton_append, wire_single high low,
              wire_single high low]
            exact .cons piece (shorter rest (Nat.lt_succ_self _))
          · have filled : writeUnit u ≠ [] := by
              intro none
              rw [none] at escape
              cases escape
            rw [List.flatMap_cons, wire_sealed (.ascii filled narrow), wire_ascii narrow,
              wire_single high low]
            exact .cons piece (shorter rest (Nat.lt_succ_self _))

theorem wire_enclosed {u v : UInt16} (first : u.toNat < 0x80) (last : v.toNat < 0x80) (s : JString) :
    wire (u :: (s ++ [v])) = u.toNat :: (wire s ++ [v.toNat]) := by
  have notHigh {w : UInt16} (ascii : w.toNat < 0x80) : isHigh w = false := decide_eq_false (by omega)
  have notLow {w : UInt16} (ascii : w.toNat < 0x80) : isLow w = false := decide_eq_false (by omega)
  have tail : wire (s ++ [v]) = wire s ++ wire [v] := by
    have parts := sent_parts last s []
    have single := sent_parts last [] []
    rw [List.nil_append, sent, List.nil_append] at single
    rw [sent, ← single] at parts
    rw [wire, asSent, parts, Utf16.encode_append]
    exact List.map_append
  rw [wire_single (notHigh first) (notLow first), tail, wire_single (notHigh last) (notLow last)]
  rfl

theorem writeString_eq (s : JString) :
    writeString s = 0x22 :: (s.flatMap writeUnit ++ [0x22]) := rfl

theorem writeString_sealed (s : JString) : Sealed (writeString s) := by
  rw [writeString_eq]
  exact (Sealed.enclosed (by decide) (by decide) _).1

theorem wire_writeString (s : JString) :
    wire (writeString s) = 0x22 :: (wire (s.flatMap writeUnit) ++ [0x22]) := by
  rw [writeString_eq]
  exact wire_enclosed (by decide) (by decide) _

/-! ## Trees -/

mutual

/-- The tree with its strings as they are sent. -/
def Json.asSent : Json → Json
  | .str s => .str (Java.asSent s)
  | .arr items => .arr (asSentItems items)
  | .obj members => .obj (asSentMembers members)
  | v => v

def asSentItems : List Json → List Json
  | [] => []
  | v :: rest => v.asSent :: asSentItems rest

def asSentMembers : List (JString × Json) → List (JString × Json)
  | [] => []
  | (key, v) :: rest => (Java.asSent key, v.asSent) :: asSentMembers rest

end

/-- A tree whose number tokens are numbers. -/
inductive Numeric : Json → Prop where
  | null : Numeric .null
  | bool (b : Bool) : Numeric (.bool b)
  | num {cs : List Char} (number : Rfc8259.Number cs) : Numeric (.num (Utf16.encode cs))
  | str (s : JString) : Numeric (.str s)
  | arr {items : List Json} (each : ∀ item ∈ items, Numeric item) : Numeric (.arr items)
  | obj {members : List (JString × Json)} (each : ∀ m ∈ members, Numeric m.2) : Numeric (.obj members)

/-- What is written of a value spells what is sent of it, whatever stands on its sides. -/
structure Written (v : Json) : Prop where
  closed : Sealed (writeValue v)
  spells : ∃ n, ∀ m, n ≤ m → Spelled strictUnits m (.value (treeOf v.asSent)) (wire (writeValue v))

theorem Written.word {v : Json} {word : String} (text : writeValue v = lit word)
    (narrow : (lit word).all (fun u => u.toNat < 0x80) = true) (filled : lit word ≠ [])
    (spells : ∀ m, Spelled strictUnits m (.value (treeOf v.asSent)) (nats (lit word))) : Written v := by
  have ascii := narrow_of_all narrow
  refine ⟨text ▸ .ascii filled ascii, 0, fun m _ => ?_⟩
  rw [text, wire_ascii ascii]
  exact spells m

theorem Written.num {cs : List Char} (number : Rfc8259.Number cs) : Written (.num (Utf16.encode cs)) := by
  have flat := JsonUtf16.number_flat number
  have units : nats (Utf16.encode cs) = JsonReader.points cs := JsonUtf16.units_flat flat
  have ascii : ∀ u ∈ Utf16.encode cs, u.toNat < 0x80 := by
    intro u inside
    have among : u.toNat ∈ JsonReader.points cs := units ▸ List.mem_map_of_mem inside
    obtain ⟨c, here, same⟩ := List.mem_map.mp among
    rw [← same]
    exact flat.1 c here
  have filled : Utf16.encode cs ≠ [] := by
    intro none
    rw [none] at units
    obtain ⟨c, more, shape, _⟩ := JsonReader.number_start number
    rw [shape] at units
    cases units
  refine ⟨?_, 0, fun m _ => ?_⟩
  · rw [writeValue]
    exact .ascii filled ascii
  · have tree : treeOf (Json.num (Utf16.encode cs)).asSent = .number (JsonReader.points cs) :=
      congrArg Tree.number units
    rw [writeValue, wire_ascii ascii, tree, units]
    exact .number number rfl

theorem Written.str (s : JString) : Written (.str s) := by
  refine ⟨?_, 0, fun m _ => ?_⟩
  · rw [writeValue]
    exact writeString_sealed s
  · rw [writeValue, wire_writeString]
    exact .string (writeUnits_pieces s)

theorem comma_sealed : Sealed (lit ",") := .ascii (by decide) (narrow_of_all rfl)

theorem wire_comma (s : JString) : wire (lit "," ++ s) = 0x2C :: wire s := by
  rw [wire_sealed comma_sealed, wire_ascii (narrow_of_all rfl)]
  rfl

theorem writeItems_rest (item : Json) (rest : List Json) :
    writeItems false (item :: rest) = lit "," ++ writeItems true (item :: rest) := by
  rw [writeItems, writeItems]
  simp

theorem noSpace : JsonReader.Ws [] := fun _ inside => absurd inside List.not_mem_nil

/-- The items of an array that is not empty. -/
theorem writeItems_written {item : Json} {rest : List Json} (each : ∀ v ∈ item :: rest, Written v) :
    Sealed (writeItems true (item :: rest)) ∧ ∃ n, ∀ m, n ≤ m →
      Spelled strictUnits m (.elements (treesOf (asSentItems (item :: rest))))
        (wire (writeItems true (item :: rest))) := by
  induction rest generalizing item with
  | nil =>
      obtain ⟨closed, n, spells⟩ := each item List.mem_cons_self
      have text : writeItems true [item] = writeValue item := by
        rw [writeItems, writeItems]
        simp
      rw [text]
      refine ⟨closed, n, fun m deep => ?_⟩
      have last := Spelled.lastElement noSpace (spells m deep) noSpace
      rwa [List.nil_append, List.append_nil] at last
  | cons next rest ih =>
      obtain ⟨first, others⟩ := List.forall_mem_cons.mp each
      obtain ⟨closed, n, spells⟩ := first
      obtain ⟨closedMore, n', spellsMore⟩ := ih others
      have text : writeItems true (item :: next :: rest) =
          writeValue item ++ (lit "," ++ writeItems true (next :: rest)) := by
        rw [writeItems, writeItems_rest]
        simp
      rw [text]
      refine ⟨closed.append (comma_sealed.append closedMore), max n n', fun m deep => ?_⟩
      rw [wire_sealed closed, wire_comma]
      have more := Spelled.nextElement noSpace (spells m (by omega)) noSpace (spellsMore m (by omega))
      rwa [List.nil_append, List.nil_append] at more

theorem Written.arr {items : List Json} (each : ∀ v ∈ items, Written v) : Written (.arr items) := by
  have text (inside : JString) : lit "[" ++ inside ++ lit "]" = 0x5B :: (inside ++ [0x5D]) := rfl
  refine ⟨?_, ?_⟩
  · rw [writeValue, text]
    exact (Sealed.enclosed (by decide) (by decide) _).1
  · rw [writeValue, text, wire_enclosed (by decide) (by decide)]
    cases items with
    | nil =>
        refine ⟨1, fun m deep => ?_⟩
        obtain ⟨k, rfl⟩ : ∃ k, m = k + 1 := ⟨m - 1, by omega⟩
        exact .emptyArray noSpace
    | cons item rest =>
        obtain ⟨_, n, spells⟩ := writeItems_written each
        refine ⟨n + 1, fun m deep => ?_⟩
        obtain ⟨k, rfl⟩ : ∃ k, m = k + 1 := ⟨m - 1, by omega⟩
        exact .array (spells k (by omega))

theorem writeMembers_rest (member : JString × Json) (rest : List (JString × Json)) :
    writeMembers false (member :: rest) = lit "," ++ writeMembers true (member :: rest) := by
  rw [writeMembers, writeMembers]
  simp

theorem wire_member (key text : JString) :
    wire (writeString key ++ (lit ":" ++ text)) =
      0x22 :: (wire (key.flatMap writeUnit) ++ 0x22 :: ([] ++ 0x3A :: ([] ++ wire text))) := by
  have colon : Sealed (lit ":") := .ascii (by decide) (narrow_of_all rfl)
  have mark : wire (lit ":") = [0x3A] := wire_ascii (narrow_of_all rfl)
  rw [wire_sealed (writeString_sealed key), wire_sealed colon, wire_writeString, mark]
  simp

/-- The members of an object that is not empty. -/
theorem writeMembers_written {member : JString × Json} {rest : List (JString × Json)}
    (each : ∀ m ∈ member :: rest, Written m.2) :
    Sealed (writeMembers true (member :: rest)) ∧ ∃ n, ∀ m, n ≤ m →
      Spelled strictUnits m (.members (membersOf (asSentMembers (member :: rest))))
        (wire (writeMembers true (member :: rest))) := by
  have colon : Sealed (lit ":") := .ascii (by decide) (narrow_of_all rfl)
  induction rest generalizing member with
  | nil =>
      obtain ⟨key, v⟩ := member
      obtain ⟨closed, n, spells⟩ := each (key, v) List.mem_cons_self
      have text : writeMembers true [(key, v)] = writeString key ++ (lit ":" ++ writeValue v) := by
        rw [writeMembers, writeMembers]
        simp
      rw [text]
      refine ⟨(writeString_sealed key).append (colon.append closed), n, fun m deep => ?_⟩
      rw [wire_member]
      have last := Spelled.lastMember noSpace (writeUnits_pieces key) noSpace noSpace (spells m deep) noSpace
      rwa [List.nil_append, List.append_nil] at last
  | cons next rest ih =>
      obtain ⟨first, others⟩ := List.forall_mem_cons.mp each
      obtain ⟨key, v⟩ := member
      obtain ⟨closed, n, spells⟩ := first
      obtain ⟨closedMore, n', spellsMore⟩ := ih others
      have text : writeMembers true ((key, v) :: next :: rest) =
          writeString key ++ (lit ":" ++ (writeValue v ++ (lit "," ++ writeMembers true (next :: rest)))) := by
        rw [writeMembers, writeMembers_rest]
        simp
      rw [text]
      refine ⟨(writeString_sealed key).append (colon.append (closed.append
        (comma_sealed.append closedMore))), max n n', fun m deep => ?_⟩
      rw [wire_member, wire_sealed closed, wire_comma]
      have more := Spelled.nextMember noSpace (writeUnits_pieces key) noSpace noSpace
        (spells m (by omega)) noSpace (spellsMore m (by omega))
      rwa [List.nil_append, List.nil_append] at more

theorem Written.obj {members : List (JString × Json)} (each : ∀ m ∈ members, Written m.2) :
    Written (.obj members) := by
  have text (inside : JString) : lit "\x7b" ++ inside ++ lit "\x7d" = 0x7B :: (inside ++ [0x7D]) := rfl
  refine ⟨?_, ?_⟩
  · rw [writeValue, text]
    exact (Sealed.enclosed (by decide) (by decide) _).1
  · rw [writeValue, text, wire_enclosed (by decide) (by decide)]
    cases members with
    | nil =>
        refine ⟨1, fun m deep => ?_⟩
        obtain ⟨k, rfl⟩ : ∃ k, m = k + 1 := ⟨m - 1, by omega⟩
        exact .emptyObject noSpace
    | cons member rest =>
        obtain ⟨_, n, spells⟩ := writeMembers_written each
        refine ⟨n + 1, fun m deep => ?_⟩
        obtain ⟨k, rfl⟩ : ∃ k, m = k + 1 := ⟨m - 1, by omega⟩
        exact .object (spells k (by omega))

/-- Every tree of numbers that `JsonWriter` writes. -/
theorem Numeric.written {v : Json} (numeric : Numeric v) : Written v := by
  induction numeric with
  | null => exact .word rfl rfl (by decide) fun _ => .null
  | bool b =>
      cases b with
      | true => exact .word rfl rfl (by decide) fun _ => .true
      | false => exact .word rfl rfl (by decide) fun _ => .false
  | num number => exact .num number
  | str s => exact .str s
  | arr _ ih => exact .arr ih
  | obj _ ih => exact .obj ih

/-- The bytes of a request are UTF-8 of a text that spells the object, as it is sent. -/
theorem build_denotes {members : List (JString × Json)} (numeric : ∀ m ∈ members, Numeric m.2) :
    ∃ cs n, build members = Utf8.encode cs ∧
      JsonReader.Writes strictUnits n (JsonUtf16.units cs) (treeOf (Json.obj members).asSent) := by
  obtain ⟨closed, n, spells⟩ := (Numeric.obj numeric).written
  refine ⟨_, n, getBytes_sent _, ?_⟩
  have text : JsonUtf16.units (sent (writeValue (.obj members) ++ lit "\n")) =
      wire (writeValue (.obj members)) ++ [0x0A] := wire_sealed closed (lit "\n")
  rw [text]
  exact ⟨[], _, [0x0A], rfl, noSpace, spells n (Nat.le_refl n), List.forall_mem_singleton.mpr rfl⟩

end Codec

end SanDbOxFormal.Java
