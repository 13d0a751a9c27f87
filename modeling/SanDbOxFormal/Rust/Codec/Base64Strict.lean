import SanDbOxFormal.Library.Base64
import SanDbOxFormal.Rust.Codec.Base64

/-!
# What the Base64 decoder accepts

Without its messages the decoder of `codec/base64.rs` is the one of the standard
alphabet, over the bytes of a string.
-/

namespace SanDbOxFormal.Rust.Codec.Base64

open SanDbOxFormal.Library

theorem decodeChar_sextet (c : UInt8) :
    (decodeChar c).toOption.map UInt8.toNat = Library.Base64.sextet? c.toNat := by
  have table : ∀ n < 256, (decodeChar (UInt8.ofNat n)).toOption.map UInt8.toNat =
      Library.Base64.sextet? n := by
    decide +kernel
  have whole := table c.toNat c.toNat_lt
  rwa [UInt8.ofNat_toNat] at whole

/-- A character is a letter, or the decoder rejects it. -/
theorem decodeChar_cases (c : UInt8) :
    (∃ v, decodeChar c = .ok v ∧ Library.Base64.sextet? c.toNat = some v.toNat ∧ v.toNat < 64 ∧ c ≠ 0x3D) ∨
      ∃ e, decodeChar c = .error e ∧ Library.Base64.sextet? c.toNat = none := by
  have same := decodeChar_sextet c
  cases decoded : decodeChar c with
  | error e =>
      rw [decoded] at same
      exact .inr ⟨e, rfl, same.symm⟩
  | ok v =>
      rw [decoded] at same
      refine .inl ⟨v, rfl, same.symm, ?_, ?_⟩
      · have bounded : ∀ n < 256, ∀ m, Library.Base64.sextet? n = some m → m < 64 := by
          intro n _ m found
          unfold Library.Base64.sextet? at found
          split_ifs at found with upper lower digit
          all_goals
            cases found
            simp only [Bool.and_eq_true, decide_eq_true_eq] at *
            omega
        exact bounded c.toNat c.toNat_lt _ same.symm
      · rintro rfl
        cases same

/-- The bytes of a group, with the values of its letters. -/
theorem groupBytes_eq {a b c d : Nat} (ha : a < 64) (hb : b < 64) (hc : c < 64) (hd : d < 64) (pad : Nat) :
    groupBytes [UInt8.ofNat a, UInt8.ofNat b, UInt8.ofNat c, UInt8.ofNat d] pad =
      [UInt8.ofNat (a * 4 + b / 16)] ++ (if pad < 2 then [UInt8.ofNat (b % 16 * 16 + c / 4)] else []) ++
        (if pad < 1 then [UInt8.ofNat (c % 4 * 64 + d)] else []) := by
  have value {n : Nat} (small : n < 64) : (UInt8.ofNat n).toNat = n := by
    rw [UInt8.toNat_ofNat']
    omega
  have byte {m n : Nat} (same : m % 256 = n % 256) : UInt8.ofNat m = UInt8.ofNat n := by
    rw [← UInt8.toNat_inj, UInt8.toNat_ofNat', UInt8.toNat_ofNat']
    exact same
  simp only [groupBytes, List.getD_cons_zero, List.getD_cons_succ, value ha, value hb, value hc, value hd]
  rw [values_eq hb hc hd, Nat.shiftRight_eq_div_pow, Nat.shiftRight_eq_div_pow]
  have first : UInt8.ofNat ((a * 262144 + b * 4096 + c * 64 + d) / 2 ^ 16) = UInt8.ofNat (a * 4 + b / 16) :=
    byte (by omega)
  have second : UInt8.ofNat ((a * 262144 + b * 4096 + c * 64 + d) / 2 ^ 8) =
      UInt8.ofNat (b % 16 * 16 + c / 4) := byte (by omega)
  have third : UInt8.ofNat (a * 262144 + b * 4096 + c * 64 + d) = UInt8.ofNat (c % 4 * 64 + d) :=
    byte (by omega)
  rw [first, second, third]

/-- What a group denotes whose first two letters are known. -/
def tail? (isLast : Bool) (a b c2 c3 : Nat) : Option (List UInt8) :=
  if isLast = true ∧ c3 = Library.Base64.pad then
    if c2 = Library.Base64.pad then some [UInt8.ofNat (a * 4 + b / 16)]
    else do
      let c ← Library.Base64.sextet? c2
      some [UInt8.ofNat (a * 4 + b / 16), UInt8.ofNat (b % 16 * 16 + c / 4)]
  else do
    let c ← Library.Base64.sextet? c2
    let d ← Library.Base64.sextet? c3
    some [UInt8.ofNat (a * 4 + b / 16), UInt8.ofNat (b % 16 * 16 + c / 4), UInt8.ofNat (c % 4 * 64 + d)]

/-- What a group of four characters denotes. -/
def group? (isLast : Bool) (c0 c1 c2 c3 : Nat) : Option (List UInt8) := do
  let a ← Library.Base64.sextet? c0
  let b ← Library.Base64.sextet? c1
  tail? isLast a b c2 c3

/-- The end of `decodeGroup`. -/
def finish (x : Except Base64Error (List UInt8 × Nat)) : Except Base64Error (List UInt8) := do
  let (vals, pad) ← x
  .ok (groupBytes vals pad)

theorem decodeGroup_eq (isLast : Bool) (group : List UInt8) :
    decodeGroup isLast group = finish (decodeGroupLoop isLast 0 group [0, 0, 0, 0] 0) := rfl

theorem finish_error {x : Except Base64Error (List UInt8 × Nat)} (stops : ∃ e, x = .error e) :
    (finish x).toOption = none := by
  obtain ⟨e, rfl⟩ := stops
  rfl

theorem decodeGroupLoop_data (isLast : Bool) {j : Nat} {c v : UInt8} (data : c ≠ 0x3D)
    (decoded : decodeChar c = .ok v) (rest vals : List UInt8) :
    decodeGroupLoop isLast j (c :: rest) vals 0 = decodeGroupLoop isLast (j + 1) rest (vals.set j v) 0 := by
  rw [decodeGroupLoop, if_neg data, if_neg (Nat.lt_irrefl 0), decoded]
  rfl

/-- A character that the loop does not go past. -/
theorem decodeGroupLoop_stops (isLast : Bool) {j pad : Nat} {c : UInt8}
    (stops : (c = 0x3D ∧ (isLast = false ∨ j < 2)) ∨
      (c ≠ 0x3D ∧ (0 < pad ∨ ∃ e, decodeChar c = .error e))) (rest vals : List UInt8) :
    ∃ e, decodeGroupLoop isLast j (c :: rest) vals pad = .error e := by
  rw [decodeGroupLoop]
  rcases stops with ⟨rfl, early⟩ | ⟨data, late | ⟨e, refused⟩⟩
  · rw [if_pos rfl]
    cases isLast with
    | false => exact ⟨_, rfl⟩
    | true =>
        rcases early with other | early
        · cases other
        · rw [if_neg (by decide), if_pos early]
          exact ⟨_, rfl⟩
  · rw [if_neg data, if_pos late]
    exact ⟨_, rfl⟩
  · rw [if_neg data]
    split_ifs
    · exact ⟨_, rfl⟩
    · exact ⟨e, by rw [refused]; rfl⟩

theorem sextet?_pad : Library.Base64.sextet? (0x3D : UInt8).toNat = none := rfl

theorem toNat_pad {c : UInt8} : c.toNat = Library.Base64.pad ↔ c = 0x3D :=
  UInt8.toNat_inj (b := 0x3D)

/-- The two characters that may be padding, behind two letters. -/
theorem decodeGroup_tail (isLast : Bool) {a b : UInt8} (smallA : a.toNat < 64) (smallB : b.toNat < 64)
    (c2 c3 : UInt8) : (finish (decodeGroupLoop isLast 2 [c2, c3] [a, b, 0, 0] 0)).toOption =
      tail? isLast a.toNat b.toNat c2.toNat c3.toNat := by
  have bytes (c d : UInt8) (smallC : c.toNat < 64) (smallD : d.toNat < 64) (pad : Nat) :=
    groupBytes_eq smallA smallB smallC smallD pad
  simp only [UInt8.ofNat_toNat] at bytes
  simp only [tail?, toNat_pad]
  by_cases mark : c2 = 0x3D
  · subst mark
    cases isLast with
    | false =>
        rw [finish_error (decodeGroupLoop_stops false (.inl ⟨rfl, .inl rfl⟩) _ _), sextet?_pad]
        rfl
    | true =>
        have step : decodeGroupLoop true 2 [0x3D, c3] [a, b, 0, 0] 0 =
            decodeGroupLoop true 3 [c3] [a, b, 0, 0] 1 := decodeGroupLoop_pad 2 0 (by decide) _ _
        rw [step]
        by_cases last : c3 = 0x3D
        · subst last
          have done : decodeGroupLoop true 3 [0x3D] [a, b, 0, 0] 1 = .ok ([a, b, 0, 0], 2) :=
            (decodeGroupLoop_pad 3 1 (by decide) _ _).trans (by rw [decodeGroupLoop])
          rw [done, if_pos ⟨rfl, rfl⟩, if_pos rfl]
          exact congrArg some (bytes 0 0 (by decide) (by decide) 2)
        · rw [finish_error (decodeGroupLoop_stops true (.inr ⟨last, .inl Nat.one_pos⟩) _ _),
            if_neg (fun both => last both.2), sextet?_pad]
          rfl
  · rcases decodeChar_cases c2 with ⟨c, ok2, letter2, small2, data2⟩ | ⟨e, refused, none⟩
    · have step := decodeGroupLoop_data isLast (j := 2) data2 ok2 [c3] [a, b, 0, 0]
      rw [step, letter2, if_neg mark]
      change (finish (decodeGroupLoop isLast 3 [c3] [a, b, c, 0] 0)).toOption = _
      by_cases last : c3 = 0x3D
      · subst last
        cases isLast with
        | false =>
            rw [finish_error (decodeGroupLoop_stops false (.inl ⟨rfl, .inl rfl⟩) _ _), sextet?_pad]
            rfl
        | true =>
            have done : decodeGroupLoop true 3 [0x3D] [a, b, c, 0] 0 = .ok ([a, b, c, 0], 1) :=
              (decodeGroupLoop_pad 3 0 (by decide) _ _).trans (by rw [decodeGroupLoop])
            rw [done, if_pos ⟨rfl, rfl⟩]
            exact congrArg some (bytes c 0 small2 (by decide) 1)
      · rw [if_neg (fun both => last both.2)]
        rcases decodeChar_cases c3 with ⟨d, ok3, letter3, small3, data3⟩ | ⟨e, refused, none⟩
        · have done := decodeGroupLoop_data isLast (j := 3) data3 ok3 [] [a, b, c, 0]
          rw [done, letter3]
          exact congrArg some (bytes c d small2 small3 0)
        · rw [finish_error (decodeGroupLoop_stops isLast (.inr ⟨last, .inr ⟨e, refused⟩⟩) _ _), none]
          rfl
    · rw [finish_error (decodeGroupLoop_stops isLast (.inr ⟨mark, .inr ⟨e, refused⟩⟩) _ _), if_neg mark, none]
      split_ifs <;> rfl

/-- The decoder of a group takes the groups that denote bytes. -/
theorem decodeGroup_group? (isLast : Bool) (c0 c1 c2 c3 : UInt8) :
    (decodeGroup isLast [c0, c1, c2, c3]).toOption = group? isLast c0.toNat c1.toNat c2.toNat c3.toNat := by
  have early {c : UInt8} {j : Nat} (first : j < 2) (none : Library.Base64.sextet? c.toNat = .none)
      (rest vals : List UInt8) : ∃ e, decodeGroupLoop isLast j (c :: rest) vals 0 = .error e := by
    by_cases mark : c = 0x3D
    · exact decodeGroupLoop_stops isLast (.inl ⟨mark, .inr first⟩) rest vals
    · rcases decodeChar_cases c with ⟨v, _, found, _⟩ | ⟨e, refused, _⟩
      · rw [none] at found
        cases found
      · exact decodeGroupLoop_stops isLast (.inr ⟨mark, .inr ⟨e, refused⟩⟩) rest vals
  rcases decodeChar_cases c0 with ⟨a, ok0, letter0, small0, data0⟩ | ⟨e, _, none⟩
  case inr =>
    rw [decodeGroup_eq, finish_error (early (by decide) none _ _), group?, none]
    rfl
  have step0 := decodeGroupLoop_data isLast (j := 0) data0 ok0 [c1, c2, c3] [0, 0, 0, 0]
  rcases decodeChar_cases c1 with ⟨b, ok1, letter1, small1, data1⟩ | ⟨e, _, none⟩
  case inr =>
    rw [decodeGroup_eq, step0, finish_error (early (by decide) none _ _), group?, letter0, none]
    rfl
  have step1 := decodeGroupLoop_data isLast (j := 1) data1 ok1 [c2, c3] ([0, 0, 0, 0].set 0 a)
  rw [group?, letter0, letter1, decodeGroup_eq, step0, step1]
  exact decodeGroup_tail isLast small0 small1 c2 c3

theorem toOption_bind {ε α β : Type} (x : Except ε α) (f : α → Except ε β) :
    (x >>= f).toOption = x.toOption >>= fun a => (f a).toOption := by
  cases x <;> rfl

/-- Without its messages the loop over the groups is the decoder of the library. -/
theorem decodeGroups_decode? (b : List UInt8) (groups : b.length % 4 = 0) :
    (decodeGroups b).toOption = Library.Base64.decode? (b.map UInt8.toNat) := by
  induction b using decodeGroups.induct with
  | case1 c0 c1 c2 c3 rest ih =>
      have left : rest.length % 4 = 0 := by
        simp only [List.length_cons] at groups
        omega
      have more := ih left
      simp only [decodeGroups_cons, toOption_bind, decodeGroup_group?, more, List.map_cons,
        Library.Base64.decode?, group?, tail?]
      cases Library.Base64.sextet? c0.toNat with
      | none => rfl
      | some a =>
          cases Library.Base64.sextet? c1.toNat with
          | none => rfl
          | some b =>
              cases rest with
              | nil =>
                  simp only [List.isEmpty_nil, true_and, List.map_nil, Library.Base64.decode?]
                  dsimp only [Option.bind_eq_bind, Option.bind_some]
                  split_ifs
                  · rfl
                  · cases Library.Base64.sextet? c2.toNat <;> rfl
                  · cases Library.Base64.sextet? c2.toNat with
                    | none => rfl
                    | some c => cases Library.Base64.sextet? c3.toNat <;> rfl
              | cons next rest =>
                  simp only [List.isEmpty_cons, Bool.false_eq_true, false_and, List.map_cons,
                    List.cons_ne_nil, if_false]
                  dsimp only [Option.bind_eq_bind, Option.bind_some]
                  cases Library.Base64.sextet? c2.toNat with
                  | none => rfl
                  | some c =>
                      cases Library.Base64.sextet? c3.toNat with
                      | none => rfl
                      | some d => rfl
  | case2 b other =>
      rcases b with _ | ⟨c0, _ | ⟨c1, _ | ⟨c2, _ | ⟨c3, rest⟩⟩⟩⟩
      · rfl
      · cases groups
      · cases groups
      · cases groups
      · exact absurd rfl (other c0 c1 c2 c3 rest)

end SanDbOxFormal.Rust.Codec.Base64
