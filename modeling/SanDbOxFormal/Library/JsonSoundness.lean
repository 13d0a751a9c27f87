import SanDbOxFormal.Library.JsonReading
import SanDbOxFormal.Library.JsonSpelling

/-!
# What a reader of JSON took

A number token is what stands in front of the rest, a reader that nests deeper only
changes what was too deep, and what a reader without barewords took is spelled by the
grammar.
-/

namespace SanDbOxFormal.Library.JsonReader

/-! ## Number tokens -/

theorem digits_split (cs : List Nat) : (digits cs).1 ++ (digits cs).2 = cs :=
  List.takeWhile_append_dropWhile

theorem intPart_split {cs raw rest : List Nat} (read : intPart cs = some (raw, rest)) :
    raw ++ rest = cs := by
  cases cs with
  | nil => cases read
  | cons c tail =>
      rw [intPart] at read
      split_ifs at read
      · cases read
        rfl
      · have split := digits_split (c :: tail)
        rw [Option.some.inj read] at split
        exact split

theorem someDigits_split {mark cs raw rest : List Nat}
    (read : someDigits mark cs = some (raw, rest)) : raw ++ rest = mark ++ cs := by
  have split := digits_split cs
  unfold someDigits at read
  split at read
  · cases read
  · rename_i same
    rw [same] at split
    cases read
    rw [List.append_assoc, split]

theorem fracPart_split {cs raw rest : List Nat} (read : fracPart cs = some (raw, rest)) :
    raw ++ rest = cs := by
  cases cs with
  | nil =>
      cases read
      rfl
  | cons c tail =>
      rw [fracPart] at read
      split_ifs at read
      · exact someDigits_split read
      · cases read
        rfl

theorem expPart_split {cs raw rest : List Nat} (read : expPart cs = some (raw, rest)) :
    raw ++ rest = cs := by
  cases cs with
  | nil =>
      cases read
      rfl
  | cons c tail =>
      rw [expPart.eq_def] at read
      dsimp only at read
      split_ifs at read
      · cases tail with
        | nil => cases read
        | cons s tail =>
            dsimp only at read
            split_ifs at read
            · exact someDigits_split read
            · exact someDigits_split read
      · cases read
        rfl

theorem number_split {cs raw rest : List Nat} (read : number cs = some (raw, rest)) :
    raw ++ rest = cs := by
  have whole (sign : List Nat) {cs : List Nat}
      (read : unsigned sign cs = some (raw, rest)) : raw ++ rest = sign ++ cs := by
    obtain ⟨⟨int, cs₁⟩, hint, read⟩ := Option.bind_eq_some_iff.mp read
    obtain ⟨⟨frac, cs₂⟩, hfrac, read⟩ := Option.bind_eq_some_iff.mp read
    obtain ⟨⟨exp, cs₃⟩, hexp, read⟩ := Option.bind_eq_some_iff.mp read
    cases read
    rw [← intPart_split hint, ← fracPart_split hfrac, ← expPart_split hexp]
    simp only [List.append_assoc]
  cases cs with
  | nil => exact whole [] read
  | cons c tail =>
      by_cases minus : c = 0x2D
      · subst minus
        exact whole [0x2D] read
      · rw [number_plain minus] at read
        exact whole [] read

theorem Token.ne_nil {raw : List Nat} (token : Token raw) : raw ≠ [] := by
  obtain ⟨cs, rfl, number⟩ := token
  obtain ⟨c, more, shape, _⟩ := number_start number
  rw [points] at shape
  rw [shape]
  exact List.cons_ne_nil c more

/-! ## Deeper readers -/

/-- What was not too deep stays as it was. -/
def Stays {α : Type} (x y : Except Fault α) : Prop := x = .error .tooDeep ∨ y = x

variable {α β : Type} {d : Dialect}

theorem Stays.refl (x : Except Fault α) : Stays x x := .inr rfl

theorem Stays.bind {x y : Except Fault α} {f g : α → Except Fault β} (first : Stays x y)
    (second : ∀ a, Stays (f a) (g a)) : Stays (x >>= f) (y >>= g) := by
  rcases first with deep | same
  · rw [deep]
    exact .inl rfl
  · subst same
    cases y with
    | error e => exact .refl _
    | ok a => exact second a

theorem elements_stays {value value' : List Nat → Except Fault (Tree × List Nat)}
    (each : ∀ cs, Stays (value cs) (value' cs)) (n : Nat) (cs : List Nat) :
    Stays (elements value n cs) (elements value' n cs) := by
  induction n generalizing cs with
  | zero => exact .refl _
  | succ n ih =>
      rw [elements, elements]
      refine (each _).bind fun r => ?_
      dsimp only
      split
      · exact .refl _
      split_ifs
      · exact (ih _).bind fun r => .refl _
      · exact .refl _
      · exact .refl _

theorem members_stays {value value' : List Nat → Except Fault (Tree × List Nat)}
    (each : ∀ cs, Stays (value cs) (value' cs)) (n : Nat) (cs : List Nat) :
    Stays (members d value n cs) (members d value' n cs) := by
  induction n generalizing cs with
  | zero => exact .refl _
  | succ n ih =>
      rw [members, members]
      split
      · exact .refl _
      split_ifs
      · refine (Stays.refl _).bind fun r => ?_
        dsimp only
        split
        · exact .refl _
        split_ifs
        · refine (each _).bind fun r => ?_
          split
          · exact .refl _
          split_ifs
          · exact (ih _).bind fun r => .refl _
          · exact .refl _
          · exact .refl _
        · exact .refl _
      · exact .refl _

theorem array_stays {value value' : List Nat → Except Fault (Tree × List Nat)}
    (each : ∀ cs, Stays (value cs) (value' cs)) (cs : List Nat) :
    Stays (array value cs) (array value' cs) := by
  rw [array, array]
  split
  · exact .refl _
  split_ifs
  · exact .refl _
  · exact (elements_stays each _ _).bind fun r => .refl _

theorem object_stays {value value' : List Nat → Except Fault (Tree × List Nat)}
    (each : ∀ cs, Stays (value cs) (value' cs)) (cs : List Nat) :
    Stays (object d value cs) (object d value' cs) := by
  rw [object, object]
  split
  · exact .refl _
  split_ifs
  · exact .refl _
  · exact (members_stays each _ _).bind fun r => .refl _

theorem value_stays {depth depth' : Nat} (deeper : depth ≤ depth') (cs : List Nat) :
    Stays (value d depth cs) (value d depth' cs) := by
  induction depth generalizing depth' cs with
  | zero =>
      cases cs with
      | nil =>
          rw [value.eq_def, value.eq_def d depth']
          exact .refl _
      | cons c rest =>
          rw [value, value.eq_def d depth']
          dsimp only
          split_ifs
          · exact .refl _
          · exact .inl rfl
          · exact .inl rfl
          · exact .refl _
  | succ depth ih =>
      obtain ⟨inner, rfl⟩ : ∃ inner, depth' = inner + 1 := ⟨depth' - 1, by omega⟩
      have each := fun cs => ih (Nat.le_of_succ_le_succ deeper) cs
      cases cs with
      | nil =>
          rw [value.eq_def, value.eq_def d (inner + 1)]
          exact .refl _
      | cons c rest =>
          rw [value, value]
          split_ifs
          · exact .refl _
          · exact array_stays each _
          · exact object_stays each _
          · exact .refl _

/-- A deeper reader reads the same, if the text was not too deep. -/
theorem read_stays {depth depth' : Nat} (deeper : depth ≤ depth') (text : List Nat) :
    Stays (read d depth text) (read d depth' text) :=
  (value_stays deeper _).bind fun _ => .refl _

/-! ## What was read is spelled -/

theorem prepend_ok {u : Nat} {x : Except Fault (List Nat × List Nat)} {us rest : List Nat}
    (returned : prepend u x = .ok (us, rest)) : ∃ vs, us = u :: vs ∧ x = .ok (vs, rest) := by
  cases x with
  | error e => cases returned
  | ok r =>
      cases returned
      exact ⟨_, rfl, rfl⟩

/-- The body of a string stands in front of its quote. -/
theorem body_pieces (apart : d.joins = false) {n : Nat} {cs us rest : List Nat}
    (read : body d n cs = .ok (us, rest)) : ∃ raw, cs = raw ++ 0x22 :: rest ∧ Pieces d raw us := by
  induction n generalizing cs us with
  | zero => cases read
  | succ n ih =>
      -- The piece in front, and the rest of the string.
      have step {first more : List Nat} {u : Nat} (piece : Piece d first u)
          (read : prepend u (body d n more) = .ok (us, rest)) :
          ∃ raw, first ++ more = raw ++ 0x22 :: rest ∧ Pieces d raw us := by
        obtain ⟨vs, rfl, tail⟩ := prepend_ok read
        obtain ⟨raw, rfl, pieces⟩ := ih tail
        exact ⟨first ++ raw, (List.append_assoc first raw _).symm, .cons piece pieces⟩
      cases cs with
      | nil => cases read
      | cons c more =>
          rw [body.eq_def] at read
          dsimp only at read
          split_ifs at read with quote escape control
          · cases read
            exact ⟨[], by rw [quote]; rfl, .nil⟩
          · subst escape
            cases more with
            | nil => cases read
            | cons e more =>
                dsimp only at read
                split_ifs at read with unicode
                · subst unicode
                  rcases more with _ | ⟨h₁, _ | ⟨h₂, _ | ⟨h₃, _ | ⟨h₄, more⟩⟩⟩⟩
                  · cases read
                  · cases read
                  · cases read
                  · cases read
                  · dsimp only at read
                    cases value : hex4? h₁ h₂ h₃ h₄ with
                    | none =>
                        rw [value] at read
                        cases read
                    | some u =>
                        rw [value] at read
                        simp only [apart, Bool.false_and, Bool.false_eq_true, if_false] at read
                        exact step (.unicode value fun joins => by rw [apart] at joins; cases joins) read
                · cases value : simpleEscape? e with
                  | none =>
                      rw [value] at read
                      cases read
                  | some u =>
                      rw [value] at read
                      exact step (.escape value) read
          · exact step (.plain quote escape (Nat.le_of_not_lt control)) read

theorem skipWs_split (cs : List Nat) : ∃ ws, cs = ws ++ skipWs cs ∧ Ws ws :=
  ⟨cs.takeWhile isWs, List.takeWhile_append_dropWhile.symm, fun _ inside => List.mem_takeWhile_imp inside⟩

/-- What a reader of values takes is a value that nests at most so deep. -/
def Takes (d : Dialect) (n : Nat) (value : List Nat → Except Fault (Tree × List Nat)) : Prop :=
  ∀ cs t rest, value cs = .ok (t, rest) → ∃ text, cs = text ++ rest ∧ Spelled d n (.value t) text

variable {value : List Nat → Except Fault (Tree × List Nat)} {n : Nat}

/-- A value, with the space on both of its sides. -/
theorem Takes.spaced (takes : Takes d n value) {cs rest : List Nat} {t : Tree}
    (read : value (skipWs cs) = .ok (t, rest)) :
    ∃ before text after, cs = before ++ (text ++ (after ++ skipWs rest)) ∧ Ws before ∧
      Spelled d n (.value t) text ∧ Ws after := by
  obtain ⟨before, split, hbefore⟩ := skipWs_split cs
  obtain ⟨text, inside, spelled⟩ := takes _ _ _ read
  obtain ⟨after, behind, hafter⟩ := skipWs_split rest
  exact ⟨before, text, after, by rw [← behind, ← inside, ← split], hbefore, spelled, hafter⟩

theorem elements_spelled (takes : Takes d n value) {bound : Nat} {cs rest : List Nat} {ts : List Tree}
    (read : elements value bound cs = .ok (ts, rest)) :
    ∃ inside, cs = inside ++ 0x5D :: rest ∧ Spelled d n (.elements ts) inside := by
  induction bound generalizing cs ts with
  | zero => cases read
  | succ bound ih =>
      rw [elements] at read
      obtain ⟨⟨t, behind⟩, first, read⟩ := bind_ok_iff.mp read
      obtain ⟨before, text, after, split, hbefore, spelled, hafter⟩ := takes.spaced first
      rw [split]
      dsimp only at read
      split at read
      · cases read
      rename_i c more shape
      rw [shape]
      split_ifs at read with comma bracket
      · obtain ⟨⟨others, left⟩, later, read⟩ := bind_ok_iff.mp read
        cases read
        obtain ⟨inside, rfl, spelledMore⟩ := ih later
        refine ⟨before ++ (text ++ (after ++ 0x2C :: inside)), ?_,
          .nextElement hbefore spelled hafter spelledMore⟩
        simp [comma]
      · cases read
        refine ⟨before ++ (text ++ after), ?_, .lastElement hbefore spelled hafter⟩
        simp [bracket]

theorem members_spelled (apart : d.joins = false) (takes : Takes d n value) {bound : Nat}
    {cs rest : List Nat} {ms : List (List Nat × Tree)}
    (read : members d value bound cs = .ok (ms, rest)) :
    ∃ inside, cs = inside ++ 0x7D :: rest ∧ Spelled d n (.members ms) inside := by
  induction bound generalizing cs ms with
  | zero => cases read
  | succ bound ih =>
      rw [members] at read
      obtain ⟨before, split, hbefore⟩ := skipWs_split cs
      split at read
      · cases read
      rename_i c afterQuote shape
      split_ifs at read with quote
      rw [split, shape, quote]
      obtain ⟨⟨key, behindKey⟩, string, read⟩ := bind_ok_iff.mp read
      obtain ⟨raw, splitKey, hkey⟩ := body_pieces apart string
      obtain ⟨middle, splitMiddle, hmiddle⟩ := skipWs_split behindKey
      dsimp only at read
      split at read
      · cases read
      rename_i c' behindColon shapeColon
      split_ifs at read with colon
      obtain ⟨⟨t, behind⟩, first, read⟩ := bind_ok_iff.mp read
      obtain ⟨gap, text, after, splitValue, hgap, spelled, hafter⟩ := takes.spaced first
      rw [splitKey, splitMiddle, shapeColon, colon, splitValue]
      dsimp only at read
      split at read
      · cases read
      rename_i c'' more shapeEnd
      rw [shapeEnd]
      split_ifs at read with comma brace
      · obtain ⟨⟨others, left⟩, later, read⟩ := bind_ok_iff.mp read
        cases read
        obtain ⟨inside, rfl, spelledMore⟩ := ih later
        refine ⟨before ++ 0x22 :: (raw ++ 0x22 :: (middle ++ 0x3A :: (gap ++ (text ++
          (after ++ 0x2C :: inside))))), ?_,
          .nextMember hbefore hkey hmiddle hgap spelled hafter spelledMore⟩
        simp [comma]
      · cases read
        refine ⟨before ++ 0x22 :: (raw ++ 0x22 :: (middle ++ 0x3A :: (gap ++ (text ++ after)))), ?_,
          .lastMember hbefore hkey hmiddle hgap spelled hafter⟩
        simp [brace]

theorem array_spelled (takes : Takes d n value) {cs rest : List Nat} {t : Tree}
    (read : array value cs = .ok (t, rest)) :
    ∃ text, 0x5B :: cs = text ++ rest ∧ Spelled d (n + 1) (.value t) text := by
  rw [array] at read
  obtain ⟨ws, split, space⟩ := skipWs_split cs
  split at read
  · cases read
  rename_i c more shape
  split_ifs at read with bracket
  · cases read
    refine ⟨0x5B :: (ws ++ [0x5D]), ?_, .emptyArray space⟩
    rw [split, shape, bracket]
    simp
  · obtain ⟨⟨ts, left⟩, filled, read⟩ := bind_ok_iff.mp read
    cases read
    obtain ⟨inside, rfl, spelled⟩ := elements_spelled takes filled
    exact ⟨0x5B :: (inside ++ [0x5D]), by simp, .array spelled⟩

theorem object_spelled (apart : d.joins = false) (takes : Takes d n value) {cs rest : List Nat}
    {t : Tree} (read : object d value cs = .ok (t, rest)) :
    ∃ text, 0x7B :: cs = text ++ rest ∧ Spelled d (n + 1) (.value t) text := by
  rw [object] at read
  obtain ⟨ws, split, space⟩ := skipWs_split cs
  split at read
  · cases read
  rename_i c more shape
  split_ifs at read with brace
  · cases read
    refine ⟨0x7B :: (ws ++ [0x7D]), ?_, .emptyObject space⟩
    rw [split, shape, brace]
    simp
  · obtain ⟨⟨ms, left⟩, filled, read⟩ := bind_ok_iff.mp read
    cases read
    obtain ⟨inside, rfl, spelled⟩ := members_spelled apart takes filled
    exact ⟨0x7B :: (inside ++ [0x7D]), by simp, .object spelled⟩

theorem after?_split {word cs rest : List Nat} (found : after? word cs = some rest) : cs = word ++ rest := by
  rw [after?] at found
  split_ifs at found with starts
  obtain ⟨more, rfl⟩ := List.isPrefixOf_iff_prefix.mp starts
  rw [List.drop_left] at found
  rw [Option.some.inj found]

theorem scalar_spelled (plain : d.barewords = []) : Takes d n (scalar d) := by
  intro cs t rest read
  have known : bareword? d cs = none := by
    rw [bareword?, plain]
    rfl
  rw [scalar, known] at read
  dsimp only at read
  split at read
  · rename_i found
    cases read
    exact ⟨_, after?_split found, .true⟩
  · rename_i found _
    cases read
    exact ⟨_, after?_split found, .false⟩
  · rename_i found _ _
    cases read
    exact ⟨_, after?_split found, .null⟩
  · split at read
    · rename_i raw more found
      split_ifs at read with fails
      cases read
      obtain ⟨ds, rfl, number⟩ := number_token found
      exact ⟨_, (number_split found).symm, .number number (Bool.eq_false_iff.mpr fails)⟩
    · cases read

theorem value_spelled (plain : d.barewords = []) (apart : d.joins = false) (depth : Nat) :
    Takes d depth (JsonReader.value d depth) := by
  have each {depth : Nat} (inside : ∀ m, depth = m + 1 → Takes d m (JsonReader.value d m)) :
      Takes d depth (JsonReader.value d depth) := by
    intro cs t rest read
    cases cs with
    | nil =>
        rw [JsonReader.value.eq_def] at read
        cases read
    | cons c more =>
        rw [JsonReader.value.eq_def] at read
        dsimp only at read
        split_ifs at read with quote bracket brace
        · obtain ⟨⟨us, behind⟩, string, read⟩ := bind_ok_iff.mp read
          cases read
          obtain ⟨raw, rfl, pieces⟩ := body_pieces apart string
          exact ⟨0x22 :: (raw ++ [0x22]), by simp [quote], .string pieces⟩
        · split at read
          · cases read
          · rw [bracket]
            exact array_spelled (inside _ rfl) read
        · split at read
          · cases read
          · rw [brace]
            exact object_spelled apart (inside _ rfl) read
        · exact scalar_spelled plain _ _ _ read
  induction depth with
  | zero => exact each nofun
  | succ depth ih =>
      refine each fun m same => ?_
      cases same
      exact ih

/-- A text that spells a tree, with space around it. -/
def Writes (d : Dialect) (n : Nat) (text : List Nat) (t : Tree) : Prop :=
  ∃ before inside after, text = before ++ (inside ++ after) ∧ Ws before ∧
    Spelled d n (.value t) inside ∧ Ws after

/-- A reader takes the texts of the grammar and no others. -/
theorem read_iff (plain : d.barewords = []) (apart : d.joins = false) {depth : Nat} {text : List Nat}
    {t : Tree} : read d depth text = .ok t ↔ Writes d depth text t := by
  constructor
  · intro returned
    obtain ⟨⟨t', rest⟩, took, ended⟩ := bind_ok_iff.mp returned
    dsimp only at ended
    split_ifs at ended with space
    cases ended
    obtain ⟨before, inside, after, split, hbefore, spelled, hafter⟩ :=
      (value_spelled plain apart depth).spaced took
    rw [space, List.append_nil] at split
    exact ⟨before, inside, after, split, hbefore, spelled, hafter⟩
  · rintro ⟨before, inside, after, rfl, hbefore, spelled, hafter⟩
    exact spelled.read (standard_of_plain plain) hbefore hafter

/-! ## Depth -/

/-- No text nests deeper than it is long. -/
theorem Spelled.shallow {n m : Nat} {category : Category} {text : List Nat} (spelled : Spelled d n category text)
    (enough : text.length ≤ m) : Spelled d m category text := by
  have inner {c : Nat} {inside : List Nat} {m : Nat} (enough : (c :: (inside ++ [c + 2])).length ≤ m) :
      ∃ k, m = k + 1 ∧ inside.length ≤ k := by
    rw [List.length_cons, List.length_append] at enough
    exact ⟨m - 1, by omega, by omega⟩
  induction spelled generalizing m with
  | null => exact .null
  | true => exact .true
  | false => exact .false
  | number token converts => exact .number token converts
  | string pieces => exact .string pieces
  | emptyArray space =>
      obtain ⟨k, rfl, _⟩ := inner enough
      exact .emptyArray space
  | array _ ih =>
      obtain ⟨k, rfl, short⟩ := inner enough
      exact .array (ih short)
  | emptyObject space =>
      obtain ⟨k, rfl, _⟩ := inner enough
      exact .emptyObject space
  | object _ ih =>
      obtain ⟨k, rfl, short⟩ := inner enough
      exact .object (ih short)
  | lastElement hbefore _ hafter ih =>
      simp only [List.length_append] at enough
      exact .lastElement hbefore (ih (by omega)) hafter
  | nextElement hbefore _ hafter _ ih later =>
      simp only [List.length_append, List.length_cons] at enough
      exact .nextElement hbefore (ih (by omega)) hafter (later (by omega))
  | lastMember hbefore hkey hmiddle hgap _ hafter ih =>
      simp only [List.length_append, List.length_cons] at enough
      exact .lastMember hbefore hkey hmiddle hgap (ih (by omega)) hafter
  | nextMember hbefore hkey hmiddle hgap _ hafter _ ih later =>
      simp only [List.length_append, List.length_cons] at enough
      exact .nextMember hbefore hkey hmiddle hgap (ih (by omega)) hafter (later (by omega))

/-- What spells a tree is read so at a depth that is as great as the text is long. -/
theorem Writes.read {n : Nat} {text : List Nat} {t : Tree} (writes : Writes d n text t) (standard : Standard d) :
    read d text.length text = .ok t := by
  obtain ⟨before, inside, after, rfl, hbefore, spelled, hafter⟩ := writes
  refine (spelled.shallow ?_).read standard hbefore hafter
  rw [List.length_append, List.length_append]
  omega

end SanDbOxFormal.Library.JsonReader
