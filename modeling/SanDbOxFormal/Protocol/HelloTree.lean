import SanDbOxFormal.Library.JsonReading
import SanDbOxFormal.Protocol.Hello

/-!
# The hello line over code units

The hello of a driver whose strings are code units: the same three members, looked up
in the tree of a reader that reads JSON and nothing else.
-/

namespace SanDbOxFormal.Protocol

open SanDbOxFormal.Library
open SanDbOxFormal.Library.JsonReader (Tree Dialect Token units)

abbrev Members := List (List Nat × Tree)

/-- The first member under a key. -/
def firstMember? (members : Members) (key : String) : Option Tree :=
  (members.find? fun m => m.1 == units key).map Prod.snd

/-- The last member under a key. -/
def lastMember? (members : Members) (key : String) : Option Tree :=
  firstMember? members.reverse key

/-- The members of a hello of the given protocol. -/
structure TreeGreeting (member? : String → Option Tree) (protocol : Int) : Prop where
  protocol : ∃ cs : List Char, member? "protocol" = some (.number (cs.map Char.toNat)) ∧
    IntegerToken cs protocol
  version : ∃ s, member? "version" = some (.string s)
  product : ∃ s, member? "product" = some (.string s)

/-- A text that is an object with the given members, nested to whatever depth. -/
def ObjectText (strict : Dialect) (text : List Nat) (members : Members) : Prop :=
  ∃ depth, JsonReader.read strict depth text = .ok (.object members)

/-- The number of a member is a number of the grammar. -/
theorem firstMember?_token {members : Members} {key : String} {raw : List Nat}
    (numerals : JsonReader.AllMembers JsonReader.Numeral members)
    (found : firstMember? members key = some (.number raw)) : Token raw := by
  obtain ⟨m, there, same⟩ := Option.map_eq_some_iff.mp found
  have numeral := numerals.find (List.mem_of_find?_eq_some there)
  rw [same] at numeral
  exact numeral

/-- A token without fraction and exponent is that of an integer. -/
theorem integerToken_of_number {cs : List Char} (number : Rfc8259.Number cs)
    (whole : cs.any Decimal.isRealMark = false) : ∃ i, IntegerToken cs i := by
  obtain ⟨sign, int, rfl, hsign, hint⟩ := Decimal.number_whole number whole
  cases hsign with
  | absent => exact ⟨_, .whole hint⟩
  | minus => exact ⟨_, .negative hint⟩

/-! ## How the text of an object starts -/

open JsonReader in
theorem scalar_ne_object {d : Dialect} {cs rest : List Nat} {ms : Members} :
    scalar d cs ≠ .ok (.object ms, rest) := by
  intro read
  have leaf : Returns (fun t => ∀ ms, t ≠ .object ms) (scalar d cs) := by
    unfold scalar
    split
    · split_ifs
      · exact .error
      · exact .ok nofun
    · split
      · exact .ok nofun
      · exact .ok nofun
      · exact .ok nofun
      · split
        · split_ifs
          · exact .error
          · exact .ok nofun
        · exact .error
  exact leaf _ _ read ms rfl

open JsonReader in
/-- An object is read behind a brace. -/
theorem value_object {d : Dialect} {depth : Nat} {cs rest : List Nat} {ms : Members}
    (read : value d depth cs = .ok (.object ms, rest)) :
    ∃ inner behind, cs = 0x7B :: behind ∧ object d (value d inner) behind = .ok (.object ms, rest) := by
  cases cs with
  | nil =>
      rw [value.eq_def] at read
      cases read
  | cons c behind =>
      rw [value.eq_def] at read
      dsimp only at read
      split_ifs at read with quote bracket brace
      · obtain ⟨s, _, same⟩ := bind_ok_iff.mp read
        cases same
      · split at read
        · cases read
        · rw [array] at read
          split at read
          · cases read
          split_ifs at read
          · cases read
          · obtain ⟨ts, _, same⟩ := bind_ok_iff.mp read
            cases same
      · subst brace
        split at read
        · cases read
        · exact ⟨_, _, rfl, read⟩
      · exact absurd read scalar_ne_object

/-- An ASCII character that is not NUL. -/
def Plain (c : Nat) : Prop := 0 < c ∧ c < 0x80

instance (c : Nat) : Decidable (Plain c) := inferInstanceAs (Decidable (_ ∧ _))

/-- What stands in front of the first unit that is no space. -/
theorem skipWs_start {cs rest : List Nat} {c : Nat} (plain : Plain c)
    (skipped : JsonReader.skipWs cs = c :: rest) : ∃ a behind, cs = a :: behind ∧ Plain a ∧
      (cs = c :: rest ∨ JsonReader.skipWs behind = c :: rest) := by
  cases cs with
  | nil => cases skipped
  | cons a behind =>
      rw [JsonReader.skipWs, List.dropWhile_cons] at skipped
      split_ifs at skipped with space
      · refine ⟨a, behind, rfl, ?_, .inr skipped⟩
        simp only [JsonReader.isWs, Bool.or_eq_true, decide_eq_true_eq] at space
        unfold Plain
        omega
      · cases skipped
        exact ⟨_, _, rfl, plain, .inl rfl⟩

open JsonReader in
/-- Behind the brace comes a space, a quote or the other brace. -/
theorem object_second {d : Dialect} {value : List Nat → Except Fault (Tree × List Nat)}
    {cs rest : List Nat} {t : Tree} (read : object d value cs = .ok (t, rest)) :
    ∃ b behind, cs = b :: behind ∧ Plain b := by
  have start {c : Nat} {behind : List Nat} (plain : Plain c) (skipped : skipWs cs = c :: behind) :
      ∃ b behind, cs = b :: behind ∧ Plain b := by
    obtain ⟨b, behind, shape, good, _⟩ := skipWs_start plain skipped
    exact ⟨b, behind, shape, good⟩
  unfold object at read
  split at read
  · cases read
  · rename_i c behind skipped
    split_ifs at read with brace
    · exact start (by rw [brace]; decide) skipped
    · obtain ⟨⟨ms, more⟩, inside, _⟩ := bind_ok_iff.mp read
      rw [members, skipped] at inside
      dsimp only at inside
      split_ifs at inside with quote
      exact start (by rw [quote]; decide) skipped

/-- The text of an object starts with two ASCII characters other than NUL. -/
theorem ObjectText.start {strict : Dialect} {text : List Nat} {members : Members}
    (object : ObjectText strict text members) :
    ∃ a b rest, text = a :: b :: rest ∧ Plain a ∧ Plain b := by
  obtain ⟨depth, read⟩ := object
  obtain ⟨⟨v, rest⟩, took, ended⟩ := bind_ok_iff.mp read
  dsimp only at ended
  split at ended
  · cases ended
    obtain ⟨inner, behind, skipped, inside⟩ := value_object took
    have brace : Plain 0x7B := by decide
    obtain ⟨a, tail, rfl, first, here | later⟩ := skipWs_start brace skipped
    · obtain ⟨b, more, rfl, second⟩ := object_second inside
      cases here
      exact ⟨_, b, more, rfl, first, second⟩
    · obtain ⟨b, more, rfl, second, _⟩ := skipWs_start brace later
      exact ⟨a, b, more, rfl, first, second⟩
  · cases ended

end SanDbOxFormal.Protocol
