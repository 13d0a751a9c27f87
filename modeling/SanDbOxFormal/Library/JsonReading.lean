import SanDbOxFormal.Library.Failures
import SanDbOxFormal.Library.JsonReader
import SanDbOxFormal.Library.Rfc8259

/-!
# What a JSON reader reads

Facts about whole readings: a property of the scalars of a dialect holds throughout
every tree that it reads, and a text that one dialect reads is read alike by another
that agrees on its scalars and goes at least as deep.
-/

namespace SanDbOxFormal.Library.JsonReader

/-! ## Trees -/

mutual

/-- Every value in the tree that is no array and no object satisfies `p`. -/
def Tree.All (p : Tree → Prop) : Tree → Prop
  | .array items => AllItems p items
  | .object ms => AllMembers p ms
  | t => p t

def AllItems (p : Tree → Prop) : List Tree → Prop
  | [] => True
  | t :: rest => t.All p ∧ AllItems p rest

def AllMembers (p : Tree → Prop) : List (List Nat × Tree) → Prop
  | [] => True
  | (_, t) :: rest => t.All p ∧ AllMembers p rest

end

theorem AllItems.find {p : Tree → Prop} {ts : List Tree} (all : AllItems p ts) {t : Tree}
    (inside : t ∈ ts) : t.All p := by
  induction ts with
  | nil => cases inside
  | cons first rest ih =>
      rcases List.mem_cons.mp inside with rfl | later
      · exact all.1
      · exact ih all.2 later

theorem AllMembers.find {p : Tree → Prop} {ms : List (List Nat × Tree)} (all : AllMembers p ms)
    {m : List Nat × Tree} (inside : m ∈ ms) : m.2.All p := by
  induction ms with
  | nil => cases inside
  | cons first rest ih =>
      rcases List.mem_cons.mp inside with rfl | later
      · exact all.1
      · exact ih all.2 later

/-! ## A property of the scalars -/

/-- What a step of a reader returned has the property. -/
def Returns {α : Type} (p : α → Prop) (x : Except Fault (α × List Nat)) : Prop :=
  ∀ a rest, x = .ok (a, rest) → p a

theorem Returns.bind {α β : Type} {p : α → Prop} {q : β → Prop} {x : Except Fault (α × List Nat)}
    {f : α × List Nat → Except Fault (β × List Nat)} (first : Returns p x)
    (second : ∀ a rest, p a → Returns q (f (a, rest))) : Returns q (x >>= f) := by
  intro b rest returned
  obtain ⟨⟨a, cs⟩, read, returned⟩ := bind_ok_iff.mp returned
  exact second a cs (first a cs read) b rest returned

theorem Returns.ok {α : Type} {p : α → Prop} {a : α} {rest : List Nat} (holds : p a) :
    Returns p (.ok (a, rest)) := by
  intro b cs same
  cases same
  exact holds

theorem Returns.error {α : Type} {p : α → Prop} {e : Fault} : Returns p (.error e) := nofun

theorem elements_all {p : Tree → Prop} {value : List Nat → Except Fault (Tree × List Nat)}
    (each : ∀ cs, Returns (Tree.All p) (value cs)) (n : Nat) (cs : List Nat) :
    Returns (AllItems p) (elements value n cs) := by
  induction n generalizing cs with
  | zero => exact .error
  | succ n ih =>
      rw [elements]
      refine (each _).bind fun t cs good => ?_
      dsimp only
      split
      · exact .error
      split_ifs
      · exact (ih _).bind fun ts cs others => .ok ⟨good, others⟩
      · exact .ok ⟨good, trivial⟩
      · exact .error

theorem members_all {p : Tree → Prop} {d : Dialect}
    {value : List Nat → Except Fault (Tree × List Nat)}
    (each : ∀ cs, Returns (Tree.All p) (value cs)) (n : Nat) (cs : List Nat) :
    Returns (AllMembers p) (members d value n cs) := by
  induction n generalizing cs with
  | zero => exact .error
  | succ n ih =>
      rw [members]
      split
      · exact .error
      split_ifs
      · refine Returns.bind (p := fun _ => True) (fun _ _ _ => trivial) fun key cs _ => ?_
        dsimp only
        split
        · exact .error
        split_ifs
        · refine (each _).bind fun t cs good => ?_
          dsimp only
          split
          · exact .error
          split_ifs
          · exact (ih _).bind fun ms cs others => .ok ⟨good, others⟩
          · exact .ok ⟨good, trivial⟩
          · exact .error
        · exact .error
      · exact .error

theorem value_all {p : Tree → Prop} {d : Dialect}
    (scalars : ∀ cs, Returns (Tree.All p) (scalar d cs)) (strings : ∀ s, p (.string s))
    (depth : Nat) (cs : List Nat) : Returns (Tree.All p) (value d depth cs) := by
  induction depth generalizing cs with
  | zero =>
      cases cs with
      | nil => exact .error
      | cons c rest =>
          rw [value]
          split_ifs
          · refine Returns.bind (p := fun _ => True) (fun _ _ _ => trivial) fun s cs _ => ?_
            exact .ok (strings s)
          · exact .error
          · exact .error
          · exact scalars _
  | succ depth ih =>
      cases cs with
      | nil => exact .error
      | cons c rest =>
          rw [value]
          split_ifs
          · refine Returns.bind (p := fun _ => True) (fun _ _ _ => trivial) fun s cs _ => ?_
            exact .ok (strings s)
          · rw [array]
            split
            · exact .error
            split_ifs
            · exact .ok trivial
            · exact (elements_all ih _ _).bind fun ts cs all => .ok all
          · rw [object]
            split
            · exact .error
            split_ifs
            · exact .ok trivial
            · exact (members_all ih _ _).bind fun ms cs all => .ok all
          · exact scalars _

/-- What every scalar of a dialect has, every scalar of a tree that it read has. -/
theorem read_all {p : Tree → Prop} {d : Dialect} {depth : Nat} {text : List Nat} {t : Tree}
    (scalars : ∀ cs, Returns (Tree.All p) (scalar d cs)) (strings : ∀ s, p (.string s))
    (read : read d depth text = .ok t) : t.All p := by
  obtain ⟨⟨v, rest⟩, took, ended⟩ := bind_ok_iff.mp read
  dsimp only at ended
  split at ended
  · cases ended
    exact value_all scalars strings depth _ _ _ took
  · cases ended

/-! ## Dialects that agree -/

/-- What the first step returned, the second does. -/
def Follows {α : Type} (x y : Except Fault (α × List Nat)) : Prop :=
  ∀ a rest, x = .ok (a, rest) → y = .ok (a, rest)

theorem Follows.refl {α : Type} (x : Except Fault (α × List Nat)) : Follows x x := fun _ _ => id

theorem Follows.error {α : Type} {e : Fault} {y : Except Fault (α × List Nat)} :
    Follows (.error e) y := nofun

theorem Follows.bind {α β : Type} {x y : Except Fault (α × List Nat)}
    {f g : α × List Nat → Except Fault (β × List Nat)} (first : Follows x y)
    (second : ∀ a cs, Follows (f (a, cs)) (g (a, cs))) : Follows (x >>= f) (y >>= g) := by
  intro b rest returned
  obtain ⟨⟨a, cs⟩, read, returned⟩ := bind_ok_iff.mp returned
  exact bind_ok_iff.mpr ⟨(a, cs), first a cs read, second a cs b rest returned⟩

/-- The second dialect reads every scalar that the first one reads. -/
structure Agrees (d d' : Dialect) : Prop where
  joins : d.joins = d'.joins
  scalar : ∀ cs, Follows (scalar d cs) (scalar d' cs)

theorem Agrees.refl (d : Dialect) : Agrees d d := ⟨rfl, fun _ => .refl _⟩

variable {d d' : Dialect}

theorem body_joins (joins : d.joins = d'.joins) (n : Nat) (cs : List Nat) :
    body d n cs = body d' n cs := by
  induction n generalizing cs with
  | zero => rfl
  | succ n ih =>
      cases cs with
      | nil => rfl
      | cons c rest => simp only [body, joins, ih]

theorem Agrees.string (agrees : Agrees d d') (cs : List Nat) : string d cs = string d' cs :=
  body_joins agrees.joins _ cs

theorem elements_follows {value value' : List Nat → Except Fault (Tree × List Nat)}
    (each : ∀ cs, Follows (value cs) (value' cs)) (n : Nat) (cs : List Nat) :
    Follows (elements value n cs) (elements value' n cs) := by
  induction n generalizing cs with
  | zero => exact .refl _
  | succ n ih =>
      rw [elements, elements]
      refine (each _).bind fun t cs => ?_
      dsimp only
      split
      · exact .refl _
      split_ifs
      · exact (ih _).bind fun ts cs => .refl _
      · exact .refl _
      · exact .refl _

theorem Agrees.members (agrees : Agrees d d')
    {value value' : List Nat → Except Fault (Tree × List Nat)}
    (each : ∀ cs, Follows (value cs) (value' cs)) (n : Nat) (cs : List Nat) :
    Follows (members d value n cs) (members d' value' n cs) := by
  induction n generalizing cs with
  | zero => exact .refl _
  | succ n ih =>
      rw [JsonReader.members, JsonReader.members]
      split
      · exact .refl _
      split_ifs
      · rw [agrees.string]
        refine (Follows.refl _).bind fun key cs => ?_
        dsimp only
        split
        · exact .refl _
        split_ifs
        · refine (each _).bind fun t cs => ?_
          dsimp only
          split
          · exact .refl _
          split_ifs
          · exact (ih _).bind fun ms cs => .refl _
          · exact .refl _
          · exact .refl _
        · exact .refl _
      · exact .refl _

theorem Agrees.array {value value' : List Nat → Except Fault (Tree × List Nat)}
    (each : ∀ cs, Follows (value cs) (value' cs)) (cs : List Nat) :
    Follows (array value cs) (array value' cs) := by
  rw [JsonReader.array, JsonReader.array]
  split
  · exact .refl _
  split_ifs
  · exact .refl _
  · exact (elements_follows each _ _).bind fun ts cs => .refl _

theorem Agrees.object (agrees : Agrees d d')
    {value value' : List Nat → Except Fault (Tree × List Nat)}
    (each : ∀ cs, Follows (value cs) (value' cs)) (cs : List Nat) :
    Follows (object d value cs) (object d' value' cs) := by
  rw [JsonReader.object, JsonReader.object]
  split
  · exact .refl _
  split_ifs
  · exact .refl _
  · exact (agrees.members each _ _).bind fun ms cs => .refl _

theorem Agrees.value (agrees : Agrees d d') {depth depth' : Nat} (deeper : depth ≤ depth')
    (cs : List Nat) : Follows (value d depth cs) (value d' depth' cs) := by
  induction depth generalizing depth' cs with
  | zero =>
      cases cs with
      | nil => exact .error
      | cons c rest =>
          rw [JsonReader.value, JsonReader.value.eq_def d' depth']
          dsimp only
          split_ifs
          · rw [agrees.string]
            exact .refl _
          · exact .error
          · exact .error
          · exact agrees.scalar _
  | succ depth ih =>
      obtain ⟨inner, rfl⟩ : ∃ inner, depth' = inner + 1 := ⟨depth' - 1, by omega⟩
      have each := fun cs => ih (Nat.le_of_succ_le_succ deeper) cs
      cases cs with
      | nil => exact .error
      | cons c rest =>
          rw [JsonReader.value, JsonReader.value]
          split_ifs
          · rw [agrees.string]
            exact .refl _
          · exact Agrees.array each _
          · exact agrees.object each _
          · exact agrees.scalar _

theorem Agrees.read (agrees : Agrees d d') {depth depth' : Nat} (deeper : depth ≤ depth')
    {text : List Nat} {t : Tree} (read : read d depth text = .ok t) :
    JsonReader.read d' depth' text = .ok t := by
  obtain ⟨⟨v, rest⟩, took, ended⟩ := bind_ok_iff.mp read
  exact bind_ok_iff.mpr ⟨(v, rest), agrees.value deeper _ _ _ took, ended⟩

/-- Two dialects that agree with a third read the same tree. -/
theorem read_unique {e : Dialect} (first : Agrees d e) (second : Agrees d' e)
    {depth depth' : Nat} {text : List Nat} {t t' : Tree} (read : read d depth text = .ok t)
    (read' : JsonReader.read d' depth' text = .ok t') : t = t' := by
  have one := first.read (Nat.le_max_left depth depth') read
  have two := second.read (Nat.le_max_right depth depth') read'
  exact Except.ok.inj (one.symm.trans two)

/-! ## Numbers -/

open Rfc8259 in
/-- The token of a number of the grammar. -/
def Token (raw : List Nat) : Prop := ∃ cs : List Char, raw = cs.map Char.toNat ∧ Number cs

/-- Units that are characters of a kind. -/
theorem chars_of_units {p : Nat → Bool} {q : Char → Bool} {m : Nat} (small : m ≤ 0xD800)
    (range : ∀ n, p n = true → n < m) (same : ∀ c : Char, p c.toNat = q c) {ns : List Nat}
    (all : ∀ n ∈ ns, p n = true) :
    ∃ cs : List Char, ns = cs.map Char.toNat ∧ ∀ c ∈ cs, q c = true := by
  induction ns with
  | nil => exact ⟨[], rfl, nofun⟩
  | cons n rest ih =>
      obtain ⟨first, others⟩ := List.forall_mem_cons.mp all
      obtain ⟨cs, rfl, good⟩ := ih others
      have valid : n.isValidChar := .inl (Nat.lt_of_lt_of_le (range n first) small)
      have value : (Char.ofNat n).toNat = n := by rw [Char.toNat_ofNat, if_pos valid]
      refine ⟨Char.ofNat n :: cs, by rw [List.map_cons, value], ?_⟩
      refine List.forall_mem_cons.mpr ⟨?_, good⟩
      rw [← same, value]
      exact first

open Rfc8259 in
theorem digits_token (cs : List Nat) : ∃ ds, (digits cs).1 = ds.map Char.toNat ∧ Digits ds := by
  refine chars_of_units (p := JsonReader.isDigit) (q := Rfc8259.isDigit) (m := 0x3A) (by decide)
    (fun n digit => ?_) (fun _ => rfl) fun n inside => List.mem_takeWhile_imp inside
  simp only [JsonReader.isDigit, Bool.and_eq_true, decide_eq_true_eq] at digit
  omega

open Rfc8259 in
theorem intPart_token {cs raw rest : List Nat} (read : intPart cs = some (raw, rest)) :
    ∃ ds, raw = ds.map Char.toNat ∧ IntPart ds := by
  cases cs with
  | nil => cases read
  | cons c tail =>
      rw [intPart] at read
      split_ifs at read with other zero
      · cases read
        exact ⟨['0'], by rw [zero]; rfl, .zero⟩
      · have digit : JsonReader.isDigit c = true := by simpa using other
        obtain ⟨ds, shape, all⟩ := digits_token (c :: tail)
        cases read
        have lead : (c :: tail).takeWhile JsonReader.isDigit = c :: tail.takeWhile JsonReader.isDigit := by
          rw [List.takeWhile_cons, if_pos digit]
        refine ⟨ds, shape, ?_⟩
        rw [digits, lead] at shape
        cases ds with
        | nil => cases shape
        | cons d ds =>
            rw [List.map_cons, List.cons.injEq] at shape
            obtain ⟨first, others⟩ := List.forall_mem_cons.mp all
            refine .digits first (fun same => zero ?_) others
            rw [shape.1, same]
            rfl

open Rfc8259 in
theorem someDigits_token {mark cs raw rest : List Nat}
    (read : someDigits mark cs = some (raw, rest)) :
    ∃ ds, raw = mark ++ ds.map Char.toNat ∧ ds ≠ [] ∧ Digits ds := by
  obtain ⟨ds, shape, all⟩ := digits_token cs
  unfold someDigits at read
  split at read
  · cases read
  · rename_i some other found
    cases read
    rw [found] at shape
    refine ⟨ds, by rw [← shape], fun none => ?_, all⟩
    rw [none] at shape
    exact other shape

open Rfc8259 in
theorem fracPart_token {cs raw rest : List Nat} (read : fracPart cs = some (raw, rest)) :
    ∃ ds, raw = ds.map Char.toNat ∧ FracPart ds := by
  cases cs with
  | nil =>
      cases read
      exact ⟨[], rfl, .absent⟩
  | cons c tail =>
      rw [fracPart] at read
      split_ifs at read with point
      · obtain ⟨ds, rfl, nonempty, all⟩ := someDigits_token read
        exact ⟨'.' :: ds, by rw [point]; rfl, .point nonempty all⟩
      · cases read
        exact ⟨[], rfl, .absent⟩

open Rfc8259 in
theorem expPart_token {cs raw rest : List Nat} (read : expPart cs = some (raw, rest)) :
    ∃ ds, raw = ds.map Char.toNat ∧ ExpPart ds := by
  have letter {c : Nat} (mark : (c = 0x65 || c = 0x45) = true) :
      ∃ e : Char, e.toNat = c ∧ (e = 'e' ∨ e = 'E') := by
    rw [Bool.or_eq_true, decide_eq_true_eq, decide_eq_true_eq] at mark
    rcases mark with rfl | rfl
    · exact ⟨'e', rfl, .inl rfl⟩
    · exact ⟨'E', rfl, .inr rfl⟩
  have sign {c : Nat} (mark : (c = 0x2B || c = 0x2D) = true) :
      ∃ e : Char, e.toNat = c ∧ ExpSign [e] := by
    rw [Bool.or_eq_true, decide_eq_true_eq, decide_eq_true_eq] at mark
    rcases mark with rfl | rfl
    · exact ⟨'+', rfl, .plus⟩
    · exact ⟨'-', rfl, .minus⟩
  cases cs with
  | nil =>
      cases read
      exact ⟨[], rfl, .absent⟩
  | cons c tail =>
      rw [expPart.eq_def] at read
      dsimp only at read
      split_ifs at read with mark
      · obtain ⟨e, rfl, isLetter⟩ := letter mark
        cases tail with
        | nil => cases read
        | cons s tail =>
            dsimp only at read
            split_ifs at read with signed
            · obtain ⟨s, rfl, isSign⟩ := sign signed
              obtain ⟨ds, rfl, nonempty, all⟩ := someDigits_token read
              exact ⟨e :: ([s] ++ ds), rfl, .exponent isLetter isSign nonempty all⟩
            · obtain ⟨ds, rfl, nonempty, all⟩ := someDigits_token read
              exact ⟨e :: ([] ++ ds), rfl, .exponent isLetter .absent nonempty all⟩
      · cases read
        exact ⟨[], rfl, .absent⟩

/-- What `number` reads behind the sign. -/
def unsigned (sign cs : List Nat) : Option (List Nat × List Nat) := do
  let (int, cs) ← intPart cs
  let (frac, cs) ← fracPart cs
  let (exp, cs) ← expPart cs
  some (sign ++ (int ++ (frac ++ exp)), cs)

theorem number_plain {c : Nat} (minus : c ≠ 0x2D) (rest : List Nat) :
    number (c :: rest) = unsigned [] (c :: rest) := by
  simp only [number, minus, if_false]
  rfl

open Rfc8259 in
theorem number_token {cs raw rest : List Nat} (read : number cs = some (raw, rest)) : Token raw := by
  have whole {sign : List Char} (signed : Sign sign) {cs : List Nat}
      (read : unsigned (sign.map Char.toNat) cs = some (raw, rest)) : Token raw := by
    obtain ⟨⟨int, cs₁⟩, hint, read⟩ := Option.bind_eq_some_iff.mp read
    obtain ⟨⟨frac, cs₂⟩, hfrac, read⟩ := Option.bind_eq_some_iff.mp read
    obtain ⟨⟨exp, cs₃⟩, hexp, read⟩ := Option.bind_eq_some_iff.mp read
    obtain ⟨int, rfl, isInt⟩ := intPart_token hint
    obtain ⟨frac, rfl, isFrac⟩ := fracPart_token hfrac
    obtain ⟨exp, rfl, isExp⟩ := expPart_token hexp
    cases read
    refine ⟨sign ++ (int ++ (frac ++ exp)), ?_, .mk signed isInt isFrac isExp⟩
    simp only [List.map_append]
  cases cs with
  | nil => exact whole .absent read
  | cons c tail =>
      by_cases minus : c = 0x2D
      · subst minus
        exact whole .minus read
      · rw [number_plain minus] at read
        exact whole .absent read

/-- The numbers of a tree are numbers of the grammar. -/
def Numeral : Tree → Prop
  | .number raw => Token raw
  | _ => True

theorem scalar_numeral (d : Dialect) (cs : List Nat) : Returns (Tree.All Numeral) (scalar d cs) := by
  unfold scalar
  split
  · split_ifs
    · exact .error
    · exact .ok trivial
  · split
    · exact .ok trivial
    · exact .ok trivial
    · exact .ok trivial
    · split
      · rename_i raw rest read
        split_ifs
        · exact .error
        · exact .ok (number_token read)
      · exact .error

theorem read_numeral {d : Dialect} {depth : Nat} {text : List Nat} {t : Tree}
    (read : read d depth text = .ok t) : t.All Numeral :=
  read_all (scalar_numeral d) (fun _ => trivial) read

end SanDbOxFormal.Library.JsonReader
