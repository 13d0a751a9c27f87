import SanDbOxFormal.Library.Failures
import SanDbOxFormal.Library.JsonReader
import SanDbOxFormal.Library.Rfc8259

/-!
# How JSON values are spelled

The grammar over code units, with what a dialect makes of each text.  A reader takes
every text of the grammar whole, if what follows does not go on with a number.
-/

namespace SanDbOxFormal.Library.JsonReader

/-! ## Units -/

def Ws (cs : List Nat) : Prop := ∀ c ∈ cs, isWs c = true

/-- What comes does not go on with a number. -/
def Ends (rest : List Nat) : Prop :=
  ∀ c, rest.head? = some c → isDigit c = false ∧ c ≠ 0x2E ∧ c ≠ 0x65 ∧ c ≠ 0x45

/-- The first unit is there and is no space. -/
def Solid (cs : List Nat) : Prop := ∃ c more, cs = c :: more ∧ isWs c = false

theorem Ends.nil : Ends [] := nofun

theorem Ends.cons {c : Nat} {rest : List Nat} (digit : isDigit c = false) (point : c ≠ 0x2E)
    (small : c ≠ 0x65) (capital : c ≠ 0x45) : Ends (c :: rest) := by
  intro c' same
  cases same
  exact ⟨digit, point, small, capital⟩

theorem Ws.ends {ws rest : List Nat} (space : Ws ws) (ends : Ends rest) : Ends (ws ++ rest) := by
  cases ws with
  | nil => exact ends
  | cons c more =>
      have white := space c List.mem_cons_self
      simp only [isWs, Bool.or_eq_true, decide_eq_true_eq] at white
      rcases white with ((rfl | rfl) | rfl) | rfl <;> exact .cons rfl (by decide) (by decide) (by decide)

theorem skipWs_solid {ws cs : List Nat} (space : Ws ws) (solid : Solid cs) :
    skipWs (ws ++ cs) = cs := by
  obtain ⟨c, more, rfl, visible⟩ := solid
  rw [skipWs, List.dropWhile_append_of_pos space, List.dropWhile_cons_of_neg]
  rw [visible]
  exact Bool.false_ne_true

theorem skipWs_all {ws : List Nat} (space : Ws ws) : skipWs ws = [] :=
  List.dropWhile_eq_nil_iff.mpr space

theorem Solid.append {cs : List Nat} (solid : Solid cs) (rest : List Nat) : Solid (cs ++ rest) := by
  obtain ⟨c, more, rfl, visible⟩ := solid
  exact ⟨c, more ++ rest, rfl, visible⟩

/-! ## Numbers -/

/-- The units of characters. -/
def points (cs : List Char) : List Nat := cs.map Char.toNat

@[simp] theorem points_nil : points [] = [] := rfl

@[simp] theorem points_cons (c : Char) (cs : List Char) : points (c :: cs) = c.toNat :: points cs :=
  rfl

@[simp] theorem points_append (cs ds : List Char) : points (cs ++ ds) = points cs ++ points ds :=
  List.map_append

theorem chars_points (cs : List Char) : (points cs).map Char.ofNat = cs := by
  rw [points, List.map_map]
  exact (List.map_congr_left fun c _ => Char.ofNat_toNat c).trans (List.map_id cs)

theorem isDigit_toNat (c : Char) : isDigit c.toNat = Rfc8259.isDigit c := rfl

theorem digits_all {ds : List Char} {rest : List Nat} (all : Rfc8259.Digits ds)
    (stops : ∀ c, rest.head? = some c → isDigit c = false) :
    digits (points ds ++ rest) = (points ds, rest) := by
  have each : ∀ n ∈ points ds, isDigit n = true := by
    intro n inside
    obtain ⟨c, member, rfl⟩ := List.mem_map.mp inside
    exact all c member
  rw [digits, List.takeWhile_append_of_pos each, List.dropWhile_append_of_pos each]
  cases rest with
  | nil => simp
  | cons c more => simp [stops c rfl]

theorem intPart_reads {int : List Char} {rest : List Nat} (part : Rfc8259.IntPart int)
    (stops : ∀ c, rest.head? = some c → isDigit c = false) :
    intPart (points int ++ rest) = some (points int, rest) := by
  cases part with
  | zero => rfl
  | @digits d ds lead nonzero more =>
      have other : d.toNat ≠ 0x30 := fun same => nonzero (Char.toNat_inj.mp same)
      have whole := digits_all (Rfc8259.Digits.cons lead more) stops
      rw [points_cons, List.cons_append] at whole ⊢
      rw [intPart, isDigit_toNat, lead, if_neg (by decide), if_neg other, whole]

theorem someDigits_reads (mark : List Nat) {ds : List Char} {rest : List Nat} (nonempty : ds ≠ [])
    (all : Rfc8259.Digits ds) (stops : ∀ c, rest.head? = some c → isDigit c = false) :
    someDigits mark (points ds ++ rest) = some (mark ++ points ds, rest) := by
  cases ds with
  | nil => exact absurd rfl nonempty
  | cons d ds => rw [someDigits, digits_all all stops, points_cons]

theorem expPart_reads {exp : List Char} {rest : List Nat} (part : Rfc8259.ExpPart exp)
    (ends : Ends rest) : expPart (points exp ++ rest) = some (points exp, rest) := by
  cases part with
  | absent =>
      cases rest with
      | nil => rfl
      | cons c more =>
          obtain ⟨_, _, small, capital⟩ := ends c rfl
          simp [expPart, small, capital]
  | @exponent e sign ds letter signed nonempty digits =>
      have marked : (e.toNat = 0x65 || e.toNat = 0x45) = true := by
        rcases letter with rfl | rfl <;> rfl
      have stops := fun c head => (ends c head).1
      cases signed with
      | plus =>
          simp only [points_cons, List.cons_append, List.nil_append, expPart, marked, if_true]
          exact someDigits_reads _ nonempty digits stops
      | minus =>
          simp only [points_cons, List.cons_append, List.nil_append, expPart, marked, if_true]
          exact someDigits_reads _ nonempty digits stops
      | absent =>
          cases ds with
          | nil => exact absurd rfl nonempty
          | cons d ds =>
              have digit := digits d List.mem_cons_self
              have unsigned : ¬ (decide (d.toNat = 0x2B) || decide (d.toNat = 0x2D)) = true := by
                simp only [Rfc8259.isDigit, Bool.and_eq_true, decide_eq_true_eq] at digit
                simp only [Bool.or_eq_true, decide_eq_true_eq]
                omega
              have read := someDigits_reads [e.toNat] nonempty digits stops
              simp only [points_cons, List.cons_append, List.nil_append, expPart, marked, if_true,
                unsigned] at read ⊢
              exact read

/-- What comes behind the fraction does not go on with digits or a point. -/
theorem exp_head {exp : List Char} {rest : List Nat} (part : Rfc8259.ExpPart exp)
    (ends : Ends rest) (c : Nat) (head : (points exp ++ rest).head? = some c) :
    isDigit c = false ∧ c ≠ 0x2E := by
  cases part with
  | absent =>
      obtain ⟨digit, point, _, _⟩ := ends c head
      exact ⟨digit, point⟩
  | exponent letter _ _ _ =>
      rcases letter with rfl | rfl <;> cases head <;> exact ⟨rfl, by decide⟩

theorem fracPart_reads {frac : List Char} {rest : List Nat} (part : Rfc8259.FracPart frac)
    (stops : ∀ c, rest.head? = some c → isDigit c = false ∧ c ≠ 0x2E) :
    fracPart (points frac ++ rest) = some (points frac, rest) := by
  cases part with
  | absent =>
      cases rest with
      | nil => rfl
      | cons c more =>
          obtain ⟨_, other⟩ := stops c rfl
          simp [fracPart, other]
  | point nonempty digits =>
      exact someDigits_reads _ nonempty digits fun c head => (stops c head).1

theorem frac_head {frac : List Char} {rest : List Nat} (part : Rfc8259.FracPart frac)
    (stops : ∀ c, rest.head? = some c → isDigit c = false ∧ c ≠ 0x2E) (c : Nat)
    (head : (points frac ++ rest).head? = some c) : isDigit c = false := by
  cases part with
  | absent => exact (stops c head).1
  | point _ _ =>
      cases head
      rfl

/-- A number of the grammar is read whole. -/
theorem number_reads {cs : List Char} {rest : List Nat} (token : Rfc8259.Number cs)
    (ends : Ends rest) : number (points cs ++ rest) = some (points cs, rest) := by
  cases token with
  | @mk sign int frac exp signed hint hfrac hexp =>
      have behindFrac := exp_head hexp ends
      have readInt := intPart_reads hint (frac_head hfrac behindFrac)
      have readFrac := fracPart_reads hfrac behindFrac
      have readExp := expPart_reads hexp ends
      simp only [points_append, List.append_assoc]
      cases signed with
      | minus =>
          have mark : '-'.toNat = 0x2D := rfl
          simp only [points_cons, points_nil, List.cons_append, List.nil_append, number, mark,
            if_true, readInt, readFrac, readExp, Option.bind_eq_bind, Option.bind_some]
      | absent =>
          have unsigned : ∃ d more, points int = d :: more ∧ d ≠ 0x2D := by
            cases hint with
            | zero => exact ⟨0x30, [], rfl, by decide⟩
            | @digits d ds lead _ _ =>
                refine ⟨d.toNat, points ds, rfl, fun same => ?_⟩
                rw [← isDigit_toNat, same] at lead
                cases lead
          obtain ⟨d, more, shape, other⟩ := unsigned
          rw [shape] at readInt ⊢
          simp only [points_nil, List.nil_append, List.cons_append, number, if_neg other,
            Option.bind_eq_bind] at readInt ⊢
          rw [readInt]
          simp only [Option.bind_some, readFrac, readExp, List.cons_append]

/-! ## Strings -/

/-- A spelling of one unit of a string.  Where pairs are joined, a high surrogate is
not escaped on its own. -/
inductive Piece (d : Dialect) : List Nat → Nat → Prop where
  | plain {c : Nat} (notQuote : c ≠ 0x22) (notEscape : c ≠ 0x5C) (visible : 0x20 ≤ c) :
      Piece d [c] c
  | escape {e u : Nat} (found : simpleEscape? e = some u) : Piece d [0x5C, e] u
  | unicode {h₁ h₂ h₃ h₄ u : Nat} (found : hex4? h₁ h₂ h₃ h₄ = some u)
      (apart : d.joins = true → ¬ (0xD800 ≤ u ∧ u ≤ 0xDBFF)) :
      Piece d [0x5C, 0x75, h₁, h₂, h₃, h₄] u

inductive Pieces (d : Dialect) : List Nat → List Nat → Prop where
  | nil : Pieces d [] []
  | cons {first rest us : List Nat} {u : Nat} (piece : Piece d first u) (more : Pieces d rest us) :
      Pieces d (first ++ rest) (u :: us)

variable {d : Dialect}

theorem Pieces.single {text : List Nat} {u : Nat} (piece : Piece d text u) : Pieces d text [u] := by
  have one := Pieces.cons piece .nil
  rwa [List.append_nil] at one

theorem Pieces.append {first second us vs : List Nat} (one : Pieces d first us)
    (two : Pieces d second vs) : Pieces d (first ++ second) (us ++ vs) := by
  induction one with
  | nil => exact two
  | cons piece _ ih =>
      rw [List.append_assoc, List.cons_append]
      exact .cons piece ih

theorem Piece.reads {text : List Nat} {u : Nat} (piece : Piece d text u) (n : Nat)
    (rest : List Nat) : body d (n + 1) (text ++ rest) = prepend u (body d n rest) := by
  cases piece with
  | plain notQuote notEscape visible =>
      rw [List.singleton_append, body.eq_def]
      simp only [notQuote, notEscape, if_false]
      rw [if_neg (by omega)]
  | @escape e _ found =>
      have other : e ≠ 0x75 := by
        rintro rfl
        cases found
      simp only [List.cons_append, List.nil_append, body, other, found, if_false]
      rfl
  | unicode found apart =>
      have single : ¬ (d.joins && decide (0xD800 ≤ u) && decide (u ≤ 0xDBFF)) = true := by
        simp only [Bool.and_eq_true, decide_eq_true_eq, not_and]
        exact fun both high => apart both.1 ⟨both.2, high⟩
      simp only [List.cons_append, List.nil_append, body, found, single]
      rfl

/-- The body of a string is read up to its quote. -/
theorem Pieces.reads {text us : List Nat} (pieces : Pieces d text us) (rest : List Nat) {n : Nat}
    (enough : text.length < n) : body d n (text ++ 0x22 :: rest) = .ok (us, rest) := by
  induction pieces generalizing n with
  | nil =>
      obtain ⟨m, rfl⟩ := Nat.exists_eq_add_of_lt enough
      rfl
  | @cons first more us u piece _ ih =>
      have filled : 0 < first.length := by cases piece <;> exact Nat.zero_lt_succ _
      rw [List.length_append] at enough
      obtain ⟨m, rfl⟩ : ∃ m, n = m + 1 := ⟨n - 1, by omega⟩
      rw [List.append_assoc, piece.reads, ih (by omega)]
      rfl

theorem Pieces.string {text us : List Nat} (pieces : Pieces d text us) (rest : List Nat) :
    string d (text ++ 0x22 :: rest) = .ok (us, rest) := by
  refine pieces.reads rest ?_
  rw [List.length_append]
  omega

/-! ## Values -/

/-- The productions that recurse: a value, and the filled insides of an array and of an
object. -/
inductive Category where
  | value (t : Tree)
  | elements (ts : List Tree)
  | members (ms : List (List Nat × Tree))

/-- The texts of a value that nests at most so deep. -/
inductive Spelled (d : Dialect) : Nat → Category → List Nat → Prop where
  | null {n : Nat} : Spelled d n (.value .null) (units "null")
  | true {n : Nat} : Spelled d n (.value (.bool true)) (units "true")
  | false {n : Nat} : Spelled d n (.value (.bool false)) (units "false")
  | number {n : Nat} {cs : List Char} (token : Rfc8259.Number cs)
      (converts : d.overflows (points cs) = Bool.false) :
      Spelled d n (.value (.number (points cs))) (points cs)
  | string {n : Nat} {text us : List Nat} (pieces : Pieces d text us) :
      Spelled d n (.value (.string us)) (0x22 :: (text ++ [0x22]))
  | emptyArray {n : Nat} {ws : List Nat} (space : Ws ws) :
      Spelled d (n + 1) (.value (.array [])) (0x5B :: (ws ++ [0x5D]))
  | array {n : Nat} {ts : List Tree} {inside : List Nat}
      (filled : Spelled d n (.elements ts) inside) :
      Spelled d (n + 1) (.value (.array ts)) (0x5B :: (inside ++ [0x5D]))
  | emptyObject {n : Nat} {ws : List Nat} (space : Ws ws) :
      Spelled d (n + 1) (.value (.object [])) (0x7B :: (ws ++ [0x7D]))
  | object {n : Nat} {ms : List (List Nat × Tree)} {inside : List Nat}
      (filled : Spelled d n (.members ms) inside) :
      Spelled d (n + 1) (.value (.object ms)) (0x7B :: (inside ++ [0x7D]))
  | lastElement {n : Nat} {before text after : List Nat} {t : Tree} (hbefore : Ws before)
      (hvalue : Spelled d n (.value t) text) (hafter : Ws after) :
      Spelled d n (.elements [t]) (before ++ (text ++ after))
  | nextElement {n : Nat} {before text after rest : List Nat} {t : Tree} {ts : List Tree}
      (hbefore : Ws before) (hvalue : Spelled d n (.value t) text) (hafter : Ws after)
      (more : Spelled d n (.elements ts) rest) :
      Spelled d n (.elements (t :: ts)) (before ++ (text ++ (after ++ 0x2C :: rest)))
  | lastMember {n : Nat} {before raw key middle gap text after : List Nat} {t : Tree}
      (hbefore : Ws before) (hkey : Pieces d raw key) (hmiddle : Ws middle) (hgap : Ws gap)
      (hvalue : Spelled d n (.value t) text) (hafter : Ws after) :
      Spelled d n (.members [(key, t)])
        (before ++ 0x22 :: (raw ++ 0x22 :: (middle ++ 0x3A :: (gap ++ (text ++ after)))))
  | nextMember {n : Nat} {before raw key middle gap text after rest : List Nat} {t : Tree}
      {ms : List (List Nat × Tree)} (hbefore : Ws before) (hkey : Pieces d raw key)
      (hmiddle : Ws middle) (hgap : Ws gap) (hvalue : Spelled d n (.value t) text)
      (hafter : Ws after) (more : Spelled d n (.members ms) rest) :
      Spelled d n (.members ((key, t) :: ms))
        (before ++ 0x22 :: (raw ++ 0x22 :: (middle ++ 0x3A :: (gap ++ (text ++
          (after ++ 0x2C :: rest))))))

/-- The dialect has no bareword that a value could start with. -/
def Standard (d : Dialect) : Prop :=
  ∀ c rest, (c = 0x74 ∨ c = 0x66 ∨ c = 0x6E ∨ isDigit c = true ∨
    c = 0x2D ∧ ∃ digit more, rest = digit :: more ∧ isDigit digit = true) →
    bareword? d (c :: rest) = none

theorem standard_of_plain (plain : d.barewords = []) : Standard d := by
  intro c rest _
  rw [bareword?, plain]
  rfl

theorem number_start {cs : List Char} (token : Rfc8259.Number cs) :
    ∃ c more, points cs = c :: more ∧ (isDigit c = true ∨
      c = 0x2D ∧ ∃ digit rest, more = digit :: rest ∧ isDigit digit = true) := by
  have lead {int : List Char} (part : Rfc8259.IntPart int) (rest : List Char) :
      ∃ c more, points (int ++ rest) = c :: more ∧ isDigit c = true := by
    cases part with
    | zero => exact ⟨0x30, points rest, rfl, rfl⟩
    | @digits d ds lead _ _ => exact ⟨d.toNat, points (ds ++ rest), rfl, lead⟩
  cases token with
  | @mk sign int frac exp signed hint hfrac hexp =>
      obtain ⟨c, more, shape, digit⟩ := lead hint (frac ++ exp)
      cases signed with
      | absent => exact ⟨c, more, shape, .inl digit⟩
      | minus =>
          refine ⟨0x2D, c :: more, ?_, .inr ⟨rfl, c, more, rfl, digit⟩⟩
          rw [List.singleton_append, points_cons, shape]
          rfl

/-- A number is visible ASCII. -/
theorem number_ascii {cs : List Char} (token : Rfc8259.Number cs) :
    ∀ c ∈ cs, 0x20 < c.toNat ∧ c.toNat < 0x80 := by
  have run {ds : List Char} (digits : Rfc8259.Digits ds) :
      ∀ c ∈ ds, 0x20 < c.toNat ∧ c.toNat < 0x80 := by
    intro c inside
    have digit := digits c inside
    simp only [Rfc8259.isDigit, Bool.and_eq_true, decide_eq_true_eq] at digit
    omega
  cases token with
  | mk hsign hint hfrac hexp =>
      refine List.forall_mem_append.mpr ⟨?_, List.forall_mem_append.mpr ⟨?_,
        List.forall_mem_append.mpr ⟨?_, ?_⟩⟩⟩
      · cases hsign <;> simp
      · cases hint with
        | zero => simp
        | digits lead _ more => exact run (Rfc8259.Digits.cons lead more)
      · cases hfrac with
        | absent => exact nofun
        | point _ digits => exact List.forall_mem_cons.mpr ⟨by decide, run digits⟩
      · cases hexp with
        | absent => exact nofun
        | exponent letter signed _ digits =>
            refine List.forall_mem_cons.mpr ⟨?_, List.forall_mem_append.mpr ⟨?_, run digits⟩⟩
            · rcases letter with rfl | rfl <;> decide
            · cases signed <;> simp

theorem solid_of_digit {c : Nat} {more : List Nat} (digit : isDigit c = true) : Solid (c :: more) := by
  refine ⟨c, more, rfl, Bool.eq_false_iff.mpr fun white => ?_⟩
  simp only [isDigit, Bool.and_eq_true, decide_eq_true_eq] at digit
  simp only [isWs, Bool.or_eq_true, decide_eq_true_eq] at white
  omega

/-- No value starts with a space. -/
theorem Spelled.solid {n : Nat} {t : Tree} {text : List Nat}
    (spelled : Spelled d n (.value t) text) : Solid text := by
  cases spelled with
  | null => exact ⟨_, _, rfl, rfl⟩
  | true => exact ⟨_, _, rfl, rfl⟩
  | false => exact ⟨_, _, rfl, rfl⟩
  | number token =>
      obtain ⟨c, more, shape, digit | ⟨rfl, _⟩⟩ := number_start token
      · rw [shape]
        exact solid_of_digit digit
      · exact ⟨_, _, shape, rfl⟩
  | string => exact ⟨_, _, rfl, rfl⟩
  | emptyArray => exact ⟨_, _, rfl, rfl⟩
  | array => exact ⟨_, _, rfl, rfl⟩
  | emptyObject => exact ⟨_, _, rfl, rfl⟩
  | object => exact ⟨_, _, rfl, rfl⟩

/-- What reading makes of the text of a production, in front of what closes it. -/
def Reads (d : Dialect) (n : Nat) : Category → List Nat → Prop
  | .value t, text => ∀ rest, Ends rest → value d n (text ++ rest) = .ok (t, rest)
  | .elements ts, text => ∀ rest bound, text.length < bound →
      elements (value d n) bound (text ++ 0x5D :: rest) = .ok (ts, rest)
  | .members ms, text => ∀ rest bound, text.length < bound →
      members d (value d n) bound (text ++ 0x7D :: rest) = .ok (ms, rest)

theorem scalar_number (standard : Standard d) {cs : List Char} (token : Rfc8259.Number cs)
    {rest : List Nat} (ends : Ends rest) : scalar d (points cs ++ rest) =
      if d.overflows (points cs) then .error .malformed else .ok (.number (points cs), rest) := by
  have read := number_reads token ends
  obtain ⟨c, more, shape, start⟩ := number_start token
  have unknown : bareword? d (points cs ++ rest) = none := by
    rw [shape, List.cons_append]
    refine standard c _ (.inr (.inr (.inr ?_)))
    rcases start with digit | ⟨minus, digit, others, rfl, isDigit⟩
    · exact .inl digit
    · exact .inr ⟨minus, digit, others ++ rest, rfl, isDigit⟩
  have other (word : List Nat) (letter : ∃ w ws, word = w :: ws ∧ 0x61 ≤ w) :
      after? word (points cs ++ rest) = none := by
    obtain ⟨w, ws, rfl, letter⟩ := letter
    have different : w ≠ c := by
      rintro rfl
      rcases start with digit | ⟨rfl, _⟩
      · simp only [isDigit, Bool.and_eq_true, decide_eq_true_eq] at digit
        omega
      · omega
    rw [after?, shape, List.cons_append, List.isPrefixOf_cons_cons, beq_eq_false_iff_ne.mpr different]
    rfl
  rw [scalar, unknown, other (units "true") ⟨_, _, rfl, by decide⟩,
    other (units "false") ⟨_, _, rfl, by decide⟩, other (units "null") ⟨_, _, rfl, by decide⟩, read]

theorem scalar_word (standard : Standard d) {word : List Nat} {t : Tree}
    (known : (word = units "null" ∧ t = .null) ∨ (word = units "true" ∧ t = .bool true) ∨
      word = units "false" ∧ t = .bool false) (rest : List Nat) :
    scalar d (word ++ rest) = .ok (t, rest) := by
  have unknown {c : Nat} (more : List Nat) (letter : c = 0x74 ∨ c = 0x66 ∨ c = 0x6E) :
      bareword? d (c :: more) = none := by
    refine standard c more ?_
    rcases letter with rfl | rfl | rfl
    · exact .inl rfl
    · exact .inr (.inl rfl)
    · exact .inr (.inr (.inl rfl))
  rcases known with ⟨rfl, rfl⟩ | ⟨rfl, rfl⟩ | ⟨rfl, rfl⟩
  · change scalar d (0x6E :: _) = _
    rw [scalar, unknown _ (.inr (.inr rfl))]
    rfl
  · change scalar d (0x74 :: _) = _
    rw [scalar, unknown _ (.inl rfl)]
    rfl
  · change scalar d (0x66 :: _) = _
    rw [scalar, unknown _ (.inr (.inl rfl))]
    rfl

/-- A value whose first unit opens nothing is a scalar. -/
theorem value_scalar {n c : Nat} {rest : List Nat} (quote : c ≠ 0x22) (bracket : c ≠ 0x5B)
    (brace : c ≠ 0x7B) : value d n (c :: rest) = scalar d (c :: rest) := by
  cases n <;> rw [value, if_neg quote, if_neg bracket, if_neg brace]

theorem value_number {cs : List Char} (token : Rfc8259.Number cs) (n : Nat) (rest : List Nat) :
    value d n (points cs ++ rest) = scalar d (points cs ++ rest) := by
  obtain ⟨c, more, shape, start⟩ := number_start token
  have range : c = 0x2D ∨ 0x30 ≤ c ∧ c ≤ 0x39 := by
    rcases start with digit | ⟨minus, _⟩
    · simp only [isDigit, Bool.and_eq_true, decide_eq_true_eq] at digit
      exact .inr digit
    · exact .inl minus
  rw [shape, List.cons_append]
  exact value_scalar (by omega) (by omega) (by omega)

/-- The first unit of a value does not close an array. -/
theorem Spelled.opens {n : Nat} {t : Tree} {text : List Nat}
    (spelled : Spelled d n (.value t) text) : text.head? ≠ some 0x5D := by
  cases spelled with
  | number token =>
      obtain ⟨c, more, shape, start⟩ := number_start token
      rw [shape]
      rintro ⟨⟩
      rcases start with digit | ⟨same, _⟩
      · cases digit
      · cases same
  | _ => exact nofun

theorem value_string (n : Nat) (rest : List Nat) : value d n (0x22 :: rest) =
    string d rest >>= fun read => .ok (.string read.1, read.2) := by
  cases n <;> rfl

theorem value_array (n : Nat) (rest : List Nat) :
    value d (n + 1) (0x5B :: rest) = array (value d n) rest := rfl

theorem value_object (n : Nat) (rest : List Nat) :
    value d (n + 1) (0x7B :: rest) = object d (value d n) rest := rfl

theorem skipWs_elements {n : Nat} {ts : List Tree} {inside : List Nat}
    (filled : Spelled d n (.elements ts) inside) (tail : List Nat) :
    ∃ c more, skipWs (inside ++ tail) = c :: more ∧ c ≠ 0x5D := by
  have first {before text : List Nat} {t : Tree} (space : Ws before)
      (spelled : Spelled d n (.value t) text) (others : List Nat) :
      ∃ c more, skipWs (before ++ (text ++ others)) = c :: more ∧ c ≠ 0x5D := by
    have opens := spelled.opens
    rw [skipWs_solid space (spelled.solid.append others)]
    obtain ⟨c, more, rfl, _⟩ := spelled.solid
    exact ⟨c, more ++ others, rfl, fun same => opens (congrArg some same)⟩
  cases filled with
  | lastElement hbefore hvalue hafter =>
      rw [List.append_assoc, List.append_assoc]
      exact first hbefore hvalue _
  | nextElement hbefore hvalue hafter more =>
      rw [List.append_assoc, List.append_assoc]
      exact first hbefore hvalue _

theorem skipWs_members {n : Nat} {ms : List (List Nat × Tree)} {inside : List Nat}
    (filled : Spelled d n (.members ms) inside) (tail : List Nat) :
    ∃ more, skipWs (inside ++ tail) = 0x22 :: more := by
  cases filled with
  | lastMember hbefore _ _ _ _ _ =>
      rw [List.append_assoc, List.cons_append, skipWs_solid hbefore ⟨_, _, rfl, rfl⟩]
      exact ⟨_, rfl⟩
  | nextMember hbefore _ _ _ _ _ _ =>
      rw [List.append_assoc, List.cons_append, skipWs_solid hbefore ⟨_, _, rfl, rfl⟩]
      exact ⟨_, rfl⟩

/-- Reading a value in front of spaces and a mark. -/
theorem value_then {n : Nat} {t : Tree} {text after rest : List Nat} {mark : Nat}
    (reads : Reads d n (.value t) text) (hafter : Ws after)
    (ends : Ends (mark :: rest)) (solid : isWs mark = false) :
    value d n (text ++ (after ++ mark :: rest)) = .ok (t, after ++ mark :: rest) ∧
      skipWs (after ++ mark :: rest) = mark :: rest :=
  ⟨reads _ (hafter.ends ends), skipWs_solid hafter ⟨_, _, rfl, solid⟩⟩

theorem ends_comma (rest : List Nat) : Ends (0x2C :: rest) :=
  .cons rfl (by decide) (by decide) (by decide)

theorem ends_bracket (rest : List Nat) : Ends (0x5D :: rest) :=
  .cons rfl (by decide) (by decide) (by decide)

theorem ends_brace (rest : List Nat) : Ends (0x7D :: rest) :=
  .cons rfl (by decide) (by decide) (by decide)

/-- Reading a key, the colon and the value behind it. -/
theorem members_reads {value : List Nat → Except Fault (Tree × List Nat)}
    {before raw key middle gap text : List Nat} {rest : List Nat} {t : Tree} {m : Nat}
    {mark : Nat} {after : List Nat} (hbefore : Ws before) (hkey : Pieces d raw key)
    (hmiddle : Ws middle) (hgap : Ws gap) (solid : Solid text)
    (read : value (text ++ (after ++ mark :: rest)) = .ok (t, after ++ mark :: rest))
    (behind : skipWs (after ++ mark :: rest) = mark :: rest) :
    members d value (m + 1) (before ++ 0x22 :: (raw ++ 0x22 :: (middle ++ 0x3A :: (gap ++ (text ++
      (after ++ mark :: rest)))))) =
      if mark = 0x2C then do
        let (more, rest) ← members d value m rest
        .ok ((key, t) :: more, rest)
      else if mark = 0x7D then .ok ([(key, t)], rest)
      else .error .malformed := by
  rw [members, skipWs_solid hbefore ⟨_, _, rfl, rfl⟩]
  dsimp only
  rw [if_pos rfl, hkey.string]
  dsimp only [bind, Except.bind]
  rw [skipWs_solid hmiddle ⟨_, _, rfl, rfl⟩]
  dsimp only
  rw [if_pos rfl, skipWs_solid hgap (solid.append _), read]
  dsimp only [bind, Except.bind]
  rw [behind]

theorem Spelled.reads (standard : Standard d) {n : Nat} {category : Category} {text : List Nat}
    (spelled : Spelled d n category text) : Reads d n category text := by
  induction spelled with
  | null =>
      intro rest _
      exact (value_scalar (by decide) (by decide) (by decide)).trans
        (scalar_word standard (.inl ⟨rfl, rfl⟩) rest)
  | true =>
      intro rest _
      exact (value_scalar (by decide) (by decide) (by decide)).trans
        (scalar_word standard (.inr (.inl ⟨rfl, rfl⟩)) rest)
  | false =>
      intro rest _
      exact (value_scalar (by decide) (by decide) (by decide)).trans
        (scalar_word standard (.inr (.inr ⟨rfl, rfl⟩)) rest)
  | @number n cs token converts =>
      intro rest ends
      rw [value_number token, scalar_number standard token ends, converts]
      rfl
  | @string n text us pieces =>
      intro rest _
      rw [List.cons_append, List.append_assoc, List.singleton_append, value_string, pieces.string]
      rfl
  | @emptyArray n ws space =>
      intro rest _
      rw [List.cons_append, List.append_assoc, List.singleton_append, value_array, JsonReader.array,
        skipWs_solid space ⟨_, _, rfl, rfl⟩]
      rfl
  | @array n ts inside filled ih =>
      intro rest _
      obtain ⟨c, more, head, other⟩ := skipWs_elements filled (0x5D :: rest)
      have read := ih rest ((inside ++ 0x5D :: rest).length + 1) (by rw [List.length_append]; omega)
      rw [List.cons_append, List.append_assoc, List.singleton_append, value_array, JsonReader.array,
        head]
      dsimp only
      rw [if_neg other, read]
      rfl
  | @emptyObject n ws space =>
      intro rest _
      rw [List.cons_append, List.append_assoc, List.singleton_append, value_object,
        JsonReader.object, skipWs_solid space ⟨_, _, rfl, rfl⟩]
      rfl
  | @object n ms inside filled ih =>
      intro rest _
      obtain ⟨more, head⟩ := skipWs_members filled (0x7D :: rest)
      have read := ih rest ((inside ++ 0x7D :: rest).length + 1) (by rw [List.length_append]; omega)
      rw [List.cons_append, List.append_assoc, List.singleton_append, value_object,
        JsonReader.object, head]
      dsimp only
      rw [if_neg (by decide), read]
      rfl
  | lastElement hbefore hvalue hafter ih =>
      intro rest bound enough
      obtain ⟨bound, rfl⟩ : ∃ m, bound = m + 1 := ⟨bound - 1, by omega⟩
      obtain ⟨read, behind⟩ := value_then ih hafter (ends_bracket rest) rfl
      rw [List.append_assoc, List.append_assoc, elements,
        skipWs_solid hbefore (hvalue.solid.append _), read]
      dsimp only [bind, Except.bind]
      rw [behind]
      rfl
  | @nextElement n before text after others t ts hbefore hvalue hafter more ihValue ihMore =>
      intro rest bound enough
      simp only [List.length_append, List.length_cons] at enough
      obtain ⟨bound, rfl⟩ : ∃ m, bound = m + 1 := ⟨bound - 1, by omega⟩
      obtain ⟨read, behind⟩ := value_then ihValue hafter (ends_comma (others ++ 0x5D :: rest)) rfl
      have later := ihMore rest bound (by omega)
      simp only [List.append_assoc, List.cons_append]
      rw [elements, skipWs_solid hbefore (hvalue.solid.append _), read]
      dsimp only [bind, Except.bind]
      rw [behind]
      dsimp only
      rw [if_pos rfl, later]
  | lastMember hbefore hkey hmiddle hgap hvalue hafter ih =>
      intro rest bound enough
      obtain ⟨bound, rfl⟩ : ∃ m, bound = m + 1 := ⟨bound - 1, by omega⟩
      obtain ⟨read, behind⟩ := value_then ih hafter (ends_brace rest) rfl
      simp only [List.append_assoc, List.cons_append]
      rw [members_reads hbefore hkey hmiddle hgap hvalue.solid read behind]
      rfl
  | @nextMember n before raw key middle gap text after others t ms hbefore hkey hmiddle hgap hvalue
      hafter more ihValue ihMore =>
      intro rest bound enough
      simp only [List.length_append, List.length_cons] at enough
      obtain ⟨bound, rfl⟩ : ∃ m, bound = m + 1 := ⟨bound - 1, by omega⟩
      obtain ⟨read, behind⟩ := value_then ihValue hafter (ends_comma (others ++ 0x7D :: rest)) rfl
      have later := ihMore rest bound (by omega)
      simp only [List.append_assoc, List.cons_append]
      rw [members_reads hbefore hkey hmiddle hgap hvalue.solid read behind, if_pos rfl, later]
      rfl

/-- A number on its own is read, if the dialect converts it. -/
theorem read_number (standard : Standard d) {cs : List Char} (token : Rfc8259.Number cs) (n : Nat) :
    read d n (points cs) =
      if d.overflows (points cs) then .error .malformed else .ok (.number (points cs)) := by
  have spelled : Spelled ⟨d.barewords, d.refuses, d.joins, fun _ => false⟩ n
      (.value (.number (points cs))) (points cs) := .number token rfl
  have start : skipWs ([] ++ points cs) = points cs :=
    skipWs_solid (fun _ inside => absurd inside List.not_mem_nil) spelled.solid
  rw [List.nil_append] at start
  have scanned := (value_number token n []).trans (scalar_number standard token Ends.nil)
  rw [List.append_nil] at scanned
  rw [JsonReader.read, start, scanned]
  split_ifs <;> rfl

/-- A value between spaces is read. -/
theorem Spelled.read (standard : Standard d) {n : Nat} {t : Tree} {before text after : List Nat}
    (spelled : Spelled d n (.value t) text) (hbefore : Ws before) (hafter : Ws after) :
    read d n (before ++ (text ++ after)) = .ok t := by
  have ends : Ends after := by
    have padded := hafter.ends Ends.nil
    rwa [List.append_nil] at padded
  have taken := spelled.reads standard after ends
  rw [JsonReader.read, skipWs_solid hbefore (spelled.solid.append _), taken]
  change (if skipWs after = [] then _ else _) = _
  rw [if_pos (skipWs_all hafter)]

end SanDbOxFormal.Library.JsonReader
