import SanDbOxFormal.Rust.Codec.JsonSoundness

/-!
# What is in the grammar the parser reads

The converse of soundness: on a text that a production derives, each parser
function returns the denoted value and stops right behind the text.  Scanners
take as much as they can, so a number needs to know that what follows cannot
extend it.
-/

namespace SanDbOxFormal.Rust.Codec.Json

open SanDbOxFormal.Library
open SanDbOxFormal.Library.Rfc8259

variable {s : String}

namespace Parser

/-- Returned `v` and stopped where `rest` is left. -/
def Takes {α : Type} (s : String) (rest : List Char) (v : α) (x : Except Stop (α × Parser)) : Prop :=
  ∃ q, x = .ok (v, q) ∧ At s q rest

/-- Moved on to where `rest` is left. -/
def Reaches (s : String) (rest : List Char) (x : Except Stop Parser) : Prop :=
  ∃ q, x = .ok q ∧ At s q rest

section Sequencing

variable {α β : Type} {rest after : List Char} {v : α} {w : β}

theorem Takes.bind {x : Except Stop (α × Parser)} {f : α × Parser → Except Stop (β × Parser)}
    (first : Takes s rest v x) (more : ∀ q, At s q rest → Takes s after w (f (v, q))) :
    Takes s after w (x >>= f) := by
  obtain ⟨q, rfl, there⟩ := first
  exact more q there

theorem Reaches.bind {x : Except Stop Parser} {f : Parser → Except Stop (β × Parser)}
    (first : Reaches s rest x) (more : ∀ q, At s q rest → Takes s after w (f q)) :
    Takes s after w (x >>= f) := by
  obtain ⟨q, rfl, there⟩ := first
  exact more q there

end Sequencing

theorem At.peek_iff {p : Parser} {cs : List Char} (here : At s p cs) (c : Char)
    (narrow : c.toNat < 0x80) :
    p.peekByte = some (UInt8.ofNat c.toNat) ↔ cs.head? = some c := by
  constructor
  · intro peeked
    obtain ⟨rest, shape, _⟩ := here.of_peek_char c peeked narrow
    rw [shape]
    rfl
  · intro first
    cases cs with
    | nil => cases first
    | cons d rest =>
        cases first
        exact here.peek_ascii narrow

/-! ## Runs of one class -/

/-- The text does not go on with a character of the class. -/
def Stops (pred : Char → Bool) (rest : List Char) : Prop :=
  ∀ c, rest.head? = some c → pred c = false

theorem Stops.nil (pred : Char → Bool) : Stops pred [] := fun _ found => by cases found

theorem Stops.cons {pred : Char → Bool} {c : Char} (other : pred c = false) (rest : List Char) :
    Stops pred (c :: rest) := fun d found => by cases found; exact other

theorem Stops.dropWhile {pred : Char → Bool} {rest : List Char} (stops : Stops pred rest) :
    rest.dropWhile pred = rest := by
  cases rest with
  | nil => rfl
  | cons c rest =>
      rw [List.dropWhile_cons_of_neg]
      rw [stops c rfl]
      decide

theorem dropWhile_run {pred : Char → Bool} {run : List Char} (all : ∀ c ∈ run, pred c = true)
    (rest : List Char) : (run ++ rest).dropWhile pred = rest.dropWhile pred :=
  List.dropWhile_append_of_pos all

theorem skipDigits_run {p : Parser} {ds rest : List Char} (here : At s p (ds ++ rest))
    (digits : Digits ds) (stops : Stops isDigit rest) : At s p.skipDigits rest := by
  have moved := here.skipDigits
  rwa [dropWhile_run digits, stops.dropWhile] at moved

theorem skipWs_run {p : Parser} {ws rest : List Char} (here : At s p (ws ++ rest))
    (space : Ws ws) (stops : Stops isWs rest) : At s p.skipWs rest := by
  have moved := here.skipWs
  rwa [dropWhile_run space, stops.dropWhile] at moved

/-- A run of at least one digit moves the position. -/
theorem skipDigits_moved {p : Parser} {ds rest : List Char} (here : At s p (ds ++ rest))
    (digits : Digits ds) (stops : Stops isDigit rest) (nonempty : ds ≠ []) :
    p.skipDigits.pos ≠ p.pos := by
  intro stayed
  have same := (here.pos_eq_iff (skipDigits_run here digits stops)).mp stayed
  exact nonempty (List.append_left_eq_self.mp same.symm)

/-! ## Numbers -/

/-- A character that could extend a number. -/
def extendsNumber (c : Char) : Bool := isDigit c || c = '.' || c = 'e' || c = 'E'

abbrev Ends (rest : List Char) : Prop := Stops extendsNumber rest

theorem extendsNumber_ws {c : Char} (space : isWs c = true) : extendsNumber c = false := by
  simp only [isWs, Bool.or_eq_true, decide_eq_true_eq] at space
  rcases space with ((rfl | rfl) | rfl) | rfl <;> decide

theorem Ends.pad {ws rest : List Char} (space : Ws ws) (ends : Ends rest) : Ends (ws ++ rest) := by
  cases ws with
  | nil => exact ends
  | cons c ws => exact Stops.cons (extendsNumber_ws (space c List.mem_cons_self)) _

theorem Ends.not_digit {rest : List Char} (ends : Ends rest) : Stops isDigit rest := by
  intro c first
  have none := ends c first
  simp only [extendsNumber, Bool.or_eq_false_iff] at none
  exact none.1.1.1

theorem Ends.head_ne {rest : List Char} (ends : Ends rest) {c : Char}
    (extending : extendsNumber c = true) : rest.head? ≠ some c := by
  intro first
  rw [ends c first] at extending
  cases extending

theorem expPart_stops {exp rest : List Char} (hexp : ExpPart exp) (ends : Ends rest) :
    Stops isDigit (exp ++ rest) ∧ (exp ++ rest).head? ≠ some '.' := by
  cases hexp with
  | absent => exact ⟨ends.not_digit, ends.head_ne (by decide)⟩
  | exponent letter signed nonempty digits =>
      rcases letter with rfl | rfl
      · exact ⟨Stops.cons (by decide) _, by simp⟩
      · exact ⟨Stops.cons (by decide) _, by simp⟩

theorem fracPart_stops {frac more : List Char} (hfrac : FracPart frac)
    (stops : Stops isDigit more) : Stops isDigit (frac ++ more) := by
  cases hfrac with
  | absent => exact stops
  | point nonempty digits => exact Stops.cons (by decide) _

theorem skipMinus_takes {p : Parser} {sign rest : List Char} (here : At s p (sign ++ rest))
    (hsign : Sign sign) (other : rest.head? ≠ some '-') : At s p.skipMinus rest := by
  unfold skipMinus
  cases hsign with
  | absent =>
      have none : ¬ p.peekByte = some 0x2D := fun minus => other ((here.peek_iff '-' (by decide)).mp minus)
      rw [if_neg none]
      exact here
  | minus =>
      have found : p.peekByte = some 0x2D := (here.peek_iff '-' (by decide)).mpr rfl
      rw [if_pos found]
      exact here.next_ascii (by decide)

theorem parseInt_takes {p : Parser} {int rest : List Char} (here : At s p (int ++ rest))
    (hint : IntPart int) (stops : Stops isDigit rest) : Reaches s rest p.parseInt := by
  unfold parseInt
  cases hint with
  | zero =>
      rw [(here.peek_iff '0' (by decide)).mpr rfl]
      exact ⟨p.next, rfl, here.next_ascii (by decide)⟩
  | @digits d ds lead nonzero more =>
      have narrow := At.digit_agrees.1 d lead
      obtain ⟨byte, peeked, low, high⟩ := here.peek_cons
      have digit : isDigitByte byte = true := by rw [At.digit_agrees.2 d byte low high, lead]
      have other : byte ≠ 0x30 := by
        intro zero
        have value := low narrow
        rw [zero] at value
        exact nonzero (Char.toNat_inj.mp value.symm)
      rw [peeked]
      simp only [other, digit, if_true, if_false]
      exact ⟨_, rfl, skipDigits_run here (Digits.cons lead more) stops⟩

theorem parseFrac_takes {p : Parser} {frac rest : List Char} (here : At s p (frac ++ rest))
    (hfrac : FracPart frac) (stops : Stops isDigit rest) (other : rest.head? ≠ some '.') :
    Reaches s rest p.parseFrac := by
  unfold parseFrac
  cases hfrac with
  | absent =>
      have none : ¬ p.peekByte = some 0x2E := fun point => other ((here.peek_iff '.' (by decide)).mp point)
      rw [if_neg none]
      exact ⟨p, rfl, here⟩
  | @point ds nonempty digits =>
      have found : p.peekByte = some 0x2E := (here.peek_iff '.' (by decide)).mpr rfl
      have there : At s p.next (ds ++ rest) := here.next_ascii (by decide)
      rw [if_pos found]
      dsimp only
      rw [if_neg (skipDigits_moved there digits stops nonempty)]
      exact ⟨_, rfl, skipDigits_run there digits stops⟩

theorem skipExpSign_takes {p : Parser} {sign rest : List Char} (here : At s p (sign ++ rest))
    (hsign : ExpSign sign) (other : rest.head? ≠ some '+' ∧ rest.head? ≠ some '-') :
    At s p.skipExpSign rest := by
  unfold skipExpSign
  cases hsign with
  | absent =>
      rw [if_neg]
      · exact here
      · rintro (plus | minus)
        · exact other.1 ((here.peek_iff '+' (by decide)).mp plus)
        · exact other.2 ((here.peek_iff '-' (by decide)).mp minus)
  | plus =>
      have found : p.peekByte = some 0x2B := (here.peek_iff '+' (by decide)).mpr rfl
      rw [if_pos (.inl found)]
      exact here.next_ascii (by decide)
  | minus =>
      have found : p.peekByte = some 0x2D := (here.peek_iff '-' (by decide)).mpr rfl
      rw [if_pos (.inr found)]
      exact here.next_ascii (by decide)

theorem digits_head_ne {ds rest : List Char} (nonempty : ds ≠ []) (digits : Digits ds) {c : Char}
    (other : isDigit c = false) : (ds ++ rest).head? ≠ some c := by
  cases ds with
  | nil => exact absurd rfl nonempty
  | cons d ds =>
      intro first
      cases first
      rw [digits c List.mem_cons_self] at other
      cases other

theorem parseExp_takes {p : Parser} {exp rest : List Char} (here : At s p (exp ++ rest))
    (hexp : ExpPart exp) (ends : Ends rest) : Reaches s rest p.parseExp := by
  unfold parseExp
  cases hexp with
  | absent =>
      rw [if_neg]
      · exact ⟨p, rfl, here⟩
      · rintro (lower | upper)
        · exact ends.head_ne (by decide) ((here.peek_iff 'e' (by decide)).mp lower)
        · exact ends.head_ne (by decide) ((here.peek_iff 'E' (by decide)).mp upper)
  | @exponent e sign ds letter signed nonempty digits =>
      have opened : (p.peekByte = some 0x65 ∨ p.peekByte = some 0x45) ∧ e.toNat < 0x80 := by
        rcases letter with rfl | rfl
        · exact ⟨.inl ((here.peek_iff 'e' (by decide)).mpr rfl), by decide⟩
        · exact ⟨.inr ((here.peek_iff 'E' (by decide)).mpr rfl), by decide⟩
      have there : At s p.next (sign ++ (ds ++ rest)) := by
        rw [← List.append_assoc]
        exact here.next_ascii opened.2
      have at2 := skipExpSign_takes there signed
        ⟨digits_head_ne nonempty digits (by decide), digits_head_ne nonempty digits (by decide)⟩
      rw [if_pos opened.1]
      dsimp only
      rw [if_neg (skipDigits_moved at2 digits ends.not_digit nonempty)]
      exact ⟨_, rfl, skipDigits_run at2 digits ends.not_digit⟩

theorem intPart_head_ne {int rest : List Char} (hint : IntPart int) {c : Char}
    (other : isDigit c = false) : (int ++ rest).head? ≠ some c := by
  cases hint with
  | zero =>
      intro first
      cases first
      cases other
  | digits lead nonzero more =>
      exact digits_head_ne (List.cons_ne_nil _ _) (Digits.cons lead more) other

theorem parseNumber_takes {p : Parser} {text rest : List Char} (here : At s p (text ++ rest))
    (number : Number text) (ends : Ends rest) :
    Takes s rest (⟨String.ofList text⟩ : NumberToken) p.parseNumber := by
  cases number with
  | @mk sign int frac exp hsign hint hfrac hexp =>
      have shape : (sign ++ (int ++ (frac ++ exp))) ++ rest =
          sign ++ (int ++ (frac ++ (exp ++ rest))) := by simp
      have start := here
      rw [shape] at here
      have at1 := skipMinus_takes here hsign (intPart_head_ne hint (by decide))
      obtain ⟨stops, point⟩ := expPart_stops hexp ends
      refine (parseInt_takes at1 hint (fracPart_stops hfrac stops)).bind fun q2 at2 => ?_
      refine (parseFrac_takes at2 hfrac stops point).bind fun q3 at3 => ?_
      refine (parseExp_takes at3 hexp ends).bind fun q4 at4 => ?_
      rw [At.sliceStr start at4]
      exact ⟨q4, rfl, at4⟩

/-! ## Strings -/

theorem parseHexLoop_digit {n v digit : Nat} {p : Parser} {c : Char} {rest : List Char}
    (here : At s p (c :: rest)) (found : hexValue? c = some digit) (small : v * 16 + 15 < 0x10000) :
    At s p.next rest ∧ parseHexLoop (n + 1) p v = parseHexLoop n p.next (v * 16 + digit) := by
  have narrow := hexValue?_narrow found
  obtain ⟨byte, peeked, low, _⟩ := here.peek_cons
  have bound := hexValue?_lt found
  rw [parseHexLoop, bumpByte_some peeked]
  dsimp only
  rw [hexDigit?_eq (low narrow).symm, found]
  exact ⟨here.next_ascii narrow, if_pos (by omega)⟩

theorem parseHex4_takes {p : Parser} {hex rest : List Char} {v : Nat}
    (here : At s p (hex ++ rest)) (unit : Hex4 hex v) : Takes s rest v p.parseHex4 := by
  cases unit with
  | @mk a b c d va vb vc vd ha hb hc hd =>
      have va_lt := hexValue?_lt ha
      have vb_lt := hexValue?_lt hb
      have vc_lt := hexValue?_lt hc
      have vd_lt := hexValue?_lt hd
      obtain ⟨at1, eq1⟩ := parseHexLoop_digit (n := 3) here ha (v := 0) (by omega)
      obtain ⟨at2, eq2⟩ := parseHexLoop_digit (n := 2) at1 hb (v := 0 * 16 + va) (by omega)
      obtain ⟨at3, eq3⟩ :=
        parseHexLoop_digit (n := 1) at2 hc (v := (0 * 16 + va) * 16 + vb) (by omega)
      obtain ⟨at4, eq4⟩ :=
        parseHexLoop_digit (n := 0) at3 hd (v := ((0 * 16 + va) * 16 + vb) * 16 + vc) (by omega)
      refine ⟨_, ?_, at4⟩
      rw [parseHex4, eq1, eq2, eq3, eq4, Nat.zero_mul, Nat.zero_add]
      rfl

theorem charFromU32?_char (c : Char) : charFromU32? c.toNat = some c := by
  unfold charFromU32?
  have valid : c.toNat < 0xD800 ∨ (0xDFFF < c.toNat ∧ c.toNat < 0x110000) := c.valid
  rw [if_pos valid, Char.ofNat_toNat]

theorem pushUnit_takes {p : Parser} {cs : List Char} (here : At s p cs) (c : Char) (out : String) :
    Takes s cs (out.push c) (pushUnit c.toNat p out) := by
  have valid : c.toNat < 0xD800 ∨ (0xDFFF < c.toNat ∧ c.toNat < 0x110000) := c.valid
  unfold pushUnit
  rw [if_neg (by omega), if_neg (by omega), charFromU32?_char]
  exact ⟨p, rfl, here⟩

theorem pushUnit_pair_takes {p : Parser} {low rest : List Char} {h l : Nat} {c : Char}
    (here : At s p ('\\' :: 'u' :: (low ++ rest))) (unit : Hex4 low l)
    (highRange : 0xD800 ≤ h ∧ h ≤ 0xDBFF) (lowRange : 0xDC00 ≤ l ∧ l ≤ 0xDFFF)
    (value : c.toNat = 0x10000 + (h - 0xD800) * 0x400 + (l - 0xDC00)) (out : String) :
    Takes s rest (out.push c) (pushUnit h p out) := by
  have at1 : At s p.next ('u' :: (low ++ rest)) := here.next_ascii (by decide)
  have at2 : At s p.next.next (low ++ rest) := at1.next_ascii (by decide)
  have backslash : p.bumpByte = (some 0x5C, p.next) := here.bump_ascii (by decide)
  have letter : p.next.bumpByte = (some 0x75, p.next.next) := at1.bump_ascii (by decide)
  unfold pushUnit
  rw [if_pos highRange, backslash]
  simp only [letter]
  refine (parseHex4_takes at2 unit).bind fun q at3 => ?_
  unfold pushPair
  rw [if_pos lowRange, ← value, charFromU32?_char]
  exact ⟨q, rfl, at3⟩

theorem parseEscape_simple {p : Parser} {e c : Char} {rest : List Char}
    (here : At s p (e :: rest)) (found : simpleEscape? e = some c) (out : String) :
    Takes s rest (out.push c) (p.parseEscape out) := by
  unfold parseEscape
  unfold simpleEscape? at found
  split at found <;>
    first
      | cases found
        rw [here.bump_ascii (by decide)]
        exact ⟨p.next, rfl, here.next_ascii (by decide)⟩
      | cases found

theorem parseEscape_unicode {p : Parser} {text rest : List Char} {c : Char}
    (here : At s p ('u' :: (text ++ rest))) {out : String}
    (more : ∀ q, At s q (text ++ rest) → Takes s rest (out.push c) (q.parseUnicode out)) :
    Takes s rest (out.push c) (p.parseEscape out) := by
  have letter : p.bumpByte = (some 0x75, p.next) := here.bump_ascii (by decide)
  unfold parseEscape
  rw [letter]
  exact more p.next (here.next_ascii (by decide))

/-- An element is one turn of the loop and the character it denotes is pushed. -/
theorem element_takes {p : Parser} {raw rest : List Char} {c : Char} (n : Nat)
    (here : At s p (raw ++ rest)) (element : Element raw c) (out : String) :
    ∃ q, At s q rest ∧ parseStringLoop (n + 1) p out = parseStringLoop n q (out.push c) := by
  -- Every escape goes through `parse_escape` once its backslash is behind.
  have escaped : ∀ text : List Char, At s p ('\\' :: (text ++ rest)) →
      (∀ q, At s q (text ++ rest) → Takes s rest (out.push c) (q.parseEscape out)) →
      ∃ q, At s q rest ∧ parseStringLoop (n + 1) p out = parseStringLoop n q (out.push c) := by
    intro text start more
    have backslash : p.bumpByte = (some 0x5C, p.next) := start.bump_ascii (by decide)
    obtain ⟨q, returned, there⟩ := more p.next (start.next_ascii (by decide))
    refine ⟨q, there, ?_⟩
    rw [parseStringLoop, backslash]
    change (p.next.parseEscape out >>= _) = _
    rw [returned]
    rfl
  cases element with
  | plain notQuote notEscape visible =>
      obtain ⟨byte, peeked, low, high⟩ := here.peek_cons
      rw [parseStringLoop, bumpByte_some peeked]
      dsimp only
      by_cases narrow : c.toNat < 0x80
      · have value := low narrow
        have quote : byte ≠ 0x22 := by
          rintro rfl
          exact notQuote (Char.toNat_inj.mp value.symm)
        have backslash : byte ≠ 0x5C := by
          rintro rfl
          exact notEscape (Char.toNat_inj.mp value.symm)
        have printable : ¬ byte < 0x20 := by
          rw [UInt8.lt_iff_toNat_lt, value]
          exact Nat.not_lt_of_le visible
        have ascii : byte < 0x80 := by
          rw [UInt8.lt_iff_toNat_lt, value]
          exact narrow
        rw [if_neg quote, if_neg backslash, if_neg printable, if_pos ascii, value, Char.ofNat_toNat]
        exact ⟨p.next, here.next_ascii narrow, rfl⟩
      · have large : 0xC0 ≤ byte.toNat := high (Nat.le_of_not_lt narrow)
        have other : ∀ b : UInt8, b.toNat < 0xC0 → byte ≠ b := by
          rintro b small rfl
          exact absurd large (Nat.not_le_of_lt small)
        have notLess : ∀ b : UInt8, b.toNat < 0xC0 → ¬ byte < b := by
          intro b small less
          rw [UInt8.lt_iff_toNat_lt] at less
          exact absurd large (Nat.not_le_of_lt (Nat.lt_trans less small))
        rw [if_neg (other _ (by decide)), if_neg (other _ (by decide)),
          if_neg (notLess _ (by decide)), if_neg (notLess _ (by decide))]
        refine ⟨_, here.advance, ?_⟩
        change (p.sliceFrom >>= _) = _
        rw [here.sliceFrom]
        dsimp only [bind, Except.bind]
        rw [List.singleton_append, Utf8.encode_cons, Utf8.firstChar?_encode]
        rfl
  | @escape e c found =>
      exact escaped [e] here fun q there => parseEscape_simple there found out
  | @unicode hex c unit =>
      refine escaped ('u' :: hex) here fun q there => ?_
      refine parseEscape_unicode there fun r at1 => ?_
      exact (parseHex4_takes at1 unit).bind fun t at2 => pushUnit_takes at2 c out
  | @pair high low h l c hhigh hlow highRange lowRange value =>
      have shape : (high ++ '\\' :: 'u' :: low) ++ rest = high ++ '\\' :: 'u' :: (low ++ rest) := by
        simp
      refine escaped ('u' :: (high ++ '\\' :: 'u' :: low)) here fun q there => ?_
      refine parseEscape_unicode there fun r at1 => ?_
      rw [shape] at at1
      exact (parseHex4_takes at1 hhigh).bind fun t at2 =>
        pushUnit_pair_takes at2 hlow highRange lowRange value out

theorem parseStringLoop_takes {n : Nat} {p : Parser} {raw rest chars : List Char} (out : String)
    (here : At s p (raw ++ '"' :: rest)) (body : Body raw chars) (enough : raw.length < n) :
    Takes s rest (out ++ String.ofList chars) (parseStringLoop n p out) := by
  induction body generalizing n p out with
  | nil =>
      obtain ⟨n, rfl⟩ := Nat.exists_eq_add_of_lt enough
      have quote : p.bumpByte = (some 0x22, p.next) := here.bump_ascii (by decide)
      refine ⟨p.next, ?_, here.next_ascii (by decide)⟩
      rw [parseStringLoop, quote]
      simp
  | @cons raw more c cs first _ ih =>
      rw [List.append_assoc] at here
      rw [List.length_append] at enough
      have positive := first.nonempty
      obtain ⟨m, rfl⟩ : ∃ m, n = m + 1 := ⟨n - 1, by omega⟩
      obtain ⟨q, there, turn⟩ := element_takes m here first out
      rw [turn]
      have whole : out ++ String.ofList (c :: cs) = out.push c ++ String.ofList cs := by
        apply String.ext
        simp
      rw [whole]
      exact ih (out.push c) there (by omega)

theorem expectByte_takes {p : Parser} {c : Char} {rest : List Char} (here : At s p (c :: rest))
    (narrow : c.toNat < 0x80) :
    Reaches s rest (p.expectByte (UInt8.ofNat c.toNat)) := by
  refine ⟨p.next, ?_, here.next_ascii narrow⟩
  rw [expectByte, here.bump_ascii narrow]
  exact if_pos rfl

theorem parseString_takes {p : Parser} {raw rest chars : List Char}
    (here : At s p ('"' :: (raw ++ '"' :: rest))) (body : Body raw chars) :
    Takes s rest (String.ofList chars) p.parseString := by
  refine (expectByte_takes here (by decide)).bind fun q there => ?_
  have bound := there.length_le_remaining
  rw [List.length_append] at bound
  have read := parseStringLoop_takes "" there body (Nat.lt_succ_of_le (Nat.le_of_add_right_le bound))
  rwa [String.empty_append] at read

/-! ## Values -/

theorem parseLiteral_takes {p : Parser} {rest : List Char} (lit : String) (val : Json)
    (here : At s p (lit.toList ++ rest)) : Takes s rest val (p.parseLiteral lit val) := by
  unfold parseLiteral
  rw [here.sliceFrom]
  change Takes s rest val
    (if (Utf8.bytes lit).isPrefixOf (Utf8.encode (lit.toList ++ rest)) = true then _ else _)
  have found : (Utf8.bytes lit).isPrefixOf (Utf8.encode (lit.toList ++ rest)) = true := by
    rw [List.isPrefixOf_iff_prefix, Utf8.bytes_eq_encode, Utf8.encode_prefix_iff]
    exact List.prefix_append _ _
  rw [if_pos found, Utf8.bytes_eq_encode]
  exact ⟨_, rfl, here.skip lit.toList⟩

theorem number_head {cs : List Char} (number : Number cs) :
    ∃ c tail, cs = c :: tail ∧ (c = '-' ∨ isDigit c = true) := by
  cases number with
  | mk hsign hint hfrac hexp =>
      cases hsign with
      | minus => exact ⟨'-', _, rfl, .inl rfl⟩
      | absent =>
          cases hint with
          | zero => exact ⟨'0', _, rfl, .inr (by decide)⟩
          | digits lead nonzero more => exact ⟨_, _, rfl, .inr lead⟩

/-- A value starts with neither whitespace nor a closing bracket. -/
theorem value_head {v : Json} {text : List Char} (derived : Value text v) :
    ∃ c tail, text = c :: tail ∧ isWs c = false ∧ c ≠ ']' := by
  cases derived with
  | number token =>
      obtain ⟨c, tail, shape, first⟩ := number_head token
      refine ⟨c, tail, shape, ?_, ?_⟩
      · cases space : isWs c with
        | false => rfl
        | true =>
            have none := extendsNumber_ws space
            rcases first with rfl | digit
            · cases space
            · simp [extendsNumber, digit] at none
      · rintro rfl
        rcases first with minus | digit
        · cases minus
        · cases digit
  | _ => exact ⟨_, _, rfl, by decide, by decide⟩

theorem dropWhile_value {ws text rest : List Char} {v : Json} (space : Ws ws)
    (derived : Value text v) : (ws ++ (text ++ rest)).dropWhile isWs = text ++ rest := by
  obtain ⟨c, tail, rfl, first, _⟩ := value_head derived
  rw [dropWhile_run space]
  exact (Stops.cons first _).dropWhile

/-- What the parser does on a text of each category, whatever whitespace it has
already skipped. -/
def Complete (s : String) : Category → List Char → Prop
  | .value v, text => ∀ n p cs rest, At s p cs → cs.dropWhile isWs = text ++ rest → Ends rest →
      3 * text.length ≤ n → Takes s rest v (parseValue n p)
  | .elements items, inside => ∀ n p cs rest acc, At s p cs →
      cs.dropWhile isWs = (inside ++ ']' :: rest).dropWhile isWs →
      3 * inside.length + 1 ≤ n → Takes s rest (.array (acc ++ items)) (parseItems n p acc)
  | .members pairs, inside => ∀ n p cs rest acc, At s p cs →
      cs.dropWhile isWs = (inside ++ '\x7d' :: rest).dropWhile isWs →
      3 * inside.length + 1 ≤ n → Takes s rest (.object (acc ++ pairs)) (parsePairs n p acc)

theorem parseValue_number {n : Nat} {p : Parser} {cs text rest : List Char} (here : At s p cs)
    (skipped : cs.dropWhile isWs = text ++ rest) (number : Number text) (ends : Ends rest) :
    Takes s rest (.number ⟨String.ofList text⟩) (parseValue (n + 1) p) := by
  obtain ⟨c, tail, shape, first⟩ := number_head number
  have range : c.toNat = 0x2D ∨ (0x30 ≤ c.toNat ∧ c.toNat ≤ 0x39) := by
    rcases first with rfl | digit
    · exact .inl rfl
    · simp only [isDigit, Bool.and_eq_true, decide_eq_true_eq] at digit
      exact .inr digit
  have there := here.skipWs
  rw [skipped] at there
  have narrow : c.toNat < 0x80 := by omega
  have at1 : At s p.skipWs (c :: (tail ++ rest)) := by rwa [shape] at there
  have peeked := at1.peek_ascii narrow
  have code : (UInt8.ofNat c.toNat).toNat = c.toNat := by
    rw [UInt8.toNat_ofNat']
    omega
  have other : ∀ b : UInt8, 0x39 < b.toNat ∨ b.toNat < 0x2D → UInt8.ofNat c.toNat ≠ b := by
    rintro b away rfl
    omega
  have numeric : (decide (UInt8.ofNat c.toNat = 0x2D) || isDigitByte (UInt8.ofNat c.toNat)) = true := by
    simp only [isDigitByte, Bool.or_eq_true, Bool.and_eq_true, decide_eq_true_eq,
      UInt8.le_iff_toNat_le, ← UInt8.toNat_inj, code]
    exact range
  unfold parseValue
  dsimp only
  rw [peeked]
  dsimp only
  rw [if_neg (other _ (by decide)), if_neg (other _ (by decide)), if_neg (other _ (by decide)),
    if_neg (other _ (by decide)), if_neg (other _ (by decide)), if_neg (other _ (by decide)),
    if_pos numeric]
  exact (parseNumber_takes there number ends).bind fun q done => ⟨q, rfl, done⟩

theorem parseArray_empty {n : Nat} {p : Parser} {ws rest : List Char}
    (here : At s p ('[' :: (ws ++ ']' :: rest))) (space : Ws ws) :
    Takes s rest (.array []) (parseArray (n + 1) p) := by
  unfold parseArray
  refine (expectByte_takes here (by decide)).bind fun q there => ?_
  have at1 := skipWs_run there space (Stops.cons (by decide) rest)
  have closed : q.skipWs.peekByte = some 0x5D := at1.peek_ascii (by decide)
  dsimp only
  rw [if_pos closed]
  exact ⟨_, rfl, at1.next_ascii (by decide)⟩

theorem parseObject_empty {n : Nat} {p : Parser} {ws rest : List Char}
    (here : At s p ('{' :: (ws ++ '}' :: rest))) (space : Ws ws) :
    Takes s rest (.object []) (parseObject (n + 1) p) := by
  unfold parseObject
  refine (expectByte_takes here (by decide)).bind fun q there => ?_
  have at1 := skipWs_run there space (Stops.cons (by decide) rest)
  have closed : q.skipWs.peekByte = some 0x7D := at1.peek_ascii (by decide)
  dsimp only
  rw [if_pos closed]
  exact ⟨_, rfl, at1.next_ascii (by decide)⟩

/-- Past its whitespace a filled array does not close at once. -/
theorem elements_head {items : List Json} {inside : List Char}
    (derived : Derives (.elements items) inside) (rest : List Char) :
    ((inside ++ ']' :: rest).dropWhile isWs).head? ≠ some ']' := by
  have starts : ∀ {before text more : List Char} {v : Json}, Ws before → Value text v →
      ((before ++ (text ++ more)).dropWhile isWs).head? ≠ some ']' := by
    intro before text more v space value
    rw [dropWhile_value space value]
    obtain ⟨c, tail, rfl, _, other⟩ := value_head value
    intro first
    exact other (Option.some.inj first)
  cases derived with
  | lastElement hbefore hvalue hafter =>
      rw [List.append_assoc, List.append_assoc]
      exact starts hbefore hvalue
  | nextElement hbefore hvalue hafter more =>
      rw [List.append_assoc, List.append_assoc]
      exact starts hbefore hvalue

theorem members_head {pairs : List (String × Json)} {inside : List Char}
    (derived : Derives (.members pairs) inside) (rest : List Char) :
    ((inside ++ '}' :: rest).dropWhile isWs).head? = some '"' := by
  have starts : ∀ {before more : List Char}, Ws before →
      ((before ++ '"' :: more).dropWhile isWs).head? = some '"' := by
    intro before more space
    rw [dropWhile_run space, (Stops.cons (by decide) more).dropWhile]
    rfl
  cases derived with
  | lastMember hbefore =>
      rw [List.append_assoc]
      exact starts hbefore
  | nextMember hbefore =>
      rw [List.append_assoc]
      exact starts hbefore

/-- Dropping whitespace twice is dropping it once. -/
theorem dropWhile_twice (cs : List Char) :
    (cs.dropWhile isWs).dropWhile isWs = cs.dropWhile isWs :=
  Stops.dropWhile fun c first => by
    cases shape : cs.dropWhile isWs with
    | nil => rw [shape] at first; cases first
    | cons d tail =>
        rw [shape] at first
        cases first
        have stopped := List.head_dropWhile_not isWs (l := cs) (by rw [shape]; exact List.cons_ne_nil _ _)
        simpa [shape] using stopped

theorem parseArray_filled {n : Nat} {p : Parser} {inside rest : List Char} {items : List Json}
    (here : At s p ('[' :: (inside ++ ']' :: rest))) (derived : Derives (.elements items) inside)
    (ih : Complete s (.elements items) inside) (enough : 3 * inside.length + 1 ≤ n) :
    Takes s rest (.array items) (parseArray (n + 1) p) := by
  unfold parseArray
  refine (expectByte_takes here (by decide)).bind fun q there => ?_
  have at1 := there.skipWs
  have filled : ¬ q.skipWs.peekByte = some 0x5D :=
    fun closed => elements_head derived rest ((at1.peek_iff ']' (by decide)).mp closed)
  dsimp only
  rw [if_neg filled]
  exact ih n _ _ rest [] at1 (dropWhile_twice _) enough

theorem parseObject_filled {n : Nat} {p : Parser} {inside rest : List Char}
    {pairs : List (String × Json)} (here : At s p ('{' :: (inside ++ '}' :: rest)))
    (derived : Derives (.members pairs) inside) (ih : Complete s (.members pairs) inside)
    (enough : 3 * inside.length + 1 ≤ n) :
    Takes s rest (.object pairs) (parseObject (n + 1) p) := by
  unfold parseObject
  refine (expectByte_takes here (by decide)).bind fun q there => ?_
  have at1 := there.skipWs
  have filled : ¬ q.skipWs.peekByte = some 0x7D := by
    intro closed
    have first := (at1.peek_iff '}' (by decide)).mp closed
    rw [members_head derived rest] at first
    cases first
  dsimp only
  rw [if_neg filled]
  exact ih n _ _ rest [] at1 (dropWhile_twice _) enough

theorem elements_last {before text after : List Char} {v : Json} (hbefore : Ws before)
    (hvalue : Value text v) (hafter : Ws after) (ih : Complete s (.value v) text) :
    Complete s (.elements [v]) (before ++ (text ++ after)) := by
  intro n p cs rest acc here skipped enough
  simp only [List.length_append] at enough
  obtain ⟨m, rfl⟩ : ∃ m, n = m + 1 := ⟨n - 1, by omega⟩
  rw [List.append_assoc, List.append_assoc, dropWhile_value hbefore hvalue] at skipped
  have ends : Ends (']' :: rest) := Stops.cons (by decide) rest
  unfold parseItems
  refine (ih m p cs _ here skipped (ends.pad hafter) (by omega)).bind fun q there => ?_
  have at1 := skipWs_run there hafter (Stops.cons (by decide) rest)
  have closed : q.skipWs.bumpByte = (some 0x5D, q.skipWs.next) := at1.bump_ascii (by decide)
  dsimp only
  rw [closed]
  exact ⟨_, rfl, at1.next_ascii (by decide)⟩

theorem elements_next {before text after inside : List Char} {v : Json} {items : List Json}
    (hbefore : Ws before) (hvalue : Value text v) (hafter : Ws after)
    (ih : Complete s (.value v) text) (more : Complete s (.elements items) inside) :
    Complete s (.elements (v :: items)) (before ++ (text ++ (after ++ ',' :: inside))) := by
  intro n p cs rest acc here skipped enough
  simp only [List.length_append, List.length_cons] at enough
  obtain ⟨m, rfl⟩ : ∃ m, n = m + 1 := ⟨n - 1, by omega⟩
  rw [List.append_assoc, List.append_assoc, List.append_assoc, List.cons_append,
    dropWhile_value hbefore hvalue] at skipped
  have ends : Ends (',' :: (inside ++ ']' :: rest)) := Stops.cons (by decide) _
  unfold parseItems
  refine (ih m p cs _ here skipped (ends.pad hafter) (by omega)).bind fun q there => ?_
  have at1 := skipWs_run there hafter (Stops.cons (by decide) _)
  have comma : q.skipWs.bumpByte = (some 0x2C, q.skipWs.next) := at1.bump_ascii (by decide)
  have at2 : At s q.skipWs.next (inside ++ ']' :: rest) := at1.next_ascii (by decide)
  have onward := more m _ _ rest (acc ++ [v]) at2.skipWs (dropWhile_twice _) (by omega)
  rw [List.append_assoc] at onward
  dsimp only
  rw [comma]
  exact onward

/-- What the loop of `parse_object` does once a member is read. -/
def behindMember (n : Nat) (pairs : List (String × Json)) (p : Parser) :
    Except Stop (Json × Parser) :=
  match p.skipWs.bumpByte with
  | (some 0x2C, q) => parsePairs n q.skipWs pairs
  | (some 0x7D, q) => .ok (.object pairs, q)
  | (_, q) => q.err "expected ',' or '\x7d' in object"

/-- A key, its colon and its value, up to the whitespace behind the value. -/
theorem parsePairs_member {n : Nat} {p : Parser} {v w : Json}
    {cs before raw key middle gap text more rest : List Char} {acc : List (String × Json)}
    (here : At s p cs)
    (skipped : cs.dropWhile isWs =
      (before ++ '"' :: (raw ++ '"' :: (middle ++ ':' :: (gap ++ (text ++ more))))).dropWhile isWs)
    (hbefore : Ws before) (hkey : Body raw key) (hmiddle : Ws middle) (hgap : Ws gap)
    (hvalue : Value text v) (ih : Complete s (.value v) text) (ends : Ends more)
    (enough : 3 * text.length ≤ n)
    (onward : ∀ q, At s q more →
      Takes s rest w (behindMember n (acc ++ [(String.ofList key, v)]) q)) :
    Takes s rest w (parsePairs (n + 1) p acc) := by
  rw [dropWhile_run hbefore, (Stops.cons (by decide) _).dropWhile] at skipped
  have at1 := here.skipWs
  rw [skipped] at at1
  have quote : p.skipWs.peekByte = some 0x22 := at1.peek_ascii (by decide)
  unfold parsePairs
  dsimp only
  rw [if_neg (not_not.mpr quote)]
  refine (parseString_takes at1 hkey).bind fun q2 at2 => ?_
  have at3 := skipWs_run at2 hmiddle (Stops.cons (by decide) _)
  refine (expectByte_takes at3 (by decide)).bind fun q4 at4 => ?_
  refine (ih n _ _ _ at4.skipWs ?_ ends enough).bind onward
  rw [dropWhile_twice, dropWhile_value hgap hvalue]

theorem members_last {before raw key middle gap text after : List Char} {v : Json}
    (hbefore : Ws before) (hkey : Body raw key) (hmiddle : Ws middle) (hgap : Ws gap)
    (hvalue : Value text v) (hafter : Ws after) (ih : Complete s (.value v) text) :
    Complete s (.members [(String.ofList key, v)])
      (before ++ '"' :: (raw ++ '"' :: (middle ++ ':' :: (gap ++ (text ++ after))))) := by
  intro n p cs rest acc here skipped enough
  simp only [List.length_append, List.length_cons] at enough
  obtain ⟨m, rfl⟩ : ∃ m, n = m + 1 := ⟨n - 1, by omega⟩
  simp only [List.append_assoc, List.cons_append] at skipped
  have ends : Ends ('}' :: rest) := Stops.cons (by decide) rest
  refine parsePairs_member here skipped hbefore hkey hmiddle hgap hvalue ih (ends.pad hafter)
    (by omega) fun q there => ?_
  have at1 := skipWs_run there hafter (Stops.cons (by decide) rest)
  have closed : q.skipWs.bumpByte = (some 0x7D, q.skipWs.next) := at1.bump_ascii (by decide)
  unfold behindMember
  rw [closed]
  exact ⟨_, rfl, at1.next_ascii (by decide)⟩

theorem members_next {before raw key middle gap text after inside : List Char} {v : Json}
    {pairs : List (String × Json)} (hbefore : Ws before) (hkey : Body raw key)
    (hmiddle : Ws middle) (hgap : Ws gap) (hvalue : Value text v) (hafter : Ws after)
    (ih : Complete s (.value v) text) (more : Complete s (.members pairs) inside) :
    Complete s (.members ((String.ofList key, v) :: pairs)) (before ++ '"' ::
      (raw ++ '"' :: (middle ++ ':' :: (gap ++ (text ++ (after ++ ',' :: inside)))))) := by
  intro n p cs rest acc here skipped enough
  simp only [List.length_append, List.length_cons] at enough
  obtain ⟨m, rfl⟩ : ∃ m, n = m + 1 := ⟨n - 1, by omega⟩
  simp only [List.append_assoc, List.cons_append] at skipped
  have ends : Ends (',' :: (inside ++ '}' :: rest)) := Stops.cons (by decide) _
  refine parsePairs_member here skipped hbefore hkey hmiddle hgap hvalue ih (ends.pad hafter)
    (by omega) fun q there => ?_
  have at1 := skipWs_run there hafter (Stops.cons (by decide) _)
  have comma : q.skipWs.bumpByte = (some 0x2C, q.skipWs.next) := at1.bump_ascii (by decide)
  have at2 : At s q.skipWs.next (inside ++ '}' :: rest) := at1.next_ascii (by decide)
  have onward := more m _ _ rest (acc ++ [(String.ofList key, v)]) at2.skipWs
    (dropWhile_twice _) (by omega)
  rw [List.append_assoc] at onward
  unfold behindMember
  rw [comma]
  exact onward

/-! ### The dispatch of `parse_value` -/

theorem parseValue_array {n : Nat} {p : Parser} (peeked : p.skipWs.peekByte = some 0x5B) :
    parseValue (n + 1) p = parseArray n p.skipWs := by
  unfold parseValue
  dsimp only
  rw [peeked]
  rfl

theorem parseValue_object {n : Nat} {p : Parser} (peeked : p.skipWs.peekByte = some 0x7B) :
    parseValue (n + 1) p = parseObject n p.skipWs := by
  unfold parseValue
  dsimp only
  rw [peeked]
  rfl

theorem parseValue_string {n : Nat} {p : Parser} (peeked : p.skipWs.peekByte = some 0x22) :
    parseValue (n + 1) p = (do
      let (s, q) ← p.skipWs.parseString
      .ok (.string s, q)) := by
  unfold parseValue
  dsimp only
  rw [peeked]
  rfl

theorem complete_literal (lit : String) {v : Json} {c : Char} {tail : List Char}
    (spelled : lit.toList = c :: tail) (narrow : c.toNat < 0x80)
    (chosen : ∀ n p, p.skipWs.peekByte = some (UInt8.ofNat c.toNat) →
      parseValue (n + 1) p = p.skipWs.parseLiteral lit v) :
    Complete s (.value v) lit.toList := by
  intro n p cs rest here skipped _ enough
  rw [spelled, List.length_cons] at enough
  obtain ⟨m, rfl⟩ : ∃ m, n = m + 1 := ⟨n - 1, by omega⟩
  have there := here.skipWs
  rw [skipped] at there
  have first := there
  rw [spelled] at first
  rw [chosen m p (first.peek_ascii narrow)]
  exact parseLiteral_takes lit v there

/-- An opening bracket sends the parser to the function for it. -/
theorem complete_bracket {c : Char} {tail : List Char} {v : Json} (narrow : c.toNat < 0x80)
    (inner : Nat → Parser → Except Stop (Json × Parser))
    (chosen : ∀ n p, p.skipWs.peekByte = some (UInt8.ofNat c.toNat) →
      parseValue (n + 1) p = inner n p.skipWs)
    (takes : ∀ n p rest, At s p (c :: (tail ++ rest)) → 3 * tail.length + 2 ≤ n →
      Takes s rest v (inner n p)) :
    Complete s (.value v) (c :: tail) := by
  intro n p cs rest here skipped _ enough
  rw [List.length_cons] at enough
  obtain ⟨m, rfl⟩ : ∃ m, n = m + 1 := ⟨n - 1, by omega⟩
  have there := here.skipWs
  rw [skipped] at there
  rw [chosen m p (there.peek_ascii narrow)]
  exact takes m _ rest there (by omega)

theorem complete {category : Category} {text : List Char} (derived : Derives category text) :
    Complete s category text := by
  induction derived with
  | null =>
      refine complete_literal "null" rfl (by decide) fun n p peeked => ?_
      unfold parseValue
      dsimp only
      rw [peeked]
      rfl
  | true =>
      refine complete_literal "true" rfl (by decide) fun n p peeked => ?_
      unfold parseValue
      dsimp only
      rw [peeked]
      rfl
  | false =>
      refine complete_literal "false" rfl (by decide) fun n p peeked => ?_
      unfold parseValue
      dsimp only
      rw [peeked]
      rfl
  | number token =>
      intro n p cs rest here skipped ends enough
      obtain ⟨c, tail, rfl, _⟩ := number_head token
      rw [List.length_cons] at enough
      obtain ⟨m, rfl⟩ : ∃ m, n = m + 1 := ⟨n - 1, by omega⟩
      exact parseValue_number here skipped token ends
  | string body =>
      refine complete_bracket (by decide)
        (fun _ p => do
          let (s, q) ← p.parseString
          .ok (.string s, q))
        (fun n p peeked => parseValue_string peeked) fun n p rest here enough => ?_
      rw [List.append_assoc] at here
      exact (parseString_takes here body).bind fun q there => ⟨q, rfl, there⟩
  | emptyArray space =>
      refine complete_bracket (by decide) parseArray (fun n p peeked => parseValue_array peeked)
        fun n p rest here enough => ?_
      obtain ⟨m, rfl⟩ : ∃ m, n = m + 1 := ⟨n - 1, by omega⟩
      rw [List.append_assoc] at here
      exact parseArray_empty here space
  | array filled ih =>
      refine complete_bracket (by decide) parseArray (fun n p peeked => parseValue_array peeked)
        fun n p rest here enough => ?_
      rw [List.length_append, List.length_singleton] at enough
      obtain ⟨m, rfl⟩ : ∃ m, n = m + 1 := ⟨n - 1, by omega⟩
      rw [List.append_assoc] at here
      exact parseArray_filled here filled ih (by omega)
  | emptyObject space =>
      refine complete_bracket (by decide) parseObject (fun n p peeked => parseValue_object peeked)
        fun n p rest here enough => ?_
      obtain ⟨m, rfl⟩ : ∃ m, n = m + 1 := ⟨n - 1, by omega⟩
      rw [List.append_assoc] at here
      exact parseObject_empty here space
  | object filled ih =>
      refine complete_bracket (by decide) parseObject (fun n p peeked => parseValue_object peeked)
        fun n p rest here enough => ?_
      rw [List.length_append, List.length_singleton] at enough
      obtain ⟨m, rfl⟩ : ∃ m, n = m + 1 := ⟨n - 1, by omega⟩
      rw [List.append_assoc] at here
      exact parseObject_filled here filled ih (by omega)
  | lastElement hbefore hvalue hafter ih => exact elements_last hbefore hvalue hafter ih
  | nextElement hbefore hvalue hafter _ ih more => exact elements_next hbefore hvalue hafter ih more
  | lastMember hbefore hkey hmiddle hgap hvalue hafter ih =>
      exact members_last hbefore hkey hmiddle hgap hvalue hafter ih
  | nextMember hbefore hkey hmiddle hgap hvalue hafter _ ih more =>
      exact members_next hbefore hkey hmiddle hgap hvalue hafter ih more

/-- Every text of the grammar is accepted, with the tree it denotes. -/
theorem parse_complete {cs : List Char} {v : Json} (text : Text cs v) :
    parse (Utf8.encode cs) = .ok v := by
  obtain ⟨before, inner, after, rfl, hbefore, value, hafter⟩ := text
  have decoded := (Utf8.decode?_eq_some_iff _ _).mpr
    (Utf8.bytes_ofList (before ++ (inner ++ after))).symm
  have start := (at_new (String.ofList (before ++ (inner ++ after)))).skipWs
  rw [String.toList_ofList, dropWhile_value hbefore value] at start
  have bound := start.length_le_whole
  rw [List.length_append] at bound
  have enough : 3 * inner.length ≤
      parseFuel (new (String.ofList (before ++ (inner ++ after)))).skipWs.b.length := by
    unfold parseFuel
    omega
  have last : Ends after := by
    have padded := Ends.pad hafter (Stops.nil _)
    rwa [List.append_nil] at padded
  obtain ⟨q, returned, there⟩ :=
    complete value _ _ _ after start (dropWhile_value Ws.nil value) last enough
  rw [← List.append_nil after] at there
  have stopped := skipWs_run there hafter (Stops.nil _)
  unfold parse
  rw [decoded]
  change (parseValue _ _ >>= _) = _
  rw [returned]
  change (if q.skipWs.pos ≠ q.skipWs.b.length then _ else Except.ok v) = _
  rw [if_neg (not_not.mpr (stopped.atEnd_iff.mpr rfl))]

end Parser

theorem parse_ok_iff {input : List UInt8} {v : Json} :
    parse input = .ok v ↔ ∃ cs, input = Utf8.encode cs ∧ Text cs v := by
  constructor
  · intro returned
    have spec := Parser.parse_spec input
    rw [returned] at spec
    cases spec with
    | ok found => exact found
  · rintro ⟨cs, rfl, text⟩
    exact Parser.parse_complete text

/-- `parse` accepts exactly the UTF-8 of the texts of the RFC 8259 grammar and
returns the tree the text denotes; on any other input it reports an error. -/
theorem parse_exact (input : List UInt8) :
    (∀ v, parse input = .ok v ↔ ∃ cs, input = Utf8.encode cs ∧ Text cs v) ∧
    ((¬ ∃ cs v, input = Utf8.encode cs ∧ Text cs v) → ∃ e, parse input = .error (.err e)) := by
  refine ⟨fun v => parse_ok_iff, fun outside => ?_⟩
  cases result : parse input with
  | ok v =>
      obtain ⟨cs, text⟩ := parse_ok_iff.mp result
      exact absurd ⟨cs, v, text⟩ outside
  | error stop =>
      obtain ⟨e, rfl⟩ := Parser.parse_reports result
      exact ⟨e, rfl⟩

end SanDbOxFormal.Rust.Codec.Json
