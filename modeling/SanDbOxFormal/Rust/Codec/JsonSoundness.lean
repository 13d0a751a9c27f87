import SanDbOxFormal.Rust.Codec.JsonScan

/-!
# What the parser reads is in the grammar

Each parser function, standing at the characters `cs`, either moves past a text
that its production derives and returns what the text denotes, or reports a
`JsonError`.  No slice, `expect` or checked sum panics, and the fuel that
`parse` hands out is never used up.
-/

namespace SanDbOxFormal.Rust.Codec.Json.Parser

open SanDbOxFormal.Library
open SanDbOxFormal.Library.Rfc8259

variable {s : String}

/-- The function returned something good or reported an error. -/
inductive Outcome {α : Type} (good : α → Prop) : Except Stop α → Prop where
  | ok {a : α} (returned : good a) : Outcome good (.ok a)
  | err (e : JsonError) : Outcome good (.error (.err e))

namespace Outcome

variable {α β : Type}

theorem bind {good : α → Prop} {better : β → Prop} {x : Except Stop α} {f : α → Except Stop β}
    (first : Outcome good x) (more : ∀ a, good a → Outcome better (f a)) :
    Outcome better (x >>= f) := by
  cases first with
  | ok returned => exact more _ returned
  | err e => exact .err e

theorem mono {good better : α → Prop} {x : Except Stop α} (first : Outcome good x)
    (weaker : ∀ a, good a → better a) : Outcome better x := by
  cases first with
  | ok returned => exact .ok (weaker _ returned)
  | err e => exact .err e

theorem fail {good : α → Prop} (p : Parser) (msg : String) : Outcome good (p.err msg) := .err _

end Outcome

/-- From `cs` to `q`, past a text that `G` admits. -/
def Moved (s : String) (cs : List Char) (G : List Char → Prop) (q : Parser) : Prop :=
  ∃ text rest, cs = text ++ rest ∧ G text ∧ At s q rest

/-- The same, with the value that the text denotes. -/
def Read {α : Type} (s : String) (cs : List Char) (G : α → List Char → Prop)
    (result : α × Parser) : Prop :=
  Moved s cs (G result.1) result.2

/-! ## Whitespace and digits -/

theorem ws_takeWhile (cs : List Char) : Ws (cs.takeWhile isWs) :=
  fun _ inside => List.mem_takeWhile_imp inside

theorem digits_takeWhile (cs : List Char) : Digits (cs.takeWhile isDigit) :=
  fun _ inside => List.mem_takeWhile_imp inside

theorem skipWs_spec {p : Parser} {cs : List Char} (here : At s p cs) : Moved s cs Ws p.skipWs :=
  ⟨_, _, List.takeWhile_append_dropWhile.symm, ws_takeWhile cs, here.skipWs⟩

/-- A run of digits that moved the position is not empty. -/
theorem skipDigits_nonempty {p : Parser} {cs : List Char} (here : At s p cs)
    (moved : p.skipDigits.pos ≠ p.pos) : cs.takeWhile isDigit ≠ [] := by
  intro none
  refine moved ((here.pos_eq_iff here.skipDigits).mpr ?_)
  have whole := List.takeWhile_append_dropWhile (p := isDigit) (l := cs)
  rwa [none, List.nil_append] at whole

/-! ## Numbers -/

theorem skipMinus_spec {p : Parser} {cs : List Char} (here : At s p cs) :
    Moved s cs Sign p.skipMinus := by
  unfold skipMinus
  split
  · rename_i minus
    obtain ⟨rest, shape, moved⟩ := here.of_peek_char '-' minus (by decide)
    exact ⟨['-'], rest, shape, .minus, moved⟩
  · exact ⟨[], cs, rfl, .absent, here⟩

theorem parseInt_spec {p : Parser} {cs : List Char} (here : At s p cs) :
    Outcome (Moved s cs IntPart) p.parseInt := by
  unfold parseInt
  cases found : p.peekByte with
  | none => exact .fail _ _
  | some byte =>
      by_cases zero : byte = 0x30
      · rw [zero] at found
        obtain ⟨rest, shape, moved⟩ := here.of_peek_char '0' found (by decide)
        simp only [zero, if_true]
        exact .ok ⟨['0'], rest, shape, .zero, moved⟩
      · cases digit : isDigitByte byte with
        | false =>
            simp only [zero, digit, if_false]
            exact .fail _ _
        | true =>
            simp only [zero, digit, if_true, if_false]
            have bound : byte.toNat ≤ 0x39 := by
              simp only [isDigitByte, Bool.and_eq_true, decide_eq_true_eq] at digit
              exact UInt8.le_iff_toNat_le.mp digit.2
            obtain ⟨c, rest, shape, value, _⟩ := here.of_peek found (by omega)
            have lead : isDigit c = true := by
              rw [← digit]
              exact (At.digit_agrees.2 c byte (fun _ => value.symm) (fun wide => by omega)).symm
            have nonzero : c ≠ '0' := by
              rintro rfl
              exact zero (UInt8.toNat_inj.mp value.symm)
            refine .ok ⟨_, _, List.takeWhile_append_dropWhile.symm, ?_, here.skipDigits⟩
            rw [shape, List.takeWhile_cons_of_pos lead]
            exact .digits lead nonzero (digits_takeWhile rest)

theorem parseFrac_spec {p : Parser} {cs : List Char} (here : At s p cs) :
    Outcome (Moved s cs FracPart) p.parseFrac := by
  unfold parseFrac
  split
  · rename_i point
    obtain ⟨rest, shape, moved⟩ := here.of_peek_char '.' point (by decide)
    dsimp only
    split
    · exact .fail _ _
    · rename_i digits
      refine .ok ⟨'.' :: rest.takeWhile isDigit, rest.dropWhile isDigit, ?_, ?_, moved.skipDigits⟩
      · rw [List.cons_append, List.takeWhile_append_dropWhile, shape]
      · exact .point (skipDigits_nonempty moved digits) (digits_takeWhile rest)
  · exact .ok ⟨[], cs, rfl, .absent, here⟩

theorem skipExpSign_spec {p : Parser} {cs : List Char} (here : At s p cs) :
    Moved s cs ExpSign p.skipExpSign := by
  unfold skipExpSign
  split
  · rename_i sign
    rcases sign with plus | minus
    · obtain ⟨rest, shape, moved⟩ := here.of_peek_char '+' plus (by decide)
      exact ⟨['+'], rest, shape, .plus, moved⟩
    · obtain ⟨rest, shape, moved⟩ := here.of_peek_char '-' minus (by decide)
      exact ⟨['-'], rest, shape, .minus, moved⟩
  · exact ⟨[], cs, rfl, .absent, here⟩

/-- The letter that opens an exponent. -/
theorem expLetter_spec {p : Parser} {cs : List Char} (here : At s p cs)
    (letter : p.peekByte = some 0x65 ∨ p.peekByte = some 0x45) :
    ∃ e rest, cs = e :: rest ∧ (e = 'e' ∨ e = 'E') ∧ At s p.next rest := by
  rcases letter with lower | upper
  · obtain ⟨rest, shape, moved⟩ := here.of_peek_char 'e' lower (by decide)
    exact ⟨'e', rest, shape, .inl rfl, moved⟩
  · obtain ⟨rest, shape, moved⟩ := here.of_peek_char 'E' upper (by decide)
    exact ⟨'E', rest, shape, .inr rfl, moved⟩

theorem parseExp_spec {p : Parser} {cs : List Char} (here : At s p cs) :
    Outcome (Moved s cs ExpPart) p.parseExp := by
  unfold parseExp
  split
  · rename_i letter
    obtain ⟨e, rest, shape, he, moved⟩ := expLetter_spec here letter
    obtain ⟨sign, after, tail, hsign, there⟩ := skipExpSign_spec moved
    dsimp only
    split
    · exact .fail _ _
    · rename_i digits
      refine .ok ⟨e :: (sign ++ after.takeWhile isDigit), after.dropWhile isDigit, ?_, ?_,
        there.skipDigits⟩
      · rw [shape, tail, List.cons_append, List.append_assoc, List.takeWhile_append_dropWhile]
      · exact .exponent he hsign (skipDigits_nonempty there digits) (digits_takeWhile after)
  · exact .ok ⟨[], cs, rfl, .absent, here⟩

/-- A number is read as the characters it spans. -/
theorem parseNumber_spec {p : Parser} {cs : List Char} (here : At s p cs) :
    Outcome (Read s cs fun token text => Number text ∧ token = ⟨String.ofList text⟩)
      p.parseNumber := by
  obtain ⟨sign, rest, shape, hsign, there⟩ := skipMinus_spec here
  refine (parseInt_spec there).bind fun q1 ⟨int, rest1, shape1, hint, at1⟩ => ?_
  refine (parseFrac_spec at1).bind fun q2 ⟨frac, rest2, shape2, hfrac, at2⟩ => ?_
  refine (parseExp_spec at2).bind fun q3 ⟨exp, rest3, shape3, hexp, at3⟩ => ?_
  have whole : cs = (sign ++ (int ++ (frac ++ exp))) ++ rest3 := by
    rw [shape, shape1, shape2, shape3]
    simp only [List.append_assoc]
  rw [At.sliceStr (whole ▸ here) at3]
  exact .ok ⟨_, rest3, whole, ⟨.mk hsign hint hfrac hexp, rfl⟩, at3⟩

/-! ## Strings -/

theorem hexDigit?_eq {c : Char} {byte : UInt8} (value : c.toNat = byte.toNat) :
    hexDigit? byte = hexValue? c := by
  simp only [hexDigit?, hexValue?, UInt8.le_iff_toNat_le, value]
  rfl

theorem hexDigit?_narrow {byte : UInt8} {digit : Nat} (found : hexDigit? byte = some digit) :
    byte.toNat < 0x80 := by
  simp only [hexDigit?, UInt8.le_iff_toNat_le, Bool.and_eq_true, decide_eq_true_eq] at found
  split at found
  · rename_i range
    exact Nat.lt_of_le_of_lt range.2 (by decide)
  · split at found
    · rename_i range
      exact Nat.lt_of_le_of_lt range.2 (by decide)
    · split at found
      · rename_i range
        exact Nat.lt_of_le_of_lt range.2 (by decide)
      · cases found

/-- One turn of the loop reads one hex digit. -/
theorem parseHexLoop_succ {good : Nat × Parser → Prop} {n v : Nat} {p : Parser} {cs : List Char}
    (here : At s p cs) (small : v * 16 + 15 < 0x10000)
    (more : ∀ c digit rest, cs = c :: rest → hexValue? c = some digit → At s p.next rest →
      Outcome good (parseHexLoop n p.next (v * 16 + digit))) :
    Outcome good (parseHexLoop (n + 1) p v) := by
  unfold parseHexLoop
  split
  · exact .fail _ _
  · rename_i byte q bumped
    obtain ⟨peeked, rfl⟩ := bumpByte_eq_some bumped
    split
    · exact .fail _ _
    · rename_i digit found
      obtain ⟨c, rest, shape, value, moved⟩ := here.of_peek peeked (hexDigit?_narrow found)
      rw [hexDigit?_eq value] at found
      have bound := hexValue?_lt found
      rw [if_pos (by omega)]
      exact more c digit rest shape found moved

theorem parseHex4_spec {p : Parser} {cs : List Char} (here : At s p cs) :
    Outcome (Read s cs fun v text => Hex4 text v) p.parseHex4 := by
  refine parseHexLoop_succ here (by decide) fun a va resta shapea ha ata => ?_
  have va_lt := hexValue?_lt ha
  refine parseHexLoop_succ ata (by omega) fun b vb restb shapeb hb atb => ?_
  have vb_lt := hexValue?_lt hb
  refine parseHexLoop_succ atb (by omega) fun c vc restc shapec hc atc => ?_
  have vc_lt := hexValue?_lt hc
  refine parseHexLoop_succ atc (by omega) fun d vd restd shaped hd atd => ?_
  rw [Nat.zero_mul, Nat.zero_add]
  exact .ok ⟨[a, b, c, d], restd, by rw [shapea, shapeb, shapec, shaped]; rfl, .mk ha hb hc hd, atd⟩

theorem charFromU32?_toNat {n : Nat} {c : Char} (found : charFromU32? n = some c) :
    c.toNat = n := by
  unfold charFromU32? at found
  split at found
  · rename_i range
    rw [← Option.some.inj found, Char.toNat_ofNat]
    exact if_pos range
  · cases found

theorem pushPair_spec {high low : Nat} {highText lowText : List Char} {p : Parser}
    (out : String) (highUnit : Hex4 highText high)
    (lowUnit : Hex4 lowText low) (highRange : 0xD800 ≤ high ∧ high ≤ 0xDBFF) :
    Outcome (fun result => ∃ c, result = (out.push c, p) ∧
      Element ('\\' :: 'u' :: (highText ++ '\\' :: 'u' :: lowText)) c)
      (pushPair high low p out) := by
  unfold pushPair
  split
  · rename_i lowRange
    split
    · rename_i c found
      exact .ok ⟨c, rfl, .pair highUnit lowUnit highRange lowRange (charFromU32?_toNat found)⟩
    · exact .fail _ _
  · exact .fail _ _

theorem pushUnit_spec {cp : Nat} {text : List Char} {p : Parser} {cs : List Char}
    (here : At s p cs) (out : String) (unit : Hex4 text cp) :
    Outcome (Read s cs fun grown more =>
      ∃ c, grown = out.push c ∧ Element ('\\' :: 'u' :: (text ++ more)) c)
      (pushUnit cp p out) := by
  unfold pushUnit
  split
  · rename_i highRange
    split
    · rename_i q bumped
      obtain ⟨rest1, shape1, at1⟩ := here.of_bump_char '\\' bumped (by decide)
      split
      · rename_i r bumped
        obtain ⟨rest2, shape2, at2⟩ := at1.of_bump_char 'u' bumped (by decide)
        refine (parseHex4_spec at2).bind fun low ⟨lowText, rest3, shape3, lowUnit, at3⟩ => ?_
        refine (pushPair_spec out unit lowUnit highRange).mono fun _ ⟨c, value, pair⟩ => ?_
        rw [value]
        exact ⟨'\\' :: 'u' :: lowText, rest3, by rw [shape1, shape2, shape3]; rfl, ⟨c, rfl, pair⟩, at3⟩
      · exact .fail _ _
    · exact .fail _ _
  · split
    · exact .fail _ _
    · split
      · rename_i c found
        rw [← charFromU32?_toNat found] at unit
        refine .ok ⟨[], cs, rfl, ⟨c, rfl, ?_⟩, here⟩
        rw [List.append_nil]
        exact .unicode unit
      · exact .fail _ _

/-- What is left of an escape once its backslash and `u` are behind. -/
theorem parseUnicode_spec {p : Parser} {cs : List Char} (here : At s p cs) (out : String) :
    Outcome (Read s cs fun grown text =>
      ∃ c, grown = out.push c ∧ Element ('\\' :: 'u' :: text) c) (p.parseUnicode out) := by
  refine (parseHex4_spec here).bind fun cp ⟨text, rest, shape, unit, there⟩ => ?_
  refine (pushUnit_spec there out unit).mono
    fun _ ⟨more, after, tail, ⟨c, grown, element⟩, done⟩ => ?_
  exact ⟨text ++ more, after, by rw [shape, tail, List.append_assoc], ⟨c, grown, element⟩, done⟩

/-- A one-letter escape, read off the letter. -/
theorem simpleEscape_spec {p q : Parser} {cs : List Char} (here : At s p cs) (out : String)
    (e c : Char) (bumped : p.bumpByte = (some (UInt8.ofNat e.toNat), q))
    (found : simpleEscape? e = some c) (narrow : e.toNat < 0x80) :
    Outcome (Read s cs fun grown text => ∃ c, grown = out.push c ∧ Element ('\\' :: text) c)
      (.ok (out.push c, q)) := by
  obtain ⟨rest, shape, moved⟩ := here.of_bump_char e bumped narrow
  exact .ok ⟨[e], rest, shape, ⟨c, rfl, .escape found⟩, moved⟩

theorem parseEscape_spec {p : Parser} {cs : List Char} (here : At s p cs) (out : String) :
    Outcome (Read s cs fun grown text => ∃ c, grown = out.push c ∧ Element ('\\' :: text) c)
      (p.parseEscape out) := by
  unfold parseEscape
  split
  · exact simpleEscape_spec here out '"' _ (by assumption) rfl (by decide)
  · exact simpleEscape_spec here out '\\' _ (by assumption) rfl (by decide)
  · exact simpleEscape_spec here out '/' _ (by assumption) rfl (by decide)
  · exact simpleEscape_spec here out 'b' _ (by assumption) rfl (by decide)
  · exact simpleEscape_spec here out 'f' _ (by assumption) rfl (by decide)
  · exact simpleEscape_spec here out 'n' _ (by assumption) rfl (by decide)
  · exact simpleEscape_spec here out 'r' _ (by assumption) rfl (by decide)
  · exact simpleEscape_spec here out 't' _ (by assumption) rfl (by decide)
  · rename_i q bumped
    obtain ⟨rest, shape, moved⟩ := here.of_bump_char 'u' bumped (by decide)
    refine (parseUnicode_spec moved out).mono fun result ⟨text, after, tail, ⟨c, grown, unit⟩, there⟩ => ?_
    exact ⟨'u' :: text, after, by rw [shape, tail]; rfl, ⟨c, grown, unit⟩, there⟩
  · exact .fail _ _

/-- The text a string body has once `out` is unescaped: the rest of the body and
the closing quote. -/
def Closes (out : String) (whole : String) (text : List Char) : Prop :=
  ∃ raw chars, text = raw ++ ['"'] ∧ Body raw chars ∧ whole = out ++ String.ofList chars

theorem Closes.cons {out whole : String} {raw text : List Char} {c : Char} (first : Element raw c)
    (more : Closes (out.push c) whole text) : Closes out whole (raw ++ text) := by
  obtain ⟨rest, chars, shape, body, value⟩ := more
  refine ⟨raw ++ rest, c :: chars, by rw [shape, List.append_assoc], .cons first body, ?_⟩
  rw [value]
  apply String.ext
  simp

theorem parseStringLoop_spec {n : Nat} {p : Parser} {cs : List Char} (here : At s p cs)
    (out : String) (enough : cs.length < n) :
    Outcome (Read s cs (Closes out)) (parseStringLoop n p out) := by
  induction n generalizing p cs out with
  | zero => exact absurd enough (Nat.not_lt_zero _)
  | succ n ih =>
      -- What one element leaves behind is shorter, and the rest of the loop closes it.
      have onward : ∀ (raw : List Char) {q : Parser} {rest : List Char} {c : Char},
          cs = raw ++ rest → raw ≠ [] → Element raw c → At s q rest →
          Outcome (Read s cs (Closes out)) (parseStringLoop n q (out.push c)) := by
        intro raw q rest c shape some first there
        have size := congrArg List.length shape
        have positive := List.length_pos_iff.mpr some
        rw [List.length_append] at size
        refine (ih there (out.push c) (by omega)).mono
          fun result ⟨text, after, tail, closes, done⟩ => ?_
        exact ⟨raw ++ text, after, by rw [shape, tail, List.append_assoc], closes.cons first, done⟩
      unfold parseStringLoop
      split
      · exact .fail _ _
      · rename_i byte q bumped
        obtain ⟨peeked, rfl⟩ := bumpByte_eq_some bumped
        split
        · rename_i quote
          rw [quote] at peeked
          obtain ⟨rest, shape, moved⟩ := here.of_peek_char '"' peeked (by decide)
          refine .ok ⟨['"'], rest, shape, ⟨[], [], rfl, .nil, ?_⟩, moved⟩
          exact String.append_empty.symm
        · rename_i notQuote
          split
          · rename_i backslash
            rw [backslash] at peeked
            obtain ⟨rest, shape, moved⟩ := here.of_peek_char '\\' peeked (by decide)
            refine (parseEscape_spec moved out).bind
              fun ⟨grown, q⟩ ⟨text, after, tail, ⟨c, value, unit⟩, there⟩ => ?_
            dsimp only at value there ⊢
            rw [value]
            exact onward ('\\' :: text) (by rw [shape, tail]; rfl) (List.cons_ne_nil _ _) unit there
          · rename_i notEscape
            split
            · exact .fail _ _
            · rename_i visible
              split
              · rename_i narrow
                rw [UInt8.lt_iff_toNat_lt] at narrow visible
                obtain ⟨c, rest, shape, value, moved⟩ := here.of_peek peeked narrow
                have same : Char.ofNat byte.toNat = c := by rw [← value, Char.ofNat_toNat]
                rw [same]
                refine onward [c] shape (List.cons_ne_nil _ _) (.plain ?_ ?_ ?_) moved
                · rintro rfl
                  exact notQuote (UInt8.toNat_inj.mp value.symm)
                · rintro rfl
                  exact notEscape (UInt8.toNat_inj.mp value.symm)
                · rw [value]
                  exact Nat.le_of_not_lt visible
              · rename_i wide
                rw [UInt8.lt_iff_toNat_lt] at wide
                cases cs with
                | nil => rw [here.peek_nil] at peeked; cases peeked
                | cons c rest =>
                    obtain ⟨lead, found, low, _⟩ := here.peek_cons
                    rw [found] at peeked
                    cases peeked
                    have large : 0x80 ≤ c.toNat := by
                      by_contra small
                      rw [low (Nat.lt_of_not_le small)] at wide
                      exact wide (Nat.lt_of_not_le small)
                    change Outcome _ (p.sliceFrom >>= _)
                    rw [here.sliceFrom]
                    dsimp only [bind, Except.bind]
                    rw [Utf8.encode_cons, Utf8.firstChar?_encode]
                    refine onward [c] rfl (List.cons_ne_nil _ _) (.plain ?_ ?_ ?_)
                      here.advance
                    · rintro rfl
                      exact absurd large (by decide)
                    · rintro rfl
                      exact absurd large (by decide)
                    · exact Nat.le_trans (by decide) large

theorem expectByte_spec {p : Parser} {cs : List Char} (here : At s p cs) (c : Char)
    (narrow : c.toNat < 0x80) :
    Outcome (fun q => ∃ rest, cs = c :: rest ∧ At s q rest)
      (p.expectByte (UInt8.ofNat c.toNat)) := by
  unfold expectByte
  split
  · rename_i byte q bumped
    split
    · rename_i same
      rw [same] at bumped
      exact .ok (here.of_bump_char c bumped narrow)
    · exact .fail _ _
  · exact .fail _ _

/-- A whole string, quotes included. -/
theorem parseString_spec {p : Parser} {cs : List Char} (here : At s p cs) :
    Outcome (Read s cs fun value text =>
      ∃ raw chars, text = '"' :: (raw ++ ['"']) ∧ Body raw chars ∧ value = String.ofList chars)
      p.parseString := by
  refine (expectByte_spec here '"' (by decide)).bind fun q ⟨rest, shape, moved⟩ => ?_
  refine (parseStringLoop_spec moved "" (Nat.lt_succ_of_le moved.length_le_remaining)).mono
    fun result ⟨text, after, tail, ⟨raw, chars, cut, body, value⟩, there⟩ => ?_
  refine ⟨'"' :: text, after, by rw [shape, tail]; rfl, ⟨raw, chars, by rw [cut], body, ?_⟩, there⟩
  rw [value, String.empty_append]

/-! ## Values -/

theorem parseLiteral_spec {p : Parser} {cs : List Char} (here : At s p cs) (lit : String)
    (val : Json) :
    Outcome (Read s cs fun v text => v = val ∧ text = lit.toList) (p.parseLiteral lit val) := by
  unfold parseLiteral
  rw [here.sliceFrom]
  change Outcome _ (if (Utf8.bytes lit).isPrefixOf (Utf8.encode cs) = true then _ else _)
  split
  · rename_i found
    rw [List.isPrefixOf_iff_prefix, Utf8.bytes_eq_encode, Utf8.encode_prefix_iff] at found
    obtain ⟨rest, rfl⟩ := found
    rw [Utf8.bytes_eq_encode]
    exact .ok ⟨lit.toList, rest, rfl, ⟨rfl, rfl⟩, here.skip lit.toList⟩
  · exact .fail _ _

/-- Leading whitespace belongs to the first element. -/
theorem elements_pad {ws inside : List Char} {items : List Json} (space : Ws ws)
    (derived : Derives (.elements items) inside) : Derives (.elements items) (ws ++ inside) := by
  cases derived with
  | lastElement hbefore hvalue hafter =>
      rw [← List.append_assoc]
      exact .lastElement (space.append hbefore) hvalue hafter
  | nextElement hbefore hvalue hafter more =>
      rw [← List.append_assoc]
      exact .nextElement (space.append hbefore) hvalue hafter more

theorem members_pad {ws inside : List Char} {pairs : List (String × Json)} (space : Ws ws)
    (derived : Derives (.members pairs) inside) : Derives (.members pairs) (ws ++ inside) := by
  cases derived with
  | lastMember hbefore hkey hmiddle hgap hvalue hafter =>
      rw [← List.append_assoc]
      exact .lastMember (space.append hbefore) hkey hmiddle hgap hvalue hafter
  | nextMember hbefore hkey hmiddle hgap hvalue hafter more =>
      rw [← List.append_assoc]
      exact .nextMember (space.append hbefore) hkey hmiddle hgap hvalue hafter more

/-- A value after whitespace. -/
def Padded (v : Json) (text : List Char) : Prop :=
  ∃ ws inner, text = ws ++ inner ∧ Ws ws ∧ Value inner v

/-- The rest of an array, `items` read: more elements and the closing bracket. -/
def ClosesArray (items : List Json) (v : Json) (text : List Char) : Prop :=
  ∃ more inside, v = .array (items ++ more) ∧ text = inside ++ [']'] ∧
    Derives (.elements more) inside

/-- The rest of an object, `pairs` read: more members and the closing brace. -/
def ClosesObject (pairs : List (String × Json)) (v : Json) (text : List Char) : Prop :=
  ∃ more inside, v = .object (pairs ++ more) ∧ text = inside ++ ['\x7d'] ∧
    Derives (.members more) inside

/-- What the five functions that call one another do with fuel `n`. -/
structure Specified (s : String) (n : Nat) : Prop where
  value : ∀ {p cs}, At s p cs → 3 * cs.length + 2 ≤ n →
    Outcome (Read s cs Padded) (parseValue n p)
  array : ∀ {p cs}, At s p cs → 3 * cs.length + 1 ≤ n →
    Outcome (Read s cs fun v text => Value text v) (parseArray n p)
  items : ∀ {p cs} items, At s p cs → 3 * cs.length + 3 ≤ n →
    Outcome (Read s cs (ClosesArray items)) (parseItems n p items)
  object : ∀ {p cs}, At s p cs → 3 * cs.length + 1 ≤ n →
    Outcome (Read s cs fun v text => Value text v) (parseObject n p)
  pairs : ∀ {p cs} pairs, At s p cs → 3 * cs.length + 3 ≤ n →
    Outcome (Read s cs (ClosesObject pairs)) (parsePairs n p pairs)

theorem parseValue_step {n : Nat} (ih : Specified s n) {p : Parser} {cs : List Char}
    (here : At s p cs) (enough : 3 * cs.length + 2 ≤ n + 1) :
    Outcome (Read s cs Padded) (parseValue (n + 1) p) := by
  obtain ⟨ws, rest, shape, space, there⟩ := skipWs_spec here
  have shorter : rest.length ≤ cs.length := by
    rw [shape, List.length_append]
    exact Nat.le_add_left _ _
  -- A value read from where the whitespace ends is a padded value from here.
  have padded : ∀ {x : Except Stop (Json × Parser)},
      Outcome (Read s rest fun v text => Value text v) x → Outcome (Read s cs Padded) x := by
    intro x read
    refine read.mono fun result ⟨text, after, tail, value, done⟩ => ?_
    exact ⟨ws ++ text, after, by rw [shape, tail, List.append_assoc], ⟨ws, text, rfl, space, value⟩, done⟩
  have literal : ∀ {lit : String} {v : Json}, Derives (.value v) lit.toList →
      Outcome (Read s cs Padded) (p.skipWs.parseLiteral lit v) := by
    intro lit v derived
    refine padded ((parseLiteral_spec there lit v).mono ?_)
    rintro result ⟨text, after, tail, ⟨value, spelled⟩, done⟩
    rw [← value, ← spelled] at derived
    exact ⟨text, after, tail, derived, done⟩
  unfold parseValue
  dsimp only
  split
  · split
    · exact padded (ih.object there (by omega))
    · split
      · exact padded (ih.array there (by omega))
      · split
        · refine padded ((parseString_spec there).bind ?_)
          rintro ⟨value, q⟩ ⟨text, after, tail, ⟨raw, chars, spelled, body, denoted⟩, done⟩
          refine .ok ⟨text, after, tail, ?_, done⟩
          dsimp only at denoted ⊢
          rw [spelled, denoted]
          exact .string body
        · split
          · exact literal .true
          · split
            · exact literal .false
            · split
              · exact literal .null
              · split
                · refine padded ((parseNumber_spec there).bind ?_)
                  rintro ⟨token, q⟩ ⟨text, after, tail, ⟨number, denoted⟩, done⟩
                  refine .ok ⟨text, after, tail, ?_, done⟩
                  dsimp only at denoted ⊢
                  rw [denoted]
                  exact .number number
                · exact .fail _ _
  · exact .fail _ _

theorem parseArray_step {n : Nat} (ih : Specified s n) {p : Parser} {cs : List Char}
    (here : At s p cs) (enough : 3 * cs.length + 1 ≤ n + 1) :
    Outcome (Read s cs fun v text => Value text v) (parseArray (n + 1) p) := by
  unfold parseArray
  refine (expectByte_spec here '[' (by decide)).bind fun q ⟨rest, shape, moved⟩ => ?_
  obtain ⟨ws, rest1, shape1, space, there⟩ := skipWs_spec moved
  dsimp only
  split
  · rename_i closed
    obtain ⟨rest2, shape2, done⟩ := there.of_peek_char ']' closed (by decide)
    refine .ok ⟨'[' :: (ws ++ [']']), rest2, ?_, .emptyArray space, done⟩
    rw [shape, shape1, shape2]
    simp
  · have size := congrArg List.length shape
    rw [shape1, List.length_cons, List.length_append] at size
    refine (ih.items [] there (by omega)).mono ?_
    rintro result ⟨text, after, tail, ⟨more, inside, value, spelled, derived⟩, done⟩
    refine ⟨'[' :: ((ws ++ inside) ++ [']']), after, ?_, ?_, done⟩
    · rw [shape, shape1, tail, spelled]
      simp
    · rw [value]
      exact .array (elements_pad space derived)

theorem parseItems_step {n : Nat} (ih : Specified s n) {p : Parser} {cs : List Char}
    (items : List Json) (here : At s p cs) (enough : 3 * cs.length + 3 ≤ n + 1) :
    Outcome (Read s cs (ClosesArray items)) (parseItems (n + 1) p items) := by
  unfold parseItems
  refine (ih.value here (by omega)).bind ?_
  rintro ⟨v, q⟩ ⟨text, rest, shape, ⟨before, inner, padded, hbefore, value⟩, moved⟩
  obtain ⟨ws, rest1, shape1, hafter, there⟩ := skipWs_spec moved
  dsimp only
  split
  · rename_i r bumped
    obtain ⟨rest2, shape2, comma⟩ := there.of_bump_char ',' bumped (by decide)
    obtain ⟨ws', rest3, shape3, space, onward⟩ := skipWs_spec comma
    have size := congrArg List.length shape
    rw [shape1, shape2, shape3] at size
    simp only [List.length_append, List.length_cons] at size
    refine (ih.items (items ++ [v]) onward (by omega)).mono ?_
    rintro result ⟨text', after, tail, ⟨more, inside, result_eq, spelled, derived⟩, done⟩
    refine ⟨before ++ (inner ++ (ws ++ ',' :: (ws' ++ inside))) ++ [']'], after, ?_,
      ⟨v :: more, _, ?_, rfl, ?_⟩, done⟩
    · rw [shape, padded, shape1, shape2, shape3, tail, spelled]
      simp
    · rw [result_eq]
      simp
    · exact .nextElement hbefore value hafter (elements_pad space derived)
  · rename_i r bumped
    obtain ⟨rest2, shape2, done⟩ := there.of_bump_char ']' bumped (by decide)
    refine .ok ⟨before ++ (inner ++ ws) ++ [']'], rest2, ?_, ⟨[v], _, rfl, rfl, ?_⟩, done⟩
    · rw [shape, padded, shape1, shape2]
      simp
    · exact .lastElement hbefore value hafter
  · exact .fail _ _

theorem parseObject_step {n : Nat} (ih : Specified s n) {p : Parser} {cs : List Char}
    (here : At s p cs) (enough : 3 * cs.length + 1 ≤ n + 1) :
    Outcome (Read s cs fun v text => Value text v) (parseObject (n + 1) p) := by
  unfold parseObject
  refine (expectByte_spec here '{' (by decide)).bind fun q ⟨rest, shape, moved⟩ => ?_
  obtain ⟨ws, rest1, shape1, space, there⟩ := skipWs_spec moved
  dsimp only
  split
  · rename_i closed
    obtain ⟨rest2, shape2, done⟩ := there.of_peek_char '}' closed (by decide)
    refine .ok ⟨'{' :: (ws ++ ['}']), rest2, ?_, .emptyObject space, done⟩
    rw [shape, shape1, shape2]
    simp
  · have size := congrArg List.length shape
    rw [shape1, List.length_cons, List.length_append] at size
    refine (ih.pairs [] there (by omega)).mono ?_
    rintro result ⟨text, after, tail, ⟨more, inside, value, spelled, derived⟩, done⟩
    refine ⟨'{' :: ((ws ++ inside) ++ ['}']), after, ?_, ?_, done⟩
    · rw [shape, shape1, tail, spelled]
      simp
    · rw [value]
      exact .object (members_pad space derived)

theorem parsePairs_step {n : Nat} (ih : Specified s n) {p : Parser} {cs : List Char}
    (pairs : List (String × Json)) (here : At s p cs) (enough : 3 * cs.length + 3 ≤ n + 1) :
    Outcome (Read s cs (ClosesObject pairs)) (parsePairs (n + 1) p pairs) := by
  obtain ⟨before, rest1, shape1, hbefore, at1⟩ := skipWs_spec here
  unfold parsePairs
  dsimp only
  split
  · exact .fail _ _
  · refine (parseString_spec at1).bind ?_
    rintro ⟨key, q⟩ ⟨keyText, rest2, shape2, ⟨raw, chars, quoted, hkey, denoted⟩, at2⟩
    obtain ⟨middle, rest3, shape3, hmiddle, at3⟩ := skipWs_spec at2
    refine (expectByte_spec at3 ':' (by decide)).bind fun q4 ⟨rest4, shape4, at4⟩ => ?_
    obtain ⟨gap, rest5, shape5, hgap, at5⟩ := skipWs_spec at4
    have whole : cs = before ++ '"' :: (raw ++ '"' :: (middle ++ ':' :: (gap ++ rest5))) := by
      rw [shape1, shape2, quoted, shape3, shape4, shape5]
      simp
    have size := congrArg List.length whole
    simp only [List.length_append, List.length_cons] at size
    refine (ih.value at5 (by omega)).bind ?_
    rintro ⟨v, q6⟩ ⟨text, rest6, shape6, ⟨gap', inner, padded, hgap', value⟩, at6⟩
    obtain ⟨ws, rest7, shape7, hafter, at7⟩ := skipWs_spec at6
    dsimp only at denoted ⊢
    rw [denoted]
    split
    · rename_i r bumped
      obtain ⟨rest8, shape8, comma⟩ := at7.of_bump_char ',' bumped (by decide)
      obtain ⟨ws', rest9, shape9, space, onward⟩ := skipWs_spec comma
      have size' := congrArg List.length shape6
      rw [shape7, shape8, shape9] at size'
      simp only [List.length_append, List.length_cons] at size'
      refine (ih.pairs (pairs ++ [(String.ofList chars, v)]) onward (by omega)).mono ?_
      rintro result ⟨text', after, tail, ⟨more, inside, result_eq, spelled, derived⟩, done⟩
      refine ⟨before ++ '"' :: (raw ++ '"' :: (middle ++ ':' :: ((gap ++ gap') ++
        (inner ++ (ws ++ ',' :: (ws' ++ inside)))))) ++ ['}'], after, ?_,
        ⟨(String.ofList chars, v) :: more, _, ?_, rfl, ?_⟩, done⟩
      · rw [whole, shape6, padded, shape7, shape8, shape9, tail, spelled]
        simp
      · rw [result_eq]
        simp
      · exact .nextMember hbefore hkey hmiddle (hgap.append hgap') value hafter
          (members_pad space derived)
    · rename_i r bumped
      obtain ⟨rest8, shape8, done⟩ := at7.of_bump_char '}' bumped (by decide)
      refine .ok ⟨before ++ '"' :: (raw ++ '"' :: (middle ++ ':' :: ((gap ++ gap') ++
        (inner ++ ws)))) ++ ['}'], rest8, ?_, ⟨[(String.ofList chars, v)], _, rfl, rfl, ?_⟩, done⟩
      · rw [whole, shape6, padded, shape7, shape8]
        simp
      · exact .lastMember hbefore hkey hmiddle (hgap.append hgap') value hafter
    · exact .fail _ _

theorem specified (s : String) (n : Nat) : Specified s n := by
  induction n with
  | zero =>
      refine ⟨?_, ?_, ?_, ?_, ?_⟩ <;> intros <;> omega
  | succ n ih =>
      exact ⟨parseValue_step ih, parseArray_step ih, parseItems_step ih, parseObject_step ih,
        parsePairs_step ih⟩

/-- The whole input, once it is known to be a string. -/
theorem parse_spec (input : List UInt8) :
    Outcome (fun v => ∃ cs, input = Utf8.encode cs ∧ Text cs v) (parse input) := by
  unfold parse
  split
  · exact .err _
  · rename_i s decoded
    rw [Utf8.decode?_eq_some_iff, Utf8.bytes_eq_encode] at decoded
    obtain ⟨before, rest, shape, hbefore, at1⟩ := skipWs_spec (at_new s)
    have size := congrArg List.length shape
    have bound := at1.length_le_whole
    have enough : 3 * rest.length + 2 ≤ parseFuel (new s).skipWs.b.length := by
      unfold parseFuel
      omega
    refine ((specified s _).value at1 enough).bind ?_
    rintro ⟨v, p⟩ ⟨text, rest1, shape1, ⟨gap, inner, padded, hgap, value⟩, at2⟩
    obtain ⟨after, rest2, shape2, hafter, at3⟩ := skipWs_spec at2
    dsimp only
    split
    · exact .fail _ _
    · rename_i stopped
      rw [not_not, at3.atEnd_iff] at stopped
      refine .ok ⟨s.toList, decoded, before ++ gap, inner, after, ?_, hbefore.append hgap, value, hafter⟩
      rw [shape, shape1, padded, shape2, stopped]
      simp

/-- A parse that fails reports an error: it neither panics nor runs out of fuel. -/
theorem parse_reports {input : List UInt8} {stop : Stop} (failed : parse input = .error stop) :
    ∃ e, stop = .err e := by
  have spec := parse_spec input
  rw [failed] at spec
  cases spec with
  | err e => exact ⟨e, rfl⟩

end SanDbOxFormal.Rust.Codec.Json.Parser
