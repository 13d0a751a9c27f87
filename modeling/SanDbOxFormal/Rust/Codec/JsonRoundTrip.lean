import SanDbOxFormal.Rust.Codec.JsonCompleteness

/-!
# The writer and the parser are inverse

What `write` appends for a tree is a text of the grammar that denotes the tree,
as long as every number in it is a numeral, and it holds no control character.
Completeness of the parser then reads it back.  The trees that `parse` returns
are of this kind.
-/

namespace SanDbOxFormal.Rust.Codec.Json

open SanDbOxFormal.Library
open SanDbOxFormal.Library.Rfc8259

mutual

/-- Every number token in the tree satisfies the number grammar. -/
def Numerals : Json → Prop
  | .number n => Number n.raw.toList
  | .array items => NumeralsItems items
  | .object pairs => NumeralsPairs pairs
  | .null => True
  | .bool _ => True
  | .string _ => True

def NumeralsItems : List Json → Prop
  | [] => True
  | item :: rest => Numerals item ∧ NumeralsItems rest

def NumeralsPairs : List (String × Json) → Prop
  | [] => True
  | (_, v) :: rest => Numerals v ∧ NumeralsPairs rest

end

/-- No control character. -/
def Visible (cs : List Char) : Prop := ∀ c ∈ cs, 0x20 ≤ c.toNat

theorem Visible.nil : Visible [] := fun _ inside => by cases inside

theorem Visible.cons {c : Char} {cs : List Char} (head : 0x20 ≤ c.toNat) (rest : Visible cs) :
    Visible (c :: cs) :=
  List.forall_mem_cons.mpr ⟨head, rest⟩

theorem Visible.append {first second : List Char} (hfirst : Visible first)
    (hsecond : Visible second) : Visible (first ++ second) :=
  List.forall_mem_append.mpr ⟨hfirst, hsecond⟩

theorem Visible.of_all {cs : List Char} (all : cs.all (fun c => 0x20 ≤ c.toNat) = true) :
    Visible cs :=
  fun c inside => of_decide_eq_true (List.all_eq_true.mp all c inside)

/-- What one call of the writer appends: behind `lead`, a text of the category
without control characters. -/
def Appends (lead : List Char) (category : Category) (before after : String) : Prop :=
  ∃ text, after.toList = before.toList ++ (lead ++ text) ∧ Derives category text ∧ Visible text

/-! ## Strings -/

theorem hexValue?_hexDigit (n : Nat) (small : n < 16) : hexValue? (hexDigit n) = some n := by
  revert n
  decide

theorem hexDigit_visible (n : Nat) (small : n < 16) : 0x20 ≤ (hexDigit n).toNat := by
  revert n
  decide

theorem hex4_unit {n : Nat} (small : n < 0x10000) : Hex4 (hex4 n).toList n := by
  have digits := Hex4.mk (hexValue?_hexDigit (n / 0x1000 % 16) (Nat.mod_lt _ (by decide)))
    (hexValue?_hexDigit (n / 0x100 % 16) (Nat.mod_lt _ (by decide)))
    (hexValue?_hexDigit (n / 16 % 16) (Nat.mod_lt _ (by decide)))
    (hexValue?_hexDigit (n % 16) (Nat.mod_lt _ (by decide)))
  have value : ((n / 0x1000 % 16 * 16 + n / 0x100 % 16) * 16 + n / 16 % 16) * 16 + n % 16 = n := by
    omega
  rw [value] at digits
  rw [hex4, String.toList_ofList]
  exact digits

theorem hex4_visible (n : Nat) : Visible (hex4 n).toList := by
  have digit (k : Nat) : 0x20 ≤ (hexDigit (k % 16)).toNat :=
    hexDigit_visible _ (Nat.mod_lt _ (by decide))
  rw [hex4, String.toList_ofList]
  exact .cons (digit _) (.cons (digit _) (.cons (digit _) (.cons (digit _) .nil)))

/-- One turn of the loop of `write_string` appends an element that denotes the character. -/
theorem writeChar_element (c : Char) (out : String) :
    ∃ raw, (writeChar c out).toList = out.toList ++ raw ∧ Element raw c ∧ Visible raw := by
  have short : ∀ (d e : Char) (text : String), c = d → simpleEscape? e = some d →
      text.toList = ['\\', e] → 0x20 ≤ e.toNat →
      ∃ raw, (out ++ text).toList = out.toList ++ raw ∧ Element raw c ∧ Visible raw := by
    intro d e text same found spelled visible
    rw [← same] at found
    exact ⟨['\\', e], by rw [String.toList_append, spelled], .escape found,
      .cons (by decide) (.cons visible .nil)⟩
  unfold writeChar
  split
  · exact short '"' '"' _ (by assumption) rfl rfl (by decide)
  · rename_i notQuote
    split
    · exact short '\\' '\\' _ (by assumption) rfl rfl (by decide)
    · rename_i notEscape
      split
      · exact short '\x08' 'b' _ (by assumption) rfl rfl (by decide)
      · split
        · exact short '\x0c' 'f' _ (by assumption) rfl rfl (by decide)
        · split
          · exact short '\n' 'n' _ (by assumption) rfl rfl (by decide)
          · split
            · exact short '\r' 'r' _ (by assumption) rfl rfl (by decide)
            · split
              · exact short '\t' 't' _ (by assumption) rfl rfl (by decide)
              · split
                · rename_i control
                  refine ⟨'\\' :: 'u' :: (hex4 c.toNat).toList, by simp,
                    .unicode (hex4_unit (Nat.lt_trans control (by decide))), ?_⟩
                  exact .cons (by decide) (.cons (by decide) (hex4_visible _))
                · rename_i visible
                  have large : 0x20 ≤ c.toNat := Nat.le_of_not_lt visible
                  exact ⟨[c], by simp, .plain notQuote notEscape large, .cons large .nil⟩

theorem writeChars_body (cs : List Char) (out : String) :
    ∃ raw, (cs.foldl (fun out c => writeChar c out) out).toList = out.toList ++ raw ∧
      Body raw cs ∧ Visible raw := by
  induction cs generalizing out with
  | nil => exact ⟨[], by simp, .nil, .nil⟩
  | cons c rest ih =>
      obtain ⟨raw, shape, element, visible⟩ := writeChar_element c out
      obtain ⟨more, shape', body, visible'⟩ := ih (writeChar c out)
      refine ⟨raw ++ more, ?_, .cons element body, visible.append visible'⟩
      rw [List.foldl_cons, shape', shape, List.append_assoc]

theorem writeString_body (t out : String) :
    ∃ raw, (writeString t out).toList = out.toList ++ '"' :: (raw ++ ['"']) ∧
      Body raw t.toList ∧ Visible raw := by
  obtain ⟨raw, shape, body, visible⟩ := writeChars_body t.toList (out.push '"')
  refine ⟨raw, ?_, body, visible⟩
  rw [writeString, String.toList_push, shape, String.toList_push]
  simp

/-! ## Numbers -/

theorem digits_visible {ds : List Char} (digits : Digits ds) : Visible ds := by
  intro c inside
  have digit := digits c inside
  simp only [isDigit, Bool.and_eq_true, decide_eq_true_eq] at digit
  omega

theorem number_visible {cs : List Char} (number : Number cs) : Visible cs := by
  cases number with
  | mk hsign hint hfrac hexp =>
      refine .append ?_ (.append ?_ (.append ?_ ?_))
      · cases hsign with
        | absent => exact .nil
        | minus => exact .cons (by decide) .nil
      · cases hint with
        | zero => exact .cons (by decide) .nil
        | digits lead _ more => exact digits_visible (Digits.cons lead more)
      · cases hfrac with
        | absent => exact .nil
        | point _ digits => exact .cons (by decide) (digits_visible digits)
      · cases hexp with
        | absent => exact .nil
        | exponent letter signed _ digits =>
            refine .cons ?_ (.append ?_ (digits_visible digits))
            · rcases letter with rfl | rfl <;> decide
            · cases signed with
              | absent => exact .nil
              | plus => exact .cons (by decide) .nil
              | minus => exact .cons (by decide) .nil

/-! ## Trees -/

/-- The insides of a pair of brackets. -/
theorem Appends.bracketed {before middle : String} {opening closing : Char}
    {category inner : Category} (filled : Appends [] inner (before.push opening) middle)
    (derives : ∀ text, Derives inner text → Derives category (opening :: (text ++ [closing])))
    (visible : 0x20 ≤ opening.toNat ∧ 0x20 ≤ closing.toNat) :
    Appends [] category before (middle.push closing) := by
  obtain ⟨text, shape, derived, clean⟩ := filled
  refine ⟨_, ?_, derives text derived, .cons visible.1 (clean.append (.cons visible.2 .nil))⟩
  rw [String.toList_push, shape, String.toList_push]
  simp

/-- A token of visible characters is appended as it is. -/
theorem Appends.token {category : Category} (before token : String)
    (derived : Derives category token.toList) (visible : Visible token.toList) :
    Appends [] category before (before ++ token) :=
  ⟨token.toList, by simp, derived, visible⟩

/-- The comma that the loops write from the second turn on. -/
def comma (i : Nat) : List Char := if i > 0 then [','] else []

theorem comma_toList (i : Nat) (out : String) :
    (if i > 0 then out.push ',' else out).toList = out.toList ++ comma i := by
  unfold comma
  split
  · exact String.toList_push ..
  · simp

mutual

theorem writeValue_appends : ∀ (v : Json) (out : String), Numerals v →
    Appends [] (.value v) out (writeValue v out)
  | .null, out, _ => .token out "null" .null (.of_all rfl)
  | .bool true, out, _ => .token out "true" .true (.of_all rfl)
  | .bool false, out, _ => .token out "false" .false (.of_all rfl)
  | .number n, out, numerals => by
      have derived : Derives (.value (.number n)) n.raw.toList := by
        have number := Derives.number numerals
        rwa [String.ofList_toList] at number
      exact .token out n.raw derived (number_visible numerals)
  | .string t, out, _ => by
      obtain ⟨raw, shape, body, visible⟩ := writeString_body t out
      have derived := Derives.string body
      rw [String.ofList_toList] at derived
      exact ⟨_, shape, derived, .cons (by decide) (visible.append (.cons (by decide) .nil))⟩
  | .array items, out, numerals => by
      have filled := writeItems_appends items 0 (out.push '[') numerals
      unfold writeValue
      cases items with
      | nil => exact ⟨['[', ']'], by simp [writeItems], .emptyArray Ws.nil, .of_all rfl⟩
      | cons item rest =>
          exact (filled (List.cons_ne_nil _ _)).bracketed (fun _ derived => .array derived)
            (by decide)
  | .object pairs, out, numerals => by
      have filled := writePairs_appends pairs 0 (out.push '{') numerals
      unfold writeValue
      cases pairs with
      | nil => exact ⟨['{', '}'], by simp [writePairs], .emptyObject Ws.nil, .of_all rfl⟩
      | cons pair rest =>
          exact (filled (List.cons_ne_nil _ _)).bracketed (fun _ derived => .object derived)
            (by decide)

theorem writeItems_appends : ∀ (items : List Json) (i : Nat) (out : String),
    NumeralsItems items → items ≠ [] →
    Appends (comma i) (.elements items) out (writeItems i items out)
  | [], _, _, _, filled => absurd rfl filled
  | item :: rest, i, out, numerals, _ => by
      obtain ⟨text, shape, derived, visible⟩ :=
        writeValue_appends item (if i > 0 then out.push ',' else out) numerals.1
      have more := writeItems_appends rest (i + 1)
        (writeValue item (if i > 0 then out.push ',' else out)) numerals.2
      rw [comma_toList] at shape
      unfold writeItems
      cases rest with
      | nil =>
          refine ⟨[] ++ (text ++ []), ?_, .lastElement Ws.nil derived Ws.nil, ?_⟩
          · rw [writeItems, shape]
            simp
          · rwa [List.append_nil]
      | cons next rest =>
          obtain ⟨inside, shape', derived', visible'⟩ := more (List.cons_ne_nil _ _)
          refine ⟨[] ++ (text ++ ([] ++ ',' :: inside)), ?_,
            .nextElement Ws.nil derived Ws.nil derived', ?_⟩
          · rw [shape', shape]
            simp [comma]
          · exact visible.append (.cons (by decide) visible')

theorem writePairs_appends : ∀ (pairs : List (String × Json)) (i : Nat) (out : String),
    NumeralsPairs pairs → pairs ≠ [] →
    Appends (comma i) (.members pairs) out (writePairs i pairs out)
  | [], _, _, _, filled => absurd rfl filled
  | (key, v) :: rest, i, out, numerals, _ => by
      obtain ⟨raw, quoted, body, hraw⟩ :=
        writeString_body key (if i > 0 then out.push ',' else out)
      obtain ⟨text, shape, derived, visible⟩ := writeValue_appends v
        ((writeString key (if i > 0 then out.push ',' else out)).push ':') numerals.1
      have more := writePairs_appends rest (i + 1)
        (writeValue v ((writeString key (if i > 0 then out.push ',' else out)).push ':')) numerals.2
      rw [String.toList_push, quoted, comma_toList] at shape
      have shown : String.ofList key.toList = key := String.ofList_toList
      unfold writePairs
      cases rest with
      | nil =>
          have last := Derives.lastMember Ws.nil body Ws.nil Ws.nil derived Ws.nil
          rw [shown] at last
          refine ⟨_, ?_, last, ?_⟩
          · rw [writePairs, shape]
            simp
          · rw [List.append_nil]
            exact .cons (by decide) (hraw.append (.cons (by decide) (.cons (by decide) visible)))
      | cons next rest =>
          obtain ⟨inside, shape', derived', visible'⟩ := more (List.cons_ne_nil _ _)
          have member := Derives.nextMember Ws.nil body Ws.nil Ws.nil derived Ws.nil derived'
          rw [shown] at member
          refine ⟨_, ?_, member, ?_⟩
          · rw [shape', shape]
            simp [comma]
          · exact .cons (by decide) (hraw.append (.cons (by decide) (.cons (by decide)
              (visible.append (.cons (by decide) visible')))))

end

/-- What `write` returns for a tree of numerals. -/
theorem write_text {v : Json} (numerals : Numerals v) :
    Value (write v).toList v ∧ Visible (write v).toList := by
  obtain ⟨text, shape, derived, visible⟩ := writeValue_appends v "" numerals
  rw [String.toList_empty, List.nil_append, List.nil_append] at shape
  rw [write, shape]
  exact ⟨derived, visible⟩

theorem parse_write {v : Json} (numerals : Numerals v) :
    parse (Utf8.bytes (write v)) = .ok v := by
  rw [Utf8.bytes_eq_encode]
  exact Parser.parse_complete
    ⟨[], (write v).toList, [], by simp, Ws.nil, (write_text numerals).1, Ws.nil⟩

/-! ## What the grammar denotes -/

/-- Every number of a denoted tree is a numeral. -/
def CategoryNumerals : Category → Prop
  | .value v => Numerals v
  | .elements items => NumeralsItems items
  | .members pairs => NumeralsPairs pairs

theorem derives_numerals {category : Category} {text : List Char}
    (derived : Derives category text) : CategoryNumerals category := by
  induction derived with
  | null => trivial
  | true => trivial
  | false => trivial
  | number token =>
      change Number (String.ofList _).toList
      rwa [String.toList_ofList]
  | string => trivial
  | emptyArray => trivial
  | array _ ih => exact ih
  | emptyObject => trivial
  | object _ ih => exact ih
  | lastElement _ _ _ ih => exact ⟨ih, trivial⟩
  | nextElement _ _ _ _ ih more => exact ⟨ih, more⟩
  | lastMember _ _ _ _ _ _ ih => exact ⟨ih, trivial⟩
  | nextMember _ _ _ _ _ _ _ ih more => exact ⟨ih, more⟩

theorem parse_numerals {input : List UInt8} {v : Json} (returned : parse input = .ok v) :
    Numerals v := by
  have spec := Parser.parse_spec input
  rw [returned] at spec
  cases spec with
  | ok found =>
      obtain ⟨cs, _, _, _, _, _, _, value, _⟩ := found
      exact derives_numerals value

/-- The writer and the parser are inverse on trees of numerals, and every tree
that `parse` returns is one. -/
theorem write_parse_inverse :
    (∀ v, Numerals v → parse (Utf8.bytes (write v)) = .ok v) ∧
    (∀ input v, parse input = .ok v → Numerals v ∧ parse (Utf8.bytes (write v)) = .ok v) :=
  ⟨fun _ numerals => parse_write numerals,
    fun _ _ returned => ⟨parse_numerals returned, parse_write (parse_numerals returned)⟩⟩

end SanDbOxFormal.Rust.Codec.Json
