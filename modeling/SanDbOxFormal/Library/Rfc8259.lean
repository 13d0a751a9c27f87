import Mathlib

/-!
# The JSON grammar

The grammar of RFC 8259 over Unicode characters, each production stated with
what the text denotes.  Numbers denote their own token, strings their unescaped
characters, objects their members in order with duplicates kept.
-/

namespace SanDbOxFormal.Library.Rfc8259

/-- A number, kept as the text of its token. -/
structure NumberToken where
  raw : String
  deriving DecidableEq, Repr

inductive Json where
  | null
  | bool (b : Bool)
  | number (n : NumberToken)
  | string (s : String)
  | array (items : List Json)
  | object (pairs : List (String × Json))

/-! ## Characters -/

def isWs (c : Char) : Bool := c = ' ' || c = '\t' || c = '\n' || c = '\r'

def Ws (cs : List Char) : Prop := ∀ c ∈ cs, isWs c = true

def isDigit (c : Char) : Bool := 0x30 ≤ c.toNat && c.toNat ≤ 0x39

def Digits (cs : List Char) : Prop := ∀ c ∈ cs, isDigit c = true

def hexValue? (c : Char) : Option Nat :=
  if 0x30 ≤ c.toNat && c.toNat ≤ 0x39 then some (c.toNat - 0x30)
  else if 0x61 ≤ c.toNat && c.toNat ≤ 0x66 then some (c.toNat - 0x61 + 10)
  else if 0x41 ≤ c.toNat && c.toNat ≤ 0x46 then some (c.toNat - 0x41 + 10)
  else none

/-- The eight one-letter escapes. -/
def simpleEscape? : Char → Option Char
  | '"' => some '"'
  | '\\' => some '\\'
  | '/' => some '/'
  | 'b' => some '\x08'
  | 'f' => some '\x0c'
  | 'n' => some '\n'
  | 'r' => some '\r'
  | 't' => some '\t'
  | _ => none

/-! ## Numbers -/

inductive Sign : List Char → Prop where
  | absent : Sign []
  | minus : Sign ['-']

inductive IntPart : List Char → Prop where
  | zero : IntPart ['0']
  | digits {d : Char} {ds : List Char} (lead : isDigit d = true) (nonzero : d ≠ '0')
      (more : Digits ds) : IntPart (d :: ds)

inductive FracPart : List Char → Prop where
  | absent : FracPart []
  | point {ds : List Char} (nonempty : ds ≠ []) (digits : Digits ds) : FracPart ('.' :: ds)

inductive ExpSign : List Char → Prop where
  | absent : ExpSign []
  | plus : ExpSign ['+']
  | minus : ExpSign ['-']

inductive ExpPart : List Char → Prop where
  | absent : ExpPart []
  | exponent {e : Char} {sign ds : List Char} (letter : e = 'e' ∨ e = 'E')
      (signed : ExpSign sign) (nonempty : ds ≠ []) (digits : Digits ds) :
      ExpPart (e :: (sign ++ ds))

/-- `number = [ minus ] int [ frac ] [ exp ]`. -/
inductive Number : List Char → Prop where
  | mk {sign int frac exp : List Char} (hsign : Sign sign) (hint : IntPart int)
      (hfrac : FracPart frac) (hexp : ExpPart exp) : Number (sign ++ (int ++ (frac ++ exp)))

/-! ## Strings -/

inductive Hex4 : List Char → Nat → Prop where
  | mk {a b c d : Char} {va vb vc vd : Nat} (ha : hexValue? a = some va)
      (hb : hexValue? b = some vb) (hc : hexValue? c = some vc) (hd : hexValue? d = some vd) :
      Hex4 [a, b, c, d] (((va * 16 + vb) * 16 + vc) * 16 + vd)

/-- One element of a string body and the character it denotes. -/
inductive Element : List Char → Char → Prop where
  | plain {c : Char} (notQuote : c ≠ '"') (notEscape : c ≠ '\\') (visible : 0x20 ≤ c.toNat) :
      Element [c] c
  | escape {e c : Char} (found : simpleEscape? e = some c) : Element ['\\', e] c
  | unicode {hex : List Char} {c : Char} (unit : Hex4 hex c.toNat) : Element ('\\' :: 'u' :: hex) c
  | pair {high low : List Char} {h l : Nat} {c : Char} (hhigh : Hex4 high h) (hlow : Hex4 low l)
      (highRange : 0xD800 ≤ h ∧ h ≤ 0xDBFF) (lowRange : 0xDC00 ≤ l ∧ l ≤ 0xDFFF)
      (value : c.toNat = 0x10000 + (h - 0xD800) * 0x400 + (l - 0xDC00)) :
      Element ('\\' :: 'u' :: (high ++ '\\' :: 'u' :: low)) c

inductive Body : List Char → List Char → Prop where
  | nil : Body [] []
  | cons {raw rest : List Char} {c : Char} {cs : List Char} (first : Element raw c)
      (more : Body rest cs) : Body (raw ++ rest) (c :: cs)

/-! ## Values -/

/-- The three productions that recurse: a value, and the filled insides of an
array and of an object. -/
inductive Category where
  | value (v : Json)
  | elements (items : List Json)
  | members (pairs : List (String × Json))

inductive Derives : Category → List Char → Prop where
  | null : Derives (.value .null) ['n', 'u', 'l', 'l']
  | true : Derives (.value (.bool true)) ['t', 'r', 'u', 'e']
  | false : Derives (.value (.bool false)) ['f', 'a', 'l', 's', 'e']
  | number {cs : List Char} (token : Number cs) :
      Derives (.value (.number ⟨String.ofList cs⟩)) cs
  | string {raw cs : List Char} (body : Body raw cs) :
      Derives (.value (.string (String.ofList cs))) ('"' :: (raw ++ ['"']))
  | emptyArray {ws : List Char} (space : Ws ws) :
      Derives (.value (.array [])) ('[' :: (ws ++ [']']))
  | array {inside : List Char} {items : List Json} (filled : Derives (.elements items) inside) :
      Derives (.value (.array items)) ('[' :: (inside ++ [']']))
  | emptyObject {ws : List Char} (space : Ws ws) :
      Derives (.value (.object [])) ('{' :: (ws ++ ['}']))
  | object {inside : List Char} {pairs : List (String × Json)}
      (filled : Derives (.members pairs) inside) :
      Derives (.value (.object pairs)) ('{' :: (inside ++ ['}']))
  | lastElement {before text after : List Char} {v : Json} (hbefore : Ws before)
      (hvalue : Derives (.value v) text) (hafter : Ws after) :
      Derives (.elements [v]) (before ++ (text ++ after))
  | nextElement {before text after rest : List Char} {v : Json} {items : List Json}
      (hbefore : Ws before) (hvalue : Derives (.value v) text) (hafter : Ws after)
      (more : Derives (.elements items) rest) :
      Derives (.elements (v :: items)) (before ++ (text ++ (after ++ ',' :: rest)))
  | lastMember {before raw key middle gap text after : List Char} {v : Json}
      (hbefore : Ws before) (hkey : Body raw key) (hmiddle : Ws middle) (hgap : Ws gap)
      (hvalue : Derives (.value v) text) (hafter : Ws after) :
      Derives (.members [(String.ofList key, v)])
        (before ++ '"' :: (raw ++ '"' :: (middle ++ ':' :: (gap ++ (text ++ after)))))
  | nextMember {before raw key middle gap text after rest : List Char} {v : Json}
      {pairs : List (String × Json)} (hbefore : Ws before) (hkey : Body raw key)
      (hmiddle : Ws middle) (hgap : Ws gap) (hvalue : Derives (.value v) text)
      (hafter : Ws after) (more : Derives (.members pairs) rest) :
      Derives (.members ((String.ofList key, v) :: pairs))
        (before ++ '"' :: (raw ++ '"' :: (middle ++ ':' :: (gap ++ (text ++ (after ++ ',' :: rest))))))

/-- A value on its own. -/
def Value (cs : List Char) (v : Json) : Prop := Derives (.value v) cs

/-- `JSON-text = ws value ws`. -/
def Text (cs : List Char) (v : Json) : Prop :=
  ∃ before text after, cs = before ++ (text ++ after) ∧ Ws before ∧ Value text v ∧ Ws after

/-! ## Small facts the proofs about scanners use -/

@[simp] theorem Ws.nil : Ws [] := fun _ inside => by cases inside

theorem Ws.cons {c : Char} {cs : List Char} (head : isWs c = true) (rest : Ws cs) : Ws (c :: cs) :=
  List.forall_mem_cons.mpr ⟨head, rest⟩

theorem Ws.append {first second : List Char} (hfirst : Ws first) (hsecond : Ws second) :
    Ws (first ++ second) :=
  List.forall_mem_append.mpr ⟨hfirst, hsecond⟩

@[simp] theorem Digits.nil : Digits [] := fun _ inside => by cases inside

theorem Digits.cons {c : Char} {cs : List Char} (head : isDigit c = true) (rest : Digits cs) :
    Digits (c :: cs) :=
  List.forall_mem_cons.mpr ⟨head, rest⟩

theorem hexValue?_lt {c : Char} {v : Nat} (found : hexValue? c = some v) : v < 16 := by
  unfold hexValue? at found
  simp only [Bool.and_eq_true, decide_eq_true_eq] at found
  split at found
  · have := Option.some.inj found
    omega
  · split at found
    · have := Option.some.inj found
      omega
    · split at found
      · have := Option.some.inj found
        omega
      · cases found

theorem hexValue?_narrow {c : Char} {v : Nat} (found : hexValue? c = some v) : c.toNat < 0x80 := by
  unfold hexValue? at found
  simp only [Bool.and_eq_true, decide_eq_true_eq] at found
  split at found
  · omega
  · split at found
    · omega
    · split at found
      · omega
      · cases found

theorem Hex4.lt {cs : List Char} {v : Nat} (unit : Hex4 cs v) : v < 65536 := by
  cases unit with
  | mk ha hb hc hd =>
      have := hexValue?_lt ha
      have := hexValue?_lt hb
      have := hexValue?_lt hc
      have := hexValue?_lt hd
      omega

theorem Element.nonempty {raw : List Char} {c : Char} (element : Element raw c) :
    0 < raw.length := by
  cases element <;> exact Nat.zero_lt_succ _

end SanDbOxFormal.Library.Rfc8259
