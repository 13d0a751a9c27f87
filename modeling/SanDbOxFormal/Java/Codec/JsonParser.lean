import SanDbOxFormal.Java.Codec.Request

/-!
# The JSON parser of the Java driver

`JsonParser` over the units of a string.  A cursor is a position and the units from it
on.  How deep the calls nest before the stack is exhausted is a parameter.
-/

namespace SanDbOxFormal.Java.Codec.JsonParser

/-- Why a method did not return. -/
inductive Stop where
  /-- A `CodecException` with this message. -/
  | codec (message : JString)
  /-- A `StackOverflowError`. -/
  | stackOverflow
  /-- A loop that ran out of turns. -/
  | turns
  deriving DecidableEq

structure Cursor where
  i : Nat
  rest : JString
  deriving DecidableEq

def err {α : Type} (c : Cursor) (message : JString) : Except Stop α :=
  .error (.codec (message ++ lit " at position " ++ lit (toString c.i)))

namespace Cursor

/-- `i++`. -/
def next (c : Cursor) : Cursor := ⟨c.i + 1, c.rest.tail⟩

/-- `i += n`. -/
def advance (c : Cursor) (n : Nat) : Cursor := ⟨c.i + n, c.rest.drop n⟩

/-- `while (i < len && p(s.charAt(i))) { i++; }`. -/
def skipWhile (p : UInt16 → Bool) (c : Cursor) : Cursor :=
  ⟨c.i + (c.rest.takeWhile p).length, c.rest.dropWhile p⟩

/-- `s.substring(start, i)`, from a cursor at the start. -/
def substring (start c : Cursor) : JString := start.rest.take (c.i - start.i)

/-- `i < len && s.charAt(i) == u`. -/
def startsWith (c : Cursor) (u : UInt16) : Bool := c.rest.head? = some u

end Cursor

def isWhitespace (c : UInt16) : Bool := c = 0x20 || c = 0x09 || c = 0x0A || c = 0x0D

def skipWhitespace : Cursor → Cursor := Cursor.skipWhile isWhitespace

def isDigit (c : UInt16) : Bool := 0x30 ≤ c && c ≤ 0x39

/-- `i < len && isDigit(s.charAt(i))`. -/
def atDigit (c : Cursor) : Bool := c.rest.head?.any isDigit

def skipDigits : Cursor → Cursor := Cursor.skipWhile isDigit

def expectLiteral (c : Cursor) (literal : String) : Except Stop Cursor :=
  if (lit literal).isPrefixOf c.rest then .ok (c.advance (lit literal).length)
  else err c (lit "invalid literal, expected \"" ++ lit literal ++ lit "\"")

/-! ## Strings -/

/-- One turn of the loop of `parseHex4`, where `i` stands before the first digit. -/
def hexDigit (c : Cursor) (u : UInt16) : Except Stop Nat :=
  if 0x30 ≤ u ∧ u ≤ 0x39 then .ok (u.toNat - 0x30)
  else if 0x61 ≤ u ∧ u ≤ 0x66 then .ok (u.toNat - 0x61 + 10)
  else if 0x41 ≤ u ∧ u ≤ 0x46 then .ok (u.toNat - 0x41 + 10)
  else err c (lit "invalid hex digit '" ++ [u] ++ lit "' in \\u escape")

/-- `(char) parseHex4()` of the four units that follow. -/
def parseHex4 (c : Cursor) (u₁ u₂ u₃ u₄ : UInt16) : Except Stop UInt16 := do
  let d₁ ← hexDigit c u₁
  let d₂ ← hexDigit c u₂
  let d₃ ← hexDigit c u₃
  let d₄ ← hexDigit c u₄
  .ok (UInt16.ofNat (((d₁ * 16 + d₂) * 16 + d₃) * 16 + d₄))

/-- The cases of the escape switch but for `u`. -/
def simpleEscape? (e : UInt16) : Option UInt16 :=
  if e = 0x22 then some 0x22
  else if e = 0x5C then some 0x5C
  else if e = 0x2F then some 0x2F
  else if e = 0x62 then some 0x08
  else if e = 0x66 then some 0x0C
  else if e = 0x6E then some 0x0A
  else if e = 0x72 then some 0x0D
  else if e = 0x74 then some 0x09
  else none

/-- `sb.append(c)` in front of what the loop appends from here on. -/
def append (u : UInt16) : Except Stop (JString × Cursor) → Except Stop (JString × Cursor)
  | .ok (s, c) => .ok (u :: s, c)
  | .error e => .error e

/-- The loop of `parseString` at position `i`. -/
def stringLoop (i : Nat) : JString → Except Stop (JString × Cursor)
  | [] => err ⟨i, []⟩ (lit "unterminated string")
  | c :: rest =>
      if c = 0x22 then .ok ([], ⟨i + 1, rest⟩)
      else if c = 0x5C then
        match rest with
        | [] => err ⟨i + 1, []⟩ (lit "unterminated escape sequence")
        | e :: rest =>
            if e = 0x75 then
              match rest with
              | u₁ :: u₂ :: u₃ :: u₄ :: rest =>
                  match parseHex4 ⟨i + 2, u₁ :: u₂ :: u₃ :: u₄ :: rest⟩ u₁ u₂ u₃ u₄ with
                  | .ok u => append u (stringLoop (i + 6) rest)
                  | .error stop => .error stop
              | rest => err ⟨i + 2, rest⟩ (lit "invalid \\u escape: not enough hex digits")
            else
              match simpleEscape? e with
              | some u => append u (stringLoop (i + 2) rest)
              | none => err ⟨i + 1, e :: rest⟩ (lit "invalid escape character '" ++ [e] ++ lit "'")
      else if c < 0x20 then err ⟨i, c :: rest⟩ (lit "unescaped control character in string")
      else append c (stringLoop (i + 1) rest)

/-- `parseString`, which first consumes the opening quote. -/
def parseString (c : Cursor) : Except Stop (JString × Cursor) := stringLoop c.next.i c.next.rest

/-! ## Numbers -/

def skipMinus (c : Cursor) : Cursor := if c.startsWith 0x2D then c.next else c

def parseInt (c : Cursor) : Except Stop Cursor :=
  if !atDigit c then err c (lit "invalid number")
  else if c.startsWith 0x30 then .ok c.next
  else .ok (skipDigits c)

def parseFraction (c : Cursor) : Except Stop Cursor :=
  if c.startsWith 0x2E then
    if !atDigit c.next then err c.next (lit "invalid number: expected digit after '.'")
    else .ok (skipDigits c.next)
  else .ok c

def parseExponent (c : Cursor) : Except Stop Cursor :=
  if c.startsWith 0x65 || c.startsWith 0x45 then
    let d := if c.next.startsWith 0x2B || c.next.startsWith 0x2D then c.next.next else c.next
    if !atDigit d then err d (lit "invalid number: expected digit in exponent")
    else .ok (skipDigits d)
  else .ok c

def parseNumber (start : Cursor) : Except Stop (Json × Cursor) := do
  let c ← parseInt (skipMinus start)
  let c ← parseFraction c
  let c ← parseExponent c
  .ok (.num (start.substring c), c)

/-! ## Values -/

/-- The loop of `parseArray`, with at most `n` turns. -/
def arrayLoop (parseValue : Cursor → Except Stop (Json × Cursor)) :
    Nat → Cursor → Except Stop (List Json × Cursor)
  | 0, _ => .error .turns
  | n + 1, c => do
      let (item, c) ← parseValue (skipWhitespace c)
      let c := skipWhitespace c
      match c.rest with
      | [] => err c (lit "unterminated array")
      | u :: _ =>
          if u = 0x2C then do
            let (items, c) ← arrayLoop parseValue n c.next
            .ok (item :: items, c)
          else if u = 0x5D then .ok ([item], c.next)
          else err c (lit "expected ',' or ']'")

/-- `parseArray`, which first consumes the bracket. -/
def parseArray (parseValue : Cursor → Except Stop (Json × Cursor)) (c : Cursor) :
    Except Stop (Json × Cursor) :=
  let d := skipWhitespace c.next
  if d.startsWith 0x5D then .ok (.arr [], d.next)
  else do
    let (items, d) ← arrayLoop parseValue (c.next.rest.length + 1) d
    .ok (.arr items, d)

/-- A key and its value, up to what stands behind it. -/
def parseMember (parseValue : Cursor → Except Stop (Json × Cursor)) (c : Cursor) :
    Except Stop ((JString × Json) × Cursor) := do
  let c := skipWhitespace c
  if !c.startsWith 0x22 then err c (lit "expected string key")
  else do
    let (key, c) ← parseString c
    let c := skipWhitespace c
    if !c.startsWith 0x3A then err c (lit "expected ':'")
    else do
      let (value, c) ← parseValue (skipWhitespace c.next)
      .ok ((key, value), skipWhitespace c)

/-- The loop of `parseObject`, with at most `n` turns. -/
def objectLoop (parseValue : Cursor → Except Stop (Json × Cursor)) :
    Nat → Cursor → Except Stop (List (JString × Json) × Cursor)
  | 0, _ => .error .turns
  | n + 1, c => do
      let (member, c) ← parseMember parseValue c
      match c.rest with
      | [] => err c (lit "unterminated object")
      | u :: _ =>
          if u = 0x2C then do
            let (members, c) ← objectLoop parseValue n c.next
            .ok (member :: members, c)
          else if u = 0x7D then .ok ([member], c.next)
          else err c (lit "expected ',' or '\x7d'")

/-- `parseObject`, which first consumes the brace. -/
def parseObject (parseValue : Cursor → Except Stop (Json × Cursor)) (c : Cursor) :
    Except Stop (Json × Cursor) :=
  let d := skipWhitespace c.next
  if d.startsWith 0x7D then .ok (.obj [], d.next)
  else do
    let (members, d) ← objectLoop parseValue (c.next.rest.length + 1) d
    .ok (.obj members, d)

/-- `expectLiteral` and the value of the word. -/
def parseWord (c : Cursor) (word : String) (value : Json) : Except Stop (Json × Cursor) := do
  let c ← expectLiteral c word
  .ok (value, c)

/-- `parseValue`; arrays and objects nest at most `depth` deep on the stack. -/
def parseValue : Nat → Cursor → Except Stop (Json × Cursor)
  | depth, c =>
      match c.rest with
      | [] => err c (lit "unexpected end of input")
      | u :: _ =>
          if u = 0x7B then
            match depth with
            | 0 => .error .stackOverflow
            | inner + 1 => parseObject (parseValue inner) c
          else if u = 0x5B then
            match depth with
            | 0 => .error .stackOverflow
            | inner + 1 => parseArray (parseValue inner) c
          else if u = 0x22 then do
            let (s, c) ← parseString c
            .ok (.str s, c)
          else if u = 0x74 then parseWord c "true" (.bool true)
          else if u = 0x66 then parseWord c "false" (.bool false)
          else if u = 0x6E then parseWord c "null" .null
          else if u = 0x2D || isDigit u then parseNumber c
          else err c (lit "unexpected character '" ++ [u] ++ lit "'")

/-- `JsonParser.parse`. -/
def parse (depth : Nat) (s : JString) : Except Stop Json := do
  let (v, c) ← parseValue depth (skipWhitespace ⟨0, s⟩)
  let c := skipWhitespace c
  if c.rest ≠ [] then err c (lit "unexpected trailing data after JSON value") else .ok v

end SanDbOxFormal.Java.Codec.JsonParser
