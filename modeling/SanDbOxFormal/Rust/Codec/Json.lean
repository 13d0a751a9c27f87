import SanDbOxFormal.Library.Rfc8259
import SanDbOxFormal.Library.Utf8

/-!
# The hand-written JSON parser and writer

The tree, the writer and the recursive-descent parser of `codec/json.rs`.  The
parser walks byte positions of a string already known to be UTF-8.  A failed
slice, `expect` or checked sum is a panic and is kept apart from a parse error;
the loops and the mutual recursion carry fuel.
-/

namespace SanDbOxFormal.Rust.Codec.Json

open SanDbOxFormal.Library
open SanDbOxFormal.Library.Rfc8259 (Json NumberToken)

/-! ## Accessors -/

def str (s : String) : Json := .string s

def asObject? : Json → Option (List (String × Json))
  | .object pairs => some pairs
  | _ => none

/-- The first member with the key, found by linear scan. -/
def get? (v : Json) (key : String) : Option Json :=
  (asObject? v).bind fun pairs => (pairs.find? (fun pair => pair.1 == key)).map Prod.snd

def asStr? : Json → Option String
  | .string s => some s
  | _ => none

def asBool? : Json → Option Bool
  | .bool b => some b
  | _ => none

def asArray? : Json → Option (List Json)
  | .array items => some items
  | _ => none

def asNumber? : Json → Option NumberToken
  | .number n => some n
  | _ => none

def isNull : Json → Bool
  | .null => true
  | _ => false

/-! ## Writer -/

def hexDigit (n : Nat) : Char := Nat.digitChar n

/-- `format!("{n:04x}")` for `n` below `0x10000`. -/
def hex4 (n : Nat) : String :=
  String.ofList [hexDigit (n / 0x1000 % 16), hexDigit (n / 0x100 % 16), hexDigit (n / 16 % 16),
    hexDigit (n % 16)]

def writeChar (c : Char) (out : String) : String :=
  if c = '"' then out ++ "\\\""
  else if c = '\\' then out ++ "\\\\"
  else if c = '\x08' then out ++ "\\b"
  else if c = '\x0c' then out ++ "\\f"
  else if c = '\n' then out ++ "\\n"
  else if c = '\r' then out ++ "\\r"
  else if c = '\t' then out ++ "\\t"
  else if c.toNat < 0x20 then out ++ "\\u" ++ hex4 c.toNat
  else out.push c

def writeString (s : String) (out : String) : String :=
  (s.toList.foldl (fun out c => writeChar c out) (out.push '"')).push '"'

mutual

def writeValue : Json → String → String
  | .null, out => out ++ "null"
  | .bool true, out => out ++ "true"
  | .bool false, out => out ++ "false"
  | .number n, out => out ++ n.raw
  | .string s, out => writeString s out
  | .array items, out => (writeItems 0 items (out.push '[')).push ']'
  | .object pairs, out => (writePairs 0 pairs (out.push '{')).push '}'

def writeItems : Nat → List Json → String → String
  | _, [], out => out
  | i, item :: rest, out =>
      let out := if i > 0 then out.push ',' else out
      writeItems (i + 1) rest (writeValue item out)

def writePairs : Nat → List (String × Json) → String → String
  | _, [], out => out
  | i, (k, v) :: rest, out =>
      let out := if i > 0 then out.push ',' else out
      writePairs (i + 1) rest (writeValue v ((writeString k out).push ':'))

end

def write (value : Json) : String := writeValue value ""

/-! ## Parser -/

/-- `JsonError(String)`. -/
structure JsonError where
  text : String
  deriving DecidableEq, Repr

/-- Why a parser function did not return a value. -/
inductive Stop where
  | err (e : JsonError)
  | panic (reason : String)
  | fuel
  deriving DecidableEq, Repr

/-- The error of a stop that is known to be one. -/
def Stop.report : (stop : Stop) → (∃ e, stop = .err e) → JsonError
  | .err e, _ => e
  | .panic _, is => False.elim (by obtain ⟨_, same⟩ := is; cases same)
  | .fuel, is => False.elim (by obtain ⟨_, same⟩ := is; cases same)

structure Parser where
  s : String
  pos : Nat

namespace Parser

/-- `self.b`, the bytes of `self.s`. -/
def b (p : Parser) : List UInt8 := Utf8.bytes p.s

def new (s : String) : Parser := ⟨s, 0⟩

def err {α : Type} (p : Parser) (msg : String) : Except Stop α :=
  .error (.err ⟨msg ++ " (at byte offset " ++ toString p.pos ++ ")"⟩)

def peekByte (p : Parser) : Option UInt8 := p.b[p.pos]?

/-- `self.pos += 1`. -/
def next (p : Parser) : Parser := { p with pos := p.pos + 1 }

def bumpByte (p : Parser) : Option UInt8 × Parser :=
  match p.peekByte with
  | some byte => (some byte, p.next)
  | none => (none, p)

/-- `{:?}` of a character below U+0100. -/
def debugChar (n : Nat) : String :=
  let inner :=
    if n = 0 then "\\0"
    else if n = 9 then "\\t"
    else if n = 10 then "\\n"
    else if n = 13 then "\\r"
    else if n = 39 then "\\'"
    else if n = 92 then "\\\\"
    else if n < 32 || (127 ≤ n && n ≤ 160) || n = 173 then
      "\\u\x7b" ++ String.ofList (Nat.toDigits 16 n) ++ "\x7d"
    else String.singleton (Char.ofNat n)
  "'" ++ inner ++ "'"

def expectByte (p : Parser) (want : UInt8) : Except Stop Parser :=
  match p.bumpByte with
  | (some byte, q) =>
      if byte = want then .ok q else q.err ("expected " ++ debugChar want.toNat)
  | (none, q) => q.err ("expected " ++ debugChar want.toNat)

def remaining (p : Parser) : Nat := p.b.length - p.pos

/-- `while matches!(self.peek_byte(), Some(..)) { self.pos += 1 }`, at most `n` times. -/
def advanceWhile (matching : UInt8 → Bool) : Nat → Parser → Parser
  | 0, p => p
  | n + 1, p =>
      match p.peekByte with
      | some byte =>
          if matching byte then advanceWhile matching n p.next else p
      | none => p

def isWsByte (byte : UInt8) : Bool :=
  byte = 0x20 || byte = 0x09 || byte = 0x0A || byte = 0x0D

def isDigitByte (byte : UInt8) : Bool := 0x30 ≤ byte && byte ≤ 0x39

def skipWs (p : Parser) : Parser := advanceWhile isWsByte p.remaining p

def skipDigits (p : Parser) : Parser := advanceWhile isDigitByte p.remaining p

/-- `str::is_char_boundary`. -/
def isCharBoundary (p : Parser) (i : Nat) : Bool :=
  match p.b[i]? with
  | some byte => !Utf8.isContinuation byte
  | none => i = p.b.length

/-- `&self.s[self.pos..]`, which panics off a character boundary. -/
def sliceFrom (p : Parser) : Except Stop (List UInt8) :=
  if p.isCharBoundary p.pos then .ok (p.b.drop p.pos)
  else .error (.panic "byte index is not a char boundary")

/-- `self.s[start..self.pos].to_string()`. -/
def sliceStr (p : Parser) (start : Nat) : Except Stop String :=
  if p.isCharBoundary start && p.isCharBoundary p.pos && start ≤ p.pos then
    match Utf8.decode? ((p.b.drop start).take (p.pos - start)) with
    | some s => .ok s
    | none => .error (.panic "byte index is not a char boundary")
  else .error (.panic "byte index is not a char boundary")

def parseLiteral (p : Parser) (lit : String) (val : Json) : Except Stop (Json × Parser) := do
  let rest ← p.sliceFrom
  if (Utf8.bytes lit).isPrefixOf rest then
    .ok (val, { p with pos := p.pos + (Utf8.bytes lit).length })
  else p.err ("invalid literal, expected \"" ++ lit ++ "\"")

/-- The optional sign that `parse_number` starts with. -/
def skipMinus (p : Parser) : Parser :=
  if p.peekByte = some 0x2D then p.next else p

/-- The integer digits of `parse_number`. -/
def parseInt (p : Parser) : Except Stop Parser :=
  match p.peekByte with
  | some byte =>
      if byte = 0x30 then .ok p.next
      else if isDigitByte byte then .ok p.skipDigits
      else p.err "invalid number: expected a digit"
  | none => p.err "invalid number: expected a digit"

/-- The optional fraction of `parse_number`. -/
def parseFrac (p : Parser) : Except Stop Parser :=
  if p.peekByte = some 0x2E then
    let q := p.next.skipDigits
    if q.pos = p.next.pos then q.err "invalid number: expected a digit after '.'" else .ok q
  else .ok p

/-- The optional sign of an exponent. -/
def skipExpSign (p : Parser) : Parser :=
  if p.peekByte = some 0x2B ∨ p.peekByte = some 0x2D then p.next else p

/-- The optional exponent of `parse_number`. -/
def parseExp (p : Parser) : Except Stop Parser :=
  if p.peekByte = some 0x65 ∨ p.peekByte = some 0x45 then
    let q := p.next.skipExpSign
    let r := q.skipDigits
    if r.pos = q.pos then r.err "invalid number: expected a digit in the exponent" else .ok r
  else .ok p

def parseNumber (p : Parser) : Except Stop (NumberToken × Parser) := do
  let q ← p.skipMinus.parseInt
  let q ← q.parseFrac
  let q ← q.parseExp
  let raw ← q.sliceStr p.pos
  .ok (⟨raw⟩, q)

def hexDigit? (byte : UInt8) : Option Nat :=
  if 0x30 ≤ byte && byte ≤ 0x39 then some (byte.toNat - 0x30)
  else if 0x61 ≤ byte && byte ≤ 0x66 then some (byte.toNat - 0x61 + 10)
  else if 0x41 ≤ byte && byte ≤ 0x46 then some (byte.toNat - 0x41 + 10)
  else none

/-- The `for _ in 0..4` loop of `parse_hex4`; `v` is a checked `u16`. -/
def parseHexLoop : Nat → Parser → Nat → Except Stop (Nat × Parser)
  | 0, p, v => .ok (v, p)
  | n + 1, p, v =>
      match p.bumpByte with
      | (none, q) => q.err "unexpected end of \\u escape"
      | (some byte, q) =>
          match hexDigit? byte with
          | none => q.err "invalid hex digit in \\u escape"
          | some digit =>
              if v * 16 + digit < 0x10000 then parseHexLoop n q (v * 16 + digit)
              else .error (.panic "attempt to add with overflow")

def parseHex4 (p : Parser) : Except Stop (Nat × Parser) := parseHexLoop 4 p 0

/-- `char::from_u32`. -/
def charFromU32? (n : Nat) : Option Char :=
  if n < 0xD800 ∨ (0xDFFF < n ∧ n < 0x110000) then some (Char.ofNat n) else none

/-- The end of a surrogate pair, `high` and `low` read. -/
def pushPair (high low : Nat) (p : Parser) (out : String) : Except Stop (String × Parser) :=
  if 0xDC00 ≤ low ∧ low ≤ 0xDFFF then
    match charFromU32? (0x10000 + (high - 0xD800) * 0x400 + (low - 0xDC00)) with
    | some c => .ok (out.push c, p)
    | none => p.err "invalid surrogate pair"
  else p.err "invalid low surrogate in \\u escape pair"

/-- The `u` arm of `parse_escape`, the first four digits read. -/
def pushUnit (cp : Nat) (p : Parser) (out : String) : Except Stop (String × Parser) :=
  if 0xD800 ≤ cp ∧ cp ≤ 0xDBFF then
    match p.bumpByte with
    | (some 0x5C, q) =>
        match q.bumpByte with
        | (some 0x75, r) => do
            let low ← r.parseHex4
            pushPair cp low.1 low.2 out
        | (_, r) => r.err "unpaired UTF-16 surrogate"
    | (_, q) => q.err "unpaired UTF-16 surrogate"
  else if 0xDC00 ≤ cp ∧ cp ≤ 0xDFFF then p.err "unpaired UTF-16 surrogate"
  else
    match charFromU32? cp with
    | some c => .ok (out.push c, p)
    | none => p.err "invalid \\u escape"

def parseUnicode (p : Parser) (out : String) : Except Stop (String × Parser) := do
  let cp ← p.parseHex4
  pushUnit cp.1 cp.2 out

def parseEscape (p : Parser) (out : String) : Except Stop (String × Parser) :=
  match p.bumpByte with
  | (some 0x22, q) => .ok (out.push '"', q)
  | (some 0x5C, q) => .ok (out.push '\\', q)
  | (some 0x2F, q) => .ok (out.push '/', q)
  | (some 0x62, q) => .ok (out.push '\x08', q)
  | (some 0x66, q) => .ok (out.push '\x0c', q)
  | (some 0x6E, q) => .ok (out.push '\n', q)
  | (some 0x72, q) => .ok (out.push '\r', q)
  | (some 0x74, q) => .ok (out.push '\t', q)
  | (some 0x75, q) => q.parseUnicode out
  | (_, q) => q.err "invalid escape sequence"

/-- The loop of `parse_string`, after the opening quote. -/
def parseStringLoop : Nat → Parser → String → Except Stop (String × Parser)
  | 0, _, _ => .error .fuel
  | n + 1, p, out =>
      match p.bumpByte with
      | (none, q) => q.err "unterminated string"
      | (some byte, q) =>
          if byte = 0x22 then .ok (out, q)
          else if byte = 0x5C then do
            let (out, q) ← q.parseEscape out
            parseStringLoop n q out
          else if byte < 0x20 then q.err "unescaped control character in string"
          else if byte < 0x80 then parseStringLoop n q (out.push (Char.ofNat byte.toNat))
          else do
            -- A multi-byte character: back up to its lead byte and decode it whole.
            let q := { q with pos := q.pos - 1 }
            let rest ← q.sliceFrom
            match Utf8.firstChar? rest with
            | some ch => parseStringLoop n { q with pos := q.pos + ch.utf8Size } (out.push ch)
            | none => .error (.panic "byte >= 0x80 starts a valid UTF-8 char in a validated &str")

def parseString (p : Parser) : Except Stop (String × Parser) := do
  let q ← p.expectByte 0x22
  parseStringLoop (q.remaining + 1) q ""

mutual

def parseValue : Nat → Parser → Except Stop (Json × Parser)
  | 0, _ => .error .fuel
  | n + 1, p =>
      let p := p.skipWs
      match p.peekByte with
      | some byte =>
          if byte = 0x7B then parseObject n p
          else if byte = 0x5B then parseArray n p
          else if byte = 0x22 then do
            let (s, q) ← p.parseString
            .ok (.string s, q)
          else if byte = 0x74 then p.parseLiteral "true" (.bool true)
          else if byte = 0x66 then p.parseLiteral "false" (.bool false)
          else if byte = 0x6E then p.parseLiteral "null" .null
          else if byte = 0x2D || isDigitByte byte then do
            let (token, q) ← p.parseNumber
            .ok (.number token, q)
          else p.err ("unexpected character " ++ debugChar byte.toNat)
      | none => p.err "unexpected end of input"

def parseArray : Nat → Parser → Except Stop (Json × Parser)
  | 0, _ => .error .fuel
  | n + 1, p => do
      let p ← p.expectByte 0x5B
      let p := p.skipWs
      if p.peekByte = some 0x5D then .ok (.array [], p.next)
      else parseItems n p []

/-- The loop of `parse_array`. -/
def parseItems : Nat → Parser → List Json → Except Stop (Json × Parser)
  | 0, _, _ => .error .fuel
  | n + 1, p, items => do
      let (v, p) ← parseValue n p
      let items := items ++ [v]
      let p := p.skipWs
      match p.bumpByte with
      | (some 0x2C, q) => parseItems n q.skipWs items
      | (some 0x5D, q) => .ok (.array items, q)
      | (_, q) => q.err "expected ',' or ']' in array"

def parseObject : Nat → Parser → Except Stop (Json × Parser)
  | 0, _ => .error .fuel
  | n + 1, p => do
      let p ← p.expectByte 0x7B
      let p := p.skipWs
      if p.peekByte = some 0x7D then .ok (.object [], p.next)
      else parsePairs n p []

/-- The loop of `parse_object`. -/
def parsePairs : Nat → Parser → List (String × Json) → Except Stop (Json × Parser)
  | 0, _, _ => .error .fuel
  | n + 1, p, pairs => do
      let p := p.skipWs
      if p.peekByte ≠ some 0x22 then p.err "expected a string key in object"
      else do
        let (key, p) ← p.parseString
        let p := p.skipWs
        let p ← p.expectByte 0x3A
        let p := p.skipWs
        let (val, p) ← parseValue n p
        let pairs := pairs ++ [(key, val)]
        let p := p.skipWs
        match p.bumpByte with
        | (some 0x2C, q) => parsePairs n q.skipWs pairs
        | (some 0x7D, q) => .ok (.object pairs, q)
        | (_, q) => q.err "expected ',' or '\x7d' in object"

end

end Parser

/-- Fuel for `n` bytes: an opening bracket costs three calls, a turn of a loop
one, and each of them leaves at least one byte behind. -/
def parseFuel (n : Nat) : Nat := 3 * n + 3

/-- `parse`: exactly one value in the bytes, which must be UTF-8. -/
def parse (input : List UInt8) : Except Stop Json :=
  match Utf8.decode? input with
  | none => .error (.err ⟨"invalid UTF-8: " ++ Utf8.errorText input⟩)
  | some s => do
      let p := Parser.new s
      let p := p.skipWs
      let (v, p) ← p.parseValue (parseFuel p.b.length)
      let p := p.skipWs
      if p.pos ≠ p.b.length then p.err "trailing data after JSON value" else .ok v

end SanDbOxFormal.Rust.Codec.Json
