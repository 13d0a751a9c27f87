import SanDbOxFormal.Go.Runtime
import SanDbOxFormal.Library.Failures
import SanDbOxFormal.Library.JsonSpelling

/-!
# JSON of the Go driver

What the driver uses of `encoding/json`: `Unmarshal` into the types of the source, and
`Marshal` of a `string`.  A `null` leaves most destinations as they are, so a fresh one
keeps its zero value; bytes that are not UTF-8 read and write as U+FFFD.
-/

namespace SanDbOxFormal.Go

open SanDbOxFormal.Library
open SanDbOxFormal.Library.JsonReader (Tree points)

/-! ## Runes -/

/-- The loop over `utf8.DecodeRune`, for so many bytes; a byte that starts no character
is by itself. -/
def runesFrom : Nat → List UInt8 → List (Option Char)
  | 0, _ => []
  | _, [] => []
  | n + 1, b :: rest =>
      match Utf8.firstChar? (b :: rest) with
      | some c => some c :: runesFrom n ((b :: rest).drop c.utf8Size)
      | none => none :: runesFrom n rest

def runes (bs : List UInt8) : List (Option Char) := runesFrom bs.length bs

/-- `utf8.RuneError`. -/
def runeError : Char := '\uFFFD'

/-- The code points that the bytes read as. -/
def codePoints (bs : List UInt8) : List Nat := points ((runes bs).map fun r => r.getD runeError)

theorem runesFrom_encode (cs : List Char) (n : Nat) (enough : (Utf8.encode cs).length ≤ n) :
    runesFrom n (Utf8.encode cs) = cs.map some := by
  induction cs generalizing n with
  | nil => cases n <;> rfl
  | cons c rest ih =>
      obtain ⟨lead, more, shape, _⟩ := Utf8.utf8EncodeChar_lead c
      have first := Utf8.firstChar?_encode c (Utf8.encode rest)
      have size : (lead :: more).length = c.utf8Size := by
        rw [← shape, String.length_utf8EncodeChar]
      rw [Utf8.encode_cons, List.length_append] at enough
      rw [Utf8.encode_cons]
      rw [shape] at first enough ⊢
      cases n with
      | zero => exact absurd enough (by simp)
      | succ n =>
          rw [List.cons_append] at first ⊢
          rw [runesFrom, first]
          dsimp only
          rw [← List.cons_append, ← size, List.drop_left, ih n]
          · rfl
          · rw [List.length_cons] at enough
            omega

theorem runes_encode (cs : List Char) : runes (Utf8.encode cs) = cs.map some :=
  runesFrom_encode cs _ (Nat.le_refl _)

theorem codePoints_encode (cs : List Char) : codePoints (Utf8.encode cs) = points cs := by
  rw [codePoints, runes_encode, List.map_map]
  exact congrArg points (List.map_id cs)

/-- The string that units denote; a lone surrogate becomes U+FFFD. -/
def text (units : List Nat) : GoString :=
  Utf8.encode (units.map fun u => if h : u.isValidChar then Char.ofNatAux u h else runeError)

/-! ## Unmarshal -/

/-- `maxNestingDepth`. -/
def maxNestingDepth : Nat := 10000

/-- The value that `json.Unmarshal` reads. -/
def parse (data : List UInt8) : Except GoError Tree :=
  match JsonReader.read JsonReader.strictPoints maxNestingDepth (codePoints data) with
  | .ok t => .ok t
  | .error _ => .error (.std .jsonSyntax)

/-- A `json.RawMessage`.  Its bytes are those of one value and every use reads them
again, so it is kept as the value that they read as. -/
abbrev RawMessage := JsonReader.Tree

/-- `var s string`. -/
def unmarshalString : RawMessage → Except GoError GoString
  | .null => .ok []
  | .string units => .ok (text units)
  | _ => .error (.std .jsonType)

/-- `var b bool`. -/
def unmarshalBool : RawMessage → Except GoError Bool
  | .null => .ok false
  | .bool b => .ok b
  | _ => .error (.std .jsonType)

/-- `var s []string`. -/
def unmarshalStrings : RawMessage → Except GoError (List GoString)
  | .null => .ok []
  | .array items => items.mapM unmarshalString
  | _ => .error (.std .jsonType)

/-- `var raws []json.RawMessage`. -/
def unmarshalRaws : RawMessage → Except GoError (List RawMessage)
  | .null => .ok []
  | .array items => .ok items
  | _ => .error (.std .jsonType)

/-- The characters of a token. -/
def chars (units : List Nat) : List Char := units.map Char.ofNat

/-- `isValidNumber`. -/
def isValidNumber (units : List Nat) : Bool :=
  match JsonReader.number units with
  | some (_, []) => true
  | _ => false

/-- `var num json.Number`: the text of a number, which may also be a string. -/
def unmarshalNumber : RawMessage → Except GoError (List Char)
  | .null => .ok []
  | .number raw => .ok (chars raw)
  | .string units => if isValidNumber units then .ok (chars units) else .error (.std .jsonNumber)
  | _ => .error (.std .jsonType)

/-- `map[string]json.RawMessage`, in the order of the members. -/
abbrev Fields := List (GoString × RawMessage)

/-- `var fields map[string]json.RawMessage`. -/
def unmarshalFields : RawMessage → Except GoError Fields
  | .null => .ok []
  | .object members => .ok (members.map fun m => (text m.1, m.2))
  | _ => .error (.std .jsonType)

/-- `fields[name]`: a later member replaces an earlier one. -/
def rawField (fields : Fields) (name : String) : Option RawMessage :=
  (fields.reverse.find? fun field => field.1 == lit name).map Prod.snd

/-- `foldRune`, of the runes that fold to ASCII. -/
def foldRune (r : Char) : Char :=
  if 'a' ≤ r ∧ r ≤ 'z' then Char.ofNat (r.toNat - 0x20)
  else if r = '\u017F' then 'S'
  else if r = '\u212A' then 'K'
  else r

/-- `foldName`. -/
def foldName (key : GoString) : List Char := (runes key).map fun r => foldRune (r.getD runeError)

/-- The field of a struct that a key is for, by its own name or by its letters. -/
def fieldNamed (names : List String) (key : GoString) : Option String :=
  match names.find? fun name => lit name == key with
  | some name => some name
  | none => names.find? fun name => foldName (lit name) == foldName key

/-- Reads a member into its field; one that is of no field is passed over. -/
def unmarshalMember {σ : Type} (names : List String)
    (assign : σ → String → RawMessage → Except GoError σ) (s : σ) (key : List Nat)
    (v : RawMessage) : Except GoError σ :=
  match fieldNamed names (text key) with
  | some name => assign s name v
  | none => .ok s

/-- Reads the members of an object into a struct, one after the other. -/
def unmarshalMembers {σ : Type} (names : List String)
    (assign : σ → String → RawMessage → Except GoError σ) :
    σ → List (List Nat × RawMessage) → Except GoError σ
  | s, [] => .ok s
  | s, (key, v) :: rest => do
      let s ← unmarshalMember names assign s key v
      unmarshalMembers names assign s rest

/-- `var s Struct`, from its zero value. -/
def unmarshalStruct {σ : Type} (names : List String)
    (assign : σ → String → RawMessage → Except GoError σ) (zero : σ) :
    RawMessage → Except GoError σ
  | .null => .ok zero
  | .object members => unmarshalMembers names assign zero members
  | _ => .error (.std .jsonType)

/-- A field that is a `string`. -/
def assignString (old : GoString) : RawMessage → Except GoError GoString
  | .null => .ok old
  | v => unmarshalString v

/-- A field that is an `int`. -/
def assignInt (old : Int64) : RawMessage → Except GoError Int64
  | .null => .ok old
  | .number raw => (parseInt (chars raw)).mapError fun _ => .std .jsonType
  | _ => .error (.std .jsonType)

/-! ## Marshal -/

def hexDigit (n : Nat) : Char := if n < 10 then Char.ofNat (0x30 + n) else Char.ofNat (0x57 + n)

/-- The escape `\u` of a unit. -/
def unicodeEscape (n : Nat) : List Char :=
  ['\\', 'u', hexDigit (n / 0x1000 % 0x10), hexDigit (n / 0x100 % 0x10), hexDigit (n / 0x10 % 0x10),
    hexDigit (n % 0x10)]

/-- What `json.Marshal` writes for one rune of a string. -/
def marshalRune : Option Char → List Char
  | none => unicodeEscape 0xFFFD
  | some c =>
      if c = '"' ∨ c = '\\' then ['\\', c]
      else if c = '\x08' then ['\\', 'b']
      else if c = '\x0C' then ['\\', 'f']
      else if c = '\n' then ['\\', 'n']
      else if c = '\r' then ['\\', 'r']
      else if c = '\t' then ['\\', 't']
      else if c.toNat < 0x20 ∨ c = '<' ∨ c = '>' ∨ c = '&' ∨ c = '\u2028' ∨ c = '\u2029' then
        unicodeEscape c.toNat
      else [c]

/-- `json.Marshal` of a `string`. -/
def marshalString (s : GoString) : List Char :=
  '"' :: ((runes s).flatMap marshalRune ++ ['"'])

end SanDbOxFormal.Go
