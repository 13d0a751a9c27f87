import SanDbOxFormal.Library.Failures
import SanDbOxFormal.Library.JsonReader
import SanDbOxFormal.Python.Runtime

/-!
# JSON of the Python driver

What `_codec.py` uses of the standard library: `json.loads` on bytes, which guesses an
encoding, and `repr`.  How deep the recursions of the interpreter go is a parameter,
and so are the texts that it makes up.
-/

namespace SanDbOxFormal.Python

open SanDbOxFormal.Library
open SanDbOxFormal.Library.JsonReader (Tree Fault Dialect)

/-- A value that `json.loads` can return; a `dict` has each key once. -/
inductive PyValue where
  | none
  | bool (b : Bool)
  | int (n : Int)
  /-- A `float`, kept as the token that it was read from. -/
  | float (token : PyStr)
  | str (s : PyStr)
  | list (items : List PyValue)
  | dict (items : List (PyStr × PyValue))

abbrev Dict := List (PyStr × PyValue)

/-- `d.get(key)`. -/
def lookup (d : Dict) (key : PyStr) : Option PyValue :=
  (d.find? fun item => item.1 == key).map Prod.snd

@[simp] theorem lookup_nil (k : PyStr) : lookup [] k = none := rfl

theorem lookup_cons (item : PyStr × PyValue) (d : Dict) (k : PyStr) :
    lookup (item :: d) k = if item.1 = k then some item.2 else lookup d k := by
  rw [lookup, List.find?_cons]
  by_cases same : item.1 = k
  · simp [same]
  · have other : (item.1 == k) = false := beq_eq_false_iff_ne.mpr same
    simp only [other, same, if_false]
    rfl

structure Runtime where
  /-- How many lists and dicts deep `json.loads` goes. -/
  loadsDepth : Nat
  /-- How many lists and dicts deep `repr` goes. -/
  reprDepth : Nat
  /-- How many digits `int` converts, if that is limited. -/
  intDigits : Option Nat
  /-- What `repr` prints. -/
  print : PyValue → PyStr
  /-- What is wrong with bytes that `json.loads` refuses. -/
  complaint : List UInt8 → PyStr
  /-- `binascii.a2b_base64`: the bytes, or what is wrong with the text. -/
  a2b : List UInt8 → Except PyStr (List UInt8)

def tooDeep : PyError := .recursionError (lit "maximum recursion depth exceeded")

/-! ## Encodings -/

inductive Encoding where
  | utf8
  | utf8Sig
  | utf16 (big : Bool)
  | utf32 (big : Bool)
  deriving DecidableEq

/-- What `json.detect_encoding` says of bytes without a byte order mark. -/
def guessEncoding : List UInt8 → Encoding
  | a :: b :: c :: d :: _ =>
      if a = 0 then (if b = 0 then .utf32 true else .utf16 true)
      else if b = 0 then (if c = 0 && d = 0 then .utf32 false else .utf16 false)
      else .utf8
  | [a, b] => if a = 0 then .utf16 true else if b = 0 then .utf16 false else .utf8
  | _ => .utf8

/-- `json.detect_encoding`, and the bytes behind a byte order mark. -/
def detectEncoding (bytes : List UInt8) : Encoding × List UInt8 :=
  if [0, 0, 0xFE, 0xFF].isPrefixOf bytes then (.utf32 true, bytes.drop 4)
  else if [0xFF, 0xFE, 0, 0].isPrefixOf bytes then (.utf32 false, bytes.drop 4)
  else if [0xFE, 0xFF].isPrefixOf bytes then (.utf16 true, bytes.drop 2)
  else if [0xFF, 0xFE].isPrefixOf bytes then (.utf16 false, bytes.drop 2)
  else if [0xEF, 0xBB, 0xBF].isPrefixOf bytes then (.utf8Sig, bytes.drop 3)
  else (guessEncoding bytes, bytes)

def isContinuation (b : UInt8) : Bool := 0x80 ≤ b && b ≤ 0xBF

/-- The code point of two, three and four bytes. -/
def two (a b : UInt8) : Nat := a.toNat % 0x20 * 0x40 + b.toNat % 0x40

def three (a b c : UInt8) : Nat :=
  (a.toNat % 0x10 * 0x40 + b.toNat % 0x40) * 0x40 + c.toNat % 0x40

def four (a b c d : UInt8) : Nat :=
  ((a.toNat % 0x08 * 0x40 + b.toNat % 0x40) * 0x40 + c.toNat % 0x40) * 0x40 + d.toNat % 0x40

/-- UTF-8 with the error handler `surrogatepass`. -/
def decodeUtf8 : List UInt8 → Option PyStr
  | [] => some []
  | a :: rest =>
      if a < 0x80 then (a.toNat :: ·) <$> decodeUtf8 rest
      else
        match rest with
        | [] => none
        | b :: rest =>
            if !isContinuation b then none
            else if 0xC2 ≤ a && a ≤ 0xDF then (two a b :: ·) <$> decodeUtf8 rest
            else
              match rest with
              | [] => none
              | c :: rest =>
                  if !isContinuation c then none
                  else if 0xE0 ≤ a && a ≤ 0xEF then
                    if a = 0xE0 && b < 0xA0 then none else (three a b c :: ·) <$> decodeUtf8 rest
                  else
                    match rest with
                    | [] => none
                    | d :: rest =>
                        if !isContinuation d || a < 0xF0 || 0xF4 < a || (a = 0xF0 && b < 0x90) ||
                            (a = 0xF4 && 0x8F < b) then none
                        else (four a b c d :: ·) <$> decodeUtf8 rest

/-- The 16-bit units of the bytes. -/
def units16 (big : Bool) : List UInt8 → Option (List Nat)
  | [] => some []
  | a :: b :: rest =>
      let u := if big then a.toNat * 0x100 + b.toNat else b.toNat * 0x100 + a.toNat
      (u :: ·) <$> units16 big rest
  | _ => none

/-- Joins the surrogate pairs of a text and passes the others. -/
def joinPairs : List Nat → PyStr
  | [] => []
  | [u] => [u]
  | u :: v :: rest =>
      if 0xD800 ≤ u && u ≤ 0xDBFF && 0xDC00 ≤ v && v ≤ 0xDFFF then
        JsonReader.joined u v :: joinPairs rest
      else u :: joinPairs (v :: rest)

def units32 (big : Bool) : List UInt8 → Option PyStr
  | [] => some []
  | a :: b :: c :: d :: rest =>
      let value (a b c d : UInt8) : Nat := ((a.toNat * 0x100 + b.toNat) * 0x100 + c.toNat) * 0x100 + d.toNat
      let cp := if big then value a b c d else value d c b a
      if 0x10FFFF < cp then none else (cp :: ·) <$> units32 big rest
  | _ => none

/-- `b.decode(detect_encoding(b), 'surrogatepass')`. -/
def decodeBytes (line : List UInt8) : Option PyStr :=
  match detectEncoding line with
  | (.utf8, bytes) => decodeUtf8 bytes
  | (.utf8Sig, bytes) => decodeUtf8 bytes
  | (.utf16 big, bytes) => joinPairs <$> units16 big bytes
  | (.utf32 big, bytes) => units32 big bytes

/-! ## json.loads -/

/-- The bareword constants of the decoder. -/
def constants : List (List Nat) := [lit "NaN", lit "Infinity", lit "-Infinity"]

/-- `/[.eE]/` in a number token makes it a `float`. -/
def isReal (token : PyStr) : Bool := token.any fun c => c = 0x2E || c = 0x65 || c = 0x45

/-- `int(token)` raises a `ValueError`. -/
def Runtime.refusesInt (rt : Runtime) (token : PyStr) : Bool :=
  match rt.intDigits with
  | some most => !isReal token && most < (token.filter JsonReader.isDigit).length
  | none => false

/-- `parse_constant` is `_reject_constant` or the default, which makes a `float`. -/
def Runtime.dialect (rt : Runtime) (reject : Bool) : Dialect where
  barewords := constants
  refuses := reject
  joins := true
  overflows := rt.refusesInt

def natOf (ds : PyStr) : Nat := ds.foldl (fun n c => n * 10 + (c - 0x30)) 0

def int : PyStr → Int
  | [] => 0
  | c :: ds => if c = 0x2D then -natOf ds else natOf (c :: ds)

/-- The number that a token with a fraction or an exponent denotes. -/
def decimal (token : PyStr) : ℚ :=
  let mantissa := token.takeWhile fun c => c ≠ 0x65 && c ≠ 0x45
  let whole := mantissa.takeWhile (· ≠ 0x2E)
  let fraction := (mantissa.drop whole.length).tail
  let exponent : Int := match (token.drop mantissa.length).tail with
    | [] => 0
    | c :: ds => if c = 0x2B then natOf ds else int (c :: ds)
  int (whole ++ fraction) * 10 ^ (exponent - fraction.length)

/-- `float(token) == 1`: the token lies between the middles of `1.0` and the doubles
beside it, at which the even `1.0` is taken. -/
def isOne (token : PyStr) : Bool :=
  isReal token && decide (1 - 1 / 2 ^ 54 ≤ decimal token ∧ decimal token ≤ 1 + 1 / 2 ^ 53)

/-- `d[key] = v`. -/
def Dict.set (d : Dict) (key : PyStr) (v : PyValue) : Dict :=
  if d.any (fun item => item.1 == key) then
    d.map fun item => if item.1 == key then (key, v) else item
  else d ++ [(key, v)]

theorem lookup_set (d : Dict) (key : PyStr) (v : PyValue) (k : PyStr) :
    lookup (d.set key v) k = if key = k then some v else lookup d k := by
  have appended (d : Dict) (missing : d.any (fun item => item.1 == key) = false) :
      lookup (d ++ [(key, v)]) k = if key = k then some v else lookup d k := by
    induction d with
    | nil => simp [lookup_cons]
    | cons item rest ih =>
        rw [List.any_cons, Bool.or_eq_false_iff, beq_eq_false_iff_ne] at missing
        rw [List.cons_append, lookup_cons, lookup_cons, ih missing.2]
        by_cases here : item.1 = k
        · rw [if_pos here, if_pos here, if_neg fun same => missing.1 (here.trans same.symm)]
        · rw [if_neg here, if_neg here]
  have replaced (d : Dict) : lookup (d.map fun item => if item.1 == key then (key, v) else item) k =
      if key = k then (lookup d k).map fun _ => v else lookup d k := by
    induction d with
    | nil => simp
    | cons item rest ih =>
        rw [List.map_cons, lookup_cons, lookup_cons, ih]
        by_cases here : item.1 = key
        · by_cases same : key = k <;> simp [here, same]
        · have other : (item.1 == key) = false := beq_eq_false_iff_ne.mpr here
          by_cases same : key = k
          · subst same
            simp [other, here]
          · simp [other, same]
  have found (d : Dict) (there : d.any (fun item => item.1 == key) = true) :
      ∃ w, lookup d key = some w := by
    obtain ⟨item, inside, same⟩ := List.any_eq_true.mp there
    cases outcome : d.find? fun item => item.1 == key with
    | some item => exact ⟨item.2, by rw [lookup, outcome]; rfl⟩
    | none => exact absurd same (List.find?_eq_none.mp outcome item inside)
  unfold Dict.set
  split
  · rename_i there
    rw [replaced]
    obtain ⟨w, here⟩ := found d there
    by_cases same : key = k
    · rw [if_pos same, if_pos same, ← same, here]
      rfl
    · rw [if_neg same, if_neg same]
  · rename_i missing
    exact appended d (Bool.eq_false_iff.mpr missing)

mutual

def value : Tree → PyValue
  | .null => .none
  | .bool b => .bool b
  | .number raw => if isReal raw then .float raw else .int (int raw)
  | .bareword name => .float name
  | .string s => .str s
  | .array items => .list (values items)
  | .object members => .dict (dict [] members)

def values : List Tree → List PyValue
  | [] => []
  | t :: rest => value t :: values rest

def dict (d : Dict) : List (List Nat × Tree) → Dict
  | [] => d
  | (key, t) :: rest => dict (d.set key (value t)) rest

end

/-- `_reject_constant`. -/
def rejectConstant (name : PyStr) : PyError :=
  .protocolError (lit "unexpected non-finite constant in response: " ++ name)

/-- `json.loads(line, parse_constant=...)`. -/
def loads (rt : Runtime) (reject : Bool) (line : List UInt8) : Except PyError PyValue :=
  match decodeBytes line with
  | none => .error (.valueError (rt.complaint line))
  | some text =>
      match JsonReader.read (rt.dialect reject) rt.loadsDepth text with
      | .ok tree => .ok (value tree)
      | .error .malformed => .error (.valueError (rt.complaint line))
      | .error .tooDeep => .error tooDeep
      | .error (.refused name) => .error (rejectConstant name)

/-- Reading the line runs out of stack. -/
def ReadsTooDeep (rt : Runtime) (reject : Bool) (line : List UInt8) : Prop :=
  ∃ text, decodeBytes line = some text ∧
    JsonReader.read (rt.dialect reject) rt.loadsDepth text = .error .tooDeep

/-- How `json.loads` ends. -/
inductive Loaded (rt : Runtime) (reject : Bool) (line : List UInt8) :
    Except PyError PyValue → Prop where
  | value (shallow : ¬ ReadsTooDeep rt reject line) (v : PyValue) : Loaded rt reject line (.ok v)
  | invalid (shallow : ¬ ReadsTooDeep rt reject line) (m : PyStr) :
      Loaded rt reject line (.error (.valueError m))
  | constant (shallow : ¬ ReadsTooDeep rt reject line) (m : PyStr) :
      Loaded rt reject line (.error (.protocolError m))
  | deep (deep : ReadsTooDeep rt reject line) : Loaded rt reject line (.error tooDeep)

theorem loads_loaded (rt : Runtime) (reject : Bool) (line : List UInt8) :
    Loaded rt reject line (loads rt reject line) := by
  unfold loads
  split
  · rename_i undecoded
    refine .invalid (fun deep => ?_) _
    obtain ⟨text, decoded, _⟩ := deep
    exact nomatch undecoded.symm.trans decoded
  · rename_i text decoded
    have shallow {outcome : Except Fault Tree}
        (read : JsonReader.read (rt.dialect reject) rt.loadsDepth text = outcome)
        (other : outcome ≠ .error .tooDeep) :
        ¬ ReadsTooDeep rt reject line := by
      rintro ⟨text', decoded', deep⟩
      cases decoded.symm.trans decoded'
      exact other (read.symm.trans deep)
    split
    · rename_i tree read
      exact .value (shallow read nofun) _
    · rename_i read
      exact .invalid (shallow read nofun) _
    · rename_i read
      exact .deep ⟨text, decoded, read⟩
    · rename_i name read
      exact .constant (shallow read nofun) _

/-! ## repr -/

mutual

/-- Lists and dicts nest at most so deep in the value. -/
def fits : Nat → PyValue → Bool
  | 0, .list _ => false
  | 0, .dict _ => false
  | n + 1, .list items => fitsAll n items
  | n + 1, .dict items => fitsItems n items
  | _, _ => true

def fitsAll : Nat → List PyValue → Bool
  | _, [] => true
  | n, v :: rest => fits n v && fitsAll n rest

def fitsItems : Nat → List (PyStr × PyValue) → Bool
  | _, [] => true
  | n, (_, v) :: rest => fits n v && fitsItems n rest

end

/-- `repr(v)`. -/
def repr (rt : Runtime) (v : PyValue) : Except PyError PyStr :=
  if fits rt.reprDepth v then .ok (rt.print v) else .error tooDeep

/-- `str(v)`: a string stands for itself. -/
def str (rt : Runtime) : PyValue → Except PyError PyStr
  | .str s => .ok s
  | v => repr rt v

end SanDbOxFormal.Python
