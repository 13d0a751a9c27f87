import Mathlib

/-!
# Reading JSON text

RFC 8259 as a reader over code units, which may be the UTF-16 units or the code
points of a text.  Readers in use differ in the barewords they know, in what a pair
of surrogate escapes denotes, and in how deep they nest before they give up.
-/

namespace SanDbOxFormal.Library.JsonReader

/-- The units of a text of the source. -/
def units (s : String) : List Nat := s.toList.map Char.toNat

inductive Tree where
  | null
  | bool (b : Bool)
  /-- A number, kept as its token. -/
  | number (raw : List Nat)
  /-- A bareword that is not JSON, such as `NaN`. -/
  | bareword (name : List Nat)
  | string (units : List Nat)
  | array (items : List Tree)
  | object (members : List (List Nat × Tree))

inductive Fault where
  | malformed
  /-- Arrays and objects nest deeper than the reader goes. -/
  | tooDeep
  /-- A bareword that the reader knows and refuses. -/
  | refused (name : List Nat)
  deriving DecidableEq

structure Dialect where
  barewords : List (List Nat)
  refuses : Bool
  /-- A pair of surrogate escapes denotes one code point. -/
  joins : Bool
  /-- A number token that the reader fails to convert. -/
  overflows : List Nat → Bool

/-- JSON over UTF-16 units. -/
def strictUnits : Dialect := ⟨[], false, false, fun _ => false⟩

/-- JSON over code points. -/
def strictPoints : Dialect := ⟨[], false, true, fun _ => false⟩

/-! ## Tokens -/

def isWs (c : Nat) : Bool := c = 0x20 || c = 0x09 || c = 0x0A || c = 0x0D

def skipWs (cs : List Nat) : List Nat := cs.dropWhile isWs

def isDigit (c : Nat) : Bool := 0x30 ≤ c && c ≤ 0x39

def hexValue? (c : Nat) : Option Nat :=
  if 0x30 ≤ c && c ≤ 0x39 then some (c - 0x30)
  else if 0x61 ≤ c && c ≤ 0x66 then some (c - 0x61 + 10)
  else if 0x41 ≤ c && c ≤ 0x46 then some (c - 0x41 + 10)
  else none

/-- The value of four hexadecimal digits. -/
def hex4? (a b c d : Nat) : Option Nat := do
  let a ← hexValue? a
  let b ← hexValue? b
  let c ← hexValue? c
  let d ← hexValue? d
  some (((a * 16 + b) * 16 + c) * 16 + d)

def simpleEscape? (c : Nat) : Option Nat :=
  if c = 0x22 || c = 0x5C || c = 0x2F then some c
  else if c = 0x62 then some 0x08
  else if c = 0x66 then some 0x0C
  else if c = 0x6E then some 0x0A
  else if c = 0x72 then some 0x0D
  else if c = 0x74 then some 0x09
  else none

/-- A low surrogate escape that follows a high one, and the text behind it. -/
def lowEscape? : List Nat → Option (Nat × List Nat)
  | 0x5C :: 0x75 :: a :: b :: c :: d :: rest =>
      match hex4? a b c d with
      | some low => if 0xDC00 ≤ low && low ≤ 0xDFFF then some (low, rest) else none
      | none => none
  | _ => none

/-- The code point of a surrogate pair. -/
def joined (high low : Nat) : Nat := 0x10000 + (high - 0xD800) * 0x400 + (low - 0xDC00)

/-- Puts a unit in front of what a string still holds. -/
def prepend (c : Nat) : Except Fault (List Nat × List Nat) → Except Fault (List Nat × List Nat)
  | .ok (cs, rest) => .ok (c :: cs, rest)
  | .error e => .error e

/-- The body of a string up to its closing quote; the number bounds its length. -/
def body (d : Dialect) : Nat → List Nat → Except Fault (List Nat × List Nat)
  | 0, _ => .error .malformed
  | _ + 1, [] => .error .malformed
  | n + 1, c :: rest =>
      if c = 0x22 then .ok ([], rest)
      else if c = 0x5C then
        match rest with
        | [] => .error .malformed
        | e :: rest =>
            if e = 0x75 then
              match rest with
              | h₁ :: h₂ :: h₃ :: h₄ :: rest =>
                  match hex4? h₁ h₂ h₃ h₄ with
                  | none => .error .malformed
                  | some u =>
                      if d.joins && 0xD800 ≤ u && u ≤ 0xDBFF then
                        match lowEscape? rest with
                        | some (low, rest) => prepend (joined u low) (body d n rest)
                        | none => prepend u (body d n rest)
                      else prepend u (body d n rest)
              | _ => .error .malformed
            else
              match simpleEscape? e with
              | some u => prepend u (body d n rest)
              | none => .error .malformed
      else if c < 0x20 then .error .malformed
      else prepend c (body d n rest)

/-- A string behind its opening quote. -/
def string (d : Dialect) (cs : List Nat) : Except Fault (List Nat × List Nat) :=
  body d (cs.length + 1) cs

/-- The digits that a text starts with, and what is behind them. -/
def digits (cs : List Nat) : List Nat × List Nat := (cs.takeWhile isDigit, cs.dropWhile isDigit)

/-- `int`: a zero that stands alone, or digits. -/
def intPart : List Nat → Option (List Nat × List Nat)
  | [] => none
  | c :: rest =>
      if !isDigit c then none else if c = 0x30 then some ([c], rest) else some (digits (c :: rest))

/-- Digits behind a mark, at least one. -/
def someDigits (mark : List Nat) (cs : List Nat) : Option (List Nat × List Nat) :=
  match digits cs with
  | ([], _) => none
  | (ds, rest) => some (mark ++ ds, rest)

/-- `[ frac ]`. -/
def fracPart : List Nat → Option (List Nat × List Nat)
  | [] => some ([], [])
  | c :: rest => if c = 0x2E then someDigits [c] rest else some ([], c :: rest)

/-- `[ exp ]`. -/
def expPart : List Nat → Option (List Nat × List Nat)
  | [] => some ([], [])
  | c :: rest =>
      if c = 0x65 || c = 0x45 then
        match rest with
        | [] => none
        | s :: tail =>
            if s = 0x2B || s = 0x2D then someDigits [c, s] tail else someDigits [c] rest
      else some ([], c :: rest)

/-- `number = [ minus ] int [ frac ] [ exp ]`. -/
def number (cs : List Nat) : Option (List Nat × List Nat) := do
  let (sign, cs) := match cs with
    | [] => ([], [])
    | c :: rest => if c = 0x2D then ([c], rest) else ([], c :: rest)
  let (int, cs) ← intPart cs
  let (frac, cs) ← fracPart cs
  let (exp, cs) ← expPart cs
  some (sign ++ (int ++ (frac ++ exp)), cs)

/-- What is behind a word that a text starts with. -/
def after? (word cs : List Nat) : Option (List Nat) :=
  if word.isPrefixOf cs then some (cs.drop word.length) else none

/-- A bareword of the dialect. -/
def bareword? (d : Dialect) (cs : List Nat) : Option (List Nat × List Nat) :=
  d.barewords.findSome? fun name => (after? name cs).map fun rest => (name, rest)

/-- A value that is no array and no object. -/
def scalar (d : Dialect) (cs : List Nat) : Except Fault (Tree × List Nat) :=
  match bareword? d cs with
  | some (name, rest) =>
      if d.refuses then .error (.refused name) else .ok (.bareword name, rest)
  | none =>
      match after? (units "true") cs, after? (units "false") cs, after? (units "null") cs with
      | some rest, _, _ => .ok (.bool true, rest)
      | _, some rest, _ => .ok (.bool false, rest)
      | _, _, some rest => .ok (.null, rest)
      | none, none, none =>
          match number cs with
          | some (raw, rest) => if d.overflows raw then .error .malformed else .ok (.number raw, rest)
          | none => .error .malformed

/-! ## Values -/

/-- The rest of an array whose first value comes next; the number bounds how many
values it holds. -/
def elements (value : List Nat → Except Fault (Tree × List Nat)) :
    Nat → List Nat → Except Fault (List Tree × List Nat)
  | 0, _ => .error .malformed
  | n + 1, cs => do
      let (v, cs) ← value (skipWs cs)
      match skipWs cs with
      | [] => .error .malformed
      | c :: rest =>
          if c = 0x2C then do
            let (vs, rest) ← elements value n rest
            .ok (v :: vs, rest)
          else if c = 0x5D then .ok ([v], rest)
          else .error .malformed

/-- The rest of an object whose first key comes next. -/
def members (d : Dialect) (value : List Nat → Except Fault (Tree × List Nat)) :
    Nat → List Nat → Except Fault (List (List Nat × Tree) × List Nat)
  | 0, _ => .error .malformed
  | n + 1, cs =>
      match skipWs cs with
      | [] => .error .malformed
      | c :: rest =>
          if c = 0x22 then do
            let (key, cs) ← string d rest
            match skipWs cs with
            | [] => .error .malformed
            | c :: rest =>
                if c = 0x3A then do
                  let (v, cs) ← value (skipWs rest)
                  match skipWs cs with
                  | [] => .error .malformed
                  | c :: rest =>
                      if c = 0x2C then do
                        let (more, rest) ← members d value n rest
                        .ok ((key, v) :: more, rest)
                      else if c = 0x7D then .ok ([(key, v)], rest)
                      else .error .malformed
                else .error .malformed
          else .error .malformed

/-- An array behind its bracket. -/
def array (value : List Nat → Except Fault (Tree × List Nat)) (cs : List Nat) :
    Except Fault (Tree × List Nat) :=
  match skipWs cs with
  | [] => .error .malformed
  | c :: rest =>
      if c = 0x5D then .ok (.array [], rest)
      else do
        let (vs, rest) ← elements value (cs.length + 1) cs
        .ok (.array vs, rest)

/-- An object behind its brace. -/
def object (d : Dialect) (value : List Nat → Except Fault (Tree × List Nat)) (cs : List Nat) :
    Except Fault (Tree × List Nat) :=
  match skipWs cs with
  | [] => .error .malformed
  | c :: rest =>
      if c = 0x7D then .ok (.object [], rest)
      else do
        let (ms, rest) ← members d value (cs.length + 1) cs
        .ok (.object ms, rest)

/-- A value with no space in front; the number bounds how deep it nests. -/
def value (d : Dialect) : Nat → List Nat → Except Fault (Tree × List Nat)
  | _, [] => .error .malformed
  | depth, c :: rest =>
      if c = 0x22 then do
        let (s, rest) ← string d rest
        .ok (.string s, rest)
      else if c = 0x5B then
        match depth with
        | 0 => .error .tooDeep
        | inner + 1 => array (value d inner) rest
      else if c = 0x7B then
        match depth with
        | 0 => .error .tooDeep
        | inner + 1 => object d (value d inner) rest
      else scalar d (c :: rest)

/-- One value with spaces around it. -/
def read (d : Dialect) (depth : Nat) (text : List Nat) : Except Fault Tree := do
  let (v, rest) ← value d depth (skipWs text)
  if skipWs rest = [] then .ok v else .error .malformed

end SanDbOxFormal.Library.JsonReader
