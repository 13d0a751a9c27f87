import SanDbOxFormal.Library.Failures
import SanDbOxFormal.Library.JsonReader
import SanDbOxFormal.Library.Utf16
import SanDbOxFormal.Library.Utf8
import SanDbOxFormal.TypeScript.Runtime

/-!
# JSON of the TypeScript driver

What `codec.ts` uses of the runtime and its own number policy: a fatal `TextDecoder`,
`JSON.parse` with a reviver that sees the source of every number, and
`JSON.stringify`.  How deep the runtime's recursions go before the stack overflows is
a parameter, and so are the texts that it makes up.
-/

namespace SanDbOxFormal.TypeScript

open SanDbOxFormal.Library
open SanDbOxFormal.Library.JsonReader (Tree)

/-- A value that `parseJsonPreservingNumbers` can return; the members of an object are
in property order, each key once. -/
inductive JsValue where
  | null
  | bool (b : Bool)
  | bigint (n : Int)
  /-- A `number`, kept as the token that it was read from. -/
  | number (token : JsString)
  | string (s : JsString)
  | array (items : List JsValue)
  | object (members : List (JsString × JsValue))

abbrev Fields := List (JsString × JsValue)

/-- `fields[key]`, if there is such a property. -/
def property (fields : Fields) (key : JsString) : Option JsValue :=
  (fields.find? fun member => member.1 == key).map Prod.snd

/-- What the runtime has room for and what it makes up: how many arrays and objects deep the walk
of a reviver and `JSON.stringify` go, how many turns of a group a `RegExp` keeps on its stack, what
`JSON.stringify` prints, and what is wrong with a text that is not JSON. -/
structure Runtime where
  reviveDepth : Nat
  stringifyDepth : Nat
  regExpGroups : Nat
  print : JsValue → JsString
  complaint : JsString → JsString

def stackOverflow : JsError := .rangeError (lit "Maximum call stack size exceeded")

/-! ## TextDecoder -/

/-- `new TextDecoder("utf-8", { fatal: true }).decode(line)`: a byte order mark is
dropped. -/
def decodeText (line : List UInt8) : Except JsError JsString :=
  match Utf8.decode? line with
  | some s =>
      let text := Utf16.encode s.toList
      .ok (if text.head? = some 0xFEFF then text.tail else text)
  | none => .error (.typeError (lit "The encoded data was not valid for encoding utf-8"))

/-! ## JSON.parse -/

/-- The number of an array index, which comes before the other properties. -/
def arrayIndex? (key : JsString) : Option Nat :=
  if key = [0x30] then some 0
  else if key = [] ∨ key.head? = some 0x30 ∨ ¬ key.all (fun u => JsonReader.isDigit u.toNat) then none
  else
    let n := key.foldl (fun n u => n * 10 + (u.toNat - 0x30)) 0
    if n < 2 ^ 32 - 1 then some n else none

/-- A property is created behind the others, or its value is replaced. -/
def Fields.set (fields : Fields) (key : JsString) (v : JsValue) : Fields :=
  if fields.any (fun member => member.1 == key) then
    fields.map fun member => if member.1 == key then (key, v) else member
  else fields ++ [(key, v)]

/-- Array indices in ascending order, then the other keys as they were created. -/
def Fields.ordered (fields : Fields) : Fields :=
  (fields.filter fun member => (arrayIndex? member.1).isSome).insertionSort
      (fun a b => (arrayIndex? a.1).getD 0 ≤ (arrayIndex? b.1).getD 0) ++
    fields.filter fun member => (arrayIndex? member.1).isNone

def string (units : List Nat) : JsString := units.map UInt16.ofNat

mutual

/-- What `JSON.parse` makes of a text before the reviver walks over it; a number is
still its token. -/
def construct : Tree → JsValue
  | .null => .null
  | .bool b => .bool b
  | .number raw => .number (string raw)
  | .bareword name => .string (string name)
  | .string units => .string (string units)
  | .array items => .array (constructItems items)
  | .object members => .object (constructMembers [] members).ordered

def constructItems : List Tree → List JsValue
  | [] => []
  | t :: rest => construct t :: constructItems rest

def constructMembers (fields : Fields) : List (List Nat × Tree) → Fields
  | [] => fields
  | (key, t) :: rest => constructMembers (fields.set (string key) (construct t)) rest

end

/-- `/[.eE]/`. -/
def isReal (token : JsString) : Bool := token.any fun u => u = 0x2E || u = 0x65 || u = 0x45

/-- `BigInt(token)`. -/
def bigInt (token : JsString) : Int :=
  let magnitude (ds : JsString) : Nat := ds.foldl (fun n u => n * 10 + (u.toNat - 0x30)) 0
  match token with
  | [] => 0
  | u :: ds => if u = 0x2D then -magnitude ds else magnitude (u :: ds)

def valueNumberPolicy (token : JsString) : Except JsError JsValue :=
  if isReal token then .ok (.number token)
  else if bigInt token < -2 ^ 63 ∨ bigInt token > 2 ^ 63 - 1 then
    .error (.protocol (lit "integer value out of int64 range in response: " ++ token))
  else .ok (.bigint (bigInt token))

mutual

/-- The walk of the reviver, children first. -/
def revive : Nat → JsValue → Except JsError JsValue
  | _, .null => .ok .null
  | _, .bool b => .ok (.bool b)
  | _, .bigint n => .ok (.bigint n)
  | _, .number token => valueNumberPolicy token
  | _, .string s => .ok (.string s)
  | 0, .array _ => .error stackOverflow
  | 0, .object _ => .error stackOverflow
  | n + 1, .array items => return .array (← reviveItems n items)
  | n + 1, .object members => return .object (← reviveMembers n members)

def reviveItems : Nat → List JsValue → Except JsError (List JsValue)
  | _, [] => .ok []
  | n, v :: rest => do
      let v ← revive n v
      let rest ← reviveItems n rest
      .ok (v :: rest)

def reviveMembers : Nat → List (JsString × JsValue) → Except JsError (List (JsString × JsValue))
  | _, [] => .ok []
  | n, (key, v) :: rest => do
      let v ← revive n v
      let rest ← reviveMembers n rest
      .ok ((key, v) :: rest)

end

/-- `parseJsonPreservingNumbers`: the whole text is parsed before the walk starts. -/
def parseJsonPreservingNumbers (rt : Runtime) (text : JsString) : Except JsError JsValue :=
  match JsonReader.read JsonReader.strictUnits text.length (text.map UInt16.toNat) with
  | .ok tree => revive rt.reviveDepth (construct tree)
  | .error _ => .error (.syntaxError (rt.complaint text))

/-! ## JSON.stringify -/

mutual

/-- The recursion of `JSON.stringify` on a value: it fails at a bigint and where the
stack overflows. -/
def serialize : Nat → JsValue → Except JsError Unit
  | _, .null => .ok ()
  | _, .bool _ => .ok ()
  | _, .bigint _ => .error (.typeError (lit "Do not know how to serialize a BigInt"))
  | _, .number _ => .ok ()
  | _, .string _ => .ok ()
  | 0, .array _ => .error stackOverflow
  | 0, .object _ => .error stackOverflow
  | n + 1, .array items => serializeItems n items
  | n + 1, .object members => serializeMembers n members

def serializeItems : Nat → List JsValue → Except JsError Unit
  | _, [] => .ok ()
  | n, v :: rest => do
      serialize n v
      serializeItems n rest

def serializeMembers : Nat → List (JsString × JsValue) → Except JsError Unit
  | _, [] => .ok ()
  | n, (_, v) :: rest => do
      serialize n v
      serializeMembers n rest

end

def stringify (rt : Runtime) (v : JsValue) : Except JsError JsString := do
  serialize rt.stringifyDepth v
  .ok (rt.print v)

/-! ## What can be printed -/

/-- No integer stands anywhere in the value, and arrays and objects nest at most so
deep. -/
inductive Printable : Nat → JsValue → Prop where
  | null {n : Nat} : Printable n .null
  | bool {n : Nat} {b : Bool} : Printable n (.bool b)
  | number {n : Nat} {token : JsString} : Printable n (.number token)
  | string {n : Nat} {s : JsString} : Printable n (.string s)
  | array {n : Nat} {items : List JsValue} (all : ∀ v ∈ items, Printable n v) :
      Printable (n + 1) (.array items)
  | object {n : Nat} {members : List (JsString × JsValue)}
      (all : ∀ member ∈ members, Printable n member.2) : Printable (n + 1) (.object members)

mutual

theorem serialize_ok_iff : ∀ (n : Nat) (v : JsValue), serialize n v = .ok () ↔ Printable n v
  | n, .null => by simp [serialize, Printable.null]
  | n, .bool b => by simp [serialize, Printable.bool]
  | n, .bigint i => by
      simp only [serialize, reduceCtorEq, false_iff]
      intro printable
      cases printable
  | n, .number token => by simp [serialize, Printable.number]
  | n, .string s => by simp [serialize, Printable.string]
  | 0, .array items => by
      simp only [serialize, reduceCtorEq, false_iff]
      intro printable
      cases printable
  | 0, .object members => by
      simp only [serialize, reduceCtorEq, false_iff]
      intro printable
      cases printable
  | n + 1, .array items => by
      rw [serialize, serializeItems_ok_iff n items]
      constructor
      · exact .array
      · intro printable
        cases printable with
        | array all => exact all
  | n + 1, .object members => by
      rw [serialize, serializeMembers_ok_iff n members]
      constructor
      · exact .object
      · intro printable
        cases printable with
        | object all => exact all

theorem serializeItems_ok_iff : ∀ (n : Nat) (items : List JsValue),
    serializeItems n items = .ok () ↔ ∀ v ∈ items, Printable n v
  | n, [] => by simp [serializeItems]
  | n, v :: rest => by
      rw [serializeItems, bind_ok_iff, List.forall_mem_cons, ← serialize_ok_iff n v,
        ← serializeItems_ok_iff n rest]
      exact ⟨fun ⟨_, first, more⟩ => ⟨first, more⟩, fun ⟨first, more⟩ => ⟨(), first, more⟩⟩

theorem serializeMembers_ok_iff : ∀ (n : Nat) (members : List (JsString × JsValue)),
    serializeMembers n members = .ok () ↔ ∀ member ∈ members, Printable n member.2
  | n, [] => by simp [serializeMembers]
  | n, (key, v) :: rest => by
      rw [serializeMembers, bind_ok_iff, List.forall_mem_cons, ← serialize_ok_iff n v,
        ← serializeMembers_ok_iff n rest]
      exact ⟨fun ⟨_, first, more⟩ => ⟨first, more⟩, fun ⟨first, more⟩ => ⟨(), first, more⟩⟩

end

/-- What `JSON.stringify` throws is none of the driver's errors. -/
def Foreign (e : JsError) : Prop := e.isSanDBox = false

mutual

theorem serialize_foreign : ∀ (n : Nat) (v : JsValue), Throws Foreign (serialize n v)
  | _, .null => by
      rw [serialize]
      exact Throws.ok ()
  | _, .bool _ => by
      rw [serialize]
      exact Throws.ok ()
  | _, .bigint _ => by
      rw [serialize]
      exact Throws.error rfl
  | _, .number _ => by
      rw [serialize]
      exact Throws.ok ()
  | _, .string _ => by
      rw [serialize]
      exact Throws.ok ()
  | 0, .array _ => by
      rw [serialize]
      exact Throws.error rfl
  | 0, .object _ => by
      rw [serialize]
      exact Throws.error rfl
  | n + 1, .array items => by
      rw [serialize]
      exact serializeItems_foreign n items
  | n + 1, .object members => by
      rw [serialize]
      exact serializeMembers_foreign n members

theorem serializeItems_foreign : ∀ (n : Nat) (items : List JsValue),
    Throws Foreign (serializeItems n items)
  | _, [] => by
      rw [serializeItems]
      exact Throws.ok ()
  | n, v :: rest => by
      rw [serializeItems]
      exact (serialize_foreign n v).bind fun _ _ => serializeItems_foreign n rest

theorem serializeMembers_foreign : ∀ (n : Nat) (members : List (JsString × JsValue)),
    Throws Foreign (serializeMembers n members)
  | _, [] => by
      rw [serializeMembers]
      exact Throws.ok ()
  | n, (_, v) :: rest => by
      rw [serializeMembers]
      exact (serialize_foreign n v).bind fun _ _ => serializeMembers_foreign n rest

end

end SanDbOxFormal.TypeScript
