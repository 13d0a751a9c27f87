import SanDbOxFormal.Go.Request
import SanDbOxFormal.Java.Bytes
import SanDbOxFormal.Java.Codec.Request
import SanDbOxFormal.Rust.Request
import SanDbOxFormal.TypeScript.ValueRoundTrip

/-!
# Requests of four drivers

What an operation puts on the wire, as members with values, and what the objects that the
drivers hand to their serializers denote.  The drivers differ only in which texts and flags
count as absent.
-/

namespace SanDbOxFormal.Protocol

open SanDbOxFormal.Library
open SanDbOxFormal.Library.JsonReader (Tree points)
open SanDbOxFormal.Library.Rfc8259 (Number)

/-! ## Operations and their objects -/

/-- A parameter; a REAL is carried by its bits. -/
inductive Param where
  | null
  | integer (n : Int64)
  | real (bits : UInt64)
  | text (s : String)
  | blob (b : List UInt8)
  deriving DecidableEq

/-- An operation and its arguments; an optional one may not be given. -/
inductive Operation where
  | query (sql : String) (params : List Param)
  | exec (sql : String) (params : List Param)
  | snapshot (filename : Option String) (sqlite timestamp : Option Bool)
  | load (path : String)
  | inspect
  | tables
  | schema (table : Option String)
  | dump (pattern : Option String)
  | overwrite
  | close
  deriving DecidableEq

/-- A parameter on the wire. -/
inductive WireCell where
  | null
  | integer (n : Int)
  | real (bits : UInt64)
  | text (cs : List Char)
  | blob (b : List UInt8)
  deriving DecidableEq

inductive WireMember where
  | text (cs : List Char)
  | flag (b : Bool)
  | cells (cs : List WireCell)
  deriving DecidableEq

abbrev WireObject := List (String × WireMember)

/-- Which members a driver leaves out. -/
structure Rules where
  /-- It sends an empty text that the operation needs. -/
  emptyRequired : Bool
  /-- It sends an empty text that the operation does not need. -/
  emptyOptional : Bool
  /-- It sends a flag that is given as false. -/
  falseFlag : Bool

def textMember (sendsEmpty : Bool) (key : String) : Option String → WireObject
  | none => []
  | some s => if s = "" ∧ !sendsEmpty then [] else [(key, .text s.toList)]

def flagMember (sendsFalse : Bool) (key : String) : Option Bool → WireObject
  | none => []
  | some on => if on || sendsFalse then [(key, .flag on)] else []

def Param.cell : Param → WireCell
  | .null => .null
  | .integer n => .integer n.toInt
  | .real bits => .real bits
  | .text s => .text s.toList
  | .blob b => .blob b

def paramsMember (params : List Param) : WireObject :=
  if params.isEmpty then [] else [("params", .cells (params.map Param.cell))]

def opMember (op : String) : WireObject := [("op", .text op.toList)]

/-- What a driver with these rules puts on the wire. -/
def Operation.object (r : Rules) : Operation → WireObject
  | .query sql params =>
      opMember "query" ++ textMember r.emptyRequired "sql" (some sql) ++ paramsMember params
  | .exec sql params =>
      opMember "exec" ++ textMember r.emptyRequired "sql" (some sql) ++ paramsMember params
  | .snapshot filename sqlite timestamp =>
      opMember "snapshot" ++ textMember r.emptyOptional "filename" filename ++
        flagMember r.falseFlag "sqlite" sqlite ++ flagMember r.falseFlag "timestamp" timestamp
  | .load path => opMember "load" ++ textMember r.emptyRequired "path" (some path)
  | .inspect => opMember "inspect"
  | .tables => opMember "tables"
  | .schema table => opMember "schema" ++ textMember r.emptyOptional "table" table
  | .dump pattern => opMember "dump" ++ textMember r.emptyOptional "pattern" pattern
  | .overwrite => opMember "overwrite"
  | .close => opMember "close"

def Rules.rust : Rules := ⟨true, true, false⟩
def Rules.typeScript : Rules := ⟨true, false, false⟩
def Rules.go : Rules := ⟨false, false, false⟩
def Rules.java : Rules := ⟨true, true, true⟩

/-- A REAL parameter is finite. -/
def Param.Finite : Param → Prop
  | .real bits => bits.toNat / 2 ^ 52 % 2 ^ 11 ≠ 2 ^ 11 - 1
  | _ => True

/-- Every REAL parameter is finite. -/
def Operation.Finite : Operation → Prop
  | .query _ params | .exec _ params => ∀ p ∈ params, p.Finite
  | _ => True

/-- No text that is given is empty, and no flag is given as false. -/
def Operation.Plain : Operation → Prop
  | .query sql _ | .exec sql _ => sql ≠ ""
  | .snapshot filename sqlite timestamp =>
      filename ≠ some "" ∧ sqlite ≠ some false ∧ timestamp ≠ some false
  | .load path => path ≠ ""
  | .schema table => table ≠ some ""
  | .dump pattern => pattern ≠ some ""
  | _ => True

/-! ## What the objects of the drivers denote -/

variable (nearest : List Char → UInt64)

/-- What a number token denotes. -/
def tokenCell? (token : List Char) : Option WireCell :=
  if token.any Decimal.isRealMark then some (.real (nearest token))
  else (Decimal.parseInt? token).map .integer

def blobCell? (cs : List Char) : Option WireCell := (Base64.decode? (points cs)).map .blob

def rustCell? : Rfc8259.Json → Option WireCell
  | .null => some .null
  | .number token => tokenCell? nearest token.raw.toList
  | .string s => some (.text s.toList)
  | .array [.string s] => blobCell? s.toList
  | _ => none

def rustMember? : Rfc8259.Json → Option WireMember
  | .string s => some (.text s.toList)
  | .bool b => some (.flag b)
  | .array items => (items.mapM (rustCell? nearest)).map .cells
  | _ => none

def typeScriptCell? : TypeScript.Outgoing → Option WireCell
  | .null => some .null
  | .raw token => tokenCell? nearest token
  | .string s => some (.text (Utf16.characters s))
  | .array [.string s] => blobCell? (Utf16.characters s)
  | _ => none

def typeScriptMember? : TypeScript.Outgoing → Option WireMember
  | .string s => some (.text (Utf16.characters s))
  | .bool b => some (.flag b)
  | .array items => (items.mapM (typeScriptCell? nearest)).map .cells
  | _ => none

/-- A parameter of the Go driver is a text, which is read. -/
def goCell? (raw : List Char) : Option WireCell :=
  match Go.parse (Utf8.encode raw) with
  | .ok .null => some .null
  | .ok (.number token) => tokenCell? nearest (Go.chars token)
  | .ok (.string us) => some (.text (Go.chars us))
  | .ok (.array [.string us]) => blobCell? (Go.chars us)
  | _ => none

def goMember? : Go.Request.Member → Option WireMember
  | .string s => (Utf8.decode? s).map fun t => .text t.toList
  | .bool b => some (.flag b)
  | .raws items => (items.mapM (goCell? nearest)).map .cells

/-- The text that the bytes of a Java string denote. -/
def javaText? (s : Java.JString) : Option (List Char) :=
  (Utf8.decode? (Java.getBytes s)).map String.toList

def javaCell? : Java.Codec.Json → Option WireCell
  | .null => some .null
  | .num raw => (javaText? raw).bind (tokenCell? nearest)
  | .str s => (javaText? s).map .text
  | .arr [.str s] => (javaText? s).bind blobCell?
  | _ => none

def javaMember? : Java.Codec.Json → Option WireMember
  | .str s => (javaText? s).map .text
  | .bool b => some (.flag b)
  | .arr items => (items.mapM (javaCell? nearest)).map .cells
  | _ => none

/-! ## The operations in each language -/

def rustParam : Param → Rust.Value
  | .null => .null
  | .integer n => .integer n
  | .real bits => .real ⟨bits⟩
  | .text s => .text s
  | .blob b => .blob b

def rustRequest : Operation → Rust.Request
  | .query sql params => .query sql (params.map rustParam)
  | .exec sql params => .exec sql (params.map rustParam)
  | .snapshot filename sqlite timestamp =>
      .snapshot ⟨filename, sqlite.getD false, timestamp.getD false⟩
  | .load path => .load path
  | .inspect => .inspect
  | .tables => .tables
  | .schema table => .schema table
  | .dump pattern => .dump pattern
  | .overwrite => .overwrite
  | .close => .close

/-- A text as a string of UTF-16 units. -/
def unitsOf (s : String) : List UInt16 := Utf16.encode s.toList

def typeScriptParam : Param → TypeScript.ParamValue
  | .null => .null
  | .integer n => .bigint n.toInt
  | .real bits => .number ⟨bits⟩
  | .text s => .string (unitsOf s)
  | .blob b => .bytes b

def typeScriptRequest : Operation → TypeScript.Request
  | .query sql params => .query (unitsOf sql) (params.map typeScriptParam)
  | .exec sql params => .exec (unitsOf sql) (params.map typeScriptParam)
  | .snapshot filename sqlite timestamp => .snapshot ⟨filename.map unitsOf, sqlite, timestamp⟩
  | .load path => .load (unitsOf path)
  | .inspect => .inspect
  | .tables => .tables
  | .schema table => .schema (table.map unitsOf)
  | .dump pattern => .dump (pattern.map unitsOf)
  | .overwrite => .overwrite
  | .close => .close

def goParam : Param → Go.Any
  | .null => .nil
  | .integer n => .int64 n
  | .real bits => .float64 ⟨bits⟩
  | .text s => .string (Utf8.bytes s)
  | .blob b => .bytes (some b)

/-- The empty table or pattern stands for none. -/
def goCall : Operation → Go.Call
  | .query sql params => .query (Utf8.bytes sql) (params.map goParam)
  | .exec sql params => .exec (Utf8.bytes sql) (params.map goParam)
  | .snapshot filename sqlite timestamp =>
      .snapshot ⟨filename.map Utf8.bytes, sqlite, timestamp⟩
  | .load path => .load (Utf8.bytes path)
  | .inspect => .inspect
  | .tables => .tables
  | .schema table => .schema ((table.map Utf8.bytes).getD [])
  | .dump pattern => .dump ((pattern.map Utf8.bytes).getD [])
  | .overwrite => .overwrite
  | .close => .close

def javaParam : Param → Java.Codec.Param
  | .null => .null
  | .integer n => .long n
  | .real bits => .double ⟨bits⟩
  | .text s => .string (unitsOf s)
  | .blob b => .bytes b

def javaRequest : Operation → Java.Codec.Request
  | .query sql params => .query (some (unitsOf sql)) (params.map javaParam)
  | .exec sql params => .exec (some (unitsOf sql)) (params.map javaParam)
  | .snapshot filename sqlite timestamp =>
      .snapshot (some ⟨filename.map unitsOf, sqlite, timestamp⟩)
  | .load path => .load (some (unitsOf path))
  | .inspect => .inspect
  | .tables => .tables
  | .schema table => .schema (table.map unitsOf)
  | .dump pattern => .dump (pattern.map unitsOf)
  | .overwrite => .overwrite
  | .close => .close

/-- What a runtime shows for a double: a numeral that rounds back to it, also with `.0`
behind it where it shows neither a point nor an exponent. -/
def Shows (cs : List Char) (bits : UInt64) : Prop :=
  Number cs ∧ (cs.any Decimal.isRealMark = true → nearest cs = bits) ∧
    (cs.any Decimal.isRealMark = false → nearest (cs ++ ['.', '0']) = bits)

/-- The runtimes print finite doubles so that they round back; what the JDK prints has a
point, and its Base64 is the standard one. -/
structure Prints (debug : Rust.FloatText) (numbers : TypeScript.NumberText) (strconv : Go.Strconv)
    (jdk : Java.Codec.Jdk) : Prop where
  rust : ∀ f : Rust.F64, f.isFinite = true → Shows nearest (debug.debug f).toList f.bits
  typeScript : ∀ v : TypeScript.Double, v.isFinite = true → v ≠ .minusZero →
    Shows nearest (numbers.toText v) v.bits
  minusZero : nearest ['-', '0', '.', '0'] = 0x8000000000000000
  go : ∀ f : Go.Float64, f.isFinite = true → Shows nearest (strconv.formatFloat f) f.bits
  java : ∀ d : Java.Codec.Double, d.isFinite = true → ∃ cs, Number cs ∧ '.' ∈ cs ∧
    jdk.doubleToString d = Utf16.encode cs ∧ nearest cs = d.bits
  base64 : ∀ b, jdk.base64 b = Utf16.encode ((Base64.encode b).map Char.ofNat)

end SanDbOxFormal.Protocol
