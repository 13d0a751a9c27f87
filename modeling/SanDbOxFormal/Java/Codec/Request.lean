import SanDbOxFormal.Java.Text

/-!
# Requests of the Java driver

`internal/codec`: the JSON tree, `JsonWriter`, `Encode` and `RequestBuilder`, and the
requests that `Session` builds with them.  What the JDK prints for a `double` and
encodes in Base64 is a parameter.
-/

namespace SanDbOxFormal.Java.Codec

structure Double where
  bits : UInt64
  deriving DecidableEq

/-- `Double.isFinite`: the exponent bits are not all ones. -/
def Double.isFinite (d : Double) : Bool := d.bits.toNat / 2 ^ 52 % 2 ^ 11 ≠ 2 ^ 11 - 1

/-- `Double.toString` and `Base64.getEncoder().encodeToString`. -/
structure Jdk where
  doubleToString : Double → JString
  base64 : List UInt8 → JString

/-- Neither of them prints a newline. -/
structure Jdk.Lawful (jdk : Jdk) : Prop where
  double : ∀ d, newlineUnit ∉ jdk.doubleToString d
  base64 : ∀ bytes, newlineUnit ∉ jdk.base64 bytes

inductive Json where
  | null
  | bool (value : Bool)
  | num (raw : JString)
  | str (value : JString)
  | arr (items : List Json)
  | obj (members : List (JString × Json))

/-! ## JsonWriter -/

def hexUnit (n : Nat) : UInt16 := UInt16.ofNat (if n < 10 then 0x30 + n else 0x57 + n)

/-- `String.format("\\u%04x", (int) c)`. -/
def unicodeEscape (c : UInt16) : JString :=
  lit "\\u" ++ [hexUnit (c.toNat / 0x1000), hexUnit (c.toNat / 0x100 % 0x10),
    hexUnit (c.toNat / 0x10 % 0x10), hexUnit (c.toNat % 0x10)]

def writeUnit (c : UInt16) : JString :=
  if c = 0x22 then lit "\\\""
  else if c = 0x5C then lit "\\\\"
  else if c = 0x0A then lit "\\n"
  else if c = 0x0D then lit "\\r"
  else if c = 0x09 then lit "\\t"
  else if c = 0x08 then lit "\\b"
  else if c = 0x0C then lit "\\f"
  else if c < 0x20 then unicodeEscape c
  else [c]

def writeString (s : JString) : JString := lit "\"" ++ s.flatMap writeUnit ++ lit "\""

mutual

def writeValue : Json → JString
  | .null => lit "null"
  | .bool b => lit (if b then "true" else "false")
  | .num raw => raw
  | .str s => writeString s
  | .arr items => lit "[" ++ writeItems true items ++ lit "]"
  | .obj members => lit "\x7b" ++ writeMembers true members ++ lit "\x7d"

/-- The items of an array, the first without a comma before it. -/
def writeItems : Bool → List Json → JString
  | _, [] => []
  | first, item :: rest =>
      (if first then [] else lit ",") ++ writeValue item ++ writeItems false rest

def writeMembers : Bool → List (JString × Json) → JString
  | _, [] => []
  | first, (key, value) :: rest =>
      (if first then [] else lit ",") ++ writeString key ++ lit ":" ++ writeValue value ++
        writeMembers false rest

end

/-! ## Encode -/

/-- A parameter: a boxed value, or an object of a class that is not supported. -/
inductive Param where
  | null
  | long (v : Int64)
  | integer (v : Int32)
  | double (v : Double)
  | string (v : JString)
  | bytes (v : List UInt8)
  | other (className : JString)

def realToken (jdk : Jdk) (v : Double) : JString :=
  let s := jdk.doubleToString v
  if s.contains 0x2E || s.contains 0x45 then s else s ++ lit ".0"

/-- One parameter, or the message of a `CodecException`. -/
def encodeValue (jdk : Jdk) : Param → Except JString Json
  | .null => .ok .null
  | .long v => .ok (.num (lit (toString v.toInt)))
  | .integer v => .ok (.num (lit (toString v.toInt)))
  | .double v =>
      if !v.isFinite then
        .error (lit "REAL param must be finite (san-db-ox rejects NaN/Inf in params): " ++
          jdk.doubleToString v)
      else .ok (.num (realToken jdk v))
  | .string s => .ok (.str s)
  | .bytes b => .ok (.arr [.str (jdk.base64 b)])
  | .other className =>
      .error (lit "unsupported param type " ++ className ++
        lit " (want null, Long, Double, String, or byte[])")

/-- The loop of `encodeParams`, from index `i` on. -/
def encodeItems (jdk : Jdk) : Nat → List Param → Except JString (List Json)
  | _, [] => .ok []
  | i, v :: rest => do
      let item ← (encodeValue jdk v).mapError fun e =>
        lit "params[" ++ lit (toString i) ++ lit "]: " ++ e
      let items ← encodeItems jdk (i + 1) rest
      .ok (item :: items)

def encodeParams (jdk : Jdk) (params : List Param) : Except JString (Option Json) :=
  if params.isEmpty then .ok none
  else do
    let items ← encodeItems jdk 0 params
    .ok (some (.arr items))

/-! ## RequestBuilder -/

/-- `field(key, value)`; a null value is left out. -/
def field (key : String) (value : Option Json) : List (JString × Json) :=
  (value.map fun v => (lit key, v)).toList

/-- The finished request line. -/
def build (members : List (JString × Json)) : List UInt8 :=
  getBytes (writeValue (.obj members) ++ lit "\n")

structure SnapshotOptions where
  filename : Option JString
  sqlite : Option Bool
  timestamp : Option Bool

/-- The operations; a reference that may be null is an option. -/
inductive Request where
  | query (sql : Option JString) (params : List Param)
  | exec (sql : Option JString) (params : List Param)
  | snapshot (opts : Option SnapshotOptions)
  | load (path : Option JString)
  | inspect
  | tables
  | schema (table : Option JString)
  | dump (pattern : Option JString)
  | overwrite
  | close

def opMember (op : String) : JString × Json := (lit "op", .str (lit op))

def sqlMembers (jdk : Jdk) (op : String) (sql : Option JString) (params : List Param) :
    Except JString (List (JString × Json)) := do
  let p ← encodeParams jdk params
  .ok ([opMember op] ++ field "sql" (sql.map .str) ++ field "params" p)

/-- The suppliers that `Session` passes to `call`. -/
def Request.members (jdk : Jdk) : Request → Except JString (List (JString × Json))
  | .query sql params => sqlMembers jdk "query" sql params
  | .exec sql params => sqlMembers jdk "exec" sql params
  | .snapshot none => .ok [opMember "snapshot"]
  | .snapshot (some opts) =>
      .ok ([opMember "snapshot"] ++ field "filename" (opts.filename.map .str) ++
        field "sqlite" (opts.sqlite.map .bool) ++ field "timestamp" (opts.timestamp.map .bool))
  | .load path => .ok ([opMember "load"] ++ field "path" (path.map .str))
  | .inspect => .ok [opMember "inspect"]
  | .tables => .ok [opMember "tables"]
  | .schema table => .ok ([opMember "schema"] ++ field "table" (table.map .str))
  | .dump pattern => .ok ([opMember "dump"] ++ field "pattern" (pattern.map .str))
  | .overwrite => .ok [opMember "overwrite"]
  | .close => .ok [opMember "close"]

/-- `builderSupplier.get().build()`. -/
def Request.line (jdk : Jdk) (request : Request) : Except JString (List UInt8) :=
  build <$> request.members jdk

/-! ## One newline, at the end -/

/-- A tree whose number tokens hold no newline. -/
inductive Clean : Json → Prop where
  | null : Clean .null
  | bool (b : Bool) : Clean (.bool b)
  | num {raw : JString} (clean : newlineUnit ∉ raw) : Clean (.num raw)
  | str (s : JString) : Clean (.str s)
  | arr {items : List Json} (each : ∀ item ∈ items, Clean item) : Clean (.arr items)
  | obj {members : List (JString × Json)} (each : ∀ m ∈ members, Clean m.2) : Clean (.obj members)

theorem hexUnit_ne_newline {n : Nat} (small : n < 16) : hexUnit n ≠ newlineUnit := by
  revert n
  decide

theorem writeUnit_clean (c : UInt16) : newlineUnit ∉ writeUnit c := by
  unfold writeUnit
  split
  · decide
  · split
    · decide
    · split
      · decide
      · rename_i other
        split
        · decide
        · split
          · decide
          · split
            · decide
            · split
              · decide
              · split
                · have digit {n : Nat} (small : n < 16) := (hexUnit_ne_newline small).symm
                  have range := c.toNat_lt
                  intro inside
                  simp only [unicodeEscape, List.mem_append, List.mem_cons, List.not_mem_nil,
                    or_false] at inside
                  rcases inside with prefix_ | same | same | same | same
                  · exact absurd prefix_ (by decide)
                  · exact digit (by omega) same
                  · exact digit (by omega) same
                  · exact digit (by omega) same
                  · exact digit (by omega) same
                · intro inside
                  exact other (List.mem_singleton.mp inside).symm

theorem writeString_clean (s : JString) : newlineUnit ∉ writeString s := by
  rw [writeString, List.mem_append, List.mem_append, not_or, not_or]
  refine ⟨⟨by decide, fun inside => ?_⟩, by decide⟩
  obtain ⟨c, _, written⟩ := List.mem_flatMap.mp inside
  exact writeUnit_clean c written

theorem not_mem_append {a b : JString} (first : newlineUnit ∉ a) (second : newlineUnit ∉ b) :
    newlineUnit ∉ a ++ b := by
  rw [List.mem_append, not_or]
  exact ⟨first, second⟩

theorem comma_clean (first : Bool) : newlineUnit ∉ (if first then [] else lit ",") := by
  cases first with
  | true => exact List.not_mem_nil
  | false => decide

theorem writeItems_clean {items : List Json} (first : Bool)
    (each : ∀ item ∈ items, newlineUnit ∉ writeValue item) :
    newlineUnit ∉ writeItems first items := by
  induction items generalizing first with
  | nil => exact List.not_mem_nil
  | cons item rest ih =>
      rw [writeItems]
      exact not_mem_append (not_mem_append (comma_clean first) (each item List.mem_cons_self))
        (ih false fun other inside => each other (List.mem_cons_of_mem _ inside))

theorem writeMembers_clean {members : List (JString × Json)} (first : Bool)
    (each : ∀ m ∈ members, newlineUnit ∉ writeValue m.2) :
    newlineUnit ∉ writeMembers first members := by
  induction members generalizing first with
  | nil => exact List.not_mem_nil
  | cons member rest ih =>
      rw [writeMembers]
      exact not_mem_append (not_mem_append (not_mem_append (not_mem_append (comma_clean first)
        (writeString_clean member.1)) (by decide)) (each member List.mem_cons_self))
        (ih false fun other inside => each other (List.mem_cons_of_mem _ inside))

/-- `JsonWriter` writes no raw newline. -/
theorem writeValue_clean {j : Json} (clean : Clean j) : newlineUnit ∉ writeValue j := by
  induction clean with
  | null =>
      rw [writeValue]
      decide
  | bool b =>
      rw [writeValue]
      cases b with
      | true => decide
      | false => decide
  | num clean =>
      rw [writeValue]
      exact clean
  | str s =>
      rw [writeValue]
      exact writeString_clean s
  | arr _ ih =>
      rw [writeValue]
      exact not_mem_append (not_mem_append (by decide) (writeItems_clean true ih)) (by decide)
  | obj _ ih =>
      rw [writeValue]
      exact not_mem_append (not_mem_append (by decide) (writeMembers_clean true ih)) (by decide)

theorem digit_ne_newline {c : Char} (digit : Library.Rfc8259.isDigit c = true) :
    UInt16.ofNat c.toNat ≠ newlineUnit := by
  rw [Library.Rfc8259.isDigit, Bool.and_eq_true, decide_eq_true_eq, decide_eq_true_eq] at digit
  obtain ⟨low, high⟩ := digit
  have above : 0x30 ≤ c.toNat := low
  have below : c.toNat ≤ 0x39 := high
  intro same
  have value := congrArg UInt16.toNat same
  rw [UInt16.toNat_ofNat', Nat.mod_eq_of_lt (by omega)] at value
  rw [value] at above
  exact absurd above (by decide)

/-- The decimal text of an integer is clean. -/
theorem decimal_clean (i : Int) : newlineUnit ∉ lit (toString i) := by
  have digits (n : Nat) : newlineUnit ∉ (Nat.toDigits 10 n).map fun c => UInt16.ofNat c.toNat := by
    intro inside
    obtain ⟨c, member, same⟩ := List.mem_map.mp inside
    exact digit_ne_newline (Library.Decimal.toDigits_digits n c member) same
  rw [lit, Library.Decimal.toList_toString]
  split
  · exact digits _
  · rw [List.map_cons, List.mem_cons, not_or]
    exact ⟨by decide, digits _⟩

theorem encodeValue_clean {jdk : Jdk} (laws : jdk.Lawful) {v : Param} {j : Json}
    (encoded : encodeValue jdk v = .ok j) : Clean j := by
  cases v with
  | null =>
      cases encoded
      exact .null
  | long v =>
      cases encoded
      exact .num (decimal_clean _)
  | integer v =>
      cases encoded
      exact .num (decimal_clean _)
  | double v =>
      rw [encodeValue] at encoded
      split at encoded
      · cases encoded
      · cases encoded
        refine .num ?_
        rw [realToken]
        split
        · exact laws.double v
        · exact not_mem_append (laws.double v) (by decide)
  | string s =>
      cases encoded
      exact .str s
  | bytes b =>
      cases encoded
      exact .arr fun item inside => List.mem_singleton.mp inside ▸ .str _
  | other className => cases encoded

theorem encodeItems_clean {jdk : Jdk} (laws : jdk.Lawful) {params : List Param} {i : Nat}
    {items : List Json} (encoded : encodeItems jdk i params = .ok items) :
    ∀ item ∈ items, Clean item := by
  induction params generalizing i items with
  | nil =>
      cases encoded
      intro item inside
      cases inside
  | cons v rest ih =>
      rw [encodeItems] at encoded
      cases first : encodeValue jdk v with
      | error e =>
          rw [first] at encoded
          cases encoded
      | ok j =>
          cases more : encodeItems jdk (i + 1) rest with
          | error e =>
              rw [first, more] at encoded
              cases encoded
          | ok others =>
              rw [first, more] at encoded
              cases encoded
              intro item inside
              rcases List.mem_cons.mp inside with rfl | later
              · exact encodeValue_clean laws first
              · exact ih more item later

theorem field_clean {key : String} {value : Option Json} (clean : ∀ j ∈ value, Clean j) :
    ∀ m ∈ field key value, Clean m.2 := by
  cases value with
  | none =>
      intro m inside
      cases inside
  | some j =>
      intro m inside
      cases List.mem_singleton.mp inside
      exact clean j rfl

theorem str_clean {value : Option JString} : ∀ j ∈ value.map Json.str, Clean j := by
  intro j inside
  obtain ⟨s, _, rfl⟩ := Option.mem_map.mp inside
  exact .str s

theorem bool_clean {value : Option Bool} : ∀ j ∈ value.map Json.bool, Clean j := by
  intro j inside
  obtain ⟨b, _, rfl⟩ := Option.mem_map.mp inside
  exact .bool b

theorem op_clean (op : String) : ∀ m ∈ [opMember op], Clean m.2 := by
  intro m inside
  cases List.mem_singleton.mp inside
  exact .str _

theorem append_clean {first second : List (JString × Json)} (one : ∀ m ∈ first, Clean m.2)
    (two : ∀ m ∈ second, Clean m.2) : ∀ m ∈ first ++ second, Clean m.2 :=
  List.forall_mem_append.mpr ⟨one, two⟩

theorem sqlMembers_clean {jdk : Jdk} (laws : jdk.Lawful) {op : String} {sql : Option JString}
    {params : List Param} {members : List (JString × Json)}
    (built : sqlMembers jdk op sql params = .ok members) : ∀ m ∈ members, Clean m.2 := by
  have all {p : Option Json} (clean : ∀ j ∈ p, Clean j) :
      ∀ m ∈ [opMember op] ++ field "sql" (sql.map .str) ++ field "params" p, Clean m.2 :=
    append_clean (append_clean (op_clean op) (field_clean str_clean)) (field_clean clean)
  rw [sqlMembers, encodeParams] at built
  split at built
  · cases built
    refine all fun j inside => ?_
    cases inside
  · cases items : encodeItems jdk 0 params with
    | error e =>
        rw [items] at built
        cases built
    | ok list =>
        rw [items] at built
        cases built
        refine all fun j inside => ?_
        cases inside
        exact .arr (encodeItems_clean laws items)

theorem members_clean {jdk : Jdk} (laws : jdk.Lawful) {request : Request}
    {members : List (JString × Json)} (built : request.members jdk = .ok members) :
    ∀ m ∈ members, Clean m.2 := by
  cases request with
  | query sql params => exact sqlMembers_clean laws built
  | exec sql params => exact sqlMembers_clean laws built
  | snapshot opts =>
      cases opts with
      | none =>
          cases built
          exact op_clean _
      | some opts =>
          cases built
          exact append_clean (append_clean (append_clean (op_clean _) (field_clean str_clean))
            (field_clean bool_clean)) (field_clean bool_clean)
  | load path =>
      cases built
      exact append_clean (op_clean _) (field_clean str_clean)
  | inspect =>
      cases built
      exact op_clean _
  | tables =>
      cases built
      exact op_clean _
  | schema table =>
      cases built
      exact append_clean (op_clean _) (field_clean str_clean)
  | dump pattern =>
      cases built
      exact append_clean (op_clean _) (field_clean str_clean)
  | overwrite =>
      cases built
      exact op_clean _
  | close =>
      cases built
      exact op_clean _

/-- The bytes of a request without the newline. -/
def content (members : List (JString × Json)) : List UInt8 := getBytes (writeValue (.obj members))

/-- A request line ends with its only newline. -/
theorem line_framed {jdk : Jdk} (laws : jdk.Lawful) {request : Request} {line : List UInt8}
    (built : request.line jdk = .ok line) :
    ∃ text, line = text ++ [newline] ∧ newline ∉ text := by
  rw [Request.line] at built
  cases members : request.members jdk with
  | error e =>
      rw [members] at built
      cases built
  | ok list =>
      rw [members] at built
      cases built
      refine ⟨content list, getBytes_append_newline _, newline_not_mem_getBytes ?_⟩
      exact writeValue_clean (.obj (members_clean laws members))

end SanDbOxFormal.Java.Codec
