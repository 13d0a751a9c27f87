import SanDbOxFormal.Library.Decimal
import SanDbOxFormal.Library.Failures
import SanDbOxFormal.Library.Utf8
import SanDbOxFormal.Python.Json

/-!
# Requests of the Python driver

The encoding half of `_codec.py` and the requests that the methods of `_Session` and
`Client` build.  What `repr` prints for a `float` and what `base64.b64encode` returns
are parameters.
-/

namespace SanDbOxFormal.Python

open SanDbOxFormal.Library

/-- The code point of the newline. -/
def newlinePoint : Nat := 0x0A

/-- `repr` of a finite `float` and `base64.b64encode`, which print no newline. -/
structure Printer where
  float : PyFloat → PyStr
  base64 : List UInt8 → PyStr
  float_clean : ∀ x, newlinePoint ∉ float x
  base64_clean : ∀ b, newlinePoint ∉ base64 b

/-! ## json.dumps -/

def hexDigit (n : Nat) : Nat := if n < 10 then 0x30 + n else 0x57 + n

/-- `ESCAPE_DCT`; without `ensure_ascii` nothing else is escaped. -/
def escape (c : Nat) : PyStr :=
  if c = 0x22 then lit "\\\""
  else if c = 0x5C then lit "\\\\"
  else if c = 0x0A then lit "\\n"
  else if c = 0x0D then lit "\\r"
  else if c = 0x09 then lit "\\t"
  else if c = 0x0C then lit "\\f"
  else if c = 0x08 then lit "\\b"
  else if c < 0x20 then lit "\\u00" ++ [hexDigit (c / 0x10), hexDigit (c % 0x10)]
  else [c]

def dumpsStr (s : PyStr) : PyStr := lit "\"" ++ s.flatMap escape ++ lit "\""

mutual

/-- `json.dumps` with the separators of the driver; a `float` is printed already. -/
def dumps : PyValue → PyStr
  | .none => lit "null"
  | .bool b => lit (if b then "true" else "false")
  | .int n => lit (toString n)
  | .float token => token
  | .str s => dumpsStr s
  | .list items => lit "[" ++ dumpsItems true items ++ lit "]"
  | .dict items => lit "\x7b" ++ dumpsMembers true items ++ lit "\x7d"

/-- The items of a list, the first without a comma before it. -/
def dumpsItems : Bool → List PyValue → PyStr
  | _, [] => []
  | first, v :: rest => (if first then [] else lit ",") ++ dumps v ++ dumpsItems false rest

def dumpsMembers : Bool → List (PyStr × PyValue) → PyStr
  | _, [] => []
  | first, (key, v) :: rest =>
      (if first then [] else lit ",") ++ dumpsStr key ++ lit ":" ++ dumps v ++ dumpsMembers false rest

end

/-- A code point that is no surrogate. -/
def scalar? (c : Nat) : Option Char := if h : c.isValidChar then some (Char.ofNatAux c h) else none

/-- `s.encode('utf-8')`. -/
def encodeUtf8 (s : PyStr) : Option (List UInt8) := (s.mapM scalar?).map Utf8.encode

/-- `encode_request_line`. -/
def encodeRequestLine (req : Dict) : Except PyError (List UInt8) :=
  match encodeUtf8 (dumps (.dict req)) with
  | some bytes => .ok (bytes ++ [newline])
  | none => .error (.valueError (lit "surrogates not allowed"))

/-! ## Parameters -/

/-- A parameter that a caller may pass; `bytes` stands for every bytes-like value. -/
inductive ParamValue where
  | none
  | bool (b : Bool)
  | int (n : Int)
  | float (x : PyFloat)
  | bytes (b : List UInt8)
  | str (s : PyStr)
  | other (typeName : PyStr)

def int64Min : Int := -2 ^ 63

def int64Max : Int := 2 ^ 63 - 1

def encodeValue (printer : Printer) : ParamValue → Except PyError PyValue
  | .none => .ok .none
  | .bool b =>
      .error (.typeError (lit ("bool is not a supported param type (got " ++
        (if b then "True" else "False") ++ ")")))
  | .int n =>
      if int64Min ≤ n && n ≤ int64Max then .ok (.int n)
      else .error (.valueError (lit ("int param out of int64 range: " ++ toString n)))
  | .float x =>
      if x.isNan || x.isInf then
        .error (.valueError (lit "REAL param must be finite (san-db-ox rejects NaN/Inf in params): " ++
          printer.float x))
      else .ok (.float (printer.float x))
  | .bytes b => .ok (.list [.str (printer.base64 b)])
  | .str s => .ok (.str s)
  | .other typeName =>
      .error (.typeError (lit "unsupported param type " ++ typeName ++
        lit " (want None, int, float, str, or bytes-like)"))

/-- `raise type(e)(f"params[{i}]: {e}") from e`. -/
def atParam (i : Nat) : PyError → PyError
  | .typeError m => .typeError (lit ("params[" ++ toString i ++ "]: ") ++ m)
  | .valueError m => .valueError (lit ("params[" ++ toString i ++ "]: ") ++ m)
  | e => e

/-- The loop of `encode_params`, from index `i` on. -/
def encodeItems (printer : Printer) : Nat → List ParamValue → Except PyError (List PyValue)
  | _, [] => .ok []
  | i, v :: rest => do
      let v ← (encodeValue printer v).mapError (atParam i)
      let rest ← encodeItems printer (i + 1) rest
      .ok (v :: rest)

def encodeParams (printer : Printer) (params : List ParamValue) : Except PyError (Option PyValue) :=
  if params.isEmpty then .ok none
  else do
    let items ← encodeItems printer 0 params
    .ok (some (.list items))

/-! ## Operations -/

inductive Operation where
  | query (sql : PyStr) (params : List ParamValue)
  | exec (sql : PyStr) (params : List ParamValue)
  | snapshot (filename : Option PyStr) (sqlite timestamp : Bool)
  | load (path : PyStr)
  | inspect
  | tables
  | schema (table : Option PyStr)
  | dump (pattern : Option PyStr)
  | overwrite

def member (key : String) (v : PyValue) : PyStr × PyValue := (lit key, v)

def op (name : String) : PyStr × PyValue := member "op" (.str (lit name))

/-- A member that is there if the argument is neither `None` nor empty. -/
def optional (key : String) (v : Option PyStr) : Dict :=
  match v with
  | some (c :: cs) => [member key (.str (c :: cs))]
  | _ => []

def flag (key : String) (on : Bool) : Dict := if on then [member key (.bool true)] else []

def sqlRequest (printer : Printer) (name : String) (sql : PyStr) (params : List ParamValue) :
    Except PyError Dict := do
  let encoded ← encodeParams printer params
  .ok ([op name, member "sql" (.str sql)] ++ (encoded.map (member "params")).toList)

def Operation.request (printer : Printer) : Operation → Except PyError Dict
  | query sql params => sqlRequest printer "query" sql params
  | exec sql params => sqlRequest printer "exec" sql params
  | snapshot filename sqlite timestamp =>
      .ok ([op "snapshot"] ++ optional "filename" filename ++ flag "sqlite" sqlite ++
        flag "timestamp" timestamp)
  | load path => .ok [op "load", member "path" (.str path)]
  | inspect => .ok [op "inspect"]
  | tables => .ok [op "tables"]
  | schema table => .ok ([op "schema"] ++ optional "table" table)
  | dump pattern => .ok ([op "dump"] ++ optional "pattern" pattern)
  | overwrite => .ok [op "overwrite"]

/-! ## One newline, at the end -/

/-- A value whose float tokens hold no newline. -/
inductive Clean : PyValue → Prop where
  | none : Clean .none
  | bool (b : Bool) : Clean (.bool b)
  | int (n : Int) : Clean (.int n)
  | float {token : PyStr} (clean : newlinePoint ∉ token) : Clean (.float token)
  | str (s : PyStr) : Clean (.str s)
  | list {items : List PyValue} (each : ∀ v ∈ items, Clean v) : Clean (.list items)
  | dict {items : Dict} (each : ∀ item ∈ items, Clean item.2) : Clean (.dict items)

theorem not_mem_append {a b : PyStr} (first : newlinePoint ∉ a) (second : newlinePoint ∉ b) :
    newlinePoint ∉ a ++ b := by
  rw [List.mem_append, not_or]
  exact ⟨first, second⟩

theorem escape_clean (c : Nat) : newlinePoint ∉ escape c := by
  have hex {n : Nat} : newlinePoint ≠ hexDigit n := by
    unfold hexDigit newlinePoint
    split <;> omega
  unfold escape
  split_ifs with _ _ other
  · decide
  · decide
  · decide
  · decide
  · decide
  · decide
  · decide
  · refine not_mem_append (by decide) fun inside => ?_
    rcases List.mem_cons.mp inside with same | inside
    · exact hex same
    · exact hex (List.mem_singleton.mp inside)
  · exact fun inside => other (List.mem_singleton.mp inside).symm

theorem dumpsStr_clean (s : PyStr) : newlinePoint ∉ dumpsStr s := by
  refine not_mem_append (not_mem_append (by decide) fun inside => ?_) (by decide)
  obtain ⟨c, _, written⟩ := List.mem_flatMap.mp inside
  exact escape_clean c written

theorem comma_clean (first : Bool) : newlinePoint ∉ (if first then [] else lit ",") := by
  cases first with
  | true => exact List.not_mem_nil
  | false => decide

theorem dumpsItems_clean {items : List PyValue} (first : Bool)
    (each : ∀ v ∈ items, newlinePoint ∉ dumps v) : newlinePoint ∉ dumpsItems first items := by
  induction items generalizing first with
  | nil => exact List.not_mem_nil
  | cons v rest ih =>
      rw [dumpsItems]
      exact not_mem_append (not_mem_append (comma_clean first) (each v List.mem_cons_self))
        (ih false fun other inside => each other (List.mem_cons_of_mem _ inside))

theorem dumpsMembers_clean {items : Dict} (first : Bool)
    (each : ∀ item ∈ items, newlinePoint ∉ dumps item.2) : newlinePoint ∉ dumpsMembers first items := by
  induction items generalizing first with
  | nil => exact List.not_mem_nil
  | cons item rest ih =>
      rw [dumpsMembers]
      exact not_mem_append (not_mem_append (not_mem_append (not_mem_append (comma_clean first)
        (dumpsStr_clean item.1)) (by decide)) (each item List.mem_cons_self))
        (ih false fun other inside => each other (List.mem_cons_of_mem _ inside))

theorem decimal_clean (i : Int) : newlinePoint ∉ lit (toString i) := by
  have digits (n : Nat) : newlinePoint ∉ (Nat.toDigits 10 n).map Char.toNat := by
    intro inside
    obtain ⟨c, member, same⟩ := List.mem_map.mp inside
    have digit := Decimal.toDigits_digits n c member
    have none : c = '\n' := by
      rw [← Char.ofNat_toNat c, same]
      rfl
    rw [none] at digit
    exact absurd digit (by decide)
  rw [lit, Decimal.toList_toString]
  split
  · exact digits _
  · rw [List.map_cons, List.mem_cons, not_or]
    exact ⟨by decide, digits _⟩

/-- `json.dumps` writes no raw newline. -/
theorem dumps_clean {v : PyValue} (clean : Clean v) : newlinePoint ∉ dumps v := by
  induction clean with
  | none =>
      rw [dumps]
      decide
  | bool b =>
      rw [dumps]
      cases b with
      | true => decide
      | false => decide
  | int n =>
      rw [dumps]
      exact decimal_clean n
  | float clean =>
      rw [dumps]
      exact clean
  | str s =>
      rw [dumps]
      exact dumpsStr_clean s
  | list _ ih =>
      rw [dumps]
      exact not_mem_append (not_mem_append (by decide) (dumpsItems_clean true ih)) (by decide)
  | dict _ ih =>
      rw [dumps]
      exact not_mem_append (not_mem_append (by decide) (dumpsMembers_clean true ih)) (by decide)

theorem scalar?_toNat {n : Nat} {c : Char} (scalar : scalar? n = some c) : c.toNat = n := by
  unfold scalar? at scalar
  split at scalar
  · cases scalar
    simp [Char.ofNatAux, Char.toNat]
  · cases scalar

/-- The characters are the code points. -/
theorem scalars_toNat {s : PyStr} {cs : List Char} (scalars : s.mapM scalar? = some cs) :
    cs.map Char.toNat = s := by
  induction s generalizing cs with
  | nil =>
      cases scalars
      rfl
  | cons n rest ih =>
      rw [List.mapM_cons] at scalars
      obtain ⟨c, first, more⟩ := Option.bind_eq_some_iff.mp scalars
      obtain ⟨others, later, same⟩ := Option.bind_eq_some_iff.mp more
      cases same
      rw [List.map_cons, scalar?_toNat first, ih later]

theorem encodeUtf8_clean {s : PyStr} {bytes : List UInt8} (encoded : encodeUtf8 s = some bytes)
    (clean : newlinePoint ∉ s) : newline ∉ bytes := by
  obtain ⟨cs, scalars, rfl⟩ := Option.map_eq_some_iff.mp encoded
  intro inside
  have there : '\n' ∈ cs := (Utf8.mem_encode_ascii (by decide) cs).mp inside
  rw [← scalars_toNat scalars] at clean
  exact clean (List.mem_map_of_mem there)

/-- The bytes of a request without the newline. -/
def content (req : Dict) : Option (List UInt8) := encodeUtf8 (dumps (.dict req))

/-- A request line ends with its only newline. -/
theorem line_framed {req : Dict} {line : List UInt8} (each : ∀ item ∈ req, Clean item.2)
    (encoded : encodeRequestLine req = .ok line) :
    ∃ text, content req = some text ∧ line = text ++ [newline] ∧ newline ∉ text := by
  unfold encodeRequestLine at encoded
  split at encoded
  · rename_i text written
    cases encoded
    exact ⟨text, written, rfl, encodeUtf8_clean written (dumps_clean (.dict each))⟩
  · cases encoded

theorem encodeValue_clean {printer : Printer} {v : ParamValue} {p : PyValue}
    (encoded : encodeValue printer v = .ok p) : Clean p := by
  cases v with
  | none =>
      cases encoded
      exact .none
  | bool b => cases encoded
  | int n =>
      rw [encodeValue] at encoded
      split at encoded
      · cases encoded
        exact .int n
      · cases encoded
  | float x =>
      rw [encodeValue] at encoded
      split at encoded
      · cases encoded
      · cases encoded
        exact .float (printer.float_clean x)
  | bytes b =>
      cases encoded
      exact .list fun v inside => List.mem_singleton.mp inside ▸ .str _
  | str s =>
      cases encoded
      exact .str s
  | other typeName => cases encoded

theorem encodeItems_clean {printer : Printer} {params : List ParamValue} {i : Nat}
    {items : List PyValue} (encoded : encodeItems printer i params = .ok items) :
    ∀ v ∈ items, Clean v := by
  induction params generalizing i items with
  | nil =>
      cases encoded
      exact nofun
  | cons v rest ih =>
      obtain ⟨p, first, more⟩ := bind_ok_iff.mp encoded
      obtain ⟨others, later, same⟩ := bind_ok_iff.mp more
      cases same
      exact List.forall_mem_cons.mpr ⟨encodeValue_clean (mapError_ok_iff.mp first), ih later⟩

theorem optional_clean (key : String) (v : Option PyStr) : ∀ item ∈ optional key v, Clean item.2 := by
  unfold optional
  split
  · exact fun item inside => List.mem_singleton.mp inside ▸ .str _
  · exact nofun

theorem flag_clean (key : String) (on : Bool) : ∀ item ∈ flag key on, Clean item.2 := by
  unfold flag
  split
  · exact fun item inside => List.mem_singleton.mp inside ▸ .bool true
  · exact nofun

theorem op_clean (name : String) : ∀ item ∈ [op name], Clean item.2 :=
  fun _ inside => List.mem_singleton.mp inside ▸ .str _

theorem append_clean {first second : Dict} (one : ∀ item ∈ first, Clean item.2)
    (two : ∀ item ∈ second, Clean item.2) : ∀ item ∈ first ++ second, Clean item.2 :=
  List.forall_mem_append.mpr ⟨one, two⟩

theorem sqlRequest_clean {printer : Printer} {name : String} {sql : PyStr}
    {params : List ParamValue} {req : Dict}
    (built : sqlRequest printer name sql params = .ok req) : ∀ item ∈ req, Clean item.2 := by
  obtain ⟨encoded, made, same⟩ := bind_ok_iff.mp built
  cases same
  have start : ∀ item ∈ [op name, member "sql" (.str sql)], Clean item.2 :=
    List.forall_mem_cons.mpr ⟨.str _, fun _ inside => List.mem_singleton.mp inside ▸ .str _⟩
  refine append_clean start ?_
  rw [encodeParams] at made
  split at made
  · cases made
    exact nofun
  · obtain ⟨items, list, same⟩ := bind_ok_iff.mp made
    cases same
    exact fun _ inside => List.mem_singleton.mp inside ▸ .list (encodeItems_clean list)

theorem request_clean {printer : Printer} {operation : Operation} {req : Dict}
    (built : operation.request printer = .ok req) : ∀ item ∈ req, Clean item.2 := by
  cases operation with
  | query sql params => exact sqlRequest_clean built
  | exec sql params => exact sqlRequest_clean built
  | snapshot filename sqlite timestamp =>
      cases built
      exact append_clean (append_clean (append_clean (op_clean _) (optional_clean _ _))
        (flag_clean _ _)) (flag_clean _ _)
  | load path =>
      cases built
      exact append_clean (op_clean "load") fun _ inside => List.mem_singleton.mp inside ▸ .str _
  | inspect =>
      cases built
      exact op_clean _
  | tables =>
      cases built
      exact op_clean _
  | schema table =>
      cases built
      exact append_clean (op_clean _) (optional_clean _ _)
  | dump pattern =>
      cases built
      exact append_clean (op_clean _) (optional_clean _ _)
  | overwrite =>
      cases built
      exact op_clean _

end SanDbOxFormal.Python
