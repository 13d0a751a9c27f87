import SanDbOxFormal.Library.JsonSoundness
import SanDbOxFormal.Protocol.HelloTree
import SanDbOxFormal.TypeScript.Tokens

/-!
# The hello gate of the TypeScript driver

`decodeHello` and `readHello`, against the hello lines of the protocol.  The protocol is
compared as a `number`, so a token passes if the double nearest to it is 1.
-/

namespace SanDbOxFormal.TypeScript

open SanDbOxFormal.Library
open SanDbOxFormal.Protocol

/-! ## Numbers -/

def isExponentMark (u : UInt16) : Bool := u = 0x65 || u = 0x45

/-- The number that a token of JSON denotes. -/
def tokenValue (token : JsString) : ℚ :=
  let mantissa := token.takeWhile fun u => !isExponentMark u
  let exponent := (token.dropWhile fun u => !isExponentMark u).tail
  let whole := mantissa.takeWhile (· ≠ 0x2E)
  let fraction := (mantissa.dropWhile (· ≠ 0x2E)).tail
  bigInt (whole ++ fraction) / 10 ^ fraction.length * 10 ^ bigInt (exponent.filter (· ≠ 0x2B))

/-- `n === 1` for the number of a token: the doubles next to 1 are 1 - 2⁻⁵³ and 1 + 2⁻⁵²,
and what lies halfway to one of them is read as 1. -/
def isOne (token : JsString) : Bool :=
  1 - 1 / 2 ^ 54 ≤ tokenValue token ∧ tokenValue token ≤ 1 + 1 / 2 ^ 53

/-! ## Decoding -/

structure Hello where
  /-- The token of the number. -/
  protocol : JsString
  version : JsString
  product : JsString
  deriving DecidableEq

def missingHelloField (key : String) : JsError := .protocol (lit ("hello line missing field '" ++ key ++ "'"))

def asNumber : JsValue → Option JsString
  | .number token => some token
  | _ => none

/-- One field of the hello. -/
def helloField {β : Type} (accept : JsValue → Option β) (fields : Fields) (key : String) : Except JsError β :=
  match (property fields (lit key)).bind accept with
  | some b => .ok b
  | none => .error (missingHelloField key)

/-- The fields of the hello that was parsed from this text. -/
def helloOf (text : JsString) : JsValue → Except JsError Hello
  | .object fields => do
      let protocol ← helloField asNumber fields "protocol"
      let version ← helloField asString fields "version"
      let product ← helloField asString fields "product"
      .ok ⟨protocol, version, product⟩
  | _ => .error (.protocol (lit "hello line is not a JSON object: " ++ text))

def decodeHello (rt : Runtime) (line : List UInt8) : Except JsError Hello := do
  let text ← decodeText line
  match JsonReader.read JsonReader.strictUnits text.length (text.map UInt16.toNat) with
  | .error _ => .error (.protocol (lit "invalid hello line: " ++ rt.complaint text))
  | .ok tree => helloOf text (construct tree)

/-- `readHello` on the outcome of its read, with whether it has closed the transport; `shown` is how a
number is printed. -/
def readHello (rt : Runtime) (shown : JsString → JsString) :
    Except JsError (List UInt8) → Except JsError Hello × Bool
  | .error e => (.error (if e.isSanDBox then e else .sanDBox (lit "reading hello line: " ++ e.message)), true)
  | .ok line =>
      match decodeHello rt line with
      | .error e => (.error e, true)
      | .ok hello =>
          if isOne hello.protocol then (.ok hello, false)
          else
            (.error (.sanDBox
              (lit "unsupported protocol " ++ shown hello.protocol ++ lit " (this driver speaks 1)")), true)

/-! ## Members -/

theorem property_append (first second : Fields) (key : JsString) :
    property (first ++ second) key = (property first key).or (property second key) := by
  rw [property, List.find?_append, Option.map_or]
  rfl

theorem property_cons (key other : JsString) (v : JsValue) (fields : Fields) :
    property ((key, v) :: fields) other = if key = other then some v else property fields other := by
  rw [property, List.find?_cons]
  by_cases same : key = other
  · have hit : (key == other) = true := beq_iff_eq.mpr same
    rw [hit, if_pos same]
    rfl
  · have miss : (key == other) = false := beq_eq_false_iff_ne.mpr same
    rw [miss, if_neg same]
    rfl

theorem property_isSome (fields : Fields) (key : JsString) :
    (property fields key).isSome = fields.any fun member => member.1 == key := by
  rw [property, Option.isSome_map, Bool.eq_iff_iff, List.find?_isSome, List.any_eq_true]

/-- A value is replaced under its own key only. -/
theorem property_replaced (fields : Fields) (key other : JsString) (v : JsValue) :
    property (fields.map fun member => if member.1 == key then (key, v) else member) other =
      if key = other then (property fields key).map fun _ => v else property fields other := by
  induction fields with
  | nil =>
      split <;> rfl
  | cons member rest ih =>
      obtain ⟨k, w⟩ := member
      rw [List.map_cons]
      by_cases own : k = key
      · have hit : (k == key) = true := beq_iff_eq.mpr own
        rw [hit, if_pos rfl, property_cons, property_cons, property_cons, if_pos own, ih]
        subst own
        split <;> rfl
      · have miss : (k == key) = false := beq_eq_false_iff_ne.mpr own
        rw [miss, if_neg Bool.false_ne_true, property_cons, property_cons, property_cons, if_neg own, ih]
        by_cases same : key = other
        · subst same
          rw [if_pos rfl, if_pos rfl, if_neg own]
        · rw [if_neg same, if_neg same]

/-- Setting a property is seen under its own key only. -/
theorem property_set (fields : Fields) (key other : JsString) (v : JsValue) :
    property (fields.set key v) other = if key = other then some v else property fields other := by
  rw [Fields.set]
  split
  · rename_i there
    rw [← property_isSome] at there
    obtain ⟨w, found⟩ := Option.isSome_iff_exists.mp there
    rw [property_replaced, found]
    rfl
  · rename_i absent
    rw [← property_isSome] at absent
    rw [property_append, property_cons]
    by_cases same : key = other
    · subst same
      rw [Option.not_isSome_iff_eq_none.mp absent, if_pos rfl, if_pos rfl]
      rfl
    · rw [if_neg same, if_neg same]
      exact Option.or_none

/-- The keys of a list of fields are all different. -/
def Distinct (fields : Fields) : Prop := (fields.map Prod.fst).Nodup

theorem set_distinct {fields : Fields} (distinct : Distinct fields) (key : JsString) (v : JsValue) :
    Distinct (fields.set key v) := by
  rw [Fields.set]
  split
  · have same : (fields.map fun member => if member.1 == key then (key, v) else member).map Prod.fst =
        fields.map Prod.fst := by
      rw [List.map_map]
      refine List.map_congr_left fun member _ => ?_
      rw [Function.comp_apply]
      split
      · rename_i own
        exact (beq_iff_eq.mp own).symm
      · rfl
    rw [Distinct, same]
    exact distinct
  · rename_i absent
    rw [Distinct, List.map_append]
    refine List.nodup_append.mpr ⟨distinct, List.nodup_singleton key, ?_⟩
    intro k inside k' last same
    obtain ⟨member, there, rfl⟩ := List.mem_map.mp inside
    rw [List.map_singleton, List.mem_singleton] at last
    exact absent (List.any_eq_true.mpr ⟨member, there, beq_iff_eq.mpr (same.trans last)⟩)

theorem constructMembers_distinct {fields : Fields} (distinct : Distinct fields)
    (members : List (List Nat × JsonReader.Tree)) : Distinct (constructMembers fields members) := by
  induction members generalizing fields with
  | nil =>
      rw [constructMembers]
      exact distinct
  | cons m rest ih =>
      rw [constructMembers]
      exact ih (set_distinct distinct _ _)

/-- With different keys the order of the members does not matter. -/
theorem property_perm {first second : Fields} (distinct : Distinct first) (perm : first.Perm second)
    (key : JsString) : property first key = property second key := by
  have distinct' : Distinct second := (perm.map Prod.fst).nodup_iff.mp distinct
  have found {fields : Fields} (distinct : Distinct fields) (v : JsValue) :
      property fields key = some v ↔ (key, v) ∈ fields := by
    constructor
    · intro found
      obtain ⟨member, there, same⟩ := Option.map_eq_some_iff.mp found
      have hit := List.find?_some there
      have own := beq_iff_eq.mp hit
      have inside := List.mem_of_find?_eq_some there
      rwa [← own, ← same]
    · intro inside
      induction fields with
      | nil => cases inside
      | cons member rest ih =>
          obtain ⟨k, w⟩ := member
          obtain ⟨fresh, others⟩ := List.nodup_cons.mp distinct
          rw [property_cons]
          rcases List.mem_cons.mp inside with same | later
          · cases same
            exact if_pos rfl
          · have other : k ≠ key := fun same => fresh (List.mem_map.mpr ⟨(key, v), later, same.symm⟩)
            rw [if_neg other]
            exact ih others later
  refine Option.ext fun v => ?_
  rw [found distinct, found distinct', perm.mem_iff]

theorem ordered_perm (fields : Fields) : fields.ordered.Perm fields := by
  rw [Fields.ordered]
  refine ((List.perm_insertionSort _ _).append_right _).trans ?_
  have other : (fields.filter fun member => (arrayIndex? member.1).isNone) =
      fields.filter fun member => !(arrayIndex? member.1).isSome :=
    List.filter_congr fun member _ => (Option.not_isSome _).symm
  rw [other]
  exact List.filter_append_perm _ fields

/-- The last member whose key is that string. -/
def lastNamed? (members : Members) (key : JsString) : Option JsonReader.Tree :=
  (members.reverse.find? fun m => string m.1 == key).map Prod.snd

theorem lastNamed?_cons (k : List ℕ) (t : JsonReader.Tree) (rest : Members) (key : JsString) :
    lastNamed? ((k, t) :: rest) key = (lastNamed? rest key).or (if string k = key then some t else none) := by
  rw [lastNamed?, List.reverse_cons, List.find?_append, Option.map_or, lastNamed?, List.find?_cons]
  by_cases same : string k = key
  · have hit : (string k == key) = true := beq_iff_eq.mpr same
    rw [hit, if_pos same]
    rfl
  · have miss : (string k == key) = false := beq_eq_false_iff_ne.mpr same
    rw [miss, if_neg same]
    rfl

theorem property_constructMembers (fields : Fields) (members : Members) (key : JsString) :
    property (constructMembers fields members) key =
      ((lastNamed? members key).map construct).or (property fields key) := by
  induction members generalizing fields with
  | nil =>
      rw [constructMembers]
      rfl
  | cons m rest ih =>
      obtain ⟨k, t⟩ := m
      rw [constructMembers, ih, property_set, lastNamed?_cons]
      cases lastNamed? rest key with
      | some found => rfl
      | none =>
          rw [Option.map_none, Option.none_or, Option.none_or]
          split
          · rfl
          · exact (Option.none_or).symm

/-- An object has the last member under each key. -/
theorem property_object (members : Members) (key : JsString) :
    property (Fields.ordered (constructMembers [] members)) key = (lastNamed? members key).map construct := by
  have empty : Distinct [] := List.nodup_nil
  have distinct : Distinct (constructMembers [] members) := constructMembers_distinct empty members
  rw [← property_perm distinct (ordered_perm _).symm, property_constructMembers]
  exact Option.or_none

/-! ## The gate -/

/-- A text that is an object of JSON with the three fields of a hello. -/
structure HelloText (text : JsString) (hello : Hello) : Prop where
  object : ∃ members, JsonReader.Writes JsonReader.strictUnits text.length (text.map UInt16.toNat) (.object members) ∧
    (∃ raw, lastNamed? members (lit "protocol") = some (.number raw) ∧ hello.protocol = string raw) ∧
    (∃ units, lastNamed? members (lit "version") = some (.string units) ∧ hello.version = string units) ∧
    ∃ units, lastNamed? members (lit "product") = some (.string units) ∧ hello.product = string units

theorem helloField_ok_iff {β : Type} {accept : JsValue → Option β} {fields : Fields} {key : String} {b : β} :
    helloField accept fields key = .ok b ↔ (property fields (lit key)).bind accept = some b := by
  rw [helloField]
  split
  · rename_i found there
    rw [there, Except.ok.injEq, Option.some_inj]
  · rename_i none
    rw [none]
    exact ⟨fun same => (by cases same), fun same => (by cases same)⟩

theorem asNumber_construct {t : JsonReader.Tree} {token : JsString} :
    asNumber (construct t) = some token ↔ ∃ raw, t = .number raw ∧ token = string raw := by
  constructor
  · intro is
    cases t with
    | number raw =>
        rw [construct] at is
        cases is
        exact ⟨raw, rfl, rfl⟩
    | _ =>
        rw [construct] at is
        cases is
  · rintro ⟨raw, rfl, rfl⟩
    rw [construct]
    rfl

/-- A value without barewords, whose numbers are numbers of the grammar. -/
def Standard : JsonReader.Tree → Prop
  | .bareword _ => False
  | .number raw => JsonReader.Token raw
  | _ => True

theorem read_standard {text : List ℕ} {depth : ℕ} {t : JsonReader.Tree}
    (read : JsonReader.read JsonReader.strictUnits depth text = .ok t) : t.All Standard := by
  refine JsonReader.read_all (fun cs => ?_) (fun _ => trivial) read
  have known : JsonReader.bareword? JsonReader.strictUnits cs = none := rfl
  have numeral := JsonReader.scalar_numeral JsonReader.strictUnits cs
  intro a rest took
  have good := numeral a rest took
  rw [JsonReader.scalar, known] at took
  dsimp only at took
  split at took
  · cases took
    trivial
  · cases took
    trivial
  · cases took
    trivial
  · split at took
    · cases took
      exact good
    · cases took

theorem lastNamed?_standard {members : Members} {key : JsString} {t : JsonReader.Tree}
    (standard : JsonReader.AllMembers Standard members) (found : lastNamed? members key = some t) :
    t.All Standard := by
  obtain ⟨m, there, rfl⟩ := Option.map_eq_some_iff.mp found
  exact standard.find (List.mem_reverse.mp (List.mem_of_find?_eq_some there))

theorem asString_construct {t : JsonReader.Tree} (standard : t.All Standard) {s : JsString} :
    asString (construct t) = some s ↔ ∃ units, t = .string units ∧ s = string units := by
  constructor
  · intro is
    cases t with
    | string units =>
        rw [construct] at is
        cases is
        exact ⟨units, rfl, rfl⟩
    | bareword name => exact absurd standard id
    | _ =>
        rw [construct] at is
        cases is
  · rintro ⟨units, rfl, rfl⟩
    rw [construct]
    rfl

/-- One field is looked up among the members. -/
theorem helloField_object {β : Type} {accept : JsValue → Option β} {members : Members} {key : String} {b : β} :
    helloField accept (Fields.ordered (constructMembers [] members)) key = .ok b ↔
      ∃ t, lastNamed? members (lit key) = some t ∧ accept (construct t) = some b := by
  rw [helloField_ok_iff, property_object, Option.bind_eq_some_iff]
  constructor
  · rintro ⟨v, found, accepted⟩
    obtain ⟨t, there, rfl⟩ := Option.map_eq_some_iff.mp found
    exact ⟨t, there, accepted⟩
  · rintro ⟨t, there, accepted⟩
    exact ⟨construct t, Option.map_eq_some_iff.mpr ⟨t, there, rfl⟩, accepted⟩

/-- What a hello is decoded from is an object with the three fields. -/
theorem helloOf_ok_iff {text : JsString} {t : JsonReader.Tree} (standard : t.All Standard) (hello : Hello) :
    helloOf text (construct t) = .ok hello ↔ ∃ members, t = .object members ∧
      (∃ raw, lastNamed? members (lit "protocol") = some (.number raw) ∧ hello.protocol = string raw) ∧
      (∃ units, lastNamed? members (lit "version") = some (.string units) ∧ hello.version = string units) ∧
      ∃ units, lastNamed? members (lit "product") = some (.string units) ∧ hello.product = string units := by
  constructor
  · intro decoded
    cases t with
    | object members =>
        rw [construct, helloOf] at decoded
        obtain ⟨protocol, first, decoded⟩ := bind_ok_iff.mp decoded
        obtain ⟨version, second, decoded⟩ := bind_ok_iff.mp decoded
        obtain ⟨product, third, decoded⟩ := bind_ok_iff.mp decoded
        cases decoded
        obtain ⟨t₁, found₁, is₁⟩ := helloField_object.mp first
        obtain ⟨t₂, found₂, is₂⟩ := helloField_object.mp second
        obtain ⟨t₃, found₃, is₃⟩ := helloField_object.mp third
        obtain ⟨raw, rfl, same₁⟩ := asNumber_construct.mp is₁
        obtain ⟨units₂, rfl, same₂⟩ := (asString_construct (lastNamed?_standard standard found₂)).mp is₂
        obtain ⟨units₃, rfl, same₃⟩ := (asString_construct (lastNamed?_standard standard found₃)).mp is₃
        exact ⟨members, rfl, ⟨raw, found₁, same₁⟩, ⟨units₂, found₂, same₂⟩, units₃, found₃, same₃⟩
    | _ =>
        rw [construct] at decoded
        cases decoded
  · rintro ⟨members, rfl, ⟨raw, found₁, same₁⟩, ⟨units₂, found₂, same₂⟩, units₃, found₃, same₃⟩
    have first : helloField asNumber (Fields.ordered (constructMembers [] members)) "protocol" = .ok hello.protocol :=
      helloField_object.mpr ⟨_, found₁, asNumber_construct.mpr ⟨raw, rfl, same₁⟩⟩
    have text {key : String} {s : JsString} {units : List ℕ} (found : lastNamed? members (lit key) = some (.string units))
        (same : s = string units) : helloField asString (Fields.ordered (constructMembers [] members)) key = .ok s :=
      helloField_object.mpr ⟨_, found, (asString_construct (lastNamed?_standard standard found)).mpr ⟨units, rfl, same⟩⟩
    rw [construct, helloOf]
    exact bind_ok_iff.mpr ⟨_, first, bind_ok_iff.mpr ⟨_, text found₂ same₂, bind_ok_iff.mpr ⟨_, text found₃ same₃, rfl⟩⟩⟩

/-- `decodeHello` takes the objects with the three fields. -/
theorem decodeHello_ok_iff (rt : Runtime) (line : List UInt8) (hello : Hello) :
    decodeHello rt line = .ok hello ↔ ∃ text, decodeText line = .ok text ∧ HelloText text hello := by
  rw [decodeHello, bind_ok_iff]
  refine exists_congr fun text => and_congr_right fun _ => ?_
  constructor
  · intro decoded
    generalize read : JsonReader.read JsonReader.strictUnits text.length (text.map UInt16.toNat) = tree at decoded
    cases tree with
    | error fault => cases decoded
    | ok tree =>
        obtain ⟨members, rfl, fields⟩ := (helloOf_ok_iff (read_standard read) hello).mp decoded
        exact ⟨members, (JsonReader.read_iff rfl rfl).mp read, fields⟩
  · rintro ⟨members, writes, fields⟩
    have read := (JsonReader.read_iff rfl rfl).mpr writes
    rw [read]
    exact (helloOf_ok_iff (read_standard read) hello).mpr ⟨members, rfl, fields⟩

/-! ## One -/

/-- The units of an integer token are digits behind at most a minus. -/
theorem integer_narrow {cs : List Char} {n : Int} (token : IntegerToken cs n) :
    ∀ c ∈ cs, c = '-' ∨ Rfc8259.isDigit c = true := by
  intro c inside
  cases token with
  | whole int => exact .inr ((intPart_digits int).2 c inside)
  | negative int =>
      rcases List.mem_cons.mp inside with same | later
      · exact .inl same
      · exact .inr ((intPart_digits int).2 c later)

theorem digit_range {c : Char} (plain : c = '-' ∨ Rfc8259.isDigit c = true) :
    c.toNat = 0x2D ∨ 0x30 ≤ c.toNat ∧ c.toNat ≤ 0x39 := by
  rcases plain with rfl | digit
  · exact .inl rfl
  · rw [Rfc8259.isDigit, Bool.and_eq_true, decide_eq_true_eq, decide_eq_true_eq] at digit
    exact .inr digit

/-- An integer token denotes its integer. -/
theorem tokenValue_integer {cs : List Char} {n : Int} (token : IntegerToken cs n) :
    tokenValue (string (JsonReader.points cs)) = n := by
  have range (c : Char) (inside : c ∈ cs) := digit_range (integer_narrow token c inside)
  have narrow : ∀ c ∈ cs, 0x20 < c.toNat ∧ c.toNat < 0x80 := by
    intro c inside
    have := range c inside
    omega
  have plain (u : UInt16) (inside : u ∈ string (JsonReader.points cs)) :
      (!isExponentMark u) = true ∧ decide (u ≠ 0x2E) = true := by
    obtain ⟨m, there, rfl⟩ := List.mem_map.mp inside
    obtain ⟨c, member, rfl⟩ := List.mem_map.mp there
    have other (d : Char) (ascii : d.toNat < 0x80) (apart : c.toNat ≠ d.toNat) :
        UInt16.ofNat c.toNat ≠ UInt16.ofNat d.toNat := fun same =>
      apart (congrArg Char.toNat ((unit_eq_iff (narrow c member).2 ascii).mp same))
    have small := range c member
    have e := other 'e' (by decide) (by rintro same; rw [same] at small; revert small; decide)
    have upper := other 'E' (by decide) (by rintro same; rw [same] at small; revert small; decide)
    have dot := other '.' (by decide) (by rintro same; rw [same] at small; revert small; decide)
    constructor
    · rw [isExponentMark, Bool.not_eq_true', Bool.or_eq_false_iff, decide_eq_false_iff_not, decide_eq_false_iff_not]
      exact ⟨e, upper⟩
    · exact decide_eq_true dot
  have mantissa : (string (JsonReader.points cs)).takeWhile (fun u => !isExponentMark u) = string (JsonReader.points cs) :=
    List.takeWhile_eq_self_iff.mpr fun u inside => (plain u inside).1
  have exponent : (string (JsonReader.points cs)).dropWhile (fun u => !isExponentMark u) = [] :=
    List.dropWhile_eq_nil_iff.mpr fun u inside => (plain u inside).1
  have whole : (string (JsonReader.points cs)).takeWhile (fun u => decide (u ≠ 0x2E)) = string (JsonReader.points cs) :=
    List.takeWhile_eq_self_iff.mpr fun u inside => (plain u inside).2
  have fraction : (string (JsonReader.points cs)).dropWhile (fun u => decide (u ≠ 0x2E)) = [] :=
    List.dropWhile_eq_nil_iff.mpr fun u inside => (plain u inside).2
  have none : bigInt [] = 0 := rfl
  rw [tokenValue, mantissa, exponent, whole, fraction, List.tail_nil, List.append_nil, List.filter_nil, none,
    bigInt_token token narrow, List.length_nil, pow_zero, zpow_zero, div_one, mul_one]

/-- Of the integer tokens that of 1 passes, and no other. -/
theorem isOne_integer {cs : List Char} {n : Int} (token : IntegerToken cs n) :
    isOne (string (JsonReader.points cs)) = true ↔ n = 1 := by
  rw [isOne, tokenValue_integer token, decide_eq_true_eq]
  constructor
  · rintro ⟨least, most⟩
    have above : (0 : ℚ) < n := by linarith only [least]
    have below : (n : ℚ) < 2 := by linarith only [most]
    have above : 0 < n := by exact_mod_cast above
    have below : n < 2 := by exact_mod_cast below
    omega
  · rintro rfl
    norm_num

/-! ## The gate -/

/-- A session is opened on the objects whose `protocol` is a number that is read as 1 and whose `version` and
`product` are strings, and on nothing else; whatever else comes closes the transport. -/
theorem number_gate_iff (rt : Runtime) (shown : JsString → JsString) (outcome : Except JsError (List UInt8)) :
    (∀ hello, (readHello rt shown outcome).1 = .ok hello ↔
      ∃ line text, outcome = .ok line ∧ decodeText line = .ok text ∧ HelloText text hello ∧
        isOne hello.protocol = true) ∧
    ((readHello rt shown outcome).2 = true ↔ ∃ e, (readHello rt shown outcome).1 = .error e) ∧
    ∀ (cs : List Char) (n : Int) (hello : Hello), IntegerToken cs n →
      hello.protocol = string (JsonReader.points cs) → (isOne hello.protocol = true ↔ n = 1) := by
  refine ⟨fun hello => ?_, ?_, fun cs n hello token same => same ▸ isOne_integer token⟩
  · cases outcome with
    | error e =>
        refine ⟨fun is => (by cases is), ?_⟩
        rintro ⟨line, text, same, _⟩
        cases same
    | ok line =>
        rw [readHello]
        cases decoded : decodeHello rt line with
        | error e =>
            refine ⟨fun is => (by cases is), ?_⟩
            rintro ⟨line', text, same, read, fields, _⟩
            cases same
            cases decoded.symm.trans ((decodeHello_ok_iff rt line hello).mpr ⟨text, read, fields⟩)
        | ok found =>
            dsimp only
            split
            · rename_i one
              constructor
              · intro is
                cases is
                obtain ⟨text, read, fields⟩ := (decodeHello_ok_iff rt line hello).mp decoded
                exact ⟨line, text, rfl, read, fields, one⟩
              · rintro ⟨line', text, same, read, fields, _⟩
                cases same
                exact congrArg _ (Except.ok.inj (decoded.symm.trans
                  ((decodeHello_ok_iff rt line hello).mpr ⟨text, read, fields⟩)))
            · rename_i other
              refine ⟨fun is => (by cases is), ?_⟩
              rintro ⟨line', text, same, read, fields, one⟩
              cases same
              cases decoded.symm.trans ((decodeHello_ok_iff rt line hello).mpr ⟨text, read, fields⟩)
              exact absurd one other
  · have closes {result : Except JsError Hello × Bool}
        (either : (∃ e, result = (.error e, true)) ∨ ∃ hello, result = (.ok hello, false)) :
        result.2 = true ↔ ∃ e, result.1 = .error e := by
      rcases either with ⟨e, rfl⟩ | ⟨hello, rfl⟩
      · exact ⟨fun _ => ⟨e, rfl⟩, fun _ => rfl⟩
      · refine ⟨fun same => (by cases same), ?_⟩
        rintro ⟨e, same⟩
        cases same
    refine closes ?_
    cases outcome with
    | error e => exact .inl ⟨_, rfl⟩
    | ok line =>
        rw [readHello]
        cases decodeHello rt line with
        | error e => exact .inl ⟨e, rfl⟩
        | ok hello =>
            dsimp only
            split
            · exact .inr ⟨hello, rfl⟩
            · exact .inl ⟨_, rfl⟩

end SanDbOxFormal.TypeScript
