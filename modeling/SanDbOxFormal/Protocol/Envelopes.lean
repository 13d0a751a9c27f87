import SanDbOxFormal.Go.Strictness
import SanDbOxFormal.Java.TextFidelity
import SanDbOxFormal.Library.JsonPoints
import SanDbOxFormal.Protocol.RequestAgreement
import SanDbOxFormal.Python.HelloGate
import SanDbOxFormal.Rust.HelloCheck
import SanDbOxFormal.TypeScript.DecodeErrors
import SanDbOxFormal.TypeScript.Session

/-!
# Envelopes

What a response says apart from its results: a success, an error of the server with its
code and message, or neither.  The drivers look at the members of the line one by one,
and differ where a key is there twice or a member has another type.
-/

namespace SanDbOxFormal.Protocol

open SanDbOxFormal.Library
open SanDbOxFormal.Library.Rfc8259 (Json)
open SanDbOxFormal.Library.JsonPoints (pointTree pointMembers pointMembers_eq)
open SanDbOxFormal.Library.JsonUtf16 (unitTree unitMembers)

abbrev Pairs := List (String × Json)

inductive Verdict where
  | success
  | refused (code message : List Char)
  | violation
  deriving DecidableEq

/-- The last member under a key. -/
def last? (pairs : Pairs) (key : String) : Option Json := first? pairs.reverse key

/-- The error that an object holds, looked up so. -/
def errorVerdict (look : Pairs → String → Option Json) (err : Pairs) : Verdict :=
  match look err "code", look err "message" with
  | some (.string code), some (.string message) => .refused code.toList message.toList
  | _, _ => .violation

def errorField (look : Pairs → String → Option Json) (pairs : Pairs) : Verdict :=
  match look pairs "error" with
  | some (.object err) => errorVerdict look err
  | _ => .violation

/-- What the members say to who looks them up so and takes nothing but strings. -/
def verdict (look : Pairs → String → Option Json) (pairs : Pairs) : Verdict :=
  match look pairs "ok" with
  | some (.bool true) => .success
  | _ => errorField look pairs

/-! ## The drivers -/

def rustOutcome {α : Type} : Except Rust.Error α → Verdict
  | .ok _ => .success
  | .error (.response code message) => .refused code.toList message.toList
  | .error _ => .violation

def rustVerdict (line : List UInt8) : Verdict := rustOutcome (Rust.responseFields line)

def typeScriptOutcome {α : Type} : Except TypeScript.JsError α → Verdict
  | .ok _ => .success
  | .error (.response code message) => .refused (Utf16.characters code) (Utf16.characters message)
  | .error _ => .violation

def typeScriptVerdict (rt : TypeScript.Runtime) (line : List UInt8) : Verdict :=
  typeScriptOutcome (TypeScript.callResult rt line)

def pythonOutcome {α : Type} : Except Python.PyError α → Verdict
  | .ok _ => .success
  | .error (.responseError code message) => .refused (code.map Char.ofNat) (message.map Char.ofNat)
  | .error _ => .violation

def pythonVerdict (pf : Python.Platform) (line : List UInt8) : Verdict :=
  pythonOutcome (Python.responseFields pf line)

def goOutcome {α : Type} : Except Go.GoError α → Verdict
  | .ok _ => .success
  | .error (.response code message) =>
      .refused ((Go.codePoints code).map Char.ofNat) ((Go.codePoints message).map Char.ofNat)
  | .error _ => .violation

def goVerdict (line : List UInt8) : Verdict := goOutcome (Go.callResult line)

def javaOutcome {α : Type} : Except Java.Exception α → Verdict
  | .ok _ => .success
  | .error (.response code message) => .refused (Utf16.characters code) (Utf16.characters message)
  | .error _ => .violation

def javaVerdict (jvm : Java.Codec.Jvm) (line : List UInt8) : Verdict := javaOutcome (Java.reply jvm line)

/-! ## Looking up -/

/-- Looking up in an object that holds the members under other names and as other values. -/
theorem first?_mapped {κ ω : Type} [BEq κ] [LawfulBEq κ] {f : String → κ} {g : Json → ω} {key : String} {k : κ}
    (same : ∀ s, f s = k ↔ s = key) (pairs : Pairs) :
    ((pairs.map fun p => (f p.1, g p.2)).find? fun m => m.1 == k).map Prod.snd = (first? pairs key).map g := by
  induction pairs with
  | nil => rfl
  | cons p rest ih =>
      rw [first?] at ih ⊢
      rw [List.map_cons, List.find?_cons, List.find?_cons]
      by_cases own : p.1 = key
      · have hit : (f p.1 == k) = true := beq_iff_eq.mpr ((same _).mpr own)
        rw [hit, beq_iff_eq.mpr own]
        rfl
      · have miss : (f p.1 == k) = false := beq_eq_false_iff_ne.mpr (mt (same _).mp own)
        rw [miss, beq_eq_false_iff_ne.mpr own]
        exact ih

theorem last?_mapped {κ ω : Type} [BEq κ] [LawfulBEq κ] {f : String → κ} {g : Json → ω} {key : String} {k : κ}
    (same : ∀ s, f s = k ↔ s = key) (pairs : Pairs) :
    ((pairs.map fun p => (f p.1, g p.2)).reverse.find? fun m => m.1 == k).map Prod.snd = (last? pairs key).map g := by
  rw [← List.map_reverse, first?_mapped same, last?]

/-- A key that has only ASCII characters. -/
abbrev Narrow (key : String) : Prop := key.toList.all (fun c => c.toNat < 0x80) = true

theorem encode_same {key : String} (s : String) : Utf16.encode s.toList = Utf16.encode key.toList ↔ s = key := by
  constructor
  · intro same
    have characters := congrArg Utf16.characters same
    rw [Utf16.characters_encode, Utf16.characters_encode] at characters
    exact String.toList_inj.mp characters
  · rintro rfl
    rfl

theorem points_same {key : String} (s : String) : JsonReader.points s.toList = JsonReader.points key.toList ↔ s = key := by
  constructor
  · intro same
    have characters := congrArg (List.map Char.ofNat) same
    rw [JsonReader.chars_points, JsonReader.chars_points] at characters
    exact String.toList_inj.mp characters
  · rintro rfl
    rfl

theorem verdict_success {look : Pairs → String → Option Json} {pairs : Pairs}
    (flag : look pairs "ok" = some (.bool true)) : verdict look pairs = .success := by
  rw [verdict, flag]

theorem verdict_other {look : Pairs → String → Option Json} {pairs : Pairs}
    (flag : look pairs "ok" ≠ some (.bool true)) : verdict look pairs = errorField look pairs := by
  unfold verdict
  split
  · rename_i found
    exact absurd found flag
  · rfl

theorem flag_off {o : Option Json} {f : Json → Option Bool} (only : ∀ v, f v = some true → v = .bool true)
    (off : o ≠ some (.bool true)) : ¬ (o.bind f).getD false = true := by
  intro is
  cases o with
  | none => cases is
  | some v =>
      rw [Option.bind_some] at is
      cases read : f v with
      | none =>
          rw [read] at is
          cases is
      | some b =>
          rw [read] at is
          cases is
          exact off (congrArg some (only v read))

/-! ## Rust -/

/-- The end of a call whose response is no success. -/
def rustFailure (pairs : Pairs) : Except Rust.Error Json :=
  (Rust.Codec.responseError? (.object pairs)).elim
    (.error (.protocol "response has ok=false with no error field")) .error

theorem rustFailure_verdict (pairs : Pairs) : rustOutcome (rustFailure pairs) = errorField first? pairs := by
  rw [rustFailure, Rust.Codec.responseError?, Rust.get?_object, errorField]
  cases first? pairs "error" with
  | none => rfl
  | some e =>
      cases e with
      | object err =>
          change rustOutcome (Option.elim (do
            let code ← (first? err "code").bind Rust.Codec.Json.asStr?
            let message ← (first? err "message").bind Rust.Codec.Json.asStr?
            some (Rust.Error.response code message)) _ _) = errorVerdict first? err
          rw [errorVerdict]
          cases first? err "code" with
          | none => rfl
          | some code =>
              cases code with
              | string c =>
                  cases first? err "message" with
                  | none => rfl
                  | some message => cases message <;> rfl
              | _ => rfl
      | _ => rfl

theorem rust_verdict {line : List UInt8} {cs : List Char} {pairs : Pairs} (bytes : line = Utf8.encode cs)
    (text : Rfc8259.Text cs (.object pairs)) : rustVerdict line = verdict first? pairs := by
  have parsed := Rust.Codec.Json.parse_ok_iff.mpr ⟨cs, bytes, text⟩
  have fields : Rust.responseFields line =
      if ((first? pairs "ok").bind Rust.Codec.Json.asBool?).getD false then .ok (.object pairs)
      else rustFailure pairs := by
    rw [Rust.responseFields, Rust.Codec.decodeResponseLine, Rust.parseLine_ok_iff.mpr parsed]
    change (if ((first? pairs "ok").bind Rust.Codec.Json.asBool?).getD false = true then _ else _) = _
    split
    · rfl
    · rw [rustFailure]
      cases Rust.Codec.responseError? (.object pairs) <;> rfl
  rw [rustVerdict, fields]
  by_cases flag : first? pairs "ok" = some (.bool true)
  · rw [verdict_success flag, flag]
    rfl
  · rw [verdict_other flag, if_neg (flag_off (fun v is => ?_) flag), rustFailure_verdict]
    cases v <;> cases is
    rfl

/-! ## Java -/

theorem javaMembers_eq (pairs : Pairs) :
    javaMembers pairs = pairs.map fun p => (Utf16.encode p.1.toList, javaTree p.2) := by
  induction pairs with
  | nil => rfl
  | cons p rest ih =>
      obtain ⟨key, v⟩ := p
      rw [javaMembers, ih, List.map_cons]

theorem java_get {key : String} (narrow : Narrow key) (pairs : Pairs) :
    Java.Codec.get (javaTree (.object pairs)) key = (first? pairs key).map javaTree := by
  change ((javaMembers pairs).find? fun m => m.1 == Java.lit key).map Prod.snd = _
  rw [javaMembers_eq, Java.lit, Utf16.encode_narrow narrow]
  exact first?_mapped (f := fun s => Utf16.encode s.toList) encode_same pairs

def javaFailure (v : Java.Codec.Json) : Except Java.Exception Java.Codec.DecodedResponse :=
  (Java.Codec.responseError? ⟨false, v⟩).elim
    (.error (.protocolViolation (Java.lit "response has ok=false with no error field")))
    fun e => .error (.response e.1 e.2)

theorem javaFailure_verdict (pairs : Pairs) :
    javaOutcome (javaFailure (javaTree (.object pairs))) = errorField first? pairs := by
  rw [javaFailure, Java.Codec.responseError?, java_get rfl, errorField]
  cases first? pairs "error" with
  | none => rfl
  | some e =>
      cases e with
      | object err =>
          change javaOutcome (Option.elim (do
            let code ← (Java.Codec.get (javaTree (.object err)) "code").bind Java.Codec.asStr
            let message ← (Java.Codec.get (javaTree (.object err)) "message").bind Java.Codec.asStr
            some (code, message)) _ _) = errorVerdict first? err
          rw [errorVerdict, java_get rfl, java_get rfl]
          cases first? err "code" with
          | none => rfl
          | some code =>
              cases code with
              | string c =>
                  cases first? err "message" with
                  | none => rfl
                  | some message =>
                      cases message with
                      | string m =>
                          change Verdict.refused (Utf16.characters (Utf16.encode c.toList))
                            (Utf16.characters (Utf16.encode m.toList)) = _
                          rw [Utf16.characters_encode, Utf16.characters_encode]
                      | _ => rfl
              | _ => rfl
      | _ => rfl

/-- What the parser takes of the text is the tree of its value. -/
theorem java_tree {jvm : Java.Codec.Jvm} (lawful : jvm.Lawful) {cs : List Char} {v : Json} {w : Java.Codec.Json}
    (text : Rfc8259.Text cs v)
    (taken : Java.Codec.JsonParser.parse jvm.stack (jvm.newString (Utf8.encode cs)) = .ok w) : w = javaTree v := by
  rw [lawful.whole] at taken
  have written := (JsonReader.read_iff rfl rfl).mpr (Java.parse_ok_iff.mp taken)
  obtain ⟨depth, read⟩ := JsonUtf16.text_read text
  have same := JsonReader.read_unique (.refl JsonReader.strictUnits) (.refl _) written (read depth (Nat.le_refl _))
  exact treeOf_injective _ _ (same.trans (treeOf_javaTree v).symm)

theorem java_verdict {jvm : Java.Codec.Jvm} (lawful : jvm.Lawful) {line : List UInt8} {cs : List Char} {pairs : Pairs}
    (bytes : line = Utf8.encode cs) (text : Rfc8259.Text cs (.object pairs))
    (taken : ∃ w, Java.Codec.JsonParser.parse jvm.stack (jvm.newString line) = .ok w) :
    javaVerdict jvm line = verdict first? pairs := by
  obtain ⟨w, parsed⟩ := taken
  rw [bytes] at parsed
  cases java_tree lawful text parsed
  have reply : Java.reply jvm line =
      if ((Java.Codec.get (javaTree (.object pairs)) "ok").bind Java.Codec.asBool).getD false then
        .ok ⟨true, javaTree (.object pairs)⟩
      else javaFailure (javaTree (.object pairs)) := by
    rw [Java.reply, Java.Codec.responseLine, Java.Codec.parseLine, bytes, parsed]
    change (if ((Java.Codec.get (javaTree (.object pairs)) "ok").bind Java.Codec.asBool).getD false = true
      then Except.ok _ else _) = _
    split
    · rename_i flag
      rw [flag]
    · have same (b : Bool) : Java.Codec.responseError? ⟨b, javaTree (.object pairs)⟩ =
          Java.Codec.responseError? ⟨false, javaTree (.object pairs)⟩ := rfl
      rw [javaFailure, same]
      cases Java.Codec.responseError? ⟨false, javaTree (.object pairs)⟩ <;> rfl
  rw [javaVerdict, reply, java_get rfl]
  by_cases flag : first? pairs "ok" = some (.bool true)
  · rw [verdict_success flag, flag]
    rfl
  · rw [verdict_other flag, Option.bind_map, if_neg (flag_off (fun v is => ?_) flag), javaFailure_verdict]
    cases v <;> cases is
    rfl

/-! ## TypeScript -/

theorem unitMembers_eq (pairs : Pairs) :
    unitMembers pairs = pairs.map fun p => (JsonUtf16.units p.1.toList, unitTree p.2) := by
  induction pairs with
  | nil => rfl
  | cons p rest ih =>
      obtain ⟨key, v⟩ := p
      rw [unitMembers, ih, List.map_cons]

/-- A property of the object that is constructed, before the walk. -/
theorem typeScript_property {key : String} (narrow : Narrow key) (pairs : Pairs) :
    TypeScript.property (TypeScript.Fields.ordered (TypeScript.constructMembers [] (unitMembers pairs)))
      (TypeScript.lit key) = (last? pairs key).map fun v => TypeScript.construct (unitTree v) := by
  have named (s : String) : TypeScript.string (JsonUtf16.units s.toList) = TypeScript.lit key ↔ s = key := by
    rw [JsonUtf16.units, TypeScript.string_units, TypeScript.lit, Utf16.encode_narrow narrow]
    exact encode_same s
  rw [TypeScript.property_object, TypeScript.lastNamed?, unitMembers_eq, ← List.map_reverse, last?,
    ← first?_mapped named pairs.reverse]
  simp only [List.find?_map, Option.map_map, Function.comp_def]

/-- What the walk makes of the value of one key. -/
structure Revived (depth : ℕ) (fields fields' : TypeScript.Fields) : Prop where
  none : ∀ key, TypeScript.property fields key = Option.none → TypeScript.property fields' key = Option.none
  some : ∀ key v, TypeScript.property fields key = Option.some v →
    ∃ w, TypeScript.revive depth v = .ok w ∧ TypeScript.property fields' key = Option.some w

theorem reviveMembers_revived {depth : ℕ} {fields fields' : TypeScript.Fields}
    (walked : TypeScript.reviveMembers depth fields = .ok fields') : Revived depth fields fields' := by
  induction fields generalizing fields' with
  | nil =>
      rw [TypeScript.reviveMembers] at walked
      cases walked
      exact ⟨fun _ absent => absent, fun key v found => (by cases found)⟩
  | cons member rest ih =>
      obtain ⟨name, v⟩ := member
      rw [TypeScript.reviveMembers] at walked
      obtain ⟨w, first, walked⟩ := bind_ok_iff.mp walked
      obtain ⟨more, later, same⟩ := bind_ok_iff.mp walked
      cases same
      obtain ⟨none, some⟩ := ih later
      refine ⟨fun key absent => ?_, fun key u found => ?_⟩
      · rw [TypeScript.property_cons] at absent ⊢
        split_ifs at absent ⊢ with own
        exact none key absent
      · rw [TypeScript.property_cons] at found ⊢
        split_ifs at found ⊢ with own
        · cases found
          exact ⟨w, first, rfl⟩
        · exact some key u found

/-- The fields of an object as the walk leaves them. -/
structure Shown (pairs : Pairs) (fields : TypeScript.Fields) : Prop where
  absent : ∀ key, Narrow key → last? pairs key = none → TypeScript.property fields (TypeScript.lit key) = none
  found : ∀ key v, Narrow key → last? pairs key = some v → ∃ depth w,
    TypeScript.revive depth (TypeScript.construct (unitTree v)) = .ok w ∧
      TypeScript.property fields (TypeScript.lit key) = some w

theorem revived_object {depth : ℕ} {pairs : Pairs} {w : TypeScript.JsValue}
    (walked : TypeScript.revive depth (TypeScript.construct (unitTree (.object pairs))) = .ok w) :
    ∃ fields, w = .object fields ∧ Shown pairs fields := by
  rw [unitTree, TypeScript.construct] at walked
  cases depth with
  | zero =>
      rw [TypeScript.revive] at walked
      cases walked
  | succ n =>
      rw [TypeScript.revive] at walked
      obtain ⟨fields, inner, same⟩ := bind_ok_iff.mp walked
      cases same
      obtain ⟨none, some⟩ := reviveMembers_revived inner
      refine ⟨fields, rfl, fun key narrow absent => none _ ?_, fun key v narrow found => ?_⟩
      · rw [typeScript_property narrow, absent]
        rfl
      · have there := typeScript_property narrow pairs
        rw [found] at there
        obtain ⟨w, one, two⟩ := some _ _ there
        exact ⟨n, w, one, two⟩

/-- A value as the walk leaves it. -/
inductive Walked : Json → TypeScript.JsValue → Prop where
  | bool (b : Bool) : Walked (.bool b) (.bool b)
  | string (s : String) : Walked (.string s) (.string (Utf16.encode s.toList))
  | object {pairs : Pairs} {fields : TypeScript.Fields} (shown : Shown pairs fields) :
      Walked (.object pairs) (.object fields)
  | null : Walked .null .null
  | number (n : Rfc8259.NumberToken) (token : TypeScript.JsString) : Walked (.number n) (.number token)
  | integer (n : Rfc8259.NumberToken) (i : ℤ) : Walked (.number n) (.bigint i)
  | array (items : List Json) (vs : List TypeScript.JsValue) : Walked (.array items) (.array vs)

theorem revive_walked {depth : ℕ} {v : Json} {w : TypeScript.JsValue}
    (walked : TypeScript.revive depth (TypeScript.construct (unitTree v)) = .ok w) : Walked v w := by
  cases v with
  | null =>
      rw [unitTree, TypeScript.construct, TypeScript.revive] at walked
      cases walked
      exact .null
  | bool b =>
      rw [unitTree, TypeScript.construct, TypeScript.revive] at walked
      cases walked
      exact .bool b
  | number n =>
      rw [unitTree, TypeScript.construct, TypeScript.revive, TypeScript.valueNumberPolicy] at walked
      split_ifs at walked
      · cases walked
        exact .number n _
      · cases walked
        exact .integer n _
  | string s =>
      rw [unitTree, TypeScript.construct, TypeScript.revive, JsonUtf16.units, TypeScript.string_units] at walked
      cases walked
      exact .string s
  | array items =>
      rw [unitTree, TypeScript.construct] at walked
      cases depth with
      | zero =>
          rw [TypeScript.revive] at walked
          cases walked
      | succ n =>
          rw [TypeScript.revive] at walked
          obtain ⟨vs, _, same⟩ := bind_ok_iff.mp walked
          cases same
          exact .array items vs
  | object pairs =>
      obtain ⟨fields, rfl, shown⟩ := revived_object walked
      exact .object shown

theorem Shown.walked {pairs : Pairs} {fields : TypeScript.Fields} (shown : Shown pairs fields) {key : String} {v : Json}
    (narrow : Narrow key) (found : last? pairs key = some v) :
    ∃ w, Walked v w ∧ TypeScript.property fields (TypeScript.lit key) = some w := by
  obtain ⟨depth, w, walked, there⟩ := shown.found key v narrow found
  exact ⟨w, revive_walked walked, there⟩

/-- The end of a call, on the fields of its response. -/
def typeScriptCall (fields : TypeScript.Fields) : Except TypeScript.JsError TypeScript.Fields :=
  let response := TypeScript.envelope fields
  if response.ok then .ok response.fields
  else response.error.elim
    (.error (.protocol (TypeScript.lit "response has ok=false with no error field"))) .error

/-- The error that the fields hold. -/
def typeScriptError (fields : TypeScript.Fields) : Option TypeScript.JsError :=
  match TypeScript.property fields (TypeScript.lit "code"), TypeScript.property fields (TypeScript.lit "message") with
  | some (.string code), some (.string message) => some (.response code message)
  | _, _ => none

theorem shown_error {err : Pairs} {fields : TypeScript.Fields} (shown : Shown err fields) (m : TypeScript.JsString) :
    typeScriptOutcome ((typeScriptError fields).elim (.error (.protocol m)) .error : Except _ TypeScript.Fields) =
      errorVerdict last? err := by
  rw [typeScriptError, errorVerdict]
  cases code : last? err "code" with
  | none =>
      rw [shown.absent _ rfl code]
      rfl
  | some c =>
      obtain ⟨w, walked, found⟩ := shown.walked rfl code
      rw [found]
      cases walked with
      | string s =>
          cases message : last? err "message" with
          | none =>
              rw [shown.absent _ rfl message]
              rfl
          | some m' =>
              obtain ⟨w', walked', found'⟩ := shown.walked rfl message
              rw [found']
              cases walked' with
              | string t =>
                  change Verdict.refused (Utf16.characters (Utf16.encode s.toList))
                    (Utf16.characters (Utf16.encode t.toList)) = _
                  rw [Utf16.characters_encode, Utf16.characters_encode]
              | _ => rfl
      | _ => rfl

def typeScriptFailure? (fields : TypeScript.Fields) : Option TypeScript.JsError :=
  match TypeScript.property fields (TypeScript.lit "error") with
  | some (.object err) => typeScriptError err
  | _ => none

theorem envelope_off {fields : TypeScript.Fields}
    (off : TypeScript.property fields (TypeScript.lit "ok") ≠ some (.bool true)) :
    TypeScript.envelope fields = ⟨false, fields, typeScriptFailure? fields⟩ := by
  unfold TypeScript.envelope
  split
  · rename_i found
    exact absurd found off
  · rw [typeScriptFailure?]
    cases TypeScript.property fields (TypeScript.lit "error") with
    | none => rfl
    | some e =>
        cases e with
        | object err =>
            dsimp only
            rw [typeScriptError]
            cases TypeScript.property err (TypeScript.lit "code") with
            | none => rfl
            | some code =>
                cases code with
                | string c =>
                    cases TypeScript.property err (TypeScript.lit "message") with
                    | none => rfl
                    | some message =>
                        cases message with
                        | _ => rfl
                | _ => rfl
        | _ => rfl

theorem shown_verdict {pairs : Pairs} {fields : TypeScript.Fields} (shown : Shown pairs fields) :
    typeScriptOutcome (typeScriptCall fields) = verdict last? pairs := by
  by_cases flag : last? pairs "ok" = some (.bool true)
  · obtain ⟨w, walked, found⟩ := shown.walked rfl flag
    cases walked
    rw [typeScriptCall, TypeScript.envelope, found, verdict_success flag]
    rfl
  · have off : TypeScript.property fields (TypeScript.lit "ok") ≠ some (.bool true) := by
      cases ok : last? pairs "ok" with
      | none =>
          rw [shown.absent _ rfl ok]
          rintro ⟨⟩
      | some v =>
          obtain ⟨w, walked, found⟩ := shown.walked rfl ok
          rw [found]
          rintro ⟨⟩
          cases walked
          exact flag ok
    rw [typeScriptCall, envelope_off off, verdict_other flag, errorField, typeScriptFailure?]
    cases error : last? pairs "error" with
    | none =>
        rw [shown.absent _ rfl error]
        rfl
    | some e =>
        obtain ⟨w, walked, found⟩ := shown.walked rfl error
        rw [found]
        cases walked with
        | object inner => exact shown_error inner _
        | _ => rfl

/-- The text of an object in UTF-8 is decoded to its units. -/
theorem typeScript_units {cs : List Char} {pairs : Pairs} (text : Rfc8259.Text cs (.object pairs)) :
    TypeScript.decodeText (Utf8.encode cs) = .ok (Utf16.encode cs) := by
  obtain ⟨depth, read⟩ := JsonUtf16.text_read text
  have object : ObjectText JsonReader.strictUnits (JsonUtf16.units cs) (unitMembers pairs) :=
    ⟨depth, read depth (Nat.le_refl _)⟩
  obtain ⟨a, b, rest, shape, plain, _⟩ := object.start
  have unmarked : (Utf16.encode cs).head? ≠ some 0xFEFF := by
    intro marked
    obtain ⟨more, is⟩ := List.head?_eq_some_iff.mp marked
    rw [JsonUtf16.units, is] at shape
    obtain ⟨head, _⟩ := List.cons.inj shape
    obtain ⟨_, small⟩ := plain
    rw [← head] at small
    exact absurd small (by decide)
  have decoded := TypeScript.decodeText_encodeText ⟨cs, rfl⟩ unmarked
  rwa [TypeScript.encodeText, Utf16.characters_encode] at decoded

theorem typeScript_verdict {rt : TypeScript.Runtime} {line : List UInt8} {cs : List Char} {pairs : Pairs}
    (bytes : line = Utf8.encode cs) (text : Rfc8259.Text cs (.object pairs))
    (taken : ∃ v, TypeScript.parseJsonPreservingNumbers rt (Utf16.encode cs) = .ok v) :
    typeScriptVerdict rt line = verdict last? pairs := by
  obtain ⟨v, parsed⟩ := taken
  have decoded := typeScript_units text
  have walked : TypeScript.revive rt.reviveDepth (TypeScript.construct (unitTree (.object pairs))) = .ok v := by
    rw [TypeScript.parseJsonPreservingNumbers] at parsed
    split at parsed
    · rename_i tree read
      obtain ⟨depth, read'⟩ := JsonUtf16.text_read text
      have same := JsonReader.read_unique (.refl JsonReader.strictUnits) (.refl _) read (read' depth (Nat.le_refl _))
      rwa [same] at parsed
    · cases parsed
  obtain ⟨fields, rfl, shown⟩ := revived_object walked
  have called : TypeScript.callResult rt line = typeScriptCall fields := by
    have response : TypeScript.decodeResponseLine rt line = .ok (TypeScript.envelope fields) := by
      rw [TypeScript.decodeResponseLine, bytes, decoded]
      change TypeScript.decodeResponseText rt (Utf16.encode cs) = _
      rw [TypeScript.decodeResponseText, parsed]
    rw [TypeScript.callResult, response, typeScriptCall]
    change (if (TypeScript.envelope fields).ok = true then _ else _) = _
    split
    · rfl
    · cases (TypeScript.envelope fields).error <;> rfl
  rw [typeScriptVerdict, called, shown_verdict shown]

/-! ## Code points -/

theorem lastMember?_points (pairs : Pairs) (key : String) :
    lastMember? (pointMembers pairs) key = (last? pairs key).map pointTree := by
  rw [pointMembers_eq]
  exact last?_mapped (f := fun s => JsonReader.points s.toList) (k := JsonReader.units key) points_same pairs

/-! ## Python -/

theorem python_lookup (pairs : Pairs) (key : String) :
    Python.lookup (Python.dict [] (pointMembers pairs)) (Python.lit key) =
      (last? pairs key).map fun v => Python.value (pointTree v) := by
  rw [Python.lookup_dict, lastMember?_points, Python.lookup_nil, Option.or_none, Option.map_map]
  rfl

/-- What `json.loads` makes of the line of an object. -/
theorem python_loads {rt : Python.Runtime} {cs : List Char} {pairs : Pairs} {v : Python.PyValue}
    (text : Rfc8259.Text cs (.object pairs)) (loaded : Python.loads rt true (Utf8.encode cs) = .ok v) :
    v = .dict (Python.dict [] (pointMembers pairs)) := by
  obtain ⟨depth, read⟩ := JsonPoints.text_read text
  have taken := read depth (Nat.le_refl _)
  have object : ObjectText JsonReader.strictPoints (cs.map Char.toNat) (pointMembers pairs) := ⟨depth, taken⟩
  have decoded := Python.decodeBytes_object object
  unfold Python.loads at loaded
  rw [decoded] at loaded
  dsimp only at loaded
  split at loaded
  · rename_i tree read'
    cases JsonReader.read_unique (Python.dialect_lenient rt true) Python.strict_lenient read' taken
    cases loaded
    rfl
  · cases loaded
  · cases loaded
  · cases loaded

/-- The code and the message of an error are strings, where both are there. -/
def Spoken (pairs : Pairs) : Prop :=
  ∀ err code message, last? pairs "error" = some (.object err) → last? err "code" = some code →
    last? err "message" = some message → ∃ c m, code = .string c ∧ message = .string m

/-- The end of a call, on its response. -/
def pythonEnd (response : Python.Response) : Except Python.PyError Python.Dict :=
  if response.ok then .ok response.fields
  else response.error.elim
    (.error (.protocolError (Python.lit "response has ok=false with no error field"))) .error

theorem value_true_iff {v : Json} : Python.value (pointTree v) = .bool true ↔ v = .bool true := by
  cases v with
  | number n =>
      rw [pointTree, Python.value]
      split <;> simp
  | _ => simp [pointTree, Python.value]

theorem python_error {pf : Python.Platform} {pairs : Pairs} (spoken : Spoken pairs)
    (flag : last? pairs "ok" ≠ some (.bool true)) :
    pythonOutcome (Python.envelope pf.toRuntime (Python.dict [] (pointMembers pairs)) >>= pythonEnd) =
      errorField last? pairs := by
  unfold Python.envelope
  split
  · rename_i found
    rw [python_lookup] at found
    obtain ⟨v, there, is⟩ := Option.map_eq_some_iff.mp found
    rw [value_true_iff] at is
    exact absurd (is ▸ there) flag
  · rw [python_lookup, errorField]
    cases error : last? pairs "error" with
    | none => rfl
    | some e =>
        rw [Option.map_some]
        cases e with
        | object err =>
            have dict : Python.value (pointTree (.object err)) = .dict (Python.dict [] (pointMembers err)) := rfl
            rw [dict]
            dsimp only
            rw [python_lookup, python_lookup, errorVerdict]
            cases code : last? err "code" with
            | none => rfl
            | some c =>
                cases message : last? err "message" with
                | none => cases c <;> rfl
                | some m =>
                    obtain ⟨s, t, rfl, rfl⟩ := spoken err c m error code message
                    change Verdict.refused ((JsonReader.points s.toList).map Char.ofNat)
                      ((JsonReader.points t.toList).map Char.ofNat) = _
                    rw [JsonReader.chars_points, JsonReader.chars_points]
        | number n =>
            rw [pointTree, Python.value]
            by_cases real : Python.isReal (JsonReader.points n.raw.toList) = true
            · rw [if_pos real]
              rfl
            · rw [if_neg real]
              rfl
        | _ => rfl

theorem python_verdict {pf : Python.Platform} {line : List UInt8} {cs : List Char} {pairs : Pairs}
    (bytes : line = Utf8.encode cs) (text : Rfc8259.Text cs (.object pairs))
    (spoken : last? pairs "ok" ≠ some (.bool true) → Spoken pairs)
    (taken : ∃ v, Python.loads pf.toRuntime true line = .ok v) : pythonVerdict pf line = verdict last? pairs := by
  obtain ⟨v, loaded⟩ := taken
  have dict := python_loads text (bytes ▸ loaded)
  have fields : Python.responseFields pf line =
      Python.envelope pf.toRuntime (Python.dict [] (pointMembers pairs)) >>= pythonEnd := by
    have response : Python.decodeResponseLine pf.toRuntime pf.shown line =
        Python.envelope pf.toRuntime (Python.dict [] (pointMembers pairs)) := by
      rw [Python.decodeResponseLine, loaded, dict]
      rfl
    rw [Python.responseFields, response]
    refine congrArg _ (funext fun r => ?_)
    rw [pythonEnd]
    split
    · rfl
    · cases r.error <;> rfl
  rw [pythonVerdict, fields]
  by_cases flag : last? pairs "ok" = some (.bool true)
  · have success : Python.envelope pf.toRuntime (Python.dict [] (pointMembers pairs)) =
        .ok ⟨true, Python.dict [] (pointMembers pairs), none⟩ := by
      unfold Python.envelope
      rw [python_lookup, flag]
      rfl
    rw [success, verdict_success flag]
    rfl
  · rw [verdict_other flag, python_error (spoken flag) flag]

/-! ## Go -/

theorem go_field {key : String} (pairs : Pairs) :
    Go.rawField (Go.fieldsOf (pointMembers pairs)) key = (last? pairs key).map pointTree := by
  have named (s : String) : Go.text (JsonReader.points s.toList) = Go.lit key ↔ s = key := by
    rw [Go.text_points, Go.lit, ← Utf8.bytes_eq_encode]
    exact ⟨Utf8.bytes_injective, fun same => congrArg Utf8.bytes same⟩
  rw [← last?_mapped named pairs, Go.rawField, Go.fieldsOf, pointMembers_eq, List.map_map]
  rfl

theorem go_parse {cs : List Char} {v : Json} {t : JsonReader.Tree} (text : Rfc8259.Text cs v)
    (parsed : Go.parse (Utf8.encode cs) = .ok t) : t = pointTree v := by
  obtain ⟨depth, read⟩ := JsonPoints.text_read text
  rw [Go.parse, Go.codePoints_encode] at parsed
  split at parsed
  · rename_i t' read'
    cases parsed
    exact JsonReader.read_unique (.refl JsonReader.strictPoints) (.refl _) read' (read depth (Nat.le_refl _))
  · cases parsed

/-- Two keys that Go takes for the same field. -/
def Alike (key name : String) : Prop := Go.foldName (Go.lit key) = Go.foldName (Go.lit name)

theorem Alike.of_eq {key name : String} (same : key = name) : Alike key name := by
  rw [Alike, same]

/-- The object of an error: its code and message are strings, and no other key is taken for one of the two. -/
structure Exact (err : Pairs) (c m : String) : Prop where
  code : ("code", .string c) ∈ err
  message : ("message", .string m) ∈ err
  codes : ∀ key v, (key, v) ∈ err → Alike key "code" → key = "code" ∧ v = .string c
  messages : ∀ key v, (key, v) ∈ err → Alike key "message" → key = "message" ∧ v = .string m

theorem go_named (key : String) : Go.text (JsonReader.points key.toList) = Go.lit key := by
  rw [Go.text_points, Go.lit, Utf8.bytes_eq_encode]

theorem not_named {key : String} (code : ¬ Alike key "code") (message : ¬ Alike key "message") :
    Go.fieldNamed Go.ErrorObject.names (Go.lit key) = none := by
  have exact (name : String) (other : ¬ Alike key name) : (Go.lit name == Go.lit key) = false :=
    beq_eq_false_iff_ne.mpr fun same => other (congrArg Go.foldName same.symm)
  have folded (name : String) (other : ¬ Alike key name) :
      (Go.foldName (Go.lit name) == Go.foldName (Go.lit key)) = false :=
    beq_eq_false_iff_ne.mpr fun same => other same.symm
  rw [Go.fieldNamed, Go.ErrorObject.names]
  simp [exact _ code, exact _ message, folded _ code, folded _ message]

theorem names_apart : "code" ≠ "message" := by decide

/-- The members of an error are read into its struct. -/
theorem go_assigned {c m : String} {members : Pairs}
    (codes : ∀ key v, (key, v) ∈ members → Alike key "code" → key = "code" ∧ v = .string c)
    (messages : ∀ key v, (key, v) ∈ members → Alike key "message" → key = "message" ∧ v = .string m)
    (e : Go.ErrorObject) :
    ∃ e', Go.unmarshalMembers Go.ErrorObject.names Go.ErrorObject.assign e (pointMembers members) = .ok e' ∧
      (("code", .string c) ∈ members ∨ e.code = Go.lit c → e'.code = Go.lit c) ∧
      (("message", .string m) ∈ members ∨ e.message = Go.lit m → e'.message = Go.lit m) := by
  induction members generalizing e with
  | nil =>
      refine ⟨e, rfl, ?_, ?_⟩
      · rintro (inside | kept)
        · cases inside
        · exact kept
      · rintro (inside | kept)
        · cases inside
        · exact kept
  | cons member rest ih =>
      obtain ⟨key, v⟩ := member
      have step : ∃ e₁, Go.unmarshalMember Go.ErrorObject.names Go.ErrorObject.assign e
            (JsonReader.points key.toList) (pointTree v) = .ok e₁ ∧
          ((key, v) = ("code", .string c) ∨ e.code = Go.lit c → e₁.code = Go.lit c) ∧
          ((key, v) = ("message", .string m) ∨ e.message = Go.lit m → e₁.message = Go.lit m) := by
        rw [Go.unmarshalMember, go_named]
        by_cases code : Alike key "code"
        · obtain ⟨rfl, rfl⟩ := codes key v List.mem_cons_self code
          refine ⟨⟨Go.lit c, e.message⟩, ?_, fun _ => rfl, ?_⟩
          · rw [← go_named c]
            rfl
          · rintro (same | kept)
            · exact absurd (congrArg Prod.fst same) names_apart
            · exact kept
        · by_cases message : Alike key "message"
          · obtain ⟨rfl, rfl⟩ := messages key v List.mem_cons_self message
            refine ⟨⟨e.code, Go.lit m⟩, ?_, ?_, fun _ => rfl⟩
            · rw [← go_named m]
              rfl
            · rintro (same | kept)
              · exact absurd (congrArg Prod.fst same).symm names_apart
              · exact kept
          · rw [not_named code message]
            refine ⟨e, rfl, ?_, ?_⟩
            · rintro (same | kept)
              · exact absurd (.of_eq (congrArg Prod.fst same)) code
              · exact kept
            · rintro (same | kept)
              · exact absurd (.of_eq (congrArg Prod.fst same)) message
              · exact kept
      obtain ⟨e₁, first, code, message⟩ := step
      obtain ⟨e', later, code', message'⟩ := ih (fun key v inside => codes key v (List.mem_cons_of_mem _ inside))
        (fun key v inside => messages key v (List.mem_cons_of_mem _ inside)) e₁
      refine ⟨e', ?_, ?_, ?_⟩
      · rw [pointMembers, Go.unmarshalMembers, first]
        exact later
      · rintro (inside | kept)
        · rcases List.mem_cons.mp inside with same | more
          · exact code' (.inr (code (.inl same.symm)))
          · exact code' (.inl more)
        · exact code' (.inr (code (.inr kept)))
      · rintro (inside | kept)
        · rcases List.mem_cons.mp inside with same | more
          · exact message' (.inr (message (.inl same.symm)))
          · exact message' (.inl more)
        · exact message' (.inr (message (.inr kept)))

theorem go_error {err : Pairs} {c m : String} (exact : Exact err c m) :
    Go.unmarshalStruct Go.ErrorObject.names Go.ErrorObject.assign Go.ErrorObject.zero (pointTree (.object err)) =
      .ok ⟨Go.lit c, Go.lit m⟩ := by
  obtain ⟨e, read, code, message⟩ := go_assigned exact.codes exact.messages Go.ErrorObject.zero
  refine read.trans (congrArg Except.ok ?_)
  have first := code (.inl exact.code)
  have second := message (.inl exact.message)
  cases e
  cases first
  cases second
  rfl

/-! ## Envelopes that say the same to all -/

/-- The envelope of a response as the server is to send it: `ok` is a Boolean, `error` an object, its `code` and its
`message` strings, and each key that decides has one value only. -/
inductive Conforming (pairs : Pairs) : Verdict → Prop where
  | success (there : ∃ v, ("ok", v) ∈ pairs) (only : ∀ v, ("ok", v) ∈ pairs → v = .bool true) :
      Conforming pairs .success
  | refused {err : Pairs} {c m : String} (off : ∀ v, ("ok", v) ∈ pairs → v = .bool false)
      (there : ∃ v, ("error", v) ∈ pairs) (only : ∀ v, ("error", v) ∈ pairs → v = .object err) (exact : Exact err c m) :
      Conforming pairs (.refused c.toList m.toList)
  | bare (off : ∀ v, ("ok", v) ∈ pairs → v = .bool false) (none : ∀ v, ("error", v) ∉ pairs) :
      Conforming pairs .violation

theorem first?_mem {pairs : Pairs} {key : String} {v : Json} (found : first? pairs key = some v) : (key, v) ∈ pairs := by
  obtain ⟨p, there, rfl⟩ := Option.map_eq_some_iff.mp found
  have hit := List.find?_some there
  have own : p.1 = key := beq_iff_eq.mp hit
  rw [← own]
  exact List.mem_of_find?_eq_some there

theorem first?_isSome {pairs : Pairs} {key : String} {v : Json} (inside : (key, v) ∈ pairs) :
    ∃ w, first? pairs key = some w := by
  rw [first?]
  cases found : pairs.find? fun p => p.1 == key with
  | none => exact absurd (beq_iff_eq.mpr rfl) (List.find?_eq_none.mp found _ inside)
  | some p => exact ⟨p.2, rfl⟩

/-- Where a key has one value only, it does not matter who looks it up. -/
structure Looks (look : Pairs → String → Option Json) : Prop where
  mem : ∀ pairs key v, look pairs key = some v → (key, v) ∈ pairs
  isSome : ∀ pairs key v, (key, v) ∈ pairs → ∃ w, look pairs key = some w

theorem first_looks : Looks first? := ⟨fun _ _ _ => first?_mem, fun _ _ _ => first?_isSome⟩

theorem last_looks : Looks last? :=
  ⟨fun _ _ _ found => List.mem_reverse.mp (first?_mem found), fun _ _ _ inside => first?_isSome (List.mem_reverse.mpr inside)⟩

namespace Looks

variable {look : Pairs → String → Option Json} {pairs : Pairs} {key : String} {v : Json}

theorem only (looks : Looks look) (there : ∃ w, (key, w) ∈ pairs) (only : ∀ w, (key, w) ∈ pairs → w = v) :
    look pairs key = some v := by
  obtain ⟨w, inside⟩ := there
  obtain ⟨u, found⟩ := looks.isSome pairs key w inside
  rw [found, only u (looks.mem pairs key u found)]

theorem none (looks : Looks look) (none : ∀ w, (key, w) ∉ pairs) : look pairs key = Option.none := by
  cases found : look pairs key with
  | none => rfl
  | some w => exact absurd (looks.mem pairs key w found) (none w)

theorem off (looks : Looks look) (off : ∀ w, (key, w) ∈ pairs → w = .bool false) :
    look pairs key ≠ some (.bool true) := by
  intro found
  cases off _ (looks.mem pairs key _ found)

theorem exact (looks : Looks look) {err : Pairs} {c m : String} (exact : Exact err c m) :
    look err "code" = some (.string c) ∧ look err "message" = some (.string m) :=
  ⟨looks.only ⟨_, exact.code⟩ fun w inside => (exact.codes _ w inside rfl).2,
    looks.only ⟨_, exact.message⟩ fun w inside => (exact.messages _ w inside rfl).2⟩

theorem verdict_conforming (looks : Looks look) {said : Verdict} (conforming : Conforming pairs said) :
    verdict look pairs = said := by
  cases conforming with
  | success there only => exact verdict_success (looks.only there only)
  | refused off there only exact =>
      obtain ⟨code, message⟩ := looks.exact exact
      rw [verdict_other (looks.off off), errorField, looks.only there only]
      dsimp only
      rw [errorVerdict, code, message]
  | bare off none => rw [verdict_other (looks.off off), errorField, looks.none none]

end Looks

theorem go_flag_off {pairs : Pairs} (off : ∀ v, ("ok", v) ∈ pairs → v = .bool false) :
    Go.okField (Go.fieldsOf (pointMembers pairs)) = .ok false := by
  rw [Go.okField, go_field]
  cases ok : last? pairs "ok" with
  | none => rfl
  | some v =>
      cases off v (last_looks.mem pairs "ok" v ok)
      rfl

theorem go_verdict {line : List UInt8} {cs : List Char} {pairs : Pairs} {said : Verdict}
    (bytes : line = Utf8.encode cs) (text : Rfc8259.Text cs (.object pairs)) (taken : ∃ t, Go.parse line = .ok t)
    (conforming : Conforming pairs said) : goVerdict line = said := by
  obtain ⟨t, parsed⟩ := taken
  cases go_parse text (bytes ▸ parsed)
  have fields : (Go.parse line >>= Go.unmarshalFields).mapError
      (Go.GoError.wrap (Go.lit "decoding response line: ")) = .ok (Go.fieldsOf (pointMembers pairs)) := by
    rw [parsed]
    rfl
  cases conforming with
  | success there only =>
      have flag : Go.okField (Go.fieldsOf (pointMembers pairs)) = .ok true := by
        rw [Go.okField, go_field, last_looks.only there only]
        rfl
      have decoded : Go.decodeResponseLine line = .ok ⟨true, Go.fieldsOf (pointMembers pairs), none⟩ :=
        bind_ok_iff.mpr ⟨_, fields, bind_ok_iff.mpr ⟨true, flag, rfl⟩⟩
      rw [goVerdict, Go.callResult, decoded]
      rfl
  | @refused err c m off there only exact =>
      have decoded : Go.decodeResponseLine line =
          .ok ⟨false, Go.fieldsOf (pointMembers pairs), some ⟨Go.lit c, Go.lit m⟩⟩ := by
        refine bind_ok_iff.mpr ⟨_, fields, bind_ok_iff.mpr ⟨false, go_flag_off off, ?_⟩⟩
        rw [if_neg Bool.false_ne_true, go_field, last_looks.only there only, Option.map_some]
        exact bind_ok_iff.mpr ⟨_, mapError_ok_iff.mpr (go_error exact), rfl⟩
      have back (s : String) : (Go.codePoints (Go.lit s)).map Char.ofNat = s.toList := by
        rw [Go.lit, Utf8.bytes_eq_encode, Go.codePoints_encode, JsonReader.chars_points]
      rw [goVerdict, Go.callResult, decoded, ← back c, ← back m]
      rfl
  | bare off none =>
      have decoded : Go.decodeResponseLine line = .ok ⟨false, Go.fieldsOf (pointMembers pairs), Option.none⟩ := by
        refine bind_ok_iff.mpr ⟨_, fields, bind_ok_iff.mpr ⟨false, go_flag_off off, ?_⟩⟩
        rw [if_neg Bool.false_ne_true, go_field, last_looks.none none]
        rfl
      rw [goVerdict, Go.callResult, decoded]
      rfl

/-! ## All of them -/

/-- The JSON readers of the drivers get through the line, within their limits of depth and of the size of integers. -/
structure Taken (rt : TypeScript.Runtime) (pf : Python.Platform) (jvm : Java.Codec.Jvm) (line : List UInt8) : Prop where
  typeScript : ∃ text v, TypeScript.decodeText line = .ok text ∧ TypeScript.parseJsonPreservingNumbers rt text = .ok v
  python : ∃ v, Python.loads pf.toRuntime true line = .ok v
  go : ∃ t, Go.parse line = .ok t
  java : ∃ v, Java.Codec.JsonParser.parse jvm.stack (jvm.newString line) = .ok v

theorem Conforming.spoken {pairs : Pairs} {said : Verdict} (conforming : Conforming pairs said)
    (flag : last? pairs "ok" ≠ some (.bool true)) : Spoken pairs := by
  intro err code message error found found'
  cases conforming with
  | success there only => exact absurd (last_looks.only there only) flag
  | refused off there only exact =>
      rw [last_looks.only there only] at error
      cases error
      obtain ⟨one, two⟩ := last_looks.exact exact
      exact ⟨_, _, Option.some.inj (found.symm.trans one), Option.some.inj (found'.symm.trans two)⟩
  | bare off none => exact absurd (last_looks.mem pairs "error" _ error) (none _)

/-- What each driver makes of the line of an object: Rust and Java go by the first member under a key, TypeScript by the
last, and so does Python where code and message are strings.  Of an envelope as it is to be, all five make the same. -/
theorem envelopes_agree {rt : TypeScript.Runtime} {pf : Python.Platform} {jvm : Java.Codec.Jvm} (lawful : jvm.Lawful)
    {line : List UInt8} {cs : List Char} {pairs : Pairs} (bytes : line = Utf8.encode cs)
    (text : Rfc8259.Text cs (.object pairs)) (taken : Taken rt pf jvm line) :
    (rustVerdict line = verdict first? pairs ∧ javaVerdict jvm line = verdict first? pairs) ∧
    typeScriptVerdict rt line = verdict last? pairs ∧ (Spoken pairs → pythonVerdict pf line = verdict last? pairs) ∧
    ∀ said, Conforming pairs said → rustVerdict line = said ∧ typeScriptVerdict rt line = said ∧
      pythonVerdict pf line = said ∧ goVerdict line = said ∧ javaVerdict jvm line = said := by
  have rust := rust_verdict bytes text
  have java := java_verdict lawful bytes text taken.java
  have typeScript : typeScriptVerdict rt line = verdict last? pairs := by
    obtain ⟨units, v, decoded, parsed⟩ := taken.typeScript
    rw [bytes, typeScript_units text] at decoded
    cases decoded
    exact typeScript_verdict bytes text ⟨v, parsed⟩
  refine ⟨⟨rust, java⟩, typeScript, fun spoken => python_verdict bytes text (fun _ => spoken) taken.python,
    fun said conforming => ⟨?_, ?_, ?_, go_verdict bytes text taken.go conforming, ?_⟩⟩
  · rw [rust, first_looks.verdict_conforming conforming]
  · rw [typeScript, last_looks.verdict_conforming conforming]
  · rw [python_verdict bytes text conforming.spoken taken.python, last_looks.verdict_conforming conforming]
  · rw [java, first_looks.verdict_conforming conforming]

/-! ## A failure of the server -/

def sampleEnvelope : List Char := "\x7b\"ok\":false,\"error\":\x7b\"code\":\"c\",\"message\":\"m\"\x7d\x7d".toList

def sampleError : Pairs := [("code", .string "c"), ("message", .string "m")]

def samplePairs : Pairs := [("ok", .bool false), ("error", .object sampleError)]

theorem plain_body {cs : List Char} (plain : ∀ c ∈ cs, c ≠ '"' ∧ c ≠ '\\' ∧ 0x20 ≤ c.toNat) : Rfc8259.Body cs cs := by
  induction cs with
  | nil => exact .nil
  | cons c rest ih =>
      obtain ⟨first, more⟩ := List.forall_mem_cons.mp plain
      exact .cons (.plain first.1 first.2.1 first.2.2) (ih more)

theorem sampleEnvelope_text : Rfc8259.Text sampleEnvelope (.object samplePairs) := by
  have key (name : String) (plain : ∀ c ∈ name.toList, c ≠ '"' ∧ c ≠ '\\' ∧ 0x20 ≤ c.toNat) :
      Rfc8259.Body name.toList name.toList := plain_body plain
  have code : Rfc8259.Value "\"c\"".toList (.string "c") := .string (key "c" (by simp))
  have message : Rfc8259.Value "\"m\"".toList (.string "m") := .string (key "m" (by simp))
  have error : Rfc8259.Value "\x7b\"code\":\"c\",\"message\":\"m\"\x7d".toList (.object sampleError) :=
    .object (.nextMember .nil (key "code" (by simp)) .nil .nil code .nil
      (.lastMember .nil (key "message" (by simp)) .nil .nil message .nil))
  refine ⟨[], sampleEnvelope, [], rfl, .nil, ?_, .nil⟩
  exact .object (.nextMember .nil (key "ok" (by simp)) .nil .nil .false .nil
    (.lastMember .nil (key "error" (by simp)) .nil .nil error .nil))

theorem read_of_isSome {ε α : Type} {x : Except ε α} (read : x.toOption.isSome = true) : ∃ a, x = .ok a := by
  cases x with
  | ok a => exact ⟨a, rfl⟩
  | error e => cases read

def sampleLine : List UInt8 := Utf8.encode sampleEnvelope

/-- The readers of all drivers take the sample. -/
theorem sample_taken : Taken TypeScript.sampleRuntime Python.samplePlatform Java.replacingJvm sampleLine where
  typeScript := by
    obtain ⟨v, parsed⟩ := read_of_isSome (x := TypeScript.parseJsonPreservingNumbers TypeScript.sampleRuntime
      (Utf16.encode sampleEnvelope)) (by decide +kernel)
    exact ⟨_, v, typeScript_units sampleEnvelope_text, parsed⟩
  python := read_of_isSome (by decide +kernel)
  go := read_of_isSome (by decide +kernel)
  java := read_of_isSome (by decide +kernel)

theorem sample_conforming : Conforming samplePairs (.refused "c".toList "m".toList) := by
  have apart : ¬ Alike "message" "code" := by
    unfold Alike
    decide +kernel
  have named : Exact sampleError "c" "m" := by
    refine ⟨List.mem_cons_self, List.mem_cons_of_mem _ List.mem_cons_self, ?_, ?_⟩
    · intro key v inside alike
      rcases List.mem_cons.mp inside with same | later
      · cases same
        exact ⟨rfl, rfl⟩
      · cases List.mem_singleton.mp later
        exact absurd alike apart
    · intro key v inside alike
      rcases List.mem_cons.mp inside with same | later
      · cases same
        exact absurd alike.symm apart
      · cases List.mem_singleton.mp later
        exact ⟨rfl, rfl⟩
  refine .refused ?_ ⟨_, List.mem_cons_of_mem _ List.mem_cons_self⟩ ?_ named
  · simp [samplePairs]
  · simp [samplePairs]

theorem envelopes_agree_sample :
    rustVerdict sampleLine = .refused ['c'] ['m'] ∧
      typeScriptVerdict TypeScript.sampleRuntime sampleLine = .refused ['c'] ['m'] ∧
      pythonVerdict Python.samplePlatform sampleLine = .refused ['c'] ['m'] ∧
      goVerdict sampleLine = .refused ['c'] ['m'] ∧ javaVerdict Java.replacingJvm sampleLine = .refused ['c'] ['m'] :=
  (envelopes_agree Java.replacingJvm_lawful rfl sampleEnvelope_text sample_taken).2.2.2 _ sample_conforming

end SanDbOxFormal.Protocol
