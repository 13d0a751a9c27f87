import SanDbOxFormal.Java.Codec.Decode
import SanDbOxFormal.Java.Transport.SocketTransport
import SanDbOxFormal.Library.Failures
import SanDbOxFormal.Protocol.HelloTree
import SanDbOxFormal.Protocol.JsonParsers

/-!
# The hello check of the Java driver

The constructor of `Session`, behind the read of the first line.  The protocol of a
hello is narrowed to an `int` before it is compared.
-/

namespace SanDbOxFormal.Java

open SanDbOxFormal.Library
open SanDbOxFormal.Library.JsonReader (Fault Tree Writes strictUnits)
open SanDbOxFormal.Protocol
open SanDbOxFormal.Java.Codec
open SanDbOxFormal.Java.Codec.JsonParser (Stop nats nats_injective treeOf treesOf membersOf)
open SanDbOxFormal.Java.Transport (Kind TransportException Thrown)

/-- What an operation throws: a `SanDbOxException`, or what none of its catch clauses is for. -/
inductive Exception where
  | readTimeout (message : JString)
  | connectionClosed (message : JString)
  | protocolViolation (message : JString)
  | response (code message : JString)
  | sanDbOx (message : JString)
  | arithmetic
  | stackOverflow
  deriving DecidableEq

/-- No catch clause of the driver is for it. -/
def Exception.unchecked : Exception → Bool
  | .arithmetic | .stackOverflow => true
  | _ => false

def translate (e : TransportException) : Exception :=
  match e.kind with
  | .timeout => .readTimeout e.message
  | .closed => .connectionClosed e.message
  | .protocol => .protocolViolation e.message
  | .io => .sanDbOx e.message

theorem translate_checked (e : TransportException) : (translate e).unchecked = false := by
  unfold translate
  split <;> rfl

/-- A `catch (CodecException e)` that throws a protocol violation; an `Error` goes through. -/
def caught (before : String) : Stop → Exception
  | .codec m => .protocolViolation (lit before ++ m)
  | _ => .stackOverflow

/-- The constructor of `Session`, and whether it has closed the transport. -/
def connect (jvm : Jvm) : Except Thrown (List UInt8) → Except Exception Hello × Bool
  | .error (.transport e) => (.error (translate e), true)
  | .error .arithmetic => (.error .arithmetic, false)
  | .ok line =>
      match hello jvm line with
      | .error e => (.error (caught "invalid hello line: " e), !(caught "" e).unchecked)
      | .ok h =>
          if h.protocol ≠ 1 then
            (.error (.protocolViolation (lit "unsupported protocol " ++ lit (toString h.protocol.toInt) ++
              lit " (this driver speaks 1)")), true)
          else (.ok h, false)

/-! ## Fields -/

section Fields

variable {α β : Type} {v : Json} {key : String}

theorem orCodec_ok_iff {o : Option α} {m : JString} {a : α} : orCodec o m = .ok a ↔ o = some a := by
  cases o with
  | none => simp [orCodec]
  | some b => simp [orCodec]

theorem required_ok_iff {field : Json} : required v key = .ok field ↔ get v key = some field := orCodec_ok_iff

theorem requiredStr_ok_iff {s : JString} : requiredStr v key = .ok s ↔ get v key = some (.str s) := by
  simp only [requiredStr, bind_ok_iff, required_ok_iff, orCodec_ok_iff]
  constructor
  · rintro ⟨field, found, is⟩
    cases field <;> cases is
    exact found
  · exact fun found => ⟨_, found, rfl⟩

theorem requiredInt_ok_iff {i : Int64} :
    requiredInt v key = .ok i ↔ ∃ raw, get v key = some (.num raw) ∧ NumberToken.parseLong raw = some i := by
  simp only [requiredInt, bind_ok_iff, required_ok_iff, NumberToken.asLong, orCodec_ok_iff]
  constructor
  · rintro ⟨field, found, raw, is, read⟩
    cases field <;> cases is
    exact ⟨raw, found, read⟩
  · rintro ⟨raw, found, read⟩
    exact ⟨_, found, raw, rfl, read⟩

theorem requireObject_ok_iff {what : String} : requireObject v what = .ok () ↔ ∃ ms, v = .obj ms := by
  cases v <;> simp [requireObject, isObj]

end Fields

/-! ## The tree -/

section Tree

variable {members : List (JString × Json)} {key : String}

/-- A member is looked up in the tree as in the object. -/
theorem get_member (ascii : nats (lit key) = JsonReader.units key) :
    (get (.obj members) key).map treeOf = firstMember? (membersOf members) key := by
  change Option.map treeOf (Option.map Prod.snd (members.find? fun m => m.1 == lit key)) =
    Option.map Prod.snd ((membersOf members).find? fun m => m.1 == JsonReader.units key)
  induction members with
  | nil => rfl
  | cons m rest ih =>
      obtain ⟨name, v⟩ := m
      rw [membersOf]
      by_cases same : name = lit key
      · subst same
        simp [ascii]
      · have other : nats name ≠ JsonReader.units key := fun eq => same (nats_injective (eq.trans ascii.symm))
        simpa [same, other] using ih

theorem get_str_iff (ascii : nats (lit key) = JsonReader.units key) {s : JString} :
    get (.obj members) key = some (.str s) ↔ firstMember? (membersOf members) key = some (.string (nats s)) := by
  rw [← get_member ascii]
  constructor
  · intro found
    rw [found]
    rfl
  · intro found
    obtain ⟨v, there, is⟩ := Option.map_eq_some_iff.mp found
    cases v with
    | str t =>
        rw [there, nats_injective (Tree.string.inj is)]
    | _ => cases is

theorem get_number (ascii : nats (lit key) = JsonReader.units key) {token : List ℕ}
    (found : firstMember? (membersOf members) key = some (.number token)) :
    ∃ raw, get (.obj members) key = some (.num raw) ∧ nats raw = token := by
  rw [← get_member ascii] at found
  obtain ⟨v, there, is⟩ := Option.map_eq_some_iff.mp found
  cases v with
  | num raw => exact ⟨raw, there, Tree.number.inj is⟩
  | _ => cases is

theorem get_num_iff (ascii : nats (lit key) = JsonReader.units key) {raw : JString} :
    get (.obj members) key = some (.num raw) ↔ firstMember? (membersOf members) key = some (.number (nats raw)) := by
  constructor
  · intro found
    rw [← get_member ascii, found]
    rfl
  · intro found
    obtain ⟨raw', there, same⟩ := get_number ascii found
    rw [there, nats_injective same]

end Tree

/-! ## Reading a line -/

theorem parse_ok_iff {depth : ℕ} {s : JString} {v : Json} :
    JsonParser.parse depth s = .ok v ↔ Writes strictUnits depth (nats s) (treeOf v) := by
  rw [← JsonReader.read_iff rfl rfl, ← JsonParser.parse_reads]
  constructor
  · intro read
    rw [read]
  · intro read
    cases returned : JsonParser.parse depth s with
    | error e =>
        rw [returned] at read
        cases read
    | ok w =>
        rw [returned] at read
        exact congrArg Except.ok (treeOf_injective _ _ (Except.ok.inj read))

/-- What the text denotes is a tree of the parser. -/
theorem written_tree {depth : ℕ} {s : JString} {t : Tree} (written : Writes strictUnits depth (nats s) t) :
    ∃ v, treeOf v = t := by
  have read := (JsonReader.read_iff rfl rfl).mpr written
  rw [← JsonParser.parse_reads] at read
  cases returned : JsonParser.parse depth s with
  | error e =>
      rw [returned] at read
      cases read
  | ok v =>
      rw [returned] at read
      exact ⟨v, Except.ok.inj read⟩

theorem parse_overflow_iff {depth : ℕ} {s : JString} :
    JsonParser.parse depth s = .error .stackOverflow ↔
      JsonReader.read strictUnits depth (nats s) = .error .tooDeep := by
  rw [← JsonParser.parse_reads]
  cases returned : JsonParser.parse depth s with
  | ok w =>
      refine ⟨fun is => (by cases is), fun is => (by cases is)⟩
  | error e =>
      cases e with
      | stackOverflow => exact ⟨fun _ => rfl, fun _ => rfl⟩
      | codec m =>
          refine ⟨fun is => (by cases is), fun is => (by cases is)⟩
      | turns => exact absurd returned (JsonParser.parse_turns depth s)

theorem parseLine_ok_iff {jvm : Jvm} {what : String} {line : List UInt8} {v : Json} :
    parseLine jvm what line = .ok v ↔ Writes strictUnits jvm.stack (nats (jvm.newString line)) (treeOf v) := by
  rw [← parse_ok_iff, parseLine]
  cases JsonParser.parse jvm.stack (jvm.newString line) <;> simp [Except.mapError]

/-! ## What escapes -/

/-- Nothing but a `CodecException` is thrown. -/
def Checked {α : Type} (x : Except Stop α) : Prop := ∀ e, x = .error e → ∃ m, e = .codec m

section Checked

variable {α β : Type} {v : Json} {key : String}

theorem Checked.ok (a : α) : Checked (.ok a) := fun _ is => (by cases is)

theorem Checked.codec (m : JString) : Checked (.error (.codec m) : Except Stop α) := by
  intro e is
  cases is
  exact ⟨m, rfl⟩

theorem Checked.bind {x : Except Stop α} {f : α → Except Stop β} (first : Checked x) (second : ∀ a, Checked (f a)) :
    Checked (x >>= f) := by
  cases x with
  | ok a => exact second a
  | error e =>
      intro e' is
      cases is
      exact first e rfl

theorem orCodec_checked (o : Option α) (m : JString) : Checked (orCodec o m) := by
  cases o with
  | none => exact .codec m
  | some a => exact .ok a

theorem requiredStr_checked (v : Json) (key : String) : Checked (requiredStr v key) :=
  (orCodec_checked _ _).bind fun _ => orCodec_checked _ _

theorem requiredInt_checked (v : Json) (key : String) : Checked (requiredInt v key) :=
  (orCodec_checked _ _).bind fun _ => (orCodec_checked _ _).bind fun _ => orCodec_checked _ _

theorem requireObject_checked (v : Json) (what : String) : Checked (requireObject v what) := by
  unfold requireObject
  split
  · exact .ok ()
  · exact .codec _

/-- Behind the parser, only the stack can make a line throw anything else. -/
theorem parsed_error_iff {jvm : Jvm} {what : String} {line : List UInt8} {f : Json → Except Stop α}
    (checked : ∀ v, Checked (f v)) {e : Stop} (failed : (parseLine jvm what line >>= f) = .error e) :
    (∀ m, e ≠ .codec m) ↔ JsonReader.read strictUnits jvm.stack (nats (jvm.newString line)) = .error .tooDeep := by
  rw [← parse_overflow_iff]
  rw [parseLine] at failed
  cases returned : JsonParser.parse jvm.stack (jvm.newString line) with
  | ok v =>
      rw [returned] at failed
      obtain ⟨m, rfl⟩ := checked v e failed
      exact ⟨fun none => absurd rfl (none m), fun is => (by cases is)⟩
  | error stop =>
      rw [returned] at failed
      cases failed
      cases stop with
      | codec m => exact ⟨fun none => absurd rfl (none _), fun is => (by cases is)⟩
      | stackOverflow => exact ⟨fun _ => rfl, fun _ m is => (by cases is)⟩
      | turns => exact absurd returned (JsonParser.parse_turns _ _)

end Checked

/-! ## The protocol -/

theorem characters_nats {raw : JString} {cs : List Char} (same : nats raw = cs.map Char.toNat) :
    raw.map (fun c => Char.ofNat c.toNat) = cs := by
  have mapped : raw.map (fun c => Char.ofNat c.toNat) = (nats raw).map Char.ofNat := by
    rw [JsonParser.nats, List.map_map]
    rfl
  rw [mapped, same, List.map_map]
  simp [Function.comp_def]

theorem parseLong_eq_some_iff {raw : JString} {cs : List Char} (same : nats raw = cs.map Char.toNat)
    (number : Rfc8259.Number cs) {i : Int64} :
    NumberToken.parseLong raw = some i ↔ ∃ n : ℤ, IntegerToken cs n ∧ -2 ^ 63 ≤ n ∧ n < 2 ^ 63 ∧ i = .ofInt n := by
  simp only [NumberToken.parseLong, characters_nats same, Option.bind_eq_bind, Option.bind_eq_some_iff,
    parseInt?_eq_some_iff number]
  constructor
  · rintro ⟨n, token, rest⟩
    split at rest
    · rename_i range
      cases rest
      exact ⟨n, token, range.1, range.2, rfl⟩
    · cases rest
  · rintro ⟨n, token, low, high, rfl⟩
    exact ⟨n, token, if_pos ⟨low, high⟩⟩

/-- The narrowing keeps the value modulo 2 ^ 32. -/
theorem narrowed_one_iff (n : ℤ) : (Int64.ofInt n).toInt32 = 1 ↔ n % 2 ^ 32 = 1 := by
  rw [Int64.toInt32_ofInt, ← Int32.toInt_inj, Int32.toInt_ofInt]
  have one : (1 : Int32).toInt = 1 := rfl
  rw [one]
  simp only [Int32.size, Int.bmod_def]
  omega

/-! ## The check -/

/-- The line of a hello whose protocol has this value. -/
structure HelloText (jvm : Jvm) (line : List UInt8) (n : ℤ) (h : Hello) (members : Members) : Prop where
  text : Writes strictUnits jvm.stack (nats (jvm.newString line)) (.object members)
  protocol : ∃ cs : List Char, firstMember? members "protocol" = some (.number (cs.map Char.toNat)) ∧ IntegerToken cs n
  version : firstMember? members "version" = some (.string (nats h.version))
  product : firstMember? members "product" = some (.string (nats h.product))

theorem hello_ok_iff {jvm : Jvm} {line : List UInt8} {h : Hello} : hello jvm line = .ok h ↔
    ∃ n members, HelloText jvm line n h members ∧ -2 ^ 63 ≤ n ∧ n < 2 ^ 63 ∧ h.protocol = (Int64.ofInt n).toInt32 := by
  simp only [hello, bind_ok_iff, parseLine_ok_iff]
  constructor
  · rintro ⟨v, text, ⟨⟩, object, i, numbered, version, named, product, sold, same⟩
    obtain ⟨ms, rfl⟩ := requireObject_ok_iff.mp object
    obtain ⟨raw, found, read⟩ := requiredInt_ok_iff.mp numbered
    have token := (get_num_iff (by decide)).mp found
    obtain ⟨cs, shape, number⟩ := firstMember?_token (JsonReader.read_numeral ((JsonReader.read_iff rfl rfl).mpr text)) token
    obtain ⟨n, integer, low, high, rfl⟩ := (parseLong_eq_some_iff shape number).mp read
    cases same
    exact ⟨n, membersOf ms, ⟨text, ⟨cs, shape ▸ token, integer⟩, (get_str_iff (by decide)).mp (requiredStr_ok_iff.mp named),
      (get_str_iff (by decide)).mp (requiredStr_ok_iff.mp sold)⟩, low, high, rfl⟩
  · rintro ⟨n, members, ⟨text, ⟨cs, token, integer⟩, version, product⟩, low, high, protocol⟩
    obtain ⟨v, tree⟩ := written_tree text
    have numerals := JsonReader.read_numeral ((JsonReader.read_iff rfl rfl).mpr text)
    rw [← tree] at text
    cases v with
    | obj ms =>
        cases tree
        obtain ⟨raw, found, shape⟩ := get_number (by decide) token
        obtain ⟨ds, spelled, number⟩ := firstMember?_token numerals token
        rw [List.map_injective_iff.mpr (fun c d => Char.toNat_inj.mp) spelled] at integer shape
        have read := (parseLong_eq_some_iff shape number).mpr ⟨n, integer, low, high, rfl⟩
        refine ⟨_, text, (), requireObject_ok_iff.mpr ⟨ms, rfl⟩, _, requiredInt_ok_iff.mpr ⟨raw, found, read⟩, h.version,
          requiredStr_ok_iff.mpr ((get_str_iff (by decide)).mpr version), h.product,
          requiredStr_ok_iff.mpr ((get_str_iff (by decide)).mpr product), ?_⟩
        rw [← protocol]
    | _ => cases tree

theorem caught_checked_iff (before : String) (e : Stop) :
    (caught before e).unchecked = false ↔ ∃ m, e = .codec m := by
  cases e <;> simp [caught, Exception.unchecked]

theorem hello_overflow_iff {jvm : Jvm} {line : List UInt8} {e : Stop} (failed : hello jvm line = .error e) :
    (∀ m, e ≠ .codec m) ↔ JsonReader.read strictUnits jvm.stack (nats (jvm.newString line)) = .error .tooDeep :=
  parsed_error_iff (fun v => (requireObject_checked v _).bind fun _ => (requiredInt_checked v _).bind fun _ =>
    (requiredStr_checked v _).bind fun _ => (requiredStr_checked v _).bind fun _ => .ok _) failed

/-- A session is made exactly of the text of a hello whose protocol is one modulo 2 ^ 32, and the transport is closed
on every other outcome but two: a timeout beyond the range of `toNanos`, and a line that exhausts the stack. -/
theorem narrowed_gate_iff (jvm : Jvm) (read : Except Thrown (List UInt8)) :
    (∀ h, (connect jvm read).1 = .ok h ↔ h.protocol = 1 ∧ ∃ line n members, read = .ok line ∧
      HelloText jvm line n h members ∧ -2 ^ 63 ≤ n ∧ n < 2 ^ 63 ∧ n % 2 ^ 32 = 1) ∧
    ((connect jvm read).2 = true ↔ ∃ e, (connect jvm read).1 = .error e ∧ e.unchecked = false) ∧
    ((connect jvm read).1 = .error .stackOverflow ↔ ∃ line, read = .ok line ∧
      JsonReader.read strictUnits jvm.stack (nats (jvm.newString line)) = .error .tooDeep) := by
  rcases read with (e | _) | line
  · refine ⟨fun h => ⟨fun is => (by cases is), ?_⟩, ⟨fun _ => ⟨_, rfl, translate_checked e⟩, fun _ => rfl⟩, ?_, ?_⟩
    · rintro ⟨_, line, n, members, ⟨⟩, _⟩
    · intro is
      have checked := translate_checked e
      rw [Except.error.inj is] at checked
      cases checked
    · rintro ⟨line, ⟨⟩, _⟩
  · refine ⟨fun h => ⟨fun is => (by cases is), ?_⟩, ⟨fun is => (by cases is), ?_⟩, fun is => (by cases is), ?_⟩
    · rintro ⟨_, line, n, members, ⟨⟩, _⟩
    · rintro ⟨e, same, checked⟩
      cases same
      cases checked
    · rintro ⟨line, ⟨⟩, _⟩
  · have made (h : Hello) : (∃ line' n members, Except.ok line = (Except.ok line' : Except Thrown _) ∧
        HelloText jvm line' n h members ∧ -2 ^ 63 ≤ n ∧ n < 2 ^ 63 ∧ n % 2 ^ 32 = 1) ∧ h.protocol = 1 ↔
        hello jvm line = .ok h ∧ h.protocol = 1 := by
      refine and_congr_left fun one => ?_
      rw [hello_ok_iff]
      constructor
      · rintro ⟨line', n, members, same, text, low, high, value⟩
        cases same
        exact ⟨n, members, text, low, high, one.trans ((narrowed_one_iff n).mpr value).symm⟩
      · rintro ⟨n, members, text, low, high, protocol⟩
        exact ⟨line, n, members, rfl, text, low, high, (narrowed_one_iff n).mp (protocol.symm.trans one)⟩
    rw [connect]
    cases decoded : hello jvm line with
    | error e =>
        have overflow := hello_overflow_iff decoded
        refine ⟨fun h => ⟨fun is => (by cases is), ?_⟩, ?_, ?_⟩
        · rintro ⟨one, text⟩
          cases decoded.symm.trans ((made h).mp ⟨text, one⟩).1
        · simp [caught_checked_iff]
        · constructor
          · intro is
            refine ⟨line, rfl, overflow.mp fun m same => ?_⟩
            subst same
            cases is
          · rintro ⟨line', same, deep⟩
            cases same
            have other := overflow.mpr deep
            cases e with
            | codec m => exact absurd rfl (other m)
            | _ => rfl
    | ok h =>
        obtain ⟨n, members, text, _⟩ := hello_ok_iff.mp decoded
        have shallow := (JsonReader.read_iff rfl rfl).mpr text.text
        dsimp only
        split
        · rename_i other
          refine ⟨fun h' => ⟨fun is => (by cases is), ?_⟩, ⟨fun _ => ⟨_, rfl, rfl⟩, fun _ => rfl⟩,
            fun is => (by cases is), ?_⟩
          · rintro ⟨one, text⟩
            cases decoded.symm.trans ((made h').mp ⟨text, one⟩).1
            exact absurd one other
          · rintro ⟨line', same, deep⟩
            cases same
            cases shallow.symm.trans deep
        · rename_i one
          refine ⟨fun h' => ⟨fun is => ?_, ?_⟩, ⟨fun is => (by cases is), ?_⟩, fun is => (by cases is), ?_⟩
          · cases is
            exact ⟨not_not.mp one, ((made h).mpr ⟨decoded, not_not.mp one⟩).1⟩
          · rintro ⟨one, text⟩
            cases decoded.symm.trans ((made h').mp ⟨text, one⟩).1
            rfl
          · rintro ⟨e, same, _⟩
            cases same
          · rintro ⟨line', same, deep⟩
            cases same
            cases shallow.symm.trans deep

end SanDbOxFormal.Java
