import SanDbOxFormal.Protocol.HelloTree
import SanDbOxFormal.Python.Encoding
import SanDbOxFormal.Python.Session

/-!
# The hello gate of the Python driver

What the constructor lets pass, against the hello lines of the protocol, and what it
leaves behind when it does not.
-/

namespace SanDbOxFormal.Python

open SanDbOxFormal.Library
open SanDbOxFormal.Library.JsonReader (Tree strictPoints)
open SanDbOxFormal.Protocol

/-- A dict holds the last member under each key. -/
theorem lookup_dict (d : Dict) (members : Members) (key : String) :
    lookup (dict d members) (lit key) =
      ((lastMember? members key).map value).or (lookup d (lit key)) := by
  induction members generalizing d with
  | nil =>
      rw [dict]
      rfl
  | cons m rest ih =>
      obtain ⟨k, t⟩ := m
      have last : lastMember? ((k, t) :: rest) key =
          (lastMember? rest key).or (if k = lit key then some t else none) := by
        rw [lastMember?, List.reverse_cons, firstMember?, List.find?_append, lastMember?, firstMember?]
        cases rest.reverse.find? fun m => m.1 == JsonReader.units key with
        | some found => rfl
        | none =>
            by_cases same : k = lit key
            · have hit : (k == JsonReader.units key) = true := beq_iff_eq.mpr same
              rw [if_pos same]
              simp [hit]
            · have miss : (k == JsonReader.units key) = false := beq_eq_false_iff_ne.mpr same
              simp [miss, same]
      rw [dict, ih, lookup_set, last]
      cases lastMember? rest key with
      | some found => rfl
      | none => by_cases same : k = lit key <;> simp [same]

/-! ## Numbers -/

theorem natOf_digits (cs : List Char) : natOf (cs.map Char.toNat) = Nat.ofDigitChars 10 cs 0 := by
  have run (n : Nat) : (cs.map Char.toNat).foldl (fun n c => n * 10 + (c - 0x30)) n =
      Nat.ofDigitChars 10 cs n := by
    induction cs generalizing n with
    | nil => rfl
    | cons c rest ih =>
        rw [List.map_cons, List.foldl_cons, ih, Nat.mul_comm]
        rfl
  exact run 0

/-- `int` reads an integer token as the integer that it denotes. -/
theorem int_token {cs : List Char} {i : Int} (token : IntegerToken cs i) :
    int (cs.map Char.toNat) = i := by
  cases token with
  | whole part =>
      obtain ⟨nonempty, digits⟩ := intPart_digits part
      cases cs with
      | nil => exact absurd rfl nonempty
      | cons c rest =>
          have digit := digits c List.mem_cons_self
          have unsigned : c.toNat ≠ 0x2D := by
            simp only [Rfc8259.isDigit, Bool.and_eq_true, decide_eq_true_eq] at digit
            omega
          rw [List.map_cons, int, if_neg unsigned, ← List.map_cons, natOf_digits]
  | @negative ds part =>
      rw [List.map_cons, int, if_pos (show '-'.toNat = 0x2D from rfl), natOf_digits]

theorem isReal_map (cs : List Char) : isReal (cs.map Char.toNat) = cs.any Decimal.isRealMark := by
  have one (c d : Char) : (c.toNat = d.toNat) = (c = d) := propext Char.toNat_inj
  rw [isReal, List.any_map]
  congr 1
  funext c
  simp only [Function.comp_apply, Decimal.isRealMark, ← one]
  rfl

/-- A number of the grammar is an `int` of its own value or a `float`. -/
theorem value_number {raw : List Nat} (token : JsonReader.Token raw) :
    (∃ cs i, raw = cs.map Char.toNat ∧ IntegerToken cs i ∧ value (.number raw) = .int i) ∨
      value (.number raw) = .float raw := by
  obtain ⟨cs, rfl, number⟩ := token
  cases real : cs.any Decimal.isRealMark with
  | true =>
      refine .inr ?_
      rw [value, isReal_map, real, if_pos rfl]
  | false =>
      obtain ⟨i, integer⟩ := integerToken_of_number number real
      refine .inl ⟨cs, i, rfl, integer, ?_⟩
      rw [value, isReal_map, real, int_token integer]
      rfl

/-! ## Reading leniently -/

/-- Everything that `json.loads` reads, whatever it is told to refuse. -/
def lenient : JsonReader.Dialect := ⟨constants, false, true, fun _ => false⟩

/-- Whether constants are refused or not, what is read is read as without. -/
theorem dialect_lenient (rt : Runtime) (reject : Bool) :
    JsonReader.Agrees (rt.dialect reject) lenient := by
  refine ⟨rfl, fun cs => ?_⟩
  have same : JsonReader.bareword? (rt.dialect reject) cs = JsonReader.bareword? lenient cs := rfl
  unfold JsonReader.scalar
  rw [same]
  cases JsonReader.bareword? lenient cs with
  | some found =>
      cases reject with
      | true => exact .error
      | false => exact .refl _
  | none =>
      dsimp only
      split
      · exact .refl _
      · exact .refl _
      · exact .refl _
      · cases JsonReader.number cs with
        | none => exact .refl _
        | some found =>
            by_cases refused : (rt.dialect reject).overflows found.1 = true
            · dsimp only
              rw [if_pos refused]
              exact .error
            · dsimp only
              rw [if_neg refused]
              exact .refl _

theorem after?_shape {word cs rest : List Nat} (found : JsonReader.after? word cs = some rest) :
    cs = word ++ rest := by
  unfold JsonReader.after? at found
  split_ifs at found with starts
  · cases found
    obtain ⟨more, rfl⟩ := List.isPrefixOf_iff_prefix.mp starts
    rw [List.drop_left]

/-- No constant is JSON. -/
theorem constant_malformed {name : List Nat} (constant : name ∈ constants) (rest : List Nat) :
    JsonReader.scalar strictPoints (name ++ rest) = .error .malformed := by
  simp only [constants, List.mem_cons, List.not_mem_nil, or_false] at constant
  rcases constant with rfl | rfl | rfl
  · rfl
  · rfl
  · rfl

theorem strict_lenient : JsonReader.Agrees strictPoints lenient := by
  refine ⟨rfl, fun cs => ?_⟩
  cases constant : JsonReader.bareword? lenient cs with
  | some found =>
      obtain ⟨name, inside, hit⟩ := List.exists_of_findSome?_eq_some constant
      obtain ⟨rest, behind, _⟩ := Option.map_eq_some_iff.mp hit
      rw [after?_shape behind, constant_malformed inside]
      exact .error
  | none =>
      unfold JsonReader.scalar
      rw [constant]
      exact .refl _

/-! ## Decoding the hello -/

/-- The line is, in UTF-8, an object of JSON with the given members. -/
def ObjectLine (line : List UInt8) (members : Members) : Prop :=
  ∃ cs : List Char, line = Utf8.encode cs ∧ ObjectText strictPoints (cs.map Char.toNat) members

/-- A line that is a hello of the given protocol; of members that are there twice the
last counts. -/
def HelloBytes (protocol : Int) (line : List UInt8) : Prop :=
  ∃ members, ObjectLine line members ∧ TreeGreeting (lastMember? members) protocol

/-- `json.loads` makes a dict of the line that has the three fields. -/
structure Holds (rt : Runtime) (line : List UInt8) (hello : Hello) : Prop where
  loaded : ∃ d, loads rt false line = .ok (.dict d) ∧ lookup d (lit "protocol") = some hello.protocol ∧
    lookup d (lit "version") = some hello.version ∧ lookup d (lit "product") = some hello.product

/-- How `decode_hello` ends. -/
inductive HelloDecoded (rt : Runtime) (line : List UInt8) : Except PyError Hello → Prop where
  | hello {hello : Hello} (holds : Holds rt line hello) : HelloDecoded rt line (.ok hello)
  | refused {m : PyStr} (shallow : ¬ ReadsTooDeep rt false line)
      (none : ∀ hello, ¬ Holds rt line hello) : HelloDecoded rt line (.error (.protocolError m))
  | deep (deep : ReadsTooDeep rt false line) (none : ∀ hello, ¬ Holds rt line hello) :
      HelloDecoded rt line (.error tooDeep)

/-- What a look at one field gives. -/
inductive Fielded (d : Dict) (key : String) : Except PyError PyValue → Prop where
  | found {v : PyValue} (here : lookup d (lit key) = some v) : Fielded d key (.ok v)
  | missing {m : PyStr} (absent : lookup d (lit key) = none) : Fielded d key (.error (.protocolError m))

theorem helloField_fielded (d : Dict) (key : String) : Fielded d key (helloField d key) := by
  unfold helloField
  split
  · rename_i v here
    exact .found here
  · rename_i absent
    exact .missing absent

theorem decodeHello_decoded (rt : Runtime) (shown : List UInt8 → PyStr) (line : List UInt8) :
    HelloDecoded rt line (decodeHello rt shown line) := by
  have missing {hello : Hello} {e : PyError} (failed : loads rt false line = .error e) :
      ¬ Holds rt line hello := by
    rintro ⟨d, loaded, _⟩
    exact nomatch failed.symm.trans loaded
  have outcome := loads_loaded rt false line
  unfold decodeHello
  generalize same : loads rt false line = x at outcome
  cases outcome with
  | invalid shallow m => exact .refused shallow fun _ => missing same
  | constant shallow m => exact .refused shallow fun _ => missing same
  | deep deep => exact .deep deep fun _ => missing same
  | value shallow v =>
      cases v with
      | dict d =>
          have only {hello : Hello} (holds : Holds rt line hello) :
              lookup d (lit "protocol") = some hello.protocol ∧
                lookup d (lit "version") = some hello.version ∧
                lookup d (lit "product") = some hello.product := by
            obtain ⟨d', loaded, fields⟩ := holds
            cases same.symm.trans loaded
            exact fields
          change HelloDecoded rt line (do
            let protocol ← helloField d "protocol"
            let version ← helloField d "version"
            let product ← helloField d "product"
            .ok ⟨protocol, version, product⟩)
          have none {key : String} {v : PyValue} (absent : lookup d (lit key) = none)
              (here : lookup d (lit key) = some v) : False :=
            nomatch absent.symm.trans here
          have first := helloField_fielded d "protocol"
          generalize helloField d "protocol" = p at first
          cases first with
          | missing absent => exact .refused shallow fun _ holds => none absent (only holds).1
          | found hasProtocol =>
              have second := helloField_fielded d "version"
              generalize helloField d "version" = v at second
              cases second with
              | missing absent => exact .refused shallow fun _ holds => none absent (only holds).2.1
              | found hasVersion =>
                  have third := helloField_fielded d "product"
                  generalize helloField d "product" = q at third
                  cases third with
                  | missing absent => exact .refused shallow fun _ holds => none absent (only holds).2.2
                  | found hasProduct => exact .hello ⟨d, same, hasProtocol, hasVersion, hasProduct⟩
      | _ =>
          refine .refused shallow fun hello holds => ?_
          obtain ⟨d, loaded, _⟩ := holds
          cases same.symm.trans loaded

/-! ## The tree behind the fields -/

/-- The text of an object in UTF-8 is taken for UTF-8. -/
theorem decodeBytes_object {cs : List Char} {members : Members}
    (text : ObjectText strictPoints (cs.map Char.toNat) members) :
    decodeBytes (Utf8.encode cs) = some (cs.map Char.toNat) := by
  obtain ⟨a, b, rest, shape, first, second⟩ := text.start
  obtain ⟨c, more, rfl, rfl, behind⟩ := List.map_eq_cons_iff.mp shape
  obtain ⟨d, tail, rfl, rfl, _⟩ := List.map_eq_cons_iff.mp behind
  have bytes : Utf8.encode (c :: d :: tail) =
      UInt8.ofNat c.toNat :: UInt8.ofNat d.toNat :: Utf8.encode tail := by
    rw [Utf8.encode_cons, Utf8.encode_cons, Utf8.utf8EncodeChar_ascii first.2,
      Utf8.utf8EncodeChar_ascii second.2]
    rfl
  have one := toNat_byte (Nat.lt_trans first.2 (by decide))
  have two := toNat_byte (Nat.lt_trans second.2 (by decide))
  have guessed := detectEncoding_ascii (Utf8.encode tail) (one.symm ▸ first) (two.symm ▸ second.1)
  rw [← bytes] at guessed
  rw [decodeBytes, guessed]
  exact decodeUtf8_encode _

/-- What `json.loads` makes of an object of JSON are its members. -/
theorem dict_of_objectLine {rt : Runtime} {line : List UInt8} {members : Members} {d : Dict}
    (object : ObjectLine line members) (loaded : loads rt false line = .ok (.dict d)) :
    d = dict [] members ∧ JsonReader.AllMembers JsonReader.Numeral members := by
  obtain ⟨cs, rfl, text⟩ := object
  have decoded := decodeBytes_object text
  obtain ⟨depth, strict⟩ := text
  unfold loads at loaded
  rw [decoded] at loaded
  dsimp only at loaded
  split at loaded
  · rename_i tree read
    cases JsonReader.read_unique (dialect_lenient rt false) strict_lenient read strict
    rw [value] at loaded
    cases loaded
    exact ⟨rfl, JsonReader.read_numeral strict⟩
  · cases loaded
  · cases loaded
  · cases loaded

theorem value_int_iff {t : Tree} (numeral : t.All JsonReader.Numeral) (i : Int) :
    value t = .int i ↔ ∃ cs : List Char, t = .number (cs.map Char.toNat) ∧ IntegerToken cs i := by
  constructor
  · intro same
    cases t with
    | number raw =>
        rcases value_number numeral with ⟨cs, j, rfl, token, read⟩ | read
        · cases same.symm.trans read
          exact ⟨cs, rfl, token⟩
        · cases same.symm.trans read
    | _ =>
        rw [value] at same
        cases same
  · rintro ⟨cs, rfl, token⟩
    have whole := parseInt?_not_real token.parseInt?
    rw [value, isReal_map, whole, int_token token]
    rfl

theorem value_str_iff {t : Tree} (s : PyStr) : value t = .str s ↔ t = .string s := by
  constructor
  · intro same
    cases t with
    | string s' =>
        rw [value] at same
        cases same
        rfl
    | number raw =>
        rw [value] at same
        split at same
        · cases same
        · cases same
    | _ =>
        rw [value] at same
        cases same
  · rintro rfl
    rw [value]

/-- The fields of a hello of this protocol, types included. -/
structure Hello.Proper (hello : Hello) (protocol : Int) : Prop where
  protocol : hello.protocol = .int protocol
  version : ∃ s, hello.version = .str s
  product : ∃ s, hello.product = .str s

theorem member_of_lookup {members : Members} {key : String} {v : PyValue}
    (found : lookup (dict [] members) (lit key) = some v) :
    ∃ t, lastMember? members key = some t ∧ value t = v := by
  rw [lookup_dict, lookup_nil, Option.or_none] at found
  exact Option.map_eq_some_iff.mp found

theorem proper_iff_greeting {members : Members} {hello : Hello} {protocol : Int}
    (numerals : JsonReader.AllMembers JsonReader.Numeral members)
    (hasProtocol : lookup (dict [] members) (lit "protocol") = some hello.protocol)
    (hasVersion : lookup (dict [] members) (lit "version") = some hello.version)
    (hasProduct : lookup (dict [] members) (lit "product") = some hello.product) :
    hello.Proper protocol ↔ TreeGreeting (lastMember? members) protocol := by
  obtain ⟨p, pFound, pSame⟩ := member_of_lookup hasProtocol
  obtain ⟨v, vFound, vSame⟩ := member_of_lookup hasVersion
  obtain ⟨q, qFound, qSame⟩ := member_of_lookup hasProduct
  have numeral : p.All JsonReader.Numeral := by
    obtain ⟨m, inside, rfl⟩ := Option.map_eq_some_iff.mp pFound
    exact numerals.find (List.mem_reverse.mp (List.mem_of_find?_eq_some inside))
  constructor
  · rintro ⟨isInt, ⟨s, isStr⟩, ⟨s', isStr'⟩⟩
    obtain ⟨cs, rfl, token⟩ := (value_int_iff numeral protocol).mp (pSame.trans isInt)
    have version := (value_str_iff s).mp (vSame.trans isStr)
    have product := (value_str_iff s').mp (qSame.trans isStr')
    exact ⟨⟨cs, pFound, token⟩, ⟨s, version ▸ vFound⟩, ⟨s', product ▸ qFound⟩⟩
  · rintro ⟨⟨cs, isNumber, token⟩, ⟨s, isString⟩, ⟨s', isString'⟩⟩
    have number := Option.some.inj (pFound.symm.trans isNumber)
    have version := Option.some.inj (vFound.symm.trans isString)
    have product := Option.some.inj (qFound.symm.trans isString')
    exact ⟨pSame.symm.trans ((value_int_iff numeral protocol).mpr ⟨cs, number, token⟩),
      ⟨s, vSame.symm.trans ((value_str_iff s).mpr version)⟩,
      ⟨s', qSame.symm.trans ((value_str_iff s').mpr product)⟩⟩

/-! ## The gate -/

/-- What a constructor owes: a session only for a hello line of protocol 1, and in every
other case a transport that is closed by the time the exception leaves. -/
structure Gated (outcome : Except PyError (List UInt8))
    (result : Except PyError Session × Transport) : Prop where
  established : ∀ s, result.1 = .ok s → ∃ line, outcome = .ok line ∧ HelloBytes 1 line
  torn : ∀ e, result.1 = .error e → result.2.closed = true

/-- The outcomes of the wait that the constructor deals with: the exceptions that it
catches, and lines that `json.loads` reads without running out of stack and that, if
they have the three fields and the protocol equals 1, are JSON with fields of the
right types. -/
def Handled (rt : Runtime) : Except PyError (List UInt8) → Prop
  | .error e => e.isEOFError = true ∨ e.isOSError = true
  | .ok line => ¬ ReadsTooDeep rt false line ∧
      ∀ hello, Holds rt line hello → isProtocol hello.protocol = true →
        (∃ members, ObjectLine line members) ∧ (∃ n, hello.protocol = .int n) ∧
          (∃ s, hello.version = .str s) ∧ ∃ s, hello.product = .str s

/-- Of the values that equal the protocol, the integers are the one. -/
theorem isProtocol_int {n : Int} : isProtocol (.int n) = true ↔ n = 1 := by
  rw [isProtocol, decide_eq_true_eq]

/-- A line with the fields of a hello is a hello line if it is JSON and the types are
right. -/
theorem helloBytes_iff {rt : Runtime} {line : List UInt8} {hello : Hello}
    (holds : Holds rt line hello) :
    HelloBytes 1 line ↔ (∃ members, ObjectLine line members) ∧ hello.Proper 1 := by
  obtain ⟨d, loaded, hasProtocol, hasVersion, hasProduct⟩ := holds
  constructor
  · rintro ⟨members, object, greeting⟩
    obtain ⟨rfl, numerals⟩ := dict_of_objectLine object loaded
    exact ⟨⟨members, object⟩, (proper_iff_greeting numerals hasProtocol hasVersion hasProduct).mpr greeting⟩
  · rintro ⟨⟨members, object⟩, proper⟩
    obtain ⟨rfl, numerals⟩ := dict_of_objectLine object loaded
    exact ⟨members, object, (proper_iff_greeting numerals hasProtocol hasVersion hasProduct).mp proper⟩

theorem Holds.unique {rt : Runtime} {line : List UInt8} {first second : Hello}
    (one : Holds rt line first) (two : Holds rt line second) : first = second := by
  obtain ⟨d, loaded, p, v, q⟩ := one
  obtain ⟨d', loaded', p', v', q'⟩ := two
  cases loaded.symm.trans loaded'
  obtain ⟨protocol, version, product⟩ := first
  cases p.symm.trans p'
  cases v.symm.trans v'
  cases q.symm.trans q'
  rfl

theorem Holds.shallow {rt : Runtime} {line : List UInt8} {hello : Hello}
    (holds : Holds rt line hello) : ¬ ReadsTooDeep rt false line := by
  obtain ⟨d, loaded, _⟩ := holds
  have outcome := loads_loaded rt false line
  rw [loaded] at outcome
  cases outcome with
  | value shallow _ => exact shallow

/-- A constructor that ended with an exception owes the closing. -/
theorem gated_error {outcome : Except PyError (List UInt8)} {e : PyError} {transport : Transport} :
    Gated outcome (.error e, transport) ↔ transport.closed = true :=
  ⟨fun gated => gated.torn e rfl, fun closed => ⟨fun _ none => (by cases none), fun _ _ => closed⟩⟩

theorem gated_ok {line : List UInt8} {s : Session} {transport : Transport} :
    Gated (.ok line) (.ok s, transport) ↔ HelloBytes 1 line := by
  constructor
  · intro gated
    obtain ⟨line', same, hello⟩ := gated.established s rfl
    cases same
    exact hello
  · exact fun hello => ⟨fun _ _ => ⟨line, rfl, hello⟩, nofun⟩

/-- The constructor does what it owes exactly for the outcomes that it deals with. -/
theorem hello_gate_iff (pf : Platform) (timeout : Option PyFloat) (outlet : Outlet Fault UInt8)
    (reader : LineReader) (outcome : Except PyError (List UInt8)) :
    Gated outcome (Session.establish pf timeout outcome ⟨outlet, reader, false⟩) ↔
      Handled pf.toRuntime outcome := by
  cases outcome with
  | error e =>
      rw [Session.establish, Handled, ← Bool.or_eq_true]
      split
      · rename_i caught
        exact gated_error.trans ⟨fun _ => caught, fun _ => rfl⟩
      · rename_i escapes
        exact gated_error.trans ⟨(fun is => by cases is), fun caught => absurd caught escapes⟩
  | ok line =>
      rw [Session.establish, Handled]
      have decoded := decodeHello_decoded pf.toRuntime pf.shown line
      generalize decodeHello pf.toRuntime pf.shown line = x at decoded
      cases decoded with
      | refused shallow none =>
          exact gated_error.trans
            ⟨fun _ => ⟨shallow, fun hello holds => absurd holds (none hello)⟩, fun _ => rfl⟩
      | deep deep none =>
          exact gated_error.trans ⟨(fun is => by cases is), fun handled => absurd deep handled.1⟩
      | @hello hello holds =>
          dsimp only
          split
          · rename_i equal
            rw [gated_ok, helloBytes_iff holds]
            constructor
            · rintro ⟨object, ⟨isOne, version, product⟩⟩
              refine ⟨holds.shallow, fun other holds' _ => ?_⟩
              cases holds.unique holds'
              exact ⟨object, ⟨1, isOne⟩, version, product⟩
            · rintro ⟨_, each⟩
              obtain ⟨object, ⟨n, isInt⟩, version, product⟩ := each hello holds equal
              rw [isInt, isProtocol_int] at equal
              exact ⟨object, ⟨equal ▸ isInt, version, product⟩⟩
          · rename_i different
            have handled : ¬ ReadsTooDeep pf.toRuntime false line ∧
                ∀ hello, Holds pf.toRuntime line hello → isProtocol hello.protocol = true →
                  (∃ members, ObjectLine line members) ∧ (∃ n, hello.protocol = .int n) ∧
                    (∃ s, hello.version = .str s) ∧ ∃ s, hello.product = .str s := by
              refine ⟨holds.shallow, fun other holds' equal => ?_⟩
              cases holds.unique holds'
              exact absurd equal different
            split
            · exact gated_error.trans ⟨fun _ => handled, fun _ => rfl⟩
            · exact gated_error.trans ⟨fun _ => handled, fun _ => rfl⟩

/-- A first line without its newline, or over the limit, is a `ProtocolError` of the
reader, which leaves the constructor with the transport open. -/
theorem hello_gate_open : ¬ ∀ (pf : Platform) (timeout : Option PyFloat)
    (outlet : Outlet Fault UInt8) (reader : LineReader) (outcome : Except PyError (List UInt8)),
    Gated outcome (Session.establish pf timeout outcome ⟨outlet, reader, false⟩) := by
  intro gated
  have unterminated := gated samplePlatform none .fresh (.start ⟨Utf8.bytes "x", none⟩)
    (.error Terminal.lineTooLong.error)
  cases unterminated.torn _ rfl

end SanDbOxFormal.Python
