import SanDbOxFormal.TypeScript.Printed

/-!
# Values of the TypeScript driver on the wire

Parameters that are put into a request come back from its bytes, through the same
parser and decoder that read responses, and a parameter that cannot be sent stops the
request before it is written.
-/

namespace SanDbOxFormal.TypeScript

open SanDbOxFormal.Library
open SanDbOxFormal.Library.JsonReader (Tree points strictUnits)
open SanDbOxFormal.Library.Utf16 (Whole ofNat_toNat whole_of_all)
open SanDbOxFormal.Protocol (IntegerToken)

/-- The parameters that can be sent: every integer has 64 bits, and every `number` is
finite. -/
def Sendable : ParamValue → Prop
  | .bigint n => -2 ^ 63 ≤ n ∧ n < 2 ^ 63
  | .number v => v.isFinite = true
  | .bool _ | .other _ => False
  | _ => True

instance (v : ParamValue) : Decidable (Sendable v) := by
  cases v <;> unfold Sendable <;> infer_instance

/-- A value is of the kind of the parameter, and holds the same. -/
inductive Same (std : NumberText) : ParamValue → Value → Prop where
  | null : Same std .null .null
  | bigint (n : Int) : Same std (.bigint n) (.bigint n)
  | number {v : Double} {token : JsString}
      (reads : std.ofText (token.map fun u => Char.ofNat u.toNat) = v) :
      Same std (.number v) (.number token)
  | string (s : JsString) : Same std (.string s) (.string s)
  | bytes (b : List UInt8) : Same std (.bytes b) (.bytes b)

variable {std : NumberText}

/-! ## Numbers -/

/-- A real token is a numeral, has a point or an exponent, and reads back to the same
bits. -/
theorem realToken_spec (laws : std.Lawful) {v : Double} (finite : v.isFinite = true) :
    Rfc8259.Number (realToken std v) ∧ (realToken std v).any Decimal.isRealMark = true ∧
      std.ofText (realToken std v) = v := by
  have zero : Rfc8259.Number ['-', '0', '.', '0'] :=
    .mk .minus .zero (.point (by decide) (List.forall_mem_singleton.mpr rfl)) .absent
  by_cases minus : v = .minusZero
  · subst minus
    exact ⟨zero, rfl, laws.minusZero⟩
  · unfold realToken
    rw [if_neg minus]
    dsimp only
    split
    · rename_i marked
      exact ⟨laws.numeral v finite, marked, laws.reads v finite minus⟩
    · rename_i unmarked
      rw [Bool.not_eq_true] at unmarked
      refine ⟨Decimal.number_suffix (laws.numeral v finite) unmarked, ?_,
        laws.readsSuffixed v finite minus unmarked⟩
      rw [List.any_append]
      exact Bool.or_true _

/-- What goes on the wire for a finite number is a numeral. -/
def NumberText.Tokens (std : NumberText) : Prop :=
  ∀ v : Double, v.isFinite = true → Rfc8259.Number (realToken std v)

theorem NumberText.Lawful.tokens (laws : std.Lawful) : std.Tokens :=
  fun _ finite => (realToken_spec laws finite).1

theorem integerToken_toString (n : Int) : IntegerToken (toString n).toList n :=
  (Protocol.parseInt?_eq_some_iff (Decimal.toString_number n)).mp (Decimal.parseInt?_toString n)

theorem valueNumberPolicy_real {token : List Char} (number : Rfc8259.Number token)
    (marked : token.any Decimal.isRealMark = true) :
    valueNumberPolicy (string (points token)) = .ok (.number (string (points token))) := by
  rw [valueNumberPolicy, isReal_string (JsonReader.number_ascii number), if_pos marked]

theorem valueNumberPolicy_integer {n : Int} (low : -2 ^ 63 ≤ n) (high : n < 2 ^ 63) :
    valueNumberPolicy (string (points (toString n).toList)) = .ok (.bigint n) := by
  have narrow := JsonReader.number_ascii (Decimal.toString_number n)
  rw [valueNumberPolicy, isReal_string narrow,
    if_neg (Bool.eq_false_iff.mp (Decimal.toString_not_real n)),
    bigInt_token (integerToken_toString n) narrow, if_neg]
  omega

/-! ## BLOBs -/

theorem sextet?_toNat (u : UInt16) : sextet? u = Base64.sextet? u.toNat := by
  have same (k : UInt16) : decide (u = k) = decide (u.toNat = k.toNat) :=
    decide_eq_decide.mpr UInt16.toNat_inj.symm
  simp only [sextet?, Base64.sextet?, UInt16.le_iff_toNat_le]
  have plus : (u = 0x2B) = (u.toNat = 0x2B) := propext UInt16.toNat_inj.symm
  have slash : (u = 0x2F) = (u.toNat = 0x2F) := propext UInt16.toNat_inj.symm
  simp only [plus, slash]
  rfl

/-- The decoder of BLOBs is the one for Base64, over units. -/
theorem base64?_toNat (s : JsString) : base64? s = Base64.decode? (s.map UInt16.toNat) := by
  induction s using base64?.induct with
  | case1 => rfl
  | case2 a b c d rest ih =>
      have mark (u : UInt16) : (u = 0x3D) = (u.toNat = Base64.pad) := propext UInt16.toNat_inj.symm
      have empty : (rest = []) = (rest.map UInt16.toNat = []) := propext List.map_eq_nil_iff.symm
      simp only [List.map_cons, base64?, Base64.decode?, sextet?_toNat, mark, empty, ih]
  | case3 s none other =>
      rcases s with _ | ⟨a, _ | ⟨b, _ | ⟨c, _ | ⟨d, rest⟩⟩⟩⟩
      · exact absurd rfl none
      · rfl
      · rfl
      · rfl
      · exact absurd rfl (other a b c d rest)

theorem base64Groups_toNat (s : JsString) : base64Groups s = Base64.groups (s.map UInt16.toNat) := by
  induction s using base64Groups.induct with
  | case1 a b c d rest letters ih =>
      rw [base64Groups, if_pos letters, ih, List.map_cons, List.map_cons, List.map_cons, List.map_cons, Base64.groups,
        if_pos]
      simpa only [List.all_cons, List.all_nil, sextet?_toNat] using letters
  | case2 a b c d rest letters =>
      rw [base64Groups, if_neg letters, List.map_cons, List.map_cons, List.map_cons, List.map_cons, Base64.groups,
        if_neg]
      simpa only [List.all_cons, List.all_nil, sextet?_toNat] using letters
  | case3 s other =>
      rcases s with _ | ⟨a, _ | ⟨b, _ | ⟨c, _ | ⟨d, rest⟩⟩⟩⟩
      · rfl
      · rfl
      · rfl
      · rfl
      · exact absurd rfl (other a b c d rest)

theorem base64_toNat (b : List UInt8) : (base64 b).map UInt16.toNat = Base64.encode b := by
  rw [base64, List.map_map]
  refine (List.map_congr_left fun u inside => ?_).trans (List.map_id _)
  have plain := Base64.isUnit_plain (Base64.encode_units b u inside)
  exact ofNat_toNat (by omega)

theorem base64?_base64 (b : List UInt8) : base64? (base64 b) = some b := by
  rw [base64?_toNat, base64_toNat, Base64.decode?_encode]

theorem base64Groups_base64 (b : List UInt8) : base64Groups (base64 b) = b.length / 3 := by
  rw [base64Groups_toNat, base64_toNat, Base64.groups_of_decodes (Base64.decode?_encode b)]

/-! ## One parameter -/

/-- The runtime can test the text of the parameter, if it is a BLOB. -/
def ParamValue.Testable (rt : Runtime) : ParamValue → Prop
  | .bytes b => b.length / 3 ≤ rt.regExpGroups
  | _ => True

instance (rt : Runtime) (v : ParamValue) : Decidable (v.Testable rt) := by
  cases v <;> unfold ParamValue.Testable <;> infer_instance

theorem string_units (s : JsString) : string (s.map UInt16.toNat) = s := by
  rw [string, List.map_map]
  exact (List.map_congr_left fun u _ => UInt16.ofNat_toNat).trans (List.map_id s)

/-- What is printed for a parameter. -/
structure Carried (item : Outgoing) : Prop where
  tokens : item.Tokens
  shallow : item.depth ≤ 1

/-- The walk of the reviver over what was printed for a parameter, and the decoder
behind it, give the parameter back if there is room to test it. -/
theorem encodeValue_spec (laws : std.Lawful) (rt : Runtime) {v : ParamValue}
    (sendable : Sendable v) :
    ∃ item w value, encodeValue std v = .ok item ∧ Carried item ∧
      (∀ n, 1 ≤ n → revive n (construct item.tree) = .ok w) ∧
      (v.Testable rt → decodeValue rt w = .ok value) ∧ Same std v value := by
  cases v with
  | null => exact ⟨_, .null, .null, rfl, ⟨trivial, Nat.zero_le _⟩, fun n _ => rfl, fun _ => rfl, .null⟩
  | bool b => exact absurd sendable id
  | other typeName => exact absurd sendable id
  | bigint n =>
      obtain ⟨low, high⟩ := sendable
      have inside : ¬ (n < -2 ^ 63 ∨ n > 2 ^ 63 - 1) := by omega
      refine ⟨_, .bigint n, .bigint n, if_neg inside, ⟨Decimal.toString_number n, Nat.zero_le _⟩,
        fun m _ => ?_, fun _ => rfl, .bigint n⟩
      have walk : revive m (construct (Outgoing.raw (toString n).toList).tree) =
          valueNumberPolicy (string (points (toString n).toList)) := by
        cases m <;> rfl
      rw [walk, valueNumberPolicy_integer low high]
  | number v =>
      have finite : v.isFinite = true := sendable
      obtain ⟨number, marked, parsed⟩ := realToken_spec laws finite
      have held : ¬ (!v.isFinite) = true := by
        rw [finite]
        exact Bool.false_ne_true
      have token : (string (points (realToken std v))).map (fun u => Char.ofNat u.toNat) =
          realToken std v := by
        have composed := congrArg (List.map Char.ofNat) (string_toNat (JsonReader.number_ascii number))
        rwa [List.map_map, JsonReader.chars_points] at composed
      refine ⟨_, .number (string (points (realToken std v))), .number _, if_neg held,
        ⟨number, Nat.zero_le _⟩, fun m _ => ?_, fun _ => rfl, .number (by rw [token, parsed])⟩
      have walk : revive m (construct (Outgoing.raw (realToken std v)).tree) =
          valueNumberPolicy (string (points (realToken std v))) := by
        cases m <;> rfl
      rw [walk, valueNumberPolicy_real number marked]
  | string s =>
      refine ⟨_, .string s, .string s, rfl, ⟨trivial, Nat.zero_le _⟩, fun n _ => ?_, fun _ => rfl, .string s⟩
      have walk : revive n (construct (Outgoing.string s).tree) =
          .ok (.string (string (s.map UInt16.toNat))) := by
        cases n <;> rfl
      rw [walk, string_units]
  | bytes b =>
      refine ⟨_, .array [.string (base64 b)], .bytes b, rfl, ⟨⟨trivial, trivial⟩, Nat.le_refl 1⟩,
        fun n deep => ?_, fun room => ?_, .bytes b⟩
      · obtain ⟨m, rfl⟩ : ∃ m, n = m + 1 := ⟨n - 1, by omega⟩
        have walk : revive (m + 1) (construct (Outgoing.array [.string (base64 b)]).tree) =
            .ok (.array [.string (string ((base64 b).map UInt16.toNat))]) := by
          cases m <;> rfl
        rw [walk, string_units]
      · rw [decodeValue, decodeBase64Strict, base64Groups_base64, if_neg (Nat.not_lt_of_le room), base64?_base64]
        rfl

/-- A parameter that cannot be sent is refused. -/
theorem encodeValue_refuses (std : NumberText) {v : ParamValue} (other : ¬ Sendable v) :
    ∃ e, encodeValue std v = .error e := by
  cases v with
  | null => exact absurd trivial other
  | bool b => exact ⟨_, rfl⟩
  | bigint n =>
      have outside : n < -2 ^ 63 ∨ n > 2 ^ 63 - 1 := by
        simp only [Sendable] at other
        omega
      exact ⟨_, if_pos outside⟩
  | number v =>
      have infinite : (!v.isFinite) = true := by
        rw [Bool.not_eq_true']
        exact Bool.eq_false_iff.mpr other
      exact ⟨_, if_pos infinite⟩
  | string s => exact absurd trivial other
  | bytes b => exact absurd trivial other
  | other typeName => exact ⟨_, rfl⟩

/-! ## Lists of parameters -/

theorem encodeItems_spec (laws : std.Lawful) (rt : Runtime) {params : List ParamValue}
    (sendable : ∀ v ∈ params, Sendable v) (i : Nat) :
    ∃ items ws values, encodeItems std i params = .ok items ∧ (∀ item ∈ items, Carried item) ∧
      (∀ n, 1 ≤ n → reviveItems n (constructItems (treeItems items)) = .ok ws) ∧
      ((∀ v ∈ params, v.Testable rt) → ws.mapM (decodeValue rt) = .ok values) ∧
      List.Forall₂ (Same std) params values := by
  induction params generalizing i with
  | nil =>
      exact ⟨[], [], [], rfl, nofun, fun n _ => by cases n <;> rfl, fun _ => rfl, .nil⟩
  | cons v rest ih =>
      obtain ⟨first, others⟩ := List.forall_mem_cons.mp sendable
      obtain ⟨item, w, value, encoded, carried, revived, decoded, same⟩ :=
        encodeValue_spec laws rt first
      obtain ⟨items, ws, values, encodedRest, carriedRest, revivedRest, decodedRest, sameRest⟩ :=
        ih others (i + 1)
      refine ⟨item :: items, w :: ws, value :: values, ?_,
        List.forall_mem_cons.mpr ⟨carried, carriedRest⟩, fun n deep => ?_, fun testable => ?_, .cons same sameRest⟩
      · rw [encodeItems, encoded, encodedRest]
        rfl
      · rw [treeItems, constructItems, reviveItems, revived n deep, revivedRest n deep]
        rfl
      · obtain ⟨here, later⟩ := List.forall_mem_cons.mp testable
        rw [List.mapM_cons, decoded here, decodedRest later]
        rfl

theorem encodeItems_refuses (std : NumberText) {params : List ParamValue} {v : ParamValue} (inside : v ∈ params)
    (other : ¬ Sendable v) (i : Nat) : ∃ e, encodeItems std i params = .error e := by
  induction params generalizing i with
  | nil => cases inside
  | cons w rest ih =>
      rw [encodeItems]
      cases encoded : encodeValue std w with
      | error e => exact ⟨_, rfl⟩
      | ok item =>
          rcases List.mem_cons.mp inside with rfl | later
          · obtain ⟨e, refused⟩ := encodeValue_refuses std other
            rw [refused] at encoded
            cases encoded
          · obtain ⟨e, refused⟩ := ih later (i + 1)
            refine ⟨e, ?_⟩
            change (do
              let items ← encodeItems std (i + 1) rest
              Except.ok (item :: items)) = _
            rw [refused]
            rfl

theorem carried_items {items : List Outgoing} (carried : ∀ item ∈ items, Carried item) :
    TokensItems items ∧ depthItems items ≤ 1 := by
  induction items with
  | nil => exact ⟨trivial, Nat.zero_le _⟩
  | cons item rest ih =>
      obtain ⟨first, others⟩ := List.forall_mem_cons.mp carried
      obtain ⟨tokens, shallow⟩ := ih others
      exact ⟨⟨first.tokens, tokens⟩, Nat.max_le.mpr ⟨first.shallow, shallow⟩⟩

/-! ## Requests -/

/-- The record of a request with parameters. -/
def paramsRecord (op : String) (sql : JsString) (items : List Outgoing) : Record :=
  [opField op, (lit "sql", .string sql), (lit "params", .array items)]

/-- The bytes of a record decode to its text, which is read as its tree. -/
theorem line_read {record : Record} (tokens : (Outgoing.object record).Tokens)
    (shallow : (Outgoing.object record).depth ≤ 3) (rt : Runtime) :
    (decodeText (encodeRequestLine record) >>= parseJsonPreservingNumbers rt) =
      revive rt.reviveDepth (construct (Outgoing.object record).tree) := by
  have length : 3 ≤ (print (.object record) ++ [0x0A]).length := by
    rw [print, List.length_append, List.length_cons, List.length_append]
    simp only [List.length_cons, List.length_nil]
    omega
  obtain ⟨spelled, whole⟩ := print_spec (.object record) tokens
    (print (.object record) ++ [0x0A]).length (Nat.le_trans shallow length)
  have newline : Whole [0x0A] := whole_of_all rfl
  have unmarked : (print (.object record) ++ [0x0A]).head? ≠ some 0xFEFF := by
    rw [print]
    exact fun same => absurd (Option.some.inj same) (by decide)
  have space : JsonReader.Ws [0x0A] := List.forall_mem_singleton.mpr rfl
  have read := spelled.read (JsonReader.standard_of_plain rfl) noSpace space
  have text : (print (.object record) ++ [0x0A]).map UInt16.toNat =
      [] ++ ((print (.object record)).map UInt16.toNat ++ [0x0A]) := List.map_append
  rw [encodeRequestLine, decodeText_encodeText (whole.append newline) unmarked]
  change parseJsonPreservingNumbers rt _ = _
  rw [parseJsonPreservingNumbers, text, read]

/-- The object that a request with parameters is read as. -/
theorem construct_params (op : String) (sql : JsString) (items : List Outgoing) :
    construct (Outgoing.object (paramsRecord op sql items)).tree =
      .object [(lit "op", .string (lit op)), (lit "sql", .string sql),
        (lit "params", .array (constructItems (treeItems items)))] := by
  have keys : (lit "op" == lit "sql") = false ∧ (lit "op" == lit "params") = false ∧
      (lit "sql" == lit "params") = false := by decide
  have names : arrayIndex? (lit "op") = none ∧ arrayIndex? (lit "sql") = none ∧
      arrayIndex? (lit "params") = none := by decide
  simp only [paramsRecord, opField, Outgoing.tree, treeMembers, construct, constructMembers,
    string_units, Fields.set, List.any_nil, List.any_cons, Bool.false_eq_true, if_false,
    List.nil_append, List.cons_append, keys.1, keys.2.1, keys.2.2, Bool.or_self]
  simp only [Fields.ordered, List.filter_cons, List.filter_nil, names.1, names.2.1, names.2.2,
    Option.isSome_none, Option.isNone_none, Bool.false_eq_true, if_false, if_true,
    List.insertionSort_nil, List.nil_append]

/-- Parameters that can be sent come back from the bytes of their request, each of its
kind and with what it held, where the runtime has room to test the BLOBs; one that cannot
be sent keeps the request from being written. -/
theorem params_come_back (std : NumberText) (laws : std.Lawful) (rt : Runtime)
    (deep : 3 ≤ rt.reviveDepth) (op : String) (sql : JsString) (params : List ParamValue) :
    (params ≠ [] → (∀ v ∈ params, Sendable v) →
      ∃ record fields items values, sqlRecord std op sql params = .ok record ∧
        (decodeText (encodeRequestLine record) >>= parseJsonPreservingNumbers rt) =
          .ok (.object fields) ∧
        property fields (lit "params") = some (.array items) ∧
        ((∀ v ∈ params, v.Testable rt) → items.mapM (decodeValue rt) = .ok values) ∧
        List.Forall₂ (Same std) params values) ∧
    ((∃ v ∈ params, ¬ Sendable v) →
      (∃ e, (Request.query sql params).line std = .error e) ∧
        ∃ e, (Request.exec sql params).line std = .error e) := by
  refine ⟨fun filled sendable => ?_, ?_⟩
  · obtain ⟨items, ws, values, encoded, carried, revived, decoded, same⟩ :=
      encodeItems_spec laws rt sendable 0
    obtain ⟨tokens, shallow⟩ := carried_items carried
    have record : sqlRecord std op sql params = .ok (paramsRecord op sql items) := by
      rw [sqlRecord, encodeParams, List.isEmpty_eq_false_iff.mpr filled, encoded]
      rfl
    have depth : (Outgoing.object (paramsRecord op sql items)).depth ≤ 3 := by
      simp only [paramsRecord, opField, Outgoing.depth, depthMembers]
      omega
    have sound : (Outgoing.object (paramsRecord op sql items)).Tokens :=
      ⟨trivial, trivial, tokens, trivial⟩
    have read := line_read sound depth rt
    obtain ⟨n, limit⟩ : ∃ n, rt.reviveDepth = n + 3 := ⟨rt.reviveDepth - 3, by omega⟩
    have walked : revive (n + 3) (.object [(lit "op", .string (lit op)), (lit "sql", .string sql),
        (lit "params", .array (constructItems (treeItems items)))]) =
        .ok (.object [(lit "op", .string (lit op)), (lit "sql", .string sql),
          (lit "params", .array ws)]) := by
      have array : revive (n + 2) (.array (constructItems (treeItems items))) = .ok (.array ws) := by
        rw [revive, revived (n + 1) (by omega)]
        rfl
      rw [revive, reviveMembers, reviveMembers, reviveMembers, array]
      rfl
    rw [construct_params, limit, walked] at read
    refine ⟨_, _, ws, values, record, read, ?_, decoded, same⟩
    rfl
  · rintro ⟨v, inside, other⟩
    have filled : params.isEmpty = false :=
      List.isEmpty_eq_false_iff.mpr (List.ne_nil_of_mem inside)
    obtain ⟨e, refused⟩ := encodeItems_refuses std inside other 0
    have stopped (op : String) : sqlRecord std op sql params = .error e := by
      rw [sqlRecord, encodeParams, filled, refused]
      rfl
    constructor
    · refine ⟨e, ?_⟩
      rw [Request.line, Request.record, stopped]
      rfl
    · refine ⟨e, ?_⟩
      rw [Request.line, Request.record, stopped]
      rfl

/-! ## The laws have a model -/

/-- Prints `1.5`, `88` and minus zero as the runtime does, and any other `number` as its
bits with an exponent. -/
def sampleNumberText : NumberText where
  toText v :=
    if v.bits = 0x3FF8000000000000 then "1.5".toList
    else if v.bits = 0x4056000000000000 then "88".toList
    else if v = .minusZero then "0".toList
    else (toString (v.bits.toNat : Int)).toList ++ ['e', '0']
  ofText s :=
    if s = "1.5".toList then ⟨0x3FF8000000000000⟩
    else if s = "88".toList ∨ s = "88.0".toList then ⟨0x4056000000000000⟩
    else if s = "-0.0".toList then .minusZero
    else ⟨UInt64.ofNat ((Decimal.parseInt? s.dropLast.dropLast).getD 0).toNat⟩

theorem sampleNumberText_other {v : Double} (first : v.bits ≠ 0x3FF8000000000000)
    (second : v.bits ≠ 0x4056000000000000) (third : v ≠ .minusZero) :
    Rfc8259.Number (sampleNumberText.toText v) ∧
      (sampleNumberText.toText v).any Decimal.isRealMark = true ∧
      sampleNumberText.ofText (sampleNumberText.toText v) = v := by
  have printed : sampleNumberText.toText v = (toString (v.bits.toNat : Int)).toList ++ ['e', '0'] := by
    simp only [sampleNumberText, if_neg first, if_neg second, if_neg third]
  rw [printed]
  have letter : 'e' ∈ (toString (v.bits.toNat : Int)).toList ++ ['e', '0'] := by simp
  have other (s : List Char) (without : 'e' ∉ s) :
      (toString (v.bits.toNat : Int)).toList ++ ['e', '0'] ≠ s := fun same => without (same ▸ letter)
  have cut : ((toString (v.bits.toNat : Int)).toList ++ ['e', '0']).dropLast.dropLast =
      (toString (v.bits.toNat : Int)).toList := by simp
  refine ⟨Decimal.number_exponent (Decimal.toString_number _) (Decimal.toString_not_real _),
    List.any_eq_true.mpr ⟨'e', letter, by decide⟩, ?_⟩
  have notWhole := other "88".toList (by decide)
  have notSuffixed := other "88.0".toList (by decide)
  simp only [sampleNumberText, if_neg (other "1.5".toList (by decide)), notWhole, notSuffixed,
    or_self, if_false, if_neg (other "-0.0".toList (by decide)), cut, Decimal.parseInt?_toString,
    Option.getD_some, Int.toNat_natCast, UInt64.ofNat_toNat]

theorem sampleNumberText_lawful : sampleNumberText.Lawful where
  numeral v _ := by
    by_cases first : v.bits = 0x3FF8000000000000
    · have printed : sampleNumberText.toText v = "1.5".toList := if_pos first
      rw [printed]
      have whole : Rfc8259.IntPart ['1'] := .digits rfl (by decide) nofun
      have fraction : Rfc8259.FracPart ['.', '5'] :=
        .point (by decide) (List.forall_mem_singleton.mpr rfl)
      exact .mk .absent whole fraction .absent
    · by_cases second : v.bits = 0x4056000000000000
      · have printed : sampleNumberText.toText v = (toString (88 : Int)).toList := by
          exact (if_neg first).trans (if_pos second)
        rw [printed]
        exact Decimal.toString_number 88
      · by_cases third : v = .minusZero
        · subst third
          exact .mk .absent .zero .absent .absent
        · exact (sampleNumberText_other first second third).1
  reads v _ other := by
    obtain ⟨bits⟩ := v
    by_cases first : bits = 0x3FF8000000000000
    · subst first
      decide
    · by_cases second : bits = 0x4056000000000000
      · subst second
        decide
      · exact (sampleNumberText_other first second other).2.2
  readsSuffixed v _ other unmarked := by
    obtain ⟨bits⟩ := v
    by_cases first : bits = 0x3FF8000000000000
    · subst first
      cases unmarked
    · by_cases second : bits = 0x4056000000000000
      · subst second
        decide
      · rw [(sampleNumberText_other first second other).2.1] at unmarked
        cases unmarked
  minusZero := rfl

/-- A parameter of every kind, among them an integral `number`, minus zero and a lone
surrogate. -/
def sampleParams : List ParamValue :=
  [.null, .bigint (-2 ^ 63), .number ⟨0x4056000000000000⟩, .number .minusZero, .string [0xD800, 0x22],
    .bytes [1]]

theorem params_come_back_sample :
    (∃ record fields items values, sqlRecord sampleNumberText "query" [0x3F] sampleParams = .ok record ∧
      (decodeText (encodeRequestLine record) >>=
        parseJsonPreservingNumbers ⟨10, 10, 10, fun _ => [], id⟩) = .ok (.object fields) ∧
      property fields (lit "params") = some (.array items) ∧
      items.mapM (decodeValue ⟨10, 10, 10, fun _ => [], id⟩) = .ok values ∧
      List.Forall₂ (Same sampleNumberText) sampleParams values) ∧
    ∃ e, (Request.query [0x3F] [.bigint (2 ^ 63)]).line sampleNumberText = .error e := by
  have all (params : List ParamValue) := params_come_back sampleNumberText sampleNumberText_lawful
    ⟨10, 10, 10, fun _ => [], id⟩ (by decide) "query" [0x3F] params
  obtain ⟨record, fields, items, values, made, read, found, decoded, same⟩ := (all sampleParams).1 (by decide) (by decide)
  exact ⟨⟨record, fields, items, values, made, read, found, decoded (by decide), same⟩,
    ((all [.bigint (2 ^ 63)]).2 ⟨_, List.mem_cons_self, by decide⟩).1⟩

end SanDbOxFormal.TypeScript
