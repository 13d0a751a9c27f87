import SanDbOxFormal.Library.Failures
import SanDbOxFormal.Library.Segments
import SanDbOxFormal.TypeScript.LineReader
import SanDbOxFormal.TypeScript.ValueRoundTrip

/-!
# Request lines of the TypeScript driver

`JSON.stringify` escapes every control character, so the newline behind a request is the
only one in its line, and each line is read as the record of its own request.
-/

namespace SanDbOxFormal.TypeScript

open SanDbOxFormal.Library
open SanDbOxFormal.Library.JsonReader (Spelled strictUnits)
open SanDbOxFormal.Library.Segments (frame complete remainder complete_frame remainder_frame)
open SanDbOxFormal.Library.Utf16 (characters)

/-! ## Visible units -/

/-- No unit is a control character. -/
def Visible (text : JsString) : Prop := ∀ u ∈ text, 0x20 ≤ u.toNat

theorem Visible.nil : Visible [] := fun _ inside => absurd inside List.not_mem_nil

theorem Visible.cons {u : UInt16} {text : JsString} (first : 0x20 ≤ u.toNat) (rest : Visible text) :
    Visible (u :: text) := List.forall_mem_cons.mpr ⟨first, rest⟩

theorem Visible.append {first second : JsString} (one : Visible first) (two : Visible second) :
    Visible (first ++ second) := List.forall_mem_append.mpr ⟨one, two⟩

theorem Visible.of_all {text : JsString} (all : text.all (fun u => 0x20 ≤ u.toNat) = true) : Visible text :=
  fun u inside => of_decide_eq_true (List.all_eq_true.mp all u inside)

theorem ascii_visible {cs : List Char} (narrow : ∀ c ∈ cs, 0x20 ≤ c.toNat ∧ c.toNat < 0x80) :
    Visible (ascii cs) := by
  intro u inside
  obtain ⟨c, among, rfl⟩ := List.mem_map.mp inside
  obtain ⟨low, high⟩ := narrow c among
  rw [UInt16.toNat_ofNat', Nat.mod_eq_of_lt (Nat.lt_trans high (by decide))]
  exact low

theorem hexUnit_visible {n : Nat} (small : n < 16) : 0x20 ≤ (hexUnit n).toNat := by
  rw [hexUnit, UInt16.toNat_ofNat']
  split
  · omega
  · omega

theorem unicodeEscape_visible (u : UInt16) : Visible (unicodeEscape u) := by
  have range : u.toNat < 0x10000 := u.toNat_lt
  refine .cons (by decide) (.cons (by decide) (.cons (hexUnit_visible ?_) (.cons (hexUnit_visible ?_)
    (.cons (hexUnit_visible ?_) (.cons (hexUnit_visible ?_) .nil)))))
  · omega
  · exact Nat.mod_lt _ (by decide)
  · exact Nat.mod_lt _ (by decide)
  · exact Nat.mod_lt _ (by decide)

theorem quoteUnit_visible (u : UInt16) : Visible (quoteUnit u) := by
  have short (e : UInt16) (visible : 0x20 ≤ e.toNat) : Visible [0x5C, e] :=
    .cons (by decide) (.cons visible .nil)
  unfold quoteUnit
  split_ifs with quote escape b f n r t control
  · exact short 0x22 (by decide)
  · exact short 0x5C (by decide)
  · exact short 0x62 (by decide)
  · exact short 0x66 (by decide)
  · exact short 0x6E (by decide)
  · exact short 0x72 (by decide)
  · exact short 0x74 (by decide)
  · exact unicodeEscape_visible u
  · refine .cons (Nat.le_of_not_lt fun small => control ?_) .nil
    rw [Bool.or_eq_true, Bool.or_eq_true, decide_eq_true_eq]
    exact .inl (.inl small)

theorem quoteUnits_visible (s : JsString) : Visible (quoteUnits s) := by
  induction s using quoteUnits.induct with
  | case1 => exact .nil
  | case2 u => exact quoteUnit_visible u
  | case3 u v rest pair ih =>
      obtain ⟨high, low⟩ := Bool.and_eq_true_iff.mp pair
      rw [Utf16.isHigh, Bool.and_eq_true, decide_eq_true_eq] at high
      rw [Utf16.isLow, Bool.and_eq_true, decide_eq_true_eq] at low
      rw [quoteUnits_cons, if_pos pair]
      exact .cons (Nat.le_trans (by decide) high.1) (.cons (Nat.le_trans (by decide) low.1) ih)
  | case4 u v rest single ih =>
      rw [quoteUnits_cons, if_neg single]
      exact (quoteUnit_visible u).append ih

theorem quote_visible (s : JsString) : Visible (quote s) :=
  .cons (by decide) ((quoteUnits_visible s).append (.cons (by decide) .nil))

mutual

theorem print_visible : ∀ v : Outgoing, v.Tokens → Visible (print v)
  | .null, _ => by
      rw [print]
      exact .of_all rfl
  | .bool b, _ => by
      rw [print]
      cases b <;> exact .of_all rfl
  | .raw token, number => by
      rw [print]
      refine ascii_visible fun c inside => ?_
      obtain ⟨low, high⟩ := JsonReader.number_ascii number c inside
      exact ⟨by omega, high⟩
  | .string s, _ => by
      rw [print]
      exact quote_visible s
  | .array items, tokens => by
      rw [print]
      exact .cons (by decide) ((printItems_visible items tokens).append (.cons (by decide) .nil))
  | .object members, tokens => by
      rw [print]
      exact .cons (by decide) ((printMembers_visible members tokens).append (.cons (by decide) .nil))

theorem printItems_visible : ∀ items : List Outgoing, TokensItems items → Visible (printItems items)
  | [], _ => by
      rw [printItems]
      exact .nil
  | [v], tokens => by
      rw [printItems]
      exact print_visible v tokens.1
  | v :: w :: rest, tokens => by
      rw [printItems]
      · exact (print_visible v tokens.1).append (.cons (by decide) (printItems_visible (w :: rest) tokens.2))
      · rintro ⟨⟩

theorem printMembers_visible : ∀ members : List (JsString × Outgoing), TokensMembers members →
    Visible (printMembers members)
  | [], _ => by
      rw [printMembers]
      exact .nil
  | [(key, v)], tokens => by
      rw [printMembers]
      exact (quote_visible key).append (.cons (by decide) (print_visible v tokens.1))
  | (key, v) :: m :: rest, tokens => by
      rw [printMembers]
      · exact (quote_visible key).append (.cons (by decide) ((print_visible v tokens.1).append
          (.cons (by decide) (printMembers_visible (m :: rest) tokens.2))))
      · rintro ⟨⟩

end

/-! ## Lines -/

/-- The bytes of a request in front of the newline. -/
def content (record : Record) : List UInt8 := encodeText (print (.object record))

theorem encodeRequestLine_eq {record : Record} (tokens : (Outgoing.object record).Tokens) :
    encodeRequestLine record = content record ++ [lf] := by
  obtain ⟨cs, same⟩ := (print_spec (.object record) tokens _ (Nat.le_refl _)).2
  have whole : print (.object record) ++ [0x0A] = Utf16.encode (cs ++ ['\n']) := by
    rw [same, Utf16.encode_append]
    rfl
  rw [encodeRequestLine, content, encodeText, encodeText, whole, same, Utf16.characters_encode,
    Utf16.characters_encode, Utf8.encode_append]
  rfl

theorem newline_not_mem_content {record : Record} (tokens : (Outgoing.object record).Tokens) :
    lf ∉ content record := by
  obtain ⟨cs, same⟩ := (print_spec (.object record) tokens _ (Nat.le_refl _)).2
  rw [content, encodeText, same, Utf16.characters_encode]
  intro inside
  have newline : '\n' ∈ cs := (Utf8.mem_encode_ascii (c := '\n') (by decide) _).mp inside
  have unit : (0x0A : UInt16) ∈ print (.object record) := by
    rw [same]
    exact List.mem_flatMap.mpr ⟨'\n', newline, List.mem_cons_self⟩
  exact absurd (print_visible (.object record) tokens _ unit) (by decide)

/-! ## Requests -/

section Requests

variable {std : NumberText}

theorem encodeValue_carried (tokens : std.Tokens) {v : ParamValue} {item : Outgoing}
    (encoded : encodeValue std v = .ok item) : Carried item := by
  cases v with
  | null =>
      cases encoded
      exact ⟨trivial, Nat.zero_le _⟩
  | bool b => cases encoded
  | other typeName => cases encoded
  | bigint n =>
      rw [encodeValue] at encoded
      split at encoded
      · cases encoded
      · cases encoded
        exact ⟨Decimal.toString_number n, Nat.zero_le _⟩
  | number v =>
      rw [encodeValue] at encoded
      split at encoded
      · cases encoded
      · rename_i finite
        rw [Bool.not_eq_true', Bool.not_eq_false] at finite
        cases encoded
        exact ⟨tokens v finite, Nat.zero_le _⟩
  | string s =>
      cases encoded
      exact ⟨trivial, Nat.zero_le _⟩
  | bytes b =>
      cases encoded
      exact ⟨⟨trivial, trivial⟩, Nat.le_refl 1⟩

theorem encodeItems_carried (tokens : std.Tokens) {i : Nat} {params : List ParamValue}
    {items : List Outgoing} (encoded : encodeItems std i params = .ok items) : ∀ item ∈ items, Carried item := by
  induction params generalizing i items with
  | nil =>
      cases encoded
      exact nofun
  | cons v rest ih =>
      obtain ⟨item, first, encoded⟩ := bind_ok_iff.mp encoded
      obtain ⟨more, later, encoded⟩ := bind_ok_iff.mp encoded
      cases encoded
      exact List.forall_mem_cons.mpr ⟨encodeValue_carried tokens (mapError_ok_iff.mp first), ih later⟩

theorem sqlRecord_carried (numeric : std.Tokens) {op : String} {sql : JsString} {params : List ParamValue}
    {record : Record} (made : sqlRecord std op sql params = .ok record) :
    (Outgoing.object record).Tokens ∧ (Outgoing.object record).depth ≤ 3 := by
  rw [sqlRecord, encodeParams] at made
  split at made
  · cases made
    exact ⟨⟨trivial, trivial, trivial⟩, Nat.le_of_ble_eq_true rfl⟩
  · generalize encoded : encodeItems std 0 params = outcome at made
    cases outcome with
    | error e => cases made
    | ok items =>
        cases made
        obtain ⟨tokens, shallow⟩ := carried_items (encodeItems_carried numeric encoded)
        refine ⟨⟨trivial, trivial, tokens, trivial⟩, ?_⟩
        simp only [opField, Option.map_some, Option.toList_some, List.cons_append, List.nil_append, Outgoing.depth,
          depthMembers]
        omega

/-- A record without parameters. -/
theorem flat_carried {record : Record} (flat : ∀ m ∈ record, m.2.Tokens ∧ m.2.depth = 0) :
    (Outgoing.object record).Tokens ∧ (Outgoing.object record).depth ≤ 3 := by
  have each : TokensMembers record ∧ depthMembers record = 0 := by
    induction record with
    | nil => exact ⟨trivial, rfl⟩
    | cons m rest ih =>
        obtain ⟨first, others⟩ := List.forall_mem_cons.mp flat
        obtain ⟨tokens, shallow⟩ := ih others
        refine ⟨⟨first.1, tokens⟩, ?_⟩
        rw [depthMembers, first.2, shallow]
        rfl
  refine ⟨each.1, ?_⟩
  rw [Outgoing.depth, each.2]
  decide

/-- The record of any request is printed with JSON numbers, and nests no deeper than a parameter does. -/
theorem record_carried (numeric : std.Tokens) {req : Request} {record : Record} (made : req.record std = .ok record) :
    (Outgoing.object record).Tokens ∧ (Outgoing.object record).depth ≤ 3 := by
  have op (name : String) : ∀ m ∈ [opField name], m.2.Tokens ∧ m.2.depth = 0 :=
    List.forall_mem_singleton.mpr ⟨trivial, rfl⟩
  have text (key : String) (s : Option JsString) : ∀ m ∈ textField key s, m.2.Tokens ∧ m.2.depth = 0 := by
    intro m inside
    cases s with
    | none => cases inside
    | some s =>
        rw [textField] at inside
        split at inside
        · cases inside
        · rw [List.mem_singleton.mp inside]
          exact ⟨trivial, rfl⟩
  have flag (key : String) (on : Option Bool) : ∀ m ∈ flagField key on, m.2.Tokens ∧ m.2.depth = 0 := by
    intro m inside
    rw [flagField] at inside
    split at inside
    · rw [List.mem_singleton.mp inside]
      exact ⟨trivial, rfl⟩
    · cases inside
  cases req with
  | query sql params => exact sqlRecord_carried numeric made
  | exec sql params => exact sqlRecord_carried numeric made
  | snapshot options =>
      cases made
      exact flat_carried (List.forall_mem_append.mpr ⟨List.forall_mem_append.mpr
        ⟨List.forall_mem_append.mpr ⟨op _, text _ _⟩, flag _ _⟩, flag _ _⟩)
  | load path =>
      cases made
      exact flat_carried (List.forall_mem_cons.mpr ⟨⟨trivial, rfl⟩, List.forall_mem_singleton.mpr ⟨trivial, rfl⟩⟩)
  | schema table =>
      cases made
      exact flat_carried (List.forall_mem_append.mpr ⟨op _, text _ _⟩)
  | dump pattern =>
      cases made
      exact flat_carried (List.forall_mem_append.mpr ⟨op _, text _ _⟩)
  | inspect =>
      cases made
      exact flat_carried (op _)
  | tables =>
      cases made
      exact flat_carried (op _)
  | overwrite =>
      cases made
      exact flat_carried (op _)
  | close =>
      cases made
      exact flat_carried (op _)

/-- The line of a request is its content and a newline. -/
theorem Request.line_eq (laws : std.Lawful) {req : Request} {line : List UInt8} (made : req.line std = .ok line) :
    ∃ record, req.record std = .ok record ∧ line = content record ++ [lf] ∧ lf ∉ content record := by
  rw [Request.line] at made
  generalize built : req.record std = outcome at made
  cases outcome with
  | error e => cases made
  | ok record =>
      cases made
      obtain ⟨tokens, _⟩ := record_carried laws.tokens built
      exact ⟨record, rfl, encodeRequestLine_eq tokens, newline_not_mem_content tokens⟩

/-- A line is read as the object that its record is printed from. -/
def ReadAs (line : List UInt8) (record : Record) : Prop :=
  ∃ text, decodeText line = .ok text ∧
    JsonReader.read strictUnits text.length (text.map UInt16.toNat) = .ok (Outgoing.object record).tree

theorem content_read {record : Record} (tokens : (Outgoing.object record).Tokens)
    (shallow : (Outgoing.object record).depth ≤ 3) : ReadAs (content record) record := by
  have deep : (Outgoing.object record).depth ≤ (print (.object record)).length := by
    cases record with
    | nil => decide
    | cons m rest =>
        refine Nat.le_trans shallow ?_
        have key : 1 ≤ (printMembers (m :: rest)).length := by
          cases rest with
          | nil => exact Nat.succ_pos _
          | cons next more => exact Nat.succ_pos _
        rw [print, List.length_cons, List.length_append]
        exact Nat.succ_le_succ (Nat.add_le_add key (Nat.le_refl 1))
  obtain ⟨spelled, whole⟩ := print_spec (.object record) tokens (print (.object record)).length deep
  have unmarked : (print (.object record)).head? ≠ .some 0xFEFF := by
    rw [print]
    exact fun same => absurd (Option.some.inj same) (by decide)
  have read := spelled.read (JsonReader.standard_of_plain rfl) noSpace noSpace
  rw [List.nil_append, List.append_nil] at read
  exact ⟨_, decodeText_encodeText whole unmarked, read⟩

/-- The lines of any requests, one after the other, fall into as many lines again, and each is read
as the record of its own request. -/
theorem request_lines_apart (std : NumberText) (laws : std.Lawful) (requests : List Request)
    (lines : List (List UInt8)) (made : requests.mapM (Request.line std) = .ok lines) :
    remainder lf lines.flatten = [] ∧
      List.Forall₂ (fun line req => ∃ record, req.record std = .ok record ∧ ReadAs line record)
        (complete lf lines.flatten) requests := by
  obtain ⟨contents, same, clean, each⟩ : ∃ contents, lines.flatten = frame lf contents ∧
      (∀ c ∈ contents, lf ∉ c) ∧
      List.Forall₂ (fun line req => ∃ record, req.record std = .ok record ∧ ReadAs line record) contents requests := by
    induction requests generalizing lines with
    | nil =>
        cases made
        exact ⟨[], rfl, fun _ inside => absurd inside List.not_mem_nil, .nil⟩
    | cons req rest ih =>
        rw [List.mapM_cons] at made
        obtain ⟨line, first, made⟩ := bind_ok_iff.mp made
        obtain ⟨more, later, made⟩ := bind_ok_iff.mp made
        cases made
        obtain ⟨record, built, shape, apart⟩ := req.line_eq laws first
        obtain ⟨tokens, shallow⟩ := record_carried laws.tokens built
        obtain ⟨contents, same, clean, each⟩ := ih more later
        refine ⟨content record :: contents, ?_, List.forall_mem_cons.mpr ⟨apart, clean⟩,
          .cons ⟨record, built, content_read tokens shallow⟩ each⟩
        rw [List.flatten_cons, same, shape]
        rfl
  rw [same, remainder_frame clean, complete_frame clean]
  exact ⟨rfl, each⟩

/-- A text with a newline and half of a surrogate pair. -/
theorem request_lines_apart_sample :
    let requests := [Request.query (lit "SELECT ?\n;") [.string [0xD800]], .close]
    ∃ lines, requests.mapM (Request.line sampleNumberText) = .ok lines ∧ remainder lf lines.flatten = [] ∧
      List.Forall₂ (fun line req => ∃ record, req.record sampleNumberText = .ok record ∧ ReadAs line record)
        (complete lf lines.flatten) requests :=
  ⟨_, rfl, request_lines_apart sampleNumberText sampleNumberText_lawful _ _ rfl⟩

end Requests

end SanDbOxFormal.TypeScript
