import SanDbOxFormal.Library.FieldChecks
import SanDbOxFormal.TypeScript.Decode

/-!
# Which errors leave the TypeScript decoders

Decoding is closed when every error that leaves it is one of the driver's own.  Two
things break out: a line that is not UTF-8, and an error message that prints a value
which `JSON.stringify` refuses.
-/

namespace SanDbOxFormal.TypeScript

open SanDbOxFormal.Library
open SanDbOxFormal.Library.FieldChecks

/-- Every error is a `SanDBoxError`. -/
def Closed {α : Type} (x : Except JsError α) : Prop := Throws (fun e => e.isSanDBox = true) x

theorem closed_ok {α : Type} (a : α) : Closed (.ok a) := Throws.ok a

theorem closed_protocol {α : Type} (m : JsString) : Closed (α := α) (.error (.protocol m)) :=
  Throws.error rfl

/-- A message may print a value if nothing in the value stops `JSON.stringify`. -/
theorem closed_printed_iff {rt : Runtime} {v : JsValue} {α : Type} {f : JsString → JsString} :
    Closed (α := α) (do
      let text ← stringify rt v
      .error (.protocol (f text))) ↔ Printable rt.stringifyDepth v := by
  rw [← serialize_ok_iff, Closed, Throws.bind_iff, stringify, Throws.bind_iff]
  constructor
  · rintro ⟨⟨closed, _⟩, _⟩
    cases outcome : serialize rt.stringifyDepth v with
    | ok _ => rfl
    | error e =>
        have own : e.isSanDBox = true := closed e outcome
        have other : e.isSanDBox = false := serialize_foreign rt.stringifyDepth v e outcome
        rw [own] at other
        cases other
  · intro printable
    rw [printable]
    exact ⟨⟨Throws.ok (), fun _ _ => Throws.ok _⟩, fun text _ => closed_protocol (f text)⟩

/-! ## Rows -/

/-- What a decoder may ask of the runtime: to print a value, and to test a text. -/
inductive Need where
  | print (v : JsValue)
  | test (s : JsString)

/-- The runtime has room for it. -/
def Need.Met (rt : Runtime) : Need → Prop
  | .print v => Printable rt.stringifyDepth v
  | .test s => base64Groups s ≤ rt.regExpGroups

/-- A cell that `decodeValue` accepts. -/
inductive Cell (rt : Runtime) : JsValue → Prop where
  | null : Cell rt .null
  | bigint {n : Int} : Cell rt (.bigint n)
  | number {token : JsString} : Cell rt (.number token)
  | string {s : JsString} : Cell rt (.string s)
  | blob {s : JsString} {bytes : List UInt8} (room : base64Groups s ≤ rt.regExpGroups)
      (decodes : base64? s = some bytes) : Cell rt (.array [.string s])

theorem decodeValue_ok_iff {rt : Runtime} {v : JsValue} :
    (∃ value, decodeValue rt v = .ok value) ↔ Cell rt v := by
  constructor
  · rintro ⟨value, decoded⟩
    unfold decodeValue at decoded
    split at decoded
    · exact .null
    · cases decoded
    · exact .bigint
    · exact .number
    · exact .string
    · rename_i s
      rw [decodeBase64Strict] at decoded
      split_ifs at decoded with full
      · cases decoded
      · cases shape : base64? s with
        | some bytes => exact .blob (Nat.le_of_not_lt full) shape
        | none =>
            rw [shape] at decoded
            cases decoded
    · obtain ⟨text, _, returned⟩ := bind_ok_iff.mp decoded
      cases returned
    · cases decoded
  · intro cell
    cases cell with
    | null => exact ⟨_, rfl⟩
    | bigint => exact ⟨_, rfl⟩
    | number => exact ⟨_, rfl⟩
    | string => exact ⟨_, rfl⟩
    | @blob s bytes room decodes =>
        refine ⟨.bytes bytes, ?_⟩
        rw [decodeValue, decodeBase64Strict, if_neg (Nat.not_lt_of_le room), decodes]
        rfl

/-- What the decoder of a cell needs: an array that is not one string is printed, and one that is
is tested. -/
inductive CellNeeds : JsValue → Need → Prop where
  | array {items : List JsValue} (other : ∀ s, items ≠ [.string s]) :
      CellNeeds (.array items) (.print (.array items))
  | blob {s : JsString} : CellNeeds (.array [.string s]) (.test s)

theorem decodeBase64Strict_closed_iff {rt : Runtime} {s : JsString} :
    Closed (decodeBase64Strict rt s) ↔ base64Groups s ≤ rt.regExpGroups := by
  rw [decodeBase64Strict]
  split_ifs with full
  · rw [Closed, Throws.error_iff]
    exact iff_of_false (by rintro ⟨⟩) (Nat.not_le_of_lt full)
  · refine iff_of_true ?_ (Nat.le_of_not_lt full)
    split
    · exact closed_ok _
    · exact closed_protocol _

theorem decodeValue_closed_iff {rt : Runtime} {v : JsValue} :
    Closed (decodeValue rt v) ↔ ∀ need, CellNeeds v need → need.Met rt := by
  unfold decodeValue
  split
  · exact ⟨nofun, fun _ => closed_ok _⟩
  · exact ⟨nofun, fun _ => closed_protocol _⟩
  · exact ⟨nofun, fun _ => closed_ok _⟩
  · exact ⟨nofun, fun _ => closed_ok _⟩
  · exact ⟨nofun, fun _ => closed_ok _⟩
  · rename_i s
    rw [Closed, Throws.map_iff]
    refine decodeBase64Strict_closed_iff.trans ⟨?_, fun met => met _ .blob⟩
    rintro room need (other | _)
    · exact absurd rfl (other s)
    · exact room
  · rename_i items other
    rw [closed_printed_iff]
    constructor
    · rintro printable need (_ | @⟨s⟩)
      · exact printable
      · exact absurd rfl (other s)
    · exact fun met => met _ (.array fun s same => other s same)
  · exact ⟨nofun, fun _ => closed_protocol _⟩

/-- What the decoder of a row needs. -/
inductive RowNeeds (rt : Runtime) : JsValue → Need → Prop where
  | row {row : JsValue} (other : ∀ cells, row ≠ .array cells) : RowNeeds rt row (.print row)
  | cell {front back : List JsValue} {v : JsValue} {need : Need} (passed : ∀ u ∈ front, Cell rt u)
      (needs : CellNeeds v need) : RowNeeds rt (.array (front ++ v :: back)) need

theorem mapError_closed_iff {α : Type} {x : Except JsError α} {f : JsError → JsError}
    (same : ∀ e, (f e).isSanDBox = e.isSanDBox) : Closed (x.mapError f) ↔ Closed x := by
  cases x with
  | ok a => exact ⟨fun _ => closed_ok a, fun _ => closed_ok a⟩
  | error e =>
      rw [Except.mapError, Closed, Closed, Throws.error_iff, Throws.error_iff, same]

theorem decodeRow_closed_iff {rt : Runtime} {i : Nat} {row : JsValue} :
    Closed (decodeRow rt i row) ↔ ∀ need, RowNeeds rt row need → need.Met rt := by
  unfold decodeRow
  split
  · rename_i cells
    rw [mapError_closed_iff, Closed, Throws.mapM_iff]
    · constructor
      · rintro closed need needs
        cases needs with
        | row other => exact absurd rfl (other cells)
        | @cell front back v _ passed needs =>
            refine decodeValue_closed_iff.mp (closed front v back rfl fun u inside => ?_) need needs
            exact decodeValue_ok_iff.mpr (passed u inside)
      · rintro met front v back rfl passed
        refine decodeValue_closed_iff.mpr fun need needs => met need (.cell (fun u inside => ?_) needs)
        exact decodeValue_ok_iff.mp (passed u inside)
    · intro e
      cases e <;> rfl
  · rename_i other
    rw [closed_printed_iff]
    constructor
    · intro printable need needs
      cases needs with
      | row _ => exact printable
      | cell _ _ => exact absurd rfl (other _)
    · exact fun met => met _ (.row fun cells same => other cells same)

/-- A row that `decodeRows` accepts. -/
def Row (rt : Runtime) (row : JsValue) : Prop := ∃ cells, row = .array cells ∧ ∀ cell ∈ cells, Cell rt cell

theorem decodeRow_ok_iff {rt : Runtime} {i : Nat} {row : JsValue} :
    (∃ values, decodeRow rt i row = .ok values) ↔ Row rt row := by
  unfold decodeRow
  split
  · rename_i cells
    have each := mapM_ok_iff (decodeValue rt) cells
    simp only [decodeValue_ok_iff] at each
    constructor
    · rintro ⟨values, decoded⟩
      exact ⟨cells, rfl, each.mp ⟨values, mapError_ok_iff.mp decoded⟩⟩
    · rintro ⟨_, same, passed⟩
      cases same
      obtain ⟨values, decoded⟩ := each.mpr passed
      exact ⟨values, mapError_ok_iff.mpr decoded⟩
  · rename_i other
    constructor
    · rintro ⟨values, decoded⟩
      obtain ⟨text, _, returned⟩ := bind_ok_iff.mp decoded
      cases returned
    · rintro ⟨cells, rfl, _⟩
      exact absurd rfl (other cells)

/-- What `decodeRows` needs. -/
inductive RowsNeed (rt : Runtime) : JsValue → Need → Prop where
  | rows {raw : JsValue} (other : ∀ rows, raw ≠ .array rows) : RowsNeed rt raw (.print raw)
  | row {front back : List JsValue} {row : JsValue} {need : Need} (passed : ∀ r ∈ front, Row rt r)
      (needs : RowNeeds rt row need) : RowsNeed rt (.array (front ++ row :: back)) need

theorem decodeRowsFrom_closed_iff {rt : Runtime} {i : Nat} {rows : List JsValue} :
    Closed (decodeRowsFrom rt i rows) ↔ ∀ front row back, rows = front ++ row :: back →
      (∀ r ∈ front, Row rt r) → ∀ need, RowNeeds rt row need → need.Met rt := by
  induction rows generalizing i with
  | nil =>
      refine ⟨fun _ front row back same => ?_, fun _ => closed_ok []⟩
      simp at same
  | cons first rest ih =>
      have step : Closed (decodeRowsFrom rt i (first :: rest)) ↔
          Closed (decodeRow rt i first) ∧ (Row rt first → Closed (decodeRowsFrom rt (i + 1) rest)) := by
        rw [decodeRowsFrom, Closed, Throws.bind_iff]
        refine and_congr Iff.rfl ⟨fun more passes => ?_, fun more values decoded => ?_⟩
        · obtain ⟨values, decoded⟩ := decodeRow_ok_iff.mpr passes
          exact (Throws.bind_iff.mp (more values decoded)).1
        · exact (more (decodeRow_ok_iff.mp ⟨values, decoded⟩)).bind fun _ _ => closed_ok _
      rw [step, decodeRow_closed_iff, ih]
      constructor
      · rintro ⟨met, more⟩ front row back same passed
        cases front with
        | nil =>
            cases same
            exact met
        | cons r front =>
            rw [List.cons_append, List.cons.injEq] at same
            obtain ⟨rfl, same⟩ := same
            obtain ⟨passes, others⟩ := List.forall_mem_cons.mp passed
            exact more passes front row back same others
      · intro each
        refine ⟨each [] first rest rfl nofun, fun passes front row back same passed => ?_⟩
        exact each (first :: front) row back (by rw [same, List.cons_append])
          (List.forall_mem_cons.mpr ⟨passes, passed⟩)

theorem decodeRows_closed_iff {rt : Runtime} {raw : JsValue} :
    Closed (decodeRows rt raw) ↔ ∀ need, RowsNeed rt raw need → need.Met rt := by
  unfold decodeRows
  split
  · rename_i rows
    rw [decodeRowsFrom_closed_iff]
    constructor
    · intro each need needs
      cases needs with
      | rows other => exact absurd rfl (other rows)
      | row passed needs => exact each _ _ _ rfl passed need needs
    · rintro met front row back rfl passed need needs
      exact met need (.row passed needs)
  · rename_i other
    rw [closed_printed_iff]
    constructor
    · intro printable need needs
      cases needs with
      | rows _ => exact printable
      | row _ _ => exact absurd rfl (other _)
    · exact fun met => met _ (.rows fun rows same => other rows same)

/-! ## Fields -/

/-- The fields of a response under the keys of the source. -/
def fieldOf (fields : Fields) (key : String) : Option JsValue := property fields (lit key)

theorem required_asks (fields : Fields) (key : String) :
    Asks (fun e => e.isSanDBox = true) (fieldOf fields) key (required fields key) := by
  rw [required]
  split
  · rename_i v found
    exact .found found
  · rename_i absent
    exact .missing absent rfl

theorem requiredAs_closed_iff {α β : Type} {accept : JsValue → Option β} {kind : String}
    {rt : Runtime} {fields : Fields} {key : String} {f : β → Except JsError α}
    {rest : List (Check JsValue)} (more : ∀ b, Closed (f b) ↔ AllFine (fieldOf fields) rest) :
    Closed (requiredAs accept kind rt fields key >>= f) ↔
      AllFine (fieldOf fields) (.kind accept (Printable rt.stringifyDepth) key :: rest) := by
  refine (required_asks fields key).kind_iff (fun v => closed_printed_iff) (fun v b => ?_) more
  intro returned
  obtain ⟨text, _, returned⟩ := bind_ok_iff.mp returned
  cases returned

/-! ## Responses -/

/-- The array of rows; it prints its own value, a row of it or a cell of a row, and tests the texts
of BLOBs. -/
def rowsCheck (rt : Runtime) : Check JsValue where
  key := "rows"
  Passes := fun raw => ∃ rows, decodeRows rt raw = .ok rows
  Fine := fun raw => ∀ need, RowsNeed rt raw need → need.Met rt

/-- The fields that a decoder asks for, in order; it prints those of another kind. -/
def Decoder.checks (rt : Runtime) : Decoder → List (Check JsValue)
  | query => [.kind asStringArray (Printable rt.stringifyDepth) "columns", rowsCheck rt]
  | exec =>
      [.kind asBigInt (Printable rt.stringifyDepth) "rows_affected",
        .kind asBigInt (Printable rt.stringifyDepth) "last_insert_id"]
  | snapshot => [.kind asString (Printable rt.stringifyDepth) "path"]
  | inspect =>
      [.kind asBool (Printable rt.stringifyDepth) "has_data",
        .kind asOptionalBigInt (Printable rt.stringifyDepth) "version",
        .kind asOptionalBigInt (Printable rt.stringifyDepth) "data_length",
        .kind asString (Printable rt.stringifyDepth) "source",
        .kind asBool (Printable rt.stringifyDepth) "read_only"]
  | tables => [.kind asStringArray (Printable rt.stringifyDepth) "tables"]
  | schema => [.kind asStringArray (Printable rt.stringifyDepth) "schema"]
  | dump => [.kind asString (Printable rt.stringifyDepth) "sql"]

theorem returned_closed_iff {fields : Fields} {result : Result} :
    Closed (.ok result) ↔ AllFine (fieldOf fields) [] :=
  ⟨fun _ => trivial, fun _ => closed_ok result⟩

theorem decode_closed_iff (decoder : Decoder) (rt : Runtime) (fields : Fields) :
    Closed (decoder.decode rt fields) ↔ AllFine (fieldOf fields) (decoder.checks rt) := by
  cases decoder with
  | query =>
      refine requiredAs_closed_iff fun columns => ?_
      change Closed (required fields "rows" >>= fun raw => decodeRows rt raw >>= _) ↔ _
      rw [← bind_assoc]
      exact (required_asks fields "rows").cons_iff (c := rowsCheck rt) rfl
        (fun v => decodeRows_closed_iff) (fun v => Iff.rfl) fun rows => returned_closed_iff
  | exec =>
      exact requiredAs_closed_iff fun _ => requiredAs_closed_iff fun _ => returned_closed_iff
  | snapshot => exact requiredAs_closed_iff fun _ => returned_closed_iff
  | inspect =>
      exact requiredAs_closed_iff fun _ => requiredAs_closed_iff fun _ =>
        requiredAs_closed_iff fun _ => requiredAs_closed_iff fun _ =>
          requiredAs_closed_iff fun _ => returned_closed_iff
  | tables => exact requiredAs_closed_iff fun _ => returned_closed_iff
  | schema => exact requiredAs_closed_iff fun _ => returned_closed_iff
  | dump => exact requiredAs_closed_iff fun _ => returned_closed_iff

/-- The fields of the object that a text holds, if it holds one that is read. -/
def lineFields (rt : Runtime) (text : JsString) : Option Fields :=
  match parseJsonPreservingNumbers rt text with
  | .ok (.object fields) => some fields
  | _ => none

/-- Everything that goes wrong in the text of a line is a `ProtocolError`. -/
theorem decodeResponseText_closed (rt : Runtime) (text : JsString) :
    Closed (decodeResponseText rt text) := by
  unfold decodeResponseText
  split
  · exact closed_protocol _
  · exact closed_protocol _
  · exact closed_ok _
  · exact closed_protocol _

theorem decodeResponseText_ok_iff {rt : Runtime} {text : JsString} {response : Response} :
    decodeResponseText rt text = .ok response ↔
      ∃ fields, lineFields rt text = some fields ∧ envelope fields = response := by
  unfold decodeResponseText lineFields
  split
  · rename_i parsed
    simp [parsed]
  · rename_i parsed
    simp [parsed]
  · rename_i fields parsed
    simp [parsed]
  · rename_i v other parsed
    rw [parsed]
    cases v with
    | object fields => exact absurd rfl (other fields)
    | _ => simp

/-- Only the driver's own errors leave the decoding of a line exactly when the line is
UTF-8, the value that the decoder prints, if it prints one, holds no integer and nests no
deeper than `JSON.stringify` goes, and the texts of BLOBs that it tests have no more groups
than a `RegExp` keeps. -/
theorem decode_errors_closed_iff (rt : Runtime) (decoder : Decoder) (line : List UInt8) :
    Closed (decodeLine rt decoder line) ↔ ∃ text, decodeText line = .ok text ∧
      ∀ fields, lineFields rt text = some fields → AllFine (fieldOf fields) (decoder.checks rt) := by
  have decoded : Closed (decodeLine rt decoder line) ↔ ∃ text, decodeText line = .ok text ∧
      ∀ response, decodeResponseText rt text = .ok response →
        Closed (decoder.decode rt response.fields) := by
    rw [decodeLine, decodeResponseLine, bind_assoc, Closed, Throws.bind_iff, decodeText]
    split
    · rename_i s _
      constructor
      · rintro ⟨_, more⟩
        exact ⟨_, rfl, (Throws.bind_iff.mp (more _ rfl)).2⟩
      · rintro ⟨text, same, more⟩
        refine ⟨Throws.ok _, fun text' same' => ?_⟩
        cases same.symm.trans same'
        exact (decodeResponseText_closed rt text).bind more
    · constructor
      · rintro ⟨closed, _⟩
        have own := closed _ rfl
        cases own
      · rintro ⟨text, same, _⟩
        cases same
  rw [decoded]
  refine exists_congr fun text => and_congr Iff.rfl ⟨fun each fields read => ?_, ?_⟩
  · have closed := each (envelope fields) (decodeResponseText_ok_iff.mpr ⟨fields, read, rfl⟩)
    rw [envelope_fields] at closed
    exact (decode_closed_iff decoder rt fields).mp closed
  · intro each response returned
    obtain ⟨fields, read, rfl⟩ := decodeResponseText_ok_iff.mp returned
    rw [envelope_fields]
    exact (decode_closed_iff decoder rt fields).mpr (each fields read)

/-- A runtime with room for ten arrays and objects; what it prints does not matter. -/
def sampleRuntime : Runtime := ⟨10, 10, 10, fun _ => [], id⟩

/-- A success whose text is an integer. -/
def integerDump : List UInt8 := Utf8.bytes "\x7b\"ok\":true,\"sql\":5\x7d"

/-- The message about a field that is not a string breaks on an integer. -/
theorem decode_errors_escape :
    ¬ ∀ (rt : Runtime) (decoder : Decoder) (line : List UInt8), Closed (decodeLine rt decoder line) := by
  intro closed
  have escaped : decodeLine sampleRuntime .dump integerDump =
      .error (.typeError (lit "Do not know how to serialize a BigInt")) := by decide +kernel
  have own := closed sampleRuntime .dump integerDump _ escaped
  cases own

end SanDbOxFormal.TypeScript
