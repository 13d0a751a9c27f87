import SanDbOxFormal.Library.FieldChecks
import SanDbOxFormal.Library.Utf8
import SanDbOxFormal.Python.Decode

/-!
# Which errors leave the Python decoders

Decoding is closed when every error that leaves it is a `SanDBoxError`.  Two things
break out: the `RecursionError` of a reader or of a message that shows a value, and the
`ValueError` of a BLOB whose text is not ASCII.
-/

namespace SanDbOxFormal.Python

open SanDbOxFormal.Library
open SanDbOxFormal.Library.FieldChecks

/-- Every error is a `SanDBoxError`. -/
def Closed {α : Type} (x : Except PyError α) : Prop := Throws (fun e => e.isSanDBox = true) x

theorem closed_ok {α : Type} (a : α) : Closed (.ok a) := Throws.ok a

theorem closed_protocol {α : Type} (m : PyStr) : Closed (α := α) (.error (.protocolError m)) :=
  Throws.error rfl

/-- `repr` shows the value. -/
def Shown (rt : Runtime) (v : PyValue) : Prop := fits rt.reprDepth v = true

theorem repr_closed_iff {rt : Runtime} {v : PyValue} : Closed (repr rt v) ↔ Shown rt v := by
  rw [repr, Shown]
  split
  · rename_i fitting
    exact ⟨fun _ => fitting, fun _ => closed_ok _⟩
  · rename_i deep
    refine ⟨fun closed => ?_, fun fitting => absurd fitting deep⟩
    cases closed _ rfl

theorem closed_shown_iff {rt : Runtime} {v : PyValue} {α : Type} {f : PyStr → PyStr} :
    Closed (α := α) (do
      let text ← repr rt v
      .error (.protocolError (f text))) ↔ Shown rt v := by
  rw [← repr_closed_iff]
  constructor
  · exact fun closed => (Throws.bind_iff.mp closed).1
  · exact fun closed => closed.bind fun text _ => closed_protocol (f text)

/-- A message that shows a value is never returned. -/
theorem shown_not_ok {rt : Runtime} {v : PyValue} {α : Type} {f : PyStr → PyStr} {a : α} :
    (do
      let text ← repr rt v
      .error (.protocolError (f text))) ≠ Except.ok a := by
  intro returned
  obtain ⟨text, _, returned⟩ := bind_ok_iff.mp returned
  cases returned

/-! ## Rows -/

/-- `s.encode('ascii')` goes well. -/
def Ascii (s : PyStr) : Prop := s.all (· < 0x80) = true

/-- A cell that `decode_value` accepts. -/
inductive Accepted (rt : Runtime) : PyValue → Prop where
  | none : Accepted rt .none
  | int {n : Int} : Accepted rt (.int n)
  | float {token : PyStr} : Accepted rt (.float token)
  | str {s : PyStr} : Accepted rt (.str s)
  | blob {s : PyStr} {bytes : List UInt8} (ascii : Ascii s)
      (decodes : rt.a2b (s.map UInt8.ofNat) = .ok bytes) : Accepted rt (.list [.str s])

/-- A cell at which `decode_value` raises nothing but errors of the driver. -/
def CellFine (rt : Runtime) : PyValue → Prop
  | .list [.str s] => Ascii s
  | .list items => Shown rt (.list items)
  | _ => True

theorem decodeValue_ok_iff {rt : Runtime} {v : PyValue} :
    (∃ cell, decodeValue rt v = .ok cell) ↔ Accepted rt v := by
  constructor
  · rintro ⟨cell, decoded⟩
    unfold decodeValue at decoded
    split at decoded
    · exact .none
    · cases decoded
    · exact .int
    · exact .float
    · exact .str
    · rename_i s
      unfold b64decode at decoded
      split at decoded
      · rename_i ascii
        cases outcome : rt.a2b (s.map UInt8.ofNat) with
        | ok bytes => exact .blob ascii outcome
        | error m =>
            rw [outcome] at decoded
            cases decoded
      · cases decoded
    · exact absurd decoded shown_not_ok
    · cases decoded
  · intro accepted
    cases accepted with
    | none => exact ⟨_, rfl⟩
    | int => exact ⟨_, rfl⟩
    | float => exact ⟨_, rfl⟩
    | str => exact ⟨_, rfl⟩
    | @blob s bytes ascii decodes =>
        have encoded : b64decode rt s = .ok bytes := by
          rw [b64decode, if_pos (show s.all (· < 0x80) = true from ascii), decodes]
          rfl
        exact ⟨.bytes bytes, by rw [decodeValue, encoded]; rfl⟩

theorem blob_closed_iff {rt : Runtime} {s : PyStr} :
    Closed (Cell.bytes <$> (b64decode rt s).mapError invalidBlob) ↔ Ascii s := by
  unfold b64decode
  split
  · rename_i ascii
    refine ⟨fun _ => ascii, fun _ => Throws.map (Throws.mapError (Throws.mapError ?_))⟩
    exact fun _ _ => rfl
  · rename_i other
    refine ⟨fun closed => ?_, fun ascii => absurd ascii other⟩
    cases closed _ rfl

theorem decodeValue_closed_iff {rt : Runtime} {v : PyValue} :
    Closed (decodeValue rt v) ↔ CellFine rt v := by
  unfold decodeValue
  split
  · exact ⟨fun _ => trivial, fun _ => closed_ok _⟩
  · exact ⟨fun _ => trivial, fun _ => closed_protocol _⟩
  · exact ⟨fun _ => trivial, fun _ => closed_ok _⟩
  · exact ⟨fun _ => trivial, fun _ => closed_ok _⟩
  · exact ⟨fun _ => trivial, fun _ => closed_ok _⟩
  · exact blob_closed_iff
  · rename_i items other
    rw [closed_shown_iff, CellFine]
    exact other
  · exact ⟨fun _ => trivial, fun _ => closed_protocol _⟩

/-- A row that `decode_rows` accepts. -/
def RowAccepted (rt : Runtime) (row : PyValue) : Prop :=
  ∃ cells, row = .list cells ∧ ∀ cell ∈ cells, Accepted rt cell

/-- A row at which it raises nothing but errors of the driver. -/
def RowFine (rt : Runtime) : PyValue → Prop
  | .list cells => InTurn (Accepted rt) (CellFine rt) cells
  | row => Shown rt row

theorem mapError_closed_iff {α : Type} {x : Except PyError α} {f : PyError → PyError}
    (same : ∀ e, (f e).isSanDBox = e.isSanDBox) : Closed (x.mapError f) ↔ Closed x := by
  cases x with
  | ok a => exact ⟨fun _ => closed_ok a, fun _ => closed_ok a⟩
  | error e => rw [Except.mapError, Closed, Closed, Throws.error_iff, Throws.error_iff, same]

theorem decodeRow_closed_iff {rt : Runtime} {i : Nat} {row : PyValue} :
    Closed (decodeRow rt i row) ↔ RowFine rt row := by
  unfold decodeRow
  split
  · rename_i cells
    rw [mapError_closed_iff]
    · exact throws_mapM_iff (fun _ => decodeValue_ok_iff) (fun _ => decodeValue_closed_iff) cells
    · intro e
      cases e <;> rfl
  · rename_i other
    rw [closed_shown_iff, RowFine]
    exact other

theorem decodeRow_ok_iff {rt : Runtime} {i : Nat} {row : PyValue} :
    (∃ cells, decodeRow rt i row = .ok cells) ↔ RowAccepted rt row := by
  unfold decodeRow
  split
  · rename_i items
    have each := mapM_ok_iff (decodeValue rt) items
    simp only [decodeValue_ok_iff] at each
    constructor
    · rintro ⟨cells, decoded⟩
      exact ⟨items, rfl, each.mp ⟨cells, mapError_ok_iff.mp decoded⟩⟩
    · rintro ⟨_, same, accepted⟩
      cases same
      obtain ⟨cells, decoded⟩ := each.mpr accepted
      exact ⟨cells, mapError_ok_iff.mpr decoded⟩
  · rename_i other
    constructor
    · rintro ⟨cells, decoded⟩
      exact absurd decoded shown_not_ok
    · rintro ⟨items, rfl, _⟩
      exact absurd rfl (other items)

theorem decodeRowsFrom_closed_iff {rt : Runtime} {i : Nat} {rows : List PyValue} :
    Closed (decodeRowsFrom rt i rows) ↔ InTurn (RowAccepted rt) (RowFine rt) rows := by
  induction rows generalizing i with
  | nil => exact ⟨fun _ => trivial, fun _ => closed_ok []⟩
  | cons row rest ih =>
      rw [decodeRowsFrom, Closed, Throws.bind_iff, InTurn, ← decodeRow_closed_iff (i := i),
        ← decodeRow_ok_iff (i := i), ← ih (i := i + 1)]
      refine and_congr Iff.rfl ⟨?_, fun more cells decoded => ?_⟩
      · rintro more ⟨cells, decoded⟩
        exact (Throws.bind_iff.mp (more cells decoded)).1
      · exact (more ⟨cells, decoded⟩).bind fun rest _ => closed_ok (cells :: rest)

/-- A value of `rows` at which `decode_rows` raises nothing but errors of the driver. -/
def RowsFine (rt : Runtime) : PyValue → Prop
  | .list rows => InTurn (RowAccepted rt) (RowFine rt) rows
  | raw => Shown rt raw

theorem decodeRows_closed_iff {rt : Runtime} {raw : PyValue} :
    Closed (decodeRows rt raw) ↔ RowsFine rt raw := by
  unfold decodeRows
  split
  · exact decodeRowsFrom_closed_iff
  · rename_i other
    rw [closed_shown_iff, RowsFine]
    exact other

/-! ## Fields -/

/-- The fields of a response under the keys of the source. -/
def fieldOf (fields : Dict) (key : String) : Option PyValue := lookup fields (lit key)

theorem required_asks (fields : Dict) (key : String) :
    Asks (fun e => e.isSanDBox = true) (fieldOf fields) key (required fields key) := by
  rw [required]
  split
  · rename_i v found
    exact .found found
  · rename_i absent
    exact .missing absent rfl

theorem requiredAs_closed_iff {α β : Type} {accept : PyValue → Option β} {kind : String}
    {rt : Runtime} {fields : Dict} {key : String} {f : β → Except PyError α}
    {rest : List (Check PyValue)} (more : ∀ b, Closed (f b) ↔ AllFine (fieldOf fields) rest) :
    Closed (requiredAs accept kind rt fields key >>= f) ↔
      AllFine (fieldOf fields) (.kind accept (Shown rt) key :: rest) :=
  (required_asks fields key).kind_iff (fun _ => closed_shown_iff) (fun _ _ => shown_not_ok) more

/-! ## Responses -/

/-- The array of rows, with what it shows and the BLOBs that it decodes. -/
def rowsCheck (rt : Runtime) : Check PyValue where
  key := "rows"
  Passes := fun raw => ∃ rows, decodeRows rt raw = .ok rows
  Fine := RowsFine rt

/-- The fields that a decoder asks for, in order; it shows those of another kind. -/
def Decoder.checks (rt : Runtime) : Decoder → List (Check PyValue)
  | query => [.kind asStrList (Shown rt) "columns", rowsCheck rt]
  | exec => [.kind asInt (Shown rt) "rows_affected", .kind asInt (Shown rt) "last_insert_id"]
  | snapshot => [.kind asStr (Shown rt) "path"]
  | inspect =>
      [.kind asBool (Shown rt) "has_data", .kind asOptionalInt (Shown rt) "version",
        .kind asOptionalInt (Shown rt) "data_length", .kind asStr (Shown rt) "source",
        .kind asBool (Shown rt) "read_only"]
  | tables => [.kind asStrList (Shown rt) "tables"]
  | schema => [.kind asStrList (Shown rt) "schema"]
  | dump => [.kind asStr (Shown rt) "sql"]

theorem returned_closed_iff {fields : Dict} {decoded : Decoded} :
    Closed (.ok decoded) ↔ AllFine (fieldOf fields) [] :=
  ⟨fun _ => trivial, fun _ => closed_ok decoded⟩

theorem decode_closed_iff (decoder : Decoder) (rt : Runtime) (fields : Dict) :
    Closed (decoder.decode rt fields) ↔ AllFine (fieldOf fields) (decoder.checks rt) := by
  cases decoder with
  | query =>
      refine requiredAs_closed_iff fun columns => ?_
      change Closed (required fields "rows" >>= fun raw => decodeRows rt raw >>= _) ↔ _
      rw [← bind_assoc]
      exact (required_asks fields "rows").cons_iff (c := rowsCheck rt) rfl
        (fun v => decodeRows_closed_iff) (fun v => Iff.rfl) fun rows => returned_closed_iff
  | exec =>
      exact requiredAs_closed_iff fun _ => requiredAs_closed_iff fun _ => returned_closed_iff
  | snapshot => exact requiredAs_closed_iff fun _ => returned_closed_iff
  | inspect =>
      exact requiredAs_closed_iff fun _ => requiredAs_closed_iff fun _ =>
        requiredAs_closed_iff fun _ => requiredAs_closed_iff fun _ =>
          requiredAs_closed_iff fun _ => returned_closed_iff
  | tables => exact requiredAs_closed_iff fun _ => returned_closed_iff
  | schema => exact requiredAs_closed_iff fun _ => returned_closed_iff
  | dump => exact requiredAs_closed_iff fun _ => returned_closed_iff

/-- `str` turns the value into a text. -/
def Written (rt : Runtime) : PyValue → Prop
  | .str _ => True
  | v => Shown rt v

/-- How `str` ends. -/
inductive Writes (rt : Runtime) (v : PyValue) : Except PyError PyStr → Prop where
  | text (written : Written rt v) (text : PyStr) : Writes rt v (.ok text)
  | deep (deep : ¬ Written rt v) : Writes rt v (.error tooDeep)

theorem str_writes (rt : Runtime) (v : PyValue) : Writes rt v (str rt v) := by
  unfold str
  split
  · exact .text (show Written rt (.str _) from trivial) _
  · rename_i other
    have same : Written rt v ↔ Shown rt v := by
      rw [Written]
      exact other
    unfold repr
    split
    · rename_i fitting
      exact .text (same.mpr fitting) _
    · rename_i deep
      exact .deep fun written => deep (same.mp written)

/-- The `code` and the `message` of an error response are written out, whatever they are. -/
def EnvelopeFine (rt : Runtime) (fields : Dict) : Prop :=
  fieldOf fields "ok" ≠ some (.bool true) → ∀ error code message,
    fieldOf fields "error" = some (.dict error) → fieldOf error "code" = some code →
    fieldOf error "message" = some message → Written rt code ∧ Written rt message

/-- How the decoding of an envelope ends. -/
inductive Enveloped (rt : Runtime) (fields : Dict) : Except PyError Response → Prop where
  | response (fine : EnvelopeFine rt fields) (ok : Bool) (error : Option PyError) :
      Enveloped rt fields (.ok ⟨ok, fields, error⟩)
  | deep (deep : ¬ EnvelopeFine rt fields) : Enveloped rt fields (.error tooDeep)

theorem envelope_enveloped (rt : Runtime) (fields : Dict) :
    Enveloped rt fields (envelope rt fields) := by
  unfold envelope
  split
  · rename_i ok
    exact .response (fun failed => absurd ok failed) _ _
  rename_i failed
  split
  · rename_i error found
    split
    · rename_i code message hasCode hasMessage
      have blamed : EnvelopeFine rt fields → Written rt code ∧ Written rt message :=
        fun fine => fine failed error code message found hasCode hasMessage
      generalize first : str rt code = x
      generalize second : str rt message = y
      cases first ▸ str_writes rt code with
      | deep deep => exact .deep fun fine => deep (blamed fine).1
      | text wroteCode =>
          cases second ▸ str_writes rt message with
          | deep deep => exact .deep fun fine => deep (blamed fine).2
          | text wroteMessage =>
              refine .response (fun _ error' code' message' found' hasCode' hasMessage' => ?_) _ _
              cases found.symm.trans found'
              cases hasCode.symm.trans hasCode'
              cases hasMessage.symm.trans hasMessage'
              exact ⟨wroteCode, wroteMessage⟩
    · rename_i missing
      exact .response (fun _ error' code message found' hasCode hasMessage => by
        cases found.symm.trans found'
        exact absurd hasMessage (missing code message hasCode)) _ _
  · rename_i other
    exact .response (fun _ error _ _ found => absurd found (other error)) _ _

/-- The fields of the object that a line holds, if it holds one that is read. -/
def lineFields (rt : Runtime) (line : List UInt8) : Option Dict :=
  match loads rt true line with
  | .ok (.dict fields) => some fields
  | _ => none

/-- Everything else that goes wrong in the reading of a line is a `ProtocolError`. -/
theorem loads_closed_iff {rt : Runtime} {line : List UInt8} (text : PyStr) :
    Closed ((loads rt true line).mapError (reraise text)) ↔ ¬ ReadsTooDeep rt true line := by
  have outcome := loads_loaded rt true line
  generalize loads rt true line = x at *
  cases outcome with
  | value shallow v => exact ⟨fun _ => shallow, fun _ => closed_ok v⟩
  | invalid shallow m => exact ⟨fun _ => shallow, fun _ => closed_protocol _⟩
  | constant shallow m => exact ⟨fun _ => shallow, fun _ => closed_protocol m⟩
  | deep deep =>
      refine ⟨fun closed => ?_, fun shallow => absurd deep shallow⟩
      cases closed _ rfl

/-- Nothing but the driver's own errors leaves the decoding of a line exactly when the
reading of the line does not run out of stack and, where it holds an object, no field
that is shown or written out nests too deep and no BLOB that is decoded is other than
ASCII. -/
theorem decode_exceptions_closed_iff (rt : Runtime) (shown : List UInt8 → PyStr) (decoder : Decoder)
    (line : List UInt8) : Closed (decodeLine rt shown decoder line) ↔
      ¬ ReadsTooDeep rt true line ∧ ∀ fields, lineFields rt line = some fields →
        EnvelopeFine rt fields ∧ AllFine (fieldOf fields) (decoder.checks rt) := by
  rw [decodeLine, decodeResponseLine, bind_assoc, Closed, Throws.bind_iff,
    ← loads_closed_iff (lit "invalid response line: "), Closed]
  refine and_congr Iff.rfl ?_
  unfold lineFields
  simp only [mapError_ok_iff]
  cases loads rt true line with
  | error e => exact ⟨fun _ => nofun, fun _ => nofun⟩
  | ok v =>
      simp only [Except.ok.injEq, forall_eq']
      cases v with
      | dict fields =>
          simp only [Option.some.injEq, forall_eq']
          generalize made : envelope rt fields = x
          cases made ▸ envelope_enveloped rt fields with
          | response fine ok error =>
              refine (decode_closed_iff decoder rt fields).trans ?_
              exact ⟨fun all => ⟨fine, all⟩, And.right⟩
          | deep deep =>
              refine ⟨fun closed => ?_, fun fine => absurd fine.1 deep⟩
              cases closed _ rfl
      | _ => exact ⟨fun _ => nofun, fun _ => closed_protocol _⟩

/-- A runtime with room for ten lists and dicts, which shows nothing. -/
def sampleRuntime : Runtime := ⟨10, 10, none, fun _ => [], fun _ => [], fun _ => .ok []⟩

/-- A row with one BLOB, of the text `é`. -/
def accentedBlob : List UInt8 :=
  Utf8.bytes "\x7b\"ok\":true,\"columns\":[\"c\"],\"rows\":[[[\"é\"]]]\x7d"

/-- The text of a BLOB that is not ASCII breaks out as a `ValueError`. -/
theorem decode_exceptions_escape : ¬ ∀ (rt : Runtime) (shown : List UInt8 → PyStr) (decoder : Decoder)
    (line : List UInt8), Closed (decodeLine rt shown decoder line) := by
  intro closed
  have escaped : failure? (decodeLine sampleRuntime (fun _ => []) .query accentedBlob) =
      some (.valueError (lit "string argument should contain only ASCII characters")) := by
    decide +kernel
  have own := closed _ _ _ _ _ (failure?_eq_some.mp escaped)
  cases own

end SanDbOxFormal.Python
