import SanDbOxFormal.Go.Response
import SanDbOxFormal.Library.JsonReading

/-!
# How strict the Go decoders are

`encoding/json` takes more than the protocol allows.  A line is graded by what its
required members are: as the protocol has them, a lapse that is taken all the same, or
refused.
-/

namespace SanDbOxFormal.Go

open SanDbOxFormal.Library
open SanDbOxFormal.Library.JsonReader (Tree)

/-! ## Grades -/

inductive Grade where
  | exact
  | lapse
  | refused
  deriving DecidableEq

namespace Grade

/-- The worst of several grades. -/
def worst (gs : List Grade) : Grade :=
  if refused ∈ gs then refused else if lapse ∈ gs then lapse else exact

theorem worst_ne_refused (gs : List Grade) : worst gs ≠ refused ↔ ∀ g ∈ gs, g ≠ refused := by
  unfold worst
  split_ifs with bad slack
  · exact ⟨fun other => absurd rfl other, fun all => absurd rfl (all refused bad)⟩
  · exact ⟨fun _ g inside same => bad (same ▸ inside), fun _ => nofun⟩
  · exact ⟨fun _ g inside same => bad (same ▸ inside), fun _ => nofun⟩

theorem worst_eq_exact (gs : List Grade) : worst gs = exact ↔ ∀ g ∈ gs, g = exact := by
  unfold worst
  split_ifs with bad slack
  · exact ⟨nofun, fun all => nomatch all refused bad⟩
  · exact ⟨nofun, fun all => nomatch all lapse slack⟩
  · refine ⟨fun _ g inside => ?_, fun _ => rfl⟩
    cases g with
    | exact => rfl
    | lapse => exact absurd inside slack
    | refused => exact absurd inside bad

end Grade

/-! ## What the protocol asks for -/

/-- What a field holds. -/
inductive Kind where
  | text
  | flag
  | integer
  | nullableInteger
  | texts
  | rows
  deriving DecidableEq

/-- The token of an integer of 64 bits. -/
def IsInt64 (token : List Char) : Prop :=
  ∃ n, Decimal.parseInt? token = some n ∧ -2 ^ 63 ≤ n ∧ n < 2 ^ 63

inductive ExactCell : Tree → Prop where
  | null : ExactCell .null
  | text (us : List Nat) : ExactCell (.string us)
  | real {raw : List Nat} (marked : (chars raw).any Decimal.isRealMark = true) :
      ExactCell (.number raw)
  | integer {raw : List Nat} (fits : IsInt64 (chars raw)) : ExactCell (.number raw)
  | blob {us : List Nat} {b : List UInt8} (base64 : Base64.decode? us = some b) :
      ExactCell (.array [.string us])

inductive Exact : Kind → Tree → Prop where
  | text (us : List Nat) : Exact .text (.string us)
  | flag (b : Bool) : Exact .flag (.bool b)
  | integer {raw : List Nat} (fits : IsInt64 (chars raw)) : Exact .integer (.number raw)
  | noInteger : Exact .nullableInteger .null
  | someInteger {raw : List Nat} (fits : IsInt64 (chars raw)) :
      Exact .nullableInteger (.number raw)
  | texts {items : List Tree} (all : ∀ item ∈ items, ∃ us, item = .string us) :
      Exact .texts (.array items)
  | rows {rows : List Tree}
      (all : ∀ row ∈ rows, ∃ cells, row = .array cells ∧ ∀ cell ∈ cells, ExactCell cell) :
      Exact .rows (.array rows)

/-- The fields that the protocol requires of the reply to an operation. -/
def Operation.required : Operation → List (String × Kind)
  | .query => [("columns", .texts), ("rows", .rows)]
  | .exec => [("rows_affected", .integer), ("last_insert_id", .integer)]
  | .snapshot => [("path", .text)]
  | .inspect => [("has_data", .flag), ("version", .nullableInteger),
      ("data_length", .nullableInteger), ("source", .text), ("read_only", .flag)]
  | .tables => [("tables", .texts)]
  | .schema => [("schema", .texts)]
  | .dump => [("sql", .text)]
  | .load | .overwrite => []

def Hello.required : List (String × Kind) :=
  [("protocol", .integer), ("version", .text), ("product", .text)]

/-- The last member of each name is there and of its kind. -/
def Strict (required : List (String × Kind)) (fields : Fields) : Prop :=
  ∀ field ∈ required, ∃ v, rawField fields field.1 = some v ∧ Exact field.2 v

def StrictLine (required : List (String × Kind)) (line : List UInt8) : Prop :=
  ∃ members fields, parse line = .ok (.object members) ∧
    unmarshalFields (.object members) = .ok fields ∧ Strict required fields

/-! ## The grade of a value -/

instance (token : List Char) : Decidable (IsInt64 token) :=
  match read : Decimal.parseInt? token with
  | none => .isFalse fun ⟨_, same, _⟩ => nomatch read.symm.trans same
  | some n =>
      if range : -2 ^ 63 ≤ n ∧ n < 2 ^ 63 then .isTrue ⟨n, read, range⟩
      else .isFalse fun ⟨_, same, fits⟩ => by
        cases read.symm.trans same
        exact range fits

def gradeText : Tree → Grade
  | .string _ => .exact
  | .null => .lapse
  | _ => .refused

def gradeFlag : Tree → Grade
  | .bool _ => .exact
  | .null => .lapse
  | _ => .refused

/-- A quoted number is a lapse. -/
def gradeInteger : Tree → Grade
  | .number raw => if IsInt64 (chars raw) then .exact else .refused
  | .string us => if isValidNumber us ∧ IsInt64 (chars us) then .lapse else .refused
  | _ => .refused

def gradeNullableInteger : Tree → Grade
  | .null => .exact
  | t => gradeInteger t

def gradeTexts : Tree → Grade
  | .null => .lapse
  | .array items => .worst (items.map gradeText)
  | _ => .refused

def isBreak (u : Nat) : Bool := u = 0x0D || u = 0x0A

/-- Base64 with line breaks in it is a lapse, and so is a `null` for an empty text. -/
def gradeBlob : List Tree → Grade
  | [.string us] =>
      if (Base64.decode? (us.filter fun u => !isBreak u)).isSome then
        if us.any isBreak then .lapse else .exact
      else .refused
  | [.null] => .lapse
  | _ => .refused

def gradeCell : Tree → Grade
  | .null | .string _ => .exact
  | .number raw =>
      if (chars raw).any Decimal.isRealMark then .exact
      else if IsInt64 (chars raw) then .exact
      else .refused
  | .array items => gradeBlob items
  | _ => .refused

def gradeRow : Tree → Grade
  | .null => .lapse
  | .array cells => .worst (cells.map gradeCell)
  | _ => .refused

def gradeRows : Tree → Grade
  | .null => .lapse
  | .array rows => .worst (rows.map gradeRow)
  | _ => .refused

def grade : Kind → Tree → Grade
  | .text => gradeText
  | .flag => gradeFlag
  | .integer => gradeInteger
  | .nullableInteger => gradeNullableInteger
  | .texts => gradeTexts
  | .rows => gradeRows

/-! ## The grade of a line -/

def fieldGrade (fields : Fields) (field : String × Kind) : Grade :=
  match rawField fields field.1 with
  | some v => grade field.2 v
  | none => .refused

/-- The fields of an object. -/
def fieldsOf (members : List (List Nat × Tree)) : Fields := members.map fun m => (text m.1, m.2)

/-- A field of the hello line takes a member of its type, or a `null`. -/
def helloTakes (name : String) (v : Tree) : Bool :=
  match v with
  | .null => true
  | .number raw => name = "protocol" && IsInt64 (chars raw)
  | .string _ => name ≠ "protocol"
  | _ => false

/-- A field that is missing is a lapse here, and so is one under a name in other letters. -/
def helloGrade (line : List UInt8) : Grade :=
  match parse line with
  | .ok .null => .lapse
  | .ok (.object members) =>
      if members.all fun m => (fieldNamed Hello.names (text m.1)).all fun name => helloTakes name m.2
      then
        if Hello.required.all fun field => fieldGrade (fieldsOf members) field = .exact then .exact
        else .lapse
      else .refused
  | _ => .refused

/-- Only the reply of a success is taken. -/
def replyGrade (op : Operation) (line : List UInt8) : Grade :=
  match parse line with
  | .ok (.object members) =>
      match rawField (fieldsOf members) "ok" with
      | some (.bool true) => .worst (op.required.map (fieldGrade (fieldsOf members)))
      | _ => .refused
  | _ => .refused

/-! ## Exact values -/

theorem gradeText_exact (t : Tree) : gradeText t = .exact ↔ ∃ us, t = .string us := by
  cases t <;> simp [gradeText]

theorem gradeInteger_exact (t : Tree) :
    gradeInteger t = .exact ↔ ∃ raw, t = .number raw ∧ IsInt64 (chars raw) := by
  cases t with
  | number raw => simp [gradeInteger]
  | string us =>
      rw [gradeInteger]
      split_ifs <;> exact ⟨nofun, nofun⟩
  | _ => exact ⟨nofun, nofun⟩

theorem gradeTexts_exact (t : Tree) :
    gradeTexts t = .exact ↔ ∃ items, t = .array items ∧ ∀ item ∈ items, ∃ us, item = .string us := by
  cases t with
  | array items =>
      rw [gradeTexts, Grade.worst_eq_exact, List.forall_mem_map]
      simp only [gradeText_exact]
      constructor
      · exact fun all => ⟨items, rfl, all⟩
      · rintro ⟨_, same, all⟩
        cases same
        exact all
  | _ => exact ⟨nofun, nofun⟩

theorem units_of_decode {us : List Nat} {b : List UInt8} (decoded : Base64.decode? us = some b) :
    us.filter (fun u => !isBreak u) = us ∧ us.any isBreak = false := by
  have apart (u : Nat) (inside : u ∈ us) : isBreak u = false := by
    have plain := Base64.isUnit_plain (Base64.decode?_units decoded u inside)
    rw [isBreak, Bool.or_eq_false_iff]
    exact ⟨decide_eq_false (by omega), decide_eq_false (by omega)⟩
  refine ⟨List.filter_eq_self.mpr fun u inside => ?_, List.any_eq_false.mpr fun u inside => ?_⟩
  · rw [apart u inside]
    rfl
  · rw [apart u inside]
    exact Bool.false_ne_true

theorem gradeBlob_exact (items : List Tree) :
    gradeBlob items = .exact ↔ ∃ us b, items = [.string us] ∧ Base64.decode? us = some b := by
  constructor
  · intro exact'
    unfold gradeBlob at exact'
    split at exact'
    · rename_i us
      split_ifs at exact' with taken broken
      have kept : us.filter (fun u => !isBreak u) = us := by
        refine List.filter_eq_self.mpr fun u inside => ?_
        have apart := List.any_eq_false.mp (Bool.eq_false_iff.mpr broken) u inside
        rw [Bool.eq_false_iff.mpr apart]
        rfl
      rw [kept] at taken
      obtain ⟨b, decoded⟩ := Option.isSome_iff_exists.mp taken
      exact ⟨us, b, rfl, decoded⟩
    · cases exact'
    · cases exact'
  · rintro ⟨us, b, rfl, decoded⟩
    obtain ⟨kept, whole⟩ := units_of_decode decoded
    rw [gradeBlob, kept, decoded, whole]
    rfl

theorem gradeCell_exact (t : Tree) : gradeCell t = .exact ↔ ExactCell t := by
  cases t with
  | null => exact ⟨fun _ => .null, fun _ => rfl⟩
  | string us => exact ⟨fun _ => .text us, fun _ => rfl⟩
  | number raw =>
      rw [gradeCell]
      split_ifs with marked fits
      · exact ⟨fun _ => .real marked, fun _ => rfl⟩
      · exact ⟨fun _ => .integer fits, fun _ => rfl⟩
      · refine ⟨nofun, fun cell => ?_⟩
        cases cell with
        | real marked' => exact absurd marked' marked
        | integer fits' => exact absurd fits' fits
  | array items =>
      rw [gradeCell, gradeBlob_exact]
      constructor
      · rintro ⟨us, b, rfl, decoded⟩
        exact .blob decoded
      · intro cell
        cases cell with
        | blob decoded => exact ⟨_, _, rfl, decoded⟩
  | bool b => exact ⟨nofun, nofun⟩
  | bareword name => exact ⟨nofun, nofun⟩
  | object members => exact ⟨nofun, nofun⟩

theorem gradeRow_exact (t : Tree) :
    gradeRow t = .exact ↔ ∃ cells, t = .array cells ∧ ∀ cell ∈ cells, ExactCell cell := by
  cases t with
  | array cells =>
      rw [gradeRow, Grade.worst_eq_exact, List.forall_mem_map]
      simp only [gradeCell_exact]
      constructor
      · exact fun all => ⟨cells, rfl, all⟩
      · rintro ⟨_, same, all⟩
        cases same
        exact all
  | _ => exact ⟨nofun, nofun⟩

theorem gradeRows_exact (t : Tree) : gradeRows t = .exact ↔ Exact .rows t := by
  cases t with
  | array rows =>
      rw [gradeRows, Grade.worst_eq_exact, List.forall_mem_map]
      simp only [gradeRow_exact]
      constructor
      · exact .rows
      · intro held
        cases held with
        | rows all => exact all
  | _ => exact ⟨nofun, nofun⟩

/-- The grade of a value is exact just when the value is of its kind. -/
theorem grade_exact (k : Kind) (t : Tree) : grade k t = .exact ↔ Exact k t := by
  cases k with
  | text =>
      rw [grade, gradeText_exact]
      constructor
      · rintro ⟨us, rfl⟩
        exact .text us
      · intro held
        cases held
        exact ⟨_, rfl⟩
  | flag =>
      constructor
      · intro flag
        cases t with
        | bool b => exact .flag b
        | _ => cases flag
      · intro held
        cases held
        rfl
  | integer =>
      rw [grade, gradeInteger_exact]
      constructor
      · rintro ⟨raw, rfl, fits⟩
        exact .integer fits
      · intro held
        cases held with
        | integer fits => exact ⟨_, rfl, fits⟩
  | nullableInteger =>
      by_cases null : t = .null
      · subst null
        exact ⟨fun _ => .noInteger, fun _ => rfl⟩
      · have same : grade .nullableInteger t = gradeInteger t := by
          cases t with
          | null => exact absurd rfl null
          | _ => rfl
        rw [same, gradeInteger_exact]
        constructor
        · rintro ⟨raw, rfl, fits⟩
          exact .someInteger fits
        · intro held
          cases held with
          | noInteger => exact absurd rfl null
          | someInteger fits => exact ⟨_, rfl, fits⟩
  | texts =>
      rw [grade, gradeTexts_exact]
      constructor
      · rintro ⟨items, rfl, all⟩
        exact .texts all
      · intro held
        cases held with
        | texts all => exact ⟨_, rfl, all⟩
  | rows => exact gradeRows_exact t

/-! ## Texts of Base64 -/

theorem text_narrow {us : List Nat} (narrow : ∀ u ∈ us, u < 0x80) :
    text us = us.map UInt8.ofNat := by
  have value (u : Nat) (inside : u ∈ us) :
      ((if h : u.isValidChar then Char.ofNatAux u h else runeError)).toNat = u := by
    have valid : u.isValidChar := .inl ((narrow u inside).trans (by decide))
    rw [dif_pos valid]
    rfl
  rw [text, Utf8.encode_ascii, List.map_map]
  · refine List.map_congr_left fun u inside => ?_
    rw [Function.comp_apply, value u inside]
  · intro c inside
    obtain ⟨u, among, rfl⟩ := List.mem_map.mp inside
    rw [value u among]
    exact narrow u among

/-- A unit that is not ASCII leaves a byte that is not. -/
theorem text_wide {us : List Nat} {u : Nat} (inside : u ∈ us) (wide : 0x80 ≤ u) :
    ∃ b ∈ text us, 0x80 ≤ b.toNat := by
  have big : 0x80 ≤ ((if h : u.isValidChar then Char.ofNatAux u h else runeError)).toNat := by
    split
    · exact wide
    · decide
  obtain ⟨lead, more, shape, _⟩ := Utf8.utf8EncodeChar_lead
    (if h : u.isValidChar then Char.ofNatAux u h else runeError)
  have byte : lead ∈ String.utf8EncodeChar
      (if h : u.isValidChar then Char.ofNatAux u h else runeError) := by
    rw [shape]
    exact List.mem_cons_self
  exact ⟨lead, List.mem_flatMap.mpr ⟨_, List.mem_map_of_mem inside, byte⟩,
    Utf8.utf8EncodeChar_wide big lead byte⟩

theorem isUnit_narrow {u : Nat} (unit : Base64.isUnit u = true) : u < 0x80 :=
  (Base64.isUnit_plain unit).2.1

theorem decodeString_succeeds (s : GoString) : Succeeds (decodeString s) ↔
    (Base64.decode? ((s.filter fun b => !isLineBreak b).map UInt8.toNat)).isSome = true := by
  rw [decodeString]
  split
  · rename_i bytes found
    rw [found]
    exact ⟨fun _ => rfl, fun _ => succeeds_ok bytes⟩
  · rename_i none
    rw [none]
    exact ⟨nofun, nofun⟩

/-- The decoder takes what is Base64 without its line breaks. -/
theorem decodeString_taken (us : List Nat) :
    Succeeds (decodeString (text us)) ↔
      (Base64.decode? (us.filter fun u => !isBreak u)).isSome = true := by
  rw [decodeString_succeeds]
  by_cases narrow : ∀ u ∈ us, u < 0x80
  · have value (u : Nat) (inside : u ∈ us) : (UInt8.ofNat u).toNat = u :=
      Nat.mod_eq_of_lt ((narrow u inside).trans (by decide))
    have mark (u : Nat) (inside : u ∈ us) : isLineBreak (UInt8.ofNat u) = isBreak u := by
      have same (k : Nat) (small : k < 0x80) : (UInt8.ofNat u = UInt8.ofNat k) = (u = k) := by
        rw [← UInt8.toNat_inj, value u inside, UInt8.toNat_ofNat', Nat.mod_eq_of_lt (by omega)]
      have carriage := same 0x0D (by decide)
      have feed := same 0x0A (by decide)
      simp only [isLineBreak, isBreak]
      exact congrArg₂ or (decide_eq_decide.mpr (iff_of_eq carriage))
        (decide_eq_decide.mpr (iff_of_eq feed))
    have kept : ((text us).filter fun b => !isLineBreak b).map UInt8.toNat =
        us.filter fun u => !isBreak u := by
      rw [text_narrow narrow, List.filter_map, List.map_map]
      have picked : us.filter ((fun b => !isLineBreak b) ∘ UInt8.ofNat) =
          us.filter fun u => !isBreak u :=
        List.filter_congr fun u inside => congrArg not (mark u inside)
      rw [picked]
      refine (List.map_congr_left fun u inside => ?_).trans (List.map_id _)
      exact value u (List.mem_of_mem_filter inside)
    rw [kept]
  · push Not at narrow
    obtain ⟨u, inside, wide⟩ := narrow
    have first : ¬ (Base64.decode? (((text us).filter fun b => !isLineBreak b).map
        UInt8.toNat)).isSome = true := by
      intro found
      obtain ⟨bytes, decoded⟩ := Option.isSome_iff_exists.mp found
      obtain ⟨b, among, high⟩ := text_wide inside wide
      have kept : (!isLineBreak b) = true := by
        rw [Bool.not_eq_true', isLineBreak, Bool.or_eq_false_iff]
        constructor <;> refine decide_eq_false fun same => ?_ <;> rw [same] at high <;>
          exact absurd high (by decide)
      have unit := Base64.decode?_units decoded b.toNat
        (List.mem_map_of_mem (List.mem_filter.mpr ⟨among, kept⟩))
      exact absurd (isUnit_narrow unit) (by omega)
    have second : ¬ (Base64.decode? (us.filter fun u => !isBreak u)).isSome = true := by
      intro found
      obtain ⟨bytes, decoded⟩ := Option.isSome_iff_exists.mp found
      have kept : (!isBreak u) = true := by
        rw [Bool.not_eq_true', isBreak, Bool.or_eq_false_iff]
        exact ⟨decide_eq_false (by omega), decide_eq_false (by omega)⟩
      have unit := Base64.decode?_units decoded u (List.mem_filter.mpr ⟨inside, kept⟩)
      exact absurd (isUnit_narrow unit) (by omega)
    exact ⟨fun found => absurd found first, fun found => absurd found second⟩

/-! ## What the decoders take -/

/-- What `ParseFloat` makes of the tokens that may reach it. -/
structure Strconv.Classifies (std : Strconv) : Prop where
  number : ∀ token, Rfc8259.Number token → ∃ f, std.parseFloat token = (f, none) ∨
    std.parseFloat token = (f, some .numRange) ∧ f.isInf = true
  true : (std.parseFloat "true".toList).2 = some .numSyntax
  false : (std.parseFloat "false".toList).2 = some .numSyntax

/-- What a scalar in a line is. -/
def Sound : Tree → Prop
  | .number raw => JsonReader.Token raw
  | .bareword _ => False
  | _ => True

theorem parse_sound {data : List UInt8} {t : Tree} (parsed : parse data = .ok t) : t.All Sound := by
  have scalars (cs : List Nat) :
      JsonReader.Returns (Tree.All Sound) (JsonReader.scalar JsonReader.strictPoints cs) := by
    have plain : JsonReader.bareword? JsonReader.strictPoints cs = none := rfl
    unfold JsonReader.scalar
    rw [plain]
    dsimp only
    split
    · exact .ok trivial
    · exact .ok trivial
    · exact .ok trivial
    · split
      · rename_i raw rest read
        split_ifs
        · exact .error
        · exact .ok (JsonReader.number_token read)
      · exact .error
  unfold parse at parsed
  split at parsed
  · rename_i v read
    cases parsed
    exact JsonReader.read_all scalars (fun _ => trivial) read
  · cases parsed

theorem parseInt_taken (token : List Char) : Succeeds (parseInt token) ↔ IsInt64 token := by
  unfold parseInt IsInt64
  split
  · rename_i none
    rw [none]
    exact ⟨nofun, fun ⟨_, same, _⟩ => nomatch same⟩
  · rename_i i found
    rw [found]
    split_ifs with range
    · exact ⟨fun _ => ⟨i, rfl, range⟩, fun _ => succeeds_ok _⟩
    · refine ⟨nofun, ?_⟩
      rintro ⟨_, same, fits⟩
      cases same
      exact absurd fits range

theorem decodeNumber_real {std : Strconv} (laws : std.Classifies) {token : List Char}
    (number : Rfc8259.Number token) (marked : token.any Decimal.isRealMark = true) :
    Succeeds (decodeNumber std token) := by
  rw [decodeNumber, if_pos marked]
  obtain ⟨f, parsed | ⟨parsed, infinite⟩⟩ := laws.number token number
  · rw [parsed]
    exact succeeds_ok _
  · rw [parsed]
    dsimp only
    rw [if_pos ⟨rfl, infinite⟩]
    exact succeeds_ok _

theorem decodeNumber_word {std : Strconv} {token : List Char}
    (marked : token.any Decimal.isRealMark = true)
    (refuses : (std.parseFloat token).2 = some .numSyntax) : ¬ Succeeds (decodeNumber std token) := by
  rw [decodeNumber, if_pos marked]
  generalize std.parseFloat token = parsed at refuses
  obtain ⟨f, cause⟩ := parsed
  cases refuses
  exact nofun

theorem decodeNumber_whole (std : Strconv) {token : List Char}
    (whole : ¬ token.any Decimal.isRealMark = true) :
    Succeeds (decodeNumber std token) ↔ IsInt64 token := by
  rw [decodeNumber, if_neg whole, succeeds_bind_iff (P := True) fun n _ => iff_of_true ⟨_, rfl⟩ trivial,
    succeeds_mapError_iff, parseInt_taken, and_true]

theorem decodeBLOB_single (item : Tree) : Succeeds (decodeBLOB (.array [item])) ↔
    ∃ s, unmarshalString item = .ok s ∧ Succeeds (decodeString s) := by
  have read : unmarshalStrings (.array [item]) = (do
      let s ← unmarshalString item
      .ok [s]) := rfl
  rw [decodeBLOB, read]
  cases unmarshalString item with
  | error e =>
      refine ⟨nofun, ?_⟩
      rintro ⟨_, same, _⟩
      cases same
  | ok s =>
      change Succeeds (do
        let b ← (decodeString s).mapError _
        Except.ok (Any.bytes (some b))) ↔ _
      rw [succeeds_bind_iff (P := True) fun _ _ => iff_of_true ⟨_, rfl⟩ trivial, and_true,
        succeeds_mapError_iff]
      constructor
      · exact fun decoded => ⟨s, rfl, decoded⟩
      · rintro ⟨_, same, decoded⟩
        cases same
        exact decoded

/-- An array of several elements is no BLOB. -/
theorem decodeBLOB_several (a b : Tree) (rest : List Tree) :
    ¬ Succeeds (decodeBLOB (.array (a :: b :: rest))) := by
  rintro ⟨v, decoded⟩
  obtain ⟨arr, read, decoded⟩ := bind_ok_iff.mp decoded
  have items : (a :: b :: rest).mapM unmarshalString = .ok arr := mapError_ok_iff.mp read
  rw [List.mapM_cons, List.mapM_cons] at items
  obtain ⟨first, _, items⟩ := bind_ok_iff.mp items
  obtain ⟨tail, others, items⟩ := bind_ok_iff.mp items
  obtain ⟨second, _, others⟩ := bind_ok_iff.mp others
  obtain ⟨more, _, others⟩ := bind_ok_iff.mp others
  cases others
  cases items
  cases decoded

theorem gradeBlob_taken (items : List Tree) :
    Succeeds (decodeBLOB (.array items)) ↔ gradeBlob items ≠ .refused := by
  match items with
  | [] => exact ⟨nofun, fun other => absurd rfl other⟩
  | [.string us] =>
      rw [decodeBLOB_single]
      have read : (∃ s, unmarshalString (.string us) = .ok s ∧ Succeeds (decodeString s)) ↔
          Succeeds (decodeString (text us)) :=
        ⟨fun ⟨_, same, decoded⟩ => Except.ok.inj same ▸ decoded, fun decoded => ⟨_, rfl, decoded⟩⟩
      rw [read, decodeString_taken, gradeBlob]
      split_ifs with taken broken
      · exact ⟨fun _ => nofun, fun _ => taken⟩
      · exact ⟨fun _ => nofun, fun _ => taken⟩
      · exact ⟨fun found => absurd found taken, fun other => absurd rfl other⟩
  | [.null] =>
      rw [decodeBLOB_single]
      exact ⟨fun _ => nofun, fun _ => ⟨[], rfl, [], rfl⟩⟩
  | [.bool _] | [.number _] | [.bareword _] | [.array _] | [.object _] =>
      rw [decodeBLOB_single]
      exact ⟨fun ⟨_, same, _⟩ => (nomatch same), fun other => absurd rfl other⟩
  | a :: b :: rest =>
      refine ⟨fun decoded => absurd decoded (decodeBLOB_several a b rest), fun other => ?_⟩
      cases a <;> exact absurd rfl other

/-- A cell decodes unless its grade refuses it. -/
theorem gradeCell_taken {std : Strconv} (laws : std.Classifies) {t : Tree} (sound : t.All Sound) :
    Succeeds (decodeValue std t) ↔ gradeCell t ≠ .refused := by
  cases t with
  | null => exact ⟨fun _ => nofun, fun _ => succeeds_ok _⟩
  | string us => exact ⟨fun _ => nofun, fun _ => succeeds_ok _⟩
  | array items => exact gradeBlob_taken items
  | object members => exact ⟨nofun, fun other => absurd rfl other⟩
  | bareword name => exact absurd sound id
  | bool b =>
      have refuses : ¬ Succeeds (decodeValue std (.bool b)) := by
        cases b with
        | true => exact decodeNumber_word (by decide) laws.true
        | false => exact decodeNumber_word (by decide) laws.false
      exact ⟨fun taken => absurd taken refuses, fun other => absurd rfl other⟩
  | number raw =>
      obtain ⟨token, rfl, number⟩ := sound
      have back : chars (token.map Char.toNat) = token := JsonReader.chars_points token
      rw [decodeValue, gradeCell, back]
      by_cases marked : token.any Decimal.isRealMark = true
      · rw [if_pos marked]
        exact ⟨fun _ => nofun, fun _ => decodeNumber_real laws number marked⟩
      · rw [if_neg marked, decodeNumber_whole std marked]
        split_ifs with fits
        · exact ⟨fun _ => nofun, fun _ => fits⟩
        · exact ⟨fun held => absurd held fits, fun other => absurd rfl other⟩

theorem decodeCells_taken {std : Strconv} (laws : std.Classifies) (i : Nat) {cells : List Tree}
    (sound : ∀ cell ∈ cells, cell.All Sound) (j : Nat) :
    Succeeds (decodeCells std i j cells) ↔ ∀ cell ∈ cells, gradeCell cell ≠ .refused := by
  induction cells generalizing j with
  | nil => exact ⟨fun _ => nofun, fun _ => succeeds_ok _⟩
  | cons cell rest ih =>
      obtain ⟨first, others⟩ := List.forall_mem_cons.mp sound
      have tail (v : Any) : Succeeds (do
          let row ← decodeCells std i (j + 1) rest
          Except.ok (v :: row)) ↔ ∀ cell ∈ rest, gradeCell cell ≠ .refused := by
        rw [succeeds_bind_iff (P := True) fun _ _ => iff_of_true ⟨_, rfl⟩ trivial, and_true,
          ih others]
      rw [decodeCells, succeeds_bind_iff fun v _ => tail v, succeeds_mapError_iff,
        gradeCell_taken laws first, List.forall_mem_cons]

theorem gradeRow_taken {std : Strconv} (laws : std.Classifies) {row : Tree} (sound : row.All Sound)
    (i : Nat) : (∃ cells, unmarshalRaws row = .ok cells ∧ Succeeds (decodeCells std i 0 cells)) ↔
      gradeRow row ≠ .refused := by
  cases row with
  | null => exact ⟨fun _ => nofun, fun _ => ⟨[], rfl, succeeds_ok _⟩⟩
  | array cells =>
      have each : ∀ cell ∈ cells, cell.All Sound := fun cell inside => sound.find inside
      rw [gradeRow, Grade.worst_ne_refused, List.forall_mem_map, ← decodeCells_taken laws i each 0]
      constructor
      · rintro ⟨_, same, decoded⟩
        cases same
        exact decoded
      · exact fun decoded => ⟨cells, rfl, decoded⟩
  | _ => exact ⟨fun ⟨_, same, _⟩ => (nomatch same), fun other => absurd rfl other⟩

theorem decodeRowsFrom_taken {std : Strconv} (laws : std.Classifies) {rows : List Tree}
    (sound : ∀ row ∈ rows, row.All Sound) (i : Nat) :
    Succeeds (decodeRowsFrom std i rows) ↔ ∀ row ∈ rows, gradeRow row ≠ .refused := by
  induction rows generalizing i with
  | nil => exact ⟨fun _ => nofun, fun _ => succeeds_ok _⟩
  | cons row rest ih =>
      obtain ⟨first, others⟩ := List.forall_mem_cons.mp sound
      rw [List.forall_mem_cons, ← gradeRow_taken laws first i, ← ih others (i + 1), decodeRowsFrom]
      constructor
      · rintro ⟨all, decoded⟩
        obtain ⟨cells, read, decoded⟩ := bind_ok_iff.mp decoded
        obtain ⟨row, one, decoded⟩ := bind_ok_iff.mp decoded
        obtain ⟨rows, more, _⟩ := bind_ok_iff.mp decoded
        exact ⟨⟨cells, mapError_ok_iff.mp read, row, one⟩, rows, more⟩
      · rintro ⟨⟨cells, read, row, one⟩, rows, more⟩
        refine ⟨row :: rows, ?_⟩
        rw [mapError_ok_iff.mpr read]
        change (do
          let row ← decodeCells std i 0 cells
          let rows ← decodeRowsFrom std (i + 1) rest
          Except.ok (row :: rows)) = _
        rw [one, more]
        rfl

theorem gradeRows_taken {std : Strconv} (laws : std.Classifies) {t : Tree} (sound : t.All Sound) :
    Succeeds (decodeRows std t) ↔ gradeRows t ≠ .refused := by
  cases t with
  | null => exact ⟨fun _ => nofun, fun _ => ⟨[], rfl⟩⟩
  | array rows =>
      rw [gradeRows, Grade.worst_ne_refused, List.forall_mem_map,
        ← decodeRowsFrom_taken laws (fun row inside => sound.find inside) 0]
      rfl
  | _ => exact ⟨nofun, fun other => absurd rfl other⟩

theorem gradeText_taken (t : Tree) : Succeeds (unmarshalString t) ↔ gradeText t ≠ .refused := by
  cases t with
  | null => exact ⟨fun _ => nofun, fun _ => succeeds_ok _⟩
  | string us => exact ⟨fun _ => nofun, fun _ => succeeds_ok _⟩
  | _ => exact ⟨nofun, fun other => absurd rfl other⟩

theorem gradeFlag_taken (t : Tree) : Succeeds (unmarshalBool t) ↔ gradeFlag t ≠ .refused := by
  cases t with
  | null => exact ⟨fun _ => nofun, fun _ => succeeds_ok _⟩
  | bool b => exact ⟨fun _ => nofun, fun _ => succeeds_ok _⟩
  | _ => exact ⟨nofun, fun other => absurd rfl other⟩

theorem gradeTexts_taken (t : Tree) : Succeeds (unmarshalStrings t) ↔ gradeTexts t ≠ .refused := by
  cases t with
  | null => exact ⟨fun _ => nofun, fun _ => succeeds_ok _⟩
  | array items =>
      rw [gradeTexts, Grade.worst_ne_refused, List.forall_mem_map]
      simp only [← gradeText_taken]
      exact mapM_ok_iff unmarshalString items
  | _ => exact ⟨nofun, fun other => absurd rfl other⟩

theorem gradeInteger_taken (name : String) (t : Tree) :
    Succeeds (Response.int64Of name t) ↔ gradeInteger t ≠ .refused := by
  have number (token : List Char) : Succeeds ((parseInt token).mapError
      (GoError.wrap (lit "decoding field " ++ quoted name ++ lit " as int64: "))) ↔ IsInt64 token := by
    rw [succeeds_mapError_iff, parseInt_taken]
  rw [Response.int64Of]
  cases t with
  | null =>
      refine ⟨fun taken => ?_, fun other => absurd rfl other⟩
      obtain ⟨n, same, _⟩ := (number []).mp taken
      cases same
  | number raw =>
      rw [gradeInteger]
      split_ifs with fits
      · exact ⟨fun _ => nofun, fun _ => (number (chars raw)).mpr fits⟩
      · exact ⟨fun taken => absurd ((number (chars raw)).mp taken) fits, fun other => absurd rfl other⟩
  | string us =>
      rw [gradeInteger, unmarshalNumber]
      by_cases valid : isValidNumber us = true
      · rw [if_pos valid]
        refine (number (chars us)).trans ?_
        split_ifs with both
        · exact ⟨fun _ => nofun, fun _ => both.2⟩
        · exact ⟨fun fits => absurd ⟨valid, fits⟩ both, fun other => absurd rfl other⟩
      · rw [if_neg valid, if_neg fun both => valid both.1]
        exact ⟨nofun, fun other => absurd rfl other⟩
  | _ => exact ⟨nofun, fun other => absurd rfl other⟩

/-! ## Replies -/

theorem present_ok_iff (fields : Fields) (name : String) (raw : RawMessage) :
    Response.present fields name = .ok raw ↔ rawField fields name = some raw := by
  rw [Response.present]
  cases rawField fields name with
  | none => exact ⟨nofun, nofun⟩
  | some found => rw [Except.ok.injEq, Option.some.injEq]

theorem fieldGrade_taken (fields : Fields) (field : String × Kind) :
    fieldGrade fields field ≠ .refused ↔
      ∃ raw, rawField fields field.1 = some raw ∧ grade field.2 raw ≠ .refused := by
  rw [fieldGrade]
  split
  · rename_i v found
    rw [found]
    constructor
    · exact fun taken => ⟨v, rfl, taken⟩
    · rintro ⟨_, same, taken⟩
      cases same
      exact taken
  · rename_i none
    rw [none]
    exact ⟨fun other => absurd rfl other, nofun⟩

/-- A decoder that needs its field and takes the values of a kind. -/
theorem field_taken {α : Type} {fields : Fields} {name : String} {kind : Kind}
    {next : RawMessage → Except GoError α}
    (takes : ∀ raw, rawField fields name = some raw →
      (Succeeds (next raw) ↔ grade kind raw ≠ .refused)) :
    Succeeds (Response.present fields name >>= next) ↔ fieldGrade fields (name, kind) ≠ .refused := by
  rw [fieldGrade_taken]
  constructor
  · rintro ⟨a, returned⟩
    obtain ⟨raw, there, taken⟩ := bind_ok_iff.mp returned
    have found := (present_ok_iff fields name raw).mp there
    exact ⟨raw, found, (takes raw found).mp ⟨a, taken⟩⟩
  · rintro ⟨raw, found, taken⟩
    obtain ⟨a, returned⟩ := (takes raw found).mpr taken
    exact ⟨a, bind_ok_iff.mpr ⟨raw, (present_ok_iff fields name raw).mpr found, returned⟩⟩

theorem decodeString_field (fields : Fields) (name : String) :
    Succeeds (Response.decodeString fields name) ↔ fieldGrade fields (name, .text) ≠ .refused :=
  field_taken fun raw _ => succeeds_mapError_iff.trans (gradeText_taken raw)

theorem decodeBool_field (fields : Fields) (name : String) :
    Succeeds (Response.decodeBool fields name) ↔ fieldGrade fields (name, .flag) ≠ .refused :=
  field_taken fun raw _ => succeeds_mapError_iff.trans (gradeFlag_taken raw)

theorem decodeStringSlice_field (fields : Fields) (name : String) :
    Succeeds (Response.decodeStringSlice fields name) ↔
      fieldGrade fields (name, .texts) ≠ .refused :=
  field_taken fun raw _ => succeeds_mapError_iff.trans (gradeTexts_taken raw)

theorem decodeInt64_field (fields : Fields) (name : String) :
    Succeeds (Response.decodeInt64 fields name) ↔ fieldGrade fields (name, .integer) ≠ .refused :=
  field_taken fun raw _ => gradeInteger_taken name raw

theorem decodeNullableInt64_field (fields : Fields) (name : String) :
    Succeeds (Response.decodeNullableInt64 fields name) ↔
      fieldGrade fields (name, .nullableInteger) ≠ .refused := by
  refine field_taken fun raw _ => ?_
  have some' (t : Tree) : Succeeds (do
      let n ← Response.int64Of name t
      Except.ok (some n)) ↔ gradeInteger t ≠ .refused := by
    rw [succeeds_bind_iff (P := True) fun _ _ => iff_of_true ⟨_, rfl⟩ trivial, and_true,
      gradeInteger_taken]
  cases raw with
  | null => exact ⟨fun _ => nofun, fun _ => succeeds_ok _⟩
  | _ => exact some' _

/-- A reply decodes unless the grade of one of its fields refuses it. -/
theorem decodeReply_taken {std : Strconv} (laws : std.Classifies) {fields : Fields}
    (sound : ∀ name v, rawField fields name = some v → v.All Sound) (op : Operation) :
    Succeeds (decodeReply std fields op) ↔
      ∀ field ∈ op.required, fieldGrade fields field ≠ .refused := by
  have last {α : Type} {x : Except GoError α} {f : α → Reply} :
      Succeeds (do
        let a ← x
        Except.ok (f a)) ↔ Succeeds x := by
    rw [succeeds_bind_iff (P := True) fun _ _ => iff_of_true ⟨_, rfl⟩ trivial, and_true]
  cases op with
  | query =>
      have rows : Succeeds (Response.present fields "rows" >>= decodeRows std) ↔
          fieldGrade fields ("rows", .rows) ≠ .refused :=
        field_taken fun raw found => gradeRows_taken laws (sound _ raw found)
      have tail (cols : List GoString) : Succeeds (do
          let rawRows ← Response.present fields "rows"
          let rows ← decodeRows std rawRows
          Except.ok (Reply.query cols rows)) ↔ fieldGrade fields ("rows", .rows) ≠ .refused := by
        rw [← rows, ← last (f := Reply.query cols), bind_assoc]
      rw [decodeReply, succeeds_bind_iff fun cols _ => tail cols, decodeStringSlice_field]
      simp only [Operation.required, List.forall_mem_cons, List.not_mem_nil, false_implies,
        implies_true, and_true]
  | exec =>
      have tail (n : Int64) : Succeeds (do
          let lastInsertID ← Response.decodeInt64 fields "last_insert_id"
          Except.ok (Reply.exec n lastInsertID)) ↔
            fieldGrade fields ("last_insert_id", .integer) ≠ .refused :=
        last.trans (decodeInt64_field fields "last_insert_id")
      rw [decodeReply, succeeds_bind_iff fun n _ => tail n, decodeInt64_field]
      simp only [Operation.required, List.forall_mem_cons, List.not_mem_nil, false_implies,
        implies_true, and_true]
  | snapshot =>
      rw [decodeReply, last, decodeString_field]
      simp only [Operation.required, List.forall_mem_singleton]
  | inspect =>
      have four (a : Bool) (b c : Option Int64) (d : GoString) : Succeeds (do
          let readOnly ← Response.decodeBool fields "read_only"
          Except.ok (Reply.inspect a b c d readOnly)) ↔ _ :=
        last.trans (decodeBool_field fields "read_only")
      have three (a : Bool) (b c : Option Int64) : Succeeds (do
          let source ← Response.decodeString fields "source"
          let readOnly ← Response.decodeBool fields "read_only"
          Except.ok (Reply.inspect a b c source readOnly)) ↔ _ :=
        succeeds_bind_iff fun d _ => four a b c d
      have two (a : Bool) (b : Option Int64) : Succeeds (do
          let dataLength ← Response.decodeNullableInt64 fields "data_length"
          let source ← Response.decodeString fields "source"
          let readOnly ← Response.decodeBool fields "read_only"
          Except.ok (Reply.inspect a b dataLength source readOnly)) ↔ _ :=
        succeeds_bind_iff fun c _ => three a b c
      have one (a : Bool) : Succeeds (do
          let version ← Response.decodeNullableInt64 fields "version"
          let dataLength ← Response.decodeNullableInt64 fields "data_length"
          let source ← Response.decodeString fields "source"
          let readOnly ← Response.decodeBool fields "read_only"
          Except.ok (Reply.inspect a version dataLength source readOnly)) ↔ _ :=
        succeeds_bind_iff fun b _ => two a b
      rw [decodeReply, succeeds_bind_iff fun a _ => one a, decodeBool_field,
        decodeNullableInt64_field, decodeNullableInt64_field, decodeString_field]
      simp only [Operation.required, List.forall_mem_cons, List.not_mem_nil, false_implies,
        implies_true, and_true]
  | tables =>
      rw [decodeReply, last, decodeStringSlice_field]
      simp only [Operation.required, List.forall_mem_singleton]
  | schema =>
      rw [decodeReply, last, decodeStringSlice_field]
      simp only [Operation.required, List.forall_mem_singleton]
  | dump =>
      rw [decodeReply, last, decodeString_field]
      simp only [Operation.required, List.forall_mem_singleton]
  | load => exact ⟨fun _ _ inside => absurd inside List.not_mem_nil, fun _ => succeeds_ok _⟩
  | overwrite => exact ⟨fun _ _ inside => absurd inside List.not_mem_nil, fun _ => succeeds_ok _⟩

/-! ## Lines -/

theorem parse_fields_ok_iff (line : List UInt8) (fields : Fields) :
    (parse line >>= unmarshalFields) = .ok fields ↔
      parse line = .ok .null ∧ fields = [] ∨
        ∃ members, parse line = .ok (.object members) ∧ fields = fieldsOf members := by
  rw [bind_ok_iff]
  constructor
  · rintro ⟨t, parsed, read⟩
    cases t with
    | null =>
        cases read
        exact .inl ⟨parsed, rfl⟩
    | object members =>
        cases read
        exact .inr ⟨members, parsed, rfl⟩
    | _ => cases read
  · rintro (⟨parsed, rfl⟩ | ⟨members, parsed, rfl⟩)
    · exact ⟨.null, parsed, rfl⟩
    · exact ⟨.object members, parsed, rfl⟩

/-- The flag of an envelope. -/
theorem envelope_ok_iff (line : List UInt8) (fields : Fields) :
    (∃ errResp, decodeResponseLine line = .ok ⟨true, fields, errResp⟩) ↔
      ∃ members, parse line = .ok (.object members) ∧ fields = fieldsOf members ∧
        rawField fields "ok" = some (.bool true) := by
  constructor
  · rintro ⟨errResp, decoded⟩
    obtain ⟨read, first, decoded⟩ := bind_ok_iff.mp decoded
    obtain ⟨ok, flag, decoded⟩ := bind_ok_iff.mp decoded
    cases ok with
    | false =>
        rw [if_neg Bool.false_ne_true] at decoded
        split at decoded
        · obtain ⟨e, _, decoded⟩ := bind_ok_iff.mp decoded
          cases decoded
        · cases decoded
    | true =>
        cases decoded
        have found : rawField fields "ok" = some (.bool true) := by
          unfold okField at flag
          split at flag
          · rename_i raw there
            have value := mapError_ok_iff.mp flag
            cases raw with
            | bool b =>
                cases value
                exact there
            | null => cases value
            | _ => cases value
          · cases flag
        rcases (parse_fields_ok_iff line fields).mp (mapError_ok_iff.mp first) with
          ⟨_, rfl⟩ | ⟨members, parsed, same⟩
        · cases found
        · exact ⟨members, parsed, same, found⟩
  · rintro ⟨members, parsed, rfl, found⟩
    refine ⟨none, ?_⟩
    have read := (parse_fields_ok_iff line (fieldsOf members)).mpr (.inr ⟨members, parsed, rfl⟩)
    have flag : okField (fieldsOf members) = .ok true := by
      rw [okField, found]
      rfl
    refine bind_ok_iff.mpr ⟨fieldsOf members, mapError_ok_iff.mpr read, ?_⟩
    exact bind_ok_iff.mpr ⟨true, flag, rfl⟩

theorem callResult_ok_iff (line : List UInt8) (fields : Fields) :
    callResult line = .ok fields ↔ ∃ members, parse line = .ok (.object members) ∧
      fields = fieldsOf members ∧ rawField fields "ok" = some (.bool true) := by
  rw [← envelope_ok_iff]
  constructor
  · intro returned
    obtain ⟨⟨ok, all, errResp⟩, decoded, returned⟩ := bind_ok_iff.mp returned
    cases ok with
    | true =>
        cases returned
        exact ⟨errResp, mapError_ok_iff.mp decoded⟩
    | false => cases errResp <;> cases returned
  · rintro ⟨errResp, decoded⟩
    rw [callResult, decoded]
    rfl

theorem rawField_sound {members : List (List Nat × Tree)} (sound : (Tree.object members).All Sound)
    (name : String) (v : Tree) (found : rawField (fieldsOf members) name = some v) : v.All Sound := by
  obtain ⟨field, there, rfl⟩ := Option.map_eq_some_iff.mp found
  have inside := List.mem_reverse.mp (List.mem_of_find?_eq_some there)
  obtain ⟨m, among, rfl⟩ := List.mem_map.mp inside
  exact JsonReader.AllMembers.find sound among

theorem receive_taken {std : Strconv} (laws : std.Classifies) (op : Operation)
    (line : List UInt8) : Succeeds (receive std op line) ↔ replyGrade op line ≠ .refused := by
  have whole : Succeeds (receive std op line) ↔ ∃ members, parse line = .ok (.object members) ∧
      rawField (fieldsOf members) "ok" = some (.bool true) ∧
        Succeeds (decodeReply std (fieldsOf members) op) := by
    constructor
    · rintro ⟨r, returned⟩
      obtain ⟨fields, called, decoded⟩ := bind_ok_iff.mp returned
      obtain ⟨members, parsed, rfl, found⟩ := (callResult_ok_iff line fields).mp called
      exact ⟨members, parsed, found, r, mapError_ok_iff.mp decoded⟩
    · rintro ⟨members, parsed, found, r, decoded⟩
      have called := (callResult_ok_iff line (fieldsOf members)).mpr ⟨members, parsed, rfl, found⟩
      exact ⟨r, bind_ok_iff.mpr ⟨_, called, mapError_ok_iff.mpr decoded⟩⟩
  rw [whole, replyGrade]
  split
  · rename_i members parsed
    split
    · rename_i found
      rw [Grade.worst_ne_refused, List.forall_mem_map,
        ← decodeReply_taken laws (rawField_sound (parse_sound parsed)) op]
      constructor
      · rintro ⟨_, same, _, decoded⟩
        cases same.symm.trans parsed
        exact decoded
      · exact fun decoded => ⟨members, parsed, found, decoded⟩
    · rename_i other
      refine ⟨?_, fun refused => absurd rfl refused⟩
      rintro ⟨_, same, found, _⟩
      cases same.symm.trans parsed
      exact absurd found other
  · rename_i other
    refine ⟨?_, fun refused => absurd rfl refused⟩
    rintro ⟨members, parsed, _⟩
    exact absurd parsed (other members)

/-! ## The hello line -/

theorem assignString_taken (old : GoString) (v : Tree) :
    Succeeds (assignString old v) ↔ v = .null ∨ ∃ us, v = .string us := by
  cases v with
  | null => exact ⟨fun _ => .inl rfl, fun _ => succeeds_ok _⟩
  | string us => exact ⟨fun _ => .inr ⟨us, rfl⟩, fun _ => succeeds_ok _⟩
  | _ => exact ⟨nofun, by rintro (same | ⟨_, same⟩) <;> cases same⟩

theorem assignInt_taken (old : Int64) (v : Tree) : Succeeds (assignInt old v) ↔
    v = .null ∨ ∃ raw, v = .number raw ∧ IsInt64 (chars raw) := by
  cases v with
  | null => exact ⟨fun _ => .inl rfl, fun _ => succeeds_ok _⟩
  | number raw =>
      rw [assignInt, succeeds_mapError_iff, parseInt_taken]
      constructor
      · exact fun fits => .inr ⟨raw, rfl, fits⟩
      · rintro (same | ⟨_, same, fits⟩)
        · cases same
        · cases same
          exact fits
  | _ => exact ⟨nofun, by rintro (same | ⟨_, same, _⟩) <;> cases same⟩

theorem helloTakes_text {name : String} (other : name ≠ "protocol") (v : Tree) :
    helloTakes name v = true ↔ v = .null ∨ ∃ us, v = .string us := by
  cases v <;> simp [helloTakes, other]

theorem helloTakes_number (v : Tree) : helloTakes "protocol" v = true ↔
    v = .null ∨ ∃ raw, v = .number raw ∧ IsInt64 (chars raw) := by
  cases v <;> simp [helloTakes]

/-- A member is assigned just when its field takes it. -/
theorem assign_taken (h : Hello) (name : String) (v : Tree) :
    Succeeds (Hello.assign h name v) ↔ helloTakes name v = true := by
  have last {α : Type} {x : Except GoError α} {f : α → Hello} :
      Succeeds (do
        let a ← x
        Except.ok (f a)) ↔ Succeeds x := by
    rw [succeeds_bind_iff (P := True) fun _ _ => iff_of_true ⟨_, rfl⟩ trivial, and_true]
  rw [Hello.assign]
  split_ifs with protocol version
  · subst protocol
    rw [last, assignInt_taken, helloTakes_number]
  · rw [last, assignString_taken, helloTakes_text protocol]
  · rw [last, assignString_taken, helloTakes_text protocol]

theorem unmarshalMembers_taken (h : Hello) (members : List (List Nat × Tree)) :
    Succeeds (unmarshalMembers Hello.names Hello.assign h members) ↔
      (members.all fun m =>
        (fieldNamed Hello.names (text m.1)).all fun name => helloTakes name m.2) = true := by
  induction members generalizing h with
  | nil => exact ⟨fun _ => rfl, fun _ => succeeds_ok _⟩
  | cons m rest ih =>
      obtain ⟨key, v⟩ := m
      rw [unmarshalMembers, succeeds_bind_iff fun h' _ => ih h', List.all_cons, Bool.and_eq_true]
      refine and_congr_left fun _ => ?_
      rw [unmarshalMember]
      cases fieldNamed Hello.names (text key) with
      | none => exact ⟨fun _ => rfl, fun _ => succeeds_ok _⟩
      | some name => exact assign_taken h name v

theorem hello_taken (line : List UInt8) :
    Succeeds (decodeHello line) ↔ helloGrade line ≠ .refused := by
  rw [decodeHello, succeeds_mapError_iff, helloGrade]
  cases parse line with
  | error e => exact ⟨nofun, fun other => absurd rfl other⟩
  | ok t =>
      change Succeeds (unmarshalStruct Hello.names Hello.assign Hello.zero t) ↔ _
      cases t with
      | null => exact ⟨fun _ => nofun, fun _ => succeeds_ok _⟩
      | object members =>
          dsimp only [unmarshalStruct]
          rw [unmarshalMembers_taken]
          split_ifs with taken exact'
          · exact ⟨fun _ => nofun, fun _ => taken⟩
          · exact ⟨fun _ => nofun, fun _ => taken⟩
          · exact ⟨fun found => absurd found taken, fun other => absurd rfl other⟩
      | _ => exact ⟨nofun, fun other => absurd rfl other⟩

/-! ## Strictness -/

theorem fieldGrade_exact (fields : Fields) (field : String × Kind) :
    fieldGrade fields field = .exact ↔
      ∃ v, rawField fields field.1 = some v ∧ Exact field.2 v := by
  rw [fieldGrade]
  split
  · rename_i v found
    rw [found, grade_exact]
    constructor
    · exact fun held => ⟨v, rfl, held⟩
    · rintro ⟨_, same, held⟩
      cases same
      exact held
  · rename_i none
    rw [none]
    exact ⟨nofun, nofun⟩

theorem strictLine_iff {required : List (String × Kind)} {line : List UInt8}
    {members : List (List Nat × Tree)} (parsed : parse line = .ok (.object members)) :
    StrictLine required line ↔
      ∀ field ∈ required, fieldGrade (fieldsOf members) field = .exact := by
  simp only [fieldGrade_exact]
  constructor
  · rintro ⟨_, _, same, read, strict⟩
    cases same.symm.trans parsed
    cases read
    exact strict
  · exact fun strict => ⟨members, _, parsed, rfl, strict⟩

/-- What is taken is strict unless its grade is a lapse. -/
theorem strict_iff_of_grade {accepted strict : Prop} {g : Grade} (taken : accepted ↔ g ≠ .refused)
    (exact' : g ≠ .refused → (strict ↔ g = .exact)) : (accepted → strict) ↔ g ≠ .lapse := by
  cases g with
  | exact => exact ⟨fun _ => nofun, fun _ _ => (exact' nofun).mpr rfl⟩
  | lapse =>
      refine ⟨fun kept => ?_, fun other => absurd rfl other⟩
      cases (exact' nofun).mp (kept (taken.mpr nofun))
  | refused => exact ⟨fun _ => nofun, fun _ held => absurd rfl (taken.mp held)⟩

theorem hello_strict (line : List UInt8) (taken : helloGrade line ≠ .refused) :
    StrictLine Hello.required line ↔ helloGrade line = .exact := by
  rw [helloGrade] at taken ⊢
  cases parsed : parse line with
  | error e =>
      rw [parsed] at taken
      exact absurd rfl taken
  | ok t =>
      rw [parsed] at taken
      cases t with
      | null =>
          refine ⟨?_, nofun⟩
          rintro ⟨_, _, same, _⟩
          cases same.symm.trans parsed
      | object members =>
          rw [strictLine_iff parsed]
          dsimp only at taken ⊢
          split_ifs at taken ⊢ with fits exact'
          · simp only [List.all_eq_true, decide_eq_true_eq] at exact'
            exact ⟨fun _ => rfl, fun _ => exact'⟩
          · refine ⟨fun strict => absurd ?_ exact', nofun⟩
            simp only [List.all_eq_true, decide_eq_true_eq]
            exact strict
          · exact absurd rfl taken
      | _ => exact absurd rfl taken

theorem reply_strict (op : Operation) (line : List UInt8) (taken : replyGrade op line ≠ .refused) :
    StrictLine (("ok", .flag) :: op.required) line ↔ replyGrade op line = .exact := by
  rw [replyGrade] at taken ⊢
  split at taken
  · rename_i members parsed
    rw [strictLine_iff parsed, List.forall_mem_cons]
    split at taken
    · rename_i found
      have flag : fieldGrade (fieldsOf members) ("ok", .flag) = .exact := by
        rw [fieldGrade, found]
        rfl
      rw [Grade.worst_eq_exact, List.forall_mem_map]
      exact ⟨And.right, fun all => ⟨flag, all⟩⟩
    · exact absurd rfl taken
  · exact absurd rfl taken

/-- The decoders succeed only on lines that the protocol allows, unless a line has a
lapse and nothing that they refuse. -/
theorem decoders_strict_iff (std : Strconv) (laws : std.Classifies) (line : List UInt8) :
    ((∀ h, decodeHello line = .ok h → StrictLine Hello.required line) ↔
      helloGrade line ≠ .lapse) ∧
    ∀ op, (∀ r, receive std op line = .ok r → StrictLine (("ok", .flag) :: op.required) line) ↔
      replyGrade op line ≠ .lapse := by
  refine ⟨?_, fun op => ?_⟩
  · rw [← strict_iff_of_grade (hello_taken line) (hello_strict line), Succeeds, exists_imp]
  · rw [← strict_iff_of_grade (receive_taken laws op line) (reply_strict op line), Succeeds,
      exists_imp]

/-- Reads `1.5` as `strconv` does, and any other number as zero. -/
def sampleNumbers : Strconv where
  formatFloat _ := "0".toList
  parseFloat s :=
    if s = "true".toList ∨ s = "false".toList then (⟨0⟩, some .numSyntax)
    else if s = "1.5".toList then (⟨0x3FF8000000000000⟩, none)
    else (⟨0⟩, none)
  quote s := lit "\"" ++ ascii s ++ lit "\""
  objectText _ := "\x7b\x7d".toList

theorem sampleNumbers_classifies : sampleNumbers.Classifies where
  number token number := by
    have other : ¬ (token = "true".toList ∨ token = "false".toList) := by
      obtain ⟨c, more, shape, start⟩ := JsonReader.number_start number
      rintro (rfl | rfl)
      · cases shape
        rcases start with digit | ⟨minus, _⟩
        · cases digit
        · cases minus
      · cases shape
        rcases start with digit | ⟨minus, _⟩
        · cases digit
        · cases minus
    refine ⟨(sampleNumbers.parseFloat token).1, .inl ?_⟩
    simp only [sampleNumbers, if_neg other]
    split <;> rfl
  true := rfl
  false := rfl

def strictReply : List UInt8 :=
  Utf8.bytes "\x7b\"ok\":true,\"columns\":[\"x\"],\"rows\":[[1.5,null,[\"\"]]]\x7d"

/-- A reply that is taken, and has its fields as the protocol has them. -/
theorem strict_reply_sample : StrictLine (("ok", .flag) :: Operation.query.required) strictReply := by
  have decoded : receive sampleNumbers .query strictReply =
      .ok (.query [lit "x"] [[.float64 ⟨0x3FF8000000000000⟩, .nil, .bytes (some [])]]) := by
    decide +kernel
  have graded : replyGrade .query strictReply ≠ .lapse := by decide +kernel
  exact ((decoders_strict_iff sampleNumbers sampleNumbers_classifies strictReply).2 .query).mpr
    graded _ decoded

def nullPath : List UInt8 := Utf8.bytes "\x7b\"ok\":true,\"path\":null\x7d"

/-- A `null` for the path is an empty path, a hello line that is an empty object is taken,
and so is a quoted number. -/
theorem decoders_lenient :
    (receive sampleNumbers .snapshot nullPath = .ok (.snapshot []) ∧
      ¬ StrictLine (("ok", .flag) :: Operation.snapshot.required) nullPath) ∧
    decodeHello (Utf8.bytes "\x7b\x7d") = .ok Hello.zero ∧
    receive sampleNumbers .exec (Utf8.bytes
      "\x7b\"ok\":true,\"rows_affected\":\"1\",\"last_insert_id\":2\x7d") = .ok (.exec 1 2) := by
  have taken : receive sampleNumbers .snapshot nullPath = .ok (.snapshot []) := by decide +kernel
  have graded : replyGrade .snapshot nullPath = .lapse := by decide +kernel
  refine ⟨⟨taken, fun strict => ?_⟩, by decide +kernel, by decide +kernel⟩
  have exact' := (reply_strict .snapshot nullPath (graded ▸ nofun)).mp strict
  rw [graded] at exact'
  cases exact'

end SanDbOxFormal.Go
