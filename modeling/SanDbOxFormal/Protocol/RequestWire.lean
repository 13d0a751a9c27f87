import SanDbOxFormal.Go.Marshal
import SanDbOxFormal.Java.TextFidelity
import SanDbOxFormal.Library.JsonSoundness
import SanDbOxFormal.Protocol.RequestAgreement
import SanDbOxFormal.Rust.RequestFraming
import SanDbOxFormal.TypeScript.RequestLines

/-!
# The request lines of four drivers

What the bytes of a request line say: they are decoded and read as JSON, and the members of
the object are compared with those of the operation.  The line of each driver says the object
of its own rules.
-/

namespace SanDbOxFormal.Protocol

open SanDbOxFormal.Library
open SanDbOxFormal.Library.JsonReader (Tree Dialect Writes Standard points strictUnits strictPoints)

/-! ## Reading a line -/

/-- What comes of a request: the object of its line, or an error before anything is written. -/
inductive Sent where
  | object (members : WireObject)
  | refused
  /-- A line that no operation has. -/
  | garbled
  deriving DecidableEq

/-- A reader of lines, with its units of text and what they denote in a string. -/
structure Reading where
  dialect : Dialect
  units : List Char → List Nat
  chars : List Nat → List Char

namespace Reading

/-- Over UTF-16 units. -/
def utf16 : Reading :=
  ⟨strictUnits, JsonUtf16.units, fun us => Utf16.characters (us.map UInt16.ofNat)⟩

/-- Over code points. -/
def codePoints : Reading := ⟨strictPoints, points, Go.chars⟩

variable (r : Reading) (nearest : List Char → UInt64)

def key (us : List Nat) : String := String.ofList (r.chars us)

def cell? : Tree → Option WireCell
  | .null => some .null
  | .number token => tokenCell? nearest (r.chars token)
  | .string us => some (.text (r.chars us))
  | .array [.string us] => blobCell? (r.chars us)
  | _ => none

def member? : Tree → Option WireMember
  | .string us => some (.text (r.chars us))
  | .bool b => some (.flag b)
  | .array items => (items.mapM (r.cell? nearest)).map .cells
  | _ => none

/-- What the bytes of a line say. -/
def said (line : List UInt8) : Sent :=
  match Utf8.decode? line with
  | none => .garbled
  | some text =>
      match JsonReader.read r.dialect (r.units text.toList).length (r.units text.toList) with
      | .ok (.object members) =>
          match members.mapM fun m => (r.member? nearest m.2).map fun v => (r.key m.1, v) with
          | some object => .object object
          | none => .garbled
      | _ => .garbled

variable {r nearest}

/-- A text with the newline behind it. -/
theorem writes_newline {d : Dialect} {n : Nat} {t : Tree} {text : List Nat}
    (spelled : JsonReader.Spelled d n (.value t) text) : Writes d n (text ++ [0x0A]) t :=
  ⟨[], text, [0x0A], rfl, fun _ inside => absurd inside List.not_mem_nil, spelled,
    List.forall_mem_singleton.mpr rfl⟩

/-- A line says the object that the members of its tree denote. -/
theorem said_of_writes {n : Nat} {cs : List Char} {members : List (List Nat × Tree)} {object : WireObject}
    (standard : Standard r.dialect) (writes : Writes r.dialect n (r.units cs) (.object members))
    (denotes : Denotes r.key (r.member? nearest) members object) :
    r.said nearest (Utf8.encode cs) = .object object := by
  have decoded : Utf8.decode? (Utf8.encode cs) = some (String.ofList cs) :=
    (Utf8.decode?_eq_some_iff _ _).mpr (Utf8.bytes_ofList cs).symm
  have each : (members.mapM fun m => (r.member? nearest m.2).map fun v => (r.key m.1, v)) = some object := by
    clear writes
    induction denotes with
    | nil => rfl
    | cons first _ ih =>
        obtain ⟨named, value⟩ := first
        rw [List.mapM_cons, ih, value, named]
        rfl
  rw [said, decoded]
  dsimp only
  rw [String.toList_ofList, writes.read standard]
  dsimp only
  rw [each]

theorem mapM_related {α β γ : Type} {R : α → β → Prop} {f : α → Option γ} {g : β → Option γ}
    (carry : ∀ a b c, R a b → f a = some c → g b = some c) {xs : List α} {ys : List β} {cs : List γ}
    (related : List.Forall₂ R xs ys) (mapped : xs.mapM f = some cs) : ys.mapM g = some cs := by
  induction related generalizing cs with
  | nil => exact mapped
  | cons first _ ih =>
      rw [List.mapM_cons] at mapped ⊢
      obtain ⟨c, here, mapped⟩ := Option.bind_eq_some_iff.mp mapped
      obtain ⟨more, later, mapped⟩ := Option.bind_eq_some_iff.mp mapped
      rw [carry _ _ c first here, ih later]
      exact mapped

/-- Members of a driver, and those of the tree that its line is read as. -/
theorem denotes_related {κ α : Type} {name : κ → String} {meaning? : α → Option WireMember}
    {R : κ × α → List Nat × Tree → Prop}
    (carry : ∀ m n w, R m n → meaning? m.2 = some w → r.key n.1 = name m.1 ∧ r.member? nearest n.2 = some w)
    {ms : List (κ × α)} {ns : List (List Nat × Tree)} {object : WireObject}
    (related : List.Forall₂ R ms ns) (denotes : Denotes name meaning? ms object) :
    Denotes r.key (r.member? nearest) ns object := by
  induction related generalizing object with
  | nil =>
      cases denotes
      exact .nil
  | cons first _ ih =>
      cases denotes with
      | cons here more =>
          obtain ⟨named, value⟩ := here
          obtain ⟨same, said⟩ := carry _ _ _ first value
          exact .cons ⟨same.trans named, said⟩ (ih more)

theorem utf16_toNat (us : List UInt16) : utf16.chars (us.map UInt16.toNat) = Utf16.characters us := by
  change Utf16.characters ((us.map UInt16.toNat).map UInt16.ofNat) = _
  have same : (UInt16.ofNat ∘ UInt16.toNat) = id := funext fun _ => UInt16.ofNat_toNat
  rw [List.map_map, same, List.map_id]

theorem utf16_chars (cs : List Char) : utf16.chars (utf16.units cs) = cs :=
  (utf16_toNat (Utf16.encode cs)).trans (Utf16.characters_encode cs)

theorem codePoints_chars (cs : List Char) : codePoints.chars (points cs) = cs := JsonReader.chars_points cs

end Reading

open Reading (utf16 codePoints)

variable {nearest : List Char → UInt64} {debug : Rust.FloatText} {numbers : TypeScript.NumberText}
  {strconv : Go.Strconv} {jdk : Java.Codec.Jdk}

/-! ## Rust -/

section Rust

open SanDbOxFormal.Library.Rfc8259 (Json)
open SanDbOxFormal.Library.JsonUtf16 (unitTree unitTrees unitMembers)

theorem unitTrees_related (items : List Json) : List.Forall₂ (fun v t => t = unitTree v) items (unitTrees items) := by
  induction items with
  | nil => exact .nil
  | cons v rest ih => exact .cons rfl ih

theorem unitMembers_related (pairs : List (String × Json)) : List.Forall₂
    (fun m n => n = (JsonUtf16.units m.1.toList, unitTree m.2)) pairs (unitMembers pairs) := by
  induction pairs with
  | nil => exact .nil
  | cons m rest ih => exact .cons rfl ih

theorem rust_cell_said (v : Json) (t : Tree) (c : WireCell) (same : t = unitTree v)
    (denotes : rustCell? nearest v = some c) : utf16.cell? nearest t = some c := by
  subst same
  cases v with
  | null => exact denotes
  | bool b => cases denotes
  | number token =>
      rw [← denotes]
      exact congrArg (tokenCell? nearest) (Reading.utf16_chars token.raw.toList)
  | string s =>
      rw [← denotes]
      exact congrArg (fun cs => some (WireCell.text cs)) (Reading.utf16_chars s.toList)
  | array items =>
      rcases items with _ | ⟨v, _ | ⟨w, rest⟩⟩
      · cases denotes
      · cases v with
        | string s =>
            rw [← denotes]
            exact congrArg blobCell? (Reading.utf16_chars s.toList)
        | _ => cases denotes
      · cases v <;> cases denotes
  | object pairs => cases denotes

theorem rust_member_said (m : String × Json) (n : List Nat × Tree) (w : WireMember)
    (same : n = (JsonUtf16.units m.1.toList, unitTree m.2)) (denotes : rustMember? nearest m.2 = some w) :
    utf16.key n.1 = m.1 ∧ utf16.member? nearest n.2 = some w := by
  subst same
  obtain ⟨k, v⟩ := m
  refine ⟨?_, ?_⟩
  · change String.ofList (utf16.chars (utf16.units k.toList)) = k
    rw [Reading.utf16_chars, String.ofList_toList]
  · cases v with
    | null => cases denotes
    | bool b => exact denotes
    | number token => cases denotes
    | string s =>
        rw [← denotes]
        exact congrArg (fun cs => some (WireMember.text cs)) (Reading.utf16_chars s.toList)
    | array items =>
        obtain ⟨cells, mapped, same⟩ := Option.map_eq_some_iff.mp denotes
        change ((unitTrees items).mapM (utf16.cell? nearest)).map WireMember.cells = some w
        rw [Reading.mapM_related rust_cell_said (unitTrees_related items) mapped, ← same]
        rfl
    | object pairs => cases denotes

theorem rust_said {fields : List (String × Json)} {object : WireObject}
    (numerals : Rust.Codec.Json.Numerals (.object fields))
    (denotes : Denotes id (rustMember? nearest) fields object) :
    utf16.said nearest (Rust.Codec.encodeRequestLine fields) = .object object := by
  have line : Rust.Codec.encodeRequestLine fields =
      Utf8.encode ((Rust.Codec.Json.write (.object fields)).toList ++ ['\n']) := by
    rw [Rust.encodeRequestLine_eq, Rust.content, Utf8.encode_append, Utf8.bytes_eq_encode]
    rfl
  obtain ⟨depth, spelled⟩ := JsonUtf16.derives_spelled (Rust.Codec.Json.write_text numerals).1
  have writes : Writes strictUnits depth
      (JsonUtf16.units ((Rust.Codec.Json.write (.object fields)).toList ++ ['\n']))
      (.object (unitMembers fields)) := by
    rw [JsonUtf16.units_append]
    exact Reading.writes_newline (spelled depth (Nat.le_refl depth))
  rw [line]
  exact Reading.said_of_writes (JsonReader.standard_of_plain rfl) writes
    (Reading.denotes_related rust_member_said (unitMembers_related fields) denotes)

end Rust

/-! ## TypeScript -/

section TypeScript

open SanDbOxFormal.TypeScript (Outgoing Record)

theorem treeItems_related {items : List Outgoing} (tokens : TypeScript.TokensItems items) :
    List.Forall₂ (fun v t => v.Tokens ∧ t = v.tree) items (TypeScript.treeItems items) := by
  induction items with
  | nil => exact .nil
  | cons v rest ih => exact .cons ⟨tokens.1, rfl⟩ (ih tokens.2)

theorem treeMembers_related {record : Record} (tokens : TypeScript.TokensMembers record) : List.Forall₂
    (fun m n => m.2.Tokens ∧ n = (m.1.map UInt16.toNat, m.2.tree)) record (TypeScript.treeMembers record) := by
  induction record with
  | nil => exact .nil
  | cons m rest ih => exact .cons ⟨tokens.1, rfl⟩ (ih tokens.2)

theorem typeScript_cell_said (v : Outgoing) (t : Tree) (c : WireCell) (same : v.Tokens ∧ t = v.tree)
    (denotes : typeScriptCell? nearest v = some c) : utf16.cell? nearest t = some c := by
  obtain ⟨tokens, rfl⟩ := same
  cases v with
  | null => exact denotes
  | bool b => cases denotes
  | raw token =>
      refine Eq.trans (congrArg (tokenCell? nearest) ?_) denotes
      rw [← JsonUtf16.units_flat (JsonUtf16.number_flat tokens)]
      exact Reading.utf16_chars token
  | string s =>
      rw [← denotes]
      exact congrArg (fun cs => some (WireCell.text cs)) (Reading.utf16_toNat s)
  | array items =>
      rcases items with _ | ⟨v, _ | ⟨w, rest⟩⟩
      · cases denotes
      · cases v with
        | string s =>
            rw [← denotes]
            exact congrArg blobCell? (Reading.utf16_toNat s)
        | _ => cases denotes
      · cases v <;> cases denotes
  | object members => cases denotes

theorem typeScript_member_said (m : TypeScript.JsString × Outgoing) (n : List Nat × Tree) (w : WireMember)
    (same : m.2.Tokens ∧ n = (m.1.map UInt16.toNat, m.2.tree))
    (denotes : typeScriptMember? nearest m.2 = some w) :
    utf16.key n.1 = unitKey m.1 ∧ utf16.member? nearest n.2 = some w := by
  obtain ⟨k, v⟩ := m
  obtain ⟨tokens, rfl⟩ := same
  refine ⟨congrArg String.ofList (Reading.utf16_toNat k), ?_⟩
  cases v with
  | null => cases denotes
  | bool b => exact denotes
  | raw token => cases denotes
  | string s =>
      rw [← denotes]
      exact congrArg (fun cs => some (WireMember.text cs)) (Reading.utf16_toNat s)
  | array items =>
      obtain ⟨cells, mapped, same⟩ := Option.map_eq_some_iff.mp denotes
      change ((TypeScript.treeItems items).mapM (utf16.cell? nearest)).map WireMember.cells = some w
      rw [Reading.mapM_related typeScript_cell_said (treeItems_related tokens) mapped, ← same]
      rfl
  | object members => cases denotes

theorem typeScript_said {record : Record} {object : WireObject} (tokens : (Outgoing.object record).Tokens)
    (denotes : Denotes unitKey (typeScriptMember? nearest) record object) :
    utf16.said nearest (TypeScript.encodeRequestLine record) = .object object := by
  obtain ⟨spelled, cs, same⟩ := TypeScript.print_spec (.object record) tokens _ (Nat.le_refl _)
  have line : TypeScript.encodeRequestLine record = Utf8.encode (cs ++ ['\n']) := by
    rw [TypeScript.encodeRequestLine_eq tokens, TypeScript.content, TypeScript.encodeText, same,
      Utf16.characters_encode, Utf8.encode_append]
    rfl
  have writes : Writes strictUnits (Outgoing.object record).depth (JsonUtf16.units (cs ++ ['\n']))
      (.object (TypeScript.treeMembers record)) := by
    rw [same] at spelled
    rw [JsonUtf16.units_append]
    exact Reading.writes_newline spelled
  rw [line]
  exact Reading.said_of_writes (JsonReader.standard_of_plain rfl) writes
    (Reading.denotes_related typeScript_member_said (treeMembers_related tokens) denotes)

end TypeScript

/-! ## Go -/

section Go

open SanDbOxFormal.Go.Request (SaysMember)

theorem go_cell_said (raw : List Char) (t : Tree) (c : WireCell) (read : Go.parse (Utf8.encode raw) = .ok t)
    (denotes : goCell? nearest raw = some c) : codePoints.cell? nearest t = some c := by
  rw [goCell?, read] at denotes
  cases t with
  | array items =>
      rcases items with _ | ⟨v, _ | ⟨w, rest⟩⟩
      · cases denotes
      · cases v with
        | string us => exact denotes
        | _ => cases denotes
      · cases v <;> cases denotes
  | _ => exact denotes

theorem go_member_said (m : String × Go.Request.Member) (n : List Nat × Tree) (w : WireMember)
    (told : SaysMember m n) (denotes : goMember? nearest m.2 = some w) :
    codePoints.key n.1 = m.1 ∧ codePoints.member? nearest n.2 = some w := by
  obtain ⟨k, v⟩ := m
  obtain ⟨_, t⟩ := n
  obtain ⟨named, said⟩ := told
  cases named
  refine ⟨?_, ?_⟩
  · change String.ofList (codePoints.chars (points k.toList)) = k
    rw [Reading.codePoints_chars, String.ofList_toList]
  · cases said with
    | string s =>
        obtain ⟨text, decoded, same⟩ := Option.map_eq_some_iff.mp denotes
        cases (Utf8.decode?_eq_some_iff s text).mp decoded
        refine Eq.trans (congrArg (fun cs => some (WireMember.text cs)) ?_) (congrArg some same)
        rw [Utf8.bytes_eq_encode, Go.codePoints_encode, Reading.codePoints_chars]
    | bool b => exact denotes
    | raws each =>
        obtain ⟨cells, mapped, same⟩ := Option.map_eq_some_iff.mp denotes
        rw [← same]
        exact congrArg (Option.map WireMember.cells) (Reading.mapM_related go_cell_said each mapped)

theorem go_said (tokens : strconv.Tokens) {call : Go.Call} {request : Go.Request} {object : WireObject}
    (built : call.request strconv = .ok request)
    (denotes : Denotes id (goMember? nearest) request.members object) :
    codePoints.said nearest request.line = .object object := by
  obtain ⟨members, spelled, related⟩ := Go.Request.marshal_spelled
    (Go.request_raws (fun _ _ => Go.encodeValue_spelled tokens) built)
  have line : request.line = Utf8.encode (request.marshal ++ ['\n']) := by
    rw [Go.Request.line, Utf8.encode_append]
    rfl
  have writes : Writes strictPoints Go.maxNestingDepth (points (request.marshal ++ ['\n'])) (.object members) := by
    rw [JsonReader.points_append]
    exact Reading.writes_newline spelled
  rw [line]
  exact Reading.said_of_writes (JsonReader.standard_of_plain rfl) writes
    (Reading.denotes_related go_member_said related denotes)

end Go

/-! ## Java -/

section Java

open SanDbOxFormal.Java.Codec (Json Numeric asSentItems asSentMembers)
open SanDbOxFormal.Java.Codec.JsonParser (nats treeOf treesOf membersOf)

theorem treesOf_related {items : List Json} (numeric : ∀ v ∈ items, Numeric v) : List.Forall₂
    (fun v t => Numeric v ∧ t = treeOf v.asSent) items (treesOf (asSentItems items)) := by
  induction items with
  | nil => exact .nil
  | cons v rest ih =>
      obtain ⟨first, others⟩ := List.forall_mem_cons.mp numeric
      exact .cons ⟨first, rfl⟩ (ih others)

theorem membersOf_related {members : List (Java.JString × Json)} (numeric : ∀ m ∈ members, Numeric m.2) :
    List.Forall₂ (fun m n => Numeric m.2 ∧ n = (nats (Java.asSent m.1), treeOf m.2.asSent)) members
      (membersOf (asSentMembers members)) := by
  induction members with
  | nil => exact .nil
  | cons m rest ih =>
      obtain ⟨first, others⟩ := List.forall_mem_cons.mp numeric
      exact .cons ⟨first, rfl⟩ (ih others)

/-- The text of a Java string on the wire is read as it was sent. -/
theorem javaText?_said (s : Java.JString) : javaText? s = some (utf16.chars (nats (Java.asSent s))) := by
  have sent : javaText? s = some (Java.sent s) := by
    have decoded : Utf8.decode? (Java.getBytes s) = some (String.ofList (Java.sent s)) := by
      rw [Java.getBytes_sent, Utf8.decode?_eq_some_iff, Utf8.bytes_ofList]
    rw [javaText?, decoded, Option.map_some, String.toList_ofList]
  refine sent.trans (congrArg some ?_)
  change Java.sent s = utf16.chars ((Utf16.encode (Java.sent s)).map UInt16.toNat)
  rw [Reading.utf16_toNat, Utf16.characters_encode]

theorem java_cell_said (v : Json) (t : Tree) (c : WireCell) (same : Numeric v ∧ t = treeOf v.asSent)
    (denotes : javaCell? nearest v = some c) : utf16.cell? nearest t = some c := by
  obtain ⟨numeric, rfl⟩ := same
  cases v with
  | null => exact denotes
  | bool b => cases denotes
  | num raw =>
      cases numeric with
      | @num cs number =>
          rw [javaCell?, javaText?_encode] at denotes
          rw [← denotes]
          exact congrArg (tokenCell? nearest) (Reading.utf16_chars cs)
  | str s =>
      rw [javaCell?, javaText?_said] at denotes
      exact denotes
  | arr items =>
      rcases items with _ | ⟨v, _ | ⟨w, rest⟩⟩
      · cases denotes
      · cases v with
        | str s =>
            rw [javaCell?, javaText?_said] at denotes
            exact denotes
        | _ => cases denotes
      · cases v <;> cases denotes
  | obj members => cases denotes

theorem java_member_said (m : Java.JString × Json) (n : List Nat × Tree) (w : WireMember)
    (same : Numeric m.2 ∧ n = (nats (Java.asSent m.1), treeOf m.2.asSent))
    (denotes : javaMember? nearest m.2 = some w) :
    utf16.key n.1 = javaKey m.1 ∧ utf16.member? nearest n.2 = some w := by
  obtain ⟨k, v⟩ := m
  obtain ⟨numeric, rfl⟩ := same
  refine ⟨?_, ?_⟩
  · rw [javaKey, javaText?_said]
    rfl
  · cases v with
    | null => cases denotes
    | bool b => exact denotes
    | num raw => cases denotes
    | str s =>
        rw [javaMember?, javaText?_said] at denotes
        exact denotes
    | arr items =>
        obtain ⟨cells, mapped, same⟩ := Option.map_eq_some_iff.mp denotes
        cases numeric with
        | arr each =>
            rw [← same]
            exact congrArg (Option.map WireMember.cells)
              (Reading.mapM_related java_cell_said (treesOf_related each) mapped)
    | obj members => cases denotes

theorem java_said {members : List (Java.JString × Json)} {object : WireObject}
    (numeric : ∀ m ∈ members, Numeric m.2) (denotes : Denotes javaKey (javaMember? nearest) members object) :
    utf16.said nearest (Java.Codec.build members) = .object object := by
  obtain ⟨cs, n, line, writes⟩ := Java.Codec.build_denotes numeric
  rw [line]
  exact Reading.said_of_writes (JsonReader.standard_of_plain rfl) writes
    (Reading.denotes_related java_member_said (membersOf_related numeric) denotes)

end Java

/-! ## What is sent for an operation -/

section Sent

variable (nearest)

def rustSent (std : Rust.FloatText) (op : Operation) : Sent :=
  match (rustRequest op).fields std with
  | .ok fields => utf16.said nearest (Rust.Codec.encodeRequestLine fields)
  | .error _ => .refused

def typeScriptSent (std : TypeScript.NumberText) (op : Operation) : Sent :=
  match (typeScriptRequest op).line std with
  | .ok line => utf16.said nearest line
  | .error _ => .refused

def goSent (std : Go.Strconv) (op : Operation) : Sent :=
  match (goCall op).request std with
  | .ok request => codePoints.said nearest request.line
  | .error _ => .refused

def javaSent (jdk : Java.Codec.Jdk) (op : Operation) : Sent :=
  match (javaRequest op).line jdk with
  | .ok line => utf16.said nearest line
  | .error _ => .refused

end Sent

section Agreement

variable {op : Operation}

theorem Prints.rustTokens (prints : Prints nearest debug numbers strconv jdk) : Rust.Codec.Tokens debug := by
  intro f finite
  rw [rust_realToken]
  exact (prints.rust f finite).token.1

theorem Prints.typeScriptTokens (prints : Prints nearest debug numbers strconv jdk) : numbers.Tokens := by
  intro v finite
  by_cases minus : v = .minusZero
  · rw [TypeScript.realToken, if_pos minus]
    exact .mk .minus .zero (.point (by decide) (List.forall_mem_singleton.mpr rfl)) .absent
  · rw [TypeScript.realToken, if_neg minus]
    exact (prints.typeScript v finite minus).token.1

theorem Prints.goTokens (prints : Prints nearest debug numbers strconv jdk) : strconv.Tokens := by
  intro f finite
  rw [Go.formatReal]
  exact (prints.go f finite).token.1

theorem rust_sent (prints : Prints nearest debug numbers strconv jdk) (finite : op.Finite) :
    rustSent nearest debug op = .object (op.object .rust) := by
  obtain ⟨fields, built, denotes⟩ := rust_denotes prints finite
  rw [rustSent, built]
  exact rust_said (Rust.fields_numerals prints.rustTokens built) denotes

theorem typeScript_sent (prints : Prints nearest debug numbers strconv jdk) (finite : op.Finite) :
    typeScriptSent nearest numbers op = .object (op.object .typeScript) := by
  obtain ⟨record, built, denotes⟩ := typeScript_denotes prints finite
  rw [typeScriptSent, TypeScript.Request.line, built]
  exact typeScript_said (TypeScript.record_carried prints.typeScriptTokens built).1 denotes

theorem go_sent (prints : Prints nearest debug numbers strconv jdk) (finite : op.Finite) :
    goSent nearest strconv op = .object (op.object .go) := by
  obtain ⟨request, built, denotes⟩ := go_denotes prints finite
  rw [goSent, built]
  exact go_said prints.goTokens built denotes

theorem java_sent (prints : Prints nearest debug numbers strconv jdk) (finite : op.Finite) :
    javaSent nearest jdk op = .object (op.object .java) := by
  obtain ⟨members, built, denotes⟩ := java_denotes prints finite
  rw [javaSent, Java.Codec.Request.line, built]
  exact java_said (Java.Codec.members_carry (.of_prints prints) built).numeric denotes

theorem rust_unsent (infinite : ¬ op.Finite) : rustSent nearest debug op = .refused := by
  obtain ⟨e, refused⟩ := @rust_refused debug op infinite
  rw [rustSent, refused]

theorem typeScript_unsent (infinite : ¬ op.Finite) : typeScriptSent nearest numbers op = .refused := by
  obtain ⟨e, refused⟩ := @typeScript_refused numbers op infinite
  rw [typeScriptSent, TypeScript.Request.line, refused]
  rfl

theorem go_unsent (infinite : ¬ op.Finite) : goSent nearest strconv op = .refused := by
  obtain ⟨e, refused⟩ := @go_refused strconv op infinite
  rw [goSent, refused]

theorem java_unsent (infinite : ¬ op.Finite) : javaSent nearest jdk op = .refused := by
  obtain ⟨e, refused⟩ := @java_refused jdk op infinite
  rw [javaSent, Java.Codec.Request.line, refused]
  rfl

end Agreement

/-- The line of each driver says the object of its rules, and the four are the same members
exactly where nothing that is given is blank; else only blank members tell them apart.  A REAL
that is not finite is refused by all. -/
theorem requests_agree {debug : Rust.FloatText} {numbers : TypeScript.NumberText}
    {strconv : Go.Strconv} {jdk : Java.Codec.Jdk}
    (prints : Prints nearest debug numbers strconv jdk) (op : Operation) :
    (op.Finite →
      (rustSent nearest debug op = .object (op.object .rust) ∧
        typeScriptSent nearest numbers op = .object (op.object .typeScript) ∧
        goSent nearest strconv op = .object (op.object .go) ∧
        javaSent nearest jdk op = .object (op.object .java)) ∧
      (SameMembers (op.object .rust) (op.object .typeScript) ∧
        SameMembers (op.object .rust) (op.object .go) ∧
        SameMembers (op.object .rust) (op.object .java) ↔ op.Plain) ∧
      ∀ r r' : Rules, filled (op.object r) = filled (op.object r')) ∧
    (¬ op.Finite →
      rustSent nearest debug op = .refused ∧ typeScriptSent nearest numbers op = .refused ∧
        goSent nearest strconv op = .refused ∧ javaSent nearest jdk op = .refused) :=
  ⟨fun finite => ⟨⟨rust_sent prints finite, typeScript_sent prints finite, go_sent prints finite,
      java_sent prints finite⟩, objects_agree_iff op, fun r r' => filled_object r r' op⟩,
    fun infinite => ⟨rust_unsent infinite, typeScript_unsent infinite, go_unsent infinite,
      java_unsent infinite⟩⟩

/-- An operation with a parameter of every kind. -/
def sampleQuery : Operation :=
  .query "SELECT ?" [.null, .integer (-7), .real 0x3FF8000000000000, .text "", .blob [1, 2]]

theorem requests_agree_sample :
    (SameMembers (sampleQuery.object .rust) (sampleQuery.object .java) ∧
      goSent sampleNearest sampleGo sampleQuery = .object (sampleQuery.object .go)) ∧
    goSent sampleNearest sampleGo (.exec "" [.real 0x7FF0000000000000]) = .refused := by
  have finite : sampleQuery.Finite := by
    change ∀ p ∈ _, Param.Finite p
    simp [Param.Finite]
  have infinite : ¬ (Operation.exec "" [.real 0x7FF0000000000000]).Finite :=
    fun held => held _ List.mem_cons_self (by decide)
  obtain ⟨sent, agree, _⟩ := (requests_agree sample_prints sampleQuery).1 finite
  have refused := (requests_agree sample_prints (.exec "" [.real 0x7FF0000000000000])).2 infinite
  have plain : sampleQuery.Plain := by
    change "SELECT ?" ≠ ""
    decide
  exact ⟨⟨(agree.mpr plain).2.2, sent.2.2.1⟩, refused.2.2.1⟩

/-- The empty statement is sent by Rust and not by Go, a flag given as false by Java and
not by Rust. -/
theorem requests_differ :
    (∃ r g, rustSent sampleNearest sampleDebug (.query "" []) = .object r ∧
      goSent sampleNearest sampleGo (.query "" []) = .object g ∧ ¬ SameMembers r g) ∧
    ∃ r j, rustSent sampleNearest sampleDebug (.snapshot none (some false) none) = .object r ∧
      javaSent sampleNearest sampleJdk (.snapshot none (some false) none) = .object j ∧
      ¬ SameMembers r j := by
  have noParams : (Operation.query "" []).Finite := fun _ inside => absurd inside List.not_mem_nil
  have noReal : (Operation.snapshot none (some false) none).Finite := trivial
  refine ⟨⟨_, _, rust_sent sample_prints noParams, go_sent sample_prints noParams, fun same => ?_⟩,
    _, _, rust_sent sample_prints noReal, java_sent sample_prints noReal, fun same => ?_⟩
  · exact absurd ((same ("sql", .text [])).mp (by decide)) (by decide)
  · exact absurd ((same ("sqlite", .flag false)).mpr (by decide)) (by decide)

end SanDbOxFormal.Protocol
