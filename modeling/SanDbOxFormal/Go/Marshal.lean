import SanDbOxFormal.Go.Request
import SanDbOxFormal.Go.Scanner
import SanDbOxFormal.Library.JsonCompact

/-!
# Request lines of the Go driver

What `WriteRequest` puts on the wire: `json.Marshal` of the request and a newline.  The
texts that `EncodeParams` makes are JSON without spaces, and stand there as they are.
-/

namespace SanDbOxFormal.Go

open SanDbOxFormal.Library
open SanDbOxFormal.Library.JsonReader (Tree Pieces Spelled points strictPoints memberText MemberSpelled)
open SanDbOxFormal.Library.Segments (frame complete remainder complete_frame remainder_frame)
open SanDbOxFormal.Rust.Codec.Json (Visible number_visible)

namespace Request

def Member.marshal : Member → List Char
  | .string s => marshalString s
  | .bool b => (if b then "true" else "false").toList
  | .raws items => '[' :: ([','].intercalate items ++ [']'])

def marshalMember (m : String × Member) : List Char := '"' :: (m.1.toList ++ '"' :: ':' :: m.2.marshal)

def marshal (req : Request) : List Char :=
  '{' :: ([','].intercalate (req.members.map marshalMember) ++ ['}'])

/-- The bytes of the one write. -/
def line (req : Request) : List UInt8 := Utf8.encode req.marshal ++ [newline]

/-- What a member says to a reader. -/
inductive Member.Says : Member → Tree → Prop where
  | string (s : GoString) : Says (.string s) (.string (codePoints s))
  | bool (b : Bool) : Says (.bool b) (.bool b)
  | raws {items : List (List Char)} {ts : List Tree}
      (each : List.Forall₂ (fun raw t => parse (Utf8.encode raw) = .ok t) items ts) :
      Says (.raws items) (.array ts)

/-- A member of a request and the member of the object that it becomes. -/
def SaysMember (m : String × Member) (member : List Nat × Tree) : Prop :=
  member.1 = points m.1.toList ∧ m.2.Says member.2

end Request

/-! ## The texts -/

theorem points_intercalate (texts : List (List Char)) :
    points ([','].intercalate texts) = [0x2C].intercalate (texts.map points) := by
  induction texts with
  | nil => rfl
  | cons first rest ih =>
      cases rest with
      | nil => simp
      | cons next more =>
          rw [List.map_cons] at ih ⊢
          rw [List.map_cons, List.intercalate_cons_cons, List.intercalate_cons_cons, ← ih]
          simp

/-- What is written for a parameter spells a value, at any depth that allows an array. -/
theorem encodeValue_spelled {std : Strconv} (tokens : std.Tokens) {v : Any} {raw : List Char}
    (encoded : encodeValue std v = .ok raw) :
    ∃ t, ∀ n, Spelled strictPoints (n + 1) (.value t) (points raw) := by
  cases v with
  | nil =>
      cases encoded
      exact ⟨.null, fun _ => .null⟩
  | int i =>
      cases encoded
      exact ⟨_, fun _ => .number (Decimal.toString_number i.toInt) rfl⟩
  | int64 i =>
      cases encoded
      exact ⟨_, fun _ => .number (Decimal.toString_number i.toInt) rfl⟩
  | float64 f =>
      rw [encodeValue] at encoded
      split at encoded
      · cases encoded
      · rename_i special
        cases encoded
        exact ⟨_, fun _ => .number (tokens f ((isFinite_iff f).mpr special)) rfl⟩
  | string s =>
      cases encoded
      exact ⟨_, fun n => marshalString_spelled s (n + 1)⟩
  | bytes b =>
      cases encoded
      refine ⟨.array [.string (codePoints (encodeToString (b.getD [])))], fun n => ?_⟩
      have one := Spelled.compactArray (d := strictPoints) (n := n)
        (.cons (marshalString_spelled (encodeToString (b.getD [])) n) .nil)
      rw [List.intercalate_singleton] at one
      simpa using one
  | other typeName => cases encoded

theorem marshalRune_visible (r : Option Char) : Visible (marshalRune r) := by
  have digit (k : Nat) : 0x20 ≤ (hexDigit (k % 0x10)).toNat := by
    have small : k % 0x10 < 0x10 := Nat.mod_lt _ (by decide)
    revert small
    generalize k % 0x10 = m
    revert m
    decide
  have escape (n : Nat) : Visible (unicodeEscape n) :=
    .cons (by decide) (.cons (by decide) (.cons (digit _) (.cons (digit _) (.cons (digit _)
      (.cons (digit _) .nil)))))
  have short {c : Char} (visible : 0x20 ≤ c.toNat) : Visible ['\\', c] :=
    .cons (by decide) (.cons visible .nil)
  cases r with
  | none => exact escape _
  | some c =>
      unfold marshalRune
      dsimp only
      split_ifs with quote b f n r t escaped
      · rcases quote with rfl | rfl <;> exact short (by decide)
      · exact short (by decide)
      · exact short (by decide)
      · exact short (by decide)
      · exact short (by decide)
      · exact short (by decide)
      · exact escape _
      · rw [not_or] at escaped
        exact .cons (Nat.le_of_not_lt escaped.1) .nil

theorem marshalString_visible (s : GoString) : Visible (marshalString s) := by
  refine .cons (by decide) (.append (fun c inside => ?_) (.cons (by decide) .nil))
  obtain ⟨r, _, written⟩ := List.mem_flatMap.mp inside
  exact marshalRune_visible r c written

theorem encodeValue_visible {std : Strconv} (tokens : std.Tokens) {v : Any} {raw : List Char}
    (encoded : encodeValue std v = .ok raw) : Visible raw := by
  cases v with
  | nil =>
      cases encoded
      exact .of_all (by decide)
  | int i =>
      cases encoded
      exact number_visible (Decimal.toString_number i.toInt)
  | int64 i =>
      cases encoded
      exact number_visible (Decimal.toString_number i.toInt)
  | float64 f =>
      rw [encodeValue] at encoded
      split at encoded
      · cases encoded
      · rename_i special
        cases encoded
        exact number_visible (tokens f ((isFinite_iff f).mpr special))
  | string s =>
      cases encoded
      exact marshalString_visible s
  | bytes b =>
      cases encoded
      exact .cons (by decide) ((marshalString_visible _).append (.cons (by decide) .nil))
  | other typeName => cases encoded

theorem encodeItems_each {std : Strconv} {P : List Char → Prop}
    (each : ∀ v raw, encodeValue std v = .ok raw → P raw) {i : Nat} {params : List Any}
    {items : List (List Char)} (encoded : encodeItems std i params = .ok items) :
    ∀ raw ∈ items, P raw := by
  induction params generalizing i items with
  | nil =>
      cases encoded
      exact fun raw inside => absurd inside List.not_mem_nil
  | cons v rest ih =>
      obtain ⟨raw, first, encoded⟩ := bind_ok_iff.mp encoded
      obtain ⟨out, more, encoded⟩ := bind_ok_iff.mp encoded
      cases encoded
      exact List.forall_mem_cons.mpr ⟨each v raw (mapError_ok_iff.mp first), ih more⟩

/-- The texts of the parameters of a request that a call makes. -/
theorem request_raws {std : Strconv} {P : List Char → Prop}
    (each : ∀ v raw, encodeValue std v = .ok raw → P raw) {call : Call} {req : Request}
    (built : call.request std = .ok req) : ∀ raw ∈ req.params, P raw := by
  have sql {op : String} {text : GoString} {params : List Any}
      (built : sqlRequest std op text params = .ok req) : ∀ raw ∈ req.params, P raw := by
    obtain ⟨items, encoded, made⟩ := bind_ok_iff.mp built
    cases made
    exact encodeItems_each each (mapError_ok_iff.mp encoded)
  have none (empty : req.params = []) : ∀ raw ∈ req.params, P raw := by
    rw [empty]
    exact fun raw inside => absurd inside List.not_mem_nil
  cases call with
  | query text params => exact sql built
  | exec text params => exact sql built
  | _ =>
      cases built
      exact none rfl

/-! ## Requests -/

namespace Request

variable {req : Request}

theorem visible_intercalate {texts : List (List Char)} (each : ∀ text ∈ texts, Visible text) :
    Visible ([','].intercalate texts) := by
  induction texts with
  | nil => exact .nil
  | cons first rest ih =>
      obtain ⟨head, tail⟩ := List.forall_mem_cons.mp each
      cases rest with
      | nil => rwa [List.intercalate_singleton]
      | cons next more =>
          rw [List.intercalate_cons_cons]
          exact (head.append (.cons (by decide) .nil)).append (ih tail)

/-- The keys of the structure. -/
def keys : List String :=
  ["op", "sql", "params", "filename", "sqlite", "timestamp", "path", "table", "pattern"]

/-- A character that stands for itself in a string. -/
def plainChar (c : Char) : Bool := c ≠ '"' && c ≠ '\\' && 0x20 ≤ c.toNat

theorem plain_pieces {cs : List Char} (plain : cs.all plainChar = true) :
    Pieces strictPoints (points cs) (points cs) := by
  induction cs with
  | nil => exact .nil
  | cons c rest ih =>
      rw [List.all_cons, Bool.and_eq_true, plainChar, Bool.and_eq_true, Bool.and_eq_true] at plain
      obtain ⟨⟨⟨quote, escape⟩, visible⟩, others⟩ := plain
      refine .cons (.plain ?_ ?_ (of_decide_eq_true visible)) (ih others)
      · exact fun same => of_decide_eq_true quote (Char.toNat_inj.mp same)
      · exact fun same => of_decide_eq_true escape (Char.toNat_inj.mp same)

theorem keys_plain : ∀ key ∈ keys, key.toList.all plainChar = true := by decide

theorem key_pieces {key : String} (inside : key ∈ keys) :
    Pieces strictPoints (points key.toList) (points key.toList) :=
  plain_pieces (keys_plain key inside)

theorem key_visible {key : String} (inside : key ∈ keys) : Visible key.toList := by
  refine .of_all (List.all_eq_true.mpr fun c member => ?_)
  have plain := List.all_eq_true.mp (keys_plain key inside) c member
  rw [plainChar, Bool.and_eq_true] at plain
  exact plain.2

/-- The members, and where the texts of an array come from. -/
theorem members_cases {m : String × Member} (inside : m ∈ req.members) :
    m.1 ∈ keys ∧ ((∃ s, m.2 = .string s) ∨ (∃ b, m.2 = .bool b) ∨ m.2 = .raws req.params) := by
  have string {name : String} {s : GoString} (key : name ∈ keys) (inside : m ∈ stringMember name s) :
      m.1 ∈ keys ∧ ((∃ s, m.2 = .string s) ∨ (∃ b, m.2 = .bool b) ∨ m.2 = .raws req.params) := by
    rw [stringMember] at inside
    split at inside
    · exact absurd inside List.not_mem_nil
    · cases List.mem_singleton.mp inside
      exact ⟨key, .inl ⟨s, rfl⟩⟩
  have flag {name : String} {b : Bool} (key : name ∈ keys) (inside : m ∈ boolMember name b) :
      m.1 ∈ keys ∧ ((∃ s, m.2 = .string s) ∨ (∃ b, m.2 = .bool b) ∨ m.2 = .raws req.params) := by
    rw [boolMember] at inside
    split at inside
    · cases List.mem_singleton.mp inside
      exact ⟨key, .inr (.inl ⟨b, rfl⟩)⟩
    · exact absurd inside List.not_mem_nil
  simp only [members, List.mem_append] at inside
  rcases inside with (((((((op | sql) | params) | filename) | sqlite) | timestamp) | path) | table) | pattern
  · have key : "op" ∈ keys := by decide
    cases List.mem_singleton.mp op
    exact ⟨key, .inl ⟨req.op, rfl⟩⟩
  · exact string (by decide) sql
  · rw [rawsMember] at params
    split at params
    · exact absurd params List.not_mem_nil
    · have key : "params" ∈ keys := by decide
      cases List.mem_singleton.mp params
      exact ⟨key, .inr (.inr rfl)⟩
  · exact string (by decide) filename
  · exact flag (by decide) sqlite
  · exact flag (by decide) timestamp
  · exact string (by decide) path
  · exact string (by decide) table
  · exact string (by decide) pattern

theorem marshal_visible (raws : ∀ raw ∈ req.params, Visible raw) : Visible req.marshal := by
  refine .cons (by decide) (.append (visible_intercalate fun text written => ?_) (.cons (by decide) .nil))
  obtain ⟨m, inside, rfl⟩ := List.mem_map.mp written
  obtain ⟨key, kind⟩ := members_cases inside
  refine .cons (by decide) ((key_visible key).append (.cons (by decide) (.cons (by decide) ?_)))
  rcases kind with ⟨s, is⟩ | ⟨b, is⟩ | is
  · rw [is]
    exact marshalString_visible s
  · rw [is]
    cases b <;> exact .of_all (by decide)
  · rw [is]
    exact .cons (by decide) ((visible_intercalate raws).append (.cons (by decide) .nil))

/-- The two levels of arrays that a request has, and the object around them. -/
theorem member_spelled (raws : ∀ raw ∈ req.params, ∃ t, ∀ n, Spelled strictPoints (n + 1) (.value t) (points raw))
    {m : String × Member} (inside : m ∈ req.members) :
    ∃ member, SaysMember m member ∧
      MemberSpelled strictPoints (9999) (points (marshalMember m)) member := by
  obtain ⟨key, kind⟩ := members_cases inside
  have spelled {t : Tree} (value : Spelled strictPoints (9999) (.value t) (points m.2.marshal)) :
      MemberSpelled strictPoints (9999) (points (marshalMember m)) (points m.1.toList, t) := by
    refine ⟨_, _, ?_, key_pieces key, value⟩
    simp [marshalMember, memberText]
  rcases kind with ⟨s, is⟩ | ⟨b, is⟩ | is
  · refine ⟨(points m.1.toList, .string (codePoints s)), ⟨rfl, is ▸ .string s⟩, spelled ?_⟩
    rw [is]
    exact marshalString_spelled s _
  · refine ⟨(points m.1.toList, .bool b), ⟨rfl, is ▸ .bool b⟩, spelled ?_⟩
    rw [is]
    cases b with
    | true => exact .true
    | false => exact .false
  · obtain ⟨ts, each⟩ : ∃ ts, List.Forall₂
        (fun raw t => ∀ n, Spelled strictPoints (n + 1) (.value t) (points raw)) req.params ts := by
      generalize req.params = items at raws
      induction items with
      | nil => exact ⟨[], .nil⟩
      | cons raw rest ih =>
          obtain ⟨t, first⟩ := raws raw List.mem_cons_self
          obtain ⟨ts, more⟩ := ih fun raw inside => raws raw (List.mem_cons_of_mem _ inside)
          exact ⟨t :: ts, .cons first more⟩
    have told : Member.Says (.raws req.params) (.array ts) :=
      .raws (each.imp fun raw t spelled => parse_spelled (spelled 9999))
    refine ⟨(points m.1.toList, .array ts), ⟨rfl, is ▸ told⟩, spelled ?_⟩
    rw [is]
    have values : List.Forall₂ (fun text t => Spelled strictPoints 9998 (.value t) text)
        (req.params.map points) ts :=
      List.forall₂_map_left_iff.mpr (each.imp fun raw t spelled => spelled 9997)
    have whole := Spelled.compactArray values
    rw [← points_intercalate] at whole
    simpa [Member.marshal] using whole

/-- What goes over the wire for a request spells the object of its members. -/
theorem marshal_spelled (raws : ∀ raw ∈ req.params, ∃ t, ∀ n, Spelled strictPoints (n + 1) (.value t) (points raw)) :
    ∃ ms, Spelled strictPoints maxNestingDepth (.value (.object ms)) (points req.marshal) ∧
      List.Forall₂ SaysMember req.members ms := by
  obtain ⟨ms, each⟩ : ∃ ms, List.Forall₂ (fun m member => SaysMember m member ∧
      MemberSpelled strictPoints (9999) (points (marshalMember m)) member) req.members ms := by
    have found := fun m (inside : m ∈ req.members) => member_spelled raws inside
    generalize req.members = members at found
    induction members with
    | nil => exact ⟨[], .nil⟩
    | cons m rest ih =>
        obtain ⟨member, first⟩ := found m List.mem_cons_self
        obtain ⟨ms, more⟩ := ih fun m inside => found m (List.mem_cons_of_mem _ inside)
        exact ⟨member :: ms, .cons first more⟩
  refine ⟨ms, ?_, each.imp fun _ _ both => both.1⟩
  have texts : List.Forall₂ (MemberSpelled strictPoints (9999))
      ((req.members.map marshalMember).map points) ms := by
    rw [List.forall₂_map_left_iff, List.forall₂_map_left_iff]
    exact each.imp fun _ _ both => both.2
  have some : (req.members.map marshalMember).map points ≠ [] := by
    simp [members]
  have whole : Spelled strictPoints maxNestingDepth (.value (.object ms)) _ := .compactObject texts some
  rw [← points_intercalate] at whole
  simpa [marshal] using whole

theorem marshal_reads (raws : ∀ raw ∈ req.params, ∃ t, ∀ n, Spelled strictPoints (n + 1) (.value t) (points raw)) :
    ∃ ms, parse (Utf8.encode req.marshal) = .ok (.object ms) ∧ List.Forall₂ SaysMember req.members ms := by
  obtain ⟨ms, spelled, each⟩ := marshal_spelled raws
  exact ⟨ms, parse_spelled spelled, each⟩

/-- The line without its newline. -/
def content (req : Request) : List UInt8 := Utf8.encode req.marshal

theorem newline_not_mem_content (raws : ∀ raw ∈ req.params, Visible raw) : newline ∉ req.content := by
  intro inside
  have raw : '\n' ∈ req.marshal := (Utf8.mem_encode_ascii (c := '\n') (by decide) _).mp inside
  exact absurd (marshal_visible raws '\n' raw) (by decide)

theorem lines_frame (requests : List Request) :
    requests.flatMap line = frame newline (requests.map content) := by
  rw [frame, List.flatMap_map]
  rfl

end Request

open Request

/-- The request of a call is one line, which is read as the object of its members. -/
theorem Call.request_reads {std : Strconv} (tokens : std.Tokens) {call : Call} {req : Request}
    (built : call.request std = .ok req) : newline ∉ req.content ∧
      ∃ ms, parse req.content = .ok (.object ms) ∧ List.Forall₂ SaysMember req.members ms :=
  ⟨newline_not_mem_content (request_raws (fun _ _ => encodeValue_visible tokens) built),
    marshal_reads (request_raws (fun _ _ => encodeValue_spelled tokens) built)⟩

/-- What any calls put on the wire, one after the other, falls into as many lines, and each
is read as the object of its own request. -/
theorem request_lines_read (std : Strconv) (laws : std.Lawful) (calls : List Call)
    (requests : List Request) (built : calls.mapM (Call.request std) = .ok requests) :
    remainder newline (requests.flatMap Request.line) = [] ∧
      List.Forall₂ (fun line req => ∃ ms, parse line = .ok (.object ms) ∧
        List.Forall₂ SaysMember req.members ms) (complete newline (requests.flatMap Request.line)) requests := by
  have each : ∀ req ∈ requests, newline ∉ req.content ∧ ∃ ms, parse req.content = .ok (.object ms) ∧
      List.Forall₂ SaysMember req.members ms := by
    induction calls generalizing requests with
    | nil =>
        cases built
        exact fun req inside => absurd inside List.not_mem_nil
    | cons call rest ih =>
        rw [List.mapM_cons] at built
        obtain ⟨req, first, built⟩ := bind_ok_iff.mp built
        obtain ⟨more, later, built⟩ := bind_ok_iff.mp built
        cases built
        exact List.forall_mem_cons.mpr ⟨call.request_reads laws.tokens first, ih more later⟩
  have clean : ∀ c ∈ requests.map content, newline ∉ c := by
    intro c inside
    obtain ⟨req, member, rfl⟩ := List.mem_map.mp inside
    exact (each req member).1
  rw [lines_frame, remainder_frame clean, complete_frame clean, List.forall₂_map_left_iff]
  refine ⟨rfl, ?_⟩
  rw [List.forall₂_same]
  exact fun req inside => (each req inside).2

/-- A query with a newline in its text and a byte that is no UTF-8 in its parameter. -/
theorem request_lines_read_sample :
    let requests := [{ Request.ofOp "query" with sql := lit "SELECT ?\n;", params := [marshalString [0xFF]] },
      Request.ofOp "close"]
    remainder newline (requests.flatMap Request.line) = [] ∧
      List.Forall₂ (fun line req => ∃ ms, parse line = .ok (.object ms) ∧
        List.Forall₂ SaysMember req.members ms) (complete newline (requests.flatMap Request.line)) requests :=
  request_lines_read sampleStrconv sampleStrconv_lawful
    [.query (lit "SELECT ?\n;") [.string [0xFF]], .close] _ rfl

end SanDbOxFormal.Go
