import SanDbOxFormal.Protocol.Requests

/-!
# The requests of four drivers agree

Each driver makes the object of its own rules, or refuses a REAL that is not finite as
the others do.  So the objects are the same but for the empty texts and the false flags.
-/

namespace SanDbOxFormal.Protocol

open SanDbOxFormal.Library
open SanDbOxFormal.Library.JsonReader (points)
open SanDbOxFormal.Library.Rfc8259 (Number)

variable {nearest : List Char → UInt64}

/-! ## Loops over parameters and lists of members -/

section Loops

variable {ε α κ π : Type}

/-- A loop over parameters, which stops at the first that cannot be encoded. -/
structure Loop (items : Nat → List π → Except ε (List α)) (one : π → Except ε α)
    (wrap : Nat → ε → ε) : Prop where
  nil : ∀ i, items i [] = .ok []
  cons : ∀ i v rest, items i (v :: rest) = do
    let item ← (one v).mapError (wrap i)
    let more ← items (i + 1) rest
    .ok (item :: more)

variable {items : Nat → List π → Except ε (List α)} {one : π → Except ε α} {wrap : Nat → ε → ε}

theorem Loop.sends (loop : Loop items one wrap) {cell? : α → Option WireCell} {of : Param → π}
    {params : List Param}
    (each : ∀ p ∈ params, ∃ item, one (of p) = .ok item ∧ cell? item = some p.cell) (i : Nat) :
    ∃ encoded, items i (params.map of) = .ok encoded ∧
      encoded.mapM cell? = some (params.map Param.cell) ∧ encoded.length = params.length := by
  induction params generalizing i with
  | nil => exact ⟨[], loop.nil i, rfl, rfl⟩
  | cons p rest ih =>
      obtain ⟨first, others⟩ := List.forall_mem_cons.mp each
      obtain ⟨item, encoded, cell⟩ := first
      obtain ⟨more, encodedRest, cells, length⟩ := ih others (i + 1)
      refine ⟨item :: more, ?_, ?_, congrArg Nat.succ length⟩
      · rw [List.map_cons, loop.cons, encoded, encodedRest]
        rfl
      · rw [List.mapM_cons, cell, cells]
        rfl

theorem Loop.stops (loop : Loop items one wrap) {of : Param → π} {params : List Param} {p : Param}
    (inside : p ∈ params) (refused : ∃ e, one (of p) = .error e) (i : Nat) :
    ∃ e, items i (params.map of) = .error e := by
  induction params generalizing i with
  | nil => cases inside
  | cons q rest ih =>
      rw [List.map_cons, loop.cons]
      cases encoded : one (of q) with
      | error e => exact ⟨_, rfl⟩
      | ok item =>
          rcases List.mem_cons.mp inside with rfl | later
          · obtain ⟨e, stopped⟩ := refused
            rw [encoded] at stopped
            cases stopped
          · obtain ⟨e, stopped⟩ := ih later (i + 1)
            refine ⟨e, ?_⟩
            change (items (i + 1) (rest.map of) >>= fun more => Except.ok (item :: more)) = _
            rw [stopped]
            rfl

/-- Members, one by one, denote those of an object. -/
def Denotes (key : κ → String) (member? : α → Option WireMember) : List (κ × α) → WireObject → Prop :=
  List.Forall₂ fun m o => key m.1 = o.1 ∧ member? m.2 = some o.2

variable {key : κ → String} {member? : α → Option WireMember}

theorem Denotes.nil : Denotes key member? [] [] := List.Forall₂.nil

theorem Denotes.single {k : κ} {v : α} {name : String} {w : WireMember} (named : key k = name)
    (value : member? v = some w) : Denotes key member? [(k, v)] [(name, w)] :=
  List.Forall₂.cons ⟨named, value⟩ List.Forall₂.nil

theorem Denotes.append {ms ns : List (κ × α)} {os ps : WireObject} (first : Denotes key member? ms os)
    (second : Denotes key member? ns ps) : Denotes key member? (ms ++ ns) (os ++ ps) :=
  List.rel_append first second

end Loops

/-! ## Tokens and bytes -/

theorem tokenCell?_toString (n : Int) : tokenCell? nearest (toString n).toList = some (.integer n) := by
  rw [tokenCell?, if_neg (Bool.eq_false_iff.mp (Decimal.toString_not_real n)),
    Decimal.parseInt?_toString]
  rfl

/-- What a driver makes of a shown double is a number token that rounds to it. -/
theorem Shows.token {cs : List Char} {bits : UInt64} (shows : Shows nearest cs bits) :
    Number (if cs.any Decimal.isRealMark then cs else cs ++ ['.', '0']) ∧
      tokenCell? nearest (if cs.any Decimal.isRealMark then cs else cs ++ ['.', '0']) =
        some (.real bits) := by
  obtain ⟨number, marked, unmarked⟩ := shows
  split
  · rename_i mark
    rw [tokenCell?, if_pos mark, marked mark]
    exact ⟨number, rfl⟩
  · rename_i plain
    rw [Bool.not_eq_true] at plain
    have mark : (cs ++ ['.', '0']).any Decimal.isRealMark = true := by
      rw [List.any_append]
      exact Bool.or_true _
    rw [tokenCell?, if_pos mark, unmarked plain]
    exact ⟨Decimal.number_suffix number plain, rfl⟩

theorem base64_chars (b : List UInt8) :
    points ((Base64.encode b).map Char.ofNat) = Base64.encode b := by
  rw [JsonReader.points, List.map_map]
  refine (List.map_congr_left fun u inside => ?_).trans (List.map_id _)
  have plain := Base64.isUnit_plain (Base64.encode_units b u inside)
  exact (Char.toNat_ofNat u).trans (if_pos (.inl (by omega)))

theorem blobCell?_chars (b : List UInt8) :
    blobCell? ((Base64.encode b).map Char.ofNat) = some (.blob b) := by
  rw [blobCell?, base64_chars, Base64.decode?_encode]
  rfl

/-! ## Rust -/

theorem rust_finite_iff (bits : UInt64) :
    (Rust.F64.mk bits).isFinite = true ↔ (Param.real bits).Finite := by
  have quotient : (bits.toNat &&& 0x7FF0000000000000) / 2 ^ 52 = bits.toNat / 2 ^ 52 % 2 ^ 11 := by
    rw [Nat.and_div_two_pow]
    exact Nat.and_two_pow_sub_one_eq_mod _ 11
  have remainder : (bits.toNat &&& 0x7FF0000000000000) % 2 ^ 52 = 0 := by
    rw [Nat.and_mod_two_pow]
    exact Nat.and_zero _
  rw [Rust.F64.isFinite, bne_iff_ne, Param.Finite, not_iff_not, ← UInt64.toNat_inj,
    UInt64.toNat_and]
  change bits.toNat &&& 0x7FF0000000000000 = 0x7FF0000000000000 ↔ _
  omega

theorem rust_letter {n : Nat} (small : n < 64) :
    Rust.Codec.Base64.alphabet.getD n '=' = Char.ofNat (Base64.letter n) := by
  revert n
  decide

theorem rust_letter_at (n : Nat) :
    Rust.Codec.Base64.letter n = Char.ofNat (Base64.letter (n % 64)) := by
  rw [Rust.Codec.Base64.letter_eq, rust_letter (Nat.mod_lt _ (by decide))]

theorem rust_base64 (b : List UInt8) :
    Rust.Codec.Base64.encodeChunks b = (Base64.encode b).map Char.ofNat := by
  have sextet {m n : Nat} (same : m % 64 = n) :
      Char.ofNat (Base64.letter (m % 64)) = Char.ofNat (Base64.letter n) := by rw [same]
  induction b using Base64.encode.induct with
  | case1 => rfl
  | case2 x =>
      have := x.toNat_lt
      have chunk := Rust.Codec.Base64.chunk_eq (a := x.toNat) (b := 0) (c := 0) (by decide) (by decide)
      simp only [Rust.Codec.Base64.encodeChunks, Rust.Codec.Base64.encodeChunk, Option.getD_none,
        UInt8.toNat_zero, rust_letter_at, chunk, Nat.shiftRight_eq_div_pow, Base64.encode,
        List.map_cons, List.map_nil]
      rw [sextet (n := x.toNat / 4) (by omega), sextet (n := x.toNat % 4 * 16) (by omega)]
      rfl
  | case3 x y =>
      have := x.toNat_lt
      have bound := y.toNat_lt
      have chunk := Rust.Codec.Base64.chunk_eq (a := x.toNat) (c := 0) bound (by decide)
      simp only [Rust.Codec.Base64.encodeChunks, Rust.Codec.Base64.encodeChunk, Option.getD_some,
        Option.getD_none, UInt8.toNat_zero, rust_letter_at, chunk, Nat.shiftRight_eq_div_pow,
        Base64.encode, List.map_cons, List.map_nil]
      rw [sextet (n := x.toNat / 4) (by omega),
        sextet (n := x.toNat % 4 * 16 + y.toNat / 16) (by omega),
        sextet (n := y.toNat % 16 * 4) (by omega)]
      rfl
  | case4 x y z rest ih =>
      have := x.toNat_lt
      have second := y.toNat_lt
      have third := z.toNat_lt
      have chunk := Rust.Codec.Base64.chunk_eq (a := x.toNat) second third
      simp only [Rust.Codec.Base64.encodeChunks, Rust.Codec.Base64.encodeChunk, Option.getD_some,
        rust_letter_at, chunk, Nat.shiftRight_eq_div_pow, Base64.encode, List.cons_append,
        List.nil_append, List.map_cons, ih]
      rw [sextet (n := x.toNat / 4) (by omega),
        sextet (n := x.toNat % 4 * 16 + y.toNat / 16) (by omega),
        sextet (n := y.toNat % 16 * 4 + z.toNat / 64) (by omega),
        sextet (n := z.toNat % 64) (by omega)]

section Agreement

variable {debug : Rust.FloatText} {numbers : TypeScript.NumberText} {strconv : Go.Strconv}
  {jdk : Java.Codec.Jdk}

theorem rust_realToken (f : Rust.F64) : (Rust.Codec.realToken debug f).toList =
    if (debug.debug f).toList.any Decimal.isRealMark then (debug.debug f).toList
    else (debug.debug f).toList ++ ['.', '0'] := by
  unfold Rust.Codec.realToken
  dsimp only
  split
  · rfl
  · exact String.toList_append

theorem rust_cell (prints : Prints nearest debug numbers strconv jdk) {p : Param}
    (finite : p.Finite) : ∃ item, Rust.Codec.encodeValue debug (rustParam p) = .ok item ∧
      rustCell? nearest item = some p.cell := by
  cases p with
  | null => exact ⟨.null, rfl, rfl⟩
  | integer n =>
      refine ⟨_, rfl, ?_⟩
      exact tokenCell?_toString n.toInt
  | real bits =>
      have bounded := (rust_finite_iff bits).mpr finite
      refine ⟨_, if_neg (by rw [bounded]; exact Bool.false_ne_true), ?_⟩
      change tokenCell? nearest (Rust.Codec.realToken debug ⟨bits⟩).toList = _
      rw [rust_realToken]
      exact (prints.rust ⟨bits⟩ bounded).token.2
  | text s => exact ⟨_, rfl, rfl⟩
  | blob b =>
      refine ⟨_, rfl, ?_⟩
      change blobCell? (Rust.Codec.Base64.encode b).toList = _
      rw [Rust.Codec.Base64.encode, String.toList_ofList, rust_base64, blobCell?_chars]
      rfl

theorem rust_refuses {p : Param} (infinite : ¬ p.Finite) :
    ∃ e, Rust.Codec.encodeValue debug (rustParam p) = .error e := by
  cases p with
  | real bits =>
      have unbounded := mt (rust_finite_iff bits).mp infinite
      rw [Bool.not_eq_true] at unbounded
      exact ⟨_, if_pos (by rw [unbounded]; rfl)⟩
  | _ => exact absurd trivial infinite

theorem rust_loop : Loop (Rust.Codec.encodeItems debug) (Rust.Codec.encodeValue debug)
    Rust.Codec.atParam where
  nil _ := rfl
  cons _ _ _ := rfl

theorem rust_params (prints : Prints nearest debug numbers strconv jdk) {params : List Param}
    (finite : ∀ p ∈ params, p.Finite) : ∃ encoded,
      Rust.Codec.encodeParams debug (params.map rustParam) = .ok encoded ∧
      Denotes id (rustMember? nearest) (Rust.optional "params" encoded) (paramsMember params) := by
  cases params with
  | nil => exact ⟨none, rfl, .nil⟩
  | cons p rest =>
      obtain ⟨items, encoded, cells, _⟩ :=
        rust_loop.sends (fun q inside => rust_cell prints (finite q inside)) 0
      refine ⟨some (.array items), ?_, .single rfl ?_⟩
      · rw [Rust.Codec.encodeParams, encoded]
        rfl
      · rw [rustMember?, cells]
        rfl

theorem rust_text (k : String) (text : Option String) :
    Denotes id (rustMember? nearest) (Rust.optional k (text.map Rust.Codec.Json.str))
      (textMember true k text) := by
  cases text with
  | none => exact .nil
  | some s =>
      have sent : textMember true k (some s) = [(k, .text s.toList)] := if_neg (by simp)
      rw [sent]
      exact .single rfl rfl

theorem rust_flag (k : String) (given : Option Bool) :
    Denotes id (rustMember? nearest) (Rust.flag k (given.getD false)) (flagMember false k given) := by
  cases given with
  | none => exact .nil
  | some on =>
      cases on with
      | true => exact .single rfl rfl
      | false => exact .nil

theorem rust_op (op : String) : Denotes id (rustMember? nearest) [Rust.opField op] (opMember op) :=
  .single rfl rfl

theorem rust_sql (k s : String) :
    Denotes id (rustMember? nearest) [(k, Rust.Codec.Json.str s)] (textMember true k (some s)) := by
  exact rust_text k (some s)

/-- The fields of `query` and `exec`. -/
theorem rust_sqlFields (prints : Prints nearest debug numbers strconv jdk) (op sql : String)
    {params : List Param} (finite : ∀ p ∈ params, p.Finite) : ∃ fields,
      Rust.sqlFields debug op sql (params.map rustParam) = .ok fields ∧
      Denotes id (rustMember? nearest) fields
        (opMember op ++ textMember true "sql" (some sql) ++ paramsMember params) := by
  obtain ⟨encoded, written, denotes⟩ := rust_params prints finite
  refine ⟨_, ?_, ((rust_op op).append (rust_sql "sql" sql)).append denotes⟩
  rw [Rust.sqlFields, written]
  rfl

theorem rust_denotes (prints : Prints nearest debug numbers strconv jdk) {op : Operation}
    (finite : op.Finite) : ∃ fields, (rustRequest op).fields debug = .ok fields ∧
      Denotes id (rustMember? nearest) fields (op.object .rust) := by
  cases op with
  | query sql params => exact rust_sqlFields prints "query" sql finite
  | exec sql params => exact rust_sqlFields prints "exec" sql finite
  | snapshot filename sqlite timestamp =>
      exact ⟨_, rfl, (((rust_op _).append (rust_text _ filename)).append (rust_flag _ sqlite)).append
        (rust_flag _ timestamp)⟩
  | load path => exact ⟨_, rfl, (rust_op _).append (rust_sql _ path)⟩
  | inspect => exact ⟨_, rfl, rust_op _⟩
  | tables => exact ⟨_, rfl, rust_op _⟩
  | schema table => exact ⟨_, rfl, (rust_op _).append (rust_text _ table)⟩
  | dump pattern => exact ⟨_, rfl, (rust_op _).append (rust_text _ pattern)⟩
  | overwrite => exact ⟨_, rfl, rust_op _⟩
  | close => exact ⟨_, rfl, rust_op _⟩

/-! ## TypeScript -/

theorem key_lit {k : String} (narrow : k.toList.all (fun c => c.toNat < 0x80) = true) :
    String.ofList (Utf16.characters (TypeScript.lit k)) = k := by
  rw [TypeScript.lit, Utf16.encode_narrow narrow, Utf16.characters_encode, String.ofList_toList]

theorem characters_unitsOf (s : String) : Utf16.characters (unitsOf s) = s.toList :=
  Utf16.characters_encode s.toList

theorem unitsOf_eq_nil_iff (s : String) : unitsOf s = [] ↔ s = "" := by
  constructor
  · intro none
    have empty := characters_unitsOf s
    rw [none] at empty
    exact String.toList_eq_nil_iff.mp empty.symm
  · rintro rfl
    rfl

theorem base64_units (b : List UInt8) :
    TypeScript.base64 b = Utf16.encode ((Base64.encode b).map Char.ofNat) := by
  have each (us : List Nat) (plain : ∀ u ∈ us, u < 0x80) :
      us.map UInt16.ofNat = Utf16.encode (us.map Char.ofNat) := by
    induction us with
    | nil => rfl
    | cons u rest ih =>
        obtain ⟨first, others⟩ := List.forall_mem_cons.mp plain
        have value : (Char.ofNat u).toNat = u := (Char.toNat_ofNat u).trans (if_pos (.inl (by omega)))
        rw [List.map_cons, List.map_cons, ih others, Utf16.encode_cons, Utf16.units, value,
          if_pos (by omega)]
        rfl
  exact each _ fun u inside => (Base64.isUnit_plain (Base64.encode_units b u inside)).2.1

/-- The name of a member of the driver. -/
abbrev unitKey (key : List UInt16) : String := String.ofList (Utf16.characters key)

theorem typeScript_cell (prints : Prints nearest debug numbers strconv jdk) {p : Param}
    (finite : p.Finite) : ∃ item, TypeScript.encodeValue numbers (typeScriptParam p) = .ok item ∧
      typeScriptCell? nearest item = some p.cell := by
  cases p with
  | null => exact ⟨.null, rfl, rfl⟩
  | integer n =>
      have low := n.le_toInt
      have high := n.toInt_lt
      exact ⟨_, if_neg (by omega), tokenCell?_toString n.toInt⟩
  | real bits =>
      have bounded : (TypeScript.Double.mk bits).isFinite = true := decide_eq_true finite
      refine ⟨_, if_neg (by rw [bounded]; exact Bool.false_ne_true), ?_⟩
      change tokenCell? nearest (TypeScript.realToken numbers ⟨bits⟩) = some (.real bits)
      by_cases zero : (TypeScript.Double.mk bits) = .minusZero
      · have token : TypeScript.realToken numbers ⟨bits⟩ = ['-', '0', '.', '0'] := by
          rw [TypeScript.realToken, if_pos zero]
          rfl
        have same : bits = 0x8000000000000000 := congrArg TypeScript.Double.bits zero
        rw [token, tokenCell?, if_pos (by decide), prints.minusZero, same]
      · have token := (prints.typeScript ⟨bits⟩ bounded zero).token.2
        rw [TypeScript.realToken, if_neg zero]
        exact token
  | text s =>
      refine ⟨_, rfl, ?_⟩
      change some (WireCell.text (Utf16.characters (unitsOf s))) = _
      rw [characters_unitsOf]
      rfl
  | blob b =>
      refine ⟨_, rfl, ?_⟩
      change blobCell? (Utf16.characters (TypeScript.base64 b)) = _
      rw [base64_units, Utf16.characters_encode, blobCell?_chars]
      rfl

theorem typeScript_refuses {p : Param} (infinite : ¬ p.Finite) :
    ∃ e, TypeScript.encodeValue numbers (typeScriptParam p) = .error e := by
  cases p with
  | real bits =>
      have unbounded : (TypeScript.Double.mk bits).isFinite = false := decide_eq_false infinite
      exact ⟨_, if_pos (by rw [unbounded]; rfl)⟩
  | _ => exact absurd trivial infinite

theorem typeScript_loop : Loop (TypeScript.encodeItems numbers) (TypeScript.encodeValue numbers)
    TypeScript.JsError.atParam where
  nil _ := rfl
  cons _ _ _ := rfl

theorem typeScript_text {k : String} (narrow : k.toList.all (fun c => c.toNat < 0x80) = true)
    (text : Option String) :
    Denotes unitKey (typeScriptMember? nearest) (TypeScript.textField k (text.map unitsOf))
      (textMember false k text) := by
  cases text with
  | none => exact .nil
  | some s =>
      change Denotes unitKey (typeScriptMember? nearest)
        (if unitsOf s = [] then [] else [(TypeScript.lit k, .string (unitsOf s))])
        (if s = "" ∧ !false then [] else [(k, .text s.toList)])
      by_cases empty : s = ""
      · rw [if_pos ((unitsOf_eq_nil_iff s).mpr empty), if_pos ⟨empty, rfl⟩]
        exact .nil
      · rw [if_neg (mt (unitsOf_eq_nil_iff s).mp empty), if_neg fun blank => empty blank.1]
        exact .single (key_lit narrow) (congrArg (some ∘ WireMember.text) (characters_unitsOf s))

theorem typeScript_flag {k : String} (narrow : k.toList.all (fun c => c.toNat < 0x80) = true)
    (given : Option Bool) :
    Denotes unitKey (typeScriptMember? nearest) (TypeScript.flagField k given)
      (flagMember false k given) := by
  cases given with
  | none => exact .nil
  | some on =>
      cases on with
      | true => exact .single (key_lit narrow) rfl
      | false => exact .nil

theorem typeScript_required {k : String} (narrow : k.toList.all (fun c => c.toNat < 0x80) = true)
    (s : String) :
    Denotes unitKey (typeScriptMember? nearest) [(TypeScript.lit k, .string (unitsOf s))]
      (textMember true k (some s)) := by
  have sent : textMember true k (some s) = [(k, .text s.toList)] := if_neg (by simp)
  rw [sent]
  exact .single (key_lit narrow) (congrArg (some ∘ WireMember.text) (characters_unitsOf s))

theorem typeScript_op {op : String} (narrow : op.toList.all (fun c => c.toNat < 0x80) = true) :
    Denotes unitKey (typeScriptMember? nearest) [TypeScript.opField op] (opMember op) := by
  refine .single (key_lit rfl) ?_
  change some (WireMember.text (Utf16.characters (TypeScript.lit op))) = _
  rw [TypeScript.lit, Utf16.encode_narrow narrow, Utf16.characters_encode]

theorem typeScript_sqlRecord (prints : Prints nearest debug numbers strconv jdk) (op sql : String)
    (narrow : op.toList.all (fun c => c.toNat < 0x80) = true) {params : List Param}
    (finite : ∀ p ∈ params, p.Finite) : ∃ record,
      TypeScript.sqlRecord numbers op (unitsOf sql) (params.map typeScriptParam) = .ok record ∧
      Denotes unitKey (typeScriptMember? nearest) record
        (opMember op ++ textMember true "sql" (some sql) ++ paramsMember params) := by
  have head : Denotes unitKey (typeScriptMember? nearest) _ _ :=
    (typeScript_op narrow).append (typeScript_required (k := "sql") rfl sql)
  cases params with
  | nil => exact ⟨_, rfl, head.append .nil⟩
  | cons p rest =>
      obtain ⟨items, encoded, cells, _⟩ :=
        typeScript_loop.sends (fun q inside => typeScript_cell prints (finite q inside)) 0
      refine ⟨_, ?_, head.append (.single (key_lit rfl) (v := .array items) ?_)⟩
      · rw [TypeScript.sqlRecord, TypeScript.encodeParams, encoded]
        rfl
      · rw [typeScriptMember?, cells]
        rfl

theorem typeScript_denotes (prints : Prints nearest debug numbers strconv jdk) {op : Operation}
    (finite : op.Finite) : ∃ record, (typeScriptRequest op).record numbers = .ok record ∧
      Denotes unitKey (typeScriptMember? nearest) record (op.object .typeScript) := by
  cases op with
  | query sql params => exact typeScript_sqlRecord prints "query" sql rfl finite
  | exec sql params => exact typeScript_sqlRecord prints "exec" sql rfl finite
  | snapshot filename sqlite timestamp =>
      exact ⟨_, rfl, (((typeScript_op rfl).append (typeScript_text rfl filename)).append
        (typeScript_flag rfl sqlite)).append (typeScript_flag rfl timestamp)⟩
  | load path => exact ⟨_, rfl, (typeScript_op rfl).append (typeScript_required rfl path)⟩
  | inspect => exact ⟨_, rfl, typeScript_op rfl⟩
  | tables => exact ⟨_, rfl, typeScript_op rfl⟩
  | schema table => exact ⟨_, rfl, (typeScript_op rfl).append (typeScript_text rfl table)⟩
  | dump pattern => exact ⟨_, rfl, (typeScript_op rfl).append (typeScript_text rfl pattern)⟩
  | overwrite => exact ⟨_, rfl, typeScript_op rfl⟩
  | close => exact ⟨_, rfl, typeScript_op rfl⟩

/-! ## Go -/

theorem go_finite_iff (bits : UInt64) :
    ((Go.Float64.mk bits).isNaN || (Go.Float64.mk bits).isInf) = true ↔ ¬ (Param.real bits).Finite := by
  have range := bits.toNat_lt
  rw [Go.Float64.isNaN, Go.Float64.isInf, Bool.or_eq_true, decide_eq_true_eq, decide_eq_true_eq,
    Param.Finite, not_not, Go.Float64.magnitude, Go.Float64.infinity]
  dsimp only
  omega

theorem goCell?_token {token : List Char} (number : Number token) :
    goCell? nearest token = tokenCell? nearest token := by
  have read : Go.parse (Utf8.encode token) = .ok (.number (points token)) :=
    Go.parse_spelled (.number number rfl)
  rw [goCell?, read]
  change tokenCell? nearest (Go.chars (points token)) = _
  rw [Go.chars, JsonReader.chars_points]

theorem go_cell (prints : Prints nearest debug numbers strconv jdk) {p : Param}
    (finite : p.Finite) : ∃ raw, Go.encodeValue strconv (goParam p) = .ok raw ∧
      goCell? nearest raw = some p.cell := by
  cases p with
  | null =>
      refine ⟨_, rfl, ?_⟩
      have read : Go.parse (Utf8.encode "null".toList) = .ok .null := Go.parse_spelled .null
      rw [goCell?, read]
      rfl
  | integer n =>
      refine ⟨_, rfl, ?_⟩
      rw [Go.formatInt, goCell?_token (Decimal.toString_number n.toInt)]
      exact tokenCell?_toString n.toInt
  | real bits =>
      have special : ¬ ((Go.Float64.mk bits).isNaN || (Go.Float64.mk bits).isInf) = true :=
        fun held => (go_finite_iff bits).mp held finite
      have token := (prints.go ⟨bits⟩ ((Go.isFinite_iff _).mpr special)).token
      refine ⟨_, if_neg special, ?_⟩
      change goCell? nearest (Go.formatReal strconv ⟨bits⟩) = some (.real bits)
      rw [Go.formatReal, goCell?_token token.1]
      exact token.2
  | text s =>
      refine ⟨_, rfl, ?_⟩
      have read : Go.parse (Utf8.encode (Go.marshalString (Utf8.bytes s))) =
          .ok (.string (points s.toList)) := by
        rw [Go.parse_spelled (Go.marshalString_spelled _ _), Utf8.bytes_eq_encode,
          Go.codePoints_encode]
      rw [goCell?, read]
      change some (WireCell.text (Go.chars (points s.toList))) = _
      rw [Go.chars, JsonReader.chars_points]
      rfl
  | blob b =>
      refine ⟨_, rfl, ?_⟩
      have units : Go.codePoints (Go.encodeToString b) = points (Go.base64Text b) := by
        rw [Go.encodeToString_text, Go.codePoints_encode]
      change goCell? nearest ('[' :: (Go.marshalString (Go.encodeToString b) ++ [']'])) = _
      rw [goCell?, Go.parse_blob, units]
      change blobCell? (Go.chars (points (Go.base64Text b))) = _
      rw [Go.chars, JsonReader.chars_points, Go.base64Text, blobCell?_chars]
      rfl

theorem go_refuses {p : Param} (infinite : ¬ p.Finite) :
    ∃ e, Go.encodeValue strconv (goParam p) = .error e := by
  cases p with
  | real bits => exact ⟨_, if_pos ((go_finite_iff bits).mpr infinite)⟩
  | _ => exact absurd trivial infinite

theorem go_loop : Loop (Go.encodeItems strconv) (Go.encodeValue strconv)
    fun i => .wrap (Go.lit ("params[" ++ toString i ++ "]: ")) where
  nil _ := rfl
  cons _ _ _ := rfl

theorem go_text (k : String) (text : Option String) :
    Denotes id (goMember? nearest) (Go.Request.stringMember k ((text.map Utf8.bytes).getD []))
      (textMember false k text) := by
  cases text with
  | none => exact .nil
  | some s =>
      change Denotes id (goMember? nearest)
        (if Utf8.bytes s = [] then [] else [(k, .string (Utf8.bytes s))])
        (if s = "" ∧ !false then [] else [(k, .text s.toList)])
      by_cases empty : s = ""
      · rw [if_pos (by rw [empty]; rfl), if_pos ⟨empty, rfl⟩]
        exact .nil
      · have filled : Utf8.bytes s ≠ [] := fun none => empty (Utf8.bytes_injective none)
        rw [if_neg filled, if_neg fun blank => empty blank.1]
        refine .single rfl ?_
        have back : Utf8.decode? (Utf8.bytes s) = some s := (Utf8.decode?_eq_some_iff _ _).mpr rfl
        rw [goMember?, back]
        rfl

theorem go_flag (k : String) (given : Option Bool) :
    Denotes id (goMember? nearest) (Go.Request.boolMember k (given.getD false))
      (flagMember false k given) := by
  cases given with
  | none => exact .nil
  | some on =>
      cases on with
      | true => exact .single rfl rfl
      | false => exact .nil

theorem go_op (op : String) :
    Denotes id (goMember? nearest) [("op", .string (Go.lit op))] (opMember op) := by
  have back : Utf8.decode? (Utf8.bytes op) = some op := (Utf8.decode?_eq_some_iff _ _).mpr rfl
  refine .single rfl ?_
  rw [Go.lit, goMember?, back]
  rfl

theorem go_sqlRequest (prints : Prints nearest debug numbers strconv jdk) (op sql : String)
    {params : List Param} (finite : ∀ p ∈ params, p.Finite) :
    ∃ request, Go.sqlRequest strconv op (Utf8.bytes sql) (params.map goParam) = .ok request ∧
      Denotes id (goMember? nearest) request.members
        (opMember op ++ textMember false "sql" (some sql) ++ paramsMember params) := by
  obtain ⟨raws, encoded, cells, length⟩ :=
    go_loop.sends (fun p inside => go_cell prints (finite p inside)) 0
  have written : Go.sqlRequest strconv op (Utf8.bytes sql) (params.map goParam) =
      .ok { Go.Request.ofOp op with sql := Utf8.bytes sql, params := raws } := by
    rw [Go.sqlRequest, Go.encodeParams, encoded]
    rfl
  have head : Denotes id (goMember? nearest) _ _ := (go_op op).append (go_text "sql" (some sql))
  have shape : Go.Request.members { Go.Request.ofOp op with sql := Utf8.bytes sql, params := raws } =
      [("op", .string (Go.lit op))] ++ Go.Request.stringMember "sql" (Utf8.bytes sql) ++
        Go.Request.rawsMember "params" raws := by
    simp only [Go.Request.members, Go.Request.ofOp, Go.Request.stringMember, Go.Request.boolMember,
      Bool.false_eq_true, if_true, if_false, List.append_nil]
  refine ⟨_, written, ?_⟩
  rw [shape]
  refine head.append ?_
  cases params with
  | nil =>
      rw [List.length_eq_zero_iff.mp length]
      exact .nil
  | cons p rest =>
      have some : raws ≠ [] := List.ne_nil_of_length_eq_add_one length
      rw [Go.Request.rawsMember, if_neg some]
      refine .single rfl ?_
      rw [goMember?, cells]
      rfl

theorem go_denotes (prints : Prints nearest debug numbers strconv jdk) {op : Operation}
    (finite : op.Finite) : ∃ request, (goCall op).request strconv = .ok request ∧
      Denotes id (goMember? nearest) request.members (op.object .go) := by
  have alone (op : String) : Denotes id (goMember? nearest) (Go.Request.ofOp op).members (opMember op) :=
    go_op op
  cases op with
  | query sql params => exact go_sqlRequest prints "query" sql finite
  | exec sql params => exact go_sqlRequest prints "exec" sql finite
  | snapshot filename sqlite timestamp =>
      have shape : Go.Request.members { Go.Request.ofOp "snapshot" with
            filename := (filename.map Utf8.bytes).getD [], sqlite := sqlite.getD false,
            timestamp := timestamp.getD false } =
          [("op", .string (Go.lit "snapshot"))] ++
            Go.Request.stringMember "filename" ((filename.map Utf8.bytes).getD []) ++
            Go.Request.boolMember "sqlite" (sqlite.getD false) ++
            Go.Request.boolMember "timestamp" (timestamp.getD false) := by
        simp only [Go.Request.members, Go.Request.ofOp, Go.Request.stringMember,
          Go.Request.rawsMember, if_true, List.append_nil]
      refine ⟨_, rfl, ?_⟩
      rw [shape]
      exact (((go_op _).append (go_text _ filename)).append (go_flag _ sqlite)).append
        (go_flag _ timestamp)
  | load path =>
      have shape : Go.Request.members { Go.Request.ofOp "load" with path := Utf8.bytes path } =
          [("op", .string (Go.lit "load"))] ++ Go.Request.stringMember "path" (Utf8.bytes path) := by
        simp only [Go.Request.members, Go.Request.ofOp, Go.Request.stringMember,
          Go.Request.rawsMember, Go.Request.boolMember, Bool.false_eq_true, if_true, if_false,
          List.append_nil]
      refine ⟨_, rfl, ?_⟩
      rw [shape]
      exact (go_op _).append (go_text _ (some path))
  | inspect => exact ⟨_, rfl, alone _⟩
  | tables => exact ⟨_, rfl, alone _⟩
  | schema table =>
      have shape : Go.Request.members { Go.Request.ofOp "schema" with
            table := (table.map Utf8.bytes).getD [] } = [("op", .string (Go.lit "schema"))] ++
          Go.Request.stringMember "table" ((table.map Utf8.bytes).getD []) := by
        simp only [Go.Request.members, Go.Request.ofOp, Go.Request.stringMember,
          Go.Request.rawsMember, Go.Request.boolMember, Bool.false_eq_true, if_true, if_false,
          List.append_nil]
      refine ⟨_, rfl, ?_⟩
      rw [shape]
      exact (go_op _).append (go_text _ table)
  | dump pattern =>
      have shape : Go.Request.members { Go.Request.ofOp "dump" with
            pattern := (pattern.map Utf8.bytes).getD [] } = [("op", .string (Go.lit "dump"))] ++
          Go.Request.stringMember "pattern" ((pattern.map Utf8.bytes).getD []) := by
        simp only [Go.Request.members, Go.Request.ofOp, Go.Request.stringMember,
          Go.Request.rawsMember, Go.Request.boolMember, Bool.false_eq_true, if_true, if_false,
          List.append_nil]
      refine ⟨_, rfl, ?_⟩
      rw [shape]
      exact (go_op _).append (go_text _ pattern)
  | overwrite => exact ⟨_, rfl, alone _⟩
  | close => exact ⟨_, rfl, alone _⟩

/-! ## Java -/

theorem javaText?_encode (cs : List Char) : javaText? (Utf16.encode cs) = some cs := by
  have back : Utf8.decode? (Utf8.encode cs) = some (String.ofList cs) :=
    (Utf8.decode?_eq_some_iff _ _).mpr (Utf8.bytes_ofList cs).symm
  rw [javaText?, Java.getBytes_encode, back, Option.map_some, String.toList_ofList]

theorem javaText?_unitsOf (s : String) : javaText? (unitsOf s) = some s.toList :=
  javaText?_encode s.toList

/-- A member name, as its bytes say it. -/
def javaKey (key : Java.JString) : String := String.ofList ((javaText? key).getD [])

theorem javaKey_lit {k : String} (narrow : k.toList.all (fun c => c.toNat < 0x80) = true) :
    javaKey (Java.lit k) = k := by
  rw [Java.lit, Utf16.encode_narrow narrow, javaKey, javaText?_encode, Option.getD_some, String.ofList_toList]

/-- A printed double that has a point is sent as it is. -/
theorem java_realToken {d : Java.Codec.Double} {cs : List Char} (pointed : '.' ∈ cs)
    (printed : jdk.doubleToString d = Utf16.encode cs) :
    Java.Codec.realToken jdk d = Utf16.encode cs := by
  have among : (0x2E : UInt16) ∈ Utf16.encode cs :=
    List.mem_flatMap.mpr ⟨'.', pointed, by decide⟩
  rw [Java.Codec.realToken, printed, if_pos]
  rw [Bool.or_eq_true]
  exact .inl (List.contains_iff_mem.mpr among)

theorem java_cell (prints : Prints nearest debug numbers strconv jdk) {p : Param}
    (finite : p.Finite) : ∃ item, Java.Codec.encodeValue jdk (javaParam p) = .ok item ∧
      javaCell? nearest item = some p.cell := by
  cases p with
  | null => exact ⟨.null, rfl, rfl⟩
  | integer n =>
      have narrow : (toString n.toInt).toList.all (fun c => c.toNat < 0x80) = true :=
        List.all_eq_true.mpr fun c inside =>
          decide_eq_true (JsonReader.number_ascii (Decimal.toString_number n.toInt) c inside).2
      refine ⟨_, rfl, ?_⟩
      rw [javaCell?, Java.lit, Utf16.encode_narrow narrow, javaText?_encode]
      exact tokenCell?_toString n.toInt
  | real bits =>
      have bounded : (Java.Codec.Double.mk bits).isFinite = true := decide_eq_true finite
      obtain ⟨cs, number, pointed, printed, rounded⟩ := prints.java ⟨bits⟩ bounded
      refine ⟨_, if_neg (by rw [bounded]; exact Bool.false_ne_true), ?_⟩
      have mark : cs.any Decimal.isRealMark = true := List.any_eq_true.mpr ⟨'.', pointed, rfl⟩
      rw [java_realToken pointed printed, javaCell?, javaText?_encode, Option.bind_some, tokenCell?,
        if_pos mark, rounded]
      rfl
  | text s =>
      refine ⟨_, rfl, ?_⟩
      rw [javaCell?, javaText?_unitsOf]
      rfl
  | blob b =>
      refine ⟨_, rfl, ?_⟩
      rw [javaCell?, prints.base64, javaText?_encode, Option.bind_some, blobCell?_chars]
      rfl

theorem java_refuses {p : Param} (infinite : ¬ p.Finite) :
    ∃ e, Java.Codec.encodeValue jdk (javaParam p) = .error e := by
  cases p with
  | real bits =>
      have unbounded : (Java.Codec.Double.mk bits).isFinite = false := decide_eq_false infinite
      exact ⟨_, if_pos (by rw [unbounded]; rfl)⟩
  | _ => exact absurd trivial infinite

theorem java_loop : Loop (Java.Codec.encodeItems jdk) (Java.Codec.encodeValue jdk)
    fun i e => Java.lit "params[" ++ Java.lit (toString i) ++ Java.lit "]: " ++ e where
  nil _ := rfl
  cons _ _ _ := rfl

theorem java_text {k : String} (narrow : k.toList.all (fun c => c.toNat < 0x80) = true)
    (text : Option String) :
    Denotes javaKey (javaMember? nearest) (Java.Codec.field k ((text.map unitsOf).map .str))
      (textMember true k text) := by
  cases text with
  | none => exact .nil
  | some s =>
      have sent : textMember true k (some s) = [(k, .text s.toList)] := if_neg (by simp)
      rw [sent]
      refine .single (javaKey_lit narrow) ?_
      rw [javaMember?, javaText?_unitsOf]
      rfl

theorem java_flag {k : String} (narrow : k.toList.all (fun c => c.toNat < 0x80) = true)
    (given : Option Bool) :
    Denotes javaKey (javaMember? nearest) (Java.Codec.field k (given.map .bool))
      (flagMember true k given) := by
  cases given with
  | none => exact .nil
  | some on =>
      have sent : flagMember true k (some on) = [(k, .flag on)] := if_pos (by simp)
      rw [sent]
      exact .single (javaKey_lit narrow) rfl

theorem java_op {op : String} (narrow : op.toList.all (fun c => c.toNat < 0x80) = true) :
    Denotes javaKey (javaMember? nearest) [Java.Codec.opMember op] (opMember op) := by
  refine .single (javaKey_lit rfl) ?_
  rw [Java.lit, Utf16.encode_narrow narrow, javaMember?, javaText?_encode]
  rfl

theorem java_sqlMembers (prints : Prints nearest debug numbers strconv jdk) (op sql : String)
    (narrow : op.toList.all (fun c => c.toNat < 0x80) = true) {params : List Param}
    (finite : ∀ p ∈ params, p.Finite) : ∃ members,
      Java.Codec.sqlMembers jdk op (some (unitsOf sql)) (params.map javaParam) = .ok members ∧
      Denotes javaKey (javaMember? nearest) members
        (opMember op ++ textMember true "sql" (some sql) ++ paramsMember params) := by
  have head : Denotes javaKey (javaMember? nearest) _ _ :=
    (java_op narrow).append (java_text (k := "sql") rfl (some sql))
  cases params with
  | nil => exact ⟨_, rfl, head.append .nil⟩
  | cons p rest =>
      obtain ⟨items, encoded, cells, _⟩ :=
        java_loop.sends (fun q inside => java_cell prints (finite q inside)) 0
      refine ⟨_, ?_, head.append (.single (javaKey_lit rfl) (v := .arr items) ?_)⟩
      · rw [Java.Codec.sqlMembers, Java.Codec.encodeParams, encoded]
        rfl
      · rw [javaMember?, cells]
        rfl

theorem java_denotes (prints : Prints nearest debug numbers strconv jdk) {op : Operation}
    (finite : op.Finite) : ∃ members, (javaRequest op).members jdk = .ok members ∧
      Denotes javaKey (javaMember? nearest) members (op.object .java) := by
  cases op with
  | query sql params => exact java_sqlMembers prints "query" sql rfl finite
  | exec sql params => exact java_sqlMembers prints "exec" sql rfl finite
  | snapshot filename sqlite timestamp =>
      exact ⟨_, rfl, (((java_op rfl).append (java_text rfl filename)).append
        (java_flag rfl sqlite)).append (java_flag rfl timestamp)⟩
  | load path => exact ⟨_, rfl, (java_op rfl).append (java_text rfl (some path))⟩
  | inspect => exact ⟨_, rfl, java_op rfl⟩
  | tables => exact ⟨_, rfl, java_op rfl⟩
  | schema table => exact ⟨_, rfl, (java_op rfl).append (java_text rfl table)⟩
  | dump pattern => exact ⟨_, rfl, (java_op rfl).append (java_text rfl pattern)⟩
  | overwrite => exact ⟨_, rfl, java_op rfl⟩
  | close => exact ⟨_, rfl, java_op rfl⟩

/-! ## REALs that are not finite -/

/-- The parameters of `query` and `exec`, one of which is not finite. -/
theorem infinite_params {op : Operation} (infinite : ¬ op.Finite) :
    ∃ sql params, (op = .query sql params ∨ op = .exec sql params) ∧ ∃ p ∈ params, ¬ p.Finite := by
  have one {params : List Param} (held : ¬ ∀ p ∈ params, p.Finite) : ∃ p ∈ params, ¬ p.Finite := by
    by_contra none
    exact held fun p inside => by_contra fun other => none ⟨p, inside, other⟩
  cases op with
  | query sql params => exact ⟨sql, params, .inl rfl, one infinite⟩
  | exec sql params => exact ⟨sql, params, .inr rfl, one infinite⟩
  | _ => exact absurd trivial infinite

theorem isEmpty_map {π : Type} {of : Param → π} {params : List Param} {p : Param}
    (inside : p ∈ params) : (params.map of).isEmpty = false :=
  List.isEmpty_eq_false_iff.mpr (List.ne_nil_of_mem (List.mem_map_of_mem inside))

theorem rust_refused {op : Operation} (infinite : ¬ op.Finite) : ∃ e, (rustRequest op).fields debug = .error e := by
  obtain ⟨sql, params, shape, p, inside, other⟩ := infinite_params infinite
  obtain ⟨e, stopped⟩ : ∃ e, Rust.Codec.encodeItems debug 0 (params.map rustParam) = .error e :=
    rust_loop.stops inside (rust_refuses other) 0
  have fields (k : String) : Rust.sqlFields debug k sql (params.map rustParam) = .error e := by
    rw [Rust.sqlFields, Rust.Codec.encodeParams, isEmpty_map inside, stopped]
    rfl
  rcases shape with rfl | rfl <;> exact ⟨e, fields _⟩

theorem typeScript_refused {op : Operation} (infinite : ¬ op.Finite) :
    ∃ e, (typeScriptRequest op).record numbers = .error e := by
  obtain ⟨sql, params, shape, p, inside, other⟩ := infinite_params infinite
  obtain ⟨e, stopped⟩ : ∃ e, TypeScript.encodeItems numbers 0 (params.map typeScriptParam) = .error e :=
    typeScript_loop.stops inside (typeScript_refuses other) 0
  have record (k : String) (s : List UInt16) :
      TypeScript.sqlRecord numbers k s (params.map typeScriptParam) = .error e := by
    rw [TypeScript.sqlRecord, TypeScript.encodeParams, isEmpty_map inside, stopped]
    rfl
  rcases shape with rfl | rfl <;> exact ⟨e, record _ _⟩

theorem go_refused {op : Operation} (infinite : ¬ op.Finite) : ∃ e, (goCall op).request strconv = .error e := by
  obtain ⟨sql, params, shape, p, inside, other⟩ := infinite_params infinite
  obtain ⟨e, stopped⟩ : ∃ e, Go.encodeItems strconv 0 (params.map goParam) = .error e :=
    go_loop.stops inside (go_refuses other) 0
  have request (k : String) (s : List UInt8) :
      Go.sqlRequest strconv k s (params.map goParam) = .error (.wrap (Go.lit "sandbox: ") e) := by
    rw [Go.sqlRequest, Go.encodeParams, stopped]
    rfl
  rcases shape with rfl | rfl <;> exact ⟨_, request _ _⟩

theorem java_refused {op : Operation} (infinite : ¬ op.Finite) : ∃ e, (javaRequest op).members jdk = .error e := by
  obtain ⟨sql, params, shape, p, inside, other⟩ := infinite_params infinite
  obtain ⟨e, stopped⟩ : ∃ e, Java.Codec.encodeItems jdk 0 (params.map javaParam) = .error e :=
    java_loop.stops inside (java_refuses other) 0
  have members (k : String) (s : Option (List UInt16)) :
      Java.Codec.sqlMembers jdk k s (params.map javaParam) = .error e := by
    rw [Java.Codec.sqlMembers, Java.Codec.encodeParams, isEmpty_map inside, stopped]
    rfl
  rcases shape with rfl | rfl <;> exact ⟨e, members _ _⟩

end Agreement

/-! ## The objects, rule by rule -/

def SameMembers (first second : WireObject) : Prop := ∀ m, m ∈ first ↔ m ∈ second

/-- An empty text or a false flag. -/
def WireMember.Blank (m : WireMember) : Prop := m = .text [] ∨ m = .flag false

instance (m : WireMember) : Decidable m.Blank := inferInstanceAs (Decidable (m = .text [] ∨ m = .flag false))

/-- The members that are not blank. -/
def filled (object : WireObject) : WireObject := object.filter fun m => ¬ m.2.Blank

theorem filled_append (first second : WireObject) : filled (first ++ second) = filled first ++ filled second :=
  List.filter_append ..

theorem filled_text (sends : Bool) (k : String) (text : Option String) :
    filled (textMember sends k text) = filled (textMember false k text) := by
  cases text with
  | none => rfl
  | some s =>
      cases sends with
      | false => rfl
      | true =>
          by_cases empty : s = ""
          · subst empty
            rfl
          · rw [textMember, textMember, if_neg (by simp), if_neg fun blank => empty blank.1]

theorem filled_flag (sends : Bool) (k : String) (given : Option Bool) :
    filled (flagMember sends k given) = filled (flagMember false k given) := by
  rcases given with _ | on
  · rfl
  · cases on with
    | true => rfl
    | false =>
        cases sends with
        | true => rfl
        | false => rfl

/-- Whatever the rules, the members that are not blank are the same. -/
theorem filled_object (r r' : Rules) (op : Operation) : filled (op.object r) = filled (op.object r') := by
  have text (k : String) (t : Option String) (sends sends' : Bool) :
      filled (textMember sends k t) = filled (textMember sends' k t) := by
    rw [filled_text sends, filled_text sends']
  have flag (k : String) (t : Option Bool) (sends sends' : Bool) :
      filled (flagMember sends k t) = filled (flagMember sends' k t) := by
    rw [filled_flag sends, filled_flag sends']
  cases op with
  | query sql params | exec sql params =>
      simp only [Operation.object, filled_append, text _ _ r.emptyRequired r'.emptyRequired]
  | snapshot filename sqlite timestamp =>
      simp only [Operation.object, filled_append, text _ _ r.emptyOptional r'.emptyOptional,
        flag _ _ r.falseFlag r'.falseFlag]
  | load path => simp only [Operation.object, filled_append, text _ _ r.emptyRequired r'.emptyRequired]
  | schema table => simp only [Operation.object, filled_append, text _ _ r.emptyOptional r'.emptyOptional]
  | dump pattern => simp only [Operation.object, filled_append, text _ _ r.emptyOptional r'.emptyOptional]
  | _ => rfl

/-- No member is blank. -/
def Clear (object : WireObject) : Prop := ∀ m ∈ object, ¬ m.2.Blank

theorem clear_append (first second : WireObject) :
    Clear (first ++ second) ↔ Clear first ∧ Clear second := List.forall_mem_append

theorem clear_single (k : String) (m : WireMember) : Clear [(k, m)] ↔ ¬ m.Blank :=
  List.forall_mem_singleton

theorem clear_op {op : String} (named : op ≠ "") : Clear (opMember op) := by
  rw [opMember, clear_single]
  rintro (empty | off)
  · exact named (String.toList_eq_nil_iff.mp (WireMember.text.inj empty))
  · cases off

theorem clear_params (params : List Param) : Clear (paramsMember params) := by
  rw [paramsMember]
  split
  · exact nofun
  · rw [clear_single]
    exact nofun

theorem clear_text_iff (sends : Bool) (k : String) (text : Option String) :
    Clear (textMember sends k text) ↔ (sends = true → text ≠ some "") := by
  cases text with
  | none => exact ⟨fun _ _ => nofun, fun _ => nofun⟩
  | some s =>
      have blank : (WireMember.text s.toList).Blank ↔ s = "" := by
        constructor
        · rintro (empty | off)
          · exact String.toList_eq_nil_iff.mp (WireMember.text.inj empty)
          · cases off
        · rintro rfl
          exact .inl rfl
      by_cases empty : s = ""
      · subst empty
        cases sends with
        | false => exact ⟨fun _ => nofun, fun _ => nofun⟩
        | true =>
            exact ⟨fun clear => absurd (.inl rfl) (clear _ List.mem_cons_self),
              fun other => absurd rfl (other rfl)⟩
      · rw [textMember, if_neg fun left => empty left.1, clear_single, blank]
        exact ⟨fun _ _ same => empty (Option.some.inj same), fun _ => empty⟩

theorem clear_flag_iff (sends : Bool) (k : String) (given : Option Bool) :
    Clear (flagMember sends k given) ↔ (sends = true → given ≠ some false) := by
  rcases given with _ | on
  · exact ⟨fun _ _ => nofun, fun _ => nofun⟩
  · cases on with
    | true =>
        refine ⟨fun _ _ => nofun, fun _ => ?_⟩
        rw [flagMember, Bool.true_or, if_pos rfl, clear_single]
        rintro (text | off)
        · cases text
        · cases off
    | false =>
        cases sends with
        | false => exact ⟨fun _ => nofun, fun _ => nofun⟩
        | true =>
            exact ⟨fun clear => absurd (.inr rfl) (clear _ List.mem_cons_self),
              fun other => absurd rfl (other rfl)⟩

/-- What Go sends has no blank. -/
theorem go_clear (op : Operation) : Clear (op.object .go) := by
  have text (k : String) (t : Option String) : Clear (textMember false k t) :=
    (clear_text_iff false k t).mpr nofun
  have flag (k : String) (given : Option Bool) : Clear (flagMember false k given) :=
    (clear_flag_iff false k given).mpr nofun
  cases op with
  | query sql params | exec sql params =>
      simp only [Operation.object, clear_append]
      exact ⟨⟨clear_op (by decide), text _ _⟩, clear_params params⟩
  | snapshot filename sqlite timestamp =>
      simp only [Operation.object, clear_append]
      exact ⟨⟨⟨clear_op (by decide), text _ _⟩, flag _ _⟩, flag _ _⟩
  | load path => exact (clear_append _ _).mpr ⟨clear_op (by decide), text _ _⟩
  | schema table => exact (clear_append _ _).mpr ⟨clear_op (by decide), text _ _⟩
  | dump pattern => exact (clear_append _ _).mpr ⟨clear_op (by decide), text _ _⟩
  | inspect | tables | overwrite | close => exact clear_op (by decide)

/-- What Java sends has a blank exactly when something that is given is blank. -/
theorem java_clear_iff (op : Operation) : Clear (op.object .java) ↔ op.Plain := by
  have op_iff {k : String} {P : Prop} (named : k ≠ "") : Clear (opMember k) ∧ P ↔ P :=
    and_iff_right (clear_op named)
  have given (s : String) : some s ≠ some "" ↔ s ≠ "" := not_congr Option.some_inj
  cases op with
  | query sql params | exec sql params =>
      simp only [Operation.object, clear_append, clear_text_iff, Rules.java, given, Operation.Plain,
        and_iff_left (clear_params params), forall_const]
      exact op_iff (by decide)
  | snapshot filename sqlite timestamp =>
      simp only [Operation.object, clear_append, clear_text_iff, clear_flag_iff, Rules.java,
        Operation.Plain, forall_const, and_assoc]
      exact op_iff (by decide)
  | load path =>
      simp only [Operation.object, clear_append, clear_text_iff, Rules.java, given, Operation.Plain,
        forall_const]
      exact op_iff (by decide)
  | schema table | dump pattern =>
      simp only [Operation.object, clear_append, clear_text_iff, Rules.java, Operation.Plain,
        forall_const]
      exact op_iff (by decide)
  | inspect | tables | overwrite | close => exact iff_of_true (clear_op (by decide)) trivial

theorem filled_eq {object : WireObject} (clear : Clear object) : filled object = object :=
  List.filter_eq_self.mpr fun m inside => decide_eq_true (clear m inside)

theorem textMember_sublist (sends : Bool) (k : String) (text : Option String) :
    (textMember sends k text).Sublist (textMember true k text) := by
  cases text with
  | none => exact .slnil
  | some s =>
      have whole : textMember true k (some s) = [(k, .text s.toList)] := if_neg (by simp)
      rw [whole, textMember]
      split
      · exact List.nil_sublist _
      · exact List.Sublist.refl _

theorem flagMember_sublist (sends : Bool) (k : String) (given : Option Bool) :
    (flagMember sends k given).Sublist (flagMember true k given) := by
  rcases given with _ | on
  · exact .slnil
  · have whole : flagMember true k (some on) = [(k, .flag on)] := if_pos (by simp)
    rw [whole, flagMember]
    split
    · exact List.Sublist.refl _
    · exact List.nil_sublist _

/-- Java leaves out nothing that another driver sends. -/
theorem object_sublist (r : Rules) (op : Operation) : (op.object r).Sublist (op.object .java) := by
  have head (k : String) : (opMember k).Sublist (opMember k) := List.Sublist.refl _
  cases op with
  | query sql params | exec sql params =>
      exact ((head _).append (textMember_sublist _ _ _)).append (List.Sublist.refl _)
  | snapshot filename sqlite timestamp =>
      exact (((head _).append (textMember_sublist _ _ _)).append (flagMember_sublist _ _ _)).append
        (flagMember_sublist _ _ _)
  | load path => exact (head _).append (textMember_sublist _ _ _)
  | schema table | dump pattern => exact (head _).append (textMember_sublist _ _ _)
  | inspect | tables | overwrite | close => exact head _

/-- The four objects are the same where nothing that is given is blank, and only there. -/
theorem objects_agree_iff (op : Operation) :
    SameMembers (op.object .rust) (op.object .typeScript) ∧
        SameMembers (op.object .rust) (op.object .go) ∧
        SameMembers (op.object .rust) (op.object .java) ↔ op.Plain := by
  constructor
  · rintro ⟨_, go, java⟩
    exact (java_clear_iff op).mp fun m inside => go_clear op m ((go m).mp ((java m).mpr inside))
  · intro plain
    have clear := (java_clear_iff op).mpr plain
    have same (r r' : Rules) : op.object r = op.object r' := by
      have within (r : Rules) : Clear (op.object r) :=
        fun m inside => clear m ((object_sublist r op).subset inside)
      rw [← filled_eq (within r), ← filled_eq (within r'), filled_object r r']
    refine ⟨fun m => ?_, fun m => ?_, fun m => ?_⟩
    · rw [same .rust .typeScript]
    · rw [same .rust .go]
    · rw [same .rust .java]

/-! ## Runtimes that print so -/

/-- `1.5` as all four print it, and any other double as its bits with a point. -/
def sampleText (bits : UInt64) : List Char :=
  if bits = 0x3FF8000000000000 then "1.5".toList
  else if bits = 0x8000000000000000 then "-0.0".toList
  else (toString (bits.toNat : Int)).toList ++ ['.', '0']

def sampleNearest (cs : List Char) : UInt64 :=
  if cs = "1.5".toList then 0x3FF8000000000000
  else if cs = "-0.0".toList then 0x8000000000000000
  else UInt64.ofNat ((Decimal.parseInt? cs.dropLast.dropLast).getD 0).toNat

def sampleJdk : Java.Codec.Jdk where
  doubleToString d := Utf16.encode (sampleText d.bits)
  base64 b := Utf16.encode ((Base64.encode b).map Char.ofNat)

theorem sampleText_spec (bits : UInt64) : Number (sampleText bits) ∧ '.' ∈ sampleText bits ∧
    sampleNearest (sampleText bits) = bits := by
  have fraction {d : Char} (digit : Rfc8259.isDigit d = true) : Rfc8259.FracPart ['.', d] :=
    .point (List.cons_ne_nil d []) (List.forall_mem_singleton.mpr digit)
  by_cases first : bits = 0x3FF8000000000000
  · subst first
    have whole : Rfc8259.IntPart ['1'] := .digits rfl (by decide) nofun
    exact ⟨.mk .absent whole (fraction (d := '5') rfl) .absent, by decide, by decide⟩
  · by_cases zero : bits = 0x8000000000000000
    · subst zero
      exact ⟨.mk .minus .zero (fraction (d := '0') rfl) .absent, by decide, by decide⟩
    · have printed : sampleText bits = (toString (bits.toNat : Int)).toList ++ ['.', '0'] := by
        rw [sampleText, if_neg first, if_neg zero]
      have cut : ((toString (bits.toNat : Int)).toList ++ ['.', '0']).dropLast.dropLast =
          (toString (bits.toNat : Int)).toList := by simp
      have notFirst : (toString (bits.toNat : Int)).toList ++ ['.', '0'] ≠ "1.5".toList := by
        intro same
        have last := congrArg List.getLast? same
        rw [List.getLast?_append] at last
        have letters : '0' = '5' := Option.some.inj last
        exact absurd letters (by decide)
      have notZero : (toString (bits.toNat : Int)).toList ++ ['.', '0'] ≠ "-0.0".toList := by
        intro same
        have digits : (toString (bits.toNat : Int)).toList = ['-', '0'] := by
          rw [← cut, same]
          rfl
        have value := Decimal.parseInt?_toString (bits.toNat : Int)
        have signed : Decimal.parseInt? ['-', '0'] = some 0 := by decide
        rw [digits, signed] at value
        rw [← Option.some.inj value] at digits
        exact absurd digits (by decide)
      rw [printed]
      refine ⟨Decimal.number_suffix (Decimal.toString_number _) (Decimal.toString_not_real _),
        by simp, ?_⟩
      rw [sampleNearest, if_neg notFirst, if_neg notZero, cut, Decimal.parseInt?_toString,
        Option.getD_some, Int.toNat_natCast, UInt64.ofNat_toNat]

theorem sample_shows (bits : UInt64) : Shows sampleNearest (sampleText bits) bits := by
  obtain ⟨number, pointed, rounded⟩ := sampleText_spec bits
  have marked : (sampleText bits).any Decimal.isRealMark = true :=
    List.any_eq_true.mpr ⟨'.', pointed, rfl⟩
  exact ⟨number, fun _ => rounded, fun unmarked => absurd (marked.symm.trans unmarked) (by decide)⟩

def sampleDebug : Rust.FloatText := ⟨fun f => String.ofList (sampleText f.bits), fun _ => none⟩

def sampleNumbers : TypeScript.NumberText :=
  ⟨fun v => sampleText v.bits, fun cs => ⟨sampleNearest cs⟩⟩

def sampleGo : Go.Strconv :=
  ⟨fun f => sampleText f.bits, fun cs => (⟨sampleNearest cs⟩, none), Go.ascii, fun _ => []⟩

theorem sample_prints : Prints sampleNearest sampleDebug sampleNumbers sampleGo sampleJdk where
  rust f _ := by
    change Shows sampleNearest (String.ofList (sampleText f.bits)).toList f.bits
    rw [String.toList_ofList]
    exact sample_shows f.bits
  typeScript v _ _ := sample_shows v.bits
  minusZero := by decide
  go f _ := sample_shows f.bits
  java d _ := ⟨sampleText d.bits, (sampleText_spec d.bits).1, (sampleText_spec d.bits).2.1, rfl,
    (sampleText_spec d.bits).2.2⟩
  base64 _ := rfl

end SanDbOxFormal.Protocol
