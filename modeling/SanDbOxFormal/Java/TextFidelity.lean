import SanDbOxFormal.Java.Calls
import SanDbOxFormal.Java.Codec.Written
import SanDbOxFormal.Library.JsonUnits
import SanDbOxFormal.Protocol.RequestAgreement

/-!
# The texts of the Java driver

What becomes of a string whose surrogates are not paired on its way out, and of bytes
that are no UTF-8 on their way in.
-/

namespace SanDbOxFormal.Java

open SanDbOxFormal.Library
open SanDbOxFormal.Library.JsonReader (Among Tree Writes strictUnits)
open SanDbOxFormal.Java.Codec.JsonParser (Stop nats treeOf treesOf membersOf)

namespace Codec

/-! ## The strings of a tree -/

mutual

/-- Keys are among them. -/
def Json.strings : Json → List JString
  | .str s => [s]
  | .arr items => itemsStrings items
  | .obj members => membersStrings members
  | _ => []

def itemsStrings : List Json → List JString
  | [] => []
  | v :: rest => v.strings ++ itemsStrings rest

def membersStrings : List (JString × Json) → List JString
  | [] => []
  | (key, v) :: rest => key :: (v.strings ++ membersStrings rest)

end

mutual

theorem strings_treeOf : ∀ v : Json, (treeOf v).strings = v.strings.map nats
  | .null | .bool _ | .num _ | .str _ => rfl
  | .arr items => itemsStrings_treesOf items
  | .obj members => membersStrings_membersOf members

theorem itemsStrings_treesOf : ∀ vs : List Json,
    JsonReader.itemsStrings (treesOf vs) = (itemsStrings vs).map nats
  | [] => rfl
  | v :: rest => by
      rw [treesOf, JsonReader.itemsStrings, strings_treeOf v, itemsStrings_treesOf rest, itemsStrings, List.map_append]

theorem membersStrings_membersOf : ∀ ms : List (JString × Json),
    JsonReader.membersStrings (membersOf ms) = (membersStrings ms).map nats
  | [] => rfl
  | (key, v) :: rest => by
      rw [membersOf, JsonReader.membersStrings, strings_treeOf v, membersStrings_membersOf rest, membersStrings,
        List.map_cons, List.map_append]

end

/-- Every string among these is well-formed UTF-16. -/
def AllWhole (strings : List JString) : Prop := ∀ s ∈ strings, Utf16.Whole s

@[simp] theorem allWhole_nil : AllWhole [] := fun _ inside => (by cases inside)

@[simp] theorem allWhole_cons {s : JString} {rest : List JString} :
    AllWhole (s :: rest) ↔ Utf16.Whole s ∧ AllWhole rest := List.forall_mem_cons

@[simp] theorem allWhole_append {ss ts : List JString} : AllWhole (ss ++ ts) ↔ AllWhole ss ∧ AllWhole ts :=
  List.forall_mem_append

mutual

/-- A tree is sent as it is if its strings are. -/
theorem asSent_tree_iff : ∀ v : Json, v.asSent = v ↔ AllWhole v.strings
  | .null | .bool _ | .num _ => ⟨fun _ => allWhole_nil, fun _ => rfl⟩
  | .str s => by
      rw [Json.asSent, Json.strings, Json.str.injEq, asSent_eq_iff]
      simp
  | .arr items => by
      rw [Json.asSent, Json.strings, Json.arr.injEq, asSentItems_iff items]
  | .obj members => by
      rw [Json.asSent, Json.strings, Json.obj.injEq, asSentMembers_iff members]

theorem asSentItems_iff : ∀ vs : List Json, asSentItems vs = vs ↔ AllWhole (itemsStrings vs)
  | [] => ⟨fun _ => allWhole_nil, fun _ => rfl⟩
  | v :: rest => by
      rw [asSentItems, itemsStrings, List.cons.injEq, asSent_tree_iff v, asSentItems_iff rest, allWhole_append]

theorem asSentMembers_iff : ∀ ms : List (JString × Json), asSentMembers ms = ms ↔ AllWhole (membersStrings ms)
  | [] => ⟨fun _ => allWhole_nil, fun _ => rfl⟩
  | (key, v) :: rest => by
      rw [asSentMembers, membersStrings, List.cons.injEq, Prod.mk.injEq, asSent_eq_iff, asSent_tree_iff v,
        asSentMembers_iff rest, allWhole_cons, allWhole_append, and_assoc]

end

/-! ## Requests -/

/-- A finite `double` is printed as a number with a point, and Base64 is a text. -/
structure Jdk.Prints (jdk : Jdk) : Prop where
  double : ∀ d : Double, d.isFinite = true →
    ∃ cs, Rfc8259.Number cs ∧ '.' ∈ cs ∧ jdk.doubleToString d = Utf16.encode cs
  base64 : ∀ bytes, Utf16.Whole (jdk.base64 bytes)

theorem Jdk.Prints.of_prints {nearest : List Char → UInt64} {debug : Rust.FloatText}
    {numbers : TypeScript.NumberText} {strconv : Go.Strconv} {jdk : Jdk}
    (prints : Protocol.Prints nearest debug numbers strconv jdk) : jdk.Prints where
  double d finite := by
    obtain ⟨cs, number, pointed, printed, _⟩ := prints.java d finite
    exact ⟨cs, number, pointed, printed⟩
  base64 b := ⟨_, prints.base64 b⟩

def Param.texts : Param → List JString
  | .string s => [s]
  | _ => []

/-- The texts that the caller gives. -/
def Request.texts : Request → List JString
  | .query sql params | .exec sql params => sql.toList ++ params.flatMap Param.texts
  | .snapshot opts => (opts.bind SnapshotOptions.filename).toList
  | .load path => path.toList
  | .schema table => table.toList
  | .dump pattern => pattern.toList
  | .inspect | .tables | .overwrite | .close => []

/-- A tree that is sent as it is exactly if these texts are. -/
structure Carries (v : Json) (texts : List JString) : Prop where
  numeric : Numeric v
  whole : AllWhole v.strings ↔ AllWhole texts

/-- So are these members. -/
structure CarryAll (members : List (JString × Json)) (texts : List JString) : Prop where
  numeric : ∀ m ∈ members, Numeric m.2
  whole : AllWhole (membersStrings members) ↔ AllWhole texts

theorem membersStrings_append (first second : List (JString × Json)) :
    membersStrings (first ++ second) = membersStrings first ++ membersStrings second := by
  induction first with
  | nil => rfl
  | cons m rest ih =>
      obtain ⟨key, v⟩ := m
      simp [membersStrings, ih]

theorem CarryAll.append {first second : List (JString × Json)} {ss ts : List JString} (one : CarryAll first ss)
    (two : CarryAll second ts) : CarryAll (first ++ second) (ss ++ ts) := by
  refine ⟨List.forall_mem_append.mpr ⟨one.numeric, two.numeric⟩, ?_⟩
  rw [membersStrings_append, allWhole_append, allWhole_append]
  exact and_congr one.whole two.whole

theorem CarryAll.single {key : JString} {v : Json} {texts : List JString} (ascii : Utf16.Whole key)
    (carries : Carries v texts) : CarryAll [(key, v)] texts := by
  refine ⟨List.forall_mem_singleton.mpr carries.numeric, ?_⟩
  simpa [membersStrings, ascii] using carries.whole

theorem lit_whole {word : String} (narrow : word.toList.all (fun c => c.toNat < 0x80) = true) :
    Utf16.Whole (lit word) := ⟨word.toList, Utf16.encode_narrow narrow⟩

theorem op_carries {k : String} (narrow : k.toList.all (fun c => c.toNat < 0x80) = true) :
    CarryAll [opMember k] [] := by
  refine .single (lit_whole rfl) ⟨.str _, ?_⟩
  simp [Json.strings, lit_whole narrow]

theorem field_carries {α : Type} {k : String} (narrow : k.toList.all (fun c => c.toNat < 0x80) = true)
    (value : Option α) {f : α → Json} {g : α → List JString} (carries : ∀ a, Carries (f a) (g a)) :
    CarryAll (field k (value.map f)) (value.toList.flatMap g) := by
  cases value with
  | none => exact ⟨fun m inside => (by cases inside), Iff.rfl⟩
  | some a =>
      have one := CarryAll.single (lit_whole narrow) (carries a)
      simpa [field] using one

theorem str_carries (s : JString) : Carries (.str s) [s] := ⟨.str s, Iff.rfl⟩

theorem bool_carries (b : Bool) : Carries (.bool b) [] := ⟨.bool b, Iff.rfl⟩

theorem text_carries {k : String} (narrow : k.toList.all (fun c => c.toNat < 0x80) = true)
    (value : Option JString) : CarryAll (field k (value.map .str)) value.toList := by
  simpa using field_carries narrow value str_carries

theorem integer_numeric (n : ℤ) : Numeric (.num (lit (toString n))) := by
  have number := Decimal.toString_number n
  have narrow : (toString n).toList.all (fun c => c.toNat < 0x80) = true :=
    List.all_eq_true.mpr fun c inside => decide_eq_true (JsonReader.number_ascii number c inside).2
  rw [lit, Utf16.encode_narrow narrow]
  exact .num number

theorem param_carries {jdk : Jdk} (prints : jdk.Prints) {p : Param} {v : Json} (encoded : encodeValue jdk p = .ok v) :
    Carries v p.texts := by
  cases p with
  | null =>
      cases encoded
      exact ⟨.null, Iff.rfl⟩
  | long n =>
      cases encoded
      exact ⟨integer_numeric _, Iff.rfl⟩
  | integer n =>
      cases encoded
      exact ⟨integer_numeric _, Iff.rfl⟩
  | double d =>
      rw [encodeValue] at encoded
      split at encoded
      · cases encoded
      · rename_i finite
        rw [Bool.not_eq_true', Bool.not_eq_false] at finite
        obtain ⟨cs, number, pointed, printed⟩ := prints.double d finite
        cases encoded
        rw [Protocol.java_realToken pointed printed]
        exact ⟨.num number, Iff.rfl⟩
  | string s =>
      cases encoded
      exact str_carries s
  | bytes b =>
      cases encoded
      refine ⟨.arr (List.forall_mem_singleton.mpr (.str _)), ?_⟩
      simp [Json.strings, itemsStrings, Param.texts, prints.base64 b]
  | other className => cases encoded

theorem params_carry {jdk : Jdk} (prints : jdk.Prints) {params : List Param} {i : ℕ} {items : List Json}
    (encoded : encodeItems jdk i params = .ok items) : Carries (.arr items) (params.flatMap Param.texts) := by
  induction params generalizing i items with
  | nil =>
      cases encoded
      exact ⟨.arr fun item inside => (by cases inside), Iff.rfl⟩
  | cons p rest ih =>
      simp only [encodeItems, bind_ok_iff] at encoded
      obtain ⟨item, first, others, more, same⟩ := encoded
      cases same
      have front := param_carries prints (mapError_ok_iff.mp first)
      obtain ⟨numeric, whole⟩ := ih more
      refine ⟨.arr ?_, ?_⟩
      · cases numeric with
        | arr each => exact List.forall_mem_cons.mpr ⟨front.numeric, each⟩
      · rw [List.flatMap_cons, allWhole_append, ← front.whole, ← whole, ← allWhole_append]
        rfl

theorem sql_carries {jdk : Jdk} (prints : jdk.Prints) {op : String}
    (narrow : op.toList.all (fun c => c.toNat < 0x80) = true) {sql : Option JString} {params : List Param}
    {members : List (JString × Json)} (built : sqlMembers jdk op sql params = .ok members) :
    CarryAll members (sql.toList ++ params.flatMap Param.texts) := by
  simp only [sqlMembers, bind_ok_iff] at built
  obtain ⟨given, encoded, same⟩ := built
  cases same
  have named := (op_carries narrow).append (text_carries (k := "sql") rfl sql)
  rw [encodeParams] at encoded
  split at encoded
  · rename_i none
    cases encoded
    rw [List.isEmpty_iff.mp none]
    exact named.append ⟨fun m inside => (by cases inside), Iff.rfl⟩
  · simp only [bind_ok_iff] at encoded
    obtain ⟨items, listed, same⟩ := encoded
    cases same
    exact named.append (.single (lit_whole rfl) (params_carry prints listed))

theorem members_carry {jdk : Jdk} (prints : jdk.Prints) {request : Request} {members : List (JString × Json)}
    (built : request.members jdk = .ok members) : CarryAll members request.texts := by
  cases request with
  | query sql params => exact sql_carries prints rfl built
  | exec sql params => exact sql_carries prints rfl built
  | snapshot opts =>
      cases opts with
      | none =>
          cases built
          exact op_carries rfl
      | some o =>
          cases built
          have nowhere (b : Option Bool) : b.toList.flatMap (fun _ => ([] : List JString)) = [] := by cases b <;> rfl
          have all := (((op_carries (k := "snapshot") rfl).append (text_carries (k := "filename") rfl o.filename)).append
            (field_carries (k := "sqlite") rfl o.sqlite bool_carries)).append
            (field_carries (k := "timestamp") rfl o.timestamp bool_carries)
          simpa [Request.texts, nowhere] using all
  | load path =>
      cases built
      exact (op_carries rfl).append (text_carries rfl path)
  | schema table =>
      cases built
      exact (op_carries rfl).append (text_carries rfl table)
  | dump pattern =>
      cases built
      exact (op_carries rfl).append (text_carries rfl pattern)
  | inspect =>
      cases built
      exact op_carries rfl
  | tables =>
      cases built
      exact op_carries rfl
  | overwrite =>
      cases built
      exact op_carries rfl
  | close =>
      cases built
      exact op_carries rfl

/-- What is written for a request is the UTF-8 of a text that denotes its object with every lone surrogate replaced;
it is the object itself exactly if every text that was given is well-formed UTF-16. -/
theorem request_texts_sent {jdk : Jdk} (prints : jdk.Prints) {request : Request} {line : List UInt8}
    (built : request.line jdk = .ok line) : ∃ members cs n, request.members jdk = .ok members ∧ line = Utf8.encode cs ∧
      Writes strictUnits n (JsonUtf16.units cs) (treeOf (Json.obj members).asSent) ∧
      ((Json.obj members).asSent = .obj members ↔ ∀ s ∈ request.texts, Utf16.Whole s) := by
  cases listed : request.members jdk with
  | error e =>
      rw [Request.line, listed] at built
      cases built
  | ok members =>
      rw [Request.line, listed] at built
      cases built
      have carried := members_carry prints listed
      obtain ⟨cs, n, bytes, text⟩ := build_denotes carried.numeric
      exact ⟨members, cs, n, rfl, bytes, text, (asSent_tree_iff _).trans carried.whole⟩

theorem sampleJdk_prints : Protocol.sampleJdk.Prints := .of_prints Protocol.sample_prints

/-- A lone surrogate is not sent as it is. -/
theorem request_texts_sent_sample : ∃ members,
    (Request.exec (some [0xD83D]) []).members Protocol.sampleJdk = .ok members ∧
      (Json.obj members).asSent ≠ .obj members := by
  have built : (Request.exec (some [0xD83D]) []).line Protocol.sampleJdk = .ok _ := rfl
  obtain ⟨members, cs, n, listed, _, _, same⟩ := request_texts_sent sampleJdk_prints built
  refine ⟨members, listed, fun kept => ?_⟩
  have whole := (asSent_eq_iff _).mpr (same.mp kept [0xD83D] List.mem_cons_self)
  exact absurd whole (by decide)

/-! ## Responses -/

/-- The texts of what a cell is decoded to. -/
def Value.texts : Value → List JString
  | .string s => [s]
  | _ => []

def Result.texts : Result → List JString
  | .query columns rows => columns ++ rows.flatten.flatMap Value.texts
  | .exec _ _ => []
  | .snapshot path => [path]
  | .inspect _ _ _ source _ => [source]
  | .tables names | .schema names => names
  | .dump sql => [sql]

end Codec

open Codec

/-- The texts of what a call returns or throws, messages of the driver apart. -/
def outcomeTexts : Except Exception (Option Result) → List JString
  | .ok result => result.toList.flatMap Result.texts
  | .error (.response code message) => [code, message]
  | .error _ => []

section Found

variable {v field : Json} {key : String} {s : JString}

theorem get_strings (found : get v key = some field) : ∀ s ∈ field.strings, s ∈ v.strings := by
  cases v with
  | obj members =>
      change (members.find? fun m => m.1 == lit key).map Prod.snd = some field at found
      rw [Json.strings]
      induction members with
      | nil => cases found
      | cons m rest ih =>
          obtain ⟨name, w⟩ := m
          intro s inside
          rw [membersStrings]
          rw [List.find?_cons] at found
          split at found
          · cases found
            exact List.mem_cons_of_mem _ (List.mem_append_left _ inside)
          · exact List.mem_cons_of_mem _ (List.mem_append_right _ (ih found s inside))
  | _ => cases found

theorem get_str_mem (found : get v key = some (.str s)) : s ∈ v.strings :=
  get_strings found s List.mem_cons_self

theorem requiredStr_mem (read : requiredStr v key = .ok s) : s ∈ v.strings :=
  get_str_mem (requiredStr_ok_iff.mp read)

theorem itemsStrings_mem {items : List Json} {item : Json} (among : item ∈ items) :
    ∀ s ∈ item.strings, s ∈ itemsStrings items := by
  induction items with
  | nil => cases among
  | cons first rest ih =>
      intro s inside
      rw [itemsStrings]
      rcases List.mem_cons.mp among with rfl | later
      · exact List.mem_append_left _ inside
      · exact List.mem_append_right _ (ih later s inside)

theorem requiredStrList_mem {texts : List JString} (read : requiredStrList v key = .ok texts) :
    ∀ s ∈ texts, s ∈ v.strings := by
  simp only [requiredStrList, bind_ok_iff, required_ok_iff, orCodec_ok_iff] at read
  obtain ⟨field, found, items, is, mapped⟩ := read
  cases field <;> cases is
  intro s inside
  obtain ⟨item, among, made⟩ := mapM_mem mapped s inside
  rw [orCodec_ok_iff] at made
  cases item <;> cases made
  exact get_strings found s (itemsStrings_mem among s List.mem_cons_self)

end Found

section Decoded

variable {jvm : Jvm} {s : JString}

theorem decodeValue_mem {v : Json} {cell : Value} (decoded : decodeValue jvm v = .ok cell) :
    ∀ s ∈ cell.texts, s ∈ v.strings := by
  intro s inside
  cases cell with
  | string t =>
      cases List.mem_singleton.mp inside
      cases v with
      | str t =>
          cases decoded
          exact List.mem_cons_self
      | num raw =>
          rw [decodeValue] at decoded
          split at decoded
          · cases decoded
          · obtain ⟨n, _, other⟩ := map_ok_iff.mp decoded
            cases other
      | arr items =>
          rw [decodeValue] at decoded
          split at decoded
          · cases decoded
          · simp only [bind_ok_iff] at decoded
            obtain ⟨text, _, bytes⟩ := decoded
            obtain ⟨b, _, other⟩ := map_ok_iff.mp bytes
            cases other
      | _ => cases decoded
  | _ => cases inside

theorem decodeRow_mem {i : ℕ} {row : Json} {cells : List Value} (decoded : decodeRow jvm i row = .ok cells) :
    ∀ s ∈ cells.flatMap Value.texts, s ∈ row.strings := by
  simp only [decodeRow, bind_ok_iff, orCodec_ok_iff] at decoded
  obtain ⟨items, is, mapped⟩ := decoded
  cases row <;> cases is
  intro s inside
  obtain ⟨cell, among, there⟩ := List.mem_flatMap.mp inside
  obtain ⟨item, here, made⟩ := mapM_mem mapped cell among
  exact itemsStrings_mem here s (decodeValue_mem (mapError_ok_iff.mp made) s there)

theorem decodeRowsFrom_mem {i : ℕ} {rows : List Json} {decoded : List (List Value)}
    (read : decodeRowsFrom jvm i rows = .ok decoded) :
    ∀ s ∈ decoded.flatten.flatMap Value.texts, s ∈ itemsStrings rows := by
  induction rows generalizing i decoded with
  | nil =>
      cases read
      intro s inside
      cases inside
  | cons row rest ih =>
      simp only [decodeRowsFrom, bind_ok_iff] at read
      obtain ⟨first, front, others, more, same⟩ := read
      cases same
      intro s inside
      rw [List.flatten_cons, List.flatMap_append] at inside
      rw [itemsStrings]
      rcases List.mem_append.mp inside with here | later
      · exact List.mem_append_left _ (decodeRow_mem front s here)
      · exact List.mem_append_right _ (ih more s later)

/-- Every text of a result is a string of the response. -/
theorem decoder_mem {request : Request} {r : DecodedResponse} {result : Result}
    (decoded : decoder jvm request r = .ok (some result)) : ∀ s ∈ result.texts, s ∈ r.fields.strings := by
  have made {x : Except Stop Result} (returned : some <$> x = .ok (some result)) : x = .ok result := by
    obtain ⟨made, same, is⟩ := map_ok_iff.mp returned
    exact Option.some.inj is ▸ same
  cases request with
  | query sql params =>
      have read := made decoded
      simp only [Decode.query, bind_ok_iff, required_ok_iff] at read
      obtain ⟨columns, named, raw, found, rows, listed, same⟩ := read
      cases same
      refine List.forall_mem_append.mpr ⟨requiredStrList_mem named, fun s inside => ?_⟩
      simp only [decodeRows, bind_ok_iff, orCodec_ok_iff] at listed
      obtain ⟨items, is, read⟩ := listed
      cases raw <;> cases is
      exact get_strings found s (decodeRowsFrom_mem read s inside)
  | exec sql params =>
      have read := made decoded
      simp only [Decode.exec, bind_ok_iff] at read
      obtain ⟨_, _, _, _, same⟩ := read
      cases same
      intro s inside
      cases inside
  | snapshot opts =>
      have read := made decoded
      simp only [Decode.snapshot, bind_ok_iff] at read
      obtain ⟨path, found, same⟩ := read
      cases same
      exact List.forall_mem_singleton.mpr (requiredStr_mem found)
  | inspect =>
      have read := made decoded
      simp only [Decode.inspect, bind_ok_iff] at read
      obtain ⟨_, _, _, _, _, _, source, found, _, _, same⟩ := read
      cases same
      exact List.forall_mem_singleton.mpr (requiredStr_mem found)
  | tables =>
      have read := made decoded
      simp only [Decode.tables, bind_ok_iff] at read
      obtain ⟨names, listed, same⟩ := read
      cases same
      exact requiredStrList_mem listed
  | schema table =>
      have read := made decoded
      simp only [Decode.schema, bind_ok_iff] at read
      obtain ⟨names, listed, same⟩ := read
      cases same
      exact requiredStrList_mem listed
  | dump pattern =>
      have read := made decoded
      simp only [Decode.dump, bind_ok_iff] at read
      obtain ⟨sql, found, same⟩ := read
      cases same
      exact List.forall_mem_singleton.mpr (requiredStr_mem found)
  | _ => cases decoded

theorem responseLine_ok_iff {line : List UInt8} {r : DecodedResponse} : responseLine jvm line = .ok r ↔
    ∃ ms, r = ⟨((get (.obj ms) "ok").bind asBool).getD false, .obj ms⟩ ∧
      Writes strictUnits jvm.stack (nats (jvm.newString line)) (treeOf (.obj ms)) := by
  simp only [responseLine, bind_ok_iff, parseLine_ok_iff]
  constructor
  · rintro ⟨v, text, ⟨⟩, object, same⟩
    obtain ⟨ms, rfl⟩ := requireObject_ok_iff.mp object
    cases same
    exact ⟨ms, rfl, text⟩
  · rintro ⟨ms, rfl, text⟩
    exact ⟨_, text, (), requireObject_ok_iff.mpr ⟨ms, rfl⟩, rfl⟩

theorem reply_ok {line : List UInt8} {r : DecodedResponse} (replied : reply jvm line = .ok r) :
    responseLine jvm line = .ok r := by
  rw [reply] at replied
  cases read : responseLine jvm line with
  | error e =>
      rw [read] at replied
      cases replied
  | ok r' =>
      rw [read] at replied
      dsimp only at replied
      split at replied
      · exact congrArg Except.ok (Except.ok.inj replied)
      · split at replied <;> cases replied

theorem reply_response {line : List UInt8} {code message : JString}
    (replied : reply jvm line = .error (.response code message)) :
    ∃ r, responseLine jvm line = .ok r ∧ responseError? r = some (code, message) := by
  rw [reply] at replied
  cases read : responseLine jvm line with
  | error e =>
      rw [read] at replied
      cases e <;> cases replied
  | ok r =>
      rw [read] at replied
      dsimp only at replied
      split at replied
      · cases replied
      · split at replied
        · rename_i e found
          cases replied
          exact ⟨r, rfl, found⟩
        · cases replied

theorem responseError_mem {r : DecodedResponse} {code message : JString}
    (found : responseError? r = some (code, message)) : code ∈ r.fields.strings ∧ message ∈ r.fields.strings := by
  simp only [responseError?, Option.bind_eq_bind, Option.bind_eq_some_iff] at found
  obtain ⟨err, there, code', ⟨c, one, isCode⟩, message', ⟨m, two, isMessage⟩, same⟩ := found
  cases same
  cases c <;> cases isCode
  cases m <;> cases isMessage
  exact ⟨get_strings there _ (get_str_mem one), get_strings there _ (get_str_mem two)⟩

/-- Every text that a call shows is a string of the object that its line spells. -/
theorem outcome_mem {request : Request} {line : List UInt8} (s : JString)
    (shown : s ∈ outcomeTexts (receive jvm request line)) :
    ∃ r, responseLine jvm line = .ok r ∧ s ∈ r.fields.strings := by
  cases replied : reply jvm line with
  | error e =>
      rw [receive, replied] at shown
      cases e with
      | response code message =>
          obtain ⟨r, read, found⟩ := reply_response replied
          obtain ⟨one, two⟩ := responseError_mem found
          rcases List.mem_pair.mp shown with rfl | rfl
          · exact ⟨r, read, one⟩
          · exact ⟨r, read, two⟩
      | _ => cases shown
  | ok r =>
      refine ⟨r, reply_ok replied, ?_⟩
      cases decoded : decoder jvm request r with
      | error e =>
          have outcome : receive jvm request line = .error (caught "" e) := by
            rw [receive, replied]
            exact congrArg (Except.mapError (caught "")) decoded
          rw [outcome] at shown
          cases e <;> cases shown
      | ok result =>
          have outcome : receive jvm request line = .ok result := by
            rw [receive, replied]
            exact congrArg (Except.mapError (caught "")) decoded
          rw [outcome] at shown
          cases result with
          | none => cases shown
          | some result =>
              rw [outcomeTexts, Option.toList_some, List.flatMap_singleton] at shown
              exact decoder_mem decoded s shown

/-- The texts that a call shows of a line of UTF-8 are strings of the one object that the line denotes, which is taken
whatever it holds; and of any other line that is taken, a string holds the sign for what was no text. -/
theorem response_texts_shown {jvm : Jvm} (lawful : jvm.Lawful) (request : Request) (line : List UInt8) :
    (∀ cs, line = Utf8.encode cs →
      (∀ ms, responseLine jvm line = .ok ⟨((get (.obj ms) "ok").bind asBool).getD false, .obj ms⟩ ↔
        Writes strictUnits jvm.stack (JsonUtf16.units cs) (treeOf (.obj ms))) ∧
      ∀ s ∈ outcomeTexts (receive jvm request line), ∃ t,
        Writes strictUnits jvm.stack (JsonUtf16.units cs) t ∧ nats s ∈ t.strings) ∧
    ((∀ cs, line ≠ Utf8.encode cs) → ∀ r, responseLine jvm line = .ok r → ∃ s ∈ r.fields.strings, 0xFFFD ∈ s) := by
  refine ⟨?_, fun none r read => ?_⟩
  · rintro cs rfl
    have decoded : nats (jvm.newString (Utf8.encode cs)) = JsonUtf16.units cs := congrArg nats (lawful.whole cs)
    refine ⟨fun ms => ?_, fun s shown => ?_⟩
    · rw [responseLine_ok_iff, decoded]
      constructor
      · rintro ⟨ms', same, text⟩
        obtain rfl := Json.obj.inj (congrArg DecodedResponse.fields same)
        exact text
      · exact fun text => ⟨ms, rfl, text⟩
    · obtain ⟨r, read, inside⟩ := outcome_mem s shown
      obtain ⟨ms, rfl, text⟩ := responseLine_ok_iff.mp read
      rw [decoded] at text
      refine ⟨_, text, ?_⟩
      rw [strings_treeOf]
      exact List.mem_map_of_mem inside
  · obtain ⟨ms, rfl, text⟩ := responseLine_ok_iff.mp read
    obtain ⟨us, among, there⟩ := text.beyond (by decide) (List.mem_map_of_mem (lawful.replaced line none))
    rw [strings_treeOf] at among
    obtain ⟨s, inside, rfl⟩ := List.mem_map.mp among
    obtain ⟨u, here, same⟩ := List.mem_map.mp there
    rw [UInt16.toNat_inj.mp same] at here
    exact ⟨s, inside, here⟩

/-- A JDK that puts one sign in for whatever is no text. -/
def replacingJvm : Jvm where
  newString bytes := ((Utf8.decode? bytes).map fun s => Utf16.encode s.toList).getD [0xFFFD]
  parseDouble _ := ⟨0⟩
  base64Fault := id
  stack := 9

theorem replacingJvm_lawful : replacingJvm.Lawful where
  whole cs := by
    have read : Utf8.decode? (Utf8.encode cs) = some (String.ofList cs) :=
      (Utf8.decode?_eq_some_iff _ _).mpr (Utf8.bytes_ofList cs).symm
    simp [replacingJvm, read]
  replaced bytes none := by
    have unread : Utf8.decode? bytes = Option.none := by
      refine Option.eq_none_iff_forall_ne_some.mpr fun s read => none s.toList ?_
      rw [← Utf8.bytes_eq_encode]
      exact (Utf8.decode?_eq_some_iff _ _).mp read
    simp [replacingJvm, unread]

/-- The text of a dump that holds a letter beyond ASCII. -/
def sampleDump : List Char := "\x7b\"ok\":true,\"sql\":\"é\"\x7d".toList

theorem response_texts_shown_sample :
    ∃ t, Writes strictUnits 9 (JsonUtf16.units sampleDump) t ∧ nats [0xE9] ∈ t.strings := by
  have shown : [0xE9] ∈ outcomeTexts (receive replacingJvm (.dump none) (Utf8.encode sampleDump)) := by decide +kernel
  exact ((response_texts_shown replacingJvm_lawful (.dump none) (Utf8.encode sampleDump)).1 sampleDump rfl).2 _ shown

end Decoded

end SanDbOxFormal.Java
