import SanDbOxFormal.Rust.Codec.ValueRoundTrip
import SanDbOxFormal.Rust.Request
import SanDbOxFormal.Rust.Transport.LineFramer

/-!
# Requests on the wire

A request line holds one newline, its last byte, whatever strings the request
carries.  However the lines are cut into chunks, the framer gives them back one
by one, and each parses to the object it was written from.
-/

namespace SanDbOxFormal.Rust

open SanDbOxFormal.Library
open SanDbOxFormal.Library.Rfc8259 (Json)
open SanDbOxFormal.Library.Segments
open SanDbOxFormal.Rust.Codec
open SanDbOxFormal.Rust.Transport (newline maxLineBytes LineFramer)

variable {std : FloatText}

/-! ## Every request is a tree of numerals -/

theorem encodeValue_numerals (tokens : Tokens std) {v : Value} {j : Json}
    (encoded : encodeValue std v = .ok j) : Json.Numerals j := by
  cases v with
  | null =>
      cases encoded
      trivial
  | integer i =>
      cases encoded
      exact Decimal.toString_number i.toInt
  | real f =>
      rw [encodeValue] at encoded
      cases finite : f.isFinite with
      | true =>
          rw [finite] at encoded
          cases encoded
          exact tokens f finite
      | false =>
          rw [finite] at encoded
          cases encoded
  | text s =>
      cases encoded
      trivial
  | blob b =>
      cases encoded
      exact ⟨trivial, trivial⟩

theorem encodeItems_numerals (tokens : Tokens std) {values : List Value} {i : Nat}
    {items : List Json} (encoded : encodeItems std i values = .ok items) :
    Json.NumeralsItems items := by
  induction values generalizing i items with
  | nil =>
      cases encoded
      trivial
  | cons v rest ih =>
      rw [encodeItems] at encoded
      cases first : encodeValue std v with
      | error e =>
          rw [first] at encoded
          cases encoded
      | ok j =>
          cases more : encodeItems std (i + 1) rest with
          | error e =>
              rw [first, more] at encoded
              cases encoded
          | ok tail =>
              rw [first, more] at encoded
              cases encoded
              exact ⟨encodeValue_numerals tokens first, ih more⟩

theorem encodeParams_numerals (tokens : Tokens std) {values : List Value} {p : Option Json}
    (encoded : encodeParams std values = .ok p) : ∀ j ∈ p, Json.Numerals j := by
  rw [encodeParams] at encoded
  split at encoded
  · cases encoded
    intro j inside
    cases inside
  · cases items : encodeItems std 0 values with
    | error e =>
        rw [items] at encoded
        cases encoded
    | ok list =>
        rw [items] at encoded
        cases encoded
        intro j inside
        cases inside
        exact encodeItems_numerals tokens items

theorem numeralsPairs_append {first second : List (String × Json)}
    (hfirst : Json.NumeralsPairs first) (hsecond : Json.NumeralsPairs second) :
    Json.NumeralsPairs (first ++ second) := by
  induction first with
  | nil => exact hsecond
  | cons pair rest ih => exact ⟨hfirst.1, ih hfirst.2⟩

theorem numeralsPairs_optional {key : String} {value : Option Json}
    (numerals : ∀ j ∈ value, Json.Numerals j) : Json.NumeralsPairs (optional key value) := by
  cases value with
  | none => trivial
  | some j => exact ⟨numerals j rfl, trivial⟩

theorem numeralsPairs_str (key : String) (value : Option String) :
    Json.NumeralsPairs (optional key (value.map Json.str)) := by
  cases value with
  | none => trivial
  | some s => exact ⟨trivial, trivial⟩

theorem numeralsPairs_flag (key : String) (on : Bool) : Json.NumeralsPairs (flag key on) := by
  cases on with
  | true => exact ⟨trivial, trivial⟩
  | false => trivial

theorem sqlFields_numerals (tokens : Tokens std) {op sql : String} {params : List Value}
    {object : List (String × Json)} (built : sqlFields std op sql params = .ok object) :
    Json.NumeralsPairs object := by
  rw [sqlFields] at built
  cases encoded : encodeParams std params with
  | error e =>
      rw [encoded] at built
      cases built
  | ok p =>
      rw [encoded] at built
      cases built
      exact ⟨trivial, trivial, numeralsPairs_optional (encodeParams_numerals tokens encoded)⟩

theorem fields_numerals (tokens : Tokens std) {request : Request} {object : List (String × Json)}
    (built : request.fields std = .ok object) : Json.Numerals (.object object) := by
  cases request with
  | query sql params => exact sqlFields_numerals tokens built
  | exec sql params => exact sqlFields_numerals tokens built
  | snapshot opts =>
      cases built
      exact ⟨trivial, numeralsPairs_append (numeralsPairs_append (numeralsPairs_str _ _)
        (numeralsPairs_flag _ _)) (numeralsPairs_flag _ _)⟩
  | load path =>
      cases built
      exact ⟨trivial, trivial, trivial⟩
  | inspect =>
      cases built
      exact ⟨trivial, trivial⟩
  | tables =>
      cases built
      exact ⟨trivial, trivial⟩
  | schema table =>
      cases built
      exact ⟨trivial, numeralsPairs_str _ _⟩
  | dump pattern =>
      cases built
      exact ⟨trivial, numeralsPairs_str _ _⟩
  | overwrite =>
      cases built
      exact ⟨trivial, trivial⟩
  | close =>
      cases built
      exact ⟨trivial, trivial⟩

/-! ## Lines -/

/-- A request line without its newline. -/
def content (object : List (String × Json)) : List UInt8 :=
  Utf8.bytes (Json.write (.object object))

theorem encodeRequestLine_eq (object : List (String × Json)) :
    encodeRequestLine object = content object ++ [newline] := by
  have last : Utf8.bytes ((Json.write (.object object)).push '\n') =
      Utf8.bytes (Json.write (.object object)) ++ [newline] := by
    rw [Utf8.bytes_eq_encode, String.toList_push, Utf8.encode_append, ← Utf8.bytes_eq_encode]
    rfl
  exact last

theorem newline_not_mem_content {object : List (String × Json)}
    (numerals : Json.Numerals (.object object)) : newline ∉ content object := by
  intro inside
  rw [content, Utf8.bytes_eq_encode] at inside
  have raw : '\n' ∈ (Json.write (.object object)).toList :=
    (Utf8.mem_encode_ascii (c := '\n') (by decide) _).mp inside
  exact absurd ((Json.write_text numerals).2 '\n' raw) (by decide)

theorem mapM_fields_mem {requests : List Request} {objects : List (List (String × Json))}
    (built : requests.mapM (Request.fields std) = .ok objects) :
    ∀ object ∈ objects, ∃ request : Request, request.fields std = .ok object := by
  induction requests generalizing objects with
  | nil =>
      cases built
      intro object inside
      cases inside
  | cons request rest ih =>
      rw [List.mapM_cons] at built
      cases first : request.fields std with
      | error e =>
          rw [first] at built
          cases built
      | ok head =>
          cases more : rest.mapM (Request.fields std) with
          | error e =>
              rw [first, more] at built
              cases built
          | ok tail =>
              rw [first, more] at built
              cases built
              intro object inside
              rcases List.mem_cons.mp inside with rfl | later
              · exact ⟨request, first⟩
              · exact ih more object later

/-- The stream of request lines is the frame of their contents. -/
theorem stream_eq_frame (objects : List (List (String × Json))) :
    objects.flatMap encodeRequestLine = frame newline (objects.map content) := by
  have each : encodeRequestLine = fun object => content object ++ [newline] :=
    funext encodeRequestLine_eq
  rw [frame, List.flatMap_map, each]

theorem frame_bounded {contents : List (List UInt8)}
    (clean : ∀ c ∈ contents, newline ∉ c) (short : ∀ c ∈ contents, c.length ≤ maxLineBytes) :
    Bounded newline maxLineBytes (frame newline contents) := by
  refine ⟨?_, ?_⟩
  · rw [complete_frame clean]
    exact short
  · rw [remainder_frame clean]
    exact Nat.zero_le _

/-- Every request line ends with its only newline; and however the lines are cut
into chunks, as long as none is over the limit, the framer yields one line for
each request, in order, that parses to the object of the request. -/
theorem requests_framed (std : FloatText) (laws : std.Lawful) (requests : List Request)
    (objects : List (List (String × Json)))
    (built : requests.mapM (Request.fields std) = .ok objects) :
    (∀ object ∈ objects, ∃ line, encodeRequestLine object = line ++ [newline] ∧ newline ∉ line) ∧
    (∀ chunks : List (List UInt8), chunks.flatten = objects.flatMap encodeRequestLine →
      (∀ object ∈ objects, (encodeRequestLine object).length ≤ maxLineBytes + 1) →
      ∃ lines f, LineFramer.feed LineFramer.new chunks = .ok (lines, f) ∧
        lines.map Json.parse = objects.map fun object => .ok (.object object)) := by
  have numerals : ∀ object ∈ objects, Json.Numerals (.object object) := by
    intro object inside
    obtain ⟨request, made⟩ := mapM_fields_mem built object inside
    exact fields_numerals (tokens_of_lawful laws) made
  refine ⟨fun object inside => ?_, fun chunks stream short => ?_⟩
  · exact ⟨content object, encodeRequestLine_eq object,
      newline_not_mem_content (numerals object inside)⟩
  · have clean : ∀ c ∈ objects.map content, newline ∉ c := by
      intro c inside
      obtain ⟨object, member, rfl⟩ := List.mem_map.mp inside
      exact newline_not_mem_content (numerals object member)
    have sized : ∀ c ∈ objects.map content, c.length ≤ maxLineBytes := by
      intro c inside
      obtain ⟨object, member, rfl⟩ := List.mem_map.mp inside
      have size := short object member
      rw [encodeRequestLine_eq, List.length_append, List.length_singleton] at size
      exact Nat.le_of_succ_le_succ size
    have bounded : Bounded newline maxLineBytes (LineFramer.new.buf ++ chunks.flatten) := by
      rw [stream, stream_eq_frame]
      exact frame_bounded clean sized
    obtain ⟨f, fed, _⟩ := LineFramer.feed_spec (f := LineFramer.new) List.not_mem_nil bounded
    rw [stream, stream_eq_frame] at fed
    have lines : complete newline (LineFramer.new.buf ++ frame newline (objects.map content)) =
        objects.map content := complete_frame clean
    rw [lines] at fed
    refine ⟨objects.map content, f, fed, ?_⟩
    rw [List.map_map]
    exact List.map_congr_left fun object inside => Json.parse_write (numerals object inside)

/-- A query with a newline in its text and a REAL, then a close, cut in the
middle of the first line. -/
theorem requests_framed_sample :
    let first := [opField "query", ("sql", Json.str "SELECT ?\n;"),
      ("params", .array [.number ⟨"1.5"⟩])]
    let stream := [first, [opField "close"]].flatMap encodeRequestLine
    (∀ object ∈ [first, [opField "close"]],
      ∃ line, encodeRequestLine object = line ++ [newline] ∧ newline ∉ line) ∧
    ∃ lines f, LineFramer.feed LineFramer.new [stream.take 9, stream.drop 9] = .ok (lines, f) ∧
      lines.map Json.parse = [.ok (.object first), .ok (.object [opField "close"])] := by
  intro first stream
  have framed := requests_framed sampleFloatText sampleFloatText_lawful
    [.query "SELECT ?\n;" [.real ⟨0x3FF8000000000000⟩], .close] [first, [opField "close"]] rfl
  refine ⟨framed.1, framed.2 [stream.take 9, stream.drop 9] ?_ ?_⟩
  · rw [List.flatten_cons, List.flatten_cons, List.flatten_nil, List.append_nil,
      List.take_append_drop]
  · decide +kernel

end SanDbOxFormal.Rust
