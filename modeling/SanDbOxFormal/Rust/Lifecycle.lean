import SanDbOxFormal.Rust.HelloCheck
import SanDbOxFormal.Rust.RequestFraming
import SanDbOxFormal.Rust.SessionRuns
import SanDbOxFormal.Rust.Transport.Direct
import SanDbOxFormal.Rust.Transport.Socket

/-!
# The life of a session

What a session does to its transport, seen in a log of the calls it makes: a hello
is accepted or the transport is closed at once, and after that the transport is
closed exactly once, by a timeout, a close, an overwrite or the drop, whichever
comes first.
-/

namespace SanDbOxFormal.Rust

open SanDbOxFormal.Library
open SanDbOxFormal.Library.Rfc8259 (Json)
open SanDbOxFormal.Library.Runs
open SanDbOxFormal.Protocol
open SanDbOxFormal.Rust.Codec
open SanDbOxFormal.Rust.Transport

/-! ## Errors that are not timeouts -/

/-- The computation never ends with a timeout. -/
abbrev Timely {α : Type} (x : Except Error α) : Prop := Throws (fun e => ∀ text, e ≠ .timeout text) x

theorem timely_protocol {α : Type} (text : String) : Timely (α := α) (.error (.protocol text)) := by
  apply Throws.error
  intro text' same
  cases same

theorem orProtocol_timely {α : Type} (o : Option α) (text : String) :
    Timely (orProtocol o text) := by
  cases o with
  | none => exact timely_protocol text
  | some a => exact .ok a

theorem atRow_timely {e : Error} {i : Nat} (timely : ∀ text, e ≠ .timeout text) :
    ∀ text, atRow i e ≠ .timeout text := by
  cases e with
  | timeout text => exact absurd rfl (timely text)
  | response code message => simp [atRow]
  | protocol text => simp [atRow]
  | io e => simp [atRow]
  | closed => simp [atRow]

theorem decodeValue_timely (std : FloatText) (v : Json) : Timely (decodeValue std v) := by
  cases v with
  | null => exact .ok _
  | bool b => exact timely_protocol _
  | number n =>
      rw [decodeValue]
      split
      · exact (orProtocol_timely _ _).bind fun f _ => .ok _
      · exact (orProtocol_timely _ _).bind fun i _ => .ok _
  | string s => exact .ok _
  | array items =>
      rw [decodeValue]
      split
      · exact timely_protocol _
      · apply (orProtocol_timely _ _).bind
        intro s _
        split
        · exact .ok _
        · exact timely_protocol _
  | object pairs => exact timely_protocol _

theorem decodeRows_timely (std : FloatText) (raw : Json) : Timely (decodeRows std raw) := by
  have from_ (i : Nat) (rows : List Json) : Timely (decodeRowsFrom std i rows) := by
    induction rows generalizing i with
    | nil => exact .ok []
    | cons row rest ih =>
        rw [decodeRowsFrom]
        have cells : Timely (decodeRow std i row) := by
          apply (orProtocol_timely _ _).bind
          intro cells _
          apply Throws.mapM
          intro v _
          apply Throws.mapError
          exact (decodeValue_timely std v).mono fun e timely => atRow_timely timely
        exact cells.bind fun decoded _ => (ih (i + 1)).bind fun rows _ => .ok _
  exact (orProtocol_timely _ _).bind fun rows _ => from_ 0 rows

theorem required_timely (v : Json) (key : String) : Timely (required v key) :=
  orProtocol_timely _ _

theorem requiredStr_timely (v : Json) (key : String) : Timely (requiredStr v key) :=
  (required_timely v key).bind fun _ _ => orProtocol_timely _ _

theorem requiredBool_timely (v : Json) (key : String) : Timely (requiredBool v key) :=
  (required_timely v key).bind fun _ _ => orProtocol_timely _ _

theorem requiredInt_timely (v : Json) (key : String) : Timely (requiredInt v key) :=
  (required_timely v key).bind fun _ _ =>
    (orProtocol_timely _ _).bind fun _ _ => orProtocol_timely _ _

theorem requiredOptionalInt_timely (v : Json) (key : String) :
    Timely (requiredOptionalInt v key) := by
  apply (required_timely v key).bind
  intro field _
  split
  · exact .ok _
  · exact (orProtocol_timely _ _).bind fun _ _ => (orProtocol_timely _ _).bind fun _ _ => .ok _

theorem requiredStrList_timely (v : Json) (key : String) : Timely (requiredStrList v key) :=
  (required_timely v key).bind fun _ _ => (orProtocol_timely _ _).bind fun _ _ =>
    .mapM fun _ _ => orProtocol_timely _ _

/-- No decoder of a response reports a timeout. -/
theorem decodeAnswer_timely (std : FloatText) (request : Request) (fields : Json) :
    Timely (Session.decodeAnswer std request fields) := by
  cases request with
  | query sql params =>
      apply Throws.map
      exact (requiredStrList_timely _ _).bind fun _ _ => (required_timely _ _).bind fun _ _ =>
        (decodeRows_timely std _).bind fun _ _ => .ok _
  | exec sql params =>
      apply Throws.map
      exact (requiredInt_timely _ _).bind fun _ _ => (requiredInt_timely _ _).bind fun _ _ => .ok _
  | snapshot opts => exact ((requiredStr_timely _ _).bind fun _ _ => .ok _).map
  | load path => exact .ok _
  | inspect =>
      apply Throws.map
      exact (requiredBool_timely _ _).bind fun _ _ =>
        (requiredOptionalInt_timely _ _).bind fun _ _ =>
        (requiredOptionalInt_timely _ _).bind fun _ _ =>
        (requiredStr_timely _ _).bind fun _ _ => (requiredBool_timely _ _).bind fun _ _ => .ok _
  | tables => exact ((requiredStrList_timely _ _).bind fun _ _ => .ok _).map
  | schema table => exact ((requiredStrList_timely _ _).bind fun _ _ => .ok _).map
  | dump pattern => exact ((requiredStr_timely _ _).bind fun _ _ => .ok _).map
  | overwrite => exact .ok _
  | close => exact .ok _

theorem responseFields_timely (line : List UInt8) : Timely (responseFields line) := by
  have parsed : Timely (parseLine "response" line) := by
    unfold parseLine
    split
    · exact .ok _
    · exact timely_protocol _
  have decoded : Timely (decodeResponseLine line) := by
    apply parsed.bind
    intro v _
    split
    · exact timely_protocol _
    · exact .ok _
  apply decoded.bind
  intro resp _
  split
  · exact .ok _
  · split
    · rename_i e found
      apply Throws.error
      intro text same
      subst same
      simp [responseError?, Option.bind_eq_some_iff] at found
    · exact timely_protocol _

theorem fields_timely (std : FloatText) (request : Request) : Timely (request.fields std) := by
  have value (v : Value) : Timely (encodeValue std v) := by
    cases v with
    | real f =>
        rw [encodeValue]
        split
        · exact timely_protocol _
        · exact .ok _
    | null => exact .ok _
    | integer i => exact .ok _
    | text s => exact .ok _
    | blob b => exact .ok _
  have items (i : Nat) (values : List Value) : Timely (encodeItems std i values) := by
    induction values generalizing i with
    | nil => exact .ok []
    | cons v rest ih =>
        rw [encodeItems]
        have first : Timely ((encodeValue std v).mapError (atParam i)) := by
          apply Throws.mapError
          refine (value v).mono fun e timely => ?_
          cases e with
          | timeout text => exact absurd rfl (timely text)
          | response code message => simp [atParam]
          | protocol text => simp [atParam]
          | io e => simp [atParam]
          | closed => simp [atParam]
        exact first.bind fun _ _ => (ih (i + 1)).bind fun _ _ => .ok _
  have sql (op text : String) (params : List Value) : Timely (sqlFields std op text params) := by
    apply Throws.bind
    · rw [encodeParams]
      split
      · exact .ok _
      · exact (items 0 params).bind fun _ _ => .ok _
    · exact fun _ _ => .ok _
  cases request with
  | query text params => exact sql _ _ _
  | exec text params => exact sql _ _ _
  | snapshot opts => exact .ok _
  | load path => exact .ok _
  | inspect => exact .ok _
  | tables => exact .ok _
  | schema table => exact .ok _
  | dump pattern => exact .ok _
  | overwrite => exact .ok _
  | close => exact .ok _

/-! ## The log of a transport -/

/-- A call that a session made on its transport. -/
inductive TransportCall where
  | writeLine (line : List UInt8)
  | readLine
  | close
  deriving DecidableEq

def TransportCall.line? : TransportCall → Option (List UInt8)
  | .writeLine line => some line
  | .readLine => none
  | .close => none

/-- A transport with a log of the calls that it was given. -/
structure Logged (τ : Type) where
  inner : τ
  calls : List TransportCall

namespace Logged

variable {τ : Type} [Transport τ]

def fresh (t : τ) : Logged τ := ⟨t, []⟩

instance : Transport (Logged τ) where
  writeLine l line := do
    let (result, inner) ← Transport.writeLine l.inner line
    .ok (result, ⟨inner, l.calls ++ [.writeLine line]⟩)
  readLine l timeout := do
    let (result, inner) ← Transport.readLine l.inner timeout
    .ok (result, ⟨inner, l.calls ++ [.readLine]⟩)
  close l timeout := do
    let inner ← Transport.close l.inner timeout
    .ok ⟨inner, l.calls ++ [.close]⟩

theorem writeLine_calls {l l' : Logged τ} {line : List UInt8} {result : Except Error Unit}
    (wrote : Transport.writeLine l line = .ok (result, l')) :
    l'.calls = l.calls ++ [.writeLine line] ∧
      Transport.writeLine l.inner line = .ok (result, l'.inner) := by
  obtain ⟨⟨r, inner⟩, returned, same⟩ := Exec.bind_ok wrote
  cases same
  exact ⟨rfl, returned⟩

theorem readLine_calls {l l' : Logged τ} {timeout : Option Nat}
    {result : Except Error (List UInt8)}
    (read : Transport.readLine l timeout = .ok (result, l')) :
    l'.calls = l.calls ++ [.readLine] ∧
      Transport.readLine l.inner timeout = .ok (result, l'.inner) := by
  obtain ⟨⟨r, inner⟩, returned, same⟩ := Exec.bind_ok read
  cases same
  exact ⟨rfl, returned⟩

theorem close_calls {l l' : Logged τ} {timeout : Nat}
    (torn : Transport.close l timeout = .ok l') : l'.calls = l.calls ++ [.close] := by
  obtain ⟨inner, _, same⟩ := Exec.bind_ok torn
  cases same
  rfl

end Logged

/-- The lines that the calls were given to write. -/
def written (calls : List TransportCall) : List (List UInt8) := calls.filterMap TransportCall.line?

def closings (calls : List TransportCall) : Nat := calls.count .close

/-- The line of the close operation. -/
def closeLine : List UInt8 := encodeRequestLine [opField "close"]

/-! ## The close line -/

/-- A writer only appends. -/
def Extends (before after : String) : Prop := before.toList <+: after.toList

theorem Extends.trans {a b c : String} (first : Extends a b) (second : Extends b c) :
    Extends a c := List.IsPrefix.trans first second

theorem extends_push (s : String) (c : Char) : Extends s (s.push c) := by
  rw [Extends, String.toList_push]
  exact List.prefix_append _ _

theorem extends_append (s t : String) : Extends s (s ++ t) := by
  rw [Extends, String.toList_append]
  exact List.prefix_append _ _

theorem extends_comma (i : Nat) (s : String) : Extends s (if i > 0 then s.push ',' else s) := by
  split
  · exact extends_push s ','
  · exact List.prefix_rfl

theorem writeString_extends (t s : String) : Extends s (Json.writeString t s) := by
  obtain ⟨raw, shape, _, _⟩ := Json.writeString_body t s
  rw [Extends, shape]
  exact List.prefix_append _ _

mutual

theorem writeValue_extends : ∀ (v : Json) (out : String), Extends out (Json.writeValue v out)
  | .null, out => extends_append out "null"
  | .bool true, out => extends_append out "true"
  | .bool false, out => extends_append out "false"
  | .number n, out => extends_append out n.raw
  | .string s, out => writeString_extends s out
  | .array items, out => by
      unfold Json.writeValue
      exact ((extends_push out '[').trans (writeItems_extends items 0 _)).trans (extends_push _ ']')
  | .object pairs, out => by
      unfold Json.writeValue
      exact ((extends_push out '{').trans (writePairs_extends pairs 0 _)).trans (extends_push _ '}')

theorem writeItems_extends : ∀ (items : List Json) (i : Nat) (out : String),
    Extends out (Json.writeItems i items out)
  | [], i, out => List.prefix_rfl
  | item :: rest, i, out => by
      unfold Json.writeItems
      exact ((extends_comma i out).trans (writeValue_extends item _)).trans
        (writeItems_extends rest (i + 1) _)

theorem writePairs_extends : ∀ (pairs : List (String × Json)) (i : Nat) (out : String),
    Extends out (Json.writePairs i pairs out)
  | [], i, out => List.prefix_rfl
  | (key, v) :: rest, i, out => by
      unfold Json.writePairs
      exact ((((extends_comma i out).trans (writeString_extends key _)).trans
        (extends_push _ ':')).trans (writeValue_extends v _)).trans
        (writePairs_extends rest (i + 1) _)

end

/-- A request object starts with its operation. -/
theorem write_op (op : String) (rest : List (String × Json)) :
    Extends (Json.writeString op "\x7b\"op\":") (Json.write (.object (opField op :: rest))) := by
  have start : (Json.writeString "op" "\x7b").push ':' = "\x7b\"op\":" := by decide
  have shape : Json.write (.object (opField op :: rest)) =
      (Json.writePairs 1 rest (Json.writeString op "\x7b\"op\":")).push '}' := by
    simp [Json.write, Json.writeValue, Json.writePairs, opField, Json.str, start]
  rw [shape]
  exact (writePairs_extends rest 1 _).trans (extends_push _ '}')

theorem writeLine_injective {first second : List (String × Json)}
    (same : encodeRequestLine first = encodeRequestLine second) :
    Json.write (.object first) = Json.write (.object second) := by
  have lines := Utf8.bytes_injective same
  have chars := congrArg String.toList lines
  rw [String.toList_push, String.toList_push, List.append_cancel_right_eq] at chars
  exact String.toList_injective chars

/-- An operation that is spelled otherwise is written otherwise. -/
theorem ne_closeLine {op : String} (rest : List (String × Json))
    (other : (Json.writeString op "\x7b\"op\":").toList.take 8 ≠ "\x7b\"op\":\"c".toList)
    (long : 8 ≤ (Json.writeString op "\x7b\"op\":").toList.length) :
    encodeRequestLine (opField op :: rest) ≠ closeLine := by
  intro same
  have written := writeLine_injective same
  obtain ⟨text, shape⟩ := write_op op rest
  rw [written] at shape
  have first := congrArg (List.take 8) shape
  rw [List.take_append_of_le_length long] at first
  exact other first

/-- Only `close` writes the close line. -/
theorem fields_ne_closeLine {std : FloatText} {request : Request} {object : List (String × Json)}
    (fields : request.fields std = .ok object) (sends : request ≠ .close) :
    encodeRequestLine object ≠ closeLine := by
  cases request with
  | query sql params =>
      obtain ⟨p, _, same⟩ := bind_ok_iff.mp fields
      cases same
      exact ne_closeLine _ (by decide) (by decide)
  | exec sql params =>
      obtain ⟨p, _, same⟩ := bind_ok_iff.mp fields
      cases same
      exact ne_closeLine _ (by decide) (by decide)
  | snapshot opts =>
      cases fields
      exact ne_closeLine _ (by decide) (by decide)
  | load path =>
      cases fields
      exact ne_closeLine _ (by decide) (by decide)
  | inspect =>
      cases fields
      exact ne_closeLine _ (by decide) (by decide)
  | tables =>
      cases fields
      exact ne_closeLine _ (by decide) (by decide)
  | schema table =>
      cases fields
      exact ne_closeLine _ (by decide) (by decide)
  | dump pattern =>
      cases fields
      exact ne_closeLine _ (by decide) (by decide)
  | overwrite =>
      cases fields
      exact ne_closeLine _ (by decide) (by decide)
  | close => exact absurd rfl sends

/-- No write of the transport ends with a timeout. -/
def WritesAreTimely (τ : Type) [Transport τ] : Prop :=
  ∀ (t t' : τ) (line : List UInt8) (result : Except Error Unit),
    Transport.writeLine t line = .ok (result, t') → Timely result

namespace Session

variable {τ : Type} [Transport τ]

def calls (s : Session (Logged τ)) : List TransportCall := s.transport.calls

/-- What a call of an operation adds to the log, by what becomes of the session. -/
inductive CallLog (s s' : Session (Logged τ)) (line : List UInt8) : Except Error Json → Prop where
  | refused (shut : s.closed = true) (same : s' = s) : CallLog s s' line (.error .closed)
  | kept {result : Except Error Json} (more : List TransportCall) (live : s.closed = false)
      (stays : s'.closed = false) (log : s'.calls = s.calls ++ .writeLine line :: more)
      (quiet : more = [] ∨ more = [.readLine]) (timely : WritesAreTimely τ → Timely result) :
      CallLog s s' line result
  | left {text : String} (live : s.closed = false) (shut : s'.closed = true)
      (log : s'.calls = s.calls ++ [.writeLine line, .readLine, .close]) :
      CallLog s s' line (.error (.timeout text))

theorem Called.callLog {s s' : Session (Logged τ)} {object : List (String × Json)}
    {result : Except Error Json} (called : Called s object result s') :
    CallLog s s' (encodeRequestLine object) result := by
  cases called with
  | closed shut => exact .refused shut rfl
  | @unsent e t live wrote =>
      obtain ⟨log, inner⟩ := Logged.writeLine_calls wrote
      refine .kept [] live live log (.inl rfl) fun timely => ?_
      exact Throws.error (timely _ _ _ _ inner e rfl)
  | late live wrote read torn =>
      have sent := (Logged.writeLine_calls wrote).1
      have asked := (Logged.readLine_calls read).1
      have ended := Logged.close_calls torn
      refine .left live rfl ?_
      rw [calls, ended, asked, sent]
      simp [calls]
  | @failed e t u live wrote read other =>
      have sent := (Logged.writeLine_calls wrote).1
      have asked := (Logged.readLine_calls read).1
      refine .kept [.readLine] live live ?_ (.inr rfl) fun _ => Throws.error other
      rw [calls, asked, sent]
      simp [calls]
  | @replied line t u live wrote read =>
      have sent := (Logged.writeLine_calls wrote).1
      have asked := (Logged.readLine_calls read).1
      refine .kept [.readLine] live live ?_ (.inr rfl) fun _ => responseFields_timely line
      rw [calls, asked, sent]
      simp [calls]

/-- What a close adds to the log. -/
inductive CloseLog (s s' : Session (Logged τ)) : Prop where
  | already (shut : s.closed = true) (same : s' = s) : CloseLog s s'
  | done (more : List TransportCall) (live : s.closed = false) (shut : s'.closed = true)
      (log : s'.calls = s.calls ++ .writeLine closeLine :: more)
      (quiet : more = [.close] ∨ more = [.readLine, .close]) : CloseLog s s'

theorem Closing.closeLog {s s' : Session (Logged τ)} (closing : Closing s s') : CloseLog s s' := by
  cases closing with
  | already shut => exact .already shut rfl
  | unsent live wrote torn =>
      have sent := (Logged.writeLine_calls wrote).1
      have ended := Logged.close_calls torn
      refine .done [.close] live rfl ?_ (.inl rfl)
      rw [calls, ended, sent]
      simp [calls, closeLine]
  | sent live wrote read torn =>
      have sent := (Logged.writeLine_calls wrote).1
      have asked := (Logged.readLine_calls read).1
      have ended := Logged.close_calls torn
      refine .done [.readLine, .close] live rfl ?_ (.inr rfl)
      rw [calls, ended, asked, sent]
      simp [calls, closeLine]

/-! ## What the log of a session looks like -/

/-- The transport is closed exactly when the session is, once, and a close line is
the last line of all. -/
structure Sound (s : Session (Logged τ)) : Prop where
  torn : closings s.calls = if s.closed then 1 else 0
  last : closeLine ∉ (written s.calls).dropLast
  unsaid : s.closed = false → closeLine ∉ written s.calls

theorem written_append (calls more : List TransportCall) :
    written (calls ++ more) = written calls ++ written more := List.filterMap_append

theorem closings_append (calls more : List TransportCall) :
    closings (calls ++ more) = closings calls + closings more := List.count_append

theorem CallLog.sound {s s' : Session (Logged τ)} {line : List UInt8} {result : Except Error Json}
    (log : CallLog s s' line result) (other : line ≠ closeLine) (sound : Sound s) : Sound s' := by
  cases log with
  | refused shut same =>
      subst same
      exact sound
  | @kept result more live stays log quiet timely =>
      have torn := sound.torn
      rw [live] at torn
      have lines : written s'.calls = written s.calls ++ [line] := by
        rw [log, written_append]
        rcases quiet with rfl | rfl <;> rfl
      have unsaid : closeLine ∉ written s'.calls := by
        rw [lines]
        simp [sound.unsaid live, other.symm]
      refine ⟨?_, fun inside => unsaid (List.dropLast_subset _ inside), fun _ => unsaid⟩
      rw [stays, log, closings_append, torn]
      rcases quiet with rfl | rfl <;> rfl
  | left live shut log =>
      have torn := sound.torn
      rw [live] at torn
      have lines : written s'.calls = written s.calls ++ [line] := by
        rw [log, written_append]
        rfl
      refine ⟨?_, ?_, fun usable => Bool.noConfusion (usable.symm.trans shut)⟩
      · rw [shut, log, closings_append, torn]
        rfl
      · rw [lines, List.dropLast_concat]
        exact sound.unsaid live

omit [Transport τ] in
theorem CloseLog.sound {s s' : Session (Logged τ)} (log : CloseLog s s') (sound : Sound s) :
    Sound s' := by
  cases log with
  | already shut same =>
      subst same
      exact sound
  | done more live shut log quiet =>
      have torn := sound.torn
      rw [live] at torn
      have lines : written s'.calls = written s.calls ++ [closeLine] := by
        rw [log, written_append]
        rcases quiet with rfl | rfl <;> rfl
      refine ⟨?_, ?_, fun usable => Bool.noConfusion (usable.symm.trans shut)⟩
      · rw [shut, log, closings_append, torn]
        rcases quiet with rfl | rfl <;> rfl
      · rw [lines, List.dropLast_concat]
        exact sound.unsaid live

omit [Transport τ] in
theorem CloseLog.shut {s s' : Session (Logged τ)} (log : CloseLog s s') : s'.closed = true := by
  cases log with
  | already shut same =>
      subst same
      exact shut
  | done more live shut log quiet => exact shut

variable {std : FloatText}

theorem Performed.sound {s s' : Session (Logged τ)} {request : Request}
    {outcome : Except Error Answer} (performed : Performed std s request outcome s')
    (sound : Sound s) : Sound s' := by
  cases performed with
  | refused fields => exact sound
  | called sends fields called => exact called.callLog.sound (fields_ne_closeLine fields sends) sound
  | overwritten is fields called closing =>
      have sends : request ≠ .close := by
        subst is
        exact nofun
      exact closing.closeLog.sound (called.callLog.sound (fields_ne_closeLine fields sends) sound)
  | closed is closing => exact closing.closeLog.sound sound

/-- On a closed session nothing happens, and every operation but `close` fails. -/
theorem Performed.refuses {s s' : Session (Logged τ)} {request : Request}
    {outcome : Except Error Answer} (performed : Performed std s request outcome s')
    (shut : s.closed = true) :
    s' = s ∧ (request ≠ .close → ∃ e, outcome = .error e) := by
  cases performed with
  | refused fields => exact ⟨rfl, fun _ => ⟨_, rfl⟩⟩
  | called sends fields called =>
      cases called.callLog with
      | refused _ same => exact ⟨same, fun _ => ⟨_, rfl⟩⟩
      | kept more live => exact Bool.noConfusion (live.symm.trans shut)
      | left live => exact Bool.noConfusion (live.symm.trans shut)
  | overwritten is fields called closing =>
      cases called.callLog with
      | kept more live => exact Bool.noConfusion (live.symm.trans shut)
  | closed is closing =>
      refine ⟨?_, fun sends => absurd is sends⟩
      cases closing.closeLog with
      | already _ same => exact same
      | done more live => exact Bool.noConfusion (live.symm.trans shut)

/-- An operation that returned a timeout, or was a close, has closed the session. -/
theorem Performed.ends {s s' : Session (Logged τ)} {request : Request}
    {outcome : Except Error Answer} (performed : Performed std s request outcome s')
    (timely : WritesAreTimely τ)
    (ends : (∃ text, outcome = .error (.timeout text)) ∨ request = .close) : s'.closed = true := by
  cases performed with
  | @refused e fields =>
      rcases ends with ⟨text, same⟩ | is
      · cases same
        exact absurd rfl (fields_timely std request _ fields text)
      · subst is
        cases fields
  | @called object result _ sends fields called =>
      rcases ends with ⟨text, same⟩ | is
      · cases called.callLog with
        | refused _ _ => cases same
        | kept more live stays log quiet inTime =>
            have never := (inTime timely).bind fun json _ => decodeAnswer_timely std request json
            exact absurd rfl (never _ same text)
        | left live shut log => exact shut
      · exact absurd is sends
  | overwritten is fields called closing => exact closing.closeLog.shut
  | closed is closing => exact closing.closeLog.shut

/-- Whatever else an operation returned, it left the session open. -/
theorem Performed.stays_open {s s' : Session (Logged τ)} {request : Request}
    {outcome : Except Error Answer} (performed : Performed std s request outcome s')
    (live : s.closed = false) (inTime : ∀ text, outcome ≠ .error (.timeout text))
    (sends : request ≠ .close) (kept : outcome ≠ .ok .overwrite) : s'.closed = false := by
  cases performed with
  | refused fields => exact live
  | called _ fields called =>
      cases called.callLog with
      | refused shut => exact Bool.noConfusion (live.symm.trans shut)
      | kept _ _ stays => exact stays
      | @left text => exact absurd rfl (inTime text)
  | overwritten => exact absurd rfl kept
  | closed is => exact absurd is sends

/-- On an open session an operation whose fields encode writes its line. -/
theorem Performed.writes {s s' : Session (Logged τ)} {request : Request}
    {outcome : Except Error Answer} {object : List (String × Json)}
    (performed : Performed std s request outcome s') (live : s.closed = false)
    (fields : request.fields std = .ok object) :
    ∃ more, s'.calls = s.calls ++ .writeLine (encodeRequestLine object) :: more := by
  cases performed with
  | refused failed =>
      rw [fields] at failed
      cases failed
  | called _ fields' called =>
      rw [fields] at fields'
      cases fields'
      cases called.callLog with
      | refused shut => exact Bool.noConfusion (live.symm.trans shut)
      | kept _ _ _ log => exact ⟨_, log⟩
      | left _ _ log => exact ⟨_, log⟩
  | overwritten is fields' called closing =>
      rw [fields] at fields'
      cases fields'
      cases called.callLog with
      | kept _ _ stays log =>
          cases closing.closeLog with
          | already shut => exact Bool.noConfusion (stays.symm.trans shut)
          | done _ _ _ later =>
              rw [later, log, List.append_assoc]
              exact ⟨_, rfl⟩
  | closed is closing =>
      subst is
      cases fields
      cases closing.closeLog with
      | already shut => exact Bool.noConfusion (live.symm.trans shut)
      | done _ _ _ log => exact ⟨_, log⟩

end Session

/-! ## Runs -/

/-- The operation timed out or was a close. -/
def Ends {τ : Type} (e : Entry τ) : Prop :=
  (∃ text, e.outcome = .error (.timeout text)) ∨ e.command = .op .close

/-- The command left the transport alone, and an operation failed. -/
def Refused {τ : Type} (e : Entry τ) : Prop :=
  e.after.transport = e.before.transport ∧
    ∀ request : Request, e.command = .op request → request ≠ .close → ∃ err, e.outcome = .error err

namespace Session

variable {τ : Type} [Transport τ] {std : FloatText}

theorem Step.sound {s s' : Session (Logged τ)} {e : Entry (Logged τ)} (sound : Sound s)
    (step : Step std s e s') : Sound s' := by
  cases step with
  | @ran _ c outcome returned =>
      cases c with
      | op request => exact (perform_performed returned).sound sound
      | setTimeout t =>
          cases returned
          exact ⟨sound.torn, sound.last, sound.unsaid⟩

theorem Step.refuses {s s' : Session (Logged τ)} {e : Entry (Logged τ)} (shut : s.closed = true)
    (step : Step std s e s') : s'.closed = true ∧ e.after = s' ∧ Refused e := by
  cases step with
  | @ran _ c outcome returned =>
      cases c with
      | op request =>
          obtain ⟨same, fails⟩ := (perform_performed returned).refuses shut
          subst same
          refine ⟨shut, rfl, rfl, fun request' is => ?_⟩
          cases is
          exact fails
      | setTimeout t =>
          cases returned
          refine ⟨shut, rfl, rfl, fun request' is => ?_⟩
          cases is

theorem Step.ends {s s' : Session (Logged τ)} {e : Entry (Logged τ)} (timely : WritesAreTimely τ)
    (step : Step std s e s') (ends : Ends e) : s'.closed = true := by
  cases step with
  | @ran _ c outcome returned =>
      cases c with
      | op request =>
          refine (perform_performed returned).ends timely (ends.imp_right fun is => ?_)
          cases is
          rfl
      | setTimeout t =>
          cases returned
          rcases ends with ⟨text, same⟩ | is
          · cases same
          · cases is

end Session

/-- A session is there exactly if the first line was a hello of protocol 1, and
otherwise the transport was closed and never written to. -/
def HelloGate (τ : Type) [Transport τ] : Prop :=
  ∀ (t : τ) (timeout : Option Nat) (made : Except Error (Session (Logged τ))) (t' : Logged τ),
    Session.new (.fresh t) timeout = .ok (made, t') →
    ∃ first u, Transport.readLine t timeout = .ok (first, u) ∧
      ((∃ s, made = .ok s) ↔ ∃ line, first = .ok line ∧ HelloLine first? 1 line) ∧
      (∀ s, made = .ok s → s.closed = false ∧ s.calls = [.readLine]) ∧
      (∀ e, made = .error e → t'.calls = [.readLine, .close])

/-- What holds of a whole life, from the hello over any commands to the drop. -/
structure LivesOnce (std : FloatText) (τ : Type) [Transport τ] (entries : List (Entry (Logged τ)))
    (dropped : Session (Logged τ)) : Prop where
  stays_closed : entries.Pairwise fun e later =>
    e.after.closed = true → later.before.closed = true ∧ later.after.closed = true
  closed_at_end : dropped.closed = true
  last_line : ∀ first rest, written dropped.calls = first ++ closeLine :: rest → rest = []
  torn_once : closings dropped.calls = 1
  ended : WritesAreTimely τ → entries.Pairwise fun e later => Ends e → Refused later
  stays_open : ∀ e ∈ entries, e.before.closed = false → ¬ Ends e → e.outcome ≠ .ok .overwrite →
    e.after.closed = false
  /-- An open session writes the line of every operation that encodes. -/
  writes : ∀ e ∈ entries, e.before.closed = false → ∀ (request : Request)
    (object : List (String × Json)), e.command = .op request → request.fields std = .ok object →
    ∃ more, e.after.calls = e.before.calls ++ .writeLine (encodeRequestLine object) :: more

theorem hello_gate (τ : Type) [Transport τ] : HelloGate τ := by
  intro t timeout made t' created
  obtain ⟨⟨first, l⟩, read, rest⟩ := Exec.bind_ok created
  obtain ⟨log, inner⟩ := Logged.readLine_calls read
  refine ⟨first, l.inner, inner, ?_⟩
  dsimp only at rest
  split at rest
  · rename_i hello checked
    cases rest
    obtain ⟨line, rfl, check⟩ := bind_ok_iff.mp checked
    refine ⟨⟨fun _ => ⟨line, rfl, (checkHello_ok_iff line).mp ⟨hello, check⟩⟩,
      fun _ => ⟨_, rfl⟩⟩, fun s same => ?_, fun e same => ?_⟩
    · cases same
      exact ⟨rfl, log⟩
    · cases same
  · rename_i e failed
    obtain ⟨v, torn, same⟩ := Exec.bind_ok rest
    cases same
    refine ⟨⟨fun made => ?_, fun hello => ?_⟩, fun s same => ?_, fun e same => ?_⟩
    · obtain ⟨s, same⟩ := made
      cases same
    · obtain ⟨line, rfl, greeting⟩ := hello
      obtain ⟨h, check⟩ := (checkHello_ok_iff line).mpr greeting
      have both : (Except.ok line >>= Session.checkHello) = .ok h := check
      rw [both] at failed
      cases failed
    · cases same
    · rw [Logged.close_calls torn, log]
      rfl

theorem lives_once (std : FloatText) {τ : Type} [Transport τ] {t : τ} {timeout : Option Nat}
    {s s' dropped : Session (Logged τ)} {u : Logged τ} {entries : List (Entry (Logged τ))}
    (created : Session.new (.fresh t) timeout = .ok (.ok s, u))
    (run : Run (Session.Step std) s entries s') (ended : s'.drop = .ok dropped) :
    LivesOnce std τ entries dropped := by
  obtain ⟨_, _, _, _, opened, _⟩ := hello_gate τ t timeout (.ok s) u created
  obtain ⟨live, log⟩ := opened s rfl
  have fresh : Session.Sound s := by
    refine ⟨?_, ?_, fun _ => ?_⟩
    · rw [live, log]
      rfl
    · rw [log]
      exact List.not_mem_nil
    · rw [log]
      exact List.not_mem_nil
  have sound := run.invariant (P := Session.Sound) (fun _ _ _ => Session.Step.sound) fresh
  have closing := (Session.close_closing ended).closeLog
  have final := closing.sound sound
  refine ⟨?_, closing.shut, fun first rest shape => ?_, ?_, fun timely => ?_, ?_, ?_⟩
  · apply run.pairwise (P := fun s => s.closed = true)
    · intro s e s' step shut
      cases step with
      | ran returned => exact shut
    · exact fun s e s' shut step => (Session.Step.refuses shut step).1
    · intro s e s' shut step
      have after := (Session.Step.refuses shut step).1
      cases step with
      | ran returned => exact ⟨shut, after⟩
  · cases rest with
    | nil => rfl
    | cons next more =>
        refine absurd ?_ final.last
        rw [shape, List.dropLast_append_of_ne_nil (List.cons_ne_nil _ _), List.dropLast_cons_cons]
        exact List.mem_append_right _ List.mem_cons_self
  · rw [final.torn, closing.shut]
    rfl
  · apply run.pairwise (P := fun s => s.closed = true)
    · exact fun s e s' step ends => Session.Step.ends timely step ends
    · exact fun s e s' shut step => (Session.Step.refuses shut step).1
    · exact fun s e s' shut step => (Session.Step.refuses shut step).2.2
  · intro e inside live goes kept
    obtain ⟨before, after, _, _, step, _⟩ := run.visits inside
    cases step with
    | @ran _ c outcome returned =>
        cases c with
        | op request =>
            refine (Session.perform_performed returned).stays_open live (fun text same => ?_)
              (fun is => ?_) kept
            · exact goes (.inl ⟨text, same⟩)
            · exact goes (.inr (congrArg Command.op is))
        | setTimeout t =>
            cases returned
            exact live
  · intro e inside live request object is fields
    obtain ⟨before, after, _, _, step, _⟩ := run.visits inside
    cases step with
    | @ran _ c outcome returned =>
        cases is
        exact (Session.perform_performed returned).writes live fields

theorem Sink.writeLine_timely {s s' : Sink} {line : List UInt8} {result : Except Error Unit}
    (wrote : s.writeLine line = .ok (result, s')) : Timely result := by
  obtain ⟨⟨written, taken, writes⟩, _, same⟩ := Exec.bind_ok wrote
  have io (e : IoError) : Timely (α := Unit) (.error (.io e)) := by
    apply Throws.error
    intro text same
    cases same
  cases written with
  | error e =>
      cases same
      exact io e
  | ok =>
      dsimp only at same
      split at same
      · cases same
      · cases same
        exact .ok ()
      · cases same
        exact io _

theorem socket_writes_timely : WritesAreTimely SocketTransport := by
  intro t t' line result wrote
  obtain ⟨sink, sent, _⟩ := SocketTransport.writeLine_wrote wrote
  exact Sink.writeLine_timely sent

theorem direct_writes_timely : WritesAreTimely DirectTransport := by
  intro t t' line result wrote
  change t.writeLine line = _ at wrote
  rw [DirectTransport.writeLine] at wrote
  split at wrote
  · obtain ⟨⟨written, pipe⟩, sent, same⟩ := Exec.bind_ok wrote
    cases same
    exact Sink.writeLine_timely sent
  · cases wrote
    apply Throws.error
    intro text same
    cases same

/-- Over every transport a session starts with a hello and ends once; no write of
the two transports of the driver times out. -/
theorem session_lifecycle (std : FloatText) :
    (∀ (τ : Type) [Transport τ], HelloGate τ ∧
      ∀ (t : τ) (timeout : Option Nat) (s s' dropped : Session (Logged τ)) (u : Logged τ)
        (entries : List (Entry (Logged τ))),
        Session.new (.fresh t) timeout = .ok (.ok s, u) → Run (Session.Step std) s entries s' →
        s'.drop = .ok dropped → LivesOnce std τ entries dropped) ∧
    WritesAreTimely SocketTransport ∧ WritesAreTimely DirectTransport := by
  refine ⟨fun τ _ => ⟨hello_gate τ, ?_⟩, socket_writes_timely, direct_writes_timely⟩
  intro t timeout s s' dropped u entries created run ended
  exact lives_once std created run ended

/-- A peer that says hello and nothing more: the first call waits past its deadline. -/
def muteSocket : SocketTransport :=
  .fromStream (.fresh [.ok 16] [.ok ()])
    [.ok (Utf8.bytes "\x7b\"protocol\":1,\"version\":\"1\",\"product\":\"p\"\x7d\n"),
      .err ⟨.wouldBlock, ""⟩, .err ⟨.wouldBlock, ""⟩]
    ⟨id, 0, 1000⟩

/-- What the commands of a whole life returned, and the calls that it made. -/
def outline {τ : Type} [Transport τ] (std : FloatText) (t : τ) (timeout : Option Nat)
    (commands : List Command) : Exec (Option (List (Except Error Answer) × List TransportCall)) := do
  let started ← Session.start std (Logged.fresh t) timeout commands
  match started with
  | .error _ => .ok none
  | .ok (_, entries, s) => do
      let dropped ← s.drop
      .ok (some (entries.map Entry.outcome, dropped.calls))

/-- A hello, a call that times out, one that is refused, a close and the drop. -/
theorem session_lifecycle_sample :
    ∃ (s s' dropped : Session (Logged SocketTransport)) (u : Logged SocketTransport)
      (entries : List (Entry (Logged SocketTransport))),
      Session.new (.fresh muteSocket) (some 2) = .ok (.ok s, u) ∧
      Run (Session.Step sampleFloatText) s entries s' ∧ s'.drop = .ok dropped ∧
      entries.map Entry.outcome = [.error readTimeout, .error .closed, .ok .close] ∧
      dropped.calls = [.readLine, .writeLine (encodeRequestLine [opField "tables"]), .readLine, .close] ∧
      LivesOnce sampleFloatText SocketTransport entries dropped := by
  have results : outline sampleFloatText muteSocket (some 2) [.op .tables, .op .tables, .op .close] =
      .ok (some ([.error readTimeout, .error .closed, .ok .close],
        [.readLine, .writeLine (encodeRequestLine [opField "tables"]), .readLine, .close])) := by
    decide +kernel
  obtain ⟨made, started, more⟩ := Exec.bind_ok results
  cases made with
  | error e => cases more
  | ok all =>
      obtain ⟨s, entries, s'⟩ := all
      obtain ⟨dropped, ended, same⟩ := Exec.bind_ok more
      injection same with same
      injection same with same
      injection same with outcomes calls
      obtain ⟨⟨u, created⟩, run⟩ := Session.start_run started
      exact ⟨s, s', dropped, u, entries, created, run, ended, outcomes, calls,
        ((session_lifecycle sampleFloatText).1 SocketTransport).2 _ _ s s' dropped u entries created
          run ended⟩

end SanDbOxFormal.Rust
