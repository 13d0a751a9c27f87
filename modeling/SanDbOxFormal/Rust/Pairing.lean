import SanDbOxFormal.Library.Talker
import SanDbOxFormal.Rust.RequestFraming
import SanDbOxFormal.Rust.SessionRuns
import SanDbOxFormal.Rust.Transport.Direct
import SanDbOxFormal.Rust.Transport.Socket

/-!
# Requests and replies of a session

No request carries an id, so a reply belongs to a request only by its position.
Every operation of a session is a run of moves of a talker: it takes the reply to
what it sent, or it is shut.
-/

namespace SanDbOxFormal.Rust

open SanDbOxFormal.Library
open SanDbOxFormal.Library.Rfc8259 (Json)
open SanDbOxFormal.Library.Runs
open SanDbOxFormal.Library.Segments
open SanDbOxFormal.Rust.Codec
open SanDbOxFormal.Rust.Transport

/-- A decoded result, or an error that the server sent. -/
def answered : Except Error Answer → Bool
  | .ok _ => true
  | .error (.response _ _) => true
  | .error _ => false

/-- What an operation makes of a reply line. -/
def decodeReply (std : FloatText) (request : Request) (line : List UInt8) :
    Except Error Answer :=
  responseFields line >>= Session.decodeAnswer std request

/-- A failed write delivered nothing, and every later write fails too. -/
structure FailStop (records : List WriteRecord) : Prop where
  nothing : ∀ r ∈ records, r.ok = false → r.accepted = 0
  forever : records.Pairwise fun earlier later => earlier.ok = false → later.ok = false

theorem FailStop.of_isPrefix {first records : List WriteRecord} (shorter : first <+: records)
    (stops : FailStop records) : FailStop first :=
  ⟨fun r inside => stops.nothing r (shorter.subset inside), stops.forever.sublist shorter.sublist⟩

/-- Once a write has failed, the last write has. -/
theorem FailStop.last_failed {records : List WriteRecord} {r last : WriteRecord}
    (stops : FailStop (records ++ [last])) (inside : r ∈ records) (failed : r.ok = false) :
    last.ok = false :=
  (List.pairwise_append.mp stops.forever).2.2 r inside last List.mem_cons_self failed

/-! ## Errors that are the driver's own -/

theorem encodeValue_plain {std : FloatText} {v : Value} {e : Error}
    (failed : encodeValue std v = .error e) : e.code = none := by
  cases v with
  | real f =>
      rw [encodeValue] at failed
      split at failed
      · cases failed
        rfl
      · cases failed
  | null => cases failed
  | integer i => cases failed
  | text s => cases failed
  | blob b => cases failed

theorem atParam_plain {i : Nat} {e : Error} (plain : e.code = none) :
    (atParam i e).code = none := by
  cases e with
  | response code message => cases plain
  | protocol text => rfl
  | timeout text => rfl
  | io e => rfl
  | closed => rfl

theorem encodeItems_plain {std : FloatText} {values : List Value} {i : Nat} {e : Error}
    (failed : encodeItems std i values = .error e) : e.code = none := by
  induction values generalizing i with
  | nil => cases failed
  | cons v rest ih =>
      rw [encodeItems] at failed
      cases first : encodeValue std v with
      | error e' =>
          rw [first] at failed
          cases failed
          exact atParam_plain (encodeValue_plain first)
      | ok j =>
          cases more : encodeItems std (i + 1) rest with
          | error e' =>
              rw [first, more] at failed
              cases failed
              exact ih more
          | ok items =>
              rw [first, more] at failed
              cases failed

theorem sqlFields_plain {std : FloatText} {op sql : String} {params : List Value} {e : Error}
    (failed : sqlFields std op sql params = .error e) : e.code = none := by
  rw [sqlFields, encodeParams] at failed
  split at failed
  · cases failed
  · cases items : encodeItems std 0 params with
    | error e' =>
        rw [items] at failed
        cases failed
        exact encodeItems_plain items
    | ok list =>
        rw [items] at failed
        cases failed

/-- A request whose fields do not encode fails with an error of the driver. -/
theorem fields_plain {std : FloatText} {request : Request} {e : Error}
    (failed : request.fields std = .error e) : e.code = none := by
  cases request with
  | query sql params => exact sqlFields_plain failed
  | exec sql params => exact sqlFields_plain failed
  | snapshot opts => cases failed
  | load path => cases failed
  | inspect => cases failed
  | tables => cases failed
  | schema table => cases failed
  | dump pattern => cases failed
  | overwrite => cases failed
  | close => cases failed

namespace Session

variable {τ : Type} [Observed τ]

/-- The bytes that the server has received. -/
def accepted (s : Session τ) : List UInt8 := (Observed.sink s.transport).accepted

/-- The complete request lines that the server has received. -/
def requests (s : Session τ) : List (List UInt8) := complete newline s.accepted

def records (s : Session τ) : List WriteRecord := (Observed.sink s.transport).records

/-- What was sent stays sent. -/
structure Grows (s s' : Session τ) : Prop where
  accepted : s.accepted <+: s'.accepted
  records : s.records <+: s'.records

theorem Grows.trans {s t u : Session τ} (first : Grows s t) (second : Grows t u) : Grows s u :=
  ⟨first.accepted.trans second.accepted, first.records.trans second.records⟩

theorem Grows.refl (s : Session τ) : Grows s s := ⟨List.prefix_rfl, List.prefix_rfl⟩

/-- Only a write changes what was sent. -/
theorem Grows.of_wrote {s s' : Session τ} (line : List UInt8) (result : Except Error Unit)
    (wrote : Sink.Wrote (Observed.sink s.transport) line result (Observed.sink s'.transport)) :
    Grows s s' := by
  obtain ⟨taken, _, _, sent, noted⟩ := wrote.sent
  constructor
  · rw [Session.accepted, Session.accepted, sent]
    exact List.prefix_append _ _
  · rw [Session.records, Session.records, noted]
    exact List.prefix_append _ _

theorem Called.grows {s s' : Session τ} {fields : List (String × Json)}
    {result : Except Error Json} (called : Called s fields result s') : Grows s s' := by
  cases called with
  | closed => exact .refl s
  | unsent _ wrote => exact .of_wrote _ _ (Observed.wrote wrote).1
  | late _ wrote read torn =>
      apply Grows.of_wrote (encodeRequestLine fields) (.ok ())
      rw [Observed.closed torn, (Observed.heard read).2]
      exact (Observed.wrote wrote).1
  | failed _ wrote read _ =>
      apply Grows.of_wrote (encodeRequestLine fields) (.ok ())
      rw [(Observed.heard read).2]
      exact (Observed.wrote wrote).1
  | replied _ wrote read =>
      apply Grows.of_wrote (encodeRequestLine fields) (.ok ())
      rw [(Observed.heard read).2]
      exact (Observed.wrote wrote).1

theorem Closing.grows {s s' : Session τ} (closing : Closing s s') : Grows s s' := by
  cases closing with
  | already => exact .refl s
  | @unsent e t u _ wrote torn =>
      apply Grows.of_wrote (encodeRequestLine [opField "close"]) (.error e)
      rw [Observed.closed torn]
      exact (Observed.wrote wrote).1
  | sent _ wrote read torn =>
      apply Grows.of_wrote (encodeRequestLine [opField "close"]) (.ok ())
      rw [Observed.closed torn, (Observed.heard read).2]
      exact (Observed.wrote wrote).1

/-- Where writes fail for good, a failed one has delivered nothing. -/
theorem unsent_dead {s : Session τ} (s' : Session τ) {line : List UInt8} {e : Error}
    (wrote : Sink.Wrote (Observed.sink s.transport) line (.error e) (Observed.sink s'.transport))
    (stops : FailStop s'.records) :
    s'.accepted = s.accepted ∧ ∃ r ∈ s'.records, r.ok = false := by
  obtain ⟨taken, _, _, sent, noted⟩ := wrote.sent
  have inside : (⟨line, taken.length, false⟩ : WriteRecord) ∈ s'.records := by
    rw [records, noted]
    exact List.mem_append_right _ List.mem_cons_self
  refine ⟨?_, _, inside, rfl⟩
  have nothing : taken = [] := List.length_eq_zero_iff.mp (stops.nothing _ inside rfl)
  rw [accepted, sent, nothing, List.append_nil]
  rfl

/-! ## The moves of a session -/

/-- Nothing that a session returns from here on comes from a reply. -/
def Shut (s : Session τ) : Prop :=
  s.closed = true ∨ Observed.spent s.transport ∨ ∃ r ∈ s.records, r.ok = false

def talker (τ : Type) [Observed τ] : Talker (Session τ) UInt8 where
  accepted := accepted
  ahead := fun s => Observed.ahead s.transport
  Shut := Shut

/-- A session that has a reply in hand was not shut. -/
theorem not_shut_of_replied {s : Session τ} {t u : τ} {line reply : List UInt8}
    (live : s.closed = false) (wrote : Transport.writeLine s.transport line = .ok (.ok (), t))
    (read : Transport.readLine t s.defaultTimeout = .ok (.ok reply, u))
    (stops : FailStop (Observed.sink u).records) : ¬ s.Shut := by
  obtain ⟨sent, _, stays⟩ := Observed.wrote wrote
  rintro (closed | spent | ⟨r, inside, failed⟩)
  · rw [live] at closed
    cases closed
  · obtain ⟨e, silent, _⟩ := Observed.silent read (stays spent)
    cases silent
  · obtain ⟨taken, _, _, _, noted⟩ := sent.sent
    have log : (Observed.sink u).records = s.records ++ [⟨line, taken.length, true⟩] := by
      rw [(Observed.heard read).2, noted]
      rfl
    rw [log] at stops
    cases stops.last_failed inside failed

/-- What the result of a call says about the move behind it: it is an error of the
driver, or it was read from the reply that the move returned. -/
def Accounted (s : Session τ) (object : List (String × Json)) (result : Except Error Json)
    (d : Option (Conversation.Delivery UInt8)) : Prop :=
  (∃ e : Error, result = .error e ∧ e.code = none) ∨
    ∃ x : Conversation.Delivery UInt8, d = some x ∧ x.own = s.requests.length ∧
      x.content = content object ∧ result = responseFields x.line

theorem Called.moves {s s' : Session τ} {object : List (String × Json)}
    {result : Except Error Json} (numerals : Json.Numerals (.object object))
    (called : Called s object result s') (stops : FailStop s'.records) :
    ∃ d, Accounted s object result d ∧ (talker τ).Move newline s s' d := by
  have clean := newline_not_mem_content numerals
  cases called with
  | closed shut => exact ⟨none, .inl ⟨.closed, rfl, rfl⟩, .quiet rfl rfl id⟩
  | @unsent e t live wrote =>
      obtain ⟨sent, _, _⟩ := Observed.wrote wrote
      obtain ⟨same, broken⟩ := unsent_dead { s with transport := t } sent stops
      exact ⟨none, .inl ⟨e, rfl, sent.plain e rfl⟩, .stop same (.inr (.inr broken))⟩
  | @late text t u v live wrote read torn =>
      have same : Session.accepted { s with closed := true, transport := v } =
          s.accepted ++ encodeRequestLine object := by
        rw [Session.accepted, Observed.closed torn, (Observed.heard read).2]
        exact (Observed.wrote wrote).1.whole
      rw [encodeRequestLine_eq] at same
      exact ⟨none, .inl ⟨.timeout text, rfl, rfl⟩, .leave clean same (.inl rfl)⟩
  | @failed e t u live wrote read other =>
      obtain ⟨heard, sink⟩ := Observed.heard read
      have same : Session.accepted { s with transport := u } =
          s.accepted ++ encodeRequestLine object := by
        rw [Session.accepted, sink]
        exact (Observed.wrote wrote).1.whole
      rw [encodeRequestLine_eq] at same
      cases heard with
      | late => exact absurd rfl (other _)
      | failed plain ended =>
          exact ⟨none, .inl ⟨e, rfl, plain⟩, .leave clean same (.inr (.inl ended))⟩
  | @replied line t u live wrote read =>
      obtain ⟨sent, ahead, _⟩ := Observed.wrote wrote
      obtain ⟨heard, sink⟩ := Observed.heard read
      have same : Session.accepted { s with transport := u } =
          s.accepted ++ encodeRequestLine object := by
        rw [Session.accepted, sink]
        exact sent.whole
      rw [encodeRequestLine_eq] at same
      cases heard with
      | line first =>
          have usable := not_shut_of_replied live wrote read stops
          rw [ahead] at first
          exact ⟨_, .inr ⟨_, rfl, rfl, rfl, rfl⟩, .reply usable clean same first⟩

theorem Closing.moves {s s' : Session τ} (closing : Closing s s') (stops : FailStop s'.records) :
    (talker τ).Move newline s s' none := by
  cases closing with
  | already => exact .quiet rfl rfl id
  | @unsent e t u live wrote torn =>
      have sent := (Observed.wrote wrote).1
      rw [← Observed.closed torn] at sent
      obtain ⟨same, _⟩ := unsent_dead { s with closed := true, transport := u } sent stops
      exact .stop same (.inl rfl)
  | @sent reply t u v live wrote read torn =>
      have same : Session.accepted { s with closed := true, transport := v } =
          s.accepted ++ encodeRequestLine [opField "close"] := by
        rw [Session.accepted, Observed.closed torn, (Observed.heard read).2]
        exact (Observed.wrote wrote).1.whole
      have numerals : Json.Numerals (.object [opField "close"]) := ⟨trivial, trivial⟩
      rw [encodeRequestLine_eq] at same
      exact .leave (newline_not_mem_content numerals) same (.inl rfl)

/-- An answered operation and the reply that answered it. -/
def Shows (std : FloatText) (e : Entry τ) (ds : List (Option (Conversation.Delivery UInt8))) :
    Prop :=
  ∀ request : Request, e.command = .op request → request ≠ .close → answered e.outcome = true →
    ∃ (d : Conversation.Delivery UInt8) (object : List (String × Json)), some d ∈ ds ∧
      d.own = e.before.requests.length ∧ request.fields std = .ok object ∧
      d.content = content object ∧ e.outcome = decodeReply std request d.line

theorem answered_error {e : Error} (plain : e.code = none) : answered (.error e) = false := by
  cases e with
  | response code message => cases plain
  | protocol text => rfl
  | timeout text => rfl
  | io e => rfl
  | closed => rfl

theorem Accounted.shows {std : FloatText} {s s' : Session τ} {request : Request}
    {object : List (String × Json)} {result : Except Error Json}
    {d : Option (Conversation.Delivery UInt8)} {ds : List (Option (Conversation.Delivery UInt8))}
    (fields : request.fields std = .ok object) (inside : d ∈ ds)
    (accounted : Accounted s object result d) :
    Shows std ⟨s, .op request, result >>= decodeAnswer std request, s'⟩ ds := by
  rintro request' same _ replied
  cases same
  rcases accounted with ⟨e, rfl, plain⟩ | ⟨x, rfl, own, sent, rfl⟩
  · have silent : answered (.error e) = false := answered_error plain
    exact Bool.noConfusion (silent.symm.trans replied)
  · exact ⟨x, object, inside, own, fields, sent, rfl⟩

theorem Performed.moves {std : FloatText} (laws : std.Lawful) {s s' : Session τ}
    {request : Request} {outcome : Except Error Answer}
    (performed : Performed std s request outcome s') (stops : FailStop s'.records) :
    ∃ ds, Shows std ⟨s, .op request, outcome, s'⟩ ds ∧ (talker τ).Moves newline s ds s' := by
  cases performed with
  | @refused e fields =>
      refine ⟨[], fun request' _ _ replied => ?_, .nil s⟩
      have silent : answered (.error e) = false := answered_error (fields_plain fields)
      exact Bool.noConfusion (silent.symm.trans replied)
  | called sends fields called =>
      obtain ⟨d, accounted, move⟩ := called.moves (fields_numerals (tokens_of_lawful laws) fields) stops
      exact ⟨[d], accounted.shows fields List.mem_cons_self, .single move⟩
  | overwritten is fields called closing =>
      subst is
      obtain ⟨d, accounted, move⟩ :=
        called.moves (fields_numerals (tokens_of_lawful laws) fields) (stops.of_isPrefix closing.grows.records)
      exact ⟨[d, none], accounted.shows fields List.mem_cons_self,
        .cons move (.single (closing.moves stops))⟩
  | closed is closing =>
      refine ⟨[none], fun request' same other _ => ?_, .single (closing.moves stops)⟩
      cases same
      exact absurd is other

theorem Step.moves {std : FloatText} (laws : std.Lawful) {s s' : Session τ} {e : Entry τ}
    (step : Step std s e s') (stops : FailStop s'.records) :
    ∃ ds, Shows std e ds ∧ (talker τ).Moves newline s ds s' := by
  cases step with
  | @ran _ c outcome returned =>
      cases c with
      | op request => exact (perform_performed returned).moves laws stops
      | setTimeout t =>
          cases returned
          refine ⟨[none], fun request same => ?_, .single (.quiet rfl rfl id)⟩
          cases same

theorem Performed.grows {std : FloatText} {s s' : Session τ} {request : Request}
    {outcome : Except Error Answer} (performed : Performed std s request outcome s') :
    Grows s s' := by
  cases performed with
  | refused => exact .refl s
  | called _ _ called => exact called.grows
  | overwritten _ _ called closing => exact called.grows.trans closing.grows
  | closed _ closing => exact closing.grows

theorem Step.grows {std : FloatText} {s s' : Session τ} {e : Entry τ} (step : Step std s e s') :
    Grows s s' := by
  cases step with
  | @ran _ c outcome returned =>
      cases c with
      | op request => exact (perform_performed returned).grows
      | setTimeout t =>
          cases returned
          exact ⟨List.prefix_rfl, List.prefix_rfl⟩

/-! ## From the hello on -/

/-- A transport to which nothing has been written. -/
def Fresh (t : τ) : Prop := (Observed.sink t).accepted = [] ∧ (Observed.sink t).records = []

/-- A new session has sent nothing and has taken the hello line. -/
theorem new_fresh {t t' : τ} {timeout : Option Nat} {s : Session τ} (fresh : Fresh t)
    (created : Session.new t timeout = .ok (.ok s, t')) :
    s.accepted = [] ∧ Observed.ahead s.transport = (Observed.ahead t).tail := by
  obtain ⟨⟨line, u⟩, read, rest⟩ := Exec.bind_ok created
  dsimp only at rest
  split at rest
  · rename_i hello checked
    cases rest
    obtain ⟨heard, sink⟩ := Observed.heard read
    constructor
    · rw [accepted, sink, fresh.1]
    · cases heard with
      | line first =>
          rw [first]
          rfl
      | late => cases checked
      | failed => cases checked
  · obtain ⟨v, _, same⟩ := Exec.bind_ok rest
    cases same

end Session

/-- If the operation was answered, then from the answer to its own request line,
which is the one after those that were complete before it. -/
def Paired {τ : Type} [Observed τ] (std : FloatText)
    (server : List (List UInt8) → List UInt8) (requests : List (List UInt8)) (e : Entry τ) : Prop :=
  ∀ request : Request, e.command = .op request → request ≠ .close → answered e.outcome = true →
    ∃ object : List (String × Json), request.fields std = .ok object ∧
      requests[e.before.requests.length]? = some (content object) ∧
      e.outcome = decodeReply std request
        (server (requests.take (e.before.requests.length + 1)))

/-- In every run of a session whatever is decoded was decoded from the answer to
the request line of that very operation. -/
def RepliesPaired (std : FloatText) (τ : Type) [Observed τ] : Prop :=
  ∀ (server : List (List UInt8) → List UInt8) (t t' : τ) (timeout : Option Nat)
    (s s' : Session τ) (entries : List (Entry τ)),
    Session.Fresh t → Session.new t timeout = .ok (.ok s, t') →
    Run (Session.Step std) s entries s' → FailStop s'.records →
    Conversation.Answers server s'.requests (Observed.ahead t).tail →
    ∀ e ∈ entries, Paired std server s'.requests e

theorem session_paired {std : FloatText} (laws : std.Lawful) (τ : Type) [Observed τ] :
    RepliesPaired std τ := by
  intro server t t' timeout s s' entries fresh created run stops answers e inside request op sends
    replied
  obtain ⟨nothing, replies⟩ := Session.new_fresh fresh created
  have stopped := (run.restrict (P := fun s => FailStop s.records)
    (fun _ _ _ step => FailStop.of_isPrefix (Session.Step.grows step).records) stops).1
  rw [← replies] at answers
  obtain ⟨ds, shown, paired⟩ := Talker.answered_of_moves (T := Session.talker τ)
    (fun _ _ _ step => Session.Step.moves laws step.1 step.2) stopped nothing answers e inside
  obtain ⟨d, object, delivered, own, fields, sent, decoded⟩ := shown request op sends replied
  obtain ⟨placed, line⟩ := paired d delivered
  rw [sent] at placed
  rw [← own]
  refine ⟨object, fields, placed, ?_⟩
  rw [decoded, line]
  rfl

/-- Over both transports every decoded reply is the one to the operation's own
request, whatever was left unread, timed out or failed before it. -/
theorem replies_paired (std : FloatText) (laws : std.Lawful) :
    RepliesPaired std SocketTransport ∧ RepliesPaired std DirectTransport :=
  ⟨session_paired laws SocketTransport, session_paired laws DirectTransport⟩

/-- Answers the first request with an empty success and the next with a table. -/
def sampleServer (lines : List (List UInt8)) : List UInt8 :=
  if lines.length = 1 then Utf8.bytes "\x7b\"ok\":true\x7d"
  else Utf8.bytes "\x7b\"ok\":true,\"tables\":[\"t\"]\x7d"

def sampleHello : List UInt8 :=
  Utf8.bytes "\x7b\"protocol\":1,\"version\":\"1\",\"product\":\"p\"\x7d\n"

/-- The hello, a wait that expires, both replies in one chunk but for the last byte. -/
def sampleReads : List ReadResult :=
  [.ok sampleHello, .err ⟨.wouldBlock, "again"⟩,
    .ok (sampleServer [[]] ++ newline :: sampleServer []), .ok [newline]]

/-- Two writes for the first request, one for the second. -/
def sampleSink : Sink := .fresh [.ok 10, .ok 15, .ok 16] [.ok (), .ok ()]

def sampleCommands : List Command :=
  [.op (.load "a"), .op (.query "x" [.real ⟨0x7FF0000000000000⟩]), .op .tables]

def sampleSocket : SocketTransport := .fromStream sampleSink sampleReads ⟨id, 0, 1000⟩

/-- A schedule with enough steps of the thread before each look at the channel. -/
def sampleTurns : List Turn := (List.replicate 4 [.thread, .thread, .thread, .thread, .wake]).flatten

def sampleDirect : DirectTransport :=
  .start ⟨[], [], []⟩ sampleSink
    (.spawn (sampleReads.filter fun read => read.bytes ≠ []) sampleTurns ⟨id, 0, 1000⟩) none
    ⟨id, 0, 1000⟩

/-- What can be compared of a run. -/
def summary {τ : Type} [Observed τ] (run : Session τ × List (Entry τ) × Session τ) :
    List Bool × Bool × List (List UInt8) :=
  (run.2.1.map fun e => answered e.outcome, run.2.2.records.all WriteRecord.ok, run.2.2.requests)

def sampleSummary : List Bool × Bool × List (List UInt8) :=
  ([true, false, true], true,
    [content [opField "load", ("path", Json.str "a")], content [opField "tables"]])

theorem FailStop.of_all_ok {records : List WriteRecord}
    (ok : records.all WriteRecord.ok = true) : FailStop records := by
  have never : ∀ r ∈ records, r.ok ≠ false := fun r inside failed =>
    Bool.noConfusion (failed.symm.trans (List.all_eq_true.mp ok r inside))
  refine ⟨fun r inside failed => absurd failed (never r inside), ?_⟩
  exact List.pairwise_of_forall_mem_list fun r inside _ _ failed => absurd failed (never r inside)

/-- A run with the sample's summary, between a new session and its end. -/
theorem sample_run {τ : Type} [Observed τ] {t : τ} (fresh : Session.Fresh t)
    (replies : (Observed.ahead t).tail = [sampleServer [[]], sampleServer []])
    (ran : ((Session.start sampleFloatText t none sampleCommands).map fun r => r.map summary) =
      .ok (.ok sampleSummary))
    (paired : RepliesPaired sampleFloatText τ) :
    ∃ (s s' : Session τ) (entries : List (Entry τ)),
      Run (Session.Step sampleFloatText) s entries s' ∧
      (entries.map fun e => answered e.outcome) = [true, false, true] ∧
      ∀ e ∈ entries, Paired sampleFloatText sampleServer s'.requests e := by
  cases started : Session.start sampleFloatText t none sampleCommands with
  | error halt =>
      rw [started] at ran
      cases ran
  | ok made =>
      cases made with
      | error e =>
          rw [started] at ran
          cases ran
      | ok all =>
          obtain ⟨s, entries, s'⟩ := all
          have same : summary (s, entries, s') = sampleSummary := by
            rw [started] at ran
            injection ran with inner
            injection inner
          obtain ⟨⟨u, created⟩, run⟩ := Session.start_run started
          injection same with outcomes rest
          injection rest with ok requests
          refine ⟨s, s', entries, run, outcomes, ?_⟩
          refine paired sampleServer t u none s s' entries fresh created run
            (FailStop.of_all_ok ok) ?_
          rw [replies, (requests : s'.requests = _)]
          exact Conversation.answers_of_map rfl

/-- Both transports, each with a request that is refused between two that are sent. -/
theorem replies_paired_sample :
    (∃ (s s' : Session SocketTransport) (entries : List (Entry SocketTransport)),
      Run (Session.Step sampleFloatText) s entries s' ∧
      (entries.map fun e => answered e.outcome) = [true, false, true] ∧
      ∀ e ∈ entries, Paired sampleFloatText sampleServer s'.requests e) ∧
    (∃ (s s' : Session DirectTransport) (entries : List (Entry DirectTransport)),
      Run (Session.Step sampleFloatText) s entries s' ∧
      (entries.map fun e => answered e.outcome) = [true, false, true] ∧
      ∀ e ∈ entries, Paired sampleFloatText sampleServer s'.requests e) := by
  have paired := replies_paired sampleFloatText sampleFloatText_lawful
  constructor
  · apply sample_run (t := sampleSocket) ⟨rfl, rfl⟩ _ _ paired.1
    · decide +kernel
    · decide +kernel
  · apply sample_run (t := sampleDirect) ⟨rfl, rfl⟩ _ _ paired.2
    · decide +kernel
    · decide +kernel

end SanDbOxFormal.Rust
