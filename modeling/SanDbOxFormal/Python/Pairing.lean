import SanDbOxFormal.Library.Talker
import SanDbOxFormal.Python.Session

/-!
# Request/response pairing in Python

A run of a session returns to every request the reply to that very request, as long as
no wait is broken off by anything but its own timeout: the exception of a timeout that
`queue.get` does not take, or an interrupt, leaves the reply behind for the next call.
-/

namespace SanDbOxFormal.Python

open SanDbOxFormal.Library
open SanDbOxFormal.Library.Runs
open SanDbOxFormal.Library.Segments (complete)

/-- No response error of the server. -/
def PyError.plain : PyError → Bool
  | .responseError _ _ => false
  | _ => true

theorem Terminal.error_plain (e : Terminal) : e.error.plain = true := by
  cases e with
  | osError fault => cases fault <;> rfl
  | eofError => rfl
  | lineTooLong => rfl

/-! ## Waiting -/

/-- The timeout is one that `queue.get` takes, and nothing interrupts the wait before
the reply is out of the queue. -/
def Undisturbed (timeoutMax : PyFloat) (timeout : Option PyFloat) (moments : List Pump.Moment) : Prop :=
  (∀ t ∈ timeout, t.negative = false ∧ t.exceeds timeoutMax = false) ∧ .leave ∉ moments

/-- How an undisturbed `read_line` ends. -/
inductive Heard (r : LineReader) : Except PyError (List UInt8) → LineReader → Prop where
  | line {line : List UInt8} {r' : LineReader} (next : r.ahead = line :: r'.ahead) :
      Heard r (.ok line) r'
  | late {m : PyStr} {r' : LineReader} : Heard r (.error (.timeoutError m)) r'
  | ended {e : PyError} {r' : LineReader} (plain : e.plain = true) (spent : r'.ahead = []) :
      Heard r (.error e) r'
  | lost {line : List UInt8} {r' : LineReader} (next : r.ahead = line :: r'.ahead) :
      Heard r (.error .keyboardInterrupt) r'

theorem getBroken_undisturbed {timeoutMax : PyFloat} {timeout : Option PyFloat}
    {moments : List Pump.Moment} (undisturbed : Undisturbed timeoutMax timeout moments)
    {m : Pump.Moment} {b : Broken} (inside : m ∈ moments) (early : m ≠ .lose)
    (broken : getBroken timeoutMax timeout m = some b) : b = .empty := by
  have short : timeout.any (·.exceeds timeoutMax) = false := by
    cases timeout with
    | none => rfl
    | some t => exact (undisturbed.1 t rfl).2
  cases m with
  | turn => cases broken
  | look =>
      rw [getBroken, short] at broken
      cases broken
  | expire =>
      rw [getBroken, short, if_neg Bool.false_ne_true] at broken
      split_ifs at broken
      cases broken
      rfl
  | leave => exact absurd inside undisturbed.2
  | lose => exact absurd rfl early

/-- A line that `read_line` returns is the next one. -/
theorem LineReader.readLine_line {timeoutMax : PyFloat} {r r' : LineReader}
    {timeout : Option PyFloat} {moments : List Pump.Moment} {line : List UInt8}
    (read : r.readLine timeoutMax timeout moments = some (.ok line, r')) :
    r.ahead = line :: r'.ahead := by
  obtain ⟨pump, terminal⟩ := r
  cases terminal with
  | some e => cases read
  | none =>
      rw [readLine] at read
      dsimp only at read
      split at read
      · cases read
      · split at read
        · cases read
        · cases read
        · cases read
        · cases read
        · rename_i waited
          cases read
          cases Pump.wait_waited waited with
          | taken taken =>
              cases taken with
              | line next => exact next

theorem LineReader.readLine_heard {timeoutMax : PyFloat} {r r' : LineReader}
    {timeout : Option PyFloat} {moments : List Pump.Moment} {result : Except PyError (List UInt8)}
    (calm : r.terminal = none → Undisturbed timeoutMax timeout moments)
    (read : r.readLine timeoutMax timeout moments = some (result, r')) : Heard r result r' := by
  obtain ⟨pump, terminal⟩ := r
  cases terminal with
  | some e =>
      cases read
      exact .ended e.error_plain rfl
  | none =>
      have listened := read
      have undisturbed := calm rfl
      have accepted : timeout.any (·.negative) = false := by
        cases timeout with
        | none => rfl
        | some t => exact (undisturbed.1 t rfl).1
      rw [readLine] at read
      dsimp only at read
      rw [accepted, if_neg Bool.false_ne_true] at read
      split at read
      · cases read
      · cases read
        exact .late
      · rename_i e p waited
        cases read
        cases Pump.wait_waited waited with
        | lost broken taken =>
            cases broken
            cases taken with
            | line next => exact .lost next
            | ended _ spent => exact .ended rfl spent
        | left broken early inside kept =>
            cases getBroken_undisturbed undisturbed inside early broken
      · rename_i e p waited
        cases read
        exact .ended e.error_plain rfl
      · cases read
        exact .line (LineReader.readLine_line listened)

/-! ## Runs -/

inductive Command where
  | perform (operation : Operation) (timeout : TimeoutArg)
  | close

/-- One command of a run, with the session before and after it. -/
structure Entry where
  before : Session
  command : Command
  events : Events
  outcome : Except PyError Answer
  after : Session

/-- One step of a run. -/
inductive Step (pf : Platform) : Session → Entry → Session → Prop where
  | performed {s t : Session} {operation : Operation} {timeout : TimeoutArg} {events : Events}
      {outcome : Except PyError Answer}
      (returned : s.perform pf events operation timeout = some (outcome, t)) :
      Step pf s ⟨s, .perform operation timeout, events, outcome, t⟩ t
  | closed {s : Session} {events : Events} :
      Step pf s ⟨s, .close, events, .ok .none, s.close events.fault⟩ (s.close events.fault)

namespace Session

/-- The complete request lines that went out. -/
def requests (s : Session) : List (List UInt8) := complete newline s.transport.outlet.accepted

/-- What a conversation needs to see of a session. -/
def talker : Talker Session UInt8 where
  accepted s := s.transport.outlet.accepted
  ahead s := s.transport.reader.ahead
  Shut s := s.closed = true ∨ s.transport.outlet.broken ≠ none ∨ s.transport.reader.ahead = []

/-- The request goes out and the reply is waited for. -/
structure Waits (pf : Platform) (s : Session) (events : Events) (operation : Operation) : Prop where
  live : s.closed = false
  encodes : ∃ req line, operation.request pf.toPrinter = .ok req ∧ encodeRequestLine req = .ok line
  whole : s.transport.outlet.broken = none
  through : events.fault = none
  unended : s.transport.reader.terminal = none

end Session

/-- If a call waits, its wait is undisturbed. -/
def Steady (pf : Platform) (e : Entry) : Prop :=
  ∀ operation timeout, e.command = .perform operation timeout →
    e.before.Waits pf e.events operation →
    Undisturbed pf.timeoutMax (e.before.resolveTimeout timeout) e.events.moments

/-- Something of a reply came out: a result or a response error. -/
def answered : Except PyError Answer → Bool
  | .ok _ => true
  | .error e => !e.plain

/-- If the operation was answered, then from the answer to its own request line, which
is the one after those that were complete before it. -/
def Paired (pf : Platform) (server : List (List UInt8) → List UInt8)
    (requests : List (List UInt8)) (e : Entry) : Prop :=
  ∀ operation timeout, e.command = .perform operation timeout → answered e.outcome = true →
    ∃ req text, operation.request pf.toPrinter = .ok req ∧ content req = some text ∧
      requests[e.before.requests.length]? = some text ∧
      e.outcome = decodeReply pf operation (server (requests.take (e.before.requests.length + 1)))

/-! ## What a call does -/

/-- What the result of a call has to do with the reply that was taken. -/
def Accounted (pf : Platform) (s : Session) (req : Dict) (result : Except PyError Dict)
    (d : Option (Conversation.Delivery UInt8)) : Prop :=
  (∃ e, result = .error e ∧ e.plain = true) ∨
    ∃ x, d = some x ∧ x.own = s.requests.length ∧ content req = some x.content ∧
      result = responseFields pf x.line

/-- A write leaves the reading end alone. -/
theorem Transport.writeLine_wrote {t t' : Transport} {fault : Option Fault} {line : List UInt8}
    {result : Except Fault Unit} (wrote : t.writeLine fault line = (result, t')) :
    Outlet.Wrote t.outlet line result t'.outlet ∧ (result = .ok () → fault = none) ∧
      t'.reader = t.reader := by
  cases wrote
  refine ⟨Outlet.write_wrote rfl, fun through => ?_, rfl⟩
  split at through
  · cases through
  · cases through
  · rfl

theorem Transport.readLine_read {timeoutMax : PyFloat} {t t' : Transport}
    {timeout : Option PyFloat} {moments : List Pump.Moment} {result : Except PyError (List UInt8)}
    (read : t.readLine timeoutMax timeout moments = some (result, t')) :
    t.reader.readLine timeoutMax timeout moments = some (result, t'.reader) ∧
      t'.outlet = t.outlet := by
  obtain ⟨⟨heard, reader⟩, listened, same⟩ := Option.map_eq_some_iff.mp read
  cases same
  exact ⟨listened, rfl⟩

theorem encodeRequestLine_plain {req : Dict} {e : PyError}
    (failed : encodeRequestLine req = .error e) : e.plain = true := by
  unfold encodeRequestLine at failed
  split at failed
  · cases failed
  · cases failed
    rfl

/-- A call whose request went out, by how the wait for the reply ended. -/
theorem Heard.moves {pf : Platform} {s s' : Session} {req : Dict} {text : List UInt8}
    {outlet : Outlet Fault UInt8} {reader : LineReader} {heard : Except PyError (List UInt8)}
    {result : Except PyError Dict} (listened : Heard s.transport.reader heard reader)
    (live : s.closed = false) (written : content req = some text) (clean : newline ∉ text)
    (whole : s.transport.outlet.broken = none)
    (grown : outlet.accepted = s.transport.outlet.accepted ++ (text ++ [newline]))
    (sent : s'.transport.outlet = outlet) (read : s'.transport.reader = reader)
    (replied : ∀ line, heard = .ok line → result = responseFields pf line)
    (failed : ∀ e, heard = .error e → e.plain = true → ∃ e', result = .error e' ∧ e'.plain = true)
    (late : ∀ m, heard = .error (.timeoutError m) → s'.closed = true) :
    ∃ d, Accounted pf s req result d ∧ Session.talker.Move newline s s' d := by
  have same : Session.talker.accepted s' = Session.talker.accepted s ++ (text ++ [newline]) := by
    change s'.transport.outlet.accepted = _
    rw [sent, grown]
    rfl
  have usable {line : List UInt8} (next : s.transport.reader.ahead = line :: reader.ahead) :
      ¬ Session.talker.Shut s := by
    rintro (closed | broken | spent)
    · exact Bool.noConfusion (live.symm.trans closed)
    · exact broken whole
    · rw [spent] at next
      cases next
  have took {line : List UInt8} (next : s.transport.reader.ahead = line :: reader.ahead) :
      Session.talker.ahead s = line :: Session.talker.ahead s' := by
    rw [← read] at next
    exact next
  cases listened with
  | line next =>
      exact ⟨_, .inr ⟨_, rfl, rfl, written, replied _ rfl⟩, .reply (usable next) clean same (took next)⟩
  | late => exact ⟨none, .inl (failed _ rfl rfl), .leave clean same (.inl (late _ rfl))⟩
  | ended plain spent =>
      exact ⟨none, .inl (failed _ rfl plain), .leave clean same (.inr (.inr (read ▸ spent)))⟩
  | lost next => exact ⟨_, .inl (failed _ rfl rfl), .reply (usable next) clean same (took next)⟩

namespace Session

/-- How a call ends. -/
inductive Called (pf : Platform) (s : Session) (events : Events) (req : Dict)
    (timeout : TimeoutArg) : Except PyError Dict → Session → Prop where
  | closed {m : PyStr} : Called pf s events req timeout (.error (.sanDBoxError m)) s
  | refused {e : PyError} (failed : encodeRequestLine req = .error e) :
      Called pf s events req timeout (.error e) s
  | unsent {m : PyStr} {line : List UInt8} {fault : Fault} {t : Transport}
      (wrote : s.transport.writeLine events.fault line = (.error fault, t)) :
      Called pf s events req timeout (.error (.sanDBoxError m)) { s with transport := t }
  | sent {line : List UInt8} {t u : Transport} {heard : Except PyError (List UInt8)}
      {result : Except PyError Dict} {s' : Session} (live : s.closed = false)
      (encoded : encodeRequestLine req = .ok line)
      (wrote : s.transport.writeLine events.fault line = (.ok (), t))
      (read : t.readLine pf.timeoutMax (s.resolveTimeout timeout) events.moments = some (heard, u))
      (outlet : s'.transport.outlet = u.outlet) (reader : s'.transport.reader = u.reader)
      (replied : ∀ line, heard = .ok line → result = responseFields pf line)
      (failed : ∀ e, heard = .error e → e.plain = true → ∃ e', result = .error e' ∧ e'.plain = true)
      (late : ∀ m, heard = .error (.timeoutError m) → s'.closed = true) :
      Called pf s events req timeout result s'

theorem call_called {pf : Platform} {s s' : Session} {events : Events} {req : Dict}
    {timeout : TimeoutArg} {result : Except PyError Dict}
    (called : s.call pf events req timeout = some (result, s')) :
    Called pf s events req timeout result s' := by
  unfold call at called
  split at called
  · cases called
    exact .closed
  · rename_i live
    rw [Bool.not_eq_true] at live
    split at called
    · rename_i e failed
      cases called
      exact .refused failed
    · rename_i line encoded
      split at called
      · rename_i fault t wrote
        cases called
        exact .unsent wrote
      · rename_i t wrote
        split at called
        · cases called
        · rename_i reply u read
          cases called
          refine .sent live encoded wrote read rfl rfl ?_ nofun nofun
          intro line same
          cases same
          rfl
        · rename_i e u read
          split_ifs at called with timed plain
          · cases called
            exact .sent live encoded wrote read rfl rfl nofun (fun _ _ _ => ⟨_, rfl, rfl⟩)
              fun _ _ => rfl
          · cases called
            refine .sent live encoded wrote read rfl rfl nofun (fun _ _ _ => ⟨_, rfl, rfl⟩) ?_
            intro m same
            cases same
            exact absurd rfl timed
          · cases called
            refine .sent live encoded wrote read rfl rfl nofun (fun e' same plain => ?_) ?_
            · cases same
              exact ⟨e, rfl, plain⟩
            · intro m same
              cases same
              exact absurd rfl timed

/-- If the call waits for its reply, then undisturbed. -/
def Calm (pf : Platform) (s : Session) (events : Events) (req : Dict) (timeout : TimeoutArg) :
    Prop :=
  s.closed = false → (∃ line, encodeRequestLine req = .ok line) →
    s.transport.outlet.broken = none → events.fault = none →
    s.transport.reader.terminal = none →
    Undisturbed pf.timeoutMax (s.resolveTimeout timeout) events.moments

theorem Called.moves {pf : Platform} {s s' : Session} {events : Events} {req : Dict}
    {timeout : TimeoutArg} {result : Except PyError Dict}
    (called : Called pf s events req timeout result s') (each : ∀ item ∈ req, Clean item.2)
    (calm : s.Calm pf events req timeout) :
    ∃ d, Accounted pf s req result d ∧ talker.Move newline s s' d := by
  cases called with
  | closed => exact ⟨none, .inl ⟨_, rfl, rfl⟩, .quiet rfl rfl id⟩
  | refused failed =>
      exact ⟨none, .inl ⟨_, rfl, encodeRequestLine_plain failed⟩, .quiet rfl rfl id⟩
  | @unsent m line fault t wrote =>
      obtain ⟨sent, _, _⟩ := Transport.writeLine_wrote wrote
      cases sent with
      | failed dead same => exact ⟨none, .inl ⟨_, rfl, rfl⟩, .stop same (.inr (.inl dead))⟩
  | @sent line t u heard _ _ live encoded wrote read outlet reader replied failed late =>
      obtain ⟨text, written, rfl, clean⟩ := line_framed each encoded
      obtain ⟨sent, through, unread⟩ := Transport.writeLine_wrote wrote
      obtain ⟨listened, same⟩ := Transport.readLine_read read
      rw [unread] at listened
      cases sent with
      | through whole still grown =>
          refine (LineReader.readLine_heard (fun unended => ?_) listened).moves live written clean whole grown
            (outlet.trans same) reader replied failed late
          exact calm live ⟨_, encoded⟩ whole (through rfl) unended

theorem close_moves (s : Session) (fault : Option Fault) :
    talker.Move newline s (s.close fault) none := by
  unfold close
  split_ifs with closed
  · exact .quiet rfl rfl id
  · cases encoded : encodeRequestLine [op "close"] with
    | error e => exact .stop rfl (.inl rfl)
    | ok line =>
        obtain ⟨text, _, rfl, clean⟩ := line_framed (op_clean "close") encoded
        cases wrote : s.transport.writeLine fault (text ++ [newline]) with
        | mk result t =>
            obtain ⟨sent, _⟩ := Transport.writeLine_wrote wrote
            dsimp only
            rw [wrote]
            cases sent with
            | through _ _ grown => exact .leave clean grown (.inl rfl)
            | failed _ same => exact .stop same (.inl rfl)

end Session

/-! ## Steps as moves -/

theorem atParam_plain (i : Nat) {e : PyError} (plain : e.plain = true) :
    (atParam i e).plain = true := by
  cases e with
  | responseError code message => cases plain
  | _ => rfl

theorem encodeValue_plain {printer : Printer} (v : ParamValue) :
    Throws (fun e => e.plain = true) (encodeValue printer v) := by
  cases v with
  | none => exact .ok _
  | bool b => exact .error rfl
  | int n =>
      rw [encodeValue]
      split_ifs
      · exact .ok _
      · exact .error rfl
  | float x =>
      rw [encodeValue]
      split_ifs
      · exact .error rfl
      · exact .ok _
  | bytes b => exact .ok _
  | str s => exact .ok _
  | other typeName => exact .error rfl

theorem encodeItems_plain {printer : Printer} (params : List ParamValue) (i : Nat) :
    Throws (fun e => e.plain = true) (encodeItems printer i params) := by
  induction params generalizing i with
  | nil => exact .ok _
  | cons v rest ih =>
      rw [encodeItems]
      refine .bind (.mapError fun e failed => ?_) fun v _ => .bind (ih (i + 1)) fun _ _ => .ok _
      exact atParam_plain i (encodeValue_plain v e failed)

theorem sqlRequest_plain {printer : Printer} (name : String) (sql : PyStr)
    (params : List ParamValue) :
    Throws (fun e => e.plain = true) (sqlRequest printer name sql params) := by
  refine .bind ?_ fun _ _ => .ok _
  rw [encodeParams]
  split_ifs
  · exact .ok _
  · exact .bind (encodeItems_plain params 0) fun _ _ => .ok _

/-- A request that is not built fails with an error of the driver. -/
theorem request_plain {printer : Printer} (operation : Operation) :
    Throws (fun e => e.plain = true) (operation.request printer) := by
  cases operation with
  | query sql params => exact sqlRequest_plain _ sql params
  | exec sql params => exact sqlRequest_plain _ sql params
  | _ => exact .ok _

/-- An answered operation and the reply that answered it. -/
def Shows (pf : Platform) (e : Entry) (ds : List (Option (Conversation.Delivery UInt8))) : Prop :=
  ∀ operation timeout, e.command = .perform operation timeout → answered e.outcome = true →
    ∃ (d : Conversation.Delivery UInt8) (req : Dict), some d ∈ ds ∧
      d.own = e.before.requests.length ∧ operation.request pf.toPrinter = .ok req ∧
      content req = some d.content ∧ e.outcome = decodeReply pf operation d.line

theorem shows_of_plain {pf : Platform} {s s' : Session} {command : Command} {events : Events}
    {e : PyError} {ds : List (Option (Conversation.Delivery UInt8))} (plain : e.plain = true) :
    Shows pf ⟨s, command, events, .error e, s'⟩ ds := by
  intro operation timeout _ replied
  have silent : (!e.plain) = true := replied
  rw [plain] at silent
  cases silent

theorem Accounted.shows {pf : Platform} {s s' : Session} {operation : Operation}
    {timeout : TimeoutArg} {events : Events} {req : Dict} {result : Except PyError Dict}
    {d : Option (Conversation.Delivery UInt8)} {ds : List (Option (Conversation.Delivery UInt8))}
    (built : operation.request pf.toPrinter = .ok req) (inside : d ∈ ds)
    (accounted : Accounted pf s req result d) :
    Shows pf ⟨s, .perform operation timeout, events, result >>= decodeAnswer pf operation, s'⟩ ds := by
  rcases accounted with ⟨e, rfl, plain⟩ | ⟨x, rfl, own, sent, rfl⟩
  · exact shows_of_plain plain
  · intro operation' timeout' same _
    cases same
    exact ⟨x, req, inside, own, built, sent, rfl⟩

theorem Step.moves {pf : Platform} {s s' : Session} {e : Entry} (step : Step pf s e s')
    (steady : Steady pf e) :
    ∃ ds, Shows pf e ds ∧ Session.talker.Moves newline s ds s' := by
  cases step with
  | @closed events =>
      refine ⟨[none], fun operation timeout same => ?_, .single (s.close_moves events.fault)⟩
      cases same
  | @performed _ operation timeout events outcome returned =>
      have calm {req : Dict} (built : operation.request pf.toPrinter = .ok req) :
          s.Calm pf events req timeout := fun live ⟨line, encoded⟩ whole through unended =>
        steady operation timeout rfl ⟨live, ⟨req, line, built, encoded⟩, whole, through, unended⟩
      unfold Session.perform at returned
      split at returned
      · rename_i failed
        cases returned
        exact ⟨[], shows_of_plain (request_plain operation _ failed), .nil s⟩
      · rename_i req built
        split at returned
        · cases returned
        · rename_i e u called
          cases returned
          obtain ⟨d, accounted, move⟩ :=
            (Session.call_called called).moves (request_clean built) (calm built)
          exact ⟨[d], accounted.shows built List.mem_cons_self, .single move⟩
        · rename_i fields u called
          obtain ⟨d, accounted, move⟩ :=
            (Session.call_called called).moves (request_clean built) (calm built)
          split at returned
          · cases returned
            exact ⟨[d, none], accounted.shows built List.mem_cons_self,
              .cons move (.single (.stop rfl (.inl rfl)))⟩
          · cases returned
            exact ⟨[d], accounted.shows built List.mem_cons_self, .single move⟩

/-! ## From the hello on -/

/-- A new session has sent nothing and has taken the hello line. -/
theorem new_fresh {pf : Platform} {file : File} {timeout : Option PyFloat}
    {moments : List Pump.Moment} {s : Session} {t : Transport}
    (created : Session.new pf (.start file) timeout moments = some (.ok s, t)) :
    s.transport.outlet = .fresh ∧ s.transport.reader.ahead = file.lines.tail := by
  obtain ⟨⟨outcome, u⟩, read, established⟩ := Option.map_eq_some_iff.mp created
  dsimp only at established
  unfold Session.establish at established
  split at established
  · split_ifs at established <;> cases established
  · split at established
    · cases established
    · cases established
    · split_ifs at established
      · cases established
        obtain ⟨listened, outlet⟩ := Transport.readLine_read read
        have next : file.lines = _ := LineReader.readLine_line listened
        refine ⟨outlet, ?_⟩
        rw [next]
        rfl
      · split at established <;> cases established

/-- In every run whose waits are undisturbed, whatever is decoded was decoded from the
answer to the request line of that very operation. -/
theorem undisturbed_replies_paired (pf : Platform) (server : List (List UInt8) → List UInt8) (file : File)
    (timeout : Option PyFloat) (moments : List Pump.Moment) (s s' : Session) (t : Transport)
    (entries : List Entry) (created : Session.new pf (.start file) timeout moments = some (.ok s, t))
    (run : Run (Step pf) s entries s') (steady : ∀ e ∈ entries, Steady pf e)
    (answers : Conversation.Answers server s'.requests file.lines.tail) :
    ∀ e ∈ entries, Paired pf server s'.requests e := by
  intro e inside operation timeout performs replied
  obtain ⟨nothing, replies⟩ := new_fresh created
  have start : Session.talker.accepted s = [] := by
    change s.transport.outlet.accepted = []
    rw [nothing]
    rfl
  rw [← replies] at answers
  obtain ⟨ds, shown, paired⟩ := Talker.answered_of_moves (T := Session.talker)
    (fun _ _ _ step => Step.moves step.1 step.2) (run.with_labels steady) start answers e inside
  obtain ⟨d, req, delivered, own, built, sent, decoded⟩ := shown operation timeout performs replied
  obtain ⟨placed, line⟩ := paired d delivered
  rw [← own]
  refine ⟨req, d.content, built, sent, placed, ?_⟩
  rw [decoded, line]
  rfl

/-! ## Two runs -/

/-- Runs commands one after the other. -/
def Session.replay (pf : Platform) : Session → List (Command × Events) →
    Option (List Entry × Session)
  | s, [] => some ([], s)
  | s, (.perform operation timeout, events) :: rest =>
      match s.perform pf events operation timeout with
      | none => none
      | some (outcome, t) =>
          (t.replay pf rest).map fun (entries, u) =>
            (⟨s, .perform operation timeout, events, outcome, t⟩ :: entries, u)
  | s, (.close, events) :: rest =>
      let t := s.close events.fault
      (t.replay pf rest).map fun (entries, u) => (⟨s, .close, events, .ok .none, t⟩ :: entries, u)

theorem Session.replay_run {pf : Platform} {s s' : Session} {commands : List (Command × Events)}
    {entries : List Entry} (replayed : s.replay pf commands = some (entries, s')) :
    Run (Step pf) s entries s' := by
  induction commands generalizing s entries with
  | nil =>
      cases replayed
      exact .nil _
  | cons head rest ih =>
      obtain ⟨command, events⟩ := head
      cases command with
      | perform operation timeout =>
          rw [replay] at replayed
          split at replayed
          · cases replayed
          · rename_i outcome t returned
            obtain ⟨⟨more, u⟩, later, same⟩ := Option.map_eq_some_iff.mp replayed
            cases same
            exact .cons (.performed returned) (ih later)
      | close =>
          obtain ⟨⟨more, u⟩, later, same⟩ := Option.map_eq_some_iff.mp replayed
          cases same
          exact .cons .closed (ih later)

/-- Whether a wait of this entry would be undisturbed. -/
def Entry.calm (pf : Platform) (e : Entry) : Bool :=
  match e.command with
  | .close => true
  | .perform _ timeout =>
      ((e.before.resolveTimeout timeout).all fun t =>
        !t.negative && !t.exceeds pf.timeoutMax) && !e.events.moments.contains .leave

theorem Entry.calm_steady {pf : Platform} {e : Entry} (calm : e.calm pf = true) : Steady pf e := by
  intro operation timeout performs _
  unfold Entry.calm at calm
  rw [performs, Bool.and_eq_true, Bool.not_eq_true', ← Bool.not_eq_true, List.contains_iff_mem] at calm
  refine ⟨fun t given => ?_, calm.2⟩
  have fine := calm.1
  rw [(given : e.before.resolveTimeout timeout = some t)] at fine
  simpa using fine

/-- The names of the tables, where that is what came out. -/
def tables? : Except PyError Answer → Option (List PyStr)
  | .ok (.decoded (.tables names)) => some names
  | _ => none

/-- Answers the first request with the table `a` and every other with `b`. -/
def sampleServer (lines : List (List UInt8)) : List UInt8 :=
  Utf8.bytes ("\x7b\"ok\":true,\"tables\":[\"" ++ (if lines.length = 1 then "a" else "b") ++ "\"]\x7d")

def sampleFile : File :=
  ⟨Utf8.bytes "\x7b\"protocol\":1,\"version\":\"1\",\"product\":\"p\"\x7d\n" ++
    sampleServer [[]] ++ newline :: sampleServer [] ++ [newline], none⟩

/-- The thread is on time. -/
def sampleEvents : Events := ⟨none, [.look, .turn, .turn, .look]⟩

/-- A session on the sample file, and the commands replayed on it. -/
def sampleRun (commands : List (Command × Events)) : Option (Session × List Entry × Session) :=
  match Session.new samplePlatform (.start sampleFile) none sampleEvents.moments with
  | some (.ok s, _) => (s.replay samplePlatform commands).map fun (entries, s') => (s, entries, s')
  | _ => none

theorem sampleRun_run {commands : List (Command × Events)} {s s' : Session} {entries : List Entry}
    (ran : sampleRun commands = some (s, entries, s')) :
    (∃ t, Session.new samplePlatform (.start sampleFile) none sampleEvents.moments = some (.ok s, t)) ∧
      Run (Step samplePlatform) s entries s' := by
  unfold sampleRun at ran
  split at ran
  · rename_i t created
    obtain ⟨⟨more, u⟩, replayed, same⟩ := Option.map_eq_some_iff.mp ran
    cases same
    exact ⟨⟨t, created⟩, Session.replay_run replayed⟩
  · cases ran

/-- For a call for the tables, how many requests were before it, and what it returned. -/
def Entry.tables? (e : Entry) : Option (Nat × Option (List PyStr)) :=
  match e.command with
  | .perform .tables _ => some (e.before.requests.length, Python.tables? e.outcome)
  | _ => none

theorem Entry.tables?_some {e : Entry} {own : Nat} {names : Option (List PyStr)}
    (shown : e.tables? = some (own, names)) : ∃ timeout, e.command = .perform .tables timeout ∧
      e.before.requests.length = own ∧ Python.tables? e.outcome = names := by
  unfold Entry.tables? at shown
  split at shown
  · rename_i timeout performs
    cases shown
    exact ⟨timeout, performs, rfl, rfl⟩
  · cases shown

theorem answered_of_tables? {outcome : Except PyError Answer} {names : List PyStr}
    (named : tables? outcome = some names) : answered outcome = true := by
  cases outcome with
  | ok answer => rfl
  | error e => cases named

/-- The calls, the requests, and whether every wait was undisturbed. -/
structure Summary where
  calls : List (Option (Nat × Option (List PyStr)))
  requests : List (List UInt8)
  calm : Bool
  deriving DecidableEq

def summary (run : Session × List Entry × Session) : Summary :=
  ⟨run.2.1.map Entry.tables?, run.2.2.requests, run.2.1.all (Entry.calm samplePlatform)⟩

/-- The answers to the two requests of a sample run. -/
theorem sample_answers {s' : Session} {line : List UInt8} (requests : s'.requests = [line, line]) :
    Conversation.Answers sampleServer s'.requests sampleFile.lines.tail := by
  have replies : sampleFile.lines.tail = [sampleServer [[]], sampleServer []] := by decide +kernel
  rw [replies, requests]
  exact Conversation.answers_of_map rfl

def tablesLine : List UInt8 := Utf8.bytes "\x7b\"op\":\"tables\"\x7d"

/-- A command for the tables with this timeout. -/
def askTables (timeout : TimeoutArg) : Command × Events := (.perform .tables timeout, sampleEvents)

theorem sample_ran (commands : List (Command × Events))
    (results : Summary)
    (ran : (sampleRun commands).map summary = some results) :
    ∃ s entries s', (∃ t, Session.new samplePlatform (.start sampleFile) none sampleEvents.moments =
        some (.ok s, t)) ∧ Run (Step samplePlatform) s entries s' ∧
      summary (s, entries, s') = results := by
  obtain ⟨⟨s, entries, s'⟩, replayed, same⟩ := Option.map_eq_some_iff.mp ran
  obtain ⟨created, run⟩ := sampleRun_run replayed
  exact ⟨s, entries, s', created, run, same⟩

/-- Two calls with a timeout of one second. -/
theorem undisturbed_replies_paired_sample : ∃ s entries s', Run (Step samplePlatform) s entries s' ∧
    entries.map Entry.tables? = [some (0, some [lit "a"]), some (1, some [lit "b"])] ∧
    ∀ e ∈ entries, Paired samplePlatform sampleServer s'.requests e := by
  obtain ⟨s, entries, s', ⟨t, created⟩, run, same⟩ :=
    sample_ran [askTables (.given (some ⟨0x3FF0000000000000⟩)), askTables .unset]
      ⟨[some (0, some [lit "a"]), some (1, some [lit "b"])], [tablesLine, tablesLine], true⟩
      (by decide +kernel)
  injection same with outcomes requests calm
  have steady : ∀ e ∈ entries, Steady samplePlatform e := fun e inside =>
    Entry.calm_steady (List.all_eq_true.mp calm e inside)
  exact ⟨s, entries, s', run, outcomes,
    undisturbed_replies_paired samplePlatform sampleServer sampleFile none _ s s' t entries created run steady
      (sample_answers requests)⟩

/-- A timeout of minus one second is refused behind the write, so the next call returns
the reply that is left. -/
theorem replies_unpaired : ¬ ∀ (pf : Platform) (server : List (List UInt8) → List UInt8)
    (file : File) (timeout : Option PyFloat) (moments : List Pump.Moment) (s s' : Session)
    (t : Transport) (entries : List Entry),
    Session.new pf (.start file) timeout moments = some (.ok s, t) →
    Run (Step pf) s entries s' → Conversation.Answers server s'.requests file.lines.tail →
    ∀ e ∈ entries, Paired pf server s'.requests e := by
  intro paired
  obtain ⟨s, entries, s', ⟨t, created⟩, run, same⟩ :=
    sample_ran [askTables (.given (some ⟨0xBFF0000000000000⟩)), askTables .unset]
      ⟨[some (0, none), some (1, some [lit "a"])], [tablesLine, tablesLine], false⟩
      (by decide +kernel)
  injection same with outcomes requests _
  have shown : some (1, some [lit "a"]) ∈ entries.map Entry.tables? := by
    rw [outcomes]
    exact List.mem_cons_of_mem _ List.mem_cons_self
  obtain ⟨e, inside, returned⟩ := List.mem_map.mp shown
  obtain ⟨timeout, performs, own, named⟩ := Entry.tables?_some returned
  obtain ⟨req, text, _, _, _, decoded⟩ := paired samplePlatform sampleServer sampleFile none _ s s' t
    entries created run (sample_answers requests) e inside .tables timeout performs
    (answered_of_tables? named)
  rw [own, requests] at decoded
  rw [decoded] at named
  have other : tables? (decodeReply samplePlatform .tables
      (sampleServer ([tablesLine, tablesLine].take (1 + 1)))) = some [lit "b"] := by decide +kernel
  rw [other] at named
  cases named

end SanDbOxFormal.Python
