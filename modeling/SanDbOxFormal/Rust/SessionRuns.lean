import SanDbOxFormal.Library.Runs
import SanDbOxFormal.Rust.Session

/-!
# Runs of a session

A run is a sequence of operations and changes of the timeout, each of which
returned.  What a call, a close and an operation can do is said once here, case
by case; every invariant of a run is read off these cases.
-/

namespace SanDbOxFormal.Rust

open SanDbOxFormal.Library.Rfc8259 (Json)
open SanDbOxFormal.Library.Runs
open SanDbOxFormal.Rust.Codec

inductive Command where
  | op (request : Request)
  | setTimeout (t : Option Nat)
  deriving DecidableEq

/-- One command of a run, with the session before and after it. -/
structure Entry (τ : Type) where
  before : Session τ
  command : Command
  outcome : Except Error Answer
  after : Session τ

namespace Session

variable {τ : Type} [Transport τ]

def run (std : FloatText) (s : Session τ) : Command → Exec (Except Error Answer × Session τ)
  | .op request => s.perform std request
  | .setTimeout t => .ok (.ok .setTimeout, s.setTimeout t)

/-- Runs the commands one after the other and keeps what happened. -/
def replay (std : FloatText) : Session τ → List Command → Exec (List (Entry τ) × Session τ) :=
  Library.Runs.replay (run std) .mk

/-- One step of a run. -/
inductive Step (std : FloatText) : Session τ → Entry τ → Session τ → Prop where
  | ran {s t : Session τ} {c : Command} {outcome : Except Error Answer}
      (returned : s.run std c = .ok (outcome, t)) : Step std s ⟨s, c, outcome, t⟩ t

/-- Creates a session and runs the commands on it. -/
def start (std : FloatText) (transport : τ) (timeout : Option Nat) (commands : List Command) :
    Exec (Except Error (Session τ × List (Entry τ) × Session τ)) := do
  let (created, _) ← Session.new transport timeout
  match created with
  | .error e => .ok (.error e)
  | .ok s => do
      let (entries, t) ← s.replay std commands
      .ok (.ok (s, entries, t))

theorem start_run {std : FloatText} {transport : τ} {timeout : Option Nat}
    {commands : List Command} {s t : Session τ} {entries : List (Entry τ)}
    (started : start std transport timeout commands = .ok (.ok (s, entries, t))) :
    (∃ u, Session.new transport timeout = .ok (.ok s, u)) ∧ Run (Step std) s entries t := by
  obtain ⟨⟨made, u⟩, created, rest⟩ := Exec.bind_ok started
  cases made with
  | error e => cases rest
  | ok first =>
      obtain ⟨⟨others, last⟩, replayed, same⟩ := Exec.bind_ok rest
      cases same
      exact ⟨⟨u, created⟩, replay_run (fun _ _ _ _ => .ran) replayed⟩

/-! ## What a call can do -/

/-- The ways in which a call returns. -/
inductive Called (s : Session τ) (fields : List (String × Json)) :
    Except Error Json → Session τ → Prop where
  | closed (shut : s.closed = true) : Called s fields (.error .closed) s
  | unsent {e : Error} {t : τ} (live : s.closed = false)
      (wrote : Transport.writeLine s.transport (encodeRequestLine fields) = .ok (.error e, t)) :
      Called s fields (.error e) { s with transport := t }
  | late {text : String} {t u v : τ} (live : s.closed = false)
      (wrote : Transport.writeLine s.transport (encodeRequestLine fields) = .ok (.ok (), t))
      (read : Transport.readLine t s.defaultTimeout = .ok (.error (.timeout text), u))
      (torn : Transport.close u closeTimeout = .ok v) :
      Called s fields (.error (.timeout text)) { s with closed := true, transport := v }
  | failed {e : Error} {t u : τ} (live : s.closed = false)
      (wrote : Transport.writeLine s.transport (encodeRequestLine fields) = .ok (.ok (), t))
      (read : Transport.readLine t s.defaultTimeout = .ok (.error e, u))
      (other : ∀ text, e ≠ .timeout text) : Called s fields (.error e) { s with transport := u }
  | replied {line : List UInt8} {t u : τ} (live : s.closed = false)
      (wrote : Transport.writeLine s.transport (encodeRequestLine fields) = .ok (.ok (), t))
      (read : Transport.readLine t s.defaultTimeout = .ok (.ok line, u)) :
      Called s fields (responseFields line) { s with transport := u }

theorem call_called {s s' : Session τ} {fields : List (String × Json)}
    {result : Except Error Json} (returned : s.call fields = .ok (result, s')) :
    Called s fields result s' := by
  rw [call] at returned
  split at returned
  · rename_i shut
    cases returned
    exact .closed shut
  · rename_i live
    have live := Bool.eq_false_iff.mpr live
    obtain ⟨⟨written, t⟩, wrote, rest⟩ := Exec.bind_ok returned
    cases written with
    | error e =>
        cases rest
        exact .unsent live wrote
    | ok =>
        obtain ⟨⟨answer, u⟩, read, last⟩ := Exec.bind_ok rest
        dsimp only at read last
        split at last
        · cases last
          exact .replied live wrote read
        · obtain ⟨v, torn, same⟩ := Exec.bind_ok last
          cases same
          exact .late live wrote read torn
        · rename_i e other
          cases last
          exact .failed live wrote read fun text same => other text same

/-- The ways in which a close returns. -/
inductive Closing (s : Session τ) : Session τ → Prop where
  | already (shut : s.closed = true) : Closing s s
  | unsent {e : Error} {t u : τ} (live : s.closed = false)
      (wrote : Transport.writeLine s.transport (encodeRequestLine [opField "close"]) =
        .ok (.error e, t))
      (torn : Transport.close t closeTimeout = .ok u) :
      Closing s { s with closed := true, transport := u }
  | sent {reply : Except Error (List UInt8)} {t u v : τ} (live : s.closed = false)
      (wrote : Transport.writeLine s.transport (encodeRequestLine [opField "close"]) =
        .ok (.ok (), t))
      (read : Transport.readLine t (some closeTimeout) = .ok (reply, u))
      (torn : Transport.close u closeTimeout = .ok v) :
      Closing s { s with closed := true, transport := v }

theorem close_closing {s s' : Session τ} (returned : s.close = .ok s') : Closing s s' := by
  rw [close] at returned
  split at returned
  · rename_i shut
    cases returned
    exact .already shut
  · rename_i live
    have live := Bool.eq_false_iff.mpr live
    obtain ⟨⟨sent, t⟩, wrote, rest⟩ := Exec.bind_ok returned
    obtain ⟨u, dropped, last⟩ := Exec.bind_ok rest
    obtain ⟨v, torn, same⟩ := Exec.bind_ok last
    cases same
    cases sent with
    | error e =>
        cases dropped
        exact .unsent live wrote torn
    | ok =>
        obtain ⟨⟨reply, w⟩, read, same⟩ := Exec.bind_ok dropped
        cases same
        exact .sent live wrote read torn

theorem Closing.closed {s s' : Session τ} (closing : Closing s s') : s'.closed = true := by
  cases closing with
  | already shut => exact shut
  | unsent => rfl
  | sent => rfl

/-! ## What an operation can do -/

/-- The answer that an operation makes of the fields of its response. -/
def decodeAnswer (std : FloatText) : Request → Json → Except Error Answer
  | .query _ _, fields => .query <$> decodeQueryResponse std fields
  | .exec _ _, fields => .exec <$> decodeExecResponse fields
  | .snapshot _, fields => .snapshot <$> decodeSnapshotResponse fields
  | .load _, _ => .ok .load
  | .inspect, fields => .inspect <$> decodeInspectResponse fields
  | .tables, fields => .tables <$> decodeTablesResponse fields
  | .schema _, fields => .schema <$> decodeSchemaResponse fields
  | .dump _, fields => .dump <$> decodeDumpResponse fields
  | .overwrite, _ => .ok .overwrite
  | .close, _ => .ok .close

/-- The ways in which an operation returns: its parameters do not encode, or it
makes one call, or it is an overwrite that succeeded and closes, or a close. -/
inductive Performed (std : FloatText) (s : Session τ) (request : Request) :
    Except Error Answer → Session τ → Prop where
  | refused {e : Error} (fields : request.fields std = .error e) :
      Performed std s request (.error e) s
  | called {object : List (String × Json)} {result : Except Error Json} {s' : Session τ}
      (sends : request ≠ .close) (fields : request.fields std = .ok object)
      (called : Called s object result s') :
      Performed std s request (result >>= decodeAnswer std request) s'
  | overwritten {object : List (String × Json)} {json : Json} {mid s' : Session τ}
      (is : request = .overwrite) (fields : request.fields std = .ok object)
      (called : Called s object (.ok json) mid) (closing : Closing mid s') :
      Performed std s request (.ok .overwrite) s'
  | closed {s' : Session τ} (is : request = .close) (closing : Closing s s') :
      Performed std s request (.ok .close) s'

variable {std : FloatText}

/-- Under its tag, an operation that asks is one of the first two kinds. -/
theorem tag_ask_performed {α : Type} {f : α → Answer} {s s' : Session τ} {request : Request}
    {decode : Json → Except Error α} {outcome : Except Error Answer} (sends : request ≠ .close)
    (decoded : ∀ json, f <$> decode json = decodeAnswer std request json)
    (returned : tag f (s.ask (request.fields std) decode) = .ok (outcome, s')) :
    Performed std s request outcome s' := by
  obtain ⟨⟨result, t⟩, asked, same⟩ := Exec.bind_ok returned
  cases same
  unfold ask at asked
  split at asked
  · rename_i e fields
    cases asked
    exact .refused fields
  · rename_i object fields
    obtain ⟨⟨json, u⟩, called, same⟩ := Exec.bind_ok asked
    cases same
    have bound : f <$> (json >>= decode) = json >>= decodeAnswer std request := by
      cases json with
      | error e => rfl
      | ok v => exact decoded v
    rw [bound]
    exact .called sends fields (call_called called)

theorem overwrite_performed {s s' : Session τ} {outcome : Except Error Answer}
    (returned : tag (fun _ => .overwrite) (s.overwrite std) = .ok (outcome, s')) :
    Performed std s .overwrite outcome s' := by
  obtain ⟨⟨result, t⟩, overwritten, same⟩ := Exec.bind_ok returned
  cases same
  obtain ⟨⟨asked, u⟩, called, rest⟩ := Exec.bind_ok overwritten
  obtain ⟨⟨json, v⟩, called, same⟩ := Exec.bind_ok (called : s.call [opField "overwrite"] >>= _ = _)
  cases same
  cases json with
  | error e =>
      cases rest
      have failed : Called s [opField "overwrite"] (.error e) s' := call_called called
      exact .called (by decide) rfl failed
  | ok v =>
      obtain ⟨w, closed, same⟩ := Exec.bind_ok rest
      cases same
      have replied : Called s [opField "overwrite"] (.ok v) u := call_called called
      exact .overwritten rfl rfl replied (close_closing closed)

theorem perform_performed {s s' : Session τ} {request : Request} {outcome : Except Error Answer}
    (returned : s.perform std request = .ok (outcome, s')) :
    Performed std s request outcome s' := by
  cases request with
  | query sql params => exact tag_ask_performed (by simp) (fun _ => rfl) returned
  | exec sql params => exact tag_ask_performed (by simp) (fun _ => rfl) returned
  | snapshot opts => exact tag_ask_performed (by simp) (fun _ => rfl) returned
  | load path => exact tag_ask_performed (by simp) (fun _ => rfl) returned
  | inspect => exact tag_ask_performed (by simp) (fun _ => rfl) returned
  | tables => exact tag_ask_performed (by simp) (fun _ => rfl) returned
  | schema table => exact tag_ask_performed (by simp) (fun _ => rfl) returned
  | dump pattern => exact tag_ask_performed (by simp) (fun _ => rfl) returned
  | overwrite => exact overwrite_performed returned
  | close =>
      obtain ⟨t, closed, same⟩ := Exec.bind_ok returned
      cases same
      exact .closed rfl (close_closing closed)

end Session

end SanDbOxFormal.Rust
