import SanDbOxFormal.Library.Exchange
import SanDbOxFormal.Library.Segments

/-!
# Conversations over two streams

The exchange of requests and replies, on streams of symbols: a request is a
segment sent on one stream, a reply the next segment that is ahead on the other.
A conversation refines the counting exchange, so a reply taken by a request is the
one at the request's own place.
-/

namespace SanDbOxFormal.Library.Conversation

open SanDbOxFormal.Library.Runs
open SanDbOxFormal.Library.Segments

variable {α : Type} [DecidableEq α]

/-- A request that waits: its place among all complete requests, and its content. -/
structure Pending (α : Type) where
  own : Nat
  content : List α

structure State (α : Type) where
  /-- Everything sent so far. -/
  accepted : List α
  /-- The segments of the other side that have not been taken. -/
  ahead : List (List α)
  waiting : Option (Pending α)
  /-- No segment will be returned any more. -/
  shut : Bool

def init (replies : List (List α)) : State α := ⟨[], replies, none, false⟩

/-- The reply returned to a request. -/
structure Delivery (α : Type) extends Pending α where
  line : List α

variable (sep : α)

inductive Step : State α → Option (Delivery α) → State α → Prop where
  | send {a : State α} {content : List α} (clean : sep ∉ content) (idle : a.waiting = none) :
      Step a none { a with
        accepted := a.accepted ++ (content ++ [sep])
        waiting := some ⟨(complete sep a.accepted).length, content⟩ }
  | take {a : State α} {p : Pending α} {line : List α} {rest : List (List α)}
      (waits : a.waiting = some p) (usable : a.shut = false) (next : a.ahead = line :: rest) :
      Step a (some ⟨p, line⟩) { a with ahead := rest, waiting := none }
  | leave {a : State α} {p : Pending α} (waits : a.waiting = some p) :
      Step a none { a with waiting := none, shut := true }
  | shut {a : State α} : Step a none { a with shut := true }
  /-- Once shut, anything may be sent or dropped, but nothing is returned. -/
  | stray {a b : State α} (before : a.shut = true) (after : b.shut = true)
      (grown : a.accepted <+: b.accepted) : Step a none b

variable {sep}

theorem Step.grown {a b : State α} {d : Option (Delivery α)} (step : Step sep a d b) :
    a.accepted <+: b.accepted := by
  cases step with
  | send => exact List.prefix_append _ _
  | take => exact List.prefix_rfl
  | leave => exact List.prefix_rfl
  | shut => exact List.prefix_rfl
  | stray _ _ grown => exact grown

theorem run_grown {a b : State α} {ds : List (Option (Delivery α))}
    (run : Run (Step sep) a ds b) : a.accepted <+: b.accepted :=
  run.follows (R := fun a b => a.accepted <+: b.accepted) (fun _ => List.prefix_rfl)
    (fun _ _ _ => List.IsPrefix.trans) (fun _ _ _ => Step.grown)

/-! ## Counting -/

/-- What the exchange has counted while replies may still be returned. -/
structure Even (sep : α) (replies : List (List α)) (c : State α) (a : Exchange.State) : Prop where
  waiting : a.waiting = c.waiting.map Pending.own
  sent : a.sent = (complete sep c.accepted).length
  whole : remainder sep c.accepted = []
  taken : replies.drop a.taken = c.ahead
  /-- The request that waits is the one at its place. -/
  placed : ∀ p, c.waiting = some p → (complete sep c.accepted)[p.own]? = some p.content

/-- The conversation over `replies` and the exchange that counts its segments. -/
structure Counted (sep : α) (replies : List (List α)) (c : State α) (a : Exchange.State) :
    Prop where
  shut : a.shut = c.shut
  even : c.shut = false → Even sep replies c a

theorem Counted.of_shut {replies : List (List α)} {c : State α} {a : Exchange.State}
    (quiet : c.shut = true) (shut : a.shut = true) : Counted sep replies c a :=
  ⟨shut.trans quiet.symm, fun usable => Bool.noConfusion (usable.symm.trans quiet)⟩

/-- A whole request extends the complete segments by itself. -/
theorem sent_whole {accepted content : List α} (clean : sep ∉ content)
    (whole : remainder sep accepted = []) :
    complete sep (accepted ++ (content ++ [sep])) = complete sep accepted ++ [content] ∧
      remainder sep (accepted ++ (content ++ [sep])) = [] := by
  constructor
  · rw [complete_append, whole, List.nil_append, complete_segment clean, complete_nil]
  · rw [remainder_append, whole, List.nil_append, remainder_segment clean, remainder_nil]

/-- What one delivery says: which request it is for and which reply it is. -/
def Numbered (sep : α) (replies : List (List α)) (c : State α) (d : Option (Delivery α))
    (ds : List (Option Exchange.Delivery)) : Prop :=
  ∀ delivered, d = some delivered →
    (complete sep c.accepted)[delivered.own]? = some delivered.content ∧
      ∃ reply, some ⟨delivered.own, reply⟩ ∈ ds ∧ replies[reply]? = some delivered.line

theorem numbered_none {replies : List (List α)} {c : State α}
    {ds : List (Option Exchange.Delivery)} : Numbered sep replies c none ds := by
  intro delivered same
  cases same

theorem Step.counted {replies : List (List α)} {c c' : State α} {d : Option (Delivery α)}
    {a : Exchange.State} (counted : Counted sep replies c a) (step : Step sep c d c') :
    ∃ ds b, Numbered sep replies c' d ds ∧ Run Exchange.Step a ds b ∧
      Counted sep replies c' b := by
  cases step with
  | @send content clean idle =>
      by_cases shut : c.shut = true
      · exact ⟨[], a, numbered_none, .nil a, .of_shut shut (counted.shut.trans shut)⟩
      · obtain ⟨waiting, sent, whole, taken, placed⟩ := counted.even (Bool.eq_false_iff.mpr shut)
        obtain ⟨all, flushed⟩ := sent_whole clean whole
        rw [idle] at waiting
        refine ⟨[none], _, numbered_none, .single (.send waiting), counted.shut, fun _ => ?_⟩
        refine ⟨?_, ?_, flushed, taken, fun p same => ?_⟩
        · rw [sent]
          rfl
        · rw [all, List.length_append, sent]
          rfl
        · cases same
          rw [all, List.getElem?_append_right (Nat.le_refl _), Nat.sub_self]
          rfl
  | @take p line rest waits usable next =>
      obtain ⟨waiting, sent, whole, taken, placed⟩ := counted.even usable
      rw [waits] at waiting
      rw [next] at taken
      refine ⟨[some ⟨p.own, a.taken⟩], _, fun delivered same => ?_,
        .single (.take waiting (counted.shut.trans usable)), counted.shut, fun _ => ?_⟩
      · cases same
        refine ⟨placed p waits, a.taken, List.mem_cons_self, ?_⟩
        rw [← Nat.add_zero a.taken, ← List.getElem?_drop, taken]
        rfl
      · refine ⟨rfl, sent, whole, ?_, fun p' same => ?_⟩
        · rw [← List.drop_drop, taken]
          rfl
        · cases same
  | leave waits =>
      exact ⟨[none], _, numbered_none, .single .shut, .of_shut rfl rfl⟩
  | shut => exact ⟨[none], _, numbered_none, .single .shut, .of_shut rfl rfl⟩
  | stray before after grown =>
      exact ⟨[], a, numbered_none, .nil a, .of_shut after (counted.shut.trans before)⟩

theorem counted_init (replies : List (List α)) :
    Counted sep replies (init replies) Exchange.init :=
  ⟨rfl, fun _ => ⟨rfl, rfl, rfl, rfl, fun p same => by cases same⟩⟩

/-! ## Pairing -/

theorem counted_paired {replies : List (List α)} {c c' : State α} {a : Exchange.State}
    {ds : List (Option (Delivery α))} (run : Run (Step sep) c ds c')
    (counted : Counted sep replies c a) (aligned : Exchange.Aligned a) : ∀ d, some d ∈ ds →
      (complete sep c'.accepted)[d.own]? = some d.content ∧ replies[d.own]? = some d.line := by
  induction run generalizing a with
  | nil c =>
      intro d inside
      cases inside
  | cons head rest ih =>
      obtain ⟨counts, b, numbered, ran, next⟩ := head.counted counted
      intro d inside
      rcases List.mem_cons.mp inside with same | later
      · obtain ⟨placed, reply, delivered, line⟩ := numbered d same.symm
        have own := Exchange.run_paired ran aligned _ delivered
        dsimp only at own
        rw [own, line]
        rw [own] at placed
        exact ⟨complete_kept (run_grown rest) placed, rfl⟩
      · exact ih next (ran.invariant (fun _ _ _ before step => step.aligned before) aligned) d later

/-- Every delivery of a conversation is the reply at the place of its request. -/
theorem run_paired {replies : List (List α)} {c : State α} {ds : List (Option (Delivery α))}
    (run : Run (Step sep) (init replies) ds c) : ∀ d, some d ∈ ds →
      (complete sep c.accepted)[d.own]? = some d.content ∧ replies[d.own]? = some d.line :=
  counted_paired run (counted_init replies) Exchange.aligned_init

/-- The replies are the answers to the requests, one each and in order; an answer
may depend on every request before it. -/
def Answers (server : List (List α) → List α) (requests replies : List (List α)) : Prop :=
  ∀ k line, replies[k]? = some line → k < requests.length → line = server (requests.take (k + 1))

omit [DecidableEq α] in
theorem answers_of_map {server : List (List α) → List α} {requests replies : List (List α)}
    (same : replies = (List.range requests.length).map fun k => server (requests.take (k + 1))) :
    Answers server requests replies := by
  intro k line there small
  rw [same, List.getElem?_map, List.getElem?_range small] at there
  cases there
  rfl

/-- A delivery is for the request at its place and is the answer to it. -/
def Answered (server : List (List α) → List α) (requests : List (List α)) (d : Delivery α) : Prop :=
  requests[d.own]? = some d.content ∧ d.line = server (requests.take (d.own + 1))

/-- A system that talks by a conversation returns to every request the answer to
that very request; `shows` says which deliveries a step of the system makes. -/
theorem answered_of_simulation {σ ε : Type} {step : σ → ε → σ → Prop} {R : σ → State α → Prop}
    {shows : ε → List (Option (Delivery α)) → Prop} {server : List (List α) → List α}
    {replies : List (List α)} {sent : σ → List α}
    (sim : ∀ s e t c, R s c → step s e t →
      ∃ ds c', shows e ds ∧ Run (Step sep) c ds c' ∧ R t c')
    (same : ∀ s c, R s c → c.accepted = sent s) {s t : σ} {es : List ε} (run : Run step s es t)
    (start : R s (init replies))
    (answers : Answers server (complete sep (sent t)) replies) :
    ∀ e ∈ es, ∃ ds, shows e ds ∧ ∀ d, some d ∈ ds → Answered server (complete sep (sent t)) d := by
  obtain ⟨labels, c, each, talked, final⟩ := run.simulates sim start
  have paired := run_paired talked
  rw [same t c final] at paired
  intro e inside
  obtain ⟨ds, member, shown⟩ := each e inside
  refine ⟨ds, shown, fun d delivered => ?_⟩
  obtain ⟨placed, line⟩ := paired d (List.mem_flatten.mpr ⟨ds, member, delivered⟩)
  exact ⟨placed, answers d.own d.line line (List.getElem?_eq_some_iff.mp placed).1⟩

end SanDbOxFormal.Library.Conversation
