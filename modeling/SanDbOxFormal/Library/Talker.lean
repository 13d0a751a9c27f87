import SanDbOxFormal.Library.Conversation

/-!
# Systems that talk

A system is seen through what it has sent, what is ahead of it, and whether it
still returns anything.  If each of its steps is one of a few moves, its runs are
conversations, so every reply that it returns is the one at the request's place.
-/

namespace SanDbOxFormal.Library

open SanDbOxFormal.Library.Runs
open SanDbOxFormal.Library.Segments

/-- What a conversation needs to see of a system. -/
structure Talker (σ α : Type) where
  /-- Everything the system has sent. -/
  accepted : σ → List α
  /-- The segments of the other side that it has not taken. -/
  ahead : σ → List (List α)
  /-- Nothing that the system returns from here on is a reply. -/
  Shut : σ → Prop

namespace Talker

variable {σ ε α : Type} [DecidableEq α]

/-- A request and the reply that was returned for it, with the request's place. -/
abbrev Exchanged (α : Type) := Conversation.Delivery α

/-- The moves of a system; a label is the reply that the move returned. -/
inductive Move (T : Talker σ α) (sep : α) (s s' : σ) : Option (Exchanged α) → Prop where
  /-- Nothing was sent or taken. -/
  | quiet (same : T.accepted s' = T.accepted s) (kept : T.ahead s' = T.ahead s)
      (shut : T.Shut s → T.Shut s') : Move T sep s s' none
  /-- Whatever was sent, nothing will be returned. -/
  | cut (grown : T.accepted s <+: T.accepted s') (shut : T.Shut s') : Move T sep s s' none
  /-- A request was sent and left without its reply. -/
  | leave {content : List α} (clean : sep ∉ content)
      (sent : T.accepted s' = T.accepted s ++ (content ++ [sep])) (shut : T.Shut s') :
      Move T sep s s' none
  /-- A request was sent and its reply returned. -/
  | reply {content line : List α} (usable : ¬ T.Shut s) (clean : sep ∉ content)
      (sent : T.accepted s' = T.accepted s ++ (content ++ [sep]))
      (next : T.ahead s = line :: T.ahead s') :
      Move T sep s s' (some ⟨⟨(complete sep (T.accepted s)).length, content⟩, line⟩)

variable {T : Talker σ α} {sep : α}

/-- Nothing was sent, and nothing will be returned. -/
theorem Move.stop {s s' : σ} (same : T.accepted s' = T.accepted s) (shut : T.Shut s') :
    T.Move sep s s' none :=
  .cut (same ▸ List.prefix_rfl) shut

theorem Move.stays_shut {s s' : σ} {d : Option (Exchanged α)} (move : T.Move sep s s' d)
    (shut : T.Shut s) : T.Shut s' ∧ d = none := by
  cases move with
  | quiet _ _ stays => exact ⟨stays shut, rfl⟩
  | cut _ after => exact ⟨after, rfl⟩
  | leave _ _ after => exact ⟨after, rfl⟩
  | reply usable => exact absurd shut usable

/-- A system between two moves and the state of its conversation. -/
structure Talks (T : Talker σ α) (s : σ) (c : Conversation.State α) : Prop where
  idle : c.waiting = none
  sent : c.accepted = T.accepted s
  ahead : c.shut = false → c.ahead = T.ahead s
  shut : c.shut = true → T.Shut s

omit [DecidableEq α] in
theorem Talks.of_shut {s : σ} {c : Conversation.State α} (idle : c.waiting = none)
    (sent : c.accepted = T.accepted s) (shut : c.shut = true) (quiet : T.Shut s) : Talks T s c :=
  ⟨idle, sent, fun usable => Bool.noConfusion (usable.symm.trans shut), fun _ => quiet⟩

theorem Move.talks {s s' : σ} {d : Option (Exchanged α)} {c : Conversation.State α}
    (move : T.Move sep s s' d) (talks : Talks T s c) :
    ∃ ds c', (∀ e, d = some e → some e ∈ ds) ∧ Run (Conversation.Step sep) c ds c' ∧
      Talks T s' c' := by
  have silent (ds : List (Option (Exchanged α))) : ∀ e, none = some e → some e ∈ ds := by
    intro e same
    cases same
  cases move with
  | quiet same kept stays =>
      refine ⟨[], c, silent _, .nil c, talks.idle, talks.sent.trans same.symm, fun usable => ?_,
        fun shut => stays (talks.shut shut)⟩
      rw [talks.ahead usable, kept]
  | cut grown shut =>
      exact ⟨[none, none], { c with shut := true, accepted := T.accepted s' }, silent _,
        .cons .shut (.single (.stray rfl rfl (talks.sent ▸ grown))), .of_shut talks.idle rfl rfl shut⟩
  | leave clean sent shut =>
      have send := Conversation.Step.send clean talks.idle
      refine ⟨[none, none], _, silent _, .cons send (.single (.leave rfl)),
        .of_shut rfl ?_ rfl shut⟩
      rw [sent, ← talks.sent]
  | @reply content line usable clean sent next =>
      have running : c.shut = false := Bool.eq_false_iff.mpr fun shut => usable (talks.shut shut)
      have first : c.ahead = line :: T.ahead s' := by rw [talks.ahead running, next]
      have send := Conversation.Step.send clean talks.idle
      rw [← talks.sent] at sent ⊢
      refine ⟨[none, some ⟨⟨(complete sep c.accepted).length, content⟩, line⟩], _, ?_,
        .cons send (.single (.take rfl running first)), rfl, sent.symm, fun _ => rfl, fun shut => ?_⟩
      · intro e same
        cases same
        exact List.mem_cons_of_mem _ List.mem_cons_self
      · exact Bool.noConfusion (running.symm.trans shut)

/-- A run of moves. -/
abbrev Moves (T : Talker σ α) (sep : α) : σ → List (Option (Exchanged α)) → σ → Prop :=
  Run fun s d s' => T.Move sep s s' d

theorem Moves.talks {s s' : σ} {ds : List (Option (Exchanged α))} {c : Conversation.State α}
    (moves : T.Moves sep s ds s') (talks : Talks T s c) :
    ∃ es c', (∀ e, some e ∈ ds → some e ∈ es) ∧ Run (Conversation.Step sep) c es c' ∧
      Talks T s' c' := by
  induction moves generalizing c with
  | nil s =>
      refine ⟨[], c, fun e inside => ?_, .nil c, talks⟩
      cases inside
  | cons move _ ih =>
      obtain ⟨first, mid, shown, ran, next⟩ := move.talks talks
      obtain ⟨rest, last, more, later, final⟩ := ih next
      refine ⟨first ++ rest, last, fun e inside => ?_, ran.append later, final⟩
      rcases List.mem_cons.mp inside with same | behind
      · exact List.mem_append_left _ (shown e same.symm)
      · exact List.mem_append_right _ (more e behind)

/-- A system whose steps are moves returns to every request the answer to that very
request; `shows` says which replies a step returned. -/
theorem answered_of_moves {step : σ → ε → σ → Prop} {shows : ε → List (Option (Exchanged α)) → Prop}
    {server : List (List α) → List α}
    (moved : ∀ s e s', step s e s' → ∃ ds, shows e ds ∧ T.Moves sep s ds s') {s s' : σ}
    {es : List ε} (run : Run step s es s') (start : T.accepted s = [])
    (answers : Conversation.Answers server (complete sep (T.accepted s')) (T.ahead s)) :
    ∀ e ∈ es, ∃ ds, shows e ds ∧
      ∀ d, some d ∈ ds → Conversation.Answered server (complete sep (T.accepted s')) d := by
  have simulated : ∀ s e s' c, Talks T s c → step s e s' → ∃ ds c',
      (∃ inner, shows e inner ∧ ∀ d, some d ∈ inner → some d ∈ ds) ∧
        Run (Conversation.Step sep) c ds c' ∧ Talks T s' c' := by
    intro s e s' c talks taken
    obtain ⟨inner, shown, moves⟩ := moved s e s' taken
    obtain ⟨ds, c', more, ran, next⟩ := moves.talks talks
    exact ⟨ds, c', ⟨inner, shown, more⟩, ran, next⟩
  have fresh : Talks T s (Conversation.init (T.ahead s)) :=
    ⟨rfl, start.symm, fun _ => rfl, fun shut => by cases shut⟩
  intro e inside
  obtain ⟨ds, ⟨inner, shown, more⟩, answered⟩ := Conversation.answered_of_simulation simulated
    (fun _ _ talks => talks.sent) run fresh answers e inside
  exact ⟨inner, shown, fun d delivered => answered d (more d delivered)⟩

end Talker

end SanDbOxFormal.Library
