import SanDbOxFormal.Java.Session
import SanDbOxFormal.Java.Transports
import SanDbOxFormal.Library.Talker

/-!
# Requests and replies of a Java session

Every operation of a session is a move of a talker, as long as no wait is broken off: it takes
the reply to what it sent, or the session is shut.
-/

namespace SanDbOxFormal.Java

open SanDbOxFormal.Library
open SanDbOxFormal.Library.Runs
open SanDbOxFormal.Library.Segments
open SanDbOxFormal.Java.Codec
open SanDbOxFormal.Java.Codec.JsonParser (Stop)
open SanDbOxFormal.Java.Transport (TransportException Thrown)

/-- A decoded result, or an error that the server sent. -/
def answered {α : Type} : Except Exception α → Bool
  | .ok _ => true
  | .error (.response _ _) => true
  | .error _ => false

/-- What is thrown for a connection that is no longer of use. -/
inductive Lost {α : Type} : Except Exception α → Prop where
  | readTimeout (m : JString) : Lost (.error (.readTimeout m))
  | connectionClosed (m : JString) : Lost (.error (.connectionClosed m))
  | sanDbOx (m : JString) : Lost (.error (.sanDbOx m))

theorem translate_silent {α : Type} (e : TransportException) : answered (.error (translate e) : Except Exception α) = false := by
  unfold translate
  split <;> rfl

/-- What comes of a line is never that the connection is lost. -/
theorem receive_kept (jvm : Jvm) (request : Request) (line : List UInt8) : ¬ Lost (receive jvm request line) := by
  have wrapped {α : Type} (before : String) (e : Stop) : ¬ Lost (.error (caught before e) : Except Exception α) := by
    cases e with
    | codec m => rintro ⟨⟩
    | stackOverflow => rintro ⟨⟩
    | turns => rintro ⟨⟩
  unfold receive reply
  cases responseLine jvm line with
  | error e => exact wrapped _ e
  | ok r =>
      dsimp only
      split
      · change ¬ Lost ((decoder jvm request r).mapError (caught ""))
        cases decoder jvm request r with
        | error e => exact wrapped _ e
        | ok result => rintro ⟨⟩
      · split
        · rintro ⟨⟩
        · rintro ⟨⟩

namespace SessionOver

variable {τ : Type} [Wired τ] [Speaks τ]

/-- Nothing that the session returns from here on is a reply. -/
def Shut (s : SessionOver τ) : Prop := s.closed = true ∨ Speaks.Silent s.transport ∨ s.wire.Spoilt

variable (τ) in
def talker : Talker (SessionOver τ) UInt8 where
  accepted := fun s => s.wire.accepted
  ahead := fun s => Speaks.ahead s.transport
  Shut := Shut

/-- The place that the next request has on the wire. -/
def place (s : SessionOver τ) : ℕ := (complete newline s.wire.accepted).length

/-- What the outcome of an operation says about its move. -/
inductive Told (jdk : Jdk) (jvm : Jvm) (s : SessionOver τ) (request : Request) (outcome : Except Exception (Option Result)) :
    Option (Conversation.Delivery UInt8) → Prop where
  | own (silent : answered outcome = false) : Told jdk jvm s request outcome none
  | replied {content line : List UInt8} (made : request.line jdk = .ok (content ++ [newline]))
      (read : outcome = receive jvm request line) :
      Told jdk jvm s request outcome (some ⟨⟨s.place, content⟩, line⟩)

section Moves

variable {jdk : Jdk} {jvm : Jvm} {s t : SessionOver τ} {request : Request} {fault : Option (Fault JString)} {wait : Wired.Wait τ}
  {pause : Wired.Pause τ} {outcome : Except Exception (Option Result)}

omit [Speaks τ] in
/-- What a write does, if the transport is open. -/
theorem writeLine_wrote {line : List UInt8} {result : Except TransportException Unit}
    (wrote : s.writeLine fault line = (result, t)) :
    (Wired.isClosed s.transport = true ∧ (∃ e, result = .error e) ∧ t = s) ∨
      ∃ wire, t = { s with wire } ∧ Wire.Wrote s.wire line result wire := by
  rw [writeLine] at wrote
  split at wrote
  · rename_i closed
    cases wrote
    exact .inl ⟨closed, ⟨_, rfl⟩, rfl⟩
  · cases wrote
    exact .inr ⟨_, rfl, (Wire.write_wrote rfl).mapError⟩

omit [Speaks τ] in
theorem writeLine_orderly {line : List UInt8} (orderly : (s.writeLine fault line).2.wire.Orderly) : s.wire.Orderly := by
  revert orderly
  rw [writeLine]
  split
  · exact id
  · exact Wire.write_orderly

/-- A call behind its write takes the next line, or the session is shut. -/
theorem answer_moves {u : SessionOver τ} {content : List UInt8} {r : Except Thrown (List UInt8) × τ}
    (made : request.line jdk = .ok (content ++ [newline])) (clean : newline ∉ content) (live : u.closed = false)
    (sound : ¬ u.wire.Spoilt) (through : t.wire.accepted = u.wire.accepted ++ (content ++ [newline]))
    (kept : t.transport = u.transport) (calm : ¬ Wired.Interrupts wait) (range : InRange t.timeout)
    (read : Wired.readLine t.transport t.timeout wait = some r) :
    ∃ d, Told jdk jvm u request (t.answer jvm request pause r).1 d ∧
      (talker τ).Move newline u (t.answer jvm request pause r).2 d := by
  cases Speaks.heard read with
  | @line line v speaking next =>
      refine ⟨_, .replied made rfl, .reply ?_ clean through ?_⟩
      · rintro (closed | silent | spoilt)
        · exact Bool.noConfusion (live.symm.trans closed)
        · exact speaking (kept ▸ silent)
        · exact sound spoilt
      · rw [kept] at next
        exact next
  | @late e v kind =>
      refine ⟨none, .own (translate_silent e), .leave clean ?_ ?_⟩
      · rw [answer, if_pos kind]
        exact through
      · rw [answer, if_pos kind]
        exact .inl rfl
  | @final e v silent =>
      refine ⟨none, .own (translate_silent e), .leave clean ?_ ?_⟩
      · rw [answer]
        split <;> exact through
      · rw [answer]
        split
        · exact .inl rfl
        · exact .inr (.inl silent)
  | broken interrupts => exact absurd interrupts calm
  | wide wide => exact absurd range wide

omit [Speaks τ] in
theorem answer_wire {r : Except Thrown (List UInt8) × τ} (answers : s.answer jvm request pause r = (outcome, t)) :
    t.wire = s.wire := by
  have kept : (s.answer jvm request pause r).2.wire = s.wire := by
    obtain ⟨(e | _) | line, v⟩ := r
    · dsimp only [answer]
      split <;> rfl
    · rfl
    · rfl
  rw [answers] at kept
  exact kept

theorem perform_moves (laws : jdk.Lawful) (calm : ¬ Wired.Interrupts wait) (range : InRange s.timeout)
    (orderly : t.wire.Orderly) (performed : s.perform jdk jvm request fault wait pause = some (outcome, t)) :
    ∃ d, Told jdk jvm s request outcome d ∧ (talker τ).Move newline s t d := by
  rw [perform] at performed
  split at performed
  · cases performed
    exact ⟨none, .own rfl, .quiet rfl rfl id⟩
  · rename_i live
    split at performed
    · cases performed
      exact ⟨none, .own rfl, .quiet rfl rfl id⟩
    · rename_i line made
      obtain ⟨content, rfl, clean⟩ := line_framed laws made
      split at performed
      · rename_i e u wrote
        cases performed
        refine ⟨none, .own (translate_silent e), ?_⟩
        rcases writeLine_wrote wrote with ⟨_, _, rfl⟩ | ⟨wire, rfl, went⟩
        · exact .quiet rfl rfl id
        · cases went with
          | unsent same spoilt => exact .quiet same rfl (Or.imp id (Or.imp id spoilt.mpr))
          | cut grown spoilt => exact .cut grown (.inr (.inr spoilt))
      · rename_i u wrote
        obtain ⟨r, read, same⟩ := Option.map_eq_some_iff.mp performed
        rw [answer_wire same] at orderly
        obtain ⟨rfl, rfl⟩ : outcome = _ ∧ t = _ := Prod.mk.inj same.symm
        rcases writeLine_wrote wrote with ⟨_, ⟨e, failed⟩, _⟩ | ⟨wire, rfl, went⟩
        · cases failed
        · cases went with
          | through grown spoilt sound =>
              exact answer_moves made clean (Bool.eq_false_iff.mpr live) (sound orderly) grown rfl calm range read

omit [Speaks τ] in
theorem perform_orderly (performed : s.perform jdk jvm request fault wait pause = some (outcome, t))
    (orderly : t.wire.Orderly) : s.wire.Orderly := by
  rw [perform] at performed
  split at performed
  · cases performed
    exact orderly
  · split at performed
    · cases performed
      exact orderly
    · rename_i line made
      have back : (s.writeLine fault line).2.wire.Orderly → s.wire.Orderly := writeLine_orderly
      split at performed
      · rename_i e u wrote
        cases performed
        exact back (wrote ▸ orderly)
      · rename_i u wrote
        obtain ⟨r, read, same⟩ := Option.map_eq_some_iff.mp performed
        rw [answer_wire same] at orderly
        exact back (wrote ▸ orderly)

omit [Speaks τ] in
theorem close_orderly (closed : s.close fault wait pause = some t) (orderly : t.wire.Orderly) : s.wire.Orderly := by
  rw [close] at closed
  split at closed
  · cases closed
    exact orderly
  · have back : (({ s with closed := true } : SessionOver τ).writeLine fault (build [opMember "close"])).2.wire.Orderly →
        s.wire.Orderly := writeLine_orderly
    split at closed
    · rename_i e u wrote
      cases closed
      exact back (wrote ▸ orderly)
    · rename_i u wrote
      obtain ⟨r, _, rfl⟩ := Option.map_eq_some_iff.mp closed
      exact back (wrote ▸ orderly)

omit [Speaks τ] in
theorem writeLine_timeout (s : SessionOver τ) (fault : Option (Fault JString)) (line : List UInt8) :
    (s.writeLine fault line).2.timeout = s.timeout := by
  rw [writeLine]
  split <;> rfl

omit [Speaks τ] in
theorem perform_timeout (performed : s.perform jdk jvm request fault wait pause = some (outcome, t)) :
    t.timeout = s.timeout := by
  rw [perform] at performed
  split at performed
  · cases performed
    rfl
  · split at performed
    · cases performed
      rfl
    · rename_i line made
      have kept := s.writeLine_timeout fault line
      split at performed
      · rename_i e u wrote
        cases performed
        rwa [wrote] at kept
      · rename_i u wrote
        obtain ⟨⟨read, v⟩, _, same⟩ := Option.map_eq_some_iff.mp performed
        rw [wrote] at kept
        obtain ⟨_, rfl⟩ := Prod.mk.inj same.symm
        rcases read with (e | _) | line
        · dsimp only
          split <;> exact kept
        · exact kept
        · exact kept

omit [Speaks τ] in
theorem close_timeout (closed : s.close fault wait pause = some t) : t.timeout = s.timeout := by
  rw [close] at closed
  split at closed
  · cases closed
    rfl
  · have kept := writeLine_timeout { s with closed := true } fault (build [opMember "close"])
    split at closed
    · rename_i e u wrote
      cases closed
      rwa [wrote] at kept
    · rename_i u wrote
      obtain ⟨r, _, rfl⟩ := Option.map_eq_some_iff.mp closed
      rwa [wrote] at kept

theorem close_moves (laws : jdk.Lawful) (closed : s.close fault wait pause = some t) :
    (talker τ).Move newline s t none := by
  rw [close] at closed
  split at closed
  · cases closed
    exact .quiet rfl rfl id
  · have built : Request.close.line jdk = .ok (build [opMember "close"]) := rfl
    obtain ⟨content, made, clean⟩ := line_framed laws built
    rw [made] at closed
    split at closed
    · rename_i e u wrote
      cases closed
      rcases writeLine_wrote wrote with ⟨_, _, rfl⟩ | ⟨wire, rfl, went⟩
      · exact .stop rfl (.inl rfl)
      · exact .cut went.grown (.inl rfl)
    · rename_i u wrote
      obtain ⟨r, read, rfl⟩ := Option.map_eq_some_iff.mp closed
      rcases writeLine_wrote wrote with ⟨_, ⟨e, failed⟩, _⟩ | ⟨wire, rfl, went⟩
      · cases failed
      · cases went with
        | through grown spoilt sound => exact .leave clean grown (.inl rfl)

/-- What one step says of its move. -/
def Tells (jdk : Jdk) (jvm : Jvm) (s : SessionOver τ) (l : Event τ × Except Exception (Option Result))
    (d : Option (Conversation.Delivery UInt8)) : Prop :=
  ∀ request fault wait pause, l.1 = .perform request fault wait pause → Told jdk jvm s request l.2 d

theorem Step.moves (laws : jdk.Lawful) {l : Event τ × Except Exception (Option Result)} (step : Step jdk jvm s l t)
    (calm : l.1.Calm) (range : InRange s.timeout) (orderly : t.wire.Orderly) :
    (∃ d, Tells jdk jvm s l d ∧ (talker τ).Move newline s t d) ∧ InRange t.timeout := by
  obtain ⟨e, outcome⟩ := l
  cases e with
  | perform request fault wait pause =>
      obtain ⟨d, told, move⟩ := perform_moves laws calm range orderly step
      refine ⟨⟨d, ?_, move⟩, (perform_timeout step).symm ▸ range⟩
      rintro request' fault' wait' pause' ⟨⟩
      exact told
  | setTimeout timeout =>
      cases step
      refine ⟨⟨none, ?_, .quiet rfl rfl id⟩, calm⟩
      rintro request' fault' wait' pause' ⟨⟩
  | close fault wait pause =>
      obtain ⟨u, closed, same⟩ := Option.map_eq_some_iff.mp step
      cases same
      refine ⟨⟨none, ?_, close_moves laws closed⟩, (close_timeout closed).symm ▸ range⟩
      rintro request' fault' wait' pause' ⟨⟩
  | idle =>
      cases step
      refine ⟨⟨none, ?_, .quiet rfl (Speaks.idle_ahead s.transport) ?_⟩, range⟩
      · rintro request' fault' wait' pause' ⟨⟩
      · exact Or.imp id (Or.imp (Speaks.idle_silent s.transport) id)

omit [Speaks τ] in
/-- A write is never taken back. -/
theorem Step.orderly {l : Event τ × Except Exception (Option Result)} (step : Step jdk jvm s l t)
    (orderly : t.wire.Orderly) : s.wire.Orderly := by
  obtain ⟨e, outcome⟩ := l
  cases e with
  | perform request fault wait pause => exact perform_orderly step orderly
  | close fault wait pause =>
      obtain ⟨u, closed, same⟩ := Option.map_eq_some_iff.mp step
      cases same
      exact close_orderly closed orderly
  | setTimeout timeout =>
      cases step
      exact orderly
  | idle =>
      cases step
      exact orderly

/-- A step in which no wait is broken off, and after which the writes are in order. -/
abbrev Clean (jdk : Jdk) (jvm : Jvm) (s : SessionOver τ) (l : Event τ × Except Exception (Option Result))
    (t : SessionOver τ) : Prop :=
  (Step jdk jvm s l t ∧ t.wire.Orderly) ∧ l.1.Calm

omit [Speaks τ] in
theorem run_clean {ls : List (Event τ × Except Exception (Option Result))} (run : Run (Step jdk jvm) s ls t)
    (calm : ∀ l ∈ ls, l.1.Calm) (orderly : t.wire.Orderly) : Run (Clean jdk jvm) s ls t ∧ s.wire.Orderly := by
  obtain ⟨kept, before⟩ := run.restrict (P := fun s => s.wire.Orderly) (fun _ _ _ step => step.orderly) orderly
  exact ⟨kept.with_labels calm, before⟩

/-- A run of clean steps is a run of moves. -/
theorem run_moves (laws : jdk.Lawful) {ls : List (Event τ × Except Exception (Option Result))}
    (run : Run (Clean jdk jvm) s ls t) (range : InRange s.timeout) :
    (∃ ds, (talker τ).Moves newline s ds t) ∧ InRange t.timeout := by
  induction run with
  | nil s => exact ⟨⟨[], .nil s⟩, range⟩
  | cons first _ ih =>
      obtain ⟨⟨d, _, move⟩, range⟩ := Step.moves laws first.1.1 first.2 range first.1.2
      obtain ⟨⟨ds, moves⟩, range⟩ := ih range
      exact ⟨⟨d :: ds, .cons move moves⟩, range⟩

/-- Once a session is shut, none of its operations is answered. -/
theorem shut_silent (laws : jdk.Lawful) {ls : List (Event τ × Except Exception (Option Result))}
    (run : Run (Clean jdk jvm) s ls t) (range : InRange s.timeout) (shut : s.Shut) :
    ∀ l ∈ ls, ∀ request fault wait pause, l.1 = .perform request fault wait pause → answered l.2 = false := by
  refine run.forall_labels (P := fun s => InRange s.timeout ∧ s.Shut) ?_ ?_ ⟨range, shut⟩
  · intro s l t before step
    obtain ⟨⟨d, _, move⟩, after⟩ := Step.moves laws step.1.1 step.2 before.1 step.1.2
    exact ⟨after, (move.stays_shut before.2).1⟩
  · intro s l t before step request fault wait pause is
    obtain ⟨⟨d, told, move⟩, _⟩ := Step.moves laws step.1.1 step.2 before.1 step.1.2
    have none := (move.stays_shut before.2).2
    subst none
    cases told request fault wait pause is with
    | own silent => exact silent

/-- A request that is on the wire without its reply has shut the session. -/
theorem Told.shut {d : Option (Conversation.Delivery UInt8)} (told : Told jdk jvm s request outcome d)
    (move : (talker τ).Move newline s t d) (sent : s.wire.accepted ≠ t.wire.accepted) (lost : Lost outcome) : t.Shut := by
  cases told with
  | replied made read =>
      rw [read] at lost
      exact absurd lost (receive_kept jvm request _)
  | own silent =>
      cases move with
      | quiet same => exact absurd same.symm sent
      | cut grown shut => exact shut
      | leave clean through shut => exact shut

end Moves

section Opened

variable {jvm : Jvm} {t : τ} {timeout : Option ℤ} {wait : Wired.Wait τ} {pause : Wired.Pause τ} {h : Hello}
  {s : SessionOver τ}

theorem connect_ok {read : Except Thrown (List UInt8)} (made : (connect jvm read).1 = .ok h) :
    (∃ line, read = .ok line) ∧ (connect jvm read).2 = false := by
  rcases read with (e | _) | line
  · cases made
  · cases made
  · refine ⟨⟨line, rfl⟩, ?_⟩
    rw [connect] at made ⊢
    split at made
    · cases made
    · split at made
      · cases made
      · rename_i one
        exact if_neg one ▸ rfl

/-- A new session has sent nothing and has taken the hello line. -/
theorem opened_fresh (opens : opened jvm t timeout wait pause = some (.ok h, s)) :
    s.wire = .fresh ∧ s.timeout = timeout ∧ Speaks.ahead s.transport = (Speaks.ahead t).tail := by
  rw [opened] at opens
  split at opens
  · cases opens
  · rename_i read u took
    obtain ⟨made, same⟩ := Prod.mk.inj (Option.some.inj opens)
    obtain ⟨⟨line, rfl⟩, kept⟩ := connect_ok made
    rw [kept] at same
    cases same
    refine ⟨rfl, rfl, ?_⟩
    cases Speaks.heard took with
    | line _ next => rw [next]; rfl

/-- In every run in which no wait is interrupted, no timeout is beyond the range of `toNanos`, and no write goes through
behind one that failed with a part of its line sent: an operation that was answered was answered by the reply at the
place of its own request, and once an operation has lost its reply no later one is answered. -/
theorem operations_answered (jdk : Jdk) (laws : jdk.Lawful) (opens : opened jvm t timeout wait pause = some (.ok h, s))
    (range : InRange timeout) (before after : List (Event τ × Except Exception (Option Result)))
    (l : Event τ × Except Exception (Option Result)) (u v w : SessionOver τ) (first : Run (Step jdk jvm) s before u)
    (step : Step jdk jvm u l v) (later : Run (Step jdk jvm) v after w) (calm : ∀ x ∈ before ++ l :: after, x.1.Calm)
    (orderly : w.wire.Orderly)
    (request : Request) (fault : Option (Fault JString)) (wait' : Wired.Wait τ) (pause' : Wired.Pause τ)
    (is : l.1 = .perform request fault wait' pause') :
    (answered l.2 = true → ∃ content line, request.line jdk = .ok (content ++ [newline]) ∧
      (complete newline w.wire.accepted)[u.place]? = some content ∧
      (Speaks.ahead t).tail[u.place]? = some line ∧ l.2 = receive jvm request line) ∧
    (u.wire.accepted ≠ v.wire.accepted → Lost l.2 → ∀ x ∈ after, ∀ request fault wait pause,
      x.1 = .perform request fault wait pause → answered x.2 = false) := by
  obtain ⟨fresh, same, replies⟩ := opened_fresh opens
  obtain ⟨here, there⟩ := List.forall_mem_append.mp calm
  obtain ⟨now, behind⟩ := List.forall_mem_cons.mp there
  obtain ⟨later, next⟩ := run_clean later behind orderly
  obtain ⟨first, _⟩ := run_clean first here (step.orderly next)
  obtain ⟨⟨ds, moves⟩, ready⟩ := run_moves laws first (same.symm ▸ range)
  obtain ⟨⟨d, tells, move⟩, ready'⟩ := Step.moves laws step now ready next
  have told := tells request fault wait' pause' is
  constructor
  · intro replied
    obtain ⟨⟨ds', moves'⟩, _⟩ := run_moves laws later ready'
    have talks : Talker.Talks (talker τ) s (Conversation.init (Speaks.ahead s.transport)) := by
      refine ⟨rfl, ?_, fun _ => rfl, fun shut => (by cases shut)⟩
      change [] = s.wire.accepted
      rw [fresh]
      rfl
    have whole : (talker τ).Moves newline s (ds ++ d :: ds') w := moves.append (.cons move moves')
    obtain ⟨es, c, shown, ran, final⟩ := whole.talks talks
    cases told with
    | own silent => exact Bool.noConfusion (silent.symm.trans replied)
    | @replied content line made read =>
        have inside : some ⟨⟨u.place, content⟩, line⟩ ∈ ds ++ some ⟨⟨u.place, content⟩, line⟩ :: ds' :=
          List.mem_append_right _ List.mem_cons_self
        obtain ⟨sent, reply⟩ := Conversation.run_paired ran _ (shown _ inside)
        rw [final.sent] at sent
        rw [replies] at reply
        exact ⟨content, line, made, sent, reply, read⟩
  · exact fun sent lost => shut_silent laws later ready' (told.shut move sent lost)

end Opened

/-! ## Both transports -/

/-- A JDK for requests without doubles and BLOBs. -/
def sampleJdk : Jdk := ⟨fun _ => [], fun _ => []⟩

theorem sampleJdk_lawful : sampleJdk.Lawful := ⟨fun _ => List.not_mem_nil, fun _ => List.not_mem_nil⟩

/-- A virtual machine for lines in ASCII. -/
def sampleJvm : Jvm := ⟨fun bytes => bytes.map fun b => UInt16.ofNat b.toNat, fun _ => ⟨0⟩, id, 9⟩

/-- The hello, one operation, and the number of its writes. -/
def talk (t : τ) (greeting reading : Wired.Wait τ) (pause : Wired.Pause τ) :
    Option (Except Exception Hello × Except Exception (Option Result) × ℕ) := do
  let opening ← opened sampleJvm t none greeting pause
  let performed ← opening.2.perform sampleJdk sampleJvm (.load (some (lit "a"))) none reading pause
  some (opening.1, performed.1, performed.2.wire.writes.length)

/-- That the operation of a sample was answered from its own line. -/
def SampleAnswered (t : τ) (greeting reading : Wired.Wait τ) (pause : Wired.Pause τ) : Prop :=
  ∃ s outcome v, opened sampleJvm t none greeting pause = some (.ok ⟨1, lit "v0.1.1", lit "SanDBox"⟩, s) ∧
    s.perform sampleJdk sampleJvm (.load (some (lit "a"))) none reading pause = some (outcome, v) ∧ outcome = .ok none ∧
    ∃ content line, (Request.load (some (lit "a"))).line sampleJdk = .ok (content ++ [newline]) ∧
      (complete newline v.wire.accepted)[s.place]? = some content ∧ (Speaks.ahead t).tail[s.place]? = some line ∧
      outcome = receive sampleJvm (.load (some (lit "a"))) line

def sampleDirect : DirectTransport := ⟨.start Session.twoLines, false⟩

/-- The bytes of both lines in one chunk. -/
def sampleSocket : SocketEnd :=
  ⟨.fromSource .socket, [⟨0, 0, .bytes (Session.helloLine ++ newline :: (Session.replyLine ++ [newline])) (by decide +kernel), 0⟩]⟩

/-- Over a child and over a socket, the reply to one request. -/
theorem operations_answered_sample :
    SampleAnswered sampleDirect [.turn, .turn, .look] [.turn, .turn, .look] (0 : ℕ) ∧
      SampleAnswered sampleSocket (0 : ℤ) (0 : ℤ) () := by
  have each {σ : Type} [Wired σ] [Speaks σ] {t : σ} {greeting reading : Wired.Wait σ} {pause : Wired.Pause σ}
      (calm : ¬ Wired.Interrupts reading)
      (ends : talk t greeting reading pause = some (.ok ⟨1, lit "v0.1.1", lit "SanDBox"⟩, .ok none, 1)) :
      SampleAnswered t greeting reading pause := by
    obtain ⟨⟨made, s⟩, opens, rest⟩ := Option.bind_eq_some_iff.mp ends
    obtain ⟨⟨outcome, v⟩, performed, same⟩ := Option.bind_eq_some_iff.mp rest
    simp only [Option.some.injEq, Prod.mk.injEq] at same
    obtain ⟨rfl, rfl, one⟩ := same
    refine ⟨s, _, v, opens, performed, rfl, ?_⟩
    refine (operations_answered sampleJdk sampleJdk_lawful opens (fun _ none => by cases none) [] []
      (.perform (.load (some (lit "a"))) none reading pause, .ok none) s v v (.nil s) performed (.nil v) ?_ ?_ _ none
      reading pause rfl).1 rfl
    · intro x inside
      cases List.mem_singleton.mp inside
      exact calm
    · obtain ⟨r, one⟩ := List.length_eq_one_iff.mp one
      rw [Wire.Orderly, one]
      exact List.pairwise_singleton _ r
  constructor
  · refine each (fun left => ?_) (by decide +kernel)
    have none : Pump.Moment.leave ∉ [Pump.Moment.turn, .turn, .look] := by decide
    exact none left
  · exact each id (by decide +kernel)

end SessionOver

end SanDbOxFormal.Java
