import SanDbOxFormal.Library.Segments

/-!
# Lines under a length cap

A reader cuts a stream into lines and refuses a line that is longer than its cap.
The law looks at the stream alone.  A reader that measures only the unfinished
tail, once after each chunk, notices an over-long line only when a chunk ends
inside it and behind the cap.
-/

namespace SanDbOxFormal.Library.CappedFraming

open SanDbOxFormal.Library.Segments

variable {α : Type} [DecidableEq α]

/-- The lines in front of the first over-long one, and whether there is one. -/
def lawful (sep : α) (cap : Nat) (xs : List α) : List (List α) × Bool :=
  let short := (complete sep xs).takeWhile (·.length ≤ cap)
  (short, decide (short.length < (complete sep xs).length ∨ cap < (remainder sep xs).length))

variable {sep : α} {cap : Nat}

theorem lawful_of_short {xs : List α} (short : ∀ line ∈ complete sep xs, line.length ≤ cap) :
    lawful sep cap xs = (complete sep xs, decide (cap < (remainder sep xs).length)) := by
  have all : (complete sep xs).takeWhile (·.length ≤ cap) = complete sep xs := by
    rw [List.takeWhile_eq_self_iff]
    simpa using short
  simp [lawful, all]

/-- Whatever follows an unfinished line behind the cap, the law stops there. -/
theorem lawful_of_long_tail {xs : List α} (short : ∀ line ∈ complete sep xs, line.length ≤ cap)
    (long : cap < (remainder sep xs).length) (ys : List α) :
    lawful sep cap (xs ++ ys) = (complete sep xs, true) := by
  have none := not_mem_remainder sep xs
  rcases clean_or_segment sep ys with clean | ⟨segment, rest, shape, clean⟩
  · have whole : sep ∉ remainder sep xs ++ ys := by simp [none, clean]
    have same : complete sep (xs ++ ys) = complete sep xs := by
      rw [complete_append, complete_clean whole, List.append_nil]
    have tail : remainder sep (xs ++ ys) = remainder sep xs ++ ys := by
      rw [remainder_append, remainder_clean whole]
    rw [lawful_of_short (by rw [same]; exact short), same, tail]
    have longer : cap < (remainder sep xs ++ ys).length := by
      rw [List.length_append]
      omega
    rw [decide_eq_true longer]
  · have whole : sep ∉ remainder sep xs ++ segment := by simp [none, clean]
    have lines : complete sep (xs ++ ys) =
        complete sep xs ++ (remainder sep xs ++ segment) :: complete sep rest := by
      rw [complete_append, shape, ← List.append_assoc, complete_segment whole]
    have kept : (complete sep (xs ++ ys)).takeWhile (·.length ≤ cap) = complete sep xs := by
      rw [lines, List.takeWhile_append_of_pos (by simpa using short), List.takeWhile_cons_of_neg,
        List.append_nil]
      simp only [List.length_append, decide_eq_true_eq]
      omega
    have fewer : (complete sep xs).length < (complete sep (xs ++ ys)).length := by
      rw [lines, List.length_append, List.length_cons]
      omega
    simp [lawful, kept, fewer]

theorem lawful_segment {line : List α} (clean : sep ∉ line) (short : line.length ≤ cap) (xs : List α) :
    lawful sep cap (line ++ sep :: xs) =
      (line :: (lawful sep cap xs).1, (lawful sep cap xs).2) := by
  simp [lawful, complete_segment clean, remainder_segment clean, short]

theorem lawful_clean {xs : List α} (clean : sep ∉ xs) :
    lawful sep cap xs = ([], decide (cap < xs.length)) := by
  simp [lawful, complete_clean clean, remainder_clean clean]

theorem lawful_long {xs : List α} (clean : sep ∉ xs) (long : cap < xs.length) (ys : List α) :
    lawful sep cap (xs ++ ys) = ([], true) := by
  rw [lawful_of_long_tail (by simp [complete_clean clean]) (by rw [remainder_clean clean]; exact long),
    complete_clean clean]

theorem lawful_snd (xs : List α) : (lawful sep cap xs).2 = true ↔
    (∃ line ∈ complete sep xs, cap < line.length) ∨ cap < (remainder sep xs).length := by
  have fewer : ((complete sep xs).takeWhile (·.length ≤ cap)).length < (complete sep xs).length ↔
      ∃ line ∈ complete sep xs, cap < line.length := by
    have kept := List.takeWhile_prefix (l := complete sep xs) fun line => decide (line.length ≤ cap)
    have same : ((complete sep xs).takeWhile (·.length ≤ cap)).length = (complete sep xs).length ↔
        (complete sep xs).takeWhile (·.length ≤ cap) = complete sep xs :=
      ⟨kept.eq_of_length, congrArg List.length⟩
    rw [kept.length_le.lt_iff_ne, Ne, same, List.takeWhile_eq_self_iff]
    simp
  rw [lawful, decide_eq_true_eq, fewer]

/-- The law of a smaller cap stops within the lines of the larger. -/
theorem lawful_smaller {smaller : Nat} (less : smaller ≤ cap) (xs : List α) :
    (lawful sep smaller xs).1 = (lawful sep cap xs).1.takeWhile (·.length ≤ smaller) := by
  rw [lawful, lawful, List.takeWhile_takeWhile]
  refine congrArg (fun p => List.takeWhile p _) (funext fun line => ?_)
  rw [decide_eq_decide]
  simp only [decide_eq_true_eq]
  exact ⟨fun short => ⟨short, Nat.le_trans short less⟩, And.left⟩

/-! ## Measuring the tail after each chunk -/

structure Progress (α : Type) where
  lines : List (List α)
  tail : List α
  capped : Bool

def Progress.start : Progress α := ⟨[], [], false⟩

def Progress.feed (sep : α) (cap : Nat) (p : Progress α) (chunk : List α) : Progress α :=
  if p.capped then p
  else
    { lines := p.lines ++ complete sep (p.tail ++ chunk)
      tail := remainder sep (p.tail ++ chunk)
      capped := decide (cap < (remainder sep (p.tail ++ chunk)).length) }

def progress (sep : α) (cap : Nat) (chunks : List (List α)) : Progress α :=
  chunks.foldl (Progress.feed sep cap) .start

/-- Lines that came out before change nothing. -/
theorem foldl_feed_lines (front : List (List α)) (p : Progress α) (chunks : List (List α)) :
    (chunks.foldl (Progress.feed sep cap) { p with lines := front ++ p.lines }).lines =
      front ++ (chunks.foldl (Progress.feed sep cap) p).lines := by
  induction chunks generalizing p with
  | nil => rfl
  | cons chunk chunks ih =>
      rw [List.foldl_cons, List.foldl_cons, ← ih]
      congr 2
      simp only [Progress.feed]
      split
      · rfl
      · simp

theorem start_feed (xs : List α) : Progress.start.feed sep cap xs =
    ⟨complete sep xs, remainder sep xs, decide (cap < (remainder sep xs).length)⟩ := rfl

theorem progress_segment {line : List α} (clean : sep ∉ line) (rest : List α)
    (chunks : List (List α)) :
    (progress sep cap ((line ++ sep :: rest) :: chunks)).lines =
      line :: (progress sep cap (rest :: chunks)).lines := by
  have first : Progress.start.feed sep cap (line ++ sep :: rest) =
      { Progress.start.feed sep cap rest with
        lines := [line] ++ (Progress.start.feed sep cap rest).lines } := by
    rw [start_feed, start_feed, complete_segment clean, remainder_segment clean]
    rfl
  rw [progress, progress, List.foldl_cons, List.foldl_cons, first, foldl_feed_lines]
  rfl

/-- A tail that is not over-long grows by the next chunk. -/
theorem progress_tail {xs : List α} (clean : sep ∉ xs) (short : xs.length ≤ cap) (chunk : List α)
    (chunks : List (List α)) :
    progress sep cap (xs :: chunk :: chunks) = progress sep cap ((xs ++ chunk) :: chunks) := by
  have small : ¬ cap < xs.length := Nat.not_lt_of_le short
  simp [progress, Progress.feed, Progress.start, complete_clean clean, remainder_clean clean, small]

theorem progress_last {xs : List α} (clean : sep ∉ xs) : (progress sep cap [xs]).lines = [] := by
  simp [progress, Progress.feed, Progress.start, complete_clean clean]

theorem progress_long {xs : List α} (clean : sep ∉ xs) (long : cap < xs.length)
    (chunks : List (List α)) : (progress sep cap (xs :: chunks)).lines = [] := by
  rw [progress, List.foldl_cons]
  have stays : ∀ p : Progress α, p.capped = true →
      (chunks.foldl (Progress.feed sep cap) p).lines = p.lines := by
    induction chunks with
    | nil => exact fun _ _ => rfl
    | cons chunk chunks ih =>
        intro p capped
        rw [List.foldl_cons, Progress.feed, if_pos capped]
        exact ih p capped
  rw [stays]
  · simp [Progress.feed, Progress.start, complete_clean clean]
  · simp [Progress.feed, Progress.start, remainder_clean clean, long]

/-- No chunk ends behind the cap inside a line. -/
def Calm (sep : α) (cap : Nat) (chunks : List (List α)) : Prop :=
  ∀ front, front <+: chunks → (remainder sep front.flatten).length ≤ cap

/-- Some chunk ends behind the cap inside a line, and no line before it is over-long. -/
def Noticed (sep : α) (cap : Nat) (chunks : List (List α)) : Prop :=
  ∃ front, front <+: chunks ∧ cap < (remainder sep front.flatten).length ∧
    ∀ line ∈ complete sep front.flatten, line.length ≤ cap

theorem Calm.of_prefix {front chunks : List (List α)} (calm : Calm sep cap chunks)
    (shorter : front <+: chunks) : Calm sep cap front :=
  fun first inside => calm first (inside.trans shorter)

theorem progress_concat (chunks : List (List α)) (chunk : List α) :
    progress sep cap (chunks ++ [chunk]) = (progress sep cap chunks).feed sep cap chunk := by
  simp [progress]

theorem progress_calm {chunks : List (List α)} (calm : Calm sep cap chunks) :
    progress sep cap chunks =
      ⟨complete sep chunks.flatten, remainder sep chunks.flatten, false⟩ := by
  induction chunks using List.reverseRecOn with
  | nil => rfl
  | append_singleton chunks chunk ih =>
      have flat : (chunks ++ [chunk]).flatten = chunks.flatten ++ chunk := by simp
      have small := calm _ List.prefix_rfl
      rw [flat, remainder_append] at small
      rw [progress_concat, ih (calm.of_prefix (List.prefix_append _ _)), flat, complete_append,
        remainder_append sep chunks.flatten]
      simp [Progress.feed, small]

/-- The first chunk that ends behind the cap inside a line ends the progress. -/
theorem progress_first {front chunks : List (List α)} {chunk : List α}
    (inside : front ++ [chunk] <+: chunks) (calm : Calm sep cap front)
    (long : cap < (remainder sep (front ++ [chunk]).flatten).length) :
    progress sep cap chunks =
      ⟨complete sep (front ++ [chunk]).flatten, remainder sep (front ++ [chunk]).flatten, true⟩ := by
  have flat : (front ++ [chunk]).flatten = front.flatten ++ chunk := by simp
  have first : progress sep cap (front ++ [chunk]) =
      ⟨complete sep (front ++ [chunk]).flatten, remainder sep (front ++ [chunk]).flatten, true⟩ := by
    rw [flat, remainder_append] at long
    rw [progress_concat, progress_calm calm, flat, complete_append, remainder_append]
    simp [Progress.feed, long]
  obtain ⟨rest, rfl⟩ := inside
  induction rest using List.reverseRecOn with
  | nil => simpa using first
  | append_singleton rest last ih =>
      rw [← List.append_assoc, progress_concat, ih]
      rfl

/-- Every way to cut a stream is calm or has a first chunk that is not. -/
theorem calm_or_first (sep : α) (cap : Nat) (chunks : List (List α)) :
    Calm sep cap chunks ∨ ∃ front chunk, front ++ [chunk] <+: chunks ∧ Calm sep cap front ∧
      cap < (remainder sep (front ++ [chunk]).flatten).length := by
  induction chunks using List.reverseRecOn with
  | nil =>
      left
      intro front inside
      rw [List.prefix_nil.mp inside]
      exact Nat.zero_le _
  | append_singleton chunks chunk ih =>
      rcases ih with calm | ⟨front, first, inside, calm, long⟩
      · by_cases long : cap < (remainder sep (chunks ++ [chunk]).flatten).length
        · exact .inr ⟨chunks, chunk, List.prefix_rfl, calm, long⟩
        · left
          intro front inside
          rcases List.prefix_concat_iff.mp inside with rfl | inside
          · exact Nat.le_of_not_lt long
          · exact calm front inside
      · exact .inr ⟨front, first, inside.trans (List.prefix_append _ _), calm, long⟩

/-- The lines come out as the law wants them exactly when no line is over-long or the
first that is gets noticed in time. -/
theorem progress_lines_iff (chunks : List (List α)) :
    (progress sep cap chunks).lines = (lawful sep cap chunks.flatten).1 ↔
      (∀ line ∈ complete sep chunks.flatten, line.length ≤ cap) ∨ Noticed sep cap chunks := by
  rcases calm_or_first sep cap chunks with calm | ⟨front, chunk, inside, calm, long⟩
  · have silent : ¬ Noticed sep cap chunks := by
      rintro ⟨front, inside, long, _⟩
      exact absurd (calm front inside) (Nat.not_le_of_lt long)
    rw [progress_calm calm, or_iff_left silent]
    constructor
    · intro kept line inside
      have all : (complete sep chunks.flatten).takeWhile (·.length ≤ cap) =
          complete sep chunks.flatten := kept.symm
      rw [List.takeWhile_eq_self_iff] at all
      simpa using all line inside
    · intro short
      rw [lawful_of_short short]
  · rw [progress_first inside calm long]
    obtain ⟨rest, whole⟩ := inside.flatten
    constructor
    · intro kept
      refine .inr ⟨front ++ [chunk], inside, long, fun line member => ?_⟩
      rw [show complete sep (front ++ [chunk]).flatten = _ from kept] at member
      simpa using List.mem_takeWhile_imp member
    · intro obeys
      have short : ∀ line ∈ complete sep (front ++ [chunk]).flatten, line.length ≤ cap := by
        intro line member
        rcases obeys with short | ⟨other, within, behind, short⟩
        · exact short line ((complete_mono inside.flatten).subset member)
        · rcases List.prefix_or_prefix_of_prefix inside within with before | after
          · exact short line ((complete_mono before.flatten).subset member)
          · rcases List.prefix_concat_iff.mp after with rfl | early
            · exact short line member
            · exact absurd (calm other early) (Nat.not_le_of_lt behind)
      rw [← whole, lawful_of_long_tail short long]

/-- With the right lines, the measure also tells rightly whether one was over-long. -/
theorem progress_capped {chunks : List (List α)}
    (lines : (progress sep cap chunks).lines = (lawful sep cap chunks.flatten).1) :
    (progress sep cap chunks).capped = (lawful sep cap chunks.flatten).2 := by
  rcases calm_or_first sep cap chunks with calm | ⟨front, chunk, inside, calm, long⟩
  · have small := calm chunks List.prefix_rfl
    rw [progress_calm calm] at lines ⊢
    change complete sep chunks.flatten = _ at lines
    simp [lawful, ← show _ = (complete sep chunks.flatten).takeWhile (·.length ≤ cap) from lines, small]
  · rw [progress_first inside calm long] at lines ⊢
    obtain ⟨rest, whole⟩ := inside.flatten
    have short : ∀ line ∈ complete sep (front ++ [chunk]).flatten, line.length ≤ cap := by
      intro line member
      rw [show complete sep (front ++ [chunk]).flatten = _ from lines] at member
      simpa using List.mem_takeWhile_imp member
    rw [← whole, lawful_of_long_tail short long]

/-- Measuring the tail obeys the law exactly when no line is over-long or the first
that is gets noticed in time. -/
theorem progress_lawful_iff (chunks : List (List α)) :
    ((progress sep cap chunks).lines, (progress sep cap chunks).capped) =
        lawful sep cap chunks.flatten ↔
      (∀ line ∈ complete sep chunks.flatten, line.length ≤ cap) ∨ Noticed sep cap chunks := by
  rw [← progress_lines_iff]
  exact ⟨congrArg Prod.fst, fun lines => Prod.ext lines (progress_capped lines)⟩

/-! ## Framers -/

/-- A buffer of symbols with a push, which may fail for good, and a take, which may
refuse what it holds. -/
structure Framer (σ α ε : Type) where
  start : σ
  buf : σ → List α
  push : σ → List α → Option σ
  take : σ → Except ε (Option (List α)) × σ

namespace Framer

variable {σ ε : Type}

/-- Takes lines until none is complete or one is refused. -/
def drain (F : Framer σ α ε) : Nat → σ → List (List α) × Except ε σ
  | 0, s => ([], .ok s)
  | n + 1, s =>
      match F.take s with
      | (.ok none, s') => ([], .ok s')
      | (.ok (some line), s') => (line :: (F.drain n s').1, (F.drain n s').2)
      | (.error e, _) => ([], .error e)

/-- Pushes one more chunk and takes every line that it completes, unless the framer
has refused something before. -/
def feed (F : Framer σ α ε) : Option (List (List α) × Except ε σ) → List α →
    Option (List (List α) × Except ε σ)
  | some (lines, .ok s), chunk => do
      let s' ← F.push s chunk
      let more := F.drain ((F.buf s').length + 1) s'
      some (lines ++ more.1, more.2)
  | some (lines, .error e), _ => some (lines, .error e)
  | none, _ => none

def run (F : Framer σ α ε) (chunks : List (List α)) : Option (List (List α) × Except ε σ) :=
  chunks.foldl F.feed (some ([], .ok F.start))

/-- The lines taken from a stream in chunks, and what was refused at the end. -/
def outcome (F : Framer σ α ε) (chunks : List (List α)) : Option (List (List α) × Option ε) :=
  (F.run chunks).map fun r => (r.1, match r.2 with | .ok _ => none | .error e => some e)

/-- What a take does, by what the buffer holds. -/
inductive Taken (F : Framer σ α ε) (sep : α) (cap : Nat) (refusal : ε) (s : σ) :
    Except ε (Option (List α)) × σ → Prop where
  | line {line rest : List α} {s' : σ} (clean : sep ∉ line) (shape : F.buf s = line ++ sep :: rest)
      (left : F.buf s' = rest) : Taken F sep cap refusal s (.ok (some line), s')
  | nothing {s' : σ} (clean : sep ∉ F.buf s) (short : (F.buf s).length ≤ cap)
      (same : F.buf s' = F.buf s) : Taken F sep cap refusal s (.ok none, s')
  | refused {s' : σ} (clean : sep ∉ F.buf s) (long : cap < (F.buf s).length) :
      Taken F sep cap refusal s (.error refusal, s')

/-- A framer that measures the unfinished tail of its buffer, and has room for no
more than `room` symbols where that is given. -/
structure Measures (F : Framer σ α ε) (sep : α) (cap : Nat) (refusal : ε) (room : Option Nat) :
    Prop where
  start : F.buf F.start = []
  take : ∀ s, Taken F sep cap refusal s (F.take s)
  push : ∀ s chunk, (∀ most ∈ room, (F.buf s).length + chunk.length ≤ most) →
    ∃ s', F.push s chunk = some s' ∧ F.buf s' = F.buf s ++ chunk
  full : ∀ s chunk, ∀ most ∈ room, most < (F.buf s).length + chunk.length → F.push s chunk = none

/-- Every chunk that is pushed before a line is refused finds room. -/
def Fits (sep : α) (cap : Nat) (room : Option Nat) (chunks : List (List α)) : Prop :=
  ∀ front chunk, front ++ [chunk] <+: chunks → Calm sep cap front →
    ∀ most ∈ room, (remainder sep front.flatten).length + chunk.length ≤ most

variable {F : Framer σ α ε} {refusal : ε} {room : Option Nat}

theorem Measures.drain_calm (measures : F.Measures sep cap refusal room) {n : Nat} {s : σ}
    (enough : (F.buf s).length < n) (short : (remainder sep (F.buf s)).length ≤ cap) :
    ∃ s', F.drain n s = (complete sep (F.buf s), .ok s') ∧ F.buf s' = remainder sep (F.buf s) := by
  induction n generalizing s with
  | zero => exact absurd enough (Nat.not_lt_zero _)
  | succ n ih =>
      have taken := measures.take s
      rw [drain]
      generalize F.take s = result at taken ⊢
      cases taken with
      | @line line rest s' clean shape left =>
          rw [shape, remainder_segment clean, ← left] at short
          have smaller : (F.buf s').length < n := by
            rw [shape, List.length_append, List.length_cons] at enough
            rw [left]
            omega
          obtain ⟨last, drained, buf⟩ := ih smaller short
          refine ⟨last, ?_, ?_⟩
          · simp [drained, shape, complete_segment clean, left]
          · rw [buf, left, shape, remainder_segment clean]
      | nothing clean _ same =>
          refine ⟨_, by rw [complete_clean clean], ?_⟩
          rw [same, remainder_clean clean]
      | refused clean long =>
          rw [remainder_clean clean] at short
          exact absurd short (Nat.not_le_of_lt long)

theorem Measures.drain_long (measures : F.Measures sep cap refusal room) {n : Nat} {s : σ}
    (enough : (F.buf s).length < n) (long : cap < (remainder sep (F.buf s)).length) :
    F.drain n s = (complete sep (F.buf s), .error refusal) := by
  induction n generalizing s with
  | zero => exact absurd enough (Nat.not_lt_zero _)
  | succ n ih =>
      have taken := measures.take s
      rw [drain]
      generalize F.take s = result at taken ⊢
      cases taken with
      | @line line rest s' clean shape left =>
          rw [shape, remainder_segment clean, ← left] at long
          have smaller : (F.buf s').length < n := by
            rw [shape, List.length_append, List.length_cons] at enough
            rw [left]
            omega
          simp [ih smaller long, shape, complete_segment clean, left]
      | nothing clean short _ =>
          rw [remainder_clean clean] at long
          exact absurd short (Nat.not_le_of_lt long)
      | refused clean _ => rw [complete_clean clean]

omit [DecidableEq α] in
theorem run_concat (F : Framer σ α ε) (chunks : List (List α)) (chunk : List α) :
    F.run (chunks ++ [chunk]) = F.feed (F.run chunks) chunk := by
  simp [run]

theorem Fits.of_prefix {front chunks : List (List α)} (fits : Fits sep cap room chunks)
    (shorter : front <+: chunks) : Fits sep cap room front :=
  fun first chunk inside => fits first chunk (inside.trans shorter)

/-- While no chunk ends behind the cap, the framer holds the tail. -/
theorem Measures.run_calm (measures : F.Measures sep cap refusal room) {chunks : List (List α)}
    (calm : Calm sep cap chunks) (fits : Fits sep cap room chunks) :
    ∃ s, F.run chunks = some (complete sep chunks.flatten, .ok s) ∧
      F.buf s = remainder sep chunks.flatten := by
  induction chunks using List.reverseRecOn with
  | nil => exact ⟨F.start, rfl, measures.start⟩
  | append_singleton chunks chunk ih =>
      have before := calm.of_prefix (List.prefix_append chunks [chunk])
      obtain ⟨s, ran, buf⟩ := ih before (fits.of_prefix (List.prefix_append _ _))
      have flat : (chunks ++ [chunk]).flatten = chunks.flatten ++ chunk := by simp
      obtain ⟨s', pushed, grown⟩ := measures.push s chunk (by
        rw [buf]
        exact fits chunks chunk List.prefix_rfl before)
      rw [buf] at grown
      have small := calm _ List.prefix_rfl
      rw [flat, remainder_append, ← grown] at small
      obtain ⟨last, drained, left⟩ := measures.drain_calm (Nat.lt_succ_self _) small
      refine ⟨last, ?_, ?_⟩
      · rw [run_concat, ran, feed, pushed, flat, complete_append, ← grown]
        simp [drained]
      · rw [left, flat, remainder_append, ← grown]

/-- The first chunk that ends behind the cap is refused, and nothing is taken after. -/
theorem Measures.run_first (measures : F.Measures sep cap refusal room)
    {front chunks : List (List α)} {chunk : List α} (inside : front ++ [chunk] <+: chunks)
    (calm : Calm sep cap front) (long : cap < (remainder sep (front ++ [chunk]).flatten).length)
    (fits : Fits sep cap room chunks) :
    F.run chunks = some (complete sep (front ++ [chunk]).flatten, .error refusal) := by
  have flat : (front ++ [chunk]).flatten = front.flatten ++ chunk := by simp
  obtain ⟨s, ran, buf⟩ := measures.run_calm calm
    (fits.of_prefix ((List.prefix_append _ _).trans inside))
  obtain ⟨s', pushed, grown⟩ := measures.push s chunk (by
    rw [buf]
    exact fits front chunk inside calm)
  rw [buf] at grown
  have first : F.run (front ++ [chunk]) =
      some (complete sep (front ++ [chunk]).flatten, .error refusal) := by
    rw [flat, remainder_append, ← grown] at long
    rw [run_concat, ran, feed, pushed, flat, complete_append, ← grown]
    simp [measures.drain_long (Nat.lt_succ_self _) long]
  obtain ⟨rest, rfl⟩ := inside
  clear fits
  induction rest using List.reverseRecOn with
  | nil => simpa using first
  | append_singleton rest last ih =>
      rw [← List.append_assoc, run_concat, ih]
      rfl

/-- What a framer gives out when every chunk finds room. -/
theorem Measures.outcome_eq (measures : F.Measures sep cap refusal room)
    {chunks : List (List α)} (fits : Fits sep cap room chunks) :
    F.outcome chunks = some ((progress sep cap chunks).lines,
      if (progress sep cap chunks).capped then some refusal else none) := by
  rcases calm_or_first sep cap chunks with calm | ⟨front, chunk, inside, calm, long⟩
  · obtain ⟨s, ran, _⟩ := measures.run_calm calm fits
    simp [outcome, ran, progress_calm calm]
  · simp [outcome, measures.run_first inside calm long fits, progress_first inside calm long]

/-- A chunk that finds no room ends the framer for good. -/
theorem Measures.outcome_stuck (measures : F.Measures sep cap refusal room)
    {chunks : List (List α)} (full : ¬ Fits sep cap room chunks) : F.outcome chunks = none := by
  suffices stuck : F.run chunks = none by simp [outcome, stuck]
  induction chunks using List.reverseRecOn with
  | nil =>
      refine absurd (fun front chunk inside => ?_) full
      have nothing := List.prefix_nil.mp inside
      simp at nothing
  | append_singleton chunks chunk ih =>
      rw [run_concat]
      by_cases fits : Fits sep cap room chunks
      · have last : Calm sep cap chunks ∧
            ∃ most ∈ room, most < (remainder sep chunks.flatten).length + chunk.length := by
          by_contra absent
          refine full fun front other inside calm most given => ?_
          rcases List.prefix_concat_iff.mp inside with same | early
          · obtain ⟨rfl, final⟩ := List.append_inj' same rfl
            cases final
            exact Nat.le_of_not_lt fun more => absent ⟨calm, most, given, more⟩
          · exact fits front other early calm most given
        obtain ⟨calm, most, given, more⟩ := last
        obtain ⟨s, ran, buf⟩ := measures.run_calm calm fits
        rw [ran, feed, measures.full s chunk most given (by rw [buf]; exact more)]
        rfl
      · rw [ih fits]
        rfl

/-- A framer obeys the law exactly when its chunks find room and no over-long line
goes unnoticed. -/
theorem Measures.lawful_iff (measures : F.Measures sep cap refusal room)
    (chunks : List (List α)) :
    F.outcome chunks = some ((lawful sep cap chunks.flatten).1,
        if (lawful sep cap chunks.flatten).2 then some refusal else none) ↔
      Fits sep cap room chunks ∧
        ((∀ line ∈ complete sep chunks.flatten, line.length ≤ cap) ∨ Noticed sep cap chunks) := by
  by_cases fits : Fits sep cap room chunks
  · rw [measures.outcome_eq fits, and_iff_right fits, ← progress_lawful_iff, Option.some_inj,
      Prod.ext_iff, Prod.ext_iff]
    refine and_congr Iff.rfl ?_
    cases (progress sep cap chunks).capped with
    | false => cases (lawful sep cap chunks.flatten).2 <;> simp
    | true => cases (lawful sep cap chunks.flatten).2 <;> simp
  · rw [measures.outcome_stuck fits]
    simp [fits]

end Framer

end SanDbOxFormal.Library.CappedFraming
