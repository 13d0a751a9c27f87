import SanDbOxFormal.Library.JsonUtf16

/-!
# JSON over code points

A reader of code points that joins the escapes of a pair reads what the grammar derives.
-/

namespace SanDbOxFormal.Library.JsonPoints

open SanDbOxFormal.Library.Rfc8259 (Json Element Body Derives Hex4)
open SanDbOxFormal.Library.JsonReader

mutual

/-- The tree over code points of a value over characters. -/
def pointTree : Json → Tree
  | .null => .null
  | .bool b => .bool b
  | .number n => .number (points n.raw.toList)
  | .string s => .string (points s.toList)
  | .array items => .array (pointTrees items)
  | .object pairs => .object (pointMembers pairs)

def pointTrees : List Json → List Tree
  | [] => []
  | v :: rest => pointTree v :: pointTrees rest

def pointMembers : List (String × Json) → List (List Nat × Tree)
  | [] => []
  | (key, v) :: rest => (points key.toList, pointTree v) :: pointMembers rest

end

theorem pointMembers_eq (pairs : List (String × Json)) :
    pointMembers pairs = pairs.map fun pair => (points pair.1.toList, pointTree pair.2) := by
  induction pairs with
  | nil => rfl
  | cons pair rest ih =>
      obtain ⟨key, v⟩ := pair
      rw [pointMembers, ih, List.map_cons]

/-! ## Strings -/

theorem hex4_found {hex : List Char} {u : Nat} (unit : Hex4 hex u) :
    ∃ a b c d, points hex = [a, b, c, d] ∧ hex4? a b c d = some u := by
  cases unit with
  | mk ha hb hc hd =>
      refine ⟨_, _, _, _, rfl, ?_⟩
      exact Option.bind_eq_some_iff.mpr ⟨_, ha, Option.bind_eq_some_iff.mpr ⟨_, hb,
        Option.bind_eq_some_iff.mpr ⟨_, hc, Option.bind_eq_some_iff.mpr ⟨_, hd, rfl⟩⟩⟩⟩

theorem char_apart (c : Char) : ¬ (0xD800 ≤ c.toNat ∧ c.toNat ≤ 0xDBFF) := by
  rcases c.valid with low | ⟨high, _⟩
  · have small : c.toNat < 0xD800 := low
    omega
  · have large : 0xDFFF < c.toNat := high
    omega

/-- An element is read as its character. -/
theorem element_reads {raw : List Char} {c : Char} (element : Element raw c) (n : Nat) (rest : List Nat) :
    body strictPoints (n + 1) (points raw ++ rest) = prepend c.toNat (body strictPoints n rest) := by
  cases element with
  | plain notQuote notEscape visible =>
      exact Piece.reads (.plain (fun same => notQuote (Char.toNat_inj.mp same))
        (fun same => notEscape (Char.toNat_inj.mp same)) visible) n rest
  | escape found => exact Piece.reads (.escape (JsonUtf16.simpleEscape?_units found).1) n rest
  | unicode unit =>
      obtain ⟨x₁, x₂, x₃, x₄, shape, found⟩ := hex4_found unit
      rw [points_cons, points_cons, shape]
      exact Piece.reads (.unicode found fun _ => char_apart c) n rest
  | @pair high low h l _ hhigh hlow highRange lowRange value =>
      obtain ⟨a₁, a₂, a₃, a₄, shape, found⟩ := hex4_found hhigh
      obtain ⟨b₁, b₂, b₃, b₄, shape', found'⟩ := hex4_found hlow
      have text : points ('\\' :: 'u' :: (high ++ '\\' :: 'u' :: low)) ++ rest =
          0x5C :: 0x75 :: a₁ :: a₂ :: a₃ :: a₄ :: 0x5C :: 0x75 :: b₁ :: b₂ :: b₃ :: b₄ :: rest := by
        rw [points_cons, points_cons, points_append, points_cons, points_cons, shape, shape']
        rfl
      have behind : lowEscape? (0x5C :: 0x75 :: b₁ :: b₂ :: b₃ :: b₄ :: rest) = some (l, rest) := by
        simp [lowEscape?, found', lowRange]
      have pair : (strictPoints.joins && decide (0xD800 ≤ h) && decide (h ≤ 0xDBFF)) = true := by
        simp [strictPoints, highRange]
      rw [text, body, if_neg (by decide), if_pos rfl, if_pos rfl, found]
      dsimp only
      rw [if_pos pair, behind, value]
      rfl

/-- The body of a string is read up to its quote. -/
theorem body_reads {raw cs : List Char} (spelled : Body raw cs) (rest : List Nat) {n : Nat}
    (enough : raw.length < n) : body strictPoints n (points raw ++ 0x22 :: rest) = .ok (points cs, rest) := by
  induction spelled generalizing n with
  | nil =>
      obtain ⟨m, rfl⟩ := Nat.exists_eq_add_of_lt enough
      rfl
  | @cons first more c cs element _ ih =>
      have filled : 0 < first.length := by cases element <;> exact Nat.zero_lt_succ _
      rw [List.length_append] at enough
      obtain ⟨m, rfl⟩ : ∃ m, n = m + 1 := ⟨n - 1, by omega⟩
      rw [points_append, List.append_assoc, element_reads element, ih (by omega)]
      rfl

theorem string_reads {raw cs : List Char} (spelled : Body raw cs) (rest : List Nat) :
    string strictPoints (points raw ++ 0x22 :: rest) = .ok (points cs, rest) := by
  refine body_reads spelled rest ?_
  rw [List.length_append, points, List.length_map]
  omega

/-! ## How a value starts -/

theorem ws_points {ws : List Char} (space : Rfc8259.Ws ws) : Ws (points ws) := by
  intro n inside
  obtain ⟨c, among, rfl⟩ := List.mem_map.mp inside
  rw [JsonUtf16.isWs_toNat]
  exact space c among

/-- A value starts with no space and no closing bracket. -/
theorem derives_front {v : Json} {text : List Char} (derives : Derives (.value v) text) :
    ∃ c more, points text = c :: more ∧ isWs c = false ∧ c ≠ 0x5D := by
  cases derives with
  | number token =>
      obtain ⟨c, more, shape, start⟩ := number_start token
      have range : c = 0x2D ∨ 0x30 ≤ c ∧ c ≤ 0x39 := by
        rcases start with digit | ⟨minus, _⟩
        · simp only [isDigit, Bool.and_eq_true, decide_eq_true_eq] at digit
          exact .inr digit
        · exact .inl minus
      refine ⟨c, more, shape, ?_, by omega⟩
      simp only [isWs, Bool.or_eq_false_iff, decide_eq_false_iff_not]
      omega
  | _ => exact ⟨_, _, rfl, rfl, by decide⟩

theorem derives_solid {v : Json} {text : List Char} (derives : Derives (.value v) text) (rest : List Nat) :
    Solid (points text ++ rest) := by
  obtain ⟨c, more, shape, solid, _⟩ := derives_front derives
  exact ⟨c, more ++ rest, by rw [shape]; rfl, solid⟩

theorem skipWs_elements {items : List Json} {inside : List Char} (filled : Derives (.elements items) inside)
    (tail : List Nat) : ∃ c more, skipWs (points inside ++ tail) = c :: more ∧ c ≠ 0x5D := by
  have first {before text : List Char} {v : Json} (space : Rfc8259.Ws before) (derives : Derives (.value v) text)
      (others : List Nat) : ∃ c more, skipWs (points before ++ (points text ++ others)) = c :: more ∧ c ≠ 0x5D := by
    obtain ⟨c, more, shape, _, other⟩ := derives_front derives
    rw [skipWs_solid (ws_points space) (derives_solid derives others), shape]
    exact ⟨c, more ++ others, rfl, other⟩
  cases filled with
  | lastElement hbefore hvalue _ =>
      rw [points_append, points_append, List.append_assoc, List.append_assoc]
      exact first hbefore hvalue _
  | nextElement hbefore hvalue _ _ =>
      rw [points_append, points_append, List.append_assoc, List.append_assoc]
      exact first hbefore hvalue _

theorem skipWs_members {pairs : List (String × Json)} {inside : List Char} (filled : Derives (.members pairs) inside)
    (tail : List Nat) : ∃ more, skipWs (points inside ++ tail) = 0x22 :: more := by
  cases filled with
  | lastMember hbefore _ _ _ _ _ =>
      rw [points_append, List.append_assoc, points_cons, List.cons_append]
      exact ⟨_, skipWs_solid (ws_points hbefore) ⟨_, _, rfl, rfl⟩⟩
  | nextMember hbefore _ _ _ _ _ _ =>
      rw [points_append, List.append_assoc, points_cons, List.cons_append]
      exact ⟨_, skipWs_solid (ws_points hbefore) ⟨_, _, rfl, rfl⟩⟩

/-! ## Values -/

/-- What a production denotes over code points. -/
def pointCategory : Rfc8259.Category → JsonReader.Category
  | .value v => .value (pointTree v)
  | .elements items => .elements (pointTrees items)
  | .members pairs => .members (pointMembers pairs)

theorem points_enclosed (first last : Char) (inside : List Char) (rest : List Nat) :
    points (first :: (inside ++ [last])) ++ rest = first.toNat :: (points inside ++ last.toNat :: rest) := by
  rw [points_cons, points_append, List.cons_append, List.append_assoc]
  rfl

/-- Reading a key, the colon and the value behind it. -/
theorem member_reads {value : List Nat → Except Fault (Tree × List Nat)} {before raw key middle gap text : List Char}
    {v : Json} {after rest : List Nat} {mark m : Nat} (hbefore : Rfc8259.Ws before) (hkey : Body raw key)
    (hmiddle : Rfc8259.Ws middle) (hgap : Rfc8259.Ws gap) (hvalue : Derives (.value v) text)
    (read : value (points text ++ (after ++ mark :: rest)) = .ok (pointTree v, after ++ mark :: rest))
    (behind : skipWs (after ++ mark :: rest) = mark :: rest) :
    members strictPoints value (m + 1) (points before ++ 0x22 :: (points raw ++ 0x22 :: (points middle ++ 0x3A ::
      (points gap ++ (points text ++ (after ++ mark :: rest)))))) =
      if mark = 0x2C then do
        let (more, rest) ← members strictPoints value m rest
        .ok ((points key, pointTree v) :: more, rest)
      else if mark = 0x7D then .ok ([(points key, pointTree v)], rest)
      else .error .malformed := by
  rw [members, skipWs_solid (ws_points hbefore) ⟨_, _, rfl, rfl⟩]
  dsimp only
  rw [if_pos rfl, string_reads hkey]
  dsimp only [bind, Except.bind]
  rw [skipWs_solid (ws_points hmiddle) ⟨_, _, rfl, rfl⟩]
  dsimp only
  rw [if_pos rfl, skipWs_solid (ws_points hgap) (derives_solid hvalue _), read]
  dsimp only [bind, Except.bind]
  rw [behind]

theorem standard : Standard strictPoints := standard_of_plain rfl

section Reads

variable {n : Nat} {before text after others : List Char} {v : Json}

theorem string_value_reads {raw cs : List Char} (spelled : Body raw cs) :
    Reads strictPoints n (.value (.string (points cs))) (points ('"' :: (raw ++ ['"']))) := by
  intro rest _
  rw [points_enclosed]
  change value strictPoints n (0x22 :: (points raw ++ 0x22 :: rest)) = _
  rw [value_string, string_reads spelled]
  rfl

theorem array_reads {inside : List Char} {items : List Json} (filled : Derives (.elements items) inside)
    (reads : Reads strictPoints n (.elements (pointTrees items)) (points inside)) :
    Reads strictPoints (n + 1) (.value (.array (pointTrees items))) (points ('[' :: (inside ++ [']']))) := by
  intro rest _
  obtain ⟨c, more, head, other⟩ := skipWs_elements filled (0x5D :: rest)
  have read := reads rest ((points inside ++ 0x5D :: rest).length + 1) (by rw [List.length_append]; omega)
  rw [points_enclosed]
  change value strictPoints (n + 1) (0x5B :: (points inside ++ 0x5D :: rest)) = _
  rw [value_array, JsonReader.array, head]
  dsimp only
  rw [if_neg other, read]
  rfl

theorem object_reads {inside : List Char} {pairs : List (String × Json)} (filled : Derives (.members pairs) inside)
    (reads : Reads strictPoints n (.members (pointMembers pairs)) (points inside)) :
    Reads strictPoints (n + 1) (.value (.object (pointMembers pairs))) (points ('{' :: (inside ++ ['}']))) := by
  intro rest _
  obtain ⟨more, head⟩ := skipWs_members filled (0x7D :: rest)
  have read := reads rest ((points inside ++ 0x7D :: rest).length + 1) (by rw [List.length_append]; omega)
  rw [points_enclosed]
  change value strictPoints (n + 1) (0x7B :: (points inside ++ 0x7D :: rest)) = _
  rw [value_object, JsonReader.object, head]
  dsimp only
  rw [if_neg (by decide), read]
  rfl

theorem last_element_reads (hbefore : Rfc8259.Ws before) (hvalue : Derives (.value v) text)
    (hafter : Rfc8259.Ws after) (reads : Reads strictPoints n (.value (pointTree v)) (points text)) :
    Reads strictPoints n (.elements [pointTree v]) (points (before ++ (text ++ after))) := by
  intro rest bound enough
  obtain ⟨bound, rfl⟩ : ∃ m, bound = m + 1 := ⟨bound - 1, by omega⟩
  obtain ⟨read, behind⟩ := value_then reads (ws_points hafter) (ends_bracket rest) rfl
  rw [points_append, points_append, List.append_assoc, List.append_assoc, elements,
    skipWs_solid (ws_points hbefore) (derives_solid hvalue _), read]
  dsimp only [bind, Except.bind]
  rw [behind]
  rfl

theorem next_element_reads {items : List Json} (hbefore : Rfc8259.Ws before) (hvalue : Derives (.value v) text)
    (hafter : Rfc8259.Ws after) (reads : Reads strictPoints n (.value (pointTree v)) (points text))
    (later : Reads strictPoints n (.elements (pointTrees items)) (points others)) :
    Reads strictPoints n (.elements (pointTree v :: pointTrees items))
      (points (before ++ (text ++ (after ++ ',' :: others)))) := by
  intro rest bound enough
  simp only [points_append, points_cons, List.length_append, List.length_cons] at enough
  obtain ⟨bound, rfl⟩ : ∃ m, bound = m + 1 := ⟨bound - 1, by omega⟩
  obtain ⟨read, behind⟩ := value_then reads (ws_points hafter) (ends_comma (points others ++ 0x5D :: rest)) rfl
  have tail := later rest bound (by omega)
  simp only [points_append, points_cons, List.append_assoc, List.cons_append]
  change elements _ _ (points before ++ (points text ++ (points after ++ 0x2C :: (points others ++ 0x5D :: rest)))) = _
  rw [elements, skipWs_solid (ws_points hbefore) (derives_solid hvalue _), read]
  dsimp only [bind, Except.bind]
  rw [behind]
  dsimp only
  rw [if_pos rfl, tail]

variable {raw key middle gap : List Char}

theorem last_member_reads (hbefore : Rfc8259.Ws before) (hkey : Body raw key) (hmiddle : Rfc8259.Ws middle)
    (hgap : Rfc8259.Ws gap) (hvalue : Derives (.value v) text) (hafter : Rfc8259.Ws after)
    (reads : Reads strictPoints n (.value (pointTree v)) (points text)) :
    Reads strictPoints n (.members [(points key, pointTree v)])
      (points (before ++ '"' :: (raw ++ '"' :: (middle ++ ':' :: (gap ++ (text ++ after)))))) := by
  intro rest bound enough
  obtain ⟨bound, rfl⟩ : ∃ m, bound = m + 1 := ⟨bound - 1, by omega⟩
  obtain ⟨read, behind⟩ := value_then reads (ws_points hafter) (ends_brace rest) rfl
  have taken := member_reads (m := bound) hbefore hkey hmiddle hgap hvalue read behind
  simp only [points_append, points_cons, List.append_assoc, List.cons_append]
  refine taken.trans ?_
  rw [if_neg (by decide), if_pos rfl]

theorem next_member_reads {pairs : List (String × Json)} (hbefore : Rfc8259.Ws before) (hkey : Body raw key)
    (hmiddle : Rfc8259.Ws middle) (hgap : Rfc8259.Ws gap) (hvalue : Derives (.value v) text)
    (hafter : Rfc8259.Ws after) (reads : Reads strictPoints n (.value (pointTree v)) (points text))
    (later : Reads strictPoints n (.members (pointMembers pairs)) (points others)) :
    Reads strictPoints n (.members ((points key, pointTree v) :: pointMembers pairs))
      (points (before ++ '"' :: (raw ++ '"' :: (middle ++ ':' :: (gap ++ (text ++ (after ++ ',' :: others))))))) := by
  intro rest bound enough
  simp only [points_append, points_cons, List.length_append, List.length_cons] at enough
  obtain ⟨bound, rfl⟩ : ∃ m, bound = m + 1 := ⟨bound - 1, by omega⟩
  obtain ⟨read, behind⟩ := value_then reads (ws_points hafter) (ends_comma (points others ++ 0x7D :: rest)) rfl
  have tail := later rest bound (by omega)
  have taken := member_reads (m := bound) hbefore hkey hmiddle hgap hvalue read behind
  simp only [points_append, points_cons, List.append_assoc, List.cons_append]
  refine taken.trans ?_
  rw [if_pos rfl, tail]
  rfl

end Reads

/-- Every reader that nests deep enough reads what the grammar derives. -/
theorem derives_reads {category : Rfc8259.Category} {cs : List Char} (derives : Derives category cs) :
    ∃ depth, ∀ n, depth ≤ n → Reads strictPoints n (pointCategory category) (points cs) := by
  have nested {n depth : Nat} (deep : depth + 1 ≤ n) : ∃ m, n = m + 1 ∧ depth ≤ m := ⟨n - 1, by omega, by omega⟩
  induction derives with
  | null => exact ⟨0, fun n _ => Spelled.reads standard .null⟩
  | true => exact ⟨0, fun n _ => Spelled.reads standard .true⟩
  | false => exact ⟨0, fun n _ => Spelled.reads standard .false⟩
  | @number cs token =>
      refine ⟨0, fun n _ => ?_⟩
      rw [pointCategory, pointTree, String.toList_ofList]
      exact Spelled.reads standard (.number token rfl)
  | @string raw cs spelled =>
      refine ⟨0, fun n _ => ?_⟩
      rw [pointCategory, pointTree, String.toList_ofList]
      exact string_value_reads spelled
  | emptyArray space =>
      refine ⟨1, fun n deep => ?_⟩
      obtain ⟨m, rfl, _⟩ := nested deep
      rw [points_cons, points_append]
      exact Spelled.reads standard (.emptyArray (ws_points space))
  | array filled ih =>
      obtain ⟨depth, reads⟩ := ih
      refine ⟨depth + 1, fun n deep => ?_⟩
      obtain ⟨m, rfl, enough⟩ := nested deep
      exact array_reads filled (reads m enough)
  | emptyObject space =>
      refine ⟨1, fun n deep => ?_⟩
      obtain ⟨m, rfl, _⟩ := nested deep
      rw [points_cons, points_append]
      exact Spelled.reads standard (.emptyObject (ws_points space))
  | object filled ih =>
      obtain ⟨depth, reads⟩ := ih
      refine ⟨depth + 1, fun n deep => ?_⟩
      obtain ⟨m, rfl, enough⟩ := nested deep
      exact object_reads filled (reads m enough)
  | lastElement hbefore hvalue hafter ih =>
      obtain ⟨depth, reads⟩ := ih
      exact ⟨depth, fun n deep => last_element_reads hbefore hvalue hafter (reads n deep)⟩
  | nextElement hbefore hvalue hafter _ ihValue ihMore =>
      obtain ⟨depth, reads⟩ := ihValue
      obtain ⟨depth', reads'⟩ := ihMore
      exact ⟨max depth depth', fun n deep =>
        next_element_reads hbefore hvalue hafter (reads n (by omega)) (reads' n (by omega))⟩
  | lastMember hbefore hkey hmiddle hgap hvalue hafter ih =>
      obtain ⟨depth, reads⟩ := ih
      refine ⟨depth, fun n deep => ?_⟩
      rw [pointCategory, pointMembers, String.toList_ofList]
      exact last_member_reads hbefore hkey hmiddle hgap hvalue hafter (reads n deep)
  | nextMember hbefore hkey hmiddle hgap hvalue hafter _ ihValue ihMore =>
      obtain ⟨depth, reads⟩ := ihValue
      obtain ⟨depth', reads'⟩ := ihMore
      refine ⟨max depth depth', fun n deep => ?_⟩
      rw [pointCategory, pointMembers, String.toList_ofList]
      exact next_member_reads hbefore hkey hmiddle hgap hvalue hafter (reads n (by omega)) (reads' n (by omega))

/-- A text of the grammar is read. -/
theorem text_read {cs : List Char} {v : Json} (text : Rfc8259.Text cs v) :
    ∃ depth, ∀ n, depth ≤ n → JsonReader.read strictPoints n (points cs) = .ok (pointTree v) := by
  obtain ⟨before, inside, after, rfl, hbefore, derives, hafter⟩ := text
  obtain ⟨depth, reads⟩ := derives_reads derives
  refine ⟨depth, fun n deep => ?_⟩
  have ends : Ends (points after) := by
    have padded := (ws_points hafter).ends Ends.nil
    rwa [List.append_nil] at padded
  have taken : value strictPoints n (points inside ++ points after) = .ok (pointTree v, points after) :=
    reads n deep _ ends
  rw [points_append, points_append, JsonReader.read,
    skipWs_solid (ws_points hbefore) (derives_solid derives _), taken]
  exact if_pos (skipWs_all (ws_points hafter))

end SanDbOxFormal.Library.JsonPoints
