import SanDbOxFormal.Library.JsonSpelling

/-!
# Texts without spaces

What a printer writes that puts nothing between the tokens: the elements of an array and
the members of an object with a comma between each two.
-/

namespace SanDbOxFormal.Library.JsonReader

variable {d : Dialect} {n : Nat}

theorem noSpace : Ws [] := fun _ inside => absurd inside List.not_mem_nil

/-- The text of a member. -/
def memberText (raw text : List Nat) : List Nat := 0x22 :: (raw ++ 0x22 :: 0x3A :: text)

theorem Spelled.compactElements {texts : List (List Nat)} {ts : List Tree}
    (each : List.Forall₂ (fun text t => Spelled d n (.value t) text) texts ts) (some : texts ≠ []) :
    Spelled d n (.elements ts) ([0x2C].intercalate texts) := by
  induction each with
  | nil => exact absurd rfl some
  | @cons text t texts ts head rest ih =>
      cases rest with
      | nil =>
          have last := Spelled.lastElement noSpace head noSpace
          rw [List.nil_append, List.append_nil] at last
          rwa [List.intercalate_singleton]
      | cons next others =>
          have more := Spelled.nextElement noSpace head noSpace (ih (List.cons_ne_nil _ _))
          rwa [List.nil_append, List.nil_append] at more

/-- An array, which may be empty. -/
theorem Spelled.compactArray {texts : List (List Nat)} {ts : List Tree}
    (each : List.Forall₂ (fun text t => Spelled d n (.value t) text) texts ts) :
    Spelled d (n + 1) (.value (.array ts)) (0x5B :: ([0x2C].intercalate texts ++ [0x5D])) := by
  cases each with
  | nil => exact .emptyArray noSpace
  | cons head rest => exact .array (.compactElements (.cons head rest) (List.cons_ne_nil _ _))

/-- The spelling of a key and of its value. -/
def MemberSpelled (d : Dialect) (n : Nat) (text : List Nat) (member : List Nat × Tree) : Prop :=
  ∃ raw value, text = memberText raw value ∧ Pieces d raw member.1 ∧ Spelled d n (.value member.2) value

theorem Spelled.compactMembers {texts : List (List Nat)} {ms : List (List Nat × Tree)}
    (each : List.Forall₂ (MemberSpelled d n) texts ms) (some : texts ≠ []) :
    Spelled d n (.members ms) ([0x2C].intercalate texts) := by
  induction each with
  | nil => exact absurd rfl some
  | @cons text member texts ms head rest ih =>
      obtain ⟨key, t⟩ := member
      obtain ⟨raw, value, rfl, hkey, hvalue⟩ := head
      cases rest with
      | nil =>
          have last := Spelled.lastMember noSpace hkey noSpace noSpace hvalue noSpace
          rw [List.append_nil] at last
          rwa [List.intercalate_singleton]
      | cons next others =>
          have more := Spelled.nextMember noSpace hkey noSpace noSpace hvalue noSpace
            (ih (List.cons_ne_nil _ _))
          rw [List.intercalate_cons_cons, memberText]
          simpa only [List.nil_append, List.cons_append, List.append_assoc] using more

/-- An object with members. -/
theorem Spelled.compactObject {texts : List (List Nat)} {ms : List (List Nat × Tree)}
    (each : List.Forall₂ (MemberSpelled d n) texts ms) (some : texts ≠ []) :
    Spelled d (n + 1) (.value (.object ms)) (0x7B :: ([0x2C].intercalate texts ++ [0x7D])) :=
  .object (.compactMembers each some)

end SanDbOxFormal.Library.JsonReader
