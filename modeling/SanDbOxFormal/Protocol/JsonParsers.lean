import SanDbOxFormal.Java.Codec.JsonParserReads
import SanDbOxFormal.Library.JsonUtf16
import SanDbOxFormal.Rust.Codec.JsonCompleteness

/-!
# Two JSON parsers agree

The Java parser on the UTF-16 of a text and the Rust parser on its UTF-8 read the same
tree, or both reject it, where the surrogate escapes of the text are paired.
-/

namespace SanDbOxFormal.Protocol

open SanDbOxFormal.Library
open SanDbOxFormal.Library.JsonUtf16 (units unitTree unitTrees unitMembers escapesPaired)
open SanDbOxFormal.Java.Codec.JsonParser (treeOf treesOf membersOf nats nats_injective)

mutual

/-- A tree of the Rust driver as the Java driver holds it. -/
def javaTree : Rfc8259.Json → Java.Codec.Json
  | .null => .null
  | .bool b => .bool b
  | .number n => .num (Utf16.encode n.raw.toList)
  | .string s => .str (Utf16.encode s.toList)
  | .array items => .arr (javaItems items)
  | .object pairs => .obj (javaMembers pairs)

def javaItems : List Rfc8259.Json → List Java.Codec.Json
  | [] => []
  | v :: rest => javaTree v :: javaItems rest

def javaMembers : List (String × Rfc8259.Json) → List (Java.JString × Java.Codec.Json)
  | [] => []
  | (key, v) :: rest => (Utf16.encode key.toList, javaTree v) :: javaMembers rest

end

mutual

theorem treeOf_javaTree : ∀ v, treeOf (javaTree v) = unitTree v
  | .null => rfl
  | .bool _ => rfl
  | .number _ => rfl
  | .string _ => rfl
  | .array items => congrArg JsonReader.Tree.array (treesOf_javaItems items)
  | .object pairs => congrArg JsonReader.Tree.object (membersOf_javaMembers pairs)

theorem treesOf_javaItems : ∀ items, treesOf (javaItems items) = unitTrees items
  | [] => rfl
  | v :: rest => congrArg₂ List.cons (treeOf_javaTree v) (treesOf_javaItems rest)

theorem membersOf_javaMembers : ∀ pairs, membersOf (javaMembers pairs) = unitMembers pairs
  | [] => rfl
  | (_, v) :: rest =>
      congrArg₂ List.cons (congrArg (Prod.mk _) (treeOf_javaTree v)) (membersOf_javaMembers rest)

end

mutual

theorem treeOf_injective : ∀ v w, treeOf v = treeOf w → v = w
  | .null, w, same => by
      cases w with
      | null => rfl
      | _ => cases same
  | .bool b, w, same => by
      cases w with
      | bool b' => rw [JsonReader.Tree.bool.inj same]
      | _ => cases same
  | .num raw, w, same => by
      cases w with
      | num raw' => rw [nats_injective (JsonReader.Tree.number.inj same)]
      | _ => cases same
  | .str s, w, same => by
      cases w with
      | str s' => rw [nats_injective (JsonReader.Tree.string.inj same)]
      | _ => cases same
  | .arr items, w, same => by
      cases w with
      | arr items' => rw [treesOf_injective items items' (JsonReader.Tree.array.inj same)]
      | _ => cases same
  | .obj members, w, same => by
      cases w with
      | obj members' => rw [membersOf_injective members members' (JsonReader.Tree.object.inj same)]
      | _ => cases same

theorem treesOf_injective : ∀ vs ws, treesOf vs = treesOf ws → vs = ws
  | [], [], _ => rfl
  | [], _ :: _, same => nomatch same
  | _ :: _, [], same => nomatch same
  | v :: vs, w :: ws, same => by
      obtain ⟨first, others⟩ := List.cons.inj same
      rw [treeOf_injective v w first, treesOf_injective vs ws others]

theorem membersOf_injective : ∀ ms ns, membersOf ms = membersOf ns → ms = ns
  | [], [], _ => rfl
  | [], _ :: _, same => nomatch same
  | _ :: _, [], same => nomatch same
  | (key, v) :: ms, (key', w) :: ns, same => by
      obtain ⟨first, others⟩ := List.cons.inj same
      obtain ⟨keys, values⟩ := Prod.mk.inj first
      rw [nats_injective keys, treeOf_injective v w values,
        membersOf_injective ms ns others]

end

/-- Both parsers return the same tree, or both reject the text. -/
theorem parsers_agree (cs : List Char) (paired : escapesPaired cs = true) (depth : Nat)
    (stack : Java.Codec.JsonParser.parse depth (Utf16.encode cs) ≠ .error .stackOverflow) :
    (∃ v, Rust.Codec.Json.parse (Utf8.encode cs) = .ok v ∧
      Java.Codec.JsonParser.parse depth (Utf16.encode cs) = .ok (javaTree v)) ∨
    ∃ e m, Rust.Codec.Json.parse (Utf8.encode cs) = .error (.err e) ∧
      Java.Codec.JsonParser.parse depth (Utf16.encode cs) = .error (.codec m) := by
  have reads := Java.Codec.JsonParser.parse_reads depth (Utf16.encode cs)
  have text : nats (Utf16.encode cs) = units cs := rfl
  rw [text] at reads
  cases result : Java.Codec.JsonParser.parse depth (Utf16.encode cs) with
  | ok w =>
      rw [result] at reads
      obtain ⟨v, derived, same⟩ := JsonUtf16.read_sound reads.symm paired
      refine .inl ⟨v, Rust.Codec.Json.parse_ok_iff.mpr ⟨cs, rfl, derived⟩, congrArg Except.ok ?_⟩
      exact treeOf_injective _ _ (same.trans (treeOf_javaTree v).symm)
  | error stop =>
      cases stop with
      | stackOverflow => exact absurd result stack
      | turns => exact absurd result (Java.Codec.JsonParser.parse_turns depth _)
      | codec m =>
          rw [result] at reads
          have outside : ¬ ∃ ds v, Utf8.encode cs = Utf8.encode ds ∧ Rfc8259.Text ds v := by
            rintro ⟨ds, v, same, derived⟩
            rw [← Utf8.encode_injective same] at derived
            -- A deep enough reader takes the text, and the one at hand stayed within its depth.
            obtain ⟨deep, read⟩ := JsonUtf16.text_read derived
            have taken := read (max depth deep) (Nat.le_max_right ..)
            rcases JsonReader.read_stays (Nat.le_max_left depth deep) (units cs) with tooDeep | stays
            · rw [← reads] at tooDeep
              cases tooDeep
            · rw [taken, ← reads] at stays
              cases stays
          obtain ⟨e, refused⟩ := (Rust.Codec.Json.parse_exact (Utf8.encode cs)).2 outside
          exact .inr ⟨e, m, refused, rfl⟩

/-- Members of one name, a number with its zero and a pair of escapes. -/
def sampleJson : List Char := "\x7b\"a\":[1.50,\"\\ud83d\\ude00\"],\"a\":null\x7d".toList

theorem parsers_agree_sample :
    (∃ v, Rust.Codec.Json.parse (Utf8.encode sampleJson) = .ok v ∧
      Java.Codec.JsonParser.parse 9 (Utf16.encode sampleJson) = .ok (javaTree v)) ∨
    ∃ e m, Rust.Codec.Json.parse (Utf8.encode sampleJson) = .error (.err e) ∧
      Java.Codec.JsonParser.parse 9 (Utf16.encode sampleJson) = .error (.codec m) := by
  have returned : (Java.Codec.JsonParser.parse 9 (Utf16.encode sampleJson)).toBool = true := by
    decide +kernel
  refine parsers_agree sampleJson (by decide +kernel) 9 fun overflow => ?_
  rw [overflow] at returned
  cases returned

end SanDbOxFormal.Protocol
