import SanDbOxFormal.Library.Failures
import SanDbOxFormal.Protocol.Hello
import SanDbOxFormal.Rust.Session
import SanDbOxFormal.Rust.Codec.JsonRoundTrip

/-!
# The hello check

`decode_hello` and the version check of `Session::new` accept exactly the hello
lines of the driver's protocol.
-/

namespace SanDbOxFormal.Rust

open SanDbOxFormal.Library
open SanDbOxFormal.Library.Rfc8259 (Json)
open SanDbOxFormal.Protocol
open SanDbOxFormal.Rust.Codec

theorem requiredStr_ok_iff {v : Json} {key s : String} :
    requiredStr v key = .ok s ↔ Json.get? v key = some (.string s) := by
  rw [requiredStr, required]
  cases Json.get? v key with
  | none => simp [orProtocol, bind, Except.bind]
  | some field => cases field <;> simp [orProtocol, bind, Except.bind, Json.asStr?]

theorem requiredInt_ok_iff {v : Json} {key : String} {i : Int64} :
    requiredInt v key = .ok i ↔
      ∃ n, Json.get? v key = some (.number n) ∧ i64Parse? n.raw = some i := by
  rw [requiredInt, required]
  cases Json.get? v key with
  | none => simp [orProtocol, bind, Except.bind]
  | some field =>
      cases field <;>
        simp [orProtocol, bind, Except.bind, Json.asNumber?, i64Field, NumberToken.asI64?]
      split <;> simp_all

/-- Only a token of value one reads as the integer one. -/
theorem i64Parse?_one_iff {s : String} (number : Rfc8259.Number s.toList) :
    i64Parse? s = some protocolVersion ↔ IntegerToken s.toList 1 := by
  rw [← parseInt?_eq_some_iff number, i64Parse?, Option.bind_eq_some_iff]
  constructor
  · rintro ⟨i, read, rest⟩
    split at rest
    · rename_i range
      have value := congrArg Int64.toInt (Option.some.inj rest)
      rw [Int64.toInt_ofInt_of_le range.1 range.2] at value
      rw [read, value]
      rfl
    · cases rest
  · exact fun read => ⟨1, read, rfl⟩

theorem get?_object (pairs : List (String × Json)) (key : String) :
    Json.get? (.object pairs) key = first? pairs key := rfl

theorem numeralsPairs_mem {pairs : List (String × Json)} (numerals : Json.NumeralsPairs pairs) :
    ∀ pair ∈ pairs, Json.Numerals pair.2 := by
  induction pairs with
  | nil =>
      intro pair inside
      cases inside
  | cons head rest ih =>
      intro pair inside
      rcases List.mem_cons.mp inside with rfl | later
      · exact numerals.1
      · exact ih numerals.2 pair later

/-- The numbers of an object that was parsed are numbers of the grammar. -/
theorem first?_numeral {pairs : List (String × Json)} {key : String} {n : Rfc8259.NumberToken}
    (numerals : Json.Numerals (.object pairs)) (found : first? pairs key = some (.number n)) :
    Rfc8259.Number n.raw.toList := by
  obtain ⟨pair, there, same⟩ := Option.map_eq_some_iff.mp found
  have numeral := numeralsPairs_mem numerals pair (List.mem_of_find?_eq_some there)
  rw [same] at numeral
  exact numeral

theorem parseLine_ok_iff {what : String} {line : List UInt8} {v : Json} :
    parseLine what line = .ok v ↔ Json.parse line = .ok v := by
  unfold parseLine
  split
  all_goals simp_all

theorem decodeHello_ok_iff {line : List UInt8} {hello : Hello} :
    decodeHello line = .ok hello ↔ ∃ pairs n, Json.parse line = .ok (.object pairs) ∧
      first? pairs "protocol" = some (.number n) ∧ i64Parse? n.raw = some hello.protocol ∧
      first? pairs "version" = some (.string hello.version) ∧
      first? pairs "product" = some (.string hello.product) := by
  simp only [decodeHello, bind_ok_iff, parseLine_ok_iff]
  constructor
  · rintro ⟨v, parsed, rest⟩
    cases v with
    | object pairs =>
        rw [if_neg (by simp [Json.asObject?])] at rest
        simp only [bind_ok_iff, requiredInt_ok_iff, requiredStr_ok_iff, get?_object] at rest
        obtain ⟨protocol, ⟨n, token, read⟩, version, named, product, sold, same⟩ := rest
        cases same
        exact ⟨pairs, n, parsed, token, read, named, sold⟩
    | null => cases rest
    | bool b => cases rest
    | number n => cases rest
    | string s => cases rest
    | array items => cases rest
  · rintro ⟨pairs, n, parsed, token, read, named, sold⟩
    refine ⟨.object pairs, parsed, ?_⟩
    rw [if_neg (by simp [Json.asObject?])]
    simp only [bind_ok_iff, requiredInt_ok_iff, requiredStr_ok_iff, get?_object]
    exact ⟨hello.protocol, ⟨n, token, read⟩, hello.version, named, hello.product, sold, rfl⟩

/-- The hello check accepts exactly the hello lines of the driver's protocol. -/
theorem checkHello_ok_iff (line : List UInt8) :
    (∃ hello, Session.checkHello line = .ok hello) ↔ HelloLine first? 1 line := by
  constructor
  · rintro ⟨hello, checked⟩
    obtain ⟨hello', decoded, rest⟩ := bind_ok_iff.mp checked
    split at rest
    · rename_i version
      cases rest
      obtain ⟨pairs, n, parsed, token, read, named, sold⟩ := decodeHello_ok_iff.mp decoded
      obtain ⟨cs, shape, text⟩ := Json.parse_ok_iff.mp parsed
      rw [version] at read
      have number := first?_numeral (Json.parse_numerals parsed) token
      exact ⟨cs, pairs, shape, text,
        ⟨n, token, (i64Parse?_one_iff number).mp read⟩, ⟨_, named⟩, ⟨_, sold⟩⟩
    · cases rest
  · rintro ⟨cs, pairs, shape, text, ⟨n, token, one⟩, ⟨version, named⟩, ⟨product, sold⟩⟩
    have parsed := Json.parse_ok_iff.mpr ⟨cs, shape, text⟩
    have number := first?_numeral (Json.parse_numerals parsed) token
    have read := (i64Parse?_one_iff number).mpr one
    have decoded : decodeHello line = .ok ⟨protocolVersion, version, product⟩ :=
      decodeHello_ok_iff.mpr ⟨pairs, n, parsed, token, read, named, sold⟩
    exact ⟨⟨protocolVersion, version, product⟩, bind_ok_iff.mpr ⟨_, decoded, if_pos rfl⟩⟩

end SanDbOxFormal.Rust
