import Mathlib

/-!
# Values of the JavaScript runtime

Strings are sequences of UTF-16 units.  What a promise rejects with is one of the
driver's own errors or something that the runtime, the stream or the caller threw.
-/

namespace SanDbOxFormal.TypeScript

abbrev JsString := List UInt16

/-- A literal of the source that has only characters below U+10000. -/
def lit (s : String) : JsString := s.toList.map fun c => UInt16.ofNat c.toNat

inductive JsError where
  | sanDBox (message : JsString)
  | response (code message : JsString)
  | protocol (message : JsString)
  | timeout (message : JsString)
  | typeError (message : JsString)
  | syntaxError (message : JsString)
  | rangeError (message : JsString)
  /-- An error of the stream, or the reason of an abort. -/
  | other (message : JsString)
  deriving DecidableEq

namespace JsError

/-- `e instanceof SanDBoxError`. -/
def isSanDBox : JsError → Bool
  | sanDBox _ | response _ _ | protocol _ | timeout _ => true
  | _ => false

/-- `e.message`. -/
def message : JsError → JsString
  | sanDBox m | protocol m | timeout m | typeError m | syntaxError m | rangeError m | other m => m
  | response code m => code ++ lit ": " ++ m

end JsError

end SanDbOxFormal.TypeScript
