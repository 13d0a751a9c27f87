import Mathlib

/-!
# Strings and exceptions of the Python runtime

A `str` is a sequence of code points, surrogates included.  The exceptions are those
that the driver raises, catches or lets through.
-/

namespace SanDbOxFormal.Python

abbrev PyStr := List Nat

/-- A literal of the source. -/
def lit (s : String) : PyStr := s.toList.map Char.toNat

def newline : UInt8 := 0x0A

inductive PyError where
  | sanDBoxError (message : PyStr)
  | responseError (code message : PyStr)
  | protocolError (message : PyStr)
  /-- A `SanDBoxError` and a `TimeoutError`. -/
  | sanDBoxTimeoutError (message : PyStr)
  /-- Also the `JSONDecodeError` and the `UnicodeDecodeError` of `json.loads`. -/
  | valueError (message : PyStr)
  | binasciiError (message : PyStr)
  | typeError (message : PyStr)
  | recursionError (message : PyStr)
  | overflowError (message : PyStr)
  | timeoutError (message : PyStr)
  | osError (message : PyStr)
  | eofError (message : PyStr)
  | keyboardInterrupt
  deriving DecidableEq

namespace PyError

/-- `isinstance(e, SanDBoxError)`. -/
def isSanDBox : PyError → Bool
  | sanDBoxError _ | responseError _ _ | protocolError _ | sanDBoxTimeoutError _ => true
  | _ => false

/-- `isinstance(e, ValueError)`. -/
def isValueError : PyError → Bool
  | valueError _ | binasciiError _ => true
  | _ => false

/-- `isinstance(e, TimeoutError)`. -/
def isTimeout : PyError → Bool
  | sanDBoxTimeoutError _ | timeoutError _ => true
  | _ => false

/-- `isinstance(e, OSError)`, of which a `TimeoutError` is one. -/
def isOSError : PyError → Bool
  | osError _ => true
  | e => e.isTimeout

def isEOFError : PyError → Bool
  | eofError _ => true
  | _ => false

/-- `str(e)`. -/
def message : PyError → PyStr
  | sanDBoxError m | protocolError m | sanDBoxTimeoutError m | valueError m | binasciiError m
  | typeError m | recursionError m | overflowError m | timeoutError m | osError m | eofError m => m
  | responseError code m => code ++ lit ": " ++ m
  | keyboardInterrupt => []

end PyError

/-- An IEEE 754 double. -/
structure PyFloat where
  bits : UInt64
  deriving DecidableEq

namespace PyFloat

def infinity : Nat := 0x7FF0000000000000

/-- The bits without the sign, in the order of the magnitudes. -/
def magnitude (x : PyFloat) : Nat := x.bits.toNat % 2 ^ 63

def signed (x : PyFloat) : Bool := 2 ^ 63 ≤ x.bits.toNat

/-- `math.isnan`. -/
def isNan (x : PyFloat) : Bool := infinity < x.magnitude

/-- `math.isinf`. -/
def isInf (x : PyFloat) : Bool := x.magnitude = infinity

/-- `x < 0`. -/
def negative (x : PyFloat) : Bool := x.signed && x.magnitude ≠ 0 && !x.isNan

/-- `x > y`, for a `y` that is a positive number. -/
def exceeds (x y : PyFloat) : Bool := !x.signed && !x.isNan && y.magnitude < x.magnitude

end PyFloat

end SanDbOxFormal.Python
