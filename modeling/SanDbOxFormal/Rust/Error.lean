import Mathlib

/-!
# Errors

The error type of `error.rs`.  An I/O error is its kind and its text.
-/

namespace SanDbOxFormal.Rust

/-- The `io::ErrorKind`s that the driver creates or looks at. -/
inductive IoKind where
  | unexpectedEof
  | writeZero
  | interrupted
  | wouldBlock
  | timedOut
  | invalidInput
  | other
  deriving DecidableEq, Repr

structure IoError where
  kind : IoKind
  text : String
  deriving DecidableEq, Repr

inductive Error where
  | response (code message : String)
  | protocol (text : String)
  | timeout (text : String)
  | io (e : IoError)
  | closed
  deriving DecidableEq, Repr

def Error.code : Error → Option String
  | .response code _ => some code
  | _ => none

end SanDbOxFormal.Rust
