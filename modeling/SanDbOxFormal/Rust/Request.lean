import SanDbOxFormal.Rust.Codec.Decode

/-!
# Requests

The operations of `session.rs` and `client.rs`, each with the request object it
builds.  Only the parameters of `query` and `exec` can fail to encode, and then
no object is built.
-/

namespace SanDbOxFormal.Rust

open SanDbOxFormal.Library
open SanDbOxFormal.Library.Rfc8259 (Json)
open SanDbOxFormal.Rust.Codec

structure SnapshotOptions where
  filename : Option String
  sqlite : Bool
  timestamp : Bool
  deriving DecidableEq

inductive Request where
  | query (sql : String) (params : List Value)
  | exec (sql : String) (params : List Value)
  | snapshot (opts : SnapshotOptions)
  | load (path : String)
  | inspect
  | tables
  | schema (table : Option String)
  | dump (pattern : Option String)
  | overwrite
  | close
  deriving DecidableEq

/-- An optional field, pushed only when it is there. -/
def optional (key : String) (value : Option Json) : List (String × Json) :=
  (value.map fun v => (key, v)).toList

def opField (op : String) : String × Json := ("op", Json.str op)

/-- The fields of `query` and `exec`. -/
def sqlFields (std : FloatText) (op sql : String) (params : List Value) :
    Except Error (List (String × Json)) := do
  let p ← encodeParams std params
  .ok ([opField op, ("sql", Json.str sql)] ++ optional "params" p)

def flag (key : String) (on : Bool) : List (String × Json) :=
  optional key (if on then some (.bool true) else none)

namespace Request

def fields (std : FloatText) : Request → Except Error (List (String × Json))
  | .query sql params => sqlFields std "query" sql params
  | .exec sql params => sqlFields std "exec" sql params
  | .snapshot opts =>
      .ok ([opField "snapshot"] ++ optional "filename" (opts.filename.map Json.str) ++
        flag "sqlite" opts.sqlite ++ flag "timestamp" opts.timestamp)
  | .load path => .ok [opField "load", ("path", Json.str path)]
  | .inspect => .ok [opField "inspect"]
  | .tables => .ok [opField "tables"]
  | .schema table => .ok ([opField "schema"] ++ optional "table" (table.map Json.str))
  | .dump pattern => .ok ([opField "dump"] ++ optional "pattern" (pattern.map Json.str))
  | .overwrite => .ok [opField "overwrite"]
  | .close => .ok [opField "close"]

end Request

end SanDbOxFormal.Rust
