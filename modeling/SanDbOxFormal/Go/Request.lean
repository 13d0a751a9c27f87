import SanDbOxFormal.Go.ValueRoundTrip

/-!
# Requests of the Go driver

The flat `Request` of `codec.go`, whose members are left out where they hold a zero
value, and the requests that `sandbox.go` builds with it.
-/

namespace SanDbOxFormal.Go

open SanDbOxFormal.Library

structure Request where
  op : GoString
  sql : GoString
  params : List (List Char)
  filename : GoString
  sqlite : Bool
  timestamp : Bool
  path : GoString
  table : GoString
  pattern : GoString
  deriving DecidableEq

namespace Request

/-- A request that only has an operation. -/
def ofOp (op : String) : Request := ⟨lit op, [], [], [], false, false, [], [], []⟩

/-- What `json.Marshal` writes for a member. -/
inductive Member where
  | string (s : GoString)
  | bool (b : Bool)
  | raws (items : List (List Char))
  deriving DecidableEq

/-- `omitempty` of a string. -/
def stringMember (name : String) (s : GoString) : List (String × Member) :=
  if s = [] then [] else [(name, .string s)]

/-- `omitempty` of a flag. -/
def boolMember (name : String) (b : Bool) : List (String × Member) :=
  if b then [(name, .bool b)] else []

/-- `omitempty` of a slice. -/
def rawsMember (name : String) (items : List (List Char)) : List (String × Member) :=
  if items = [] then [] else [(name, .raws items)]

/-- The members of a request, in the order of the fields. -/
def members (req : Request) : List (String × Member) :=
  [("op", .string req.op)] ++ stringMember "sql" req.sql ++ rawsMember "params" req.params ++
    stringMember "filename" req.filename ++ boolMember "sqlite" req.sqlite ++
    boolMember "timestamp" req.timestamp ++ stringMember "path" req.path ++
    stringMember "table" req.table ++ stringMember "pattern" req.pattern

end Request

/-! ## The calls -/

/-- The options of `Snapshot`; one that is not given changes nothing. -/
structure SnapshotOptions where
  filename : Option GoString
  sqlite : Option Bool
  timestamp : Option Bool
  deriving DecidableEq

/-- The methods of a session and of a client. -/
inductive Call where
  | query (sql : GoString) (params : List Any)
  | exec (sql : GoString) (params : List Any)
  | snapshot (opts : SnapshotOptions)
  | load (path : GoString)
  | inspect
  | tables
  | schema (table : GoString)
  | dump (pattern : GoString)
  | overwrite
  | close
  deriving DecidableEq

/-- The request of `Query` and `Exec`. -/
def sqlRequest (std : Strconv) (op : String) (sql : GoString) (params : List Any) :
    Except GoError Request := do
  let encodedParams ← (encodeParams std params).mapError (.wrap (lit "sandbox: "))
  .ok { Request.ofOp op with sql, params := encodedParams }

/-- The request that a call writes. -/
def Call.request (std : Strconv) : Call → Except GoError Request
  | .query sql params => sqlRequest std "query" sql params
  | .exec sql params => sqlRequest std "exec" sql params
  | .snapshot opts =>
      .ok { Request.ofOp "snapshot" with
        filename := opts.filename.getD [], sqlite := opts.sqlite.getD false,
        timestamp := opts.timestamp.getD false }
  | .load path => .ok { Request.ofOp "load" with path }
  | .inspect => .ok (Request.ofOp "inspect")
  | .tables => .ok (Request.ofOp "tables")
  | .schema table => .ok { Request.ofOp "schema" with table }
  | .dump pattern => .ok { Request.ofOp "dump" with pattern }
  | .overwrite => .ok (Request.ofOp "overwrite")
  | .close => .ok (Request.ofOp "close")

end SanDbOxFormal.Go
