import HostBridge.Json.Decode

/-!
# Errors of the network engine

The transport and protocol layer reports failures as values: a code, a message, a JSON context and,
for failures of the query service, the service's own code and message. An engine error has one
canonical JSON form; reading accepts that form, objects with further members, and arrays that list
the fields in declared order.
-/

namespace HostBridge

/-- The class of an engine error. -/
inductive ErrorCode where
  /-- A failure of no special class. -/
  | generic
  /-- The credential was refused. -/
  | invalidCredential
  /-- Time ran out. -/
  | timeout
  /-- The query service refused the query. -/
  | queryError
  /-- The request was cancelled by the client. -/
  | canceled
  /-- The engine itself failed. -/
  | internal
  deriving DecidableEq, Repr, Inhabited

namespace ErrorCode

/-- All codes in declared order. -/
def all : List ErrorCode :=
  [generic, invalidCredential, timeout, queryError, canceled, internal]

/-- The code in words. -/
def describe : ErrorCode → String
  | generic => "generic error"
  | invalidCredential => "invalid credential"
  | timeout => "timeout"
  | queryError => "query error"
  | canceled => "operation canceled"
  | internal => "internal error"

/-- The name of the code in JSON. -/
def name : ErrorCode → String
  | generic => "generic"
  | invalidCredential => "invalid_credential"
  | timeout => "timeout"
  | queryError => "query_error"
  | canceled => "canceled"
  | internal => "internal"

/-- The code of the given name. -/
def ofName? (s : String) : Option ErrorCode :=
  all.find? fun c => c.name == s

/-- The code of a name, or the complaint that there is none. -/
def ofName (s : String) : Except Json.DecodeError ErrorCode :=
  match ofName? s with
  | some c => .ok c
  | none => .error (.unknownVariant s (all.map name))

/-- Decodes a code: its name, or an object with the name as its only key and null as its value. -/
def decode : Json.Decoder ErrorCode
  | .str s => ofName s
  | .obj [(k, v)] => do
    let c ← ofName k
    if v.isNull then return c else throw (.invalidType v .unit)
  | .obj _ => .error .severalKeys
  | v => .error (.invalidType v .variant)

/-- The JSON form of a code. -/
def toJson (c : ErrorCode) : Json := .str c.name

end ErrorCode

/-- What the query service said about a failed query. -/
structure QueryFault where
  /-- The code of the service. -/
  code : Int32
  /-- The message of the service. -/
  serverMessage : String
  deriving DecidableEq, Repr

namespace QueryFault

/-- The fields seen so far. -/
structure Draft where
  /-- The field `code`. -/
  code : Option Int32 := none
  /-- The field `server_message`. -/
  serverMessage : Option String := none

/-- How query faults are read. -/
def reader : Json.RecordReader Draft QueryFault where
  name := "QueryErrorProperties"
  fields := ["code", "server_message"]
  blank := {}
  visit key v d :=
    if key = "code" then do
      let code ← Json.decodeInt32 v
      return { d with code := some code }
    else if key = "server_message" then do
      let message ← Json.decodeText v
      return { d with serverMessage := some message }
    else .ok d
  finish d := do
    let code ← Json.require "code" d.code
    let message ← Json.require "server_message" d.serverMessage
    return ⟨code, message⟩

/-- Decodes a query fault. -/
def decode : Json.Decoder QueryFault := reader.decode

/-- The JSON form of a query fault. -/
def toJson (q : QueryFault) : Json :=
  .obj [("code", .int q.code.toInt), ("server_message", .str q.serverMessage)]

end QueryFault

/-- A structured error of the engine. It travels as a value, beside a row or alone. -/
structure EngineError where
  /-- The class of the error. -/
  code : ErrorCode
  /-- The message. -/
  message : String
  /-- The context, such as the last endpoint and the number of attempts; null if there is none. -/
  ctx : Json := .null
  /-- What the query service said. -/
  fault : Option QueryFault := none
  deriving Repr

namespace EngineError

instance : Inhabited EngineError := ⟨⟨.generic, "", .null, none⟩⟩

/-- The operation was cancelled on request. -/
def canceled : EngineError := ⟨.canceled, "operation canceled", .null, none⟩

/-- The operation was given up because its cluster went away. -/
def clusterClosed : EngineError := ⟨.canceled, "cluster closed", .null, none⟩

/-- The error is a cancellation. -/
def isCanceled (e : EngineError) : Bool := e.code == .canceled

/-- The message, followed by the text of the context if there is one. -/
def messageWithContext (e : EngineError) : String :=
  if e.ctx.isNull then e.message else e.message ++ " " ++ e.ctx.render

/-- The code and the message in words. -/
def describe (e : EngineError) : String :=
  e.code.describe ++ ": " ++ e.messageWithContext

/-- The two errors are equal, where floating-point zeros in the context are equal. -/
def same (a b : EngineError) : Bool :=
  a.code == b.code && a.message == b.message && a.ctx.same b.ctx && a.fault == b.fault

/-- The fields seen so far. -/
structure Draft where
  /-- The field `code`. -/
  code : Option ErrorCode := none
  /-- The field `message`. -/
  message : Option String := none
  /-- The field `ctx`. -/
  ctx : Option Json := none
  /-- The field `query_error_properties`, which may be absent or null. -/
  fault : Option QueryFault := none

/-- How engine errors are read. -/
def reader : Json.RecordReader Draft EngineError where
  name := "EngineError"
  fields := ["code", "message", "ctx", "query_error_properties"]
  blank := {}
  visit key v d :=
    if key = "code" then do
      let code ← ErrorCode.decode v
      return { d with code := some code }
    else if key = "message" then do
      let message ← Json.decodeText v
      return { d with message := some message }
    else if key = "ctx" then .ok { d with ctx := some v }
    else if key = "query_error_properties" then do
      let fault ← Json.decodeOption QueryFault.decode v
      return { d with fault }
    else .ok d
  finish d := do
    let code ← Json.require "code" d.code
    let message ← Json.require "message" d.message
    let ctx ← Json.require "ctx" d.ctx
    return ⟨code, message, ctx, d.fault⟩

/-- Decodes an engine error. -/
def decode : Json.Decoder EngineError := reader.decode

/-- The canonical JSON form of an engine error. -/
def toJson (e : EngineError) : Json :=
  .obj [("code", e.code.toJson), ("ctx", e.ctx), ("message", .str e.message),
    ("query_error_properties", Json.ofOption QueryFault.toJson e.fault)]

end EngineError

end HostBridge
