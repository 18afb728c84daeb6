import HostBridge.Duration
import HostBridge.Error

/-!
# Query metadata

The summary of a query that has ended. Hosts see it as a JSON value in which durations are whole
milliseconds; reading such a value back restores everything but what the milliseconds cut off.
-/

namespace HostBridge

/-- A warning of the query service. -/
structure Warning where
  /-- The code of the service. -/
  code : Int32
  /-- The message. -/
  message : String
  deriving DecidableEq, Repr

namespace Warning

/-- The fields seen so far. -/
structure Draft where
  /-- The field `code`. -/
  code : Option Int32 := none
  /-- The field `message`. -/
  message : Option String := none

/-- How warnings are read. -/
def reader : Json.RecordReader Draft Warning where
  name := "QueryWarning"
  fields := ["code", "message"]
  blank := {}
  visit key v d :=
    if key = "code" then do
      let code ← Json.decodeInt32 v
      return { d with code := some code }
    else if key = "message" then do
      let message ← Json.decodeText v
      return { d with message := some message }
    else .ok d
  finish d := do
    let code ← Json.require "code" d.code
    let message ← Json.require "message" d.message
    return ⟨code, message⟩

/-- Decodes a warning. -/
def decode : Json.Decoder Warning := reader.decode

/-- The JSON form of a warning. -/
def toJson (w : Warning) : Json :=
  .obj [("code", .int w.code.toInt), ("message", .str w.message)]

end Warning

/-- What a query cost. -/
structure Metrics where
  /-- The time from submission to end. -/
  elapsed : Duration := .zero
  /-- The time spent on the query itself. -/
  execution : Duration := .zero
  /-- The number of rows. -/
  resultCount : UInt64 := 0
  /-- The number of bytes. -/
  resultSize : UInt64 := 0
  /-- The number of objects looked at. -/
  processedObjects : UInt64 := 0
  deriving DecidableEq, Repr, Inhabited

namespace Metrics

/-- The fields seen so far. -/
structure Draft where
  /-- The field `elapsed_time`. -/
  elapsed : Option Duration := none
  /-- The field `execution_time`. -/
  execution : Option Duration := none
  /-- The field `result_count`. -/
  resultCount : Option UInt64 := none
  /-- The field `result_size`. -/
  resultSize : Option UInt64 := none
  /-- The field `processed_objects`. -/
  processedObjects : Option UInt64 := none

/-- Decodes a duration from milliseconds. -/
def decodeMillis (v : Json) : Except Json.DecodeError Duration :=
  (Json.decodeUInt64 v).map Duration.ofMillis

/-- How metrics are read. -/
def reader : Json.RecordReader Draft Metrics where
  name := "QueryMetrics"
  fields := ["elapsed_time", "execution_time", "result_count", "result_size", "processed_objects"]
  blank := {}
  visit key v d :=
    if key = "elapsed_time" then do
      let t ← decodeMillis v
      return { d with elapsed := some t }
    else if key = "execution_time" then do
      let t ← decodeMillis v
      return { d with execution := some t }
    else if key = "result_count" then do
      let n ← Json.decodeUInt64 v
      return { d with resultCount := some n }
    else if key = "result_size" then do
      let n ← Json.decodeUInt64 v
      return { d with resultSize := some n }
    else if key = "processed_objects" then do
      let n ← Json.decodeUInt64 v
      return { d with processedObjects := some n }
    else .ok d
  finish d := do
    let elapsed ← Json.require "elapsed_time" d.elapsed
    let execution ← Json.require "execution_time" d.execution
    let resultCount ← Json.require "result_count" d.resultCount
    let resultSize ← Json.require "result_size" d.resultSize
    let processedObjects ← Json.require "processed_objects" d.processedObjects
    return ⟨elapsed, execution, resultCount, resultSize, processedObjects⟩

/-- Decodes metrics. -/
def decode : Json.Decoder Metrics := reader.decode

/-- A count as a JSON value. -/
def count (n : UInt64) : Json := .int n.toNat

/-- The JSON form of metrics, with the fields in declared order. -/
def declared (m : Metrics) : Json :=
  .obj [("elapsed_time", count m.elapsed.millis), ("execution_time", count m.execution.millis),
    ("result_count", count m.resultCount), ("result_size", count m.resultSize),
    ("processed_objects", count m.processedObjects)]

/-- The canonical JSON form of metrics. -/
def toJson (m : Metrics) : Json :=
  .obj [("elapsed_time", count m.elapsed.millis), ("execution_time", count m.execution.millis),
    ("processed_objects", count m.processedObjects), ("result_count", count m.resultCount),
    ("result_size", count m.resultSize)]

end Metrics

/-- The summary of a query that has ended. -/
structure Metadata where
  /-- The identifier of the request. -/
  requestId : String := ""
  /-- The warnings, in order. -/
  warnings : List Warning := []
  /-- What the query cost. -/
  metrics : Metrics := {}
  deriving DecidableEq, Repr, Inhabited

namespace Metadata

/-- The fields seen so far. -/
structure Draft where
  /-- The field `request_id`. -/
  requestId : Option String := none
  /-- The field `warnings`. -/
  warnings : Option (List Warning) := none
  /-- The field `metrics`. -/
  metrics : Option Metrics := none

/-- How metadata is read. -/
def reader : Json.RecordReader Draft Metadata where
  name := "QueryMetadata"
  fields := ["request_id", "warnings", "metrics"]
  blank := {}
  visit key v d :=
    if key = "request_id" then do
      let requestId ← Json.decodeText v
      return { d with requestId := some requestId }
    else if key = "warnings" then do
      let warnings ← Json.decodeList Warning.decode v
      return { d with warnings := some warnings }
    else if key = "metrics" then do
      let metrics ← Metrics.decode v
      return { d with metrics := some metrics }
    else .ok d
  finish d := do
    let requestId ← Json.require "request_id" d.requestId
    let warnings ← Json.require "warnings" d.warnings
    let metrics ← Json.require "metrics" d.metrics
    return ⟨requestId, warnings, metrics⟩

/-- Decodes metadata. -/
def decode : Json.Decoder Metadata := reader.decode

/-- The JSON form of metadata, with the fields in declared order. -/
def declared (m : Metadata) : Json :=
  .obj [("request_id", .str m.requestId), ("warnings", .arr (m.warnings.map Warning.toJson)),
    ("metrics", m.metrics.declared)]

/-- The canonical JSON form of metadata, which hosts see. -/
def toJson (m : Metadata) : Json :=
  .obj [("metrics", m.metrics.toJson), ("request_id", .str m.requestId),
    ("warnings", .arr (m.warnings.map Warning.toJson))]

/-- The text of metadata, with the fields in declared order. -/
def text (m : Metadata) : String :=
  m.declared.render

end Metadata

end HostBridge
