import HostBridge.Metadata
import HostBridge.Row

/-!
# Streams of scripted rows

A stream replays a list of rows. It has no mark for having ended: past its rows it answers with the
end again and again. The first time it reaches an end it publishes its metadata. Once cancelled it
reports the cancellation once and then behaves as if it were exhausted, without taking any row.
-/

namespace HostBridge.Engine

/-- A stream of rows that was promoted from a query. -/
structure Stream where
  /-- The loop on which its pulls are answered. -/
  loop : Nat
  /-- The rows still to come. -/
  rows : List Row
  /-- Metadata that waits for the end of the rows. -/
  unpublished : Option Metadata
  /-- Metadata that can be seen. -/
  metadata : Option Metadata := none
  /-- The stream was cancelled. -/
  cancelled : Bool := false
  /-- How often it was cancelled. -/
  cancels : Nat := 0
  /-- The cancellation was reported. -/
  reported : Bool := false

namespace Stream

/-- A stream at its start. -/
def ofRows (loop : Nat) (rows : List Row) (metadata : Metadata) : Stream :=
  { loop, rows, unpublished := some metadata }

/-- The stream after it has met an end: metadata that was waiting is published. -/
def publish (s : Stream) : Stream :=
  match s.unpublished with
  | some m => { s with unpublished := none, metadata := some m }
  | none => s

/-- The next answer, and the stream after it. Whoever pulls has looked before whether the stream was
cancelled, and only that counts. -/
def serve (s : Stream) (cancelled : Bool) : Row × Stream :=
  if cancelled then
    if s.reported then (.done, s) else (.failed .canceled, { s with reported := true })
  else
    match s.rows with
    | [] => (.done, s.publish)
    | .done :: rows => (.done, { s with rows }.publish)
    | row :: rows => (row, { s with rows })

/-- Cancels the stream. -/
def cancel (s : Stream) : Stream :=
  { s with cancelled := true, cancels := s.cancels + 1 }

end Stream

end HostBridge.Engine
