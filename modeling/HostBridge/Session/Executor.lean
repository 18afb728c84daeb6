/-!
# Executors

An executor drives one query on behalf of the host and remembers how far its rows were consumed.
-/

namespace HostBridge.Session

/-- How far the rows of a query were consumed. -/
inductive Streaming where
  /-- No query was submitted. -/
  | notStarted
  /-- The query was submitted. -/
  | started
  /-- The query was cancelled by the host. -/
  | cancelled
  /-- All rows were consumed. -/
  | complete
  deriving DecidableEq, Repr

/-- The name of a state in answers. -/
def Streaming.name : Streaming → String
  | notStarted => "NotStarted"
  | started => "Started"
  | cancelled => "Cancelled"
  | complete => "Complete"

/-- An executor. -/
structure Executor where
  /-- The result of its query, by number. -/
  result : Option Nat := none
  /-- How far the rows were consumed. -/
  state : Streaming := .notStarted
  deriving DecidableEq, Repr

namespace Executor

/-- A cancellation now would be the first one, and not too late. -/
def canAbort (e : Executor) : Bool :=
  match e.state with
  | .cancelled | .complete => false
  | _ => true

end Executor

end HostBridge.Session
