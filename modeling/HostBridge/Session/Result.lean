import HostBridge.Log

/-!
# Query results

A query result starts empty. It learns of the pending operation of its query on the host, and of the
stream that the query is promoted to on the loop, in either order. The latest stream wins over any
operation, and the latest operation over an earlier one; whatever is superseded is let go.
-/

namespace HostBridge.Session

/-- An operation of some connector. -/
inductive Operation where
  /-- Of an in-memory connector. -/
  | memory (connector operation : Nat)
  /-- Of a hand-driven connector. -/
  | manual (connector operation : Nat)
  deriving DecidableEq, Repr

/-- What a query result refers to. -/
inductive Target where
  /-- Nothing yet. -/
  | empty
  /-- The operation of a query that is not promoted. -/
  | pending (operation : Operation)
  /-- The stream of a promoted query. -/
  | active (stream : Nat)
  deriving DecidableEq, Repr

namespace Target

/-- The query was promoted to a stream. -/
def setStream (_ : Target) (stream : Nat) : Target :=
  active stream

/-- The operation of the query is known. After a promotion it does not matter any more. -/
def setOperation (t : Target) (operation : Operation) : Target :=
  match t with
  | active stream => active stream
  | _ => pending operation

/-- What the log says when the operation of the query becomes known. -/
def operationNotices : Target → List Log.Notice
  | active _ => [.operationIgnored]
  | _ => []

/-- The stream, once there is one. -/
def stream? : Target → Option Nat
  | active stream => some stream
  | _ => none

end Target

/-- A query result. -/
structure QueryResult where
  /-- What it refers to. -/
  target : Target := .empty
  /-- The host still holds it. -/
  alive : Bool := true
  deriving DecidableEq, Repr

end HostBridge.Session
