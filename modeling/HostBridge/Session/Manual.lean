import HostBridge.Engine.Bench
import HostBridge.Session.Instance

/-!
# A hand-driven engine

A connector that does with each query what it was told to do: promote it on the spot, keep it for
later, drop it, or refuse it. Closings are only kept; somebody else reports them.
-/

namespace HostBridge.Session

/-- What a hand-driven connector does with a query. -/
inductive Reaction where
  /-- Promotes it on the spot, to a stream if rows are given. -/
  | promote (rows : Option (List Row)) (metadata : Metadata) (error : Option EngineError)
  /-- Keeps it under a key. -/
  | hold (key : String)
  /-- Drops it. -/
  | drop
  /-- Refuses it. -/
  | reject (error : EngineError)

/-- A hand-driven connector. The parameter is the reply of a promotion. -/
structure Manual (π : Type) where
  /-- What to do with the queries to come. -/
  reactions : List Reaction := []
  /-- All requests, also those that were refused. -/
  requests : List Request := []
  /-- How often each operation was cancelled. -/
  operations : List Nat := []
  /-- The streams of promoted queries, by number. -/
  streams : List Nat := []
  /-- How many times a cluster was closed. -/
  closes : Nat := 0
  /-- The queries that are kept, by key. -/
  held : Keyed π := []
  /-- The instances whose closings are kept, the latest in front. -/
  closings : List Nat := []
  /-- The error with which the next connection fails. -/
  connectError : Option Error := none

namespace Manual

variable {π : Type}

/-- The reaction to the next query, and the connector after it. Without a reaction a query is
dropped. -/
def react (m : Manual π) (request : Request) : Reaction × Manual π :=
  let m := { m with requests := m.requests ++ [request] }
  match m.reactions with
  | [] => (.drop, m)
  | r :: reactions => (r, { m with reactions })

/-- Adds an operation. The result is its number. -/
def addOperation (m : Manual π) : Nat × Manual π :=
  (m.operations.length, { m with operations := m.operations ++ [0] })

end Manual

end HostBridge.Session
