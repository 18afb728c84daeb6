import HostBridge.Engine.Basic

/-!
# One connector on one loop

A bench drives the in-memory engine by hand. The thread of its loop is held up, and a pump lets it
run everything that is ready at that moment. Operations and streams go by the names of the queries
that they belong to.
-/

namespace HostBridge.Engine

/-- Which thread reports a completion. -/
inductive Place where
  /-- The thread of the loop. -/
  | loop
  /-- The thread that asked, because the loop refused the task. -/
  | host
  deriving DecidableEq, Repr

/-- What a bench shows. -/
inductive Sight where
  /-- The host thread wrote to the log. -/
  | logged (notice : Log.Notice)
  /-- The engine reported a completion. -/
  | completed (completion : Completion String String String) (place : Place)

/-- What can be seen of a connector from outside. -/
structure Inspection where
  /-- How many times a cluster was closed. -/
  closes : Nat
  /-- How often each operation was cancelled on request. -/
  operationCancels : List Nat
  /-- The requests. -/
  requests : List Request
  /-- How often each promoted stream was cancelled. -/
  streamCancels : List Nat

/-- Looks at a connector. -/
def State.inspect {π ρ κ : Type} (s : State π ρ κ) (connector : Nat) : Inspection :=
  let c := s.connector connector
  { closes := c.closes
    operationCancels := c.operations.map Operation.cancels
    requests := c.requests
    streamCancels := c.streams.map fun i => ((s.stream? i).map Stream.cancels).getD 0 }

/-- A connector and a loop, both of number zero. -/
structure Bench where
  /-- The engine. -/
  engine : State String String String :=
    { workers := [.held], connectors := [{}] }
  /-- The names under which clusters were connected. -/
  clusters : List String := []
  /-- The operations by name. -/
  operations : Keyed Nat := []
  /-- The streams by name. -/
  streams : Keyed Nat := []
  /-- The thread of the loop has been joined. -/
  joined : Bool := false
  /-- Everything that could be seen, the newest in front. -/
  trace : List Sight := []

/-- Something done on a bench. -/
inductive Bench.Action where
  /-- Queues a response. -/
  | respond (response : Response)
  /-- Connects a cluster under a name. -/
  | connect (options : Options) (cluster : String)
  /-- Submits a query. -/
  | query (name : String) (request : Request) (cluster : String)
  /-- Cancels an operation. -/
  | cancelOperation (name : String)
  /-- Lets go of an operation. -/
  | dropOperation (name : String)
  /-- Makes a stream. -/
  | stream (name : String) (rows : List Row) (metadata : Metadata)
  /-- Asks a stream for its next row. -/
  | next (name reply : String)
  /-- Cancels a stream. -/
  | cancelStream (name : String)
  /-- Asks for the metadata of a stream. -/
  | metadata (name : String)
  /-- Closes a cluster. -/
  | close (reply cluster : String)
  /-- Lets the loop run what is ready. -/
  | pump
  /-- Asks the loop to stop. -/
  | stop
  /-- Stops the loop, lets it run to its end and joins its thread. -/
  | finish
  /-- Looks at the connector. -/
  | inspect

/-- The answer to an action. -/
inductive Bench.Answer where
  /-- Nothing to say. -/
  | unit
  /-- A truth value. -/
  | flag (value : Bool)
  /-- Whether a cluster was connected. -/
  | connected (result : Except Error Unit)
  /-- Whether a query was accepted. -/
  | submitted (result : Except EngineError Unit)
  /-- The metadata of a stream, if it has ended. -/
  | metadata (value : Option Metadata)
  /-- What can be seen of the connector. -/
  | inspected (value : Inspection)
  /-- The thread of the loop was joined. -/
  | joined
  /-- There is no thread left to join. -/
  | noThread
  /-- There is no stream of that name. -/
  | noStream
  /-- There is no operation of that name. -/
  | noOperation
  /-- There is no cluster of that name. -/
  | noCluster

namespace Bench

/-- Adds to the trace. -/
def record (b : Bench) (x : Sight) : Bench :=
  { b with trace := x :: b.trace }

/-- Adds notices to the log. -/
def note (b : Bench) (ns : List Log.Notice) : Bench :=
  ns.foldl (fun b n => b.record (.logged n)) b

/-- Shows a completion. A promoted stream is kept under the name of its query. -/
def complete (b : Bench) (place : Place) (c : Completion String String String) : Bench :=
  let b := b.record (.completed c place)
  match c with
  | .promoted name (some stream) _ => { b with streams := b.streams.insert name stream }
  | _ => b

/-- Takes over the engine after a request. If the loop refused the task, its completion is shown. -/
def took (b : Bench)
    (outcome : Option (Completion String String String) × State String String String) : Bench :=
  let b := { b with engine := outcome.2 }
  match outcome.1 with
  | none => b
  | some c => (b.note [.taskRejected]).complete .host c

/-- The thread of the loop does the next thing it has to do. -/
def turn (b : Bench) : Bench :=
  let (c, engine) := b.engine.turn 0
  let b := { b with engine }
  match c with
  | none => b
  | some c => b.complete .loop c

/-- The thread does up to so many things, until it is held up or has nothing to do. -/
def drive : Nat → Bench → Bench
  | 0, b => b
  | n + 1, b => if (b.engine.worker 0).isQuiet then b else drive n b.turn

/-- Lets the thread go on until it is held up or has nothing to do. -/
def resume (b : Bench) : Bench :=
  let b := { b with engine := b.engine.release 0 }
  drive (b.engine.worker 0).weight b

/-- Lets the loop run everything that is ready now. -/
def pump (b : Bench) : Bench :=
  { b with engine := b.engine.park 0 }.resume

/-- Carries out an action. -/
def perform (b : Bench) : Action → Answer × Bench
  | .respond response => (.unit, { b with engine := b.engine.respond 0 response })
  | .connect options cluster =>
    match options.validate with
    | .error e => (.connected (.error e), b)
    | .ok () =>
      let b := { b with clusters := cluster :: b.clusters }
      (.connected (.ok ()), b.note [.clusterConnected options.connection])
  | .query name request cluster =>
    if cluster ∉ b.clusters then (.noCluster, b)
    else
      match b.engine.execute 0 0 request name with
      | .error e => (.submitted (.error e), b)
      | .ok (operation, outcome) =>
        let b := b.took outcome
        (.submitted (.ok ()), { b with operations := b.operations.insert name operation })
  | .cancelOperation name =>
    match b.operations.find? name with
    | none => (.noOperation, b)
    | some o => (.unit, { b with engine := b.engine.cancelOperation 0 o })
  | .dropOperation name =>
    (.flag (b.operations.find? name).isSome, { b with operations := b.operations.erase name })
  | .stream name rows metadata =>
    let (stream, engine) := b.engine.addStream (.ofRows 0 rows metadata)
    (.unit, { b with engine, streams := b.streams.insert name stream })
  | .next name reply =>
    match b.streams.find? name with
    | none => (.noStream, b)
    | some i => (.unit, b.took (b.engine.pull i reply))
  | .cancelStream name =>
    match b.streams.find? name with
    | none => (.noStream, b)
    | some i => (.unit, { b with engine := b.engine.cancelStream i })
  | .metadata name =>
    match b.streams.find? name with
    | none => (.noStream, b)
    | some i => (.metadata ((b.engine.stream? i).bind Stream.metadata), b)
  | .close reply cluster =>
    if cluster ∉ b.clusters then (.noCluster, b)
    else (.unit, b.took (b.engine.close 0 0 reply))
  | .pump => if b.engine.isStopped 0 then (.flag false, b) else (.flag true, b.pump)
  | .stop =>
    let notices := (b.engine.loop 0).stopNotices
    (.unit, { b with engine := b.engine.stop 0 }.note notices)
  | .finish =>
    if b.joined then (.noThread, b)
    else
      let notices := (b.engine.loop 0).stopNotices
      let b := { b with engine := b.engine.stop 0, joined := true }.note notices
      (.joined, b.resume)
  | .inspect => (.inspected (b.engine.inspect 0), b)

/-- What could be seen between two states, the oldest first. -/
def seen (before after : Bench) : List Sight :=
  (after.trace.take (after.trace.length - before.trace.length)).reverse

end Bench

end HostBridge.Engine
