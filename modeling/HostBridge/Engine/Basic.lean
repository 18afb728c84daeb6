import HostBridge.Engine.Stream
import HostBridge.Loop.Worker
import HostBridge.Options
import HostBridge.Request

/-!
# The in-memory engine

An engine without a network. Each accepted query takes the next scripted response of its connector,
and everything it reports is reported by a task on an io loop: the promotion of a query, the answer
to a pull, the end of a cluster. All clusters of a connector share its responses, its operations and
its streams.

A promotion looks whether its operation was cancelled and only then comes to its outcome; a pull
looks whether its stream was cancelled, then takes its row, and then gives it. Other threads can come
in between, and what they cancel then comes too late.

Whoever asks for something leaves a *reply*, a value that names the one to be told. When the engine
is done it hands the reply back in a `Completion`. A task that a stopped loop refuses is completed
on the spot, with an error that says that the cluster is closed.
-/

namespace HostBridge.Engine

/-- The scripted outcome of one query. -/
structure Response where
  /-- The rows of the stream. -/
  rows : List Row := []
  /-- How many milliseconds the promotion takes, if it does not come at once. -/
  delay : Option Nat := none
  /-- The error with which the promotion fails. -/
  error : Option EngineError := none
  /-- The metadata of the stream. -/
  metadata : Metadata := {}

/-- A query that was accepted. -/
structure Operation where
  /-- It was cancelled, on request or because a cluster was closed. -/
  cancelled : Bool := false
  /-- How often it was cancelled on request. -/
  cancels : Nat := 0

/-- What all clusters of a connector share. -/
structure Connector where
  /-- The responses still to be used. -/
  responses : List Response := []
  /-- The requests accepted so far. -/
  requests : List Request := []
  /-- The operations of these requests. -/
  operations : List Operation := []
  /-- The streams that were promoted, by number. -/
  streams : List Nat := []
  /-- How many times a cluster was closed. -/
  closes : Nat := 0

/-- How far the delay of a promotion has come. -/
inductive Timer where
  /-- The task has not run yet. -/
  | fresh
  /-- The task sleeps until its delay is over or its operation is cancelled. -/
  | armed
  /-- The delay is over. -/
  | elapsed
  deriving DecidableEq, Repr

/-- What the engine does on an io loop. The parameters are the replies of promotions, of pulls and
of closings. -/
inductive Task (π ρ κ : Type) where
  /-- Promotes a query with its response. -/
  | promote (connector operation : Nat) (response : Response) (timer : Timer) (reply : π)
  /-- Answers a pull. -/
  | pull (stream : Nat) (reply : ρ)
  /-- Reports that a cluster is closed. -/
  | close (reply : κ)
  /-- Holds the thread of the loop up. -/
  | park

/-- What the engine reports. -/
inductive Completion (π ρ κ : Type) where
  /-- A query was promoted, to a stream or with an error. -/
  | promoted (reply : π) (stream : Option Nat) (error : Option EngineError)
  /-- A pull was answered. -/
  | row (reply : ρ) (row : Row)
  /-- A cluster is closed. -/
  | closed (reply : κ)

/-- Loops, connectors and streams, by number. -/
structure State (π ρ κ : Type) where
  /-- The io loops with their threads. -/
  workers : List (Worker (Task π ρ κ)) := []
  /-- The connectors. -/
  connectors : List Connector := []
  /-- All streams. -/
  streams : List Stream := []

variable {π ρ κ : Type}

namespace Task

/-- What a task reports if it never gets to run. -/
def abandoned? : Task π ρ κ → Option (Completion π ρ κ)
  | promote _ _ _ _ reply => some (.promoted reply none (some .clusterClosed))
  | pull _ reply => some (.row reply (.failed .clusterClosed))
  | close reply => some (.closed reply)
  | park => none

/-- The task sleeps until the operation is cancelled, or until its delay is over. -/
def awaits (connector operation : Nat) : Task π ρ κ → Bool
  | promote c o _ .armed _ => c == connector && o == operation
  | _ => false

/-- The task after its delay is over. -/
def elapse : Task π ρ κ → Task π ρ κ
  | promote c o response .armed reply => promote c o response .elapsed reply
  | t => t

/-- The delay for which a task sleeps, and the operation for which it does. -/
def sleeping? : Task π ρ κ → Option (Nat × Nat)
  | promote _ operation response .armed _ => response.delay.map fun ms => (ms, operation)
  | _ => none

end Task

/-- The query had no response left. -/
def noResponse (statement : String) : EngineError :=
  ⟨.generic, "no response for query", .obj [("statement", .str statement)], none⟩

namespace State

/-! ## Parts -/

/-- The loop of a number, with its thread. -/
def worker (s : State π ρ κ) (i : Nat) : Worker (Task π ρ κ) :=
  s.workers.getD i {}

/-- Changes the loop of a number, with its thread. -/
def modifyWorker (s : State π ρ κ) (i : Nat) (f : Worker (Task π ρ κ) → Worker (Task π ρ κ)) :
    State π ρ κ :=
  { s with workers := s.workers.modify i f }

/-- The loop of a number. -/
def loop (s : State π ρ κ) (i : Nat) : Loop (Task π ρ κ) :=
  (s.worker i).loop

/-- Changes the loop of a number. -/
def modifyLoop (s : State π ρ κ) (i : Nat) (f : Loop (Task π ρ κ) → Loop (Task π ρ κ)) :
    State π ρ κ :=
  s.modifyWorker i fun w => { w with loop := f w.loop }

/-- The connector of a number. -/
def connector (s : State π ρ κ) (i : Nat) : Connector :=
  s.connectors.getD i {}

/-- Changes the connector of a number. -/
def modifyConnector (s : State π ρ κ) (i : Nat) (f : Connector → Connector) : State π ρ κ :=
  { s with connectors := s.connectors.modify i f }

/-- The stream of a number. -/
def stream? (s : State π ρ κ) (i : Nat) : Option Stream :=
  s.streams[i]?

/-- Changes the stream of a number. -/
def modifyStream (s : State π ρ κ) (i : Nat) (f : Stream → Stream) : State π ρ κ :=
  { s with streams := s.streams.modify i f }

/-- Adds a loop whose thread is held up. The result is its number. -/
def addLoop (s : State π ρ κ) : Nat × State π ρ κ :=
  (s.workers.length, { s with workers := s.workers ++ [.held] })

/-- Adds a connector. The result is its number. -/
def addConnector (s : State π ρ κ) : Nat × State π ρ κ :=
  (s.connectors.length, { s with connectors := s.connectors ++ [{}] })

/-- Adds a stream. The result is its number. -/
def addStream (s : State π ρ κ) (x : Stream) : Nat × State π ρ κ :=
  (s.streams.length, { s with streams := s.streams ++ [x] })

/-- The operation was cancelled. -/
def isCancelled (s : State π ρ κ) (connector operation : Nat) : Bool :=
  ((s.connector connector).operations[operation]?.map Operation.cancelled).getD false

/-- The stream was cancelled. -/
def isStreamCancelled (s : State π ρ κ) (stream : Nat) : Bool :=
  ((s.stream? stream).map Stream.cancelled).getD false

/-- The loop was asked to stop. -/
def isStopped (s : State π ρ κ) (i : Nat) : Bool :=
  (s.loop i).stopping

/-! ## Requests -/

/-- Hands a task to a loop. A refused task is completed on the spot. -/
def submit (s : State π ρ κ) (i : Nat) (t : Task π ρ κ) :
    Option (Completion π ρ κ) × State π ρ κ :=
  match (s.loop i).spawn t with
  | (true, l) => (none, s.modifyLoop i fun _ => l)
  | (false, _) => (t.abandoned?, s)

/-- Queues a response. -/
def respond (s : State π ρ κ) (connector : Nat) (r : Response) : State π ρ κ :=
  s.modifyConnector connector fun c => { c with responses := c.responses ++ [r] }

/-- Submits a query of a connector on a loop. It takes the next response; without one it is refused
and leaves no trace. The result is the number of the operation. -/
def execute (s : State π ρ κ) (connector i : Nat) (request : Request) (reply : π) :
    Except EngineError (Nat × Option (Completion π ρ κ) × State π ρ κ) :=
  match (s.connector connector).responses with
  | [] => .error (noResponse request.statement)
  | response :: responses =>
    let operation := (s.connector connector).operations.length
    let s := s.modifyConnector connector fun c =>
      { c with
        responses
        requests := c.requests ++ [request]
        operations := c.operations ++ [{}] }
    .ok (operation, s.submit i (.promote connector operation response .fresh reply))

/-- Asks a stream for its next row. -/
def pull (s : State π ρ κ) (stream : Nat) (reply : ρ) :
    Option (Completion π ρ κ) × State π ρ κ :=
  match s.stream? stream with
  | none => (some (.row reply (.failed .clusterClosed)), s)
  | some x => s.submit x.loop (.pull stream reply)

/-- Cancels a stream. -/
def cancelStream (s : State π ρ κ) (stream : Nat) : State π ρ κ :=
  s.modifyStream stream Stream.cancel

/-- Wakes the task that sleeps until an operation is cancelled. -/
def wake (s : State π ρ κ) (connector operation : Nat) : State π ρ κ :=
  { s with workers := s.workers.map fun w =>
      let sleepers := w.loop.tasks.keys.filter fun key =>
        (w.loop.tasks.get? key).any (Task.awaits connector operation)
      { w with loop := sleepers.foldl Loop.wake w.loop } }

/-- Marks an operation as cancelled and wakes its task. -/
def abandon (s : State π ρ κ) (connector operation : Nat) : State π ρ κ :=
  (s.modifyConnector connector fun c =>
    { c with operations := c.operations.modify operation fun o =>
        { o with cancelled := true } }).wake connector operation

/-- Cancels an operation on request. -/
def cancelOperation (s : State π ρ κ) (connector operation : Nat) : State π ρ κ :=
  (s.modifyConnector connector fun c =>
    { c with operations := c.operations.modify operation fun o =>
        { o with cancels := o.cancels + 1 } }).abandon connector operation

/-- Closes a cluster of a connector on a loop: every operation of the connector is given up, and a
task reports the end. -/
def close (s : State π ρ κ) (connector i : Nat) (reply : κ) :
    Option (Completion π ρ κ) × State π ρ κ :=
  let s := s.modifyConnector connector fun c => { c with closes := c.closes + 1 }
  let operations := List.range (s.connector connector).operations.length
  (operations.foldl (fun s o => s.abandon connector o) s).submit i (.close reply)

/-! ## Tasks -/

/-- The task in front of a loop is finished. -/
def finished (s : State π ρ κ) (i key : Nat) : State π ρ κ :=
  s.modifyWorker i fun w => { w.leave with loop := w.leave.loop.finish key }

/-- The task in front of a loop goes to sleep as the given one. -/
def slept (s : State π ρ κ) (i key : Nat) (t : Task π ρ κ) : State π ρ κ :=
  s.modifyWorker i fun w => { w.leave with loop := w.leave.loop.sleep key t }

/-- The task in front of a loop held the thread up. -/
def parked (s : State π ρ κ) (i key : Nat) : State π ρ κ :=
  s.modifyWorker i fun w => { w.leave with loop := w.leave.loop.finish key, parked := true }

/-- The task in front of a loop has looked whether it was cancelled, and stays there. -/
def checked (s : State π ρ κ) (i : Nat) (cancelled : Bool) : State π ρ κ :=
  s.modifyWorker i fun w => w.enter (.flag cancelled)

/-- The outcome of a query whose delay, if any, is over and whose task has looked whether it was
cancelled: cancellation wins over the scripted error, and the error over the rows. -/
def settle (s : State π ρ κ) (i connector : Nat) (response : Response) (cancelled : Bool) :
    Option Nat × Option EngineError × State π ρ κ :=
  if cancelled then (none, some .canceled, s)
  else
    match response.error with
    | some e => (none, some e, s)
    | none =>
      let (stream, s) := s.addStream (.ofRows i response.rows response.metadata)
      (some stream, none, s.modifyConnector connector fun c =>
        { c with streams := c.streams ++ [stream] })

/-- The task has to go to sleep before it can promote its query. -/
def mustSleep (s : State π ρ κ) (connector operation : Nat) (response : Response) (timer : Timer) :
    Bool :=
  !s.isCancelled connector operation &&
    match timer, response.delay with
    | .elapsed, _ => false
    | _, none => false
    | .fresh, some ms => ms != 0
    | .armed, some _ => true

/-- The answer of a stream to a pull that has looked whether the stream was cancelled. -/
def answer (s : State π ρ κ) (stream : Nat) (cancelled : Bool) : Row :=
  match s.stream? stream with
  | some x => (x.serve cancelled).1
  | none => .done

/-- The pull in front of a loop has taken its row from its stream. -/
def drawn (s : State π ρ κ) (i stream : Nat) (cancelled : Bool) : State π ρ κ :=
  (s.modifyStream stream fun x => (x.serve cancelled).2).modifyWorker i fun w =>
    { w with found := some (.row (s.answer stream cancelled)) }

/-- The task in front of a loop goes on. A task that does not go to sleep is finished in the end and
reports its completion. -/
def runTask (s : State π ρ κ) (i key : Nat) (t : Task π ρ κ) :
    Option (Completion π ρ κ) × State π ρ κ :=
  match t, (s.worker i).found with
  | .promote connector _ response _ reply, some (.flag cancelled) =>
    let (stream, error, s) := s.settle i connector response cancelled
    (some (.promoted reply stream error), s.finished i key)
  | .promote connector operation response timer reply, _ =>
    if s.mustSleep connector operation response timer then
      (none, s.slept i key (.promote connector operation response .armed reply))
    else (none, s.checked i (s.isCancelled connector operation))
  | .pull stream _, none => (none, s.checked i (s.isStreamCancelled stream))
  | .pull stream _, some (.flag cancelled) => (none, s.drawn i stream cancelled)
  | .pull _ reply, some (.row row) => (some (.row reply row), s.finished i key)
  | .close reply, _ => (some (.closed reply), s.finished i key)
  | .park, _ => (none, s.parked i key)

/-- Lets the task in front of a loop go on. -/
def tick (s : State π ρ κ) (i : Nat) : Option (Completion π ρ κ) × State π ρ κ :=
  match (s.loop i).front? with
  | none => (none, s)
  | some (_, none) => (none, s.modifyWorker i Worker.leave)
  | some (key, some t) => s.runTask i key t

/-- The thread of a loop does the next thing it has to do. -/
def turn (s : State π ρ κ) (i : Nat) : Option (Completion π ρ κ) × State π ρ κ :=
  if (s.worker i).mustLook then (none, s.modifyWorker i Worker.look) else s.tick i

/-- Asks a loop to stop. -/
def stop (s : State π ρ κ) (i : Nat) : State π ρ κ :=
  s.modifyLoop i Loop.stop

/-- Lets the thread of a loop go on. -/
def release (s : State π ρ κ) (i : Nat) : State π ρ κ :=
  s.modifyWorker i Worker.release

/-- Has the thread of a loop held up again when everything that is ready now has run. A stopped loop
cannot be held up. -/
def park (s : State π ρ κ) (i : Nat) : State π ρ κ :=
  (s.submit i .park).2

/-- The delay of a sleeping task is over. -/
def elapse (s : State π ρ κ) (i key : Nat) : State π ρ κ :=
  s.modifyLoop i fun l => { l with tasks := l.tasks.modify key Task.elapse }.wake key

/-- The delay and the key of the sleeping task of a loop whose delay is over first. Of several with
the same delay it is the one with the earliest operation. -/
def shortest? (s : State π ρ κ) (i : Nat) : Option (Nat × Nat) :=
  let l := s.loop i
  let sleepers := l.tasks.keys.filterMap fun key =>
    if key ∈ l.ready then none
    else ((l.tasks.get? key).bind Task.sleeping?).map fun (ms, operation) => (ms, operation, key)
  let first := sleepers.foldl (fun best x =>
    match best with
    | none => some x
    | some b =>
      if x.1 < b.1 ∨ (x.1 = b.1 ∧ x.2.1 < b.2.1) then some x else some b) none
  first.map fun (ms, _, key) => (ms, key)

end State

end HostBridge.Engine
