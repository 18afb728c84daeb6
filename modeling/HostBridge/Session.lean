import HostBridge.Session.Consumption
import HostBridge.Session.Waiting

/-!
# A session by names

Connectors, connections, query results and executors go by names that the program chooses. A name
can be used again: what had it before is let go, after the new thing has taken its place. The loop
of a connection is parked, which means that it runs only when it is pumped, until the connection is
waited for.
-/

namespace HostBridge

namespace Session

/-- What a name of a connection stands for. -/
structure Slot where
  /-- The instance, by number. -/
  instanceNumber : Nat
  /-- The program still holds the connection. -/
  held : Bool := true
  deriving DecidableEq, Repr

/-- Something done in a session. -/
inductive Action where
  /-- Makes a connector. -/
  | connector (name : String) (isManual : Bool)
  /-- Creates a connection. -/
  | create (connector connection : String) (options : Options)
  /-- Tells a connector what to do with a further query: an in-memory connector takes the response,
  a hand-driven one the reaction. -/
  | respond (connector : String) (response : Engine.Response) (reaction : Reaction)
  /-- Makes the next connection of a hand-driven connector fail. -/
  | failConnection (connector : String) (error : Error)
  /-- Promotes a query that a hand-driven connector keeps. -/
  | promote (connector connection key : String) (rows : Option (List Row)) (metadata : Metadata)
      (error : Option EngineError)
  /-- Drops a query that a hand-driven connector keeps. -/
  | dropHeld (connector connection key : String)
  /-- Reports the latest closing that a hand-driven connector keeps. -/
  | reportClosing (connector : String)
  /-- Drops the latest closing that a hand-driven connector keeps. -/
  | dropClosing (connector : String)
  /-- Looks at a connector. -/
  | inspect (connector : String)
  /-- Submits a query. -/
  | query (result connection : String) (request : Request) (callback : String)
  /-- Makes an empty query result. -/
  | emptyResult (result : String)
  /-- Makes a query result with a stream. -/
  | streamResult (result connection : String) (rows : List Row) (metadata : Metadata)
  /-- Asks for the next row. -/
  | next (result callback : String)
  /-- Asks for the next row, pumps every loop and polls. -/
  | pull (result callback : String)
  /-- Cancels a query result. -/
  | cancel (result : String)
  /-- Asks for the metadata of a query result. -/
  | metadata (result : String)
  /-- Drops a query result. -/
  | dropResult (result : String)
  /-- Makes an executor. -/
  | executor (name : String)
  /-- Submits the query of an executor. -/
  | executorQuery (executor connection : String) (request : Request) (callback : String)
  /-- Asks an executor for the next row. -/
  | executorNext (executor callback : String)
  /-- Asks an executor for the next row, pumps every loop and polls. -/
  | executorPull (executor callback : String)
  /-- Cancels the query of an executor. -/
  | executorAbort (executor : String)
  /-- Asks for the metadata of an executor's query. -/
  | executorMetadata (executor : String)
  /-- Drops an executor. -/
  | dropExecutor (executor : String)
  /-- Lets a loop run everything that is ready. -/
  | pump (connection : String)
  /-- Lets the host handle every message. -/
  | poll
  /-- Waits until something happens to a callback while a loop runs, if one is given. -/
  | wait (callback : String) (connection : Option String) (timeout : Nat)
  /-- Asks a connection to shut down. -/
  | destroy (connection : String)
  /-- Drops a connection. -/
  | dropConnection (connection : String)
  /-- Lets the loop of a connection run for good and waits for the end. -/
  | waitDestroyed (connection : String)
  /-- Asks whether the instance of a connection is gone. -/
  | signal (connection : String)
  /-- Tears the host down. -/
  | teardown
  /-- Drops the host. -/
  | dropHost

/-- The answer to an action. -/
inductive Answer where
  /-- Nothing to say. -/
  | unit
  /-- A truth value. -/
  | flag (value : Bool)
  /-- How many callbacks were told something. -/
  | count (value : Nat)
  /-- Whether something succeeded. -/
  | done (result : Except Error Unit)
  /-- Whether a row could be asked for, and how many callbacks were then told something, if there is
  a host. -/
  | counted (result : Except Error (Option Nat))
  /-- The metadata of a query result. -/
  | metadata (value : Option Json)
  /-- The metadata of an executor's query. -/
  | executorMetadata (result : Except Error Metadata)
  /-- Whether an instance is gone. -/
  | destroyed (value : Bool)
  /-- What can be seen of a connector. -/
  | inspected (value : Engine.Inspection)
  /-- The name of a thread holds a character that the operating system does not take. -/
  | badThreadName
  /-- There is no connector of that name. -/
  | noConnector
  /-- There is no hand-driven connector of that name. -/
  | noManual
  /-- There is no connection of that name. -/
  | noConnection
  /-- There is no query result of that name. -/
  | noResult
  /-- There is no executor of that name. -/
  | noExecutor
  /-- A hand-driven connector keeps nothing of the kind. -/
  | nothingHeld
  /-- The host was dropped. -/
  | noHost

end Session

/-- A session with the names of its parts. At the start there is one in-memory connector. -/
structure Session where
  /-- The parts, by number. -/
  state : Session.State := { engine := { connectors := [{}] } }
  /-- The connectors by name. -/
  connectors : Keyed Session.ConnectorRef := [("m", .memory 0)]
  /-- The connections by name. -/
  connections : Keyed Session.Slot := []
  /-- The query results by name. -/
  results : Keyed Nat := []
  /-- The executors by name. -/
  executors : Keyed Nat := []

namespace Session

/-! ## Names -/

/-- Takes over the parts. -/
def having (d : Session) (state : State) : Session :=
  { d with state }

/-- The number of a hand-driven connector. -/
def manual? (d : Session) (name : String) : Option Nat :=
  match d.connectors.find? name with
  | some (.manual m) => some m
  | _ => none

/-- The instance of a connection that the program still holds. -/
def heldInstance? (d : Session) (connection : String) : Option Nat :=
  (d.connections.find? connection).bind fun slot =>
    if slot.held then some slot.instanceNumber else none

/-- The loop of a connection, held or not. -/
def loop? (d : Session) (connection : String) : Option Nat :=
  ((d.connections.find? connection).bind fun slot => d.state.instances[slot.instanceNumber]?).map
    Instance.loop

/-- Gives a name to a query result. -/
def nameResult (d : Session) (name : String) (r : Nat) : Session :=
  let previous := d.results.find? name
  let d := { d with results := d.results.insert name r }
  match previous with
  | some old => d.having (d.state.dropResult old)
  | none => d

/-- Gives a name to a connection. -/
def nameConnection (d : Session) (name : String) (instanceNumber : Nat) : Session :=
  let previous := d.heldInstance? name
  let d := { d with connections := d.connections.insert name { instanceNumber } }
  match previous with
  | some old => d.having (d.state.dropConnection old)
  | none => d

/-- Gives a name to an executor. -/
def nameExecutor (d : Session) (name : String) (e : Nat) : Session :=
  let previous := d.executors.find? name
  let d := { d with executors := d.executors.insert name e }
  match previous with
  | some old => d.having (d.state.dropExecutor old)
  | none => d

/-! ## Connectors -/

/-- Makes a connector. -/
def addConnector (d : Session) (name : String) (isManual : Bool) : Session :=
  if isManual then
    let m := d.state.manuals.length
    { d with
      state := { d.state with manuals := d.state.manuals ++ [{}] }
      connectors := d.connectors.insert name (.manual m) }
  else
    let (c, engine) := d.state.engine.addConnector
    { d with
      state := { d.state with engine }
      connectors := d.connectors.insert name (.memory c) }

/-- Tells a connector what to do with a further query. -/
def respond (d : Session) (name : String) (response : Engine.Response) (reaction : Reaction) :
    Answer × Session :=
  match d.connectors.find? name with
  | none => (.noConnector, d)
  | some (.memory c) =>
    (.unit, d.having { d.state with engine := d.state.engine.respond c response })
  | some (.manual m) =>
    (.unit, d.having (d.state.modifyManual m fun x =>
      { x with reactions := x.reactions ++ [reaction] }))

/-- Takes a query out of those that a hand-driven connector keeps and settles it with the loop of a
connection. Without the connection the query is lost. -/
def settleHeld (d : Session) (connector connection key : String)
    (settle : State → Nat → Nat → Promotion → State) : Answer × Session :=
  match d.manual? connector with
  | none => (.noManual, d)
  | some m =>
    let held := (d.state.manuals[m]?).bind fun x => x.held.find? key
    let state := d.state.modifyManual m fun x => { x with held := x.held.erase key }
    match d.loop? connection, held with
    | some loop, some p => (.unit, d.having (settle state m loop p))
    | some _, none => (.nothingHeld, d)
    | none, some p => (.noConnection, d.having (state.release p.cookie))
    | none, none => (.noConnection, d)

/-- Takes the latest closing out of those that a hand-driven connector keeps. -/
def takeClosing (d : Session) (name : String) : Except Answer (Nat × Session) :=
  match d.manual? name with
  | none => .error .noManual
  | some m =>
    match (d.state.manuals[m]?).map Manual.closings with
    | some (i :: closings) =>
      .ok (i, d.having (d.state.modifyManual m fun x => { x with closings }))
    | _ => .error .nothingHeld

/-- Looks at a connector. -/
def inspect (d : Session) (name : String) : Answer :=
  match d.connectors.find? name with
  | none => .noConnector
  | some (.memory c) => .inspected (d.state.engine.inspect c)
  | some (.manual m) =>
    match d.state.manuals[m]? with
    | none => .noConnector
    | some x =>
      .inspected
        { closes := x.closes
          operationCancels := x.operations
          requests := x.requests
          streamCancels := x.streams.map fun i =>
            ((d.state.engine.stream? i).map Engine.Stream.cancels).getD 0 }

/-! ## Loops and the host -/

/-- Lets the loop of a connection run everything that is ready. The answer is whether it could. -/
def pumpSlot (d : Session) (slot : Slot) : Bool × Session :=
  match d.state.instances[slot.instanceNumber]? with
  | none => (false, d)
  | some x =>
    if d.state.canPump x.loop then (true, d.having (d.state.pump x.loop)) else (false, d)

/-- Pumps the loop of every connection, in the order of the names. -/
def pumpAll (d : Session) : Session :=
  d.connections.foldl (fun d c => (d.pumpSlot c.2).2) d

/-- Lets the host handle every message. There is no answer without a host. -/
def poll (d : Session) : Option Nat × Session :=
  if d.state.held then
    let (n, state) := d.state.poll
    (some n, d.having state)
  else (none, d)

/-- Lets everything that was asked for arrive: every loop runs, then the host handles every
message. -/
def deliver (d : Session) : Option Nat × Session :=
  d.pumpAll.poll

/-- The answer to a poll. -/
def Answer.ofCount? : Option Nat → Answer
  | some n => .count n
  | none => .noHost

/-- The callback of something that could not be asked for is dropped. -/
def dropping (d : Session) (callback : String) (answer : Answer) : Answer × Session :=
  (answer, d.having (d.state.record (.dropped none callback)))

/-- A connection that the program does not hold any more leaves its instance behind, which is gone
once nobody else refers to it. -/
def collectSlot (s : State) (slot : Slot) : State :=
  let i := slot.instanceNumber
  if slot.held || s.isReferenced i then s else s.modifyInstance i Instance.discard

/-- A hand-driven connector is gone once neither a name nor an engine refers to it. -/
def collectManual (names : Keyed ConnectorRef) (s : State) (m : Nat) : State :=
  if (names.any fun c => c.2 == .manual m) || s.usesManual m then s else s.discardManual m

/-- Whatever goes on by itself goes on: every loop that is not held up runs, every reaper does its
work, and what nobody refers to is let go. -/
def settle (d : Session) : Session :=
  let state := d.connections.foldl (fun s c => s.settle c.2.instanceNumber) d.state
  let state := d.connections.foldl (fun s c => collectSlot s c.2) state
  d.having ((List.range state.manuals.length).foldl (collectManual d.connectors) state)

/-! ## Actions -/

/-- What an action does by itself. -/
def act (d : Session) : Action → Answer × Session
  | .connector name isManual => (.unit, d.addConnector name isManual)
  | .create connector connection options =>
    match d.connectors.find? connector with
    | none => (.noConnector, d)
    | some c =>
      match d.state.create c options with
      | (.created i, state) => (.done (.ok ()), (d.having state).nameConnection connection i)
      | (.refused e, state) => (.done (.error e), d.having state)
      | (.badThreadName, state) => (.badThreadName, d.having state)
  | .respond connector response reaction => d.respond connector response reaction
  | .failConnection connector error =>
    match d.manual? connector with
    | none => (.noManual, d)
    | some m =>
      (.unit, d.having (d.state.modifyManual m fun x => { x with connectError := some error }))
  | .promote connector connection key rows metadata error =>
    d.settleHeld connector connection key fun s m loop p =>
      s.promoteManual m loop p rows metadata error
  | .dropHeld connector connection key =>
    d.settleHeld connector connection key fun s _ _ p => s.release p.cookie
  | .reportClosing connector =>
    match d.takeClosing connector with
    | .error a => (a, d)
    | .ok (i, d) => (.unit, d.having (d.state.clusterClosed .host i))
  | .dropClosing connector =>
    match d.takeClosing connector with
    | .error a => (a, d)
    | .ok (_, d) => (.unit, d)
  | .inspect connector => (d.inspect connector, d)
  | .query result connection request callback =>
    match d.heldInstance? connection with
    | none => d.dropping callback .noConnection
    | some i =>
      match d.state.query i request (.promotion callback false) with
      | (.error e, state) => (.done (.error e), d.having state)
      | (.ok r, state) => (.done (.ok ()), (d.having state).nameResult result r)
  | .emptyResult result =>
    let (r, state) := d.state.addResult .empty
    (.unit, (d.having state).nameResult result r)
  | .streamResult result connection rows metadata =>
    match d.loop? connection with
    | none => (.noConnection, d)
    | some loop =>
      let (stream, engine) := d.state.engine.addStream (.ofRows loop rows metadata)
      let (r, state) := { d.state with engine }.addResult (.active stream)
      (.unit, (d.having state).nameResult result r)
  | .next result callback =>
    match d.results.find? result with
    | none => (.noResult, d)
    | some r => (.unit, d.having (d.state.nextRow r (.row callback none)))
  | .pull result callback =>
    match d.results.find? result with
    | none => (.noResult, d)
    | some r =>
      let (n, d) := (d.having (d.state.nextRow r (.row callback none))).deliver
      (.ofCount? n, d)
  | .cancel result =>
    match d.results.find? result with
    | none => (.noResult, d)
    | some r =>
      let (b, state) := d.state.cancel r
      (.flag b, d.having state)
  | .metadata result =>
    match d.results.find? result with
    | none => (.noResult, d)
    | some r => (.metadata (d.state.metadata r), d)
  | .dropResult result =>
    match d.results.find? result with
    | none => (.flag false, d)
    | some r =>
      (.flag true, { d with
        results := d.results.erase result
        state := d.state.dropResult r })
  | .executor name =>
    let e := d.state.executors.length
    let state := { d.state with executors := d.state.executors ++ [{}] }
    (.unit, (d.having state).nameExecutor name e)
  | .executorQuery executor connection request callback =>
    match d.executors.find? executor with
    | none => d.dropping callback .noExecutor
    | some e =>
      match d.heldInstance? connection with
      | none => d.dropping callback .noConnection
      | some i =>
        let (r, state) := d.state.executorQuery e i request callback
        (.done r, d.having state)
  | .executorNext executor callback =>
    match d.executors.find? executor with
    | none => (.noExecutor, d)
    | some e =>
      let (r, state) := d.state.executorNext e callback
      (.done r, d.having state)
  | .executorPull executor callback =>
    match d.executors.find? executor with
    | none => (.noExecutor, d)
    | some e =>
      let (r, state) := d.state.executorNext e callback
      let (n, d) := (d.having state).deliver
      (.counted (r.map fun () => n), d)
  | .executorAbort executor =>
    match d.executors.find? executor with
    | none => (.noExecutor, d)
    | some e =>
      let (b, state) := d.state.executorAbort e
      (.flag b, d.having state)
  | .executorMetadata executor =>
    match d.executors.find? executor with
    | none => (.noExecutor, d)
    | some e => (.executorMetadata (d.state.executorMetadata e), d)
  | .dropExecutor executor =>
    match d.executors.find? executor with
    | none => (.flag false, d)
    | some e =>
      (.flag true, { d with
        executors := d.executors.erase executor
        state := d.state.dropExecutor e })
  | .pump connection =>
    match d.connections.find? connection with
    | none => (.noConnection, d)
    | some slot =>
      let (b, d) := d.pumpSlot slot
      (.flag b, d)
  | .poll =>
    let (n, d) := d.poll
    (.ofCount? n, d)
  | .wait callback connection timeout =>
    match connection.map d.loop? with
    | some none => (.noConnection, d)
    | loop =>
      match d.state.wait callback (loop.bind id) timeout with
      | (some r, state) => (.done r, d.having state)
      | (none, state) => (.noHost, d.having state)
  | .destroy connection =>
    match d.heldInstance? connection with
    | none => (.noConnection, d)
    | some i =>
      let (r, state) := d.state.destroy i
      (.done r, d.having state)
  | .dropConnection connection =>
    match d.heldInstance? connection with
    | none => (.flag false, d)
    | some i =>
      (.flag true, { d with
        connections := d.connections.modify connection fun slot => { slot with held := false }
        state := d.state.dropConnection i })
  | .waitDestroyed connection =>
    match d.connections.find? connection with
    | none => (.noConnection, d)
    | some slot =>
      let state := d.state.finish slot.instanceNumber
      (.destroyed (state.isGone slot.instanceNumber), d.having state)
  | .signal connection =>
    match d.connections.find? connection with
    | none => (.noConnection, d)
    | some slot => (.destroyed (d.state.isGone slot.instanceNumber), d)
  | .teardown => if d.state.held then (.unit, d.having d.state.teardown) else (.noHost, d)
  | .dropHost => (.flag d.state.held, d.having { d.state.teardown with held := false })

/-- Carries out an action, and lets go on what goes on by itself. -/
def perform (d : Session) (a : Action) : Answer × Session :=
  let (answer, d) := d.act a
  (answer, d.settle)

/-- The state of every connection that the program still holds. -/
def lifecycles (d : Session) : List (String × Lifecycle) :=
  d.connections.filterMap fun (name, slot) =>
    if slot.held then
      (d.state.instances[slot.instanceNumber]?).map fun x => (name, x.state)
    else none

/-- How far each executor has come. -/
def progress (d : Session) : List (String × Streaming) :=
  d.executors.filterMap fun (name, e) =>
    (d.state.executors[e]?).map fun x => (name, x.state)

/-- What happened between two sessions, the oldest first. -/
def happened (before after : Session) : List Occurrence :=
  State.happened before.state after.state

end Session

end HostBridge
