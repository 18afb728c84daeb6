import HostBridge.Session.Basic

/-!
# Connections

A connection is created from a connector: its options are checked, its engine is connected and its
loop is started. While its instance is running it takes queries. It can be asked once to shut down;
the shutdown itself goes on in the background.
-/

namespace HostBridge.Session.State

/-- How the creation of a connection ended. -/
inductive Creation where
  /-- There is a new instance of this number. -/
  | created (instanceNumber : Nat)
  /-- It was refused. -/
  | refused (error : Error)
  /-- The name of the thread cannot be passed to the operating system. -/
  | badThreadName

/-- Connects the engine of a new instance. -/
def connect (s : State) (c : ConnectorRef) (o : Options) : Except Error Unit × State :=
  match c with
  | .memory _ =>
    match o.validate with
    | .error e => (.error e, s)
    | .ok () => (.ok (), s.note .host [.clusterConnected o.connection])
  | .manual m =>
    match s.manuals[m]?.bind Manual.connectError with
    | some e => (.error e, s.modifyManual m fun x => { x with connectError := none })
    | none => (.ok (), s)

/-- Creates a connection: the options are checked, the engine is connected, the thread is started.
-/
def create (s : State) (c : ConnectorRef) (o : Options) : Creation × State :=
  match o.validate with
  | .error e => (.refused e, s)
  | .ok () =>
    match s.connect c o with
    | (.error e, s) => (.refused e, s)
    | (.ok (), s) =>
      if o.threadName.toList.contains '\x00' then (.badThreadName, s)
      else
        let s := s.note .host [.instanceStarted o.connection o.threadName]
        let (loop, engine) := s.engine.addLoop
        (.created s.instances.length,
          { s with engine, instances := s.instances ++ [{ connector := c, loop }] })

/-- Whether an instance takes queries. -/
def agent (x : Instance) : Except Error Unit :=
  match x.state with
  | .running => if x.hasEngine then .ok () else .error .instanceDestroyed
  | .destroyed => .error .instanceDestroyed
  | _ => .error .instanceClosing

/-- A hand-driven connector promotes a query, to a stream on a loop if rows are given. -/
def promoteManual (s : State) (m loop : Nat) (p : Promotion) (rows : Option (List Row))
    (metadata : Metadata) (error : Option EngineError) : State :=
  match rows with
  | none => s.promote .host p none error
  | some rows =>
    let (stream, engine) := s.engine.addStream (.ofRows loop rows metadata)
    let s := { s with engine }.modifyManual m fun x => { x with streams := x.streams ++ [stream] }
    s.promote .host p (some stream) error

/-- Hands a query to a hand-driven connector. -/
def executeManual (s : State) (m loop : Nat) (request : Request) (p : Promotion) :
    Except EngineError Operation × State :=
  match s.manuals[m]? with
  | none => (.ok (.manual m 0), s.release p.cookie)
  | some x =>
    match x.react request with
    | (.reject e, x) => (.error e, (s.modifyManual m fun _ => x).release p.cookie)
    | (reaction, x) =>
      let (operation, x) := x.addOperation
      let s := s.modifyManual m fun _ => x
      (.ok (.manual m operation),
        match reaction with
        | .promote rows metadata error => s.promoteManual m loop p rows metadata error
        | .hold key =>
          let previous := x.held.find? key
          let s := s.modifyManual m fun x => { x with held := x.held.insert key p }
          previous.toList.foldl (fun s q => s.release q.cookie) s
        | _ => s.release p.cookie)

/-- Hands a query to the engine of an instance. A query that the engine refuses lets go of its
cookie. -/
def execute (s : State) (x : Instance) (request : Request) (p : Promotion) :
    Except EngineError Operation × State :=
  match x.connector with
  | .memory c =>
    match s.engine.execute c x.loop request p with
    | .error e => (.error e, s.release p.cookie)
    | .ok (operation, outcome) => (.ok (.memory c operation), s.took outcome)
  | .manual m => s.executeManual m x.loop request p

/-- Hands a query on an instance over to its engine. The answer is the number of its result and the
operation of the engine; a query that is refused leaves no result. -/
def submit (s : State) (i : Nat) (request : Request) (callback : Callback) :
    Except Error (Nat × Operation) × State :=
  match s.instances[i]? with
  | none => (.error .instanceDestroyed, s.record (.dropped none callback.name))
  | some x =>
    match agent x with
    | .error e => (.error e, s.record (.dropped none callback.name))
    | .ok () =>
      let (r, s) := s.addResult .empty
      let (cookie, s) := s.register queryLabel callback
      let s := s.note .host [.querySubmitted request.statement]
      match s.execute x request ⟨r, cookie⟩ with
      | (.error e, s) => (.error (.engine e), s.dropResult r)
      | (.ok operation, s) => (.ok (r, operation), s)

/-- A query result learns of the operation of its query. The loop may have promoted the query by
then. -/
def attach (s : State) (r : Nat) (operation : Operation) : State :=
  let notices := ((s.target? r).map Target.operationNotices).getD []
  let s := s.note .host notices
  s.modifyResult r fun q => { q with target := q.target.setOperation operation }

/-- Submits a query on an instance. The number of its result is the answer. -/
def query (s : State) (i : Nat) (request : Request) (callback : Callback) :
    Except Error Nat × State :=
  match s.submit i request callback with
  | (.error e, s) => (.error e, s)
  | (.ok (r, operation), s) => (.ok r, s.attach r operation)

/-- Asks the cluster of an instance to close. -/
def close (s : State) (i : Nat) (x : Instance) : State :=
  match x.connector with
  | .memory c => s.took (s.engine.close c x.loop i)
  | .manual m =>
    s.modifyManual m fun y => { y with closes := y.closes + 1, closings := i :: y.closings }

/-- Asks an instance to shut down, which can be done once. -/
def destroy (s : State) (i : Nat) : Except Error Unit × State :=
  match s.instances[i]? with
  | none => (.error .instanceDestroyed, s)
  | some x =>
    match x.transit? .running .closingNetwork with
    | none => (.error .destroyInProgress, s.note .host [.destroyRefused x.state])
    | some y =>
      let s := s.modifyInstance i fun _ => y
      if y.hasEngine then (.ok (), s.close i y) else (.error .instanceDestroyed, s)

/-- The host lets go of a connection, which shuts down an instance that is still running. -/
def dropConnection (s : State) (i : Nat) : State :=
  match s.instances[i]? with
  | none => s
  | some x => if x.state = .running then (s.destroy i).2 else s

/-- The thread of a loop has ended. -/
def threadEnded (s : State) (loop : Nat) : Bool :=
  (s.engine.worker loop).stage = .ended

/-- The reaper of an instance, if there is one, takes its next step. -/
def reap (s : State) (i : Nat) : State :=
  match s.instances[i]? with
  | none => s
  | some x => s.modifyInstance i fun y => y.reap (s.threadEnded x.loop)

/-- Whatever goes on by itself goes on: the loop of an instance runs unless its thread is held up,
and the reaper takes the steps that it can take, of which there are four at most. -/
def settle (s : State) (i : Nat) : State :=
  match s.instances[i]? with
  | none => s
  | some x => ((((s.run x.loop).reap i).reap i).reap i).reap i

/-- Lets the loop of an instance run for good. -/
def finish (s : State) (i : Nat) : State :=
  match s.instances[i]? with
  | none => s
  | some x => (s.resume x.loop).settle i

/-! ## What nobody refers to -/

/-- Somebody besides the host refers to an instance. A shutdown refers to it until the reaper is
done, unless a hand-driven connector has dropped the closing. -/
def isReferenced (s : State) (i : Nat) : Bool :=
  match s.instances[i]? with
  | none => false
  | some x =>
    match x.state, x.connector with
    | .destroyed, _ => false
    | .closingNetwork, .manual m => (s.manuals[m]?).any fun y => y.closings.contains i
    | _, _ => true

/-- The engine of some instance refers to a hand-driven connector. -/
def usesManual (s : State) (m : Nat) : Bool :=
  s.instances.any fun x => x.hasEngine && x.connector == .manual m

/-- A hand-driven connector is gone. The queries that it keeps are dropped. -/
def discardManual (s : State) (m : Nat) : State :=
  let cookies := ((s.manuals[m]?).map fun x => x.held.map fun (_, p) => p.cookie).getD []
  (cookies.foldl release s).modifyManual m fun x => { x with held := [] }

/-- The instance has given the signal of its end. -/
def isGone (s : State) (i : Nat) : Bool :=
  match s.instances[i]? with
  | none => true
  | some x => !x.signalOpen

end HostBridge.Session.State
