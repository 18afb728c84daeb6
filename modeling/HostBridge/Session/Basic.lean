import HostBridge.Bridge.Host
import HostBridge.Session.Executor
import HostBridge.Session.Manual
import HostBridge.Session.Result

/-!
# Sessions

A session is a host together with the connections, query results and executors that use it. Queries
go to the engine of their connection; what the engine reports on its loop comes back to the host as
a message for a registered callback. Nothing here runs by itself: a loop runs a task when it is told
to, and the host handles a message when it is told to, so that every order of events can be had.
-/

namespace HostBridge.Session

open Bridge (Cookie Entry Host Message)

/-- A callback of the host. -/
inductive Callback where
  /-- Is told the outcome of a promotion. An executor does not want to hear of cancellations. -/
  | promotion (name : String) (hidesCancel : Bool)
  /-- Is told a row. A row of an executor may complete it. -/
  | row (name : String) (executor : Option Nat)
  deriving DecidableEq, Repr

/-- The name of a callback. -/
def Callback.name : Callback → String
  | promotion name _ => name
  | row name _ => name

/-- What a callback is told. -/
inductive Work where
  /-- The outcome of a promotion. -/
  | promoted (error : Option Error)
  /-- An answer of a stream. -/
  | row (row : Row)
  /-- Why there is no answer of a stream. -/
  | failed (error : Error)

/-- Who is told of a promotion: a query result, if it is still there, and then a callback. -/
structure Promotion where
  /-- The query result, by number. -/
  result : Nat
  /-- The cookie of the callback. -/
  cookie : Cookie

/-- Something that happened. A callback that was registered goes by the number of its
registration. -/
inductive Occurrence where
  /-- The host thread wrote to the log. -/
  | logged (notice : Log.Notice)
  /-- A callback was told the outcome of a promotion. -/
  | promoted (ticket : Nat) (name : String) (error : Option Error)
  /-- A callback was told a row. -/
  | row (ticket : Nat) (name : String) (content : Option String) (error : Option Error)
  /-- A callback was dropped untold. -/
  | dropped (ticket : Option Nat) (name : String)

/-- A completion of the engine, as this library asks for it. -/
abbrev Completion := Engine.Completion Promotion Cookie Nat

/-- Where something takes place. Only what takes place on the host thread goes into its log. -/
abbrev Place := Engine.Place

/-- Everything that belongs to a session, by number. -/
structure State where
  /-- The host. -/
  host : Host Callback Work := {}
  /-- The program still holds the host. -/
  held : Bool := true
  /-- The in-memory connectors, the loops and the streams. -/
  engine : Engine.State Promotion Cookie Nat := {}
  /-- The hand-driven connectors. -/
  manuals : List (Manual Promotion) := []
  /-- The instances behind the connections. -/
  instances : List Instance := []
  /-- The query results. -/
  results : List QueryResult := []
  /-- The executors. -/
  executors : List Executor := []
  /-- Why the operating system starts no thread for a reaper, if it does not. -/
  reaperFault : Option String := none
  /-- Everything that happened, the newest in front. -/
  trace : List Occurrence := []

/-- The label of callbacks that wait for a promotion. -/
def queryLabel : String := "cbQuery"

/-- The label of callbacks that wait for a row. -/
def rowLabel : String := "cbQueryNextRow"

namespace State

/-! ## Parts -/

/-- Adds to the trace. -/
def record (s : State) (o : Occurrence) : State :=
  { s with trace := o :: s.trace }

/-- Adds notices to the log of the host thread. -/
def note (s : State) (place : Place) (ns : List Log.Notice) : State :=
  match place with
  | .host => ns.foldl (fun s n => s.record (.logged n)) s
  | .loop => s

/-- Changes an instance. -/
def modifyInstance (s : State) (i : Nat) (f : Instance → Instance) : State :=
  { s with instances := s.instances.modify i f }

/-- Changes a query result. -/
def modifyResult (s : State) (r : Nat) (f : QueryResult → QueryResult) : State :=
  { s with results := s.results.modify r f }

/-- Changes an executor. -/
def modifyExecutor (s : State) (e : Nat) (f : Executor → Executor) : State :=
  { s with executors := s.executors.modify e f }

/-- Changes a hand-driven connector. -/
def modifyManual (s : State) (m : Nat) (f : Manual Promotion → Manual Promotion) : State :=
  { s with manuals := s.manuals.modify m f }

/-- The target of a query result that the host still holds. -/
def target? (s : State) (r : Nat) : Option Target :=
  match s.results[r]? with
  | some q => if q.alive then some q.target else none
  | none => none

/-- Adds a query result. The result is its number. -/
def addResult (s : State) (target : Target) : Nat × State :=
  (s.results.length, { s with results := s.results ++ [{ target }] })

/-- The host lets go of a query result. -/
def dropResult (s : State) (r : Nat) : State :=
  s.modifyResult r fun q => { q with alive := false }

/-! ## The bridge -/

/-- Registers a callback on the host thread. A closed host drops it at once. -/
def register (s : State) (label : String) (callback : Callback) : Cookie × State :=
  let (cookie, host) := s.host.register label callback
  let s := { s with host }.note .host [cookie.registered]
  (cookie, if cookie.isArmed then s else s.record (.dropped (some cookie.ticket) callback.name))

/-- Uses up a cookie to tell its callback something. -/
def invoke (s : State) (place : Place) (cookie : Cookie) (work : Work) : State :=
  let (queued, host) := s.host.invoke cookie work
  let s := { s with host }
  if queued then s else s.note place cookie.refused

/-- Drops a cookie. -/
def release (s : State) (cookie : Cookie) : State :=
  { s with host := s.host.release cookie }

/-- A callback is told a row. The end of the rows completes an executor. -/
def tellRow (s : State) (label : String) (e : Entry Callback)
    (answer : Option String × Option Error) : State :=
  match e.callback with
  | .row name executor =>
    let s := match executor, answer with
      | some x, (none, none) => s.modifyExecutor x fun x => { x with state := .complete }
      | _, _ => s
    s.record (.row e.ticket name answer.1 answer.2)
  | .promotion name _ =>
    (s.note .host [.callbackMismatched label]).record (.dropped (some e.ticket) name)

/-- A callback is told something. -/
def tell (s : State) (label : String) (e : Entry Callback) : Work → State
  | .promoted error =>
    match e.callback with
    | .promotion name hidesCancel =>
      let error := if hidesCancel then error.filter fun e => !e.isCanceled else error
      s.record (.promoted e.ticket name error)
    | .row name _ =>
      (s.note .host [.callbackMismatched label]).record (.dropped (some e.ticket) name)
  | .row row => s.tellRow label e row.marshal
  | .failed error => s.tellRow label e (none, some error)

/-- The host handles the oldest message. The answer is whether a callback was told something; there
is none without a message. -/
def dispatch (s : State) : Option Bool × State :=
  match s.host.receive with
  | none => (none, s)
  | some (m, host) =>
    let (fate, host) := host.dispatch m
    let s := { s with host }.note .host [fate.notice]
    match fate with
    | .run label entry work => (some true, s.tell label entry work)
    | .released _ (some entry) =>
      (some false, s.record (.dropped (some entry.ticket) entry.callback.name))
    | _ => (some false, s)

/-- The host handles so many messages. The answer is how many callbacks were told something. -/
def dispatches : Nat → State → Nat × State
  | 0, s => (0, s)
  | n + 1, s =>
    let (told, s) := s.dispatch
    let (count, s) := dispatches n s
    (if told = some true then count + 1 else count, s)

/-- The host handles every message. No callback of a session queues a further one. -/
def poll (s : State) : Nat × State :=
  s.dispatches s.host.queue.length

/-- Tears the host down. Its callbacks are dropped untold. -/
def teardown (s : State) : State :=
  match s.host.teardown with
  | (none, _) => s
  | (some (messages, entries), host) =>
    let s := { s with host }.note .host [.hostTornDown messages.length entries.length]
    entries.foldl (fun s e => s.record (.dropped (some e.ticket) e.callback.name)) s

/-! ## Completions of the engine -/

/-- A query was promoted. Its result, if it is still there, gets the stream before the callback is
told. -/
def promote (s : State) (place : Place) (p : Promotion) (stream : Option Nat)
    (error : Option EngineError) : State :=
  match s.target? p.result with
  | none => (s.note place [.promotionIgnored]).release p.cookie
  | some _ =>
    let s := match stream with
      | some i => s.modifyResult p.result fun q => { q with target := q.target.setStream i }
      | none => s
    s.invoke place p.cookie (.promoted (error.map Error.engine))

/-- A cluster is closed: the loop is stopped and a reaper takes over, if there can be one. -/
def clusterClosed (s : State) (place : Place) (i : Nat) : State :=
  match s.instances[i]? with
  | none => s
  | some x =>
    match x.transit? .closingNetwork .joiningThread with
    | none => s.note place [.closeUnexpected x.state]
    | some y =>
      let s := s.modifyInstance i fun _ => y
      let notices := (s.engine.loop x.loop).stopNotices
      let s := { s with engine := s.engine.stop x.loop }.note place notices
      match s.reaperFault with
      | none => s.modifyInstance i fun y => { y with reaper := .started }
      | some reason =>
        (s.modifyInstance i Instance.detach).note place [.reaperRefused reason, .instanceDestroyed]

/-- Passes on what the engine reports. -/
def complete (s : State) (place : Place) : Completion → State
  | .promoted p stream error => s.promote place p stream error
  | .row cookie row => s.invoke place cookie (.row row)
  | .closed i => s.clusterClosed place i

/-- Takes over the engine after a request from the host thread. A task that the loop refused is
completed there. -/
def took (s : State) (outcome : Option Completion × Engine.State Promotion Cookie Nat) : State :=
  let s := { s with engine := outcome.2 }
  match outcome.1 with
  | none => s
  | some c => (s.note .host [.taskRejected]).complete .host c

/-- The thread of a loop does the next thing it has to do. -/
def turn (s : State) (loop : Nat) : State :=
  let (c, engine) := s.engine.turn loop
  let s := { s with engine }
  match c with
  | none => s
  | some c => s.complete .loop c

/-- The thread of a loop does up to so many things, until it is held up or has nothing to do. -/
def drive (loop : Nat) : Nat → State → State
  | 0, s => s
  | n + 1, s => if (s.engine.worker loop).isQuiet then s else drive loop n (s.turn loop)

/-- Lets a loop run until its thread is held up or has nothing to do. -/
def run (s : State) (loop : Nat) : State :=
  drive loop (s.engine.worker loop).weight s

/-- Lets the thread of a loop go on. -/
def resume (s : State) (loop : Nat) : State :=
  { s with engine := s.engine.release loop }.run loop

/-- Lets a loop run everything that is ready now, after which its thread is held up again. -/
def pump (s : State) (loop : Nat) : State :=
  { s with engine := s.engine.park loop }.resume loop

/-- A loop can be pumped: its thread is held up, and it was not asked to stop. -/
def canPump (s : State) (loop : Nat) : Bool :=
  (s.engine.worker loop).parked && !s.engine.isStopped loop

end State

end HostBridge.Session
