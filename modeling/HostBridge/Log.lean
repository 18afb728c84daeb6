import HostBridge.Error
import HostBridge.Lifecycle

/-!
# The log

What the library reports while it works, each notice as a value of its own. Level and wording of a
notice are functions of it, so a statement about the log is a statement about these values.
-/

namespace HostBridge.Log

/-- How serious a notice is. -/
inductive Level where
  /-- Something failed. -/
  | error
  /-- Something is odd. -/
  | warn
  /-- Something happened. -/
  | info
  /-- Something happened that only matters when looking for a fault. -/
  | debug
  /-- Every single step. -/
  | trace
  deriving DecidableEq, Repr

/-- The name of a level. -/
def Level.name : Level → String
  | error => "ERROR"
  | warn => "WARN"
  | info => "INFO"
  | debug => "DEBUG"
  | trace => "TRACE"

/-- The least serious level that is shown, by the name a user gives it; none for no log at all. -/
def threshold (s : String) : Option Level :=
  if s = "trace" then some .trace
  else if s = "debug" then some .debug
  else if s = "info" then some .info
  else if s = "warn" then some .warn
  else if s = "err" ∨ s = "critical" then some .error
  else none

/-- Something worth reporting. -/
inductive Notice where
  /-- A callback was put into a slot. -/
  | callbackRegistered (label : String) (key : Nat)
  /-- The host is closed, so a callback was not registered. -/
  | callbackRefused (label : String)
  /-- The host is closed, so an invocation was not queued. -/
  | invocationRefused (label : String)
  /-- A call left the queue after the teardown. -/
  | lateCallDropped (label : String)
  /-- A callback is about to run. -/
  | callbackInvoked (label : String)
  /-- A call found no callback in its slot. -/
  | callbackMissing (label : String) (key : Nat)
  /-- A call found a callback of another kind in its slot. -/
  | callbackMismatched (label : String)
  /-- A callback leaves its slot without having run. -/
  | callbackReleased (label : String)
  /-- The host was torn down. -/
  | hostTornDown (messages callbacks : Nat)
  /-- A stopped loop refused a task. -/
  | taskRejected
  /-- A loop was asked to stop. -/
  | stopRequested
  /-- A loop began to run. -/
  | loopStarted (name : String)
  /-- A loop ended after a stop. -/
  | loopStopped (name : String)
  /-- A loop ended because a task panicked. -/
  | loopAborted (name : String) (reason : String)
  /-- An in-memory cluster was connected. -/
  | clusterConnected (connection : String)
  /-- An in-memory cluster was closed. -/
  | clusterClosed
  /-- A query goes to the engine. -/
  | querySubmitted (statement : String)
  /-- A query was promoted whose result nobody holds. -/
  | promotionIgnored
  /-- The operation of a query was known after its promotion. -/
  | operationIgnored
  /-- An instance was created. -/
  | instanceStarted (connection threadName : String)
  /-- A shutdown was requested of an instance that is not running. -/
  | destroyRefused (state : Lifecycle)
  /-- A cluster reported its end in the wrong state. -/
  | closeUnexpected (state : Lifecycle)
  /-- No thread could be had to wait for that of a loop. -/
  | reaperRefused (reason : String)
  /-- An instance is gone. -/
  | instanceDestroyed
  /-- There is a logger already. -/
  | loggerInstalled
  deriving DecidableEq, Repr

namespace Notice

/-- How serious the notice is. -/
def level : Notice → Level
  | callbackRegistered .. | callbackRefused _ | invocationRefused _ | lateCallDropped _
  | callbackInvoked _ | callbackReleased _ => .trace
  | callbackMissing .. => .warn
  | callbackMismatched _ | loopAborted .. | destroyRefused _ | closeUnexpected _
  | reaperRefused _ => .error
  | _ => .debug

/-- The wording of the notice. -/
def text : Notice → String
  | callbackRegistered label key => s!"register host callback {label} with key {key}"
  | callbackRefused label => s!"host closed, drop callback {label}"
  | invocationRefused label => s!"host closed, drop invocation of {label}"
  | lateCallDropped label => s!"drop {label} after host teardown"
  | callbackInvoked label => s!"invoke host callback {label}"
  | callbackMissing label key => s!"host callback {label} with key {key} not found"
  | callbackMismatched label => s!"host callback {label} has unexpected type"
  | callbackReleased label => s!"release host callback {label} without invocation"
  | hostTornDown messages callbacks =>
    s!"host teardown, dropped {messages} queued work and {callbacks} callbacks"
  | taskRejected => "io loop stopped, task rejected"
  | stopRequested => "io loop stop requested"
  | loopStarted name => s!"io loop {name} started"
  | loopStopped name => s!"io loop {name} stopped"
  | loopAborted name reason => s!"io loop {name} aborted: {reason}"
  | clusterConnected connection => s!"connect in-memory cluster {connection}"
  | clusterClosed => "in-memory cluster closed"
  | querySubmitted statement => s!"submit query: {statement}"
  | promotionIgnored => "query result dropped before promotion"
  | operationIgnored => "ignore pending operation of promoted query result"
  | instanceStarted connection threadName =>
    s!"instance of {connection} started io thread {threadName}"
  | destroyRefused state => "destroy requested on instance in state " ++ state.name
  | closeUnexpected state => "unexpected close completion in state " ++ state.name
  | reaperRefused reason => s!"failed to spawn reaper thread, detach io thread: {reason}"
  | instanceDestroyed => "instance destroyed"
  | loggerInstalled => "logger already installed"

/-- The line of the log for a notice. -/
def line (n : Notice) : String :=
  n.level.name ++ " " ++ n.text

end Notice

/-- What the environment variable asks for: bytes that are no text ask for nothing. -/
def thresholdOfBytes (value : Option ByteArray) : Option Level :=
  match value with
  | none => none
  | some bytes =>
    match decodeUtf8 bytes with
    | .ok s => threshold s
    | .error _ => none

/-- Installs the logger once more: where a level is asked for, the notice that one is there. -/
def reinstall (value : Option ByteArray) : Option Level × List Notice :=
  match thresholdOfBytes value with
  | none => (none, [])
  | some level => (some level, [.loggerInstalled])

end HostBridge.Log
