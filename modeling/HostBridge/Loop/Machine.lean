import HostBridge.Loop.Basic
import HostBridge.Loop.Script

/-!
# An io loop and its thread

A loop is created together with a *context*, from which it is started once, and a *handle*, through
which tasks reach it. Starting it makes a thread. The thread looks at two signals, the request to
stop first and a panic second, and runs ready tasks for a batch of turns before it looks again. A
request to stop lets it run whatever is ready and then end; a panic ends it at once. The request to
stop is also taken as given when nobody holds the loop any more.

Tasks that are unfinished when the thread and all holders are gone are dropped.
-/

namespace HostBridge.Loop

/-- Where the thread of a loop stands. -/
inductive Phase where
  /-- It was not started. -/
  | created
  /-- It runs tasks. -/
  | running (name : String)
  /-- It has seen the request to stop and runs what is left. -/
  | draining (name : String)
  /-- It ended after a request to stop. -/
  | stopped (name : String)
  /-- It ended because a task panicked. -/
  | aborted (name : String)
  deriving DecidableEq, Repr

/-- The name of the thread while it can run tasks. -/
def Phase.thread? : Phase → Option String
  | running name => some name
  | draining name => some name
  | _ => none

/-- A loop with its thread and its holders. -/
structure State where
  /-- The tasks. -/
  loop : Loop Task := {}
  /-- Where the thread stands. -/
  phase : Phase := .created
  /-- What tasks have thrown and the thread has not looked at, the oldest first. -/
  panics : List Payload := []
  /-- The context is held, so the loop can be started. -/
  hasContext : Bool := true
  /-- The handle is held. -/
  hasHandle : Bool := true
  /-- The thread can be joined. -/
  hasThread : Bool := false
  /-- Everything that happened, the newest in front. -/
  trace : List Occurrence := []

/-- Something done to a loop from outside. -/
inductive Action where
  /-- Hands it a task. -/
  | spawn (name : String) (acts : List Act)
  /-- Starts its thread. -/
  | start (name : String)
  /-- Gives up the context. -/
  | dropContext
  /-- Asks it to stop. -/
  | stop
  /-- Asks whether it was asked to stop. -/
  | isStopped
  /-- Waits for its thread to end. -/
  | join
  /-- Waits for its thread to fail and gives up the thread. -/
  | waitAbort
  /-- Gives up the handle. -/
  | dropHandle

/-- The answer to an action. -/
inductive Answer where
  /-- Nothing to say. -/
  | unit
  /-- A truth value. -/
  | flag (value : Bool)
  /-- The thread has ended. -/
  | joined
  /-- The thread has not ended, so waiting for it would take forever. -/
  | wouldBlock
  /-- There is no thread to wait for. -/
  | noThread
  /-- There is no context to start from. -/
  | noContext
  /-- There is no handle. -/
  | noHandle

namespace State

/-- Adds to the trace. -/
def record (s : State) (o : Occurrence) : State :=
  { s with trace := o :: s.trace }

/-- The request to stop has been made, or nobody is left who could make it. -/
def stopSignalled (s : State) : Bool :=
  s.loop.stopping || !(s.hasContext || s.hasHandle)

/-! ## Calls -/

/-- Adds notices to the log, if they are those of the host thread. -/
def log (s : State) (host : Bool) (ns : List Log.Notice) : State :=
  if host then ns.foldl (fun s n => s.record (.logged n)) s else s

/-- Somebody, on the host thread or not, asks the loop to stop. -/
def askStop (s : State) (host : Bool) : State :=
  ({ s with loop := s.loop.stop }.log host s.loop.stopNotices).record .stopAsked

/-- Somebody hands the loop a task. A task that is refused is dropped, in the given way, before the
call returns. -/
def handing (s : State) (host : Bool) (task : Task) (drop : State → State) : Bool × State :=
  let (accepted, loop) := s.loop.spawn task
  let s := { s with loop }.log host (refused accepted)
  let s := if accepted then s else drop (s.record (.dropped task.name))
  (accepted, s.record (.handed task accepted))

mutual

/-- The calls that are made by the drop of a task with these acts left. -/
def release (s : State) (host : Bool) : List Act → State
  | [] => s
  | a :: rest => (s.releaseAct host a).release host rest
termination_by structural as => as

/-- The calls that are made for an act that its task has not come to. -/
def releaseAct (s : State) (host : Bool) : Act → State
  | .reply fallback => s.callAll host fallback
  | _ => s
termination_by structural a => a

/-- Makes the calls that are listed. -/
def callAll (s : State) (host : Bool) : List Act → State
  | [] => s
  | a :: rest => (s.call host a).callAll host rest
termination_by structural as => as

/-- Makes a call of the loop. -/
def call (s : State) (host : Bool) : Act → State
  | .spawn name acts => (s.handing host ⟨name, acts⟩ fun s => s.release host acts).2
  | .stop => s.askStop host
  | _ => s
termination_by structural a => a

end

/-- Somebody hands the loop a task. The drop of a refused task may call the loop again. -/
def hand (s : State) (host : Bool) (task : Task) : Bool × State :=
  s.handing host task fun s => s.release host task.acts

/-! ## Running tasks -/

/-- How a turn of a task ends. -/
inductive Turn where
  /-- The task is finished. -/
  | finished
  /-- The task has given up its turn and has this left to do. -/
  | yielded (acts : List Act)
  /-- The task sleeps for good. -/
  | asleep (acts : List Act)
  /-- The task failed and is dropped with this left to do. -/
  | failed (payload : Payload) (acts : List Act)

/-- Carries out one act that does not end the turn. -/
def act (s : State) (task thread : String) : Act → State
  | .run => s.record (.ran task thread)
  | .stop => s.askStop false
  | .isStopped => s.record (.askedStopped task s.loop.stopping)
  | .spawn name acts =>
    let (accepted, s) := s.hand false ⟨name, acts⟩
    s.record (.spawned task accepted)
  | .selfJoin =>
    if s.hasThread then
      { s with hasThread := false }.record
        (.selfJoined task (.refused (.invalidArgument .selfJoin)))
    else s.record (.selfJoined task .noThread)
  | .yield | .pending | .panic _ | .reply _ => s

/-- Carries out acts until the turn ends. -/
def runActs (s : State) (task thread : String) : List Act → Turn × State
  | [] => (.finished, s)
  | .yield :: rest => (.yielded rest, s)
  | .pending :: rest => (.asleep rest, s)
  | .panic payload :: rest => (.failed payload rest, s)
  | a :: rest => runActs (s.act task thread a) task thread rest

/-- The turn of a task ends. -/
def conclude (s : State) (key : Nat) (name : String) : Turn → State
  | .finished => { s with loop := s.loop.finish key }.record (.finished name)
  | .yielded acts => { s with loop := (s.loop.sleep key ⟨name, acts⟩).wake key }
  | .asleep acts => { s with loop := s.loop.sleep key ⟨name, acts⟩ }
  | .failed payload acts =>
    let s := s.release false acts
    let s := { s with loop := s.loop.finish key, panics := s.panics ++ [payload] }
    (s.record (.panicked name payload)).record (.dropped name)

/-- Gives the task in front, whose key has left the queue, a turn. -/
def serve (s : State) (thread : String) (key : Nat) (task : Task) : State :=
  let (turn, s) := s.runActs task.name thread task.acts
  s.conclude key task.name turn

/-- The task in front gets a turn, after its key has left the queue in the given way. -/
def tick (s : State) (thread : String) (leave : Loop Task → Loop Task) : State :=
  match s.loop.front? with
  | none => s
  | some (_, none) => { s with loop := leave s.loop }
  | some (key, some task) => { s with loop := leave s.loop }.serve thread key task

/-- The running thread looks at its signals. If one of them ends its service, it hands back what it
has taken over. -/
def look (s : State) (thread : String) : State :=
  if s.stopSignalled then { s with phase := .draining thread, loop := s.loop.handBack }
  else
    match s.panics with
    | [] => { s with loop := s.loop.renew }
    | payload :: panics =>
      { s with phase := .aborted thread, panics, loop := s.loop.handBack }.record
        (.announced (.loopAborted thread payload.reason))

/-- The thread has nothing left to run after a request to stop. -/
def endThread (s : State) (thread : String) : State :=
  { s with phase := .stopped thread }.record (.announced (.loopStopped thread))

/-- Everyone who could run or hold a task is gone, so the unfinished ones are dropped. -/
def collect (s : State) : State :=
  if s.hasContext || s.hasHandle || s.phase.thread?.isSome then s
  else
    s.loop.unfinished.foldl (fun s t => s.record (.dropped t.name))
      { s with loop := { s.loop with tasks := {}, ready := [] } }

/-- One turn of the thread. -/
def turn (s : State) : State :=
  match s.phase with
  | .running name => if s.loop.mustLook then s.look name else s.tick name Loop.beginTurn
  | .draining name => if s.loop.ready.isEmpty then s.endThread name else s.tick name Loop.pop
  | _ => s

/-- The thread has nothing to do until something is done to it. -/
def isQuiet (s : State) : Bool :=
  match s.phase with
  | .running _ => s.loop.ready.isEmpty && !s.stopSignalled && s.panics.isEmpty
  | .draining _ => false
  | _ => true

/-- The turns that the state can still cause. Between two turns of tasks there is at most one look
at the signals. -/
def weight (s : State) : Nat :=
  2 * (effort s.loop.tasks.contents + s.loop.ready.length) + 6

/-- Takes up to so many turns, until the thread is quiet. -/
def drive : Nat → State → State
  | 0, s => s
  | n + 1, s => if s.isQuiet then s else drive n s.turn

/-- Takes turns until the thread is quiet. -/
def settle (s : State) : State :=
  (drive s.weight s).collect

/-! ## Actions -/

/-- What an action does before the thread gets to run. -/
def apply (s : State) : Action → Answer × State
  | .spawn name acts =>
    if s.hasHandle then
      let (accepted, s) := s.hand true ⟨name, acts⟩
      (.flag accepted, s)
    else (.noHandle, s)
  | .start name =>
    if s.hasContext then
      (.unit, { s with phase := .running name, hasContext := false, hasThread := true }.record
        (.announced (.loopStarted name)))
    else (.noContext, s)
  | .dropContext => (.flag s.hasContext, { s with hasContext := false })
  | .stop => if s.hasHandle then (.unit, s.askStop true) else (.noHandle, s)
  | .isStopped => if s.hasHandle then (.flag s.loop.stopping, s) else (.noHandle, s)
  | .join =>
    if !s.loop.stopping then (.wouldBlock, s)
    else if s.hasThread then (.joined, { s with hasThread := false })
    else (.noThread, s)
  | .waitAbort => (.unit, { s with hasThread := false })
  | .dropHandle => (.flag s.hasHandle, { s with hasHandle := false })

/-- Carries out an action and lets the thread run until it is quiet. -/
def perform (s : State) (a : Action) : Answer × State :=
  let (answer, s) := s.apply a
  (answer, s.settle)

/-- Asks a loop that still runs to stop, and lets it end. -/
def shutdown (s : State) : State :=
  match s.phase with
  | .running _ => (s.askStop false).settle
  | _ => s

/-- What happened between two states, the oldest first. -/
def happened (before after : State) : List Occurrence :=
  (after.trace.take (after.trace.length - before.trace.length)).reverse

end State

end HostBridge.Loop
