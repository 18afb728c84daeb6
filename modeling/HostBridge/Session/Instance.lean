import HostBridge.Lifecycle

/-!
# Instances

An instance owns an io loop, the thread of that loop, and the handles of an engine. Its shutdown is
asynchronous: the host asks the cluster to close; the report of the cluster stops the loop and
starts a *reaper*; the reaper waits for the thread and releases what is left, piece by piece. If no
reaper can be started, everything is released at once and the thread is left to end by itself.
-/

namespace HostBridge.Session

/-- A connector by number. -/
inductive ConnectorRef where
  /-- An in-memory connector. -/
  | memory (connector : Nat)
  /-- A hand-driven connector. -/
  | manual (connector : Nat)
  deriving DecidableEq, Repr

/-- How far the reaper has come. -/
inductive Reaper where
  /-- There is none yet. -/
  | absent
  /-- It was started. -/
  | started
  /-- It has taken the thread and waits for it. -/
  | joining
  /-- It has released the engine. -/
  | released
  /-- It has marked the instance as destroyed. -/
  | marked
  /-- It has given the signal and is gone. -/
  | done
  deriving DecidableEq, Repr

/-- A connection to a cluster, with everything it owns. -/
structure Instance where
  /-- The connector it was created from. -/
  connector : ConnectorRef
  /-- Its io loop, by number. -/
  loop : Nat
  /-- Where it stands in its life. -/
  state : Lifecycle := .running
  /-- It holds the handles of its engine. -/
  hasEngine : Bool := true
  /-- It holds the thread of its loop. -/
  hasThread : Bool := true
  /-- The signal of its end has not been given. -/
  signalOpen : Bool := true
  /-- How far the reaper has come. -/
  reaper : Reaper := .absent
  deriving DecidableEq, Repr

namespace Instance

/-- Moves from one state to another, if it is in the first. -/
def transit? (i : Instance) (source target : Lifecycle) : Option Instance :=
  if i.state = source then some { i with state := target } else none

/-- The reaper takes its next step, of which the wait for the thread needs the thread to have
ended. -/
def reap (i : Instance) (threadEnded : Bool) : Instance :=
  match i.reaper with
  | .started => { i with hasThread := false, reaper := .joining }
  | .joining => if threadEnded then { i with hasEngine := false, reaper := .released } else i
  | .released => { i with state := .destroyed, reaper := .marked }
  | .marked => { i with signalOpen := false, reaper := .done }
  | .absent | .done => i

/-- There is no reaper: the thread of the loop is left alone and everything else is released. -/
def detach (i : Instance) : Instance :=
  { i with hasThread := false, hasEngine := false, state := .destroyed, signalOpen := false }

/-- Nobody refers to the instance any more. Whatever it holds is let go, which also gives the signal
of its end. -/
def discard (i : Instance) : Instance :=
  { i with hasEngine := false, hasThread := false, signalOpen := false }

end Instance

end HostBridge.Session
