import HostBridge.Loop.Basic
import HostBridge.Row

/-!
# A thread that can be held up

The thread of an io loop, as far as it concerns tasks that do not fail. It serves ready tasks until
it sees the request to stop, then runs what is left and ends. A task may hold the thread up: it is
*parked* then, and nothing else runs until somebody lets it go on.

A task may take several turns, between which other threads do what they like. It stays in front of
the queue until it leaves the thread, and the thread keeps what the task has found out meanwhile.
-/

namespace HostBridge

/-- How far a thread has come. -/
inductive Stage where
  /-- It serves tasks. -/
  | serving
  /-- It has seen the request to stop and runs what is left. -/
  | draining
  /-- It has ended. -/
  | ended
  deriving DecidableEq, Repr

/-- What a task has found out that the thread is in the middle of. -/
inductive Finding where
  /-- It has looked whether it was cancelled, for the last time. -/
  | flag (cancelled : Bool)
  /-- It has a row to give. -/
  | row (row : Row)

/-- A loop with its thread. -/
structure Worker (τ : Type) where
  /-- The loop. -/
  loop : Loop τ := {}
  /-- How far the thread has come. -/
  stage : Stage := .serving
  /-- A task holds the thread up. -/
  parked : Bool := false
  /-- What the task in front has found out, if the thread is in the middle of it. -/
  found : Option Finding := none

namespace Worker

variable {τ : Type}

/-- A thread that its first task holds up. -/
def held : Worker τ :=
  { loop := { turns := 1, left := Loop.batch - 1 }, parked := true }

/-- The thread has something else to do than to run a task. -/
def mustLook (w : Worker τ) : Bool :=
  match w.stage with
  | .serving => if w.found.isSome then w.loop.ready.isEmpty else w.loop.mustLook
  | .draining => w.loop.ready.isEmpty
  | .ended => true

/-- The thread looks at its signals. At the request to stop it hands back what it has taken over;
with nothing left to run after that it ends. -/
def look (w : Worker τ) : Worker τ :=
  match w.stage with
  | .serving =>
    if w.loop.stopping then { w with stage := .draining, loop := w.loop.handBack }
    else { w with loop := w.loop.renew }
  | .draining => if w.loop.ready.isEmpty then { w with stage := .ended } else w
  | .ended => w

/-- The key in front leaves the queue. If the thread is in the middle of its task, the turn has begun
before. -/
def leave (w : Worker τ) : Worker τ :=
  match w.found, w.stage with
  | some _, _ => { w with loop := { w.loop with ready := w.loop.ready.tail }, found := none }
  | none, .serving => { w with loop := w.loop.beginTurn }
  | none, _ => { w with loop := w.loop.pop }

/-- The thread has begun the turn of the task in front, which has found something out and stays
there. -/
def enter (w : Worker τ) (x : Finding) : Worker τ :=
  { w.leave with loop := { w.leave.loop with ready := w.loop.ready }, found := some x }

/-- The thread does nothing until something is done to it. -/
def isQuiet (w : Worker τ) : Bool :=
  w.parked ||
    match w.stage with
    | .serving => w.loop.ready.isEmpty && !w.loop.stopping
    | .draining => false
    | .ended => true

/-- The turns and looks that the tasks which are ready can cause. -/
def weight (w : Worker τ) : Nat :=
  4 * w.loop.ready.length + 6

/-- Lets the thread go on. -/
def release (w : Worker τ) : Worker τ :=
  { w with parked := false }

end Worker

end HostBridge
