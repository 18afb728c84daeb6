import HostBridge.Registry
import HostBridge.Log

/-!
# The queue of an io loop

A loop keeps its unfinished tasks in numbered slots and runs them one at a time. A task is *ready*
if its key is in the queue and *asleep* otherwise. New and woken tasks go to the end of the queue.
Once the loop is asked to stop it refuses new tasks; those that it has accepted it still runs.

The thread of the loop does not take the ready tasks singly. It takes over a share of them, from the
front, into a queue of its own and serves that first, so that the order stays that of the queue. It
looks at the signals from outside only once in a batch of turns, or when nothing is ready. When it
stops serving, it hands back what it has taken over, and hands it back at the end of the queue: that
is the one moment at which tasks are overtaken by later ones.
-/

namespace HostBridge

/-- The tasks of an io loop. -/
structure Loop (τ : Type) where
  /-- The unfinished tasks. -/
  tasks : Registry τ := {}
  /-- The keys of the tasks that can run, the oldest in front. -/
  ready : List Nat := []
  /-- How many of these keys, from the front, the thread has taken over. -/
  taken : Nat := 0
  /-- The turns that the thread has given to tasks. -/
  turns : Nat := 0
  /-- The turns left before the thread looks at its signals again. -/
  left : Nat := 0
  /-- The loop was asked to stop. -/
  stopping : Bool := false

namespace Loop

variable {τ : Type}

/-- The number of turns between two looks at the signals, as long as tasks are ready. -/
def batch : Nat := 200

/-- The number of turns between two occasions on which the thread takes over more tasks. -/
def period : Nat := 64

/-- The number of tasks that the thread can have taken over at a time. -/
def capacity : Nat := 512

/-- Hands a task to the loop. The answer is whether it was accepted; if not, it is dropped. -/
def spawn (l : Loop τ) (t : τ) : Bool × Loop τ :=
  if l.stopping then (false, l)
  else
    let (key, tasks) := l.tasks.insert t
    (true, { l with tasks, ready := l.ready ++ [key] })

/-- What the log says about a task that was refused. -/
def refused (accepted : Bool) : List Log.Notice :=
  if accepted then [] else [.taskRejected]

/-- Asks the loop to stop. -/
def stop (l : Loop τ) : Loop τ :=
  { l with stopping := true }

/-- What the log says about a request to stop: only the first one counts. -/
def stopNotices (l : Loop τ) : List Log.Notice :=
  if l.stopping then [] else [.stopRequested]

/-! ## The thread -/

/-- The thread takes over half of what it has not taken over yet, rounded up, as far as it has room
for it. -/
def restock (l : Loop τ) : Loop τ :=
  let share := (l.ready.length - l.taken + 1) / 2
  { l with taken := l.taken + min share (capacity - l.taken) }

/-- The key in front leaves the queue. -/
def pop (l : Loop τ) : Loop τ :=
  { l with ready := l.ready.tail, taken := l.taken - 1 }

/-- The thread begins a turn with the key in front. It takes over more tasks if it had none, and now
and then in any case. -/
def beginTurn (l : Loop τ) : Loop τ :=
  let served := if l.taken = 0 then l.pop.restock else l.pop
  let served := { served with turns := l.turns + 1, left := l.left - 1 }
  if served.turns % period = 0 then served.restock else served

/-- The thread has to look at its signals before it goes on. -/
def mustLook (l : Loop τ) : Bool :=
  l.left = 0 || l.ready.isEmpty

/-- The thread has looked at its signals and goes on. -/
def renew (l : Loop τ) : Loop τ :=
  if l.left = 0 then { l with left := batch } else l

/-- The thread hands back what it has taken over. -/
def handBack (l : Loop τ) : Loop τ :=
  { l with ready := l.ready.drop l.taken ++ l.ready.take l.taken, taken := 0 }

/-- The key in front and its task, if a task is ready. -/
def front? (l : Loop τ) : Option (Nat × Option τ) :=
  l.ready.head?.map fun key => (key, l.tasks.get? key)

/-! ## Tasks -/

/-- The task of a key is finished. -/
def finish (l : Loop τ) (key : Nat) : Loop τ :=
  { l with tasks := (l.tasks.remove key).2 }

/-- The task of a key goes to sleep as the given one. -/
def sleep (l : Loop τ) (key : Nat) (t : τ) : Loop τ :=
  { l with tasks := l.tasks.modify key fun _ => t }

/-- The task of a key becomes ready, unless it is already. -/
def wake (l : Loop τ) (key : Nat) : Loop τ :=
  if key ∈ l.ready then l else { l with ready := l.ready ++ [key] }

/-- The unfinished tasks in the order in which they are dropped with the loop: the ready ones first,
in the order of the queue, then those asleep in the order of their keys. -/
def unfinished (l : Loop τ) : List τ :=
  let asleep := l.tasks.keys.filter fun key => key ∉ l.ready
  (l.ready ++ asleep).filterMap l.tasks.get?

end Loop

end HostBridge
