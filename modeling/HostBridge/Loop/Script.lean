import HostBridge.Log

/-!
# Tasks that act

A task of an io loop as data: a list of acts that it carries out in order when it is run. An act may
give up the turn, ask the loop to stop, hand it a further task, or fail. A task may carry replies; if
it is dropped before it has given them, the drop itself calls the loop in their stead.
-/

namespace HostBridge.Loop

/-- What a panicking task throws. -/
inductive Payload where
  /-- A text. -/
  | text (value : String)
  /-- Anything else. -/
  | other
  deriving DecidableEq, Repr

/-- The reason that the log gives for a payload. -/
def Payload.reason : Payload → String
  | text value => value
  | other => "unknown panic"

/-- Something a task does. -/
inductive Act where
  /-- Makes itself seen. -/
  | run
  /-- Goes to the end of the queue. -/
  | yield
  /-- Asks the loop to stop. -/
  | stop
  /-- Asks whether the loop was asked to stop. -/
  | isStopped
  /-- Hands the loop a further task. -/
  | spawn (name : String) (acts : List Act)
  /-- Waits for the end of the loop that runs it, which is refused. -/
  | selfJoin
  /-- Goes to sleep for good. -/
  | pending
  /-- Fails. -/
  | panic (payload : Payload)
  /-- Gives a reply that the task has carried so far. If the task is dropped before that, the drop
  makes the calls of the loop that are listed here, and nothing else that is. -/
  | reply (fallback : List Act)
  deriving Inhabited

/-- A task with a name. -/
structure Task where
  /-- The name of the task. -/
  name : String
  /-- What is left for it to do. -/
  acts : List Act

mutual

/-- The turns and pieces of work that an act can cause. -/
def Act.weight : Act → Nat
  | .spawn _ acts => 3 + actsWeight acts
  | .reply fallback => 1 + actsWeight fallback
  | _ => 1
termination_by structural a => a

/-- The turns and pieces of work that a list of acts can cause. -/
def actsWeight : List Act → Nat
  | [] => 0
  | a :: rest => a.weight + actsWeight rest
termination_by structural as => as

end

/-- The turns and pieces of work that a task can cause. -/
def Task.weight (t : Task) : Nat :=
  1 + actsWeight t.acts

/-- The turns and pieces of work that tasks can cause. -/
def effort (ts : List Task) : Nat :=
  ts.foldr (fun t n => t.weight + n) 0

/-- How the wait of a task for its own loop ended. -/
inductive SelfJoin where
  /-- Waiting for oneself is refused. -/
  | refused (error : Error)
  /-- The thread was given away before. -/
  | noThread

/-- Something that happened. -/
inductive Occurrence where
  /-- The host thread wrote to the log. -/
  | logged (notice : Log.Notice)
  /-- The loop's thread reported its own start or end. -/
  | announced (notice : Log.Notice)
  /-- A task made itself seen on the named thread. -/
  | ran (task thread : String)
  /-- A task asked whether the loop was asked to stop. -/
  | askedStopped (task : String) (answer : Bool)
  /-- A task handed the loop a further task. -/
  | spawned (task : String) (accepted : Bool)
  /-- A task waited for its own loop. -/
  | selfJoined (task : String) (result : SelfJoin)
  /-- A task ended without finishing. -/
  | dropped (task : String)
  /-- A task finished. -/
  | finished (task : String)
  /-- A task failed. -/
  | panicked (task : String) (payload : Payload)
  /-- A call that handed the loop a task has returned. -/
  | handed (task : Task) (accepted : Bool)
  /-- Somebody asked the loop to stop. -/
  | stopAsked

end HostBridge.Loop
