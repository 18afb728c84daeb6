import HostBridge.Keyed

/-!
# Cancellation

A cancellation *group* is shared by any number of handles. A future selected with one of them ends
as soon as the group is cancelled, whatever its own work does. The model keeps what the parties
really share: a flag for each group, and for each future the listener that it registered with the
group when it was selected, together with a bit in which it remembers that it was cancelled.

* Selecting a future registers its listener first and looks at the flag afterwards.
* Cancelling sets the flag and notifies every listener of the group that is registered at that time.
A notified listener wakes the task that polled it last.
* Polling a future looks at its own bit, then at its listener, then at its own work.
* Dropping a future whose notification was not consumed hands the notification on to the first
listener of the group that has none, unless another unconsumed one is still around.
-/

namespace HostBridge.Cancellation

/-- The state of a listener. -/
inductive Listener where
  /-- It waits for a notification; `polled` says whether there is a task to wake. -/
  | waiting (polled : Bool)
  /-- It was notified, and nobody has looked since. -/
  | notified
  /-- Its notification was consumed. -/
  | spent
  deriving DecidableEq, Repr

/-- A future under a cancellation group. -/
structure Future (α : Type) where
  /-- The group it was selected with. -/
  group : Nat
  /-- Its registration with the group. -/
  listener : Listener
  /-- It has been found cancelled. -/
  cancelled : Bool
  /-- The value of its own work, once that is done. -/
  value : Option α
  /-- How often its task was woken. -/
  wakes : Nat

/-- What a poll of a future says. -/
inductive Poll (α : Type) where
  /-- Nothing yet. -/
  | pending
  /-- The group was cancelled. -/
  | cancelled
  /-- The work is done. -/
  | ready (value : α)
  deriving DecidableEq, Repr

/-- Handles, groups and futures at one moment. -/
structure State (α : Type) where
  /-- The flag of each group, by number. -/
  groups : List Bool := []
  /-- The group of each handle. -/
  handles : Keyed Nat := []
  /-- The futures in the order in which they were selected. -/
  futures : List (String × Future α) := []

/-- Something done with handles and futures. -/
inductive Action (α : Type) where
  /-- A handle of a new group. -/
  | create (handle : String)
  /-- Another handle of the group of the first. -/
  | clone (source handle : String)
  /-- Drops a handle. -/
  | dropHandle (handle : String)
  /-- Cancels the group of a handle. -/
  | cancel (handle : String)
  /-- Asks whether the group of a handle is cancelled. -/
  | cancelled (handle : String)
  /-- Selects a future, whose work may be done from the start. -/
  | select (handle future : String) (value : Option α)
  /-- The work of a future is done. -/
  | complete (future : String) (value : α)
  /-- Polls a future. -/
  | poll (future : String)
  /-- Drops a future. -/
  | dropFuture (future : String)

/-- The outcome of an action. -/
inductive Outcome (α : Type) where
  /-- Nothing to say. -/
  | unit
  /-- An answer to a question. -/
  | flag (value : Bool)
  /-- What a poll said. -/
  | polled (result : Poll α)
  /-- There is no such handle. -/
  | noHandle
  /-- There is no such future. -/
  | noFuture

variable {α : Type}

namespace Listener

/-- A notification reaches a waiting listener. -/
def notify : Listener → Listener
  | waiting _ => notified
  | l => l

/-- The notification of this listener wakes a task. -/
def wakesTask : Listener → Bool
  | waiting polled => polled
  | _ => false

/-- The listener waits. -/
def isWaiting : Listener → Bool
  | waiting _ => true
  | _ => false

end Listener

namespace Future

/-- The future after a notification of its listener. -/
def notify (f : Future α) : Future α :=
  { f with
    listener := f.listener.notify
    wakes := if f.listener.wakesTask then f.wakes + 1 else f.wakes }

/-- What a poll says, and the future after it. -/
def poll (f : Future α) : Poll α × Future α :=
  if f.cancelled then (.cancelled, f)
  else
    match f.listener with
    | .notified => (.cancelled, { f with cancelled := true, listener := .spent })
    | .spent => (.cancelled, { f with cancelled := true })
    | .waiting _ =>
      let f := { f with listener := .waiting true }
      match f.value with
      | some v => (.ready v, f)
      | none => (.pending, f)

end Future

namespace State

/-- The flag of a group. -/
def isCancelled (s : State α) (group : Nat) : Bool :=
  s.groups.getD group false

/-- The future of a name. -/
def future? (s : State α) (name : String) : Option (Future α) :=
  s.futures.lookup name

/-- Replaces the future of a name. -/
def setFuture (s : State α) (name : String) (f : Future α) : State α :=
  { s with futures := s.futures.map fun (n, g) => if n = name then (n, f) else (n, g) }

/-- Notifies every waiting listener of a group. -/
def notifyAll (group : Nat) (futures : List (String × Future α)) : List (String × Future α) :=
  futures.map fun (n, f) => if f.group = group then (n, f.notify) else (n, f)

/-- Notifies the first waiting listener of a group. -/
def notifyFirst (group : Nat) : List (String × Future α) → List (String × Future α)
  | [] => []
  | (n, f) :: rest =>
    if f.group = group ∧ f.listener.isWaiting then (n, f.notify) :: rest
    else (n, f) :: notifyFirst group rest

/-- Some listener of the group holds an unconsumed notification. -/
def hasNotified (group : Nat) (futures : List (String × Future α)) : Bool :=
  futures.any fun (_, f) => f.group == group && f.listener == .notified

/-- Gives the notification of a dropped future away. -/
def handOn (dropped : Future α) (futures : List (String × Future α)) :
    List (String × Future α) :=
  if dropped.listener = .notified ∧ ¬ hasNotified dropped.group futures then
    notifyFirst dropped.group futures
  else futures

/-- The futures without the first one of a name, whose notification is handed on. -/
def dropFuture (name : String) (futures : List (String × Future α)) : List (String × Future α) :=
  match futures.lookup name with
  | none => futures
  | some f => handOn f (futures.eraseP fun (n, _) => n == name)

/-- Cancels a group. The answer is whether it was not cancelled before. -/
def cancelGroup (s : State α) (group : Nat) : Bool × State α :=
  if s.isCancelled group then (false, s)
  else
    (true, { s with
      groups := s.groups.set group true
      futures := notifyAll group s.futures })

/-- Registers a listener with a group and then looks at the group's flag. -/
def selectFuture (s : State α) (group : Nat) (value : Option α) : Future α :=
  { group, listener := .waiting false, cancelled := s.isCancelled group, value, wakes := 0 }

/-- Carries out an action. -/
def perform (s : State α) : Action α → Outcome α × State α
  | .create handle =>
    (.unit, { s with
      groups := s.groups ++ [false]
      handles := s.handles.insert handle s.groups.length })
  | .clone source handle =>
    match s.handles.find? source with
    | none => (.noHandle, s)
    | some g => (.unit, { s with handles := s.handles.insert handle g })
  | .dropHandle handle =>
    (.flag (s.handles.find? handle).isSome, { s with handles := s.handles.erase handle })
  | .cancel handle =>
    match s.handles.find? handle with
    | none => (.noHandle, s)
    | some g =>
      let (first, s) := s.cancelGroup g
      (.flag first, s)
  | .cancelled handle =>
    match s.handles.find? handle with
    | none => (.noHandle, s)
    | some g => (.flag (s.isCancelled g), s)
  | .select handle name value =>
    match s.handles.find? handle with
    | none => (.noHandle, s)
    | some g =>
      let futures := s.futures ++ [(name, s.selectFuture g value)]
      let futures := if (s.future? name).isSome then dropFuture name futures else futures
      (.unit, { s with futures })
  | .complete name value =>
    match s.future? name with
    | none => (.noFuture, s)
    | some f => (.unit, s.setFuture name { f with value := some value })
  | .poll name =>
    match s.future? name with
    | none => (.noFuture, s)
    | some f =>
      let (result, f) := f.poll
      (.polled result, s.setFuture name f)
  | .dropFuture name =>
    (.flag (s.future? name).isSome, { s with futures := dropFuture name s.futures })

/-- How often the task of each live future was woken. -/
def wakes (s : State α) : List (String × Nat) :=
  s.futures.map fun (n, f) => (n, f.wakes)

/-- Carries out actions one after the other. -/
def run (s : State α) : List (Action α) → State α
  | [] => s
  | a :: rest => run (s.perform a).2 rest

end State

end HostBridge.Cancellation
