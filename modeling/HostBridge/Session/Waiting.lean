import HostBridge.Session.Basic

/-!
# Waiting for a callback

The host can wait until a callback was told something or was dropped. Meanwhile it handles messages,
and a loop may run. When neither has anything to do, time passes: the shortest delay on the loop is
over first. A wait fails if the host is closed, or if nothing is left that could happen in time.
-/

namespace HostBridge.Session

/-- The name of the callback that something happened to. -/
def Occurrence.name? : Occurrence → Option String
  | logged _ => none
  | promoted _ name _ => some name
  | row _ name _ _ => some name
  | dropped _ name => some name

namespace State

/-- What happened between two states, the oldest first. -/
def happened (before after : State) : List Occurrence :=
  (after.trace.take (after.trace.length - before.trace.length)).reverse

/-- Something happened to a callback of this name between two states. -/
def settled (name : String) (before after : State) : Bool :=
  (happened before after).any fun o => o.name? == some name

/-- The host handles messages, at most so many, until a condition holds. -/
def dispatchUntil (done : State → Bool) : Nat → State → State
  | 0, s => s
  | n + 1, s => if done s then s else dispatchUntil done n s.dispatch.2

/-- A loop, if one is given, goes on. -/
def resumeIf (s : State) : Option Nat → State
  | none => s
  | some loop => s.resume loop

/-- The thread of a loop, if one is given, is held up again, unless the loop was asked to stop. -/
def parkIf (s : State) : Option Nat → State
  | none => s
  | some loop => { s with engine := s.engine.park loop }.run loop

/-- Waits in rounds, each of which ends with the end of a delay. A round leaves the loop with one
sleeping task less, so that the number of its tasks bounds the number of rounds. -/
def waitRounds (done : State → Bool) (loop : Option Nat) (timeout : Nat) :
    Nat → State → Except Error Unit × State
  | 0, s => (.error (.system .timedOut), s)
  | n + 1, s =>
    let s := s.resumeIf loop
    if s.host.closed then (.error .hostClosed, s)
    else
      let s := s.dispatchUntil done s.host.queue.length
      if done s then (.ok (), s)
      else
        match loop.bind fun l => (s.engine.shortest? l).map fun x => (l, x.1, x.2) with
        | none => (.error (.system .timedOut), s)
        | some (l, ms, key) =>
          if ms ≤ timeout then
            waitRounds done loop timeout n { s with engine := s.engine.elapse l key }
          else (.error (.system .timedOut), s)

/-- Waits until something happened to a callback of this name. The loop runs meanwhile. Without a
host to wait there is no result. -/
def wait (s : State) (name : String) (loop : Option Nat) (timeout : Nat) :
    Option (Except Error Unit) × State :=
  if s.held then
    let tasks := ((loop.map fun l => (s.engine.loop l).tasks.size).getD 0)
    let (r, s) := waitRounds (settled name s) loop timeout (tasks + 1) s
    (some r, s.parkIf loop)
  else (none, (s.resumeIf loop).parkIf loop)

end State

end HostBridge.Session
