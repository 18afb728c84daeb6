/-!
# The life of an instance

An instance runs until a shutdown is requested. Then the network is closed, then the loop's thread
is joined, then the instance is gone. There is no way back.
-/

namespace HostBridge

/-- Where an instance stands in its life. -/
inductive Lifecycle where
  /-- It accepts queries. -/
  | running
  /-- Shutdown was requested; the cluster is closing. -/
  | closingNetwork
  /-- The cluster is closed; the loop is stopped and waited for. -/
  | joiningThread
  /-- Nothing is left of it. -/
  | destroyed
  deriving DecidableEq, Repr, Inhabited

namespace Lifecycle

/-- The number of a state. -/
def number : Lifecycle → Nat
  | running => 0
  | closingNetwork => 1
  | joiningThread => 2
  | destroyed => 3

/-- The state of a number. Numbers past the last state stand for the last state. -/
def ofNumber : Nat → Lifecycle
  | 0 => running
  | 1 => closingNetwork
  | 2 => joiningThread
  | _ => destroyed

@[simp]
theorem ofNumber_number (s : Lifecycle) : ofNumber s.number = s := by
  cases s <;> rfl

/-- The name of a state in messages. -/
def name : Lifecycle → String
  | running => "Running"
  | closingNetwork => "ClosingNetwork"
  | joiningThread => "JoiningThread"
  | destroyed => "Destroyed"

end Lifecycle

end HostBridge
