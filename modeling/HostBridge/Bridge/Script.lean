import HostBridge.Bridge.Host
import HostBridge.Json.Basic

/-!
# Callbacks that act

What a program does with the bridge, as data: a callback has a *script* of actions, which it carries
out when it runs. A script may register further callbacks, invoke or drop cookies, poll the host
again, or tear it down. Cookies can be owned by a callback or carried by the work of an invocation: a
callback that runs uses them or hands them on, and what is left is dropped together with the owner.
-/

namespace HostBridge.Bridge

/-- The work of an invocation: a value for the callback, and the cookies that travel with it. -/
structure Work where
  /-- The value that the callback gets. -/
  value : Json
  /-- The cookies that the work has, and that are dropped with it. -/
  carry : List Cookie

/-- The name of an action. -/
inductive Verb where
  /-- Register a callback. -/
  | register
  /-- Ask for the label of a cookie. -/
  | label
  /-- Invoke a cookie. -/
  | invoke
  /-- Drop a cookie. -/
  | drop
  /-- Run what is queued. -/
  | poll
  /-- Run what is queued until a condition holds. -/
  | runUntil
  /-- Tear the host down. -/
  | teardown
  /-- Let go of the host. -/
  | dropHost
  /-- An action that was not understood. -/
  | unreadable (verb : String)
  deriving DecidableEq, Repr

/-- The answer to an action. -/
inductive Answer where
  /-- Nothing to say. -/
  | unit
  /-- A label. -/
  | label (text : String)
  /-- How many callbacks ran. -/
  | count (n : Nat)
  /-- A truth value. -/
  | flag (value : Bool)
  /-- How a wait ended, and how often its condition was evaluated. -/
  | awaited (result : Except Error Unit) (checks : Nat)
  /-- There is no cookie of that name. -/
  | noCookie
  /-- The host has been let go. -/
  | noHost
  /-- Why the action was not understood. -/
  | unreadable (reason : String)

/-- Something that happened. -/
inductive Occurrence where
  /-- The host thread wrote to the log. -/
  | logged (notice : Log.Notice)
  /-- A callback was registered in a slot. -/
  | registered (ticket : Nat)
  /-- A call of a callback was queued. -/
  | requested (ticket : Nat)
  /-- A callback began to run. -/
  | invoked (ticket : Nat) (name : String) (value : Json)
  /-- A callback was dropped unrun. -/
  | dropped (ticket : Nat) (name : String)
  /-- A running callback carried out an action. -/
  | stepped (name : String) (verb : Verb) (answer : Answer)
  /-- A poll returned. -/
  | polled (count : Nat)
  /-- A wait returned, after it had run so many callbacks. -/
  | waited (count : Nat)

/-- What a wait is for: a function of the number of its evaluations and of everything that happened,
the newest first. -/
abbrev Condition := Nat → List Occurrence → Bool

/-- The number of callbacks that have begun to run. -/
def invocations (trace : List Occurrence) : Nat :=
  trace.countP fun
    | .invoked .. => true
    | _ => false

/-- At least so many callbacks have begun to run. -/
def Condition.invoked (n : Nat) : Condition := fun _ trace => n ≤ invocations trace

/-- The condition has been evaluated so often. -/
def Condition.evaluated (n : Nat) : Condition := fun checks _ => n ≤ checks

/-- One condition or the other holds. -/
def Condition.or (c d : Condition) : Condition :=
  fun checks trace => c checks trace || d checks trace

/-- Where an action finds a cookie. -/
inductive Source where
  /-- In the table of the program, under a name. -/
  | table (name : String)
  /-- Among the cookies that the running callback still owns. -/
  | owned (place : Nat)
  /-- Among those that the work has left with which the callback was called. -/
  | carried (place : Nat)

/-- A name stands for the cookie that the program has under it. -/
instance : Coe String Source := ⟨.table⟩

instance : Coe (List String) (List Source) := ⟨List.map .table⟩

/-- Something a program does with the bridge. The cookies of the program have names; a running
callback has cookies of its own besides. -/
inductive Action where
  /-- Registers a callback and keeps its cookie. The owned cookies go with the callback. -/
  | register (name label : String) (script : List Action) (owns : List Source)
  /-- Asks for the label of a cookie. -/
  | label (source : Source)
  /-- Invokes a cookie, from the host thread or from elsewhere. -/
  | invoke (source : Source) (value : Json) (elsewhere : Bool) (carry : List Source)
  /-- Drops a cookie. -/
  | drop (source : Source)
  /-- Runs what is queued. -/
  | poll
  /-- Runs what is queued until the condition holds or nothing is left. -/
  | runUntil (condition : Condition)
  /-- Tears the host down. -/
  | teardown
  /-- Lets go of the host, which is torn down as soon as nothing of it is under way. -/
  | dropHost
  /-- An action that was not understood. -/
  | unreadable (verb reason : String)
  deriving Inhabited

/-- The name of an action. -/
def Action.verb : Action → Verb
  | register .. => .register
  | label _ => .label
  | invoke .. => .invoke
  | drop _ => .drop
  | poll => .poll
  | runUntil _ => .runUntil
  | teardown => .teardown
  | dropHost => .dropHost
  | unreadable verb _ => .unreadable verb

/-- A callback with a script. -/
structure Callback where
  /-- The name of its cookie. -/
  name : String
  /-- What it does when it runs. -/
  script : List Action
  /-- The cookies that it has, and that are dropped with it. -/
  owns : List Cookie

/-! ## Weight

Every action takes a bounded number of steps, and every step uses up some of it. The weight of an
action bounds the steps that it can cause. -/

mutual

/-- The steps that an action can cause. -/
def Action.weight : Action → Nat
  | .register _ _ script _ => weights script + 6
  | _ => 3
termination_by structural a => a

/-- The steps that a script can cause. -/
def weights : List Action → Nat
  | [] => 0
  | a :: rest => a.weight + weights rest
termination_by structural s => s

end

/-- The steps that dropping cookies can cause. -/
def cookieWeight (cs : List Cookie) : Nat :=
  2 * cs.countP Cookie.isArmed

/-- The steps that a registered callback can cause. -/
def Callback.weight (c : Callback) : Nat :=
  2 + weights c.script + cookieWeight c.owns

/-- The steps that a queued message can cause. -/
def Message.weight : Message Work → Nat
  | call _ _ _ work => 2 + cookieWeight work.carry
  | release .. => 2

end HostBridge.Bridge
