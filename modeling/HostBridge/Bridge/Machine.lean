import HostBridge.Bridge.Script

/-!
# The host thread, step by step

The host thread is a machine with a stack: polls, waits and running callbacks lie on top of each
other, because a callback may poll the host that runs it. One step carries out one action of the
running callback, takes one message from the queue, or hands the answer of an action to the callback
that asked. Everything that happens goes into a trace, the newest in front.
-/

namespace HostBridge.Bridge

/-- What the host thread is in the middle of. -/
inductive Frame where
  /-- A callback runs. `current` is the action it is in, `script` what is left to do; the cookies
  that it still owns are dropped when it ends, and after them those that its work still carries. -/
  | running (name : String) (current : Option Verb) (script : List Action)
      (owns carry : List Cookie)
  /-- A poll has run so many callbacks. -/
  | polling (count : Nat)
  /-- A wait has evaluated its condition so often and run so many callbacks. -/
  | waiting (condition : Condition) (checks count : Nat)

/-- The steps that a frame can cause. -/
def Frame.weight : Frame → Nat
  | running _ _ script owns carry => 1 + weights script + cookieWeight owns + cookieWeight carry
  | polling _ => 2
  | waiting .. => 2

/-- The cookie that a running callback has at hand itself. -/
def Frame.cookie? : Frame → Source → Option Cookie
  | running _ _ _ owns _, .owned place => owns[place]?
  | running _ _ _ _ carry, .carried place => carry[place]?
  | _, _ => none

/-- A frame that has given that cookie away. -/
def Frame.without : Frame → Source → Frame
  | running name current script owns carry, .owned place =>
    running name current script (owns.eraseIdx place) carry
  | running name current script owns carry, .carried place =>
    running name current script owns (carry.eraseIdx place)
  | frame, _ => frame

/-- The host thread with everything it can reach. -/
structure State where
  /-- The host. -/
  host : Host Callback Work := {}
  /-- The program still holds the host. -/
  held : Bool := true
  /-- The cookies by name. -/
  cookies : Keyed Cookie := []
  /-- Everything that happened, the newest in front. -/
  trace : List Occurrence := []
  /-- What the thread is in the middle of, the innermost in front. -/
  stack : List Frame := []
  /-- The answer of the action that just ended. -/
  answer : Option Answer := none

namespace State

/-- Adds to the trace. -/
def record (s : State) (o : Occurrence) : State :=
  { s with trace := o :: s.trace }

/-- Adds a notice to the log. -/
def note (s : State) (n : Log.Notice) : State :=
  s.record (.logged n)

/-- Ends an action with an answer. -/
def reply (s : State) (a : Answer) : State :=
  { s with answer := some a }

/-- The cookie that an action finds. Only the innermost frame is at work. -/
def cookie? (s : State) : Source → Option Cookie
  | .table name => s.cookies.find? name
  | source => s.stack.head?.bind (·.cookie? source)

/-- The state without that cookie. -/
def without (s : State) : Source → State
  | .table name => { s with cookies := s.cookies.erase name }
  | source => { s with stack := s.stack.modifyHead (·.without source) }

/-- Takes a cookie from where it is. -/
def takeCookie (s : State) (source : Source) : Option Cookie × State :=
  (s.cookie? source, s.without source)

/-- Takes some cookies one after the other, passing over those that are not there. -/
def takeCookies (s : State) : List Source → List Cookie × State
  | [] => ([], s)
  | source :: rest =>
    let (c, s) := s.takeCookie source
    let (cs, s) := s.takeCookies rest
    (c.toList ++ cs, s)

/-- Drops cookies. -/
def releaseAll (s : State) (cs : List Cookie) : State :=
  { s with host := s.host.releaseAll cs }

/-- Drops a callback unrun, and with it the cookies that it owns. -/
def discard (s : State) (e : Entry Callback) : State :=
  (s.record (.dropped e.ticket e.callback.name)).releaseAll e.callback.owns

/-- Drops messages, and with them the cookies that their work carries. -/
def discardMessages (s : State) (ms : List (Message Work)) : State :=
  s.releaseAll (ms.flatMap fun m => (m.work?.map Work.carry).getD [])

/-- Tears the host down: messages are dropped, then callbacks in the order of their keys. -/
def teardown (s : State) : State :=
  match s.host.teardown with
  | (none, _) => s
  | (some (messages, entries), host) =>
    let s := { s with host }.discardMessages messages
    let s := s.note (.hostTornDown messages.length entries.length)
    entries.foldl discard s

/-- Registers a callback and keeps its cookie under a name. A cookie that had the name is dropped
once the new one is in its place. -/
def register (s : State) (name label : String) (script : List Action) (owns : List Source) :
    State :=
  let (owned, s) := s.takeCookies owns
  let callback : Callback := ⟨name, script, owned⟩
  let (cookie, host) := s.host.register label callback
  let s := { s with host }.note cookie.registered
  let s := if cookie.isArmed then s.record (.registered cookie.ticket)
    else s.discard ⟨cookie.ticket, callback⟩
  let previous := s.cookies.find? name
  let s := { s with cookies := s.cookies.insert name cookie }
  s.releaseAll previous.toList

/-- Invokes a cookie with some work. The log shows a refusal only on the host thread. -/
def invoke (s : State) (c : Cookie) (work : Work) (elsewhere : Bool) : State :=
  let (queued, host) := s.host.invoke c work
  let s := { s with host }
  if queued then s.record (.requested c.ticket)
  else
    let s := if elsewhere then s else c.refused.foldl note s
    s.releaseAll work.carry

/-- A host that was let go is torn down once no poll and no wait is under way. -/
def teardownIfGone (s : State) : State :=
  if !s.held && s.stack.isEmpty then s.teardown else s

/-- Begins an action. Most actions end at once; polls and waits go on the stack. -/
def start (s : State) : Action → State
  | .register name label script owns => (s.register name label script owns).reply .unit
  | .label source =>
    match s.cookie? source with
    | none => s.reply .noCookie
    | some c => s.reply (.label c.label)
  | .invoke source value elsewhere carry =>
    let (cookie, s) := s.takeCookie source
    let (carried, s) := s.takeCookies carry
    match cookie with
    | none => (s.releaseAll carried).reply .noCookie
    | some c => (s.invoke c ⟨value, carried⟩ elsewhere).reply .unit
  | .drop source =>
    match s.takeCookie source with
    | (none, s) => s.reply .noCookie
    | (some c, s) => (s.releaseAll [c]).reply .unit
  | .poll =>
    if s.held then { s with stack := .polling 0 :: s.stack } else s.reply .noHost
  | .runUntil condition =>
    if s.held then { s with stack := .waiting condition 0 0 :: s.stack } else s.reply .noHost
  | .teardown =>
    if s.held then s.teardown.reply .unit else s.reply .noHost
  | .dropHost =>
    let held := s.held
    { s with held := false }.teardownIfGone.reply (.flag held)
  | .unreadable _ reason => s.reply (.unreadable reason)

/-- Takes a message from the queue, leaving the given frame to go on afterwards. The frame is told
whether a callback runs. -/
def deliver (s : State) (m : Message Work) (resume : Bool → Frame) (rest : List Frame) : State :=
  let (fate, host) := s.host.dispatch m
  let s := { s with host }.note fate.notice
  match fate with
  | .late _ work => { s with stack := resume false :: rest }.releaseAll work.carry
  | .run _ entry work =>
    let c := entry.callback
    let s := s.record (.invoked entry.ticket c.name work.value)
    { s with stack := .running c.name none c.script c.owns work.carry :: resume true :: rest }
  | .missing _ _ work => { s with stack := resume false :: rest }.releaseAll work.carry
  | .released _ entry =>
    let s := { s with stack := resume false :: rest }
    match entry with
    | none => s
    | some e => s.discard e

/-- One step of a poll: the oldest message, or the end. -/
def stepPoll (s : State) (count : Nat) (rest : List Frame) : State :=
  match s.host.receive with
  | none =>
    (({ s with stack := rest }.record (.polled count)).reply (.count count)).teardownIfGone
  | some (m, host) =>
    { s with host }.deliver m (fun ran => .polling (if ran then count + 1 else count)) rest

/-- One step of a wait: the condition, then the state of the host, then the oldest message. When
nothing is queued, time runs out and the condition gets a last chance. -/
def stepWait (s : State) (condition : Condition) (checks count : Nat) (rest : List Frame) : State :=
  let stop (result : Except Error Unit) (checks : Nat) :=
    (({ s with stack := rest }.record (.waited count)).reply
      (.awaited result checks)).teardownIfGone
  if condition (checks + 1) s.trace then stop (.ok ()) (checks + 1)
  else if s.host.closed then stop (.error .hostClosed) (checks + 1)
  else
    match s.host.receive with
    | none =>
      if condition (checks + 2) s.trace then stop (.ok ()) (checks + 2)
      else stop (.error (.system .timedOut)) (checks + 2)
    | some (m, host) =>
      { s with host }.deliver m
        (fun ran => .waiting condition (checks + 1) (if ran then count + 1 else count)) rest

/-- The thread has nothing to do. -/
def isIdle (s : State) : Bool := s.stack.isEmpty

/-- One step of the host thread. -/
def step (s : State) : State :=
  match s.stack with
  | [] => s
  | .running name current script owns carry :: rest =>
    match s.answer with
    | some a =>
      let s := { s with answer := none }
      match current with
      | some verb => s.record (.stepped name verb a)
      | none => s
    | none =>
      match script with
      | a :: script =>
        { s with stack := .running name (some a.verb) script owns carry :: rest }.start a
      | [] => ({ s with stack := rest }.releaseAll owns).releaseAll carry
  | .polling count :: rest => s.stepPoll count rest
  | .waiting condition checks count :: rest => s.stepWait condition checks count rest

/-- The steps that the state can still cause. -/
def weight (s : State) : Nat :=
  cookieWeight (s.cookies.map Prod.snd) + s.host.queue.foldr (fun m n => m.weight + n) 0 +
    s.host.registry.contents.foldr (fun e n => e.callback.weight + n) 0 +
    s.stack.foldr (fun f n => f.weight + n) 0 + (if s.answer.isSome then 1 else 0)

/-- Takes up to so many steps, until the thread is idle. -/
def drive : Nat → State → State
  | 0, s => s
  | n + 1, s => if s.isIdle then s else drive n s.step

/-- Takes steps until the thread is idle. -/
def settle (s : State) : State :=
  drive s.weight s

/-- Carries out an action from outside any callback. -/
def perform (s : State) (a : Action) : State :=
  ({ s with answer := none }.start a).settle

/-- What happened between two states, the oldest first. -/
def happened (before after : State) : List Occurrence :=
  (after.trace.take (after.trace.length - before.trace.length)).reverse

end State

end HostBridge.Bridge
