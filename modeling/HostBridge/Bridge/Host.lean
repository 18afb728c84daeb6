import HostBridge.Registry
import HostBridge.Log

/-!
# The host and its queue

Callbacks stay with the host. What leaves it is a *cookie*: a one-shot token that names the slot of
a callback. Invoking an armed cookie queues a call of the callback with some work; dropping it
queues a release. The host takes messages from the front of the queue and pairs each with its slot.
Once the host is closed, nothing is registered or queued any more, and whatever was there is
dropped.

Registrations are numbered. The number, called a *ticket*, names a callback for good, while the key
of its slot is used again.
-/

namespace HostBridge.Bridge

/-- A one-shot token for a registered callback. -/
structure Cookie where
  /-- The slot of the callback. A cookie made after the teardown has none and is inert. -/
  key : Option Nat
  /-- The label of the callback in the log. -/
  label : String
  /-- The number of the registration. -/
  ticket : Nat
  deriving DecidableEq, Repr

/-- The cookie names a slot. -/
def Cookie.isArmed (c : Cookie) : Bool := c.key.isSome

/-- What the host is asked to do with a slot. -/
inductive Message (ω : Type) where
  /-- Run the callback with the work. -/
  | call (key : Nat) (label : String) (ticket : Nat) (work : ω)
  /-- Drop the callback unrun. -/
  | release (key : Nat) (label : String) (ticket : Nat)

namespace Message

variable {ω : Type}

/-- The slot that a message names. -/
def key : Message ω → Nat
  | call key .. => key
  | release key .. => key

/-- The registration that a message is about. -/
def ticket : Message ω → Nat
  | call _ _ ticket _ => ticket
  | release _ _ ticket => ticket

/-- The work that travels with a message. -/
def work? : Message ω → Option ω
  | call _ _ _ work => some work
  | release .. => none

end Message

/-- A registered callback and the number of its registration. -/
structure Entry (γ : Type) where
  /-- The number of the registration. -/
  ticket : Nat
  /-- The callback. -/
  callback : γ

/-- The state of a host. -/
structure Host (γ ω : Type) where
  /-- The callbacks that wait for their cookies. -/
  registry : Registry (Entry γ) := {}
  /-- The messages, the oldest in front. -/
  queue : List (Message ω) := []
  /-- The host has been torn down. -/
  closed : Bool := false
  /-- The number of registrations so far. -/
  issued : Nat := 0

/-- What becomes of a message taken from the queue. -/
inductive Dispatch (γ ω : Type) where
  /-- The host is closed; the work is dropped. -/
  | late (label : String) (work : ω)
  /-- The callback runs with the work. -/
  | run (label : String) (entry : Entry γ) (work : ω)
  /-- The slot is empty; the work is dropped. -/
  | missing (label : String) (key : Nat) (work : ω)
  /-- What the slot holds is dropped. -/
  | released (label : String) (entry : Option (Entry γ))

namespace Host

variable {γ ω : Type}

/-- The number of callbacks that are registered. -/
def pending (h : Host γ ω) : Nat :=
  h.registry.size

/-- Registers a callback. A closed host keeps nothing and hands out an inert cookie. -/
def register (h : Host γ ω) (label : String) (callback : γ) : Cookie × Host γ ω :=
  if h.closed then
    (⟨none, label, h.issued⟩, { h with issued := h.issued + 1 })
  else
    let (key, registry) := h.registry.insert ⟨h.issued, callback⟩
    (⟨some key, label, h.issued⟩, { h with registry, issued := h.issued + 1 })

/-- Uses up a cookie to queue a call. The answer is whether the call was queued; if not, the work is
dropped. -/
def invoke (h : Host γ ω) (c : Cookie) (work : ω) : Bool × Host γ ω :=
  match c.key with
  | none => (false, h)
  | some key =>
    if h.closed then (false, h)
    else (true, { h with queue := h.queue ++ [.call key c.label c.ticket work] })

/-- Drops a cookie. -/
def release (h : Host γ ω) (c : Cookie) : Host γ ω :=
  match c.key with
  | none => h
  | some key =>
    if h.closed then h else { h with queue := h.queue ++ [.release key c.label c.ticket] }

/-- Drops cookies one after the other. -/
def releaseAll (h : Host γ ω) (cs : List Cookie) : Host γ ω :=
  cs.foldl release h

/-- Takes the oldest message from the queue. -/
def receive (h : Host γ ω) : Option (Message ω × Host γ ω) :=
  match h.queue with
  | [] => none
  | m :: rest => some (m, { h with queue := rest })

/-- Pairs a message with its slot. -/
def dispatch (h : Host γ ω) : Message ω → Dispatch γ ω × Host γ ω
  | .call key label _ work =>
    if h.closed then (.late label work, h)
    else
      match h.registry.remove key with
      | (some entry, registry) => (.run label entry work, { h with registry })
      | (none, _) => (.missing label key work, h)
  | .release key label _ =>
    let (entry, registry) := h.registry.remove key
    (.released label entry, { h with registry })

/-- Tears the host down. The first time the messages and the callbacks are handed back, the latter
in the order of their keys, to be dropped; after that there is nothing left to do. -/
def teardown (h : Host γ ω) : Option (List (Message ω) × List (Entry γ)) × Host γ ω :=
  if h.closed then (none, h)
  else
    (some (h.queue, h.registry.contents),
      { h with closed := true, queue := [], registry := {} })

end Host

/-- What the log says about a registration. -/
def Cookie.registered (c : Cookie) : Log.Notice :=
  match c.key with
  | some key => .callbackRegistered c.label key
  | none => .callbackRefused c.label

/-- What the log says about an invocation that was not queued. -/
def Cookie.refused (c : Cookie) : List Log.Notice :=
  if c.isArmed then [.invocationRefused c.label] else []

/-- What the log says when a message is dispatched. -/
def Dispatch.notice {γ ω : Type} : Dispatch γ ω → Log.Notice
  | late label _ => .lateCallDropped label
  | run label _ _ => .callbackInvoked label
  | missing label key _ => .callbackMissing label key
  | released label _ => .callbackReleased label

end HostBridge.Bridge
