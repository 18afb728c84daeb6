import HostBridge.Engine.Bench
import HostBridge.Proofs.Engine.Effect

/-!
# Runs of an engine

A run is any sequence of events on an engine with any number of loops, connectors and streams:
requests, cancellations, requests to stop, turns of the loops and ends of delays, in any order.
Whoever asks for something gets a *ticket*, and tickets are handed out in order. The history of a
run tells which task was handed to which loop, when it looked whether it was cancelled, and what was
reported when and by which thread. It decides nothing; it is what theorems speak about.

A promotion and a pull take several turns of their loop each, and anything else may happen between
these. Likewise a cluster may be closed in several events: whoever closes it gives up one operation
after another, and hands over the task that reports the end when all of them are given up.
-/

namespace HostBridge.Engine

/-- The one who waits for a row of a stream. -/
structure Pull where
  /-- The stream. -/
  stream : Nat
  /-- The ticket. -/
  ticket : Nat
  deriving DecidableEq

/-- A task of a run. -/
abbrev Errand := Task Nat Pull Nat

/-- What is reported in a run. -/
abbrev Report := Completion Nat Pull Nat

/-- The ticket of a task. -/
@[simp]
def Task.ticket? : Errand → Option Nat
  | .promote _ _ _ _ ticket => some ticket
  | .pull _ reply => some reply.ticket
  | .close ticket => some ticket
  | .park => none

namespace Completion

/-- The ticket of the one who is told. -/
@[simp]
def ticket : Report → Nat
  | .promoted ticket _ _ => ticket
  | .row reply _ => reply.ticket
  | .closed ticket => ticket

/-- The report is the one for which the task was handed over. -/
@[simp]
def answers : Report → Errand → Bool
  | .promoted ticket _ _, .promote _ _ _ _ ticket' => ticket == ticket'
  | .row reply _, .pull _ reply' => reply == reply'
  | .closed ticket, .close ticket' => ticket == ticket'
  | _, _ => false

theorem ticket_of_answers {x : Report} {t : Errand} (h : x.answers t = true) :
    t.ticket? = some x.ticket := by
  cases x <;> cases t <;> simp_all

theorem answers_promote {x : Report} {c o : Nat} {response : Response} {timer : Timer}
    {ticket : Nat} (h : x.answers (.promote c o response timer ticket) = true) :
    ∃ stream error, x = .promoted ticket stream error := by
  cases x with
  | promoted ticket' stream error =>
    obtain rfl : ticket' = ticket := by simpa using h
    exact ⟨stream, error, rfl⟩
  | row | closed => cases h

theorem answers_pull {x : Report} {i : Nat} {reply : Pull} (h : x.answers (.pull i reply) = true) :
    ∃ row, x = .row reply row := by
  cases x with
  | row reply' row =>
    obtain rfl : reply' = reply := by simpa using h
    exact ⟨row, rfl⟩
  | promoted | closed => cases h

theorem answers_close {x : Report} {ticket : Nat} (h : x.answers (.close ticket) = true) :
    x = .closed ticket := by
  cases x with
  | closed ticket' =>
    obtain rfl : ticket' = ticket := by simpa using h
    rfl
  | promoted | row => cases h

/-- Whoever gets the report of a task that never ran learns that it was cancelled, if the report can
say so. -/
@[simp]
def isCanceled : Report → Bool
  | .promoted _ none (some e) => e.code == .canceled
  | .promoted .. => false
  | .row _ (.failed e) => e.code == .canceled
  | .row .. => false
  | .closed _ => true

end Completion

/-- A task that a stopped loop refuses is reported all the same, as cancelled. -/
theorem Task.abandoned?_eq {t : Errand} (ht : t.ticket?.isSome) :
    ∃ x : Report, t.abandoned? = some x ∧ x.answers t = true ∧ x.isCanceled = true := by
  cases t with
  | promote c o response timer ticket => exact ⟨_, rfl, by simp, rfl⟩
  | pull stream reply => exact ⟨_, rfl, by simp, rfl⟩
  | close ticket => exact ⟨_, rfl, by simp, rfl⟩
  | park => simp at ht

/-! ## Events and moments -/

/-- Something that can happen next. -/
inductive Event where
  /-- A connector is made. -/
  | connector
  /-- A loop is made. -/
  | loop
  /-- A response of a connector is queued. -/
  | respond (connector : Nat) (response : Response)
  /-- A query of a connector is submitted on a loop. -/
  | execute (connector loop : Nat) (request : Request)
  /-- A stream is made on a loop. -/
  | stream (loop : Nat) (rows : List Row) (metadata : Metadata)
  /-- A stream is asked for its next row. -/
  | pull (stream : Nat)
  /-- An operation is cancelled on request. -/
  | cancelOperation (connector operation : Nat)
  /-- A stream is cancelled. -/
  | cancelStream (stream : Nat)
  /-- A cluster of a connector on a loop is closed, and nobody comes in between. -/
  | close (connector loop : Nat)
  /-- Somebody begins to close a cluster of a connector. -/
  | closing (connector : Nat)
  /-- Somebody who closes a cluster gives up an operation of its connector. -/
  | abandon (connector operation : Nat)
  /-- Somebody who has given up all operations hands a loop the task that reports the end. -/
  | announce (loop : Nat)
  /-- A loop is asked to stop. -/
  | stop (loop : Nat)
  /-- The thread of a loop does the next thing it has to do. -/
  | turn (loop : Nat)
  /-- The delay of a sleeping task is over. -/
  | elapse (loop key : Nat)

/-- What is remembered of a run. -/
inductive Observation where
  /-- A task was handed to a loop. -/
  | submitted (loop : Nat) (task : Errand)
  /-- A stream was cancelled. -/
  | cancelled (stream : Nat)
  /-- The task with a ticket looked whether it was cancelled. -/
  | checked (ticket : Nat) (cancelled : Bool)
  /-- Something was reported. -/
  | completed (place : Place) (report : Report)

/-- A moment of a run. -/
structure Moment where
  /-- The engine. -/
  engine : State Nat Pull Nat := {}
  /-- The number of tickets handed out. -/
  issued : Nat := 0
  /-- What happened so far, the oldest in front. -/
  history : List Observation := []

namespace Moment

/-- The moment with another engine. -/
def having (m : Moment) (engine : State Nat Pull Nat) : Moment :=
  { m with engine }

/-- A task was handed to a loop. If the loop refused it, it was reported on the spot. -/
def handed (m : Moment) (l : Nat) (t : Errand) (outcome : Option Report × State Nat Pull Nat) :
    Moment where
  engine := outcome.2
  issued := m.issued + 1
  history := m.history ++ .submitted l t :: (outcome.1.map (.completed .host)).toList

/-- What is remembered of a turn of a loop. -/
def observe (m : Moment) (l : Nat) : List Observation :=
  ((m.engine.glance? l).bind fun glance =>
    glance.1.ticket?.map fun ticket => .checked ticket glance.2).toList ++
    ((m.engine.turn l).1.map (.completed .loop)).toList

/-- One event. An event that cannot happen changes nothing, and neither does a query for which there
is no response. -/
def perform (m : Moment) : Event → Moment
  | .connector => m.having m.engine.addConnector.2
  | .loop => m.having m.engine.addLoop.2
  | .respond c response => m.having (m.engine.respond c response)
  | .execute c l request =>
    match (m.engine.connector c).responses, m.engine.execute c l request m.issued with
    | response :: _, .ok (o, outcome) =>
      if l < m.engine.workers.length then m.handed l (.promote c o response .fresh m.issued) outcome
      else m
    | _, _ => m
  | .stream l rows metadata =>
    if l < m.engine.workers.length then m.having (m.engine.addStream (.ofRows l rows metadata)).2
    else m
  | .pull i =>
    match m.engine.stream? i with
    | none => m
    | some x => m.handed x.loop (.pull i ⟨i, m.issued⟩) (m.engine.pull i ⟨i, m.issued⟩)
  | .cancelOperation c o => m.having (m.engine.cancelOperation c o)
  | .cancelStream i =>
    { m with engine := m.engine.cancelStream i, history := m.history ++ [.cancelled i] }
  | .close c l =>
    if l < m.engine.workers.length then m.handed l (.close m.issued) (m.engine.close c l m.issued)
    else m
  | .closing c => m.having (m.engine.counted c)
  | .abandon c o => m.having (m.engine.abandon c o)
  | .announce l =>
    if l < m.engine.workers.length then
      m.handed l (.close m.issued) (m.engine.submit l (.close m.issued))
    else m
  | .stop l => m.having (m.engine.stop l)
  | .turn l =>
    { m with engine := (m.engine.turn l).2, history := m.history ++ m.observe l }
  | .elapse l key =>
    match (m.engine.loop l).tasks.get? key with
    | some (.promote _ _ _ .armed _) => m.having (m.engine.elapse l key)
    | _ => m

/-- The moment after some more events. -/
def after (m : Moment) (events : List Event) : Moment :=
  events.foldl perform m

theorem after_append (m : Moment) (events later : List Event) :
    m.after (events ++ later) = (m.after events).after later :=
  List.foldl_append

end Moment

/-- The moment after a run. -/
def run (events : List Event) : Moment :=
  ({} : Moment).after events

theorem run_append (events later : List Event) :
    run (events ++ later) = (run events).after later :=
  Moment.after_append {} events later

end HostBridge.Engine
