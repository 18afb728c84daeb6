import HostBridge.Proofs.Engine.Effect
import HostBridge.Session.Consumption

/-!
# Runs of a session

A run is any sequence of events on in-memory connectors: calls of the host, turns of the loops, ends
of delays and steps of the reapers, in any order, with a host that is never torn down. The host
thread does one thing at a time, but two of its calls have a gap in the middle, in which everything
else may go on: a query result learns of the operation of its query after the engine has accepted
the query, and a cancellation strikes what it has found in its result a moment earlier. A promotion
and a pull take several turns of their loop, and anything may happen between these. Whether a reaper
can be started is up to the operating system.

A callback may call the host again. It does so after its message has left the queue, so its calls
are the next events of the run.

What happened is remembered in a history. The history decides nothing; it is what theorems speak
about.
-/

namespace HostBridge.Session

open Bridge (Cookie)

/-- What the host thread is in the middle of. -/
inductive Call where
  /-- Nothing. -/
  | idle
  /-- A query was accepted, for an executor if one is given. Its result does not know its operation
  yet. -/
  | attaching (executor : Option Nat) (result : Nat) (operation : Operation)
  /-- A cancellation, by an executor if one is given, has found what its result refers to. -/
  | cancelling (executor : Option Nat) (result : Nat) (target : Target)

/-- A call of the host. -/
inductive Deed where
  /-- Makes an in-memory connector. -/
  | connector
  /-- Queues a response of a connector. -/
  | respond (connector : Nat) (response : Engine.Response)
  /-- Creates a connection. -/
  | create (connector : Nat) (options : Options)
  /-- Submits a query. -/
  | query (instanceNumber : Nat) (request : Request) (name : String)
  /-- Asks a query result for the next row. -/
  | next (result : Nat) (name : String)
  /-- Cancels a query result. -/
  | cancel (result : Nat)
  /-- Drops a query result. -/
  | dropResult (result : Nat)
  /-- Makes an executor. -/
  | executor
  /-- Submits the query of an executor. -/
  | executorQuery (executor instanceNumber : Nat) (request : Request) (name : String)
  /-- Asks an executor for the next row. -/
  | executorNext (executor : Nat) (name : String)
  /-- Cancels the query of an executor. -/
  | executorAbort (executor : Nat)
  /-- Drops an executor. -/
  | dropExecutor (executor : Nat)
  /-- Asks a connection to shut down. -/
  | destroy (instanceNumber : Nat)
  /-- Drops a connection. -/
  | dropConnection (instanceNumber : Nat)
  /-- Handles the oldest message. -/
  | dispatch

/-- Something that can happen next. -/
inductive Event where
  /-- The host begins a call. -/
  | act (deed : Deed)
  /-- The host goes on with a call that it is in the middle of. -/
  | resume
  /-- The thread of a loop does the next thing it has to do. -/
  | turn (loop : Nat)
  /-- The delay of a sleeping task is over. -/
  | elapse (loop key : Nat)
  /-- The reaper of an instance takes a step. -/
  | reap (instanceNumber : Nat)
  /-- From now on the operating system starts threads for reapers, or refuses to for a reason. -/
  | reapers (fault : Option String)

/-- What is remembered of a run. -/
inductive Observation where
  /-- A response was queued. -/
  | pushed (connector : Nat) (response : Engine.Response)
  /-- A query was accepted on an instance, with the callback of a ticket. -/
  | accepted (instanceNumber : Nat) (operation : Operation) (result ticket : Nat)
  /-- A query was refused after its callback had got a ticket. -/
  | refused (ticket : Nat)
  /-- A result was asked for a row, with the callback of a ticket. The stream is the one it had. -/
  | asked (result ticket : Nat) (stream : Option Nat)
  /-- A cancellation struck what it had found in a result, and was successful. -/
  | cancelled (result : Nat) (target : Target)
  /-- The promotion or the pull with the callback of a ticket looked whether it was cancelled. -/
  | checked (ticket : Nat) (cancelled : Bool)
  /-- The engine reported the outcome of a promotion, to a result that was still held or not. -/
  | reported (result ticket : Nat) (stream : Option Nat) (error : Option EngineError) (alive : Bool)
  /-- The engine answered a pull. -/
  | answered (ticket : Nat) (row : Row)

/-- A moment of a run. -/
structure Moment where
  /-- The session. -/
  state : State := {}
  /-- What the host thread is in the middle of. -/
  call : Call := .idle
  /-- The callbacks registered so far, in order. -/
  callbacks : List Callback := []
  /-- What happened so far, the oldest in front. -/
  history : List Observation := []

/-- Tasks of a session. -/
abbrev Task := Engine.Task Promotion Cookie Nat

/-- The cookie that a task holds. -/
def cookie? : Task → Option Cookie
  | .promote _ _ _ _ p => some p.cookie
  | .pull _ cookie => some cookie
  | .close _ => none
  | .park => none

theorem cookie?_untimed (t : Task) : cookie? t.untimed = cookie? t := by
  cases t <;> rfl

/-- What is remembered of a task that looks in the next turn of a loop whether it was cancelled. -/
def State.glimpse (s : State) (l : Nat) : List Observation :=
  ((s.engine.glance? l).bind fun glance =>
    (cookie? glance.1).map fun cookie => .checked cookie.ticket glance.2).toList

theorem State.exists_of_mem_glimpse {s : State} {l : Nat} {o : Observation} (ho : o ∈ s.glimpse l) :
    ∃ t cancelled, o = .checked t cancelled := by
  obtain ⟨glance, -, ho⟩ := Option.bind_eq_some_iff.mp (Option.mem_toList.mp ho)
  obtain ⟨cookie, -, rfl⟩ := Option.map_eq_some_iff.mp ho
  exact ⟨_, _, rfl⟩

/-- What is remembered of a completion of the engine. -/
def State.observe (s : State) : Option Completion → List Observation
  | some (.promoted p stream error) =>
    [.reported p.result p.cookie.ticket stream error (s.target? p.result).isSome]
  | some (.row cookie row) => [.answered cookie.ticket row]
  | some (.closed _) => []
  | none => []

namespace Moment

/-- The moment with another session. -/
def having (m : Moment) (state : State) : Moment :=
  { m with state }

/-- A query was handed over to the engine, with what came of it. A refused query may have had its
callback registered. -/
def submitted (m : Moment) (executor : Option Nat) (i : Nat) (callback : Callback) :
    Except Error (Nat × Operation) × State → Moment
  | (.ok (r, operation), state) =>
    { state
      call := .attaching executor r operation
      callbacks := m.callbacks ++ [callback]
      history := m.history ++ [.accepted i operation r m.state.host.issued] }
  | (.error _, state) =>
    if state.host.issued = m.state.host.issued then m.having state
    else
      { m with
        state
        callbacks := m.callbacks ++ [callback]
        history := m.history ++ [.refused m.state.host.issued] }

/-- A query result is asked for its next row. A stopped loop answers on the spot. -/
def next (m : Moment) (r : Nat) (callback : Callback) : Moment :=
  let stream := (m.state.target? r).bind Target.stream?
  let cookie := (m.state.host.register rowLabel callback).1
  let completion := stream.bind fun i => (m.state.engine.pull i cookie).1
  { m with
    state := m.state.nextRow r callback
    callbacks := m.callbacks ++ [callback]
    history := m.history ++ .asked r m.state.host.issued stream :: m.state.observe completion }

/-- The host begins a call. -/
def act (m : Moment) : Deed → Moment
  | .connector => m.having { m.state with engine := m.state.engine.addConnector.2 }
  | .respond c response =>
    if c < m.state.engine.connectors.length then
      { m with
        state := { m.state with engine := m.state.engine.respond c response }
        history := m.history ++ [.pushed c response] }
    else m
  | .create c options => m.having (m.state.create (.memory c) options).2
  | .query i request name =>
    m.submitted none i (.promotion name false) (m.state.submit i request (.promotion name false))
  | .next r name => m.next r (.row name none)
  | .cancel r =>
    match m.state.grasp r with
    | none => m
    | some target => { m with call := .cancelling none r target }
  | .dropResult r => m.having (m.state.dropResult r)
  | .executor => m.having { m.state with executors := m.state.executors ++ [{}] }
  | .executorQuery e i request name =>
    m.submitted (some e) i (.promotion name true) (m.state.executorSubmit e i request name)
  | .executorNext e name =>
    match m.state.executors[e]?.bind Executor.result with
    | none => m.having (m.state.executorNext e name).2
    | some r => m.next r (.row name (some e))
  | .executorAbort e =>
    match m.state.executors[e]?.bind Executor.result, m.state.executorGrasp e with
    | some r, some target => { m with call := .cancelling (some e) r target }
    | _, _ => m
  | .dropExecutor e => m.having (m.state.dropExecutor e)
  | .destroy i => m.having (m.state.destroy i).2
  | .dropConnection i => m.having (m.state.dropConnection i)
  | .dispatch => m.having m.state.dispatch.2

/-- The host goes on with what it is in the middle of. -/
def resume (m : Moment) : Moment :=
  match m.call with
  | .idle => m
  | .attaching none r operation =>
    { m with state := m.state.attach r operation, call := .idle }
  | .attaching (some e) r operation =>
    { m with state := m.state.executorAttach e r operation, call := .idle }
  | .cancelling none r target =>
    { m with
      state := m.state.strike target
      call := .idle
      history := m.history ++ [.cancelled r target] }
  | .cancelling (some e) r target =>
    { m with
      state := m.state.executorStrike e target
      call := .idle
      history := m.history ++ [.cancelled r target] }

/-- One event. An event that cannot happen changes nothing. -/
def perform (m : Moment) : Event → Moment
  | .act deed =>
    match m.call with
    | .idle => m.act deed
    | _ => m
  | .resume => m.resume
  | .turn l =>
    { m with
      state := m.state.turn l
      history := m.history ++ m.state.glimpse l ++ m.state.observe (m.state.engine.turn l).1 }
  | .elapse l key =>
    match (m.state.engine.loop l).tasks.get? key with
    | some (.promote _ _ _ .armed _) =>
      m.having { m.state with engine := m.state.engine.elapse l key }
    | _ => m
  | .reap i => m.having (m.state.reap i)
  | .reapers fault => m.having { m.state with reaperFault := fault }

/-! ## Calls that nothing interrupts -/

section Uninterrupted

variable {m : Moment} (hidle : m.call = .idle)
include hidle

theorem state_submitted_resume (executor : Option Nat) (i : Nat) (callback : Callback)
    (submitted : Except Error (Nat × Operation) × State) :
    (m.submitted executor i callback submitted).resume.state =
      match submitted, executor with
      | (.error _, state), _ => state
      | (.ok (r, operation), state), none => state.attach r operation
      | (.ok (r, operation), state), some e => state.executorAttach e r operation := by
  obtain ⟨_ | ⟨r, operation⟩, state⟩ := submitted
  · simp only [Moment.submitted]
    split <;> simp [resume, having, hidle]
  · cases executor <;> rfl

/-- A query is submitted, and its result learns of the operation at once. -/
theorem state_query (i : Nat) (request : Request) (name : String) :
    ((m.perform (.act (.query i request name))).perform .resume).state =
      (m.state.query i request (.promotion name false)).2 := by
  simp only [perform, hidle, act, state_submitted_resume hidle, State.query]
  obtain ⟨_ | ⟨r, operation⟩, state⟩ := m.state.submit i request (.promotion name false) <;> rfl

theorem state_executorQuery (e i : Nat) (request : Request) (name : String) :
    ((m.perform (.act (.executorQuery e i request name))).perform .resume).state =
      (m.state.executorQuery e i request name).2 := by
  simp only [perform, hidle, act, state_submitted_resume hidle, State.executorQuery]
  obtain ⟨_ | ⟨r, operation⟩, state⟩ := m.state.executorSubmit e i request name <;> rfl

/-- A cancellation strikes at once, and it is remembered exactly if the answer is that it was
successful. -/
theorem state_cancel (r : Nat) :
    ((m.perform (.act (.cancel r))).perform .resume).state = (m.state.cancel r).2 ∧
      ((m.perform (.act (.cancel r))).perform .resume).history = m.history ++
        if (m.state.cancel r).1 then [.cancelled r ((m.state.grasp r).getD .empty)] else [] := by
  cases htarget : m.state.grasp r <;> simp [perform, hidle, act, State.cancel, htarget, resume]

end Uninterrupted

end Moment

/-- The moment after a run. -/
def run (events : List Event) : Moment :=
  events.foldl Moment.perform {}

end HostBridge.Session
