import HostBridge.Proofs.Bridge.Ownership
import HostBridge.Proofs.Session.Run
import Mathlib.Logic.Relation

/-!
# What one step of a run can do

`Step` lists everything that can happen in a run, move by move, each with the moment it leads to.
Entries in the log and the bookkeeping of executors are a move of their own, so that an event is a
few moves in a row. `steps_perform` takes an event apart into moves, and an invariant of a run needs
to be shown for the moves only.

That an event is nothing but such moves needs some facts about the moment, gathered in `Footing`:
above all that a message finds its callback, and that the loop of a running instance takes tasks.
-/

namespace HostBridge.Session

open Bridge (Cookie Entry Host Message)

/-- The notice says that a call found no callback, or one of another kind. -/
def isFault : Log.Notice → Bool
  | .callbackMissing .. | .callbackMismatched _ => true
  | _ => false

/-- The occurrence concerns no callback that has a ticket, and is no fault. -/
def Occurrence.isIdle : Occurrence → Bool
  | .logged notice => !isFault notice
  | .dropped none _ => true
  | _ => false

/-- What happens to a callback that is told something, if it is of the right kind. -/
def hear (e : Entry Callback) : Work → Option Occurrence
  | .promoted error =>
    match e.callback with
    | .promotion name hidesCancel =>
      some (.promoted e.ticket name
        (if hidesCancel then error.filter fun e => !e.isCanceled else error))
    | .row .. => none
  | .row row =>
    match e.callback with
    | .row name _ => some (.row e.ticket name row.marshal.1 row.marshal.2)
    | .promotion .. => none
  | .failed error =>
    match e.callback with
    | .row name _ => some (.row e.ticket name none (some error))
    | .promotion .. => none

/-- What becomes of a closing instance when its cluster is closed. -/
inductive Instance.Shuts (x : Instance) : Instance → Prop
  /-- A reaper takes over. -/
  | reaper (hclosing : x.state = .closingNetwork) :
      Shuts x { x with state := .joiningThread, reaper := .started }
  /-- There is no reaper, and everything is let go at once. -/
  | detached (hclosing : x.state = .closingNetwork) :
      Shuts x { x with state := .joiningThread }.detach

namespace Instance.Shuts

variable {x y : Instance}

theorem closing (h : x.Shuts y) : x.state = .closingNetwork := by
  cases h <;> assumption

/-- The instance is on its way out with the same connector and on the same loop. -/
theorem spec (h : x.Shuts y) : y.connector = x.connector ∧ y.loop = x.loop ∧
    (y.state = .joiningThread ∨ y.state = .destroyed) := by
  cases h with
  | reaper => exact ⟨rfl, rfl, Or.inl rfl⟩
  | detached => exact ⟨rfl, rfl, Or.inr rfl⟩

theorem state_ne_running (h : x.Shuts y) : y.state ≠ .running := by
  rcases h.spec.2.2 with hs | hs <;> simp [hs]

end Instance.Shuts

namespace Moment

/-- The cookie of a callback that is registered next. -/
def nextCookie (m : Moment) (label : String) (callback : Callback) : Cookie :=
  (m.state.host.register label callback).1

/-- The moves of a run. -/
inductive Step (m : Moment) : Moment → Prop
  /-- Something is logged, a callback is dropped before it gets a ticket, an executor changes, or the
  operating system changes its mind about reapers. -/
  | note {os : List Occurrence} {executors : List Executor} {reaperFault : Option String}
      (hos : ∀ o ∈ os, o.isIdle = true) :
      Step m (m.having { m.state with trace := os ++ m.state.trace, executors, reaperFault })
  /-- A cancellation finds what its result refers to. -/
  | grasp {e : Option Nat} {r : Nat} {target : Target} (htarget : m.state.grasp r = some target) :
      Step m { m with call := .cancelling e r target }
  /-- A query result learns of the operation of its query. -/
  | attach {e : Option Nat} {r : Nat} {operation : Operation}
      (hcall : m.call = .attaching e r operation) :
      Step m { m with
        state := m.state.modifyResult r fun q => { q with target := q.target.setOperation operation }
        call := .idle }
  /-- A query result is dropped. -/
  | letGo (r : Nat) : Step m (m.having (m.state.dropResult r))
  /-- A connector is made. -/
  | connector : Step m (m.having { m.state with engine := m.state.engine.addConnector.2 })
  /-- A response is queued. -/
  | respond {c : Nat} {response : Engine.Response} (hc : c < m.state.engine.connectors.length) :
      Step m { m with
        state := { m.state with engine := m.state.engine.respond c response }
        history := m.history ++ [.pushed c response] }
  /-- A connection is created. -/
  | create (c : Nat) :
      Step m (m.having { m.state with
        engine := m.state.engine.addLoop.2
        instances := m.state.instances ++
          [{ connector := .memory c, loop := m.state.engine.workers.length }] })
  /-- A query is refused by the engine. -/
  | refuse (name : String) (hides : Bool) :
      Step m { m with
        state := { m.state with
          host := (m.state.host.register queryLabel (.promotion name hides)).2.release
            (m.nextCookie queryLabel (.promotion name hides))
          results := m.state.results ++ [{ alive := false }] }
        callbacks := m.callbacks ++ [.promotion name hides]
        history := m.history ++ [.refused m.state.host.issued] }
  /-- A query is accepted. -/
  | accept {e : Option Nat} {i c : Nat} {x : Instance} {request : Request} {name : String}
      {hides : Bool} {response : Engine.Response} {responses : List Engine.Response}
      (hx : m.state.instances[i]? = some x) (hrunning : x.state = .running)
      (hc : x.connector = .memory c)
      (hresponses : (m.state.engine.connector c).responses = response :: responses) :
      Step m
        { state := { m.state with
            host := (m.state.host.register queryLabel (.promotion name hides)).2
            engine := (m.state.engine.accepting c request responses).spawned i
              (.promote c (m.state.engine.connector c).operations.length response .fresh
                ⟨m.state.results.length, m.nextCookie queryLabel (.promotion name hides)⟩)
            results := m.state.results ++ [{}] }
          call := .attaching e m.state.results.length
            (.memory c (m.state.engine.connector c).operations.length)
          callbacks := m.callbacks ++ [.promotion name hides]
          history := m.history ++ [.accepted i
            (.memory c (m.state.engine.connector c).operations.length)
            m.state.results.length m.state.host.issued] }
  /-- A result without a stream is asked for a row. -/
  | askEarly {r : Nat} {name : String} {e : Option Nat}
      (htarget : (m.state.target? r).bind Target.stream? = none) :
      Step m { m with
        state := { m.state with
          host := ((m.state.host.register rowLabel (.row name e)).2.invoke
            (m.nextCookie rowLabel (.row name e)) (.failed .resultNotStarted)).2 }
        callbacks := m.callbacks ++ [.row name e]
        history := m.history ++ [.asked r m.state.host.issued none] }
  /-- A result with a stream is asked for a row. -/
  | ask {r i : Nat} {x : Engine.Stream} {name : String} {e : Option Nat}
      (htarget : m.state.target? r = some (.active i)) (hx : m.state.engine.stream? i = some x)
      (hstop : (m.state.engine.loop x.loop).stopping = false) :
      Step m { m with
        state := { m.state with
          host := (m.state.host.register rowLabel (.row name e)).2
          engine := m.state.engine.spawned x.loop (.pull i (m.nextCookie rowLabel (.row name e))) }
        callbacks := m.callbacks ++ [.row name e]
        history := m.history ++ [.asked r m.state.host.issued (some i)] }
  /-- A result whose loop was stopped is asked for a row. -/
  | askLate {r i : Nat} {x : Engine.Stream} {name : String} {e : Option Nat}
      (htarget : m.state.target? r = some (.active i)) (hx : m.state.engine.stream? i = some x)
      (hstop : (m.state.engine.loop x.loop).stopping = true) :
      Step m { m with
        state := { m.state with
          host := ((m.state.host.register rowLabel (.row name e)).2.invoke
            (m.nextCookie rowLabel (.row name e)) (.row (.failed .clusterClosed))).2 }
        callbacks := m.callbacks ++ [.row name e]
        history := m.history ++ [.asked r m.state.host.issued (some i),
          .answered m.state.host.issued (.failed .clusterClosed)] }
  /-- A cancellation strikes the operation that it has found. -/
  | strikeOperation {e : Option Nat} {r c o : Nat}
      (hcall : m.call = .cancelling e r (.pending (.memory c o))) :
      Step m { m with
        state := { m.state with engine := m.state.engine.cancelOperation c o }
        call := .idle
        history := m.history ++ [.cancelled r (.pending (.memory c o))] }
  /-- A cancellation strikes the stream that it has found. -/
  | strikeStream {e : Option Nat} {r i : Nat} (hcall : m.call = .cancelling e r (.active i)) :
      Step m { m with
        state := { m.state with engine := m.state.engine.cancelStream i }
        call := .idle
        history := m.history ++ [.cancelled r (.active i)] }
  /-- A running instance is asked to shut down. -/
  | close {i c : Nat} {x : Instance} (hx : m.state.instances[i]? = some x)
      (hrunning : x.state = .running) (hc : x.connector = .memory c) :
      Step m (m.having { m.state with
        instances := m.state.instances.modify i fun _ => { x with state := .closingNetwork }
        engine := (m.state.engine.closing c).spawned i (.close i) })
  /-- A callback is told something. -/
  | tell {key ticket : Nat} {label : String} {work : Work} {rest : List (Message Work)}
      {e : Entry Callback} {o : Occurrence}
      (hqueue : m.state.host.queue = .call key label ticket work :: rest)
      (he : m.state.host.registry.get? key = some e) (hticket : e.ticket = ticket)
      (ho : hear e work = some o) :
      Step m (m.having { m.state with
        host := { m.state.host with
          queue := rest, registry := (m.state.host.registry.remove key).2 }
        trace := o :: m.state.trace })
  /-- A callback is dropped untold. -/
  | drop {key ticket : Nat} {label : String} {rest : List (Message Work)} {e : Entry Callback}
      (hqueue : m.state.host.queue = .release key label ticket :: rest)
      (he : m.state.host.registry.get? key = some e) (hticket : e.ticket = ticket) :
      Step m (m.having { m.state with
        host := { m.state.host with
          queue := rest, registry := (m.state.host.registry.remove key).2 }
        trace := .dropped (some e.ticket) e.callback.name :: m.state.trace })
  /-- The thread of a loop looks at its signals. -/
  | look {l : Nat} (hmust : (m.state.engine.worker l).mustLook = true) :
      Step m (m.having { m.state with engine := m.state.engine.looked l })
  /-- A promotion waits for its delay. -/
  | sleep {l key c o : Nat} {keys : List Nat} {response : Engine.Response} {timer : Engine.Timer}
      {p : Promotion} (hready : (m.state.engine.loop l).ready = key :: keys)
      (htask : (m.state.engine.loop l).tasks.get? key = some (.promote c o response timer p))
      (hcancelled : m.state.engine.isCancelled c o = false)
      (hfound : (m.state.engine.worker l).found = none) :
      Step m (m.having { m.state with
        engine := m.state.engine.slept l key (.promote c o response .armed p) })
  /-- A promotion or a pull looks whether it was cancelled. -/
  | check {l key : Nat} {keys : List Nat} {t : Task} {cookie : Cookie} {cancelled : Bool}
      (hready : (m.state.engine.loop l).ready = key :: keys)
      (htask : (m.state.engine.loop l).tasks.get? key = some t)
      (hchecks : m.state.engine.Checks t cancelled)
      (hfound : (m.state.engine.worker l).found = none) (hcookie : cookie? t = some cookie) :
      Step m { m with
        state := { m.state with engine := m.state.engine.checked l cancelled }
        history := m.history ++ [.checked cookie.ticket cancelled] }
  /-- A pull takes its row. -/
  | draw {l key i : Nat} {keys : List Nat} {cookie : Cookie} {cancelled : Bool}
      (hready : (m.state.engine.loop l).ready = key :: keys)
      (htask : m.state.engine.job? l key = some (.pull i cookie))
      (hfound : (m.state.engine.worker l).found = some (.flag cancelled)) :
      Step m (m.having { m.state with engine := m.state.engine.drawn l i cancelled })
  /-- The delay of a promotion is over. -/
  | elapse {l key c o : Nat} {response : Engine.Response} {p : Promotion}
      (harmed : (m.state.engine.loop l).tasks.get? key = some (.promote c o response .armed p)) :
      Step m (m.having { m.state with engine := m.state.engine.elapse l key })
  /-- A promotion is reported to a result that is still held. -/
  | report {l key c o : Nat} {keys : List Nat} {response : Engine.Response} {p : Promotion}
      {stream : Option Nat} {error : Option EngineError}
      {engine : Engine.State Promotion Cookie Nat} {target : Target}
      (hready : (m.state.engine.loop l).ready = key :: keys)
      (htask : m.state.engine.job? l key = some (.promote c o response .fresh p))
      (hsettled : m.state.engine.Settled l key c response stream error engine)
      (htarget : m.state.target? p.result = some target) :
      Step m { m with
        state := { m.state with
          engine
          host := (m.state.host.invoke p.cookie (.promoted (error.map Error.engine))).2
          results := m.state.results.modify p.result fun q =>
            { q with target := (stream.map Target.active).getD q.target } }
        history := m.history ++ [.reported p.result p.cookie.ticket stream error true] }
  /-- A promotion is reported that nobody waits for. -/
  | reportLost {l key c o : Nat} {keys : List Nat} {response : Engine.Response} {p : Promotion}
      {stream : Option Nat} {error : Option EngineError}
      {engine : Engine.State Promotion Cookie Nat}
      (hready : (m.state.engine.loop l).ready = key :: keys)
      (htask : m.state.engine.job? l key = some (.promote c o response .fresh p))
      (hsettled : m.state.engine.Settled l key c response stream error engine)
      (htarget : m.state.target? p.result = none) :
      Step m { m with
        state := { m.state with engine, host := m.state.host.release p.cookie }
        history := m.history ++ [.reported p.result p.cookie.ticket stream error false] }
  /-- A pull is answered. -/
  | answer {l key i : Nat} {keys : List Nat} {cookie : Cookie} {row : Row}
      (hready : (m.state.engine.loop l).ready = key :: keys)
      (htask : m.state.engine.job? l key = some (.pull i cookie))
      (hfound : (m.state.engine.worker l).found = some (.row row)) :
      Step m { m with
        state := { m.state with
          engine := m.state.engine.finished l key
          host := (m.state.host.invoke cookie (.row row)).2 }
        history := m.history ++ [.answered cookie.ticket row] }
  /-- A cluster is closed: the loop of its instance is stopped, and a reaper takes over or everything
  is let go. -/
  | shut {l key i : Nat} {keys : List Nat} {x y : Instance}
      (hready : (m.state.engine.loop l).ready = key :: keys)
      (htask : m.state.engine.job? l key = some (.close i))
      (hx : m.state.instances[i]? = some x) (hshuts : x.Shuts y) :
      Step m (m.having { m.state with
        engine := (m.state.engine.finished l key).stop x.loop
        instances := m.state.instances.modify i fun _ => y })
  /-- A cluster is closed that nobody closed. -/
  | stray {l key i : Nat} {keys : List Nat} (hready : (m.state.engine.loop l).ready = key :: keys)
      (htask : m.state.engine.job? l key = some (.close i)) :
      Step m (m.having { m.state with engine := m.state.engine.finished l key })
  /-- The reaper of an instance takes a step. -/
  | reap {i : Nat} {x : Instance} (hx : m.state.instances[i]? = some x) :
      Step m (m.having { m.state with
        instances := m.state.instances.modify i fun _ => x.reap (m.state.threadEnded x.loop) })

/-- Moves in a row. -/
abbrev Steps : Moment → Moment → Prop :=
  Relation.ReflTransGen Step

/-- What has to hold for an event to be nothing but moves. -/
structure Footing (m : Moment) : Prop where
  /-- Ready tasks are there. -/
  sound : m.state.engine.Sound
  /-- The host is open. -/
  opened : m.state.host.closed = false
  /-- A running instance has its engine, which is in memory, and its loop takes tasks. -/
  running : ∀ i x, m.state.instances[i]? = some x → x.state = .running →
    x.hasEngine = true ∧ x.loop = i ∧ (∃ c, x.connector = .memory c) ∧
      (m.state.engine.loop i).stopping = false
  /-- Only operations in memory are cancelled. -/
  operation : ∀ e r operation, m.call = .cancelling e r (.pending operation) →
    ∃ c o, operation = .memory c o
  /-- What a cancellation has found is not nothing. -/
  target : ∀ e r, m.call ≠ .cancelling e r .empty
  /-- The stream of a result is there. -/
  stream : ∀ r i, m.state.target? r = some (.active i) → ∃ x, m.state.engine.stream? i = some x
  /-- No thread is held up. -/
  unparked : ∀ l key, m.state.engine.job? l key ≠ some .park
  /-- The oldest message finds its callback, which is of the right kind. -/
  message : ∀ message rest, m.state.host.queue = message :: rest →
    ∃ e, m.state.host.registry.get? message.key = some e ∧ e.ticket = message.ticket ∧
      ∀ work, message.work? = some work → ∃ o, hear e work = some o

end Moment

/-! ## Parts of events -/

namespace State

variable {s : State}

theorem note_host (s : State) (ns : List Log.Notice) :
    s.note .host ns = { s with trace := (ns.map .logged).reverse ++ s.trace } := by
  suffices h : ∀ s : State, ns.foldl (fun s n => s.record (.logged n)) s =
      { s with trace := (ns.map .logged).reverse ++ s.trace } from h s
  induction ns with
  | nil => exact fun s => rfl
  | cons n ns ih =>
    intro s
    rw [List.foldl_cons, ih]
    simp [record]

/-- Only the host and its log change. -/
def Aside (s s' : State) : Prop :=
  ∃ host trace, s' = { s with host, trace }

theorem Aside.trans {s' s'' : State} (h : Aside s s') (h' : Aside s' s'') : Aside s s'' := by
  obtain ⟨_, _, rfl⟩ := h
  obtain ⟨host, trace, rfl⟩ := h'
  exact ⟨host, trace, rfl⟩

theorem aside_note (s : State) (place : Place) (ns : List Log.Notice) :
    Aside s (s.note place ns) := by
  cases place with
  | host =>
    rw [note_host]
    exact ⟨_, _, rfl⟩
  | loop => exact ⟨_, _, rfl⟩

theorem aside_register (s : State) (label : String) (callback : Callback) :
    Aside s (s.register label callback).2 := by
  have hhost : Aside s { s with host := (s.host.register label callback).2 } := ⟨_, _, rfl⟩
  simp only [register]
  split
  · exact hhost.trans (aside_note _ _ _)
  · exact (hhost.trans (aside_note _ _ _)).trans ⟨_, _, rfl⟩

theorem aside_invoke (s : State) (place : Place) (cookie : Cookie) (work : Work) :
    Aside s (s.invoke place cookie work) := by
  have hhost : Aside s { s with host := (s.host.invoke cookie work).2 } := ⟨_, _, rfl⟩
  simp only [invoke]
  split
  · exact hhost
  · exact hhost.trans (aside_note _ _ _)

/-- An open host keeps a callback that is registered. -/
theorem register_eq (hopen : s.host.closed = false) (label : String) (callback : Callback) :
    ∃ key, s.register label callback = ((s.host.register label callback).1,
      { s with
        host := (s.host.register label callback).2
        trace := .logged (.callbackRegistered label key) :: s.trace }) := by
  refine ⟨(s.host.registry.insert ⟨s.host.issued, callback⟩).1, ?_⟩
  simp [register, Host.register, hopen, Cookie.isArmed, Cookie.registered, note_host]

/-- An open host refuses no call. -/
theorem invoke_eq (hopen : s.host.closed = false) (place : Place) (cookie : Cookie) (work : Work) :
    s.invoke place cookie work = { s with host := (s.host.invoke cookie work).2 } := by
  cases hk : cookie.key with
  | none =>
    have hrefused : cookie.refused = [] := by simp [Cookie.refused, Cookie.isArmed, hk]
    cases place <;> simp [invoke, Host.invoke, hk, hrefused, note]
  | some key => simp [invoke, Host.invoke_of_key hopen hk]

/-- A callback of the right kind is told something. -/
theorem tell_eq {e : Entry Callback} {work : Work} {o : Occurrence} (ho : hear e work = some o)
    (label : String) : ∃ executors, s.tell label e work =
      { s with trace := o :: s.trace, executors } := by
  have hrow : ∀ answer name executor, e.callback = .row name executor →
      ∃ executors, s.tellRow label e answer =
        { s with trace := .row e.ticket name answer.1 answer.2 :: s.trace, executors } := by
    intro answer name executor he
    simp only [tellRow, he]
    split
    · exact ⟨_, rfl⟩
    · exact ⟨_, rfl⟩
  cases work with
  | promoted error =>
    simp only [hear] at ho
    split at ho
    · next name hides he =>
      obtain rfl := Option.some.inj ho
      exact ⟨s.executors, by simp [tell, he, record]⟩
    · cases ho
  | row row =>
    simp only [hear] at ho
    split at ho
    · next name executor he =>
      obtain rfl := Option.some.inj ho
      exact hrow row.marshal name executor he
    · cases ho
  | failed error =>
    simp only [hear] at ho
    split at ho
    · next name executor he =>
      obtain rfl := Option.some.inj ho
      exact hrow (none, some error) name executor he
    · cases ho

end State

end HostBridge.Session
