import HostBridge.Proofs.Engine.Effect
import HostBridge.Proofs.Engine.Progress
import HostBridge.Proofs.Engine.Run

/-!
# What one event of a run can do

`Step` lists the moves of a run, each with the event that causes it and the moment it leads to. A
request is a move in two parts: the engine takes note of it (`Asks`), and the loop takes its task or
refuses it. A turn is a look at the signals, or a task that goes to sleep or goes on a step, or a task
that comes to its end (`Finishes`).

That an event is one of these moves needs some facts about the moment, gathered in `Orderly`: above
all that every task of a loop was handed to it. A thread that has ended leaves only tasks behind that
have slept for a delay.
-/

namespace HostBridge.Engine

/-- The task has gone to sleep, for a delay that takes some time. -/
def Task.Slept : Errand → Prop
  | .promote _ _ response timer _ => timer ≠ .fresh ∧ ∃ ms, response.delay = some ms ∧ ms ≠ 0
  | _ => False

/-- The task is one that a request can hand to a loop. -/
def Task.Proper : Errand → Prop
  | .promote _ _ _ timer _ => timer = .fresh
  | .pull i reply => reply.stream = i
  | .close _ => True
  | .park => False

theorem Task.Proper.isSome {t : Errand} (h : t.Proper) : t.ticket?.isSome := by
  cases t with
  | promote | pull | close => rfl
  | park => exact h.elim

theorem Task.Proper.untimed {t : Errand} (h : t.Proper) : t.untimed = t := by
  cases t with
  | promote c o response timer ticket =>
    obtain rfl : timer = .fresh := h
    rfl
  | pull | close | park => rfl

theorem Task.ticket?_untimed (t : Errand) : Task.ticket? t.untimed = t.ticket? := by
  cases t <;> rfl

/-! ## A task comes to its end -/

namespace State

variable {π ρ κ : Type} {s s' : State π ρ κ} {l key : Nat} {t : Task π ρ κ} {x : Completion π ρ κ}

/-- How the task in front of a loop comes to its end, and what it reports. -/
inductive Finishes (s : State π ρ κ) (l key : Nat) :
    Task π ρ κ → Completion π ρ κ → State π ρ κ → Prop
  /-- A promotion comes to its end. -/
  | promote {c o : Nat} {response : Response} {timer : Timer} {reply : π} {stream : Option Nat}
      {error : Option EngineError} {s' : State π ρ κ}
      (hsettled : Settled s l key c response stream error s') :
      Finishes s l key (.promote c o response timer reply) (.promoted reply stream error) s'
  /-- A pull is answered. -/
  | pull {i : Nat} {reply : ρ} {row : Row} (hfound : (s.worker l).found = some (.row row)) :
      Finishes s l key (.pull i reply) (.row reply row) (s.finished l key)
  /-- The end of a cluster is reported. -/
  | close {reply : κ} : Finishes s l key (.close reply) (.closed reply) (s.finished l key)

namespace Finishes

theorem workers (h : Finishes s l key t x s') : s'.workers = (s.finished l key).workers := by
  cases h with
  | promote hsettled => exact hsettled.workers
  | pull | close => rfl

theorem operations (h : Finishes s l key t x s') (c : Nat) :
    (s'.connector c).operations = (s.connector c).operations := by
  cases h with
  | promote hsettled => exact (hsettled.connector c).2
  | pull | close => rfl

theorem isCancelled (h : Finishes s l key t x s') (c o : Nat) :
    s'.isCancelled c o = s.isCancelled c o := by
  rw [State.isCancelled, State.isCancelled, h.operations]

theorem grows (h : Finishes s l key t x s') : s.Grows s' := by
  cases h with
  | promote hsettled => exact .settled hsettled
  | pull | close => exact .of_eq rfl rfl

theorem isStreamCancelled (h : Finishes s l key t x s') {i : Nat}
    (hi : s.isStreamCancelled i = true) : s'.isStreamCancelled i = true :=
  h.grows.isStreamCancelled hi

theorem sound (h : Finishes s l key t x s') (hsound : s.Sound)
    (hfront : s.front? l = some (key, t)) : s'.Sound := by
  obtain ⟨-, rest, hready, -⟩ := front?_eq_some.mp hfront
  exact (hsound.finished hready).congr h.workers h.isCancelled fun _ => h.isStreamCancelled

theorem loop (h : Finishes s l key t x s') (k : Nat) :
    s'.loop k = (s.finished l key).loop k := by
  rw [State.loop, State.loop, worker, worker, h.workers]

end Finishes

theorem Grows.addStream (s : State π ρ κ) (x : Stream) : Grows s (s.addStream x).2 where
  operations _ := Nat.le_refl _
  cancelled _ _ h := h
  streams i y hy := by
    refine ⟨y, ?_, rfl, id⟩
    exact (List.getElem?_append_left (List.getElem?_eq_some_iff.mp hy).1).trans hy

end State

namespace Moment

variable {m m' : Moment} {e : Event} {l key : Nat}

/-- A promotion that goes to sleep stays what it is, but for its timer. -/
theorem sameJobs_of_front? {c o : Nat} {response : Response} {timer : Timer} {ticket : Nat}
    (hfront : m.engine.front? l = some (key, .promote c o response timer ticket)) :
    m.engine.SameJobs (m.engine.slept l key (.promote c o response .armed ticket)) :=
  State.sameJobs_slept (State.lt_of_front? hfront)
    ((State.job?_of_front? hfront).trans rfl)

/-! ## Requests -/

/-- A request: the engine takes note of it and hands a task to a loop. -/
inductive Asks (m : Moment) : Event → State Nat Pull Nat → Nat → Errand → Prop
  /-- A query takes its response. -/
  | execute {c l : Nat} {request : Request} {response : Response} {responses : List Response}
      (hl : l < m.engine.workers.length)
      (hresponses : (m.engine.connector c).responses = response :: responses) :
      Asks m (.execute c l request) (m.engine.accepting c request responses) l
        (.promote c (m.engine.connector c).operations.length response .fresh m.issued)
  /-- A stream is asked for a row. -/
  | pull {i : Nat} {x : Stream} (hl : x.loop < m.engine.workers.length)
      (hx : m.engine.stream? i = some x) :
      Asks m (.pull i) m.engine x.loop (.pull i ⟨i, m.issued⟩)
  /-- A cluster is closed. -/
  | close {c l : Nat} (hl : l < m.engine.workers.length) :
      Asks m (.close c l) (m.engine.closing c) l (.close m.issued)
  /-- A cluster whose operations were given up is closed. -/
  | announce {l : Nat} (hl : l < m.engine.workers.length) :
      Asks m (.announce l) m.engine l (.close m.issued)

namespace Asks

variable {s : State Nat Pull Nat} {t : Errand}

theorem lt (h : m.Asks e s l t) : l < m.engine.workers.length := by
  cases h with
  | execute hl | pull hl | close hl | announce hl => exact hl

theorem ticket (h : m.Asks e s l t) : t.ticket? = some m.issued := by
  cases h <;> rfl

theorem proper (h : m.Asks e s l t) : t.Proper := by
  cases h with
  | execute | pull => rfl
  | close | announce => trivial

/-- What a request does before the loop is handed its task adds nothing to any loop. -/
theorem shifts (h : m.Asks e s l t) : m.engine.Shifts s [] := by
  cases h with
  | execute | pull | announce => exact .of_workers rfl
  | close => exact .of_woken (m.engine.woken_closing _)

theorem tasks (h : m.Asks e s l t) (k : Nat) : (s.loop k).tasks = (m.engine.loop k).tasks := by
  cases h with
  | execute | pull | announce => rfl
  | close => exact (m.engine.woken_closing _).tasks k

theorem sameJobs (h : m.Asks e s l t) : m.engine.SameJobs s :=
  .of_tasks h.shifts.length h.tasks

theorem sound (h : m.Asks e s l t) (hsound : m.engine.Sound) : s.Sound := by
  cases h with
  | execute => exact hsound.accepting _ _
  | pull | announce => exact hsound
  | close => exact hsound.closing _

theorem grows (h : m.Asks e s l t) : m.engine.Grows s := by
  cases h with
  | execute => exact .accepting _ _
  | pull | announce => exact .refl _
  | close => exact .of_woken (m.engine.woken_closing _)

theorem ready (h : m.Asks e s l t) (k : Nat) :
    ∃ extra, (s.loop k).ready = (m.engine.loop k).ready ++ extra := by
  cases h with
  | execute | pull | announce => exact ⟨[], (List.append_nil _).symm⟩
  | @close c =>
    obtain ⟨extra, hworker, -⟩ := (m.engine.woken_closing c).worker k
    exact ⟨extra, by rw [State.loop, hworker]⟩

theorem found (h : m.Asks e s l t) (k : Nat) :
    (s.worker k).found = (m.engine.worker k).found := by
  cases h with
  | execute | pull | announce => rfl
  | @close c =>
    obtain ⟨extra, hworker, -⟩ := (m.engine.woken_closing c).worker k
    rw [hworker]

theorem streams (h : m.Asks e s l t) : s.streams = m.engine.streams := by
  cases h with
  | execute | pull | announce => rfl
  | close => exact (m.engine.woken_closing _).streams

end Asks

/-! ## Cancellations -/

/-- What the engine does when operations are cancelled, or when somebody begins to cancel them. -/
inductive Cancels (m : Moment) : Event → State Nat Pull Nat → Prop
  /-- An operation is cancelled on request. -/
  | request {c o : Nat} : Cancels m (.cancelOperation c o) (m.engine.cancelOperation c o)
  /-- Somebody begins to close a cluster. -/
  | closing {c : Nat} : Cancels m (.closing c) (m.engine.counted c)
  /-- Somebody who closes a cluster gives up an operation. -/
  | abandon {c o : Nat} : Cancels m (.abandon c o) (m.engine.abandon c o)

namespace Cancels

variable {s : State Nat Pull Nat}

theorem woken (h : m.Cancels e s) : m.engine.Woken s := by
  cases h with
  | request => exact State.woken_cancelOperation _ _ _
  | closing => exact State.woken_counted _ _
  | abandon => exact State.woken_abandon _ _ _

theorem sound (h : m.Cancels e s) (hsound : m.engine.Sound) : s.Sound := by
  cases h with
  | request => exact hsound.cancelOperation _ _
  | closing => exact hsound.counted _
  | abandon => exact hsound.abandon _ _

end Cancels

/-! ## Moves -/

/-- The moves of a run. -/
inductive Step (m : Moment) : Event → Moment → Prop
  /-- The event cannot happen. -/
  | idle {e : Event} : Step m e m
  /-- A connector is made. -/
  | connector : Step m .connector (m.having m.engine.addConnector.2)
  /-- A loop is made. -/
  | loop : Step m .loop (m.having m.engine.addLoop.2)
  /-- A response is queued. -/
  | respond {c : Nat} {response : Response} :
      Step m (.respond c response) (m.having (m.engine.respond c response))
  /-- A stream is made. -/
  | stream {l : Nat} {rows : List Row} {metadata : Metadata} (hl : l < m.engine.workers.length) :
      Step m (.stream l rows metadata) (m.having (m.engine.addStream (.ofRows l rows metadata)).2)
  /-- Operations are cancelled, and the tasks that sleep for them are woken. -/
  | cancel {e : Event} {s : State Nat Pull Nat} (hcancels : m.Cancels e s) : Step m e (m.having s)
  /-- A stream is cancelled. -/
  | cancelStream {i : Nat} : Step m (.cancelStream i)
      { m with engine := m.engine.cancelStream i, history := m.history ++ [.cancelled i] }
  /-- A loop is asked to stop. -/
  | stop {l : Nat} : Step m (.stop l) (m.having (m.engine.stop l))
  /-- A loop takes a task. -/
  | take {e : Event} {s : State Nat Pull Nat} {l : Nat} {t : Errand} (hasks : m.Asks e s l t)
      (hstop : (m.engine.loop l).stopping = false) :
      Step m e ⟨s.spawned l t, m.issued + 1, m.history ++ [.submitted l t]⟩
  /-- A loop refuses a task. -/
  | refuse {e : Event} {s : State Nat Pull Nat} {l : Nat} {t : Errand} {x : Report}
      (hasks : m.Asks e s l t) (hstop : (m.engine.loop l).stopping = true)
      (hx : t.abandoned? = some x) :
      Step m e ⟨s, m.issued + 1, m.history ++ [.submitted l t, .completed .host x]⟩
  /-- The thread of a loop looks at its signals. -/
  | look {l : Nat} (hmust : (m.engine.worker l).mustLook = true) :
      Step m (.turn l) (m.having (m.engine.looked l))
  /-- The task in front goes to sleep. -/
  | sleep {l key c o : Nat} {response : Response} {timer : Timer} {ticket : Nat}
      (hfront : m.engine.front? l = some (key, .promote c o response timer ticket))
      (hfound : (m.engine.worker l).found = none)
      (hsleep : m.engine.mustSleep c o response timer = true) :
      Step m (.turn l) (m.having (m.engine.slept l key (.promote c o response .armed ticket)))
  /-- The task in front looks whether it was cancelled. -/
  | check {l key : Nat} {t : Errand} {ticket : Nat} {cancelled : Bool}
      (hfront : m.engine.front? l = some (key, t)) (hfound : (m.engine.worker l).found = none)
      (hchecks : m.engine.Checks t cancelled) (hticket : t.ticket? = some ticket) :
      Step m (.turn l)
        { m with
          engine := m.engine.checked l cancelled
          history := m.history ++ [.checked ticket cancelled] }
  /-- The pull in front takes its row. -/
  | draw {l key i : Nat} {reply : Pull} {cancelled : Bool}
      (hfront : m.engine.front? l = some (key, .pull i reply))
      (hfound : (m.engine.worker l).found = some (.flag cancelled)) :
      Step m (.turn l) (m.having (m.engine.drawn l i cancelled))
  /-- The task in front comes to its end. -/
  | finish {l key : Nat} {t : Errand} {x : Report} {s : State Nat Pull Nat}
      (hfront : m.engine.front? l = some (key, t)) (hfinishes : m.engine.Finishes l key t x s) :
      Step m (.turn l) ⟨s, m.issued, m.history ++ [.completed .loop x]⟩
  /-- A delay is over. -/
  | elapse {l key c o : Nat} {response : Response} {ticket : Nat}
      (harmed : (m.engine.loop l).tasks.get? key = some (.promote c o response .armed ticket)) :
      Step m (.elapse l key) (m.having (m.engine.elapse l key))

/-- However the loop answers, a request is a move. -/
theorem Asks.step {s : State Nat Pull Nat} {t : Errand} (h : m.Asks e s l t) :
    m.Step e (m.handed l t (s.submit l t)) := by
  cases hstop : (m.engine.loop l).stopping with
  | false =>
    rw [State.submit_of_not_stopping ((h.shifts.stopping l).trans hstop)]
    exact .take h hstop
  | true =>
    obtain ⟨x, hx, -, -⟩ := t.abandoned?_eq h.proper.isSome
    rw [State.submit_of_stopping ((h.shifts.stopping l).trans hstop), hx]
    exact .refuse h hstop hx

/-! ## Moments in order -/

/-- What holds at every moment of a run. -/
structure Orderly (m : Moment) : Prop where
  /-- What is not ready sleeps, and is not cancelled. -/
  sound : m.engine.Sound
  /-- Every stream belongs to a loop. -/
  streams : ∀ i x, m.engine.stream? i = some x → x.loop < m.engine.workers.length
  /-- A thread serves until its loop is asked to stop. -/
  stages : ∀ l, (m.engine.worker l).stage ≠ .serving → (m.engine.loop l).stopping = true
  /-- Only requests hand tasks to loops. -/
  proper : ∀ l t, .submitted l t ∈ m.history → t.Proper
  /-- A promotion is that of an operation. -/
  operations : ∀ l c o response timer ticket,
    .submitted l (.promote c o response timer ticket) ∈ m.history →
      o < (m.engine.connector c).operations.length
  /-- A pull is handed to the loop of its stream. -/
  pulls : ∀ l i reply, .submitted l (.pull i reply) ∈ m.history →
    ∃ x, m.engine.stream? i = some x ∧ x.loop = l
  /-- A task was handed to its loop. -/
  handed : ∀ l key t, m.engine.job? l key = some t → .submitted l t ∈ m.history
  /-- A task whose delay has begun has one. -/
  slept : ∀ l key t, (m.engine.loop l).tasks.get? key = some t → t.untimed = t ∨ t.Slept
  /-- A thread that has ended has left only tasks behind that have slept. -/
  ended : ∀ l, (m.engine.worker l).stage = .ended →
    ∀ key t, (m.engine.loop l).tasks.get? key = some t → t.Slept
  /-- What the task in front saw when it looked whether it was cancelled is remembered. -/
  looked : ∀ l key rest t cancelled, (m.engine.worker l).found = some (.flag cancelled) →
    (m.engine.loop l).ready = key :: rest → m.engine.job? l key = some t →
      ∃ ticket, t.ticket? = some ticket ∧ .checked ticket cancelled ∈ m.history

theorem perform_turn {o : Option Report} {s : State Nat Pull Nat} (hturn : m.engine.turn l = (o, s))
    (hglance : m.engine.glance? l = none) : m.perform (.turn l) =
      ⟨s, m.issued, m.history ++ (o.map (.completed .loop)).toList⟩ := by
  simp [perform, observe, hturn, hglance]

/-- The end of the task in front is a move. -/
theorem step_finish {t : Errand} {x : Report} {s : State Nat Pull Nat}
    (hfront : m.engine.front? l = some (key, t)) (hturn : m.engine.turn l = (some x, s))
    (hfinishes : m.engine.Finishes l key t x s) : m.Step (.turn l) (m.perform (.turn l)) := by
  rw [perform_turn hturn (State.glance?_of_finished hfront (by rw [hturn]; exact hfinishes.workers))]
  exact .finish hfront hfinishes

/-- A look of the task in front is a move. -/
theorem step_check {t : Errand} {ticket : Nat} {cancelled : Bool}
    (hfront : m.engine.front? l = some (key, t)) (hfound : (m.engine.worker l).found = none)
    (hchecks : m.engine.Checks t cancelled) (hticket : t.ticket? = some ticket) :
    m.Step (.turn l) (m.perform (.turn l)) := by
  have hperform : m.perform (.turn l) =
      { m with
        engine := m.engine.checked l cancelled
        history := m.history ++ [.checked ticket cancelled] } := by
    have hobserve : m.observe l = [.checked ticket cancelled] := by
      rw [observe, State.turn_check hfront hfound hchecks,
        State.glance?_check hfront hfound hchecks, Option.bind_some, hticket]
      rfl
    rw [perform, hobserve, State.turn_check hfront hfound hchecks]
  rw [hperform]
  exact .check hfront hfound hchecks hticket

/-- A turn is a move. -/
theorem Orderly.step_turn (h : m.Orderly) (l : Nat) : m.Step (.turn l) (m.perform (.turn l)) := by
  cases hmust : (m.engine.worker l).mustLook with
  | true =>
    rw [perform_turn (State.turn_of_mustLook hmust) (State.glance?_of_mustLook hmust),
      Option.map_none, Option.toList_none, List.append_nil]
    exact .look hmust
  | false =>
    obtain ⟨key, t, hfront⟩ := h.sound.exists_front? hmust
    have hproper := h.proper l _ (h.handed l key _ (State.job?_of_front? hfront))
    obtain ⟨-, rest, hready, htask⟩ := State.front?_eq_some.mp hfront
    cases t with
    | promote c o response timer ticket =>
      cases hfound : (m.engine.worker l).found with
      | none =>
        cases hsleep : m.engine.mustSleep c o response timer with
        | true =>
          rw [perform_turn (State.turn_sleep hfront hfound hsleep)
            (State.glance?_of_mustSleep hfront hfound hsleep), Option.map_none,
            Option.toList_none, List.append_nil]
          exact .sleep hfront hfound hsleep
        | false => exact step_check hfront hfound (.promote hsleep) rfl
      | some x =>
        cases x with
        | flag b =>
          obtain ⟨stream, error, s', hturn, hsettled⟩ := State.turn_settle hfront hfound
          exact step_finish hfront hturn (.promote hsettled)
        | row row => exact (h.sound.finds hfound hready htask).elim
    | pull i reply =>
      cases hfound : (m.engine.worker l).found with
      | none => exact step_check hfront hfound .pull rfl
      | some x =>
        cases x with
        | flag b =>
          have hglance : m.engine.glance? l = none :=
            State.glance?_eq_none (Or.inr (by simp [hfound]))
          rw [perform_turn (State.turn_draw hfront hfound) hglance, Option.map_none,
            Option.toList_none, List.append_nil]
          exact .draw hfront hfound
        | row row => exact step_finish hfront (State.turn_pull hfront hfound) (.pull hfound)
    | close ticket => exact step_finish hfront (State.turn_close hfront) .close
    | park => exact hproper.elim

/-- An event is a move. -/
theorem Orderly.step (h : m.Orderly) (e : Event) : m.Step e (m.perform e) := by
  cases e with
  | connector => exact .connector
  | loop => exact .loop
  | respond c response => exact .respond
  | execute c l request =>
    cases hresponses : (m.engine.connector c).responses with
    | nil => simp only [perform, hresponses]; exact .idle
    | cons response responses =>
      simp only [perform, hresponses, State.execute]
      split
      · next hl => exact (Asks.execute hl hresponses).step
      · exact .idle
  | stream l rows metadata =>
    simp only [perform]
    split
    · next hl => exact .stream hl
    · exact .idle
  | pull i =>
    cases hx : m.engine.stream? i with
    | none => simp only [perform, hx]; exact .idle
    | some x =>
      simp only [perform, hx, State.pull]
      exact (Asks.pull (h.streams i x hx) hx).step
  | cancelOperation c o => exact .cancel .request
  | cancelStream i => exact .cancelStream
  | close c l =>
    simp only [perform]
    split
    · next hl =>
      rw [State.close_eq]
      exact (Asks.close hl).step
    · exact .idle
  | closing c => exact .cancel .closing
  | abandon c o => exact .cancel .abandon
  | announce l =>
    simp only [perform]
    split
    · next hl => exact (Asks.announce hl).step
    · exact .idle
  | stop l => exact .stop
  | turn l => exact h.step_turn l
  | elapse l key =>
    simp only [perform]
    split
    · next harmed => exact .elapse harmed
    · exact .idle

/-- A task that has to go to sleep has a delay. -/
theorem Orderly.slept_of_mustSleep (h : m.Orderly) {c o : Nat} {response : Response} {timer : Timer}
    {ticket : Nat}
    (ht : (m.engine.loop l).tasks.get? key = some (.promote c o response timer ticket))
    (hsleep : m.engine.mustSleep c o response timer = true) :
    Task.Slept (.promote c o response .armed ticket) := by
  refine ⟨by simp, ?_⟩
  rcases h.slept l key _ ht with hfresh | hslept
  · -- The delay begins now, so its length was looked at.
    obtain rfl : Timer.fresh = timer := by simpa [Task.untimed] using hfresh
    cases hdelay : response.delay with
    | none => simp [State.mustSleep, hdelay] at hsleep
    | some ms =>
      have hdelayed := (Bool.and_eq_true_iff.mp hsleep).2
      exact ⟨ms, rfl, by simpa [hdelay] using hdelayed⟩
  · exact hslept.2

/-! ## What a move keeps -/

namespace Step

/-- What happened stays in the history. -/
theorem history (h : m.Step e m') : m.history <+: m'.history := by
  cases h with
  | idle | connector | loop | respond | stream | cancel | stop | look | sleep | draw
  | elapse => exact List.prefix_rfl
  | cancelStream | take | refuse | check | finish => exact List.prefix_append _ _

theorem sound (h : m.Step e m') (hm : m.Orderly) : m'.engine.Sound := by
  have hsound := hm.sound
  cases h with
  | idle => exact hsound
  | connector => exact hsound.congr rfl (State.isCancelled_addConnector _) fun _ hi => hi
  | loop => exact hsound.addLoop
  | respond => exact hsound.congr rfl (State.isCancelled_respond _) fun _ hi => hi
  | stream =>
    exact hsound.congr rfl (fun _ _ => rfl) fun _ => (State.Grows.addStream _ _).isStreamCancelled
  | cancel hcancels => exact hcancels.sound hsound
  | cancelStream =>
    exact hsound.congr rfl (fun _ _ => rfl) fun _ => (State.Grows.cancelStream _ _).isStreamCancelled
  | stop => exact hsound.stop _
  | take hasks => exact (hasks.sound hsound).spawned _
  | refuse hasks => exact hasks.sound hsound
  | look hmust => exact hsound.looked hmust
  | check hfront hfound hchecks =>
    obtain ⟨-, rest, hready, htask⟩ := State.front?_eq_some.mp hfront
    exact hsound.checked hready htask hchecks
  | draw hfront =>
    obtain ⟨-, rest, hready, -⟩ := State.front?_eq_some.mp hfront
    exact hsound.drawn hready (State.job?_of_front? hfront) _
  | sleep hfront _ hsleep =>
    obtain ⟨-, rest, hready, -⟩ := State.front?_eq_some.mp hfront
    have hcancelled := (Bool.and_eq_true_iff.mp hsleep).1
    exact hsound.slept hready ⟨_, _, _, _, rfl, by simpa using hcancelled⟩
  | finish hfront hfinishes => exact hfinishes.sound hsound hfront
  | elapse harmed => exact hsound.elapse harmed

theorem grows (h : m.Step e m') : m.engine.Grows m'.engine := by
  cases h with
  | idle => exact .refl _
  | connector => exact .addConnector _
  | loop | stop | look | sleep | check | elapse => exact .of_eq rfl rfl
  | draw => exact .drawn _ _ _ _
  | respond => exact .respond _
  | stream => exact .addStream _ _
  | cancel hcancels => exact .of_woken hcancels.woken
  | cancelStream => exact .cancelStream _ _
  | take hasks => exact hasks.grows.trans (.of_eq rfl rfl)
  | refuse hasks => exact hasks.grows
  | finish _ hfinishes => exact hfinishes.grows

/-- Loops stay. -/
theorem workers (h : m.Step e m') : m.engine.workers.length ≤ m'.engine.workers.length := by
  cases h with
  | idle | connector | respond | stream | cancelStream => exact Nat.le_refl _
  | loop => simp [having, State.addLoop]
  | cancel hcancels => exact Nat.le_of_eq hcancels.woken.length.symm
  | stop | elapse => simp [having, State.stop, State.elapse, State.modifyLoop]
  | take hasks =>
    simp [State.spawned, State.modifyLoop, hasks.shifts.length]
  | refuse hasks => exact Nat.le_of_eq hasks.shifts.length.symm
  | look => simp [having, State.looked]
  | sleep => simp [having, State.slept]
  | check => exact Nat.le_of_eq (State.sameQueues_checked _ _ _).length.symm
  | draw => exact Nat.le_of_eq (State.sameQueues_drawn _ _ _ _).length.symm
  | finish _ hfinishes => simp [hfinishes.workers, State.finished]

/-- The request to stop stands, and the thread of a loop gets on only by a look at its signals. -/
theorem worker (h : m.Step e m') (hm : m.Orderly) (l : Nat) :
    ((m.engine.loop l).stopping = true → (m'.engine.loop l).stopping = true) ∧
      ((m'.engine.worker l).stage = (m.engine.worker l).stage ∨
        e = .turn l ∧ m'.engine.worker l = (m.engine.worker l).look) := by
  have hshifts : ∀ {new : List (Nat × Errand)}, m.engine.Shifts m'.engine new →
      ((m.engine.loop l).stopping = true → (m'.engine.loop l).stopping = true) ∧
        ((m'.engine.worker l).stage = (m.engine.worker l).stage ∨
          e = .turn l ∧ m'.engine.worker l = (m.engine.worker l).look) :=
    fun hs => ⟨fun hstop => (hs.stopping l).trans hstop, Or.inl (hs.stage l)⟩
  cases h with
  | idle | connector | respond | stream | cancelStream => exact hshifts (.of_workers rfl)
  | loop =>
    simp only [having, State.loop, State.worker_addLoop]
    split
    · next hl => simp [State.worker_of_le (Nat.le_of_eq hl.symm), Worker.held]
    · exact ⟨id, Or.inl rfl⟩
  | cancel hcancels => exact hshifts (.of_woken hcancels.woken)
  | @stop k =>
    simp only [having, State.loop]
    rcases State.worker_stop m.engine k l with hworker | hworker <;> rw [hworker]
    · exact ⟨id, Or.inl rfl⟩
    · exact ⟨fun _ => rfl, Or.inl rfl⟩
  | take hasks hstop =>
    have hs := hasks.shifts
    exact hshifts (hs.trans (.spawned (hasks.sound hm.sound) (hs.length.symm ▸ hasks.lt)
      ((hs.stopping _).trans hstop) _))
  | refuse hasks => exact hshifts hasks.shifts
  | @look k hmust =>
    simp only [having, State.loop]
    rcases State.worker_looked m.engine k l with hworker | ⟨rfl, hworker⟩ <;> rw [hworker]
    · exact ⟨id, Or.inl rfl⟩
    · exact ⟨fun hstop => (Worker.look_stopping _).trans hstop, Or.inr ⟨rfl, rfl⟩⟩
  | sleep hfront => exact hshifts (.slept ((State.job?_of_front? hfront).trans rfl))
  | check => exact hshifts (.of_sameQueues (State.sameQueues_checked _ _ _))
  | draw => exact hshifts (.of_sameQueues (State.sameQueues_drawn _ _ _ _))
  | finish hfront hfinishes =>
    exact hshifts ((State.Shifts.finished (State.job?_of_front? hfront)).congr hfinishes.workers)
  | elapse harmed => exact hshifts (.elapse harmed)

/-- A task that is there after a move was there before, and at most its timer has changed; or it was
handed to a loop that takes tasks. -/
theorem task (h : m.Step e m') (hm : m.Orderly) {l key : Nat} {t : Errand}
    (ht : (m'.engine.loop l).tasks.get? key = some t) :
    (∃ u, (m.engine.loop l).tasks.get? key = some u ∧ t.untimed = u.untimed ∧ (t = u ∨ t.Slept)) ∨
      (m.engine.loop l).stopping = false ∧ t.Proper ∧ .submitted l t ∈ m'.history := by
  have hsame : (m.engine.loop l).tasks.get? key = some t →
      ∃ u, (m.engine.loop l).tasks.get? key = some u ∧ t.untimed = u.untimed ∧ (t = u ∨ t.Slept) :=
    fun ht => ⟨t, ht, rfl, Or.inl rfl⟩
  cases h with
  | idle | connector | respond | stream | cancelStream => exact Or.inl (hsame ht)
  | loop =>
    simp only [having, State.loop, State.worker_addLoop] at ht
    split at ht
    · simp [Worker.held] at ht
    · exact Or.inl (hsame ht)
  | cancel hcancels =>
    rw [having, hcancels.woken.tasks] at ht
    exact Or.inl (hsame ht)
  | @stop k =>
    simp only [having, State.loop] at ht
    rcases State.worker_stop m.engine k l with hworker | hworker <;> rw [hworker] at ht <;>
      exact Or.inl (hsame ht)
  | @take _ s k u hasks hstop =>
    have hs := hasks.shifts
    rw [State.loop_spawned (hs.length.symm ▸ hasks.lt) ((hs.stopping _).trans hstop)] at ht
    split at ht
    · next hl =>
      subst hl
      rw [Registry.get?_insert ((hasks.sound hm.sound).loop l).valid] at ht
      split at ht
      · obtain rfl := Option.some.inj ht
        exact Or.inr ⟨hstop, hasks.proper, by simp⟩
      · rw [hasks.tasks] at ht
        exact Or.inl (hsame ht)
    · rw [hasks.tasks] at ht
      exact Or.inl (hsame ht)
  | refuse hasks =>
    rw [hasks.tasks] at ht
    exact Or.inl (hsame ht)
  | look =>
    rw [having, State.tasks_looked] at ht
    exact Or.inl (hsame ht)
  | check =>
    rw [(State.sameQueues_checked _ _ _).tasks] at ht
    exact Or.inl (hsame ht)
  | draw =>
    rw [having, (State.sameQueues_drawn _ _ _ _).tasks] at ht
    exact Or.inl (hsame ht)
  | @sleep k key' c o response timer ticket hfront _ hsleep =>
    rw [having, State.tasks_slept (State.lt_of_front? hfront)] at ht
    split at ht
    · next hl =>
      subst hl
      rw [Registry.get?_modify] at ht
      split at ht
      · next hkey =>
        subst hkey
        obtain ⟨-, rest, -, hu⟩ := State.front?_eq_some.mp hfront
        rw [hu] at ht
        obtain rfl := Option.some.inj ht
        exact Or.inl ⟨_, hu, rfl, Or.inr (hm.slept_of_mustSleep hu hsleep)⟩
      · exact Or.inl (hsame ht)
    · exact Or.inl (hsame ht)
  | finish hfront hfinishes =>
    rw [hfinishes.loop, State.tasks_finished (State.lt_of_front? hfront)] at ht
    split at ht
    · next hl =>
      subst hl
      rw [Registry.get?_remove] at ht
      split at ht
      · cases ht
      · exact Or.inl (hsame ht)
    · exact Or.inl (hsame ht)
  | @elapse k key' c o response ticket harmed =>
    rw [having, State.loop_elapse harmed] at ht
    split at ht
    · next hl =>
      subst hl
      rw [Loop.wake_tasks, Registry.get?_modify] at ht
      split at ht
      · next hkey =>
        subst hkey
        rw [harmed] at ht
        obtain rfl := Option.some.inj ht
        have hslept := (hm.slept l key _ harmed).resolve_left (by simp [Task.untimed])
        exact Or.inl ⟨_, harmed, rfl, Or.inr ⟨by simp, hslept.2⟩⟩
      · exact Or.inl (hsame ht)
    · exact Or.inl (hsame ht)

/-- A task stays with its loop until it has run to its end. -/
theorem job (h : m.Step e m') (hm : m.Orderly) {l key : Nat} {t : Errand}
    (ht : m.engine.job? l key = some t) :
    m'.engine.job? l key = some t ∨
      e = .turn l ∧ ∃ u x s, m.engine.front? l = some (key, u) ∧ m.engine.Finishes l key u x s ∧
        m' = ⟨s, m.issued, m.history ++ [.completed .loop x]⟩ := by
  have hsame : ∀ {s : State Nat Pull Nat}, m.engine.SameJobs s → s.job? l key = some t :=
    fun hs => (hs.job? l key).trans ht
  cases h with
  | idle | connector | respond | stream | cancelStream => exact Or.inl ht
  | loop => exact Or.inl ((State.job?_addLoop ..).trans ht)
  | cancel hcancels => exact Or.inl (hsame (.of_tasks hcancels.woken.length hcancels.woken.tasks))
  | stop => exact Or.inl ((State.job?_stop ..).trans ht)
  | @take _ s k u hasks hstop =>
    have hs := hasks.shifts
    have hjob := hsame hasks.sameJobs
    left
    rw [State.job?_spawned (hs.length.symm ▸ hasks.lt) ((hs.stopping k).trans hstop)
      (hasks.sound hm.sound), if_neg, hjob]
    -- The slot that is filled was vacant.
    rintro ⟨rfl, rfl⟩
    rw [State.job?, Registry.get?_fresh ((hasks.sound hm.sound).loop l).valid] at hjob
    cases hjob
  | refuse hasks => exact Or.inl (hsame hasks.sameJobs)
  | look => exact Or.inl (hsame (State.sameJobs_looked _ _))
  | sleep hfront => exact Or.inl (hsame (sameJobs_of_front? hfront))
  | check => exact Or.inl (hsame (State.sameQueues_checked _ _ _).sameJobs)
  | draw => exact Or.inl (hsame (State.sameQueues_drawn _ _ _ _).sameJobs)
  | @finish k key' u x s hfront hfinishes =>
    by_cases hfinished : l = k ∧ key = key'
    · obtain ⟨rfl, rfl⟩ := hfinished
      exact Or.inr ⟨rfl, u, x, s, hfront, hfinishes, rfl⟩
    · left
      rw [State.job?, hfinishes.loop]
      exact (State.job?_finished (State.lt_of_front? hfront) l key).trans
        ((if_neg hfinished).trans ht)
  | elapse harmed => exact Or.inl (hsame (State.sameJobs_elapse harmed))

/-- Only its own turns take anything out of the queue of a loop. -/
theorem ready (h : m.Step e m') {l : Nat} (he : e ≠ .turn l) :
    ∃ extra, (m'.engine.loop l).ready = (m.engine.loop l).ready ++ extra := by
  have hsame : ∀ {s : State Nat Pull Nat}, (s.loop l).ready = (m.engine.loop l).ready →
      ∃ extra, (s.loop l).ready = (m.engine.loop l).ready ++ extra :=
    fun hs => ⟨[], hs.trans (List.append_nil _).symm⟩
  cases h with
  | idle | connector | respond | stream | cancelStream => exact hsame rfl
  | loop =>
    refine hsame ?_
    rw [having, State.loop, State.worker_addLoop]
    split
    · next hl => rw [State.loop, State.worker_of_le (Nat.le_of_eq hl.symm)]; rfl
    · rfl
  | cancel hcancels =>
    obtain ⟨extra, hworker, -⟩ := hcancels.woken.worker l
    exact ⟨extra, by rw [having, State.loop, hworker]⟩
  | @stop k =>
    refine hsame ?_
    rw [having, State.loop]
    rcases State.worker_stop m.engine k l with hworker | hworker <;> rw [hworker] <;> rfl
  | @take _ s k t hasks hstop =>
    obtain ⟨extra, hextra⟩ := hasks.ready l
    have hs := hasks.shifts
    rw [State.loop_spawned (hs.length.symm ▸ hasks.lt) ((hs.stopping k).trans hstop)]
    split
    · next hl =>
      rw [hl] at hextra ⊢
      exact ⟨extra ++ [(s.loop k |>.tasks.insert t).1], by rw [hextra, List.append_assoc]⟩
    · exact ⟨extra, hextra⟩
  | refuse hasks => exact hasks.ready l
  | @look k =>
    rcases State.worker_looked m.engine k l with hworker | ⟨rfl, -⟩
    · exact hsame (by rw [having, State.loop, hworker, State.loop])
    · exact absurd rfl he
  | @sleep k key c o response timer ticket hfront =>
    refine hsame ?_
    rw [having, State.ready_slept (State.lt_of_front? hfront), if_neg]
    rintro rfl
    exact he rfl
  | check => exact hsame ((State.sameQueues_checked _ _ _).ready l)
  | draw => exact hsame ((State.sameQueues_drawn _ _ _ _).ready l)
  | @finish k key t x s hfront hfinishes =>
    refine hsame ?_
    rw [hfinishes.loop, State.ready_finished (State.lt_of_front? hfront), if_neg]
    rintro rfl
    exact he rfl
  | @elapse k key c o response ticket harmed =>
    rw [having, State.loop_elapse harmed]
    split
    · next hl =>
      subst hl
      unfold Loop.wake
      split
      · exact ⟨[], (List.append_nil _).symm⟩
      · exact ⟨[key], rfl⟩
    · exact ⟨[], (List.append_nil _).symm⟩

/-- Only in its own turns does a task find anything out. -/
theorem found (h : m.Step e m') {l : Nat} (he : e ≠ .turn l) :
    (m'.engine.worker l).found = (m.engine.worker l).found := by
  have hmodify : ∀ {k : Nat} {f : Worker Errand → Worker Errand}, k < m.engine.workers.length →
      .turn k = e → ((m.engine.modifyWorker k f).worker l).found = (m.engine.worker l).found := by
    rintro k f hk rfl
    rw [State.found_modifyWorker hk, if_neg fun hl => he (by rw [hl])]
  cases h with
  | idle | connector | respond | stream | cancelStream => rfl
  | loop =>
    rw [having, State.worker_addLoop]
    split
    · next hl => rw [State.worker_of_le (Nat.le_of_eq hl.symm)]; rfl
    · rfl
  | cancel hcancels =>
    obtain ⟨extra, hworker, -⟩ := hcancels.woken.worker l
    rw [having, hworker]
  | @stop k =>
    rw [having]
    rcases State.worker_stop m.engine k l with hworker | hworker <;> rw [hworker]
  | @take _ s k t hasks =>
    rw [← hasks.found l, State.worker_spawned (hasks.shifts.length.symm ▸ hasks.lt)]
    split
    · next hl => rw [hl]
    · rfl
  | refuse hasks => exact hasks.found l
  | @look k =>
    rcases State.worker_looked m.engine k l with hworker | ⟨-, hworker⟩ <;> rw [having, hworker]
    exact Worker.look_found _
  | sleep hfront | check hfront | draw hfront => exact hmodify (State.lt_of_front? hfront) rfl
  | finish hfront hfinishes =>
    rw [State.worker, hfinishes.workers]
    exact hmodify (State.lt_of_front? hfront) rfl
  | elapse =>
    rw [having, State.elapse, State.modifyLoop, State.worker_modifyWorker]
    split
    · next hl => rw [hl.1]
    · rfl

/-- Streams are made one at a time, on loops that are there. -/
theorem streams (h : m.Step e m') : m'.engine.streams.length = m.engine.streams.length ∨
    ∃ l rows metadata, l < m.engine.workers.length ∧
      m'.engine.streams = m.engine.streams ++ [.ofRows l rows metadata] := by
  cases h with
  | idle | connector | loop | respond | stop | look | sleep | check | elapse => exact Or.inl rfl
  | stream hl => exact Or.inr ⟨_, _, _, hl, rfl⟩
  | cancel hcancels => exact Or.inl (by rw [having, hcancels.woken.streams])
  | cancelStream | draw => exact Or.inl (List.length_modify ..)
  | take hasks | refuse hasks => exact Or.inl (congrArg List.length hasks.streams)
  | finish hfront hfinishes =>
    cases hfinishes with
    | promote hsettled =>
      cases hsettled with
      | cancelled | failed => exact Or.inl rfl
      | promoted => exact Or.inr ⟨_, _, _, State.lt_of_front? hfront, rfl⟩
    | pull | close => exact Or.inl rfl

/-- Only requests hand tasks to loops. -/
theorem submitted (h : m.Step e m') {l : Nat} {t : Errand} (ht : .submitted l t ∈ m'.history) :
    .submitted l t ∈ m.history ∨ ∃ s, m.Asks e s l t ∧ m'.engine.connectors = s.connectors := by
  cases h with
  | idle | connector | loop | respond | stream | cancel | stop | look | sleep | draw
  | elapse => exact Or.inl ht
  | cancelStream | check | finish => exact Or.inl (by simpa using ht)
  | take hasks | refuse hasks =>
    simp only [List.mem_append, List.mem_cons, List.not_mem_nil, or_false, reduceCtorEq,
      Observation.submitted.injEq] at ht
    rcases ht with ht | ⟨rfl, rfl⟩
    · exact Or.inl ht
    · exact Or.inr ⟨_, hasks, rfl⟩

/-- What is reported is the end of the task in front of a loop, or of a task that a loop refuses. -/
theorem completed (h : m.Step e m') {place : Place} {x : Report}
    (hx : .completed place x ∈ m'.history) :
    .completed place x ∈ m.history ∨
      (∃ s l t, m.Asks e s l t ∧ (m.engine.loop l).stopping = true ∧ t.abandoned? = some x) ∨
      ∃ l key t s, m.engine.front? l = some (key, t) ∧ m.engine.Finishes l key t x s := by
  cases h with
  | idle | connector | loop | respond | stream | cancel | stop | look | sleep | draw
  | elapse => exact Or.inl hx
  | cancelStream | take | check => exact Or.inl (by simpa using hx)
  | refuse hasks hstop habandoned =>
    simp only [List.mem_append, List.mem_cons, List.not_mem_nil, or_false, reduceCtorEq, false_or,
      Observation.completed.injEq] at hx
    rcases hx with hx | ⟨-, rfl⟩
    · exact Or.inl hx
    · exact Or.inr (Or.inl ⟨_, _, _, hasks, hstop, habandoned⟩)
  | finish hfront hfinishes =>
    simp only [List.mem_append, List.mem_singleton, Observation.completed.injEq] at hx
    rcases hx with hx | ⟨-, rfl⟩
    · exact Or.inl hx
    · exact Or.inr (Or.inr ⟨_, _, _, _, hfront, hfinishes⟩)

/-- A look that is remembered is that of the task in front of a loop. -/
theorem checked (h : m.Step e m') {ticket : Nat} {cancelled : Bool}
    (hx : .checked ticket cancelled ∈ m'.history) :
    .checked ticket cancelled ∈ m.history ∨
      ∃ l key t, m.engine.front? l = some (key, t) ∧ t.ticket? = some ticket ∧
        m.engine.Checks t cancelled := by
  cases h with
  | idle | connector | loop | respond | stream | cancel | stop | look | sleep | draw
  | elapse => exact Or.inl hx
  | cancelStream | take | refuse | finish => exact Or.inl (by simpa using hx)
  | check hfront _ hchecks hticket =>
    simp only [List.mem_append, List.mem_singleton, Observation.checked.injEq] at hx
    rcases hx with hx | ⟨rfl, rfl⟩
    · exact Or.inl hx
    · exact Or.inr ⟨_, _, _, hfront, hticket, hchecks⟩

end Step

/-- A stream runs on a loop that is there. -/
theorem Orderly.streams_keep (h : m.Orderly) (hstep : m.Step e m') {i : Nat} {x : Stream}
    (hx : m'.engine.stream? i = some x) : x.loop < m'.engine.workers.length := by
  refine Nat.lt_of_lt_of_le ?_ hstep.workers
  cases hy : m.engine.stream? i with
  | some y =>
    obtain ⟨x', hx', hloop, -⟩ := hstep.grows.streams i y hy
    obtain rfl := Option.some.inj (hx.symm.trans hx')
    exact hloop ▸ h.streams i y hy
  | none =>
    have hle : m.engine.streams.length ≤ i := List.getElem?_eq_none_iff.mp hy
    have hlt : i < m'.engine.streams.length := (List.getElem?_eq_some_iff.mp hx).1
    rcases hstep.streams with hsame | ⟨l, rows, metadata, hl, hnew⟩
    · omega
    · obtain rfl : i = m.engine.streams.length := by
        rw [hnew, List.length_append, List.length_singleton] at hlt
        omega
      rw [State.stream?, hnew, List.getElem?_concat_length] at hx
      obtain rfl := Option.some.inj hx
      exact hl

/-- When a thread has ended, its loop was asked to stop before that, and had nothing left but what
slept. -/
theorem Orderly.before_end (h : m.Orderly) (hstep : m.Step e m') {l : Nat}
    (hended : (m'.engine.worker l).stage = .ended) :
    (m.engine.worker l).stage ≠ .serving ∧
      ∀ key u, (m.engine.loop l).tasks.get? key = some u → u.Slept := by
  rcases (hstep.worker h l).2 with hsame | ⟨-, hlook⟩
  · rw [hsame] at hended
    exact ⟨by simp [hended], h.ended l hended⟩
  · rw [hlook] at hended
    rcases Worker.look_ended hended with hended | ⟨hdraining, hready⟩
    · exact ⟨by simp [hended], h.ended l hended⟩
    · -- The thread ends when nothing is ready any more, and what is not ready sleeps.
      refine ⟨by simp [hdraining], fun key u hu => ?_⟩
      obtain ⟨c, o, response, ticket, rfl, -⟩ :=
        (h.sound.loop l).asleep key u hu (by simp [State.loop, hready])
      exact (h.slept l key _ hu).resolve_left (by simp [Task.untimed])

/-- A task that has looked whether it was cancelled did so in a turn of its loop, and stays in front
until it goes on. -/
theorem Step.flagged (h : m.Step e m') (hm : m.Orderly) {l key : Nat} {rest : List Nat} {t : Errand}
    {b : Bool} (hfound : (m'.engine.worker l).found = some (.flag b))
    (hready : (m'.engine.loop l).ready = key :: rest) (hjob : m'.engine.job? l key = some t) :
    ((m.engine.worker l).found = some (.flag b) ∧
      (∃ rest', (m.engine.loop l).ready = key :: rest') ∧ m.engine.job? l key = some t) ∨
    ∃ u ticket, m.engine.front? l = some (key, u) ∧ u.untimed = t ∧ u.ticket? = some ticket ∧
      (m.engine.worker l).found = none ∧ m.engine.Checks u b ∧
      m' = { m with
        engine := m.engine.checked l b
        history := m.history ++ [.checked ticket b] } := by
  by_cases he : e = .turn l
  · subst he
    cases h with
    | idle => exact Or.inl ⟨hfound, ⟨rest, hready⟩, hjob⟩
    | cancel hcancels => cases hcancels
    | take hasks | refuse hasks => cases hasks
    | look hmust =>
      have hold : (m.engine.worker l).found = some (.flag b) := by
        rcases State.worker_looked m.engine l l with hworker | ⟨-, hworker⟩ <;>
          rw [having, hworker] at hfound
        · exact hfound
        · rwa [Worker.look_found] at hfound
      have hworker := hm.sound.worker_looked_of_found hmust hold
      rw [having, State.loop, hworker] at hready
      rw [having, State.job?, State.loop, hworker] at hjob
      exact Or.inl ⟨hold, ⟨rest, hready⟩, hjob⟩
    | sleep hfront =>
      cases (State.found_slept (State.lt_of_front? hfront) _ _).symm.trans hfound
    | @check _ front u ticket cancelled hfront hnone hchecks hticket =>
      have hflag := (State.found_checked (State.lt_of_front? hfront) cancelled).symm.trans hfound
      obtain rfl : cancelled = b := by simpa using hflag
      have hqueues := State.sameQueues_checked m.engine l cancelled
      obtain ⟨-, rest', hqueue, -⟩ := State.front?_eq_some.mp hfront
      obtain ⟨rfl, -⟩ := List.cons_eq_cons.mp (hqueue.symm.trans ((hqueues.ready l).symm.trans hready))
      have hsame := (hqueues.sameJobs.job? l front).symm.trans hjob
      exact Or.inr ⟨u, ticket, hfront,
        Option.some.inj ((State.job?_of_front? hfront).symm.trans hsame), hticket, hnone, hchecks, rfl⟩
    | draw hfront =>
      cases (State.found_drawn (State.lt_of_front? hfront) _ _).symm.trans hfound
    | finish hfront hfinishes =>
      rw [State.worker, hfinishes.workers] at hfound
      cases (State.found_finished (State.lt_of_front? hfront) _).symm.trans hfound
  · have hold := (h.found he).symm.trans hfound
    obtain ⟨front, rest', u, hqueue, htask, -⟩ := hm.sound.engaged l _ hold
    obtain ⟨extra, hextra⟩ := h.ready he
    have hfront : (m.engine.loop l).ready = front :: rest' := hqueue
    rw [hready, hfront, List.cons_append] at hextra
    obtain ⟨rfl, -⟩ := List.cons_eq_cons.mp hextra
    have hu : m.engine.job? l key = some u.untimed := congrArg (Option.map Task.untimed) htask
    have hstays := (h.job hm hu).resolve_right fun hturn => he hturn.1
    obtain rfl := Option.some.inj (hstays.symm.trans hjob)
    exact Or.inl ⟨hold, ⟨rest', hfront⟩, hu⟩

/-- Moves keep a moment in order. -/
theorem Orderly.keep (h : m.Orderly) (hstep : m.Step e m') : m'.Orderly where
  sound := hstep.sound h
  streams i x hx := h.streams_keep hstep hx
  stages l hstage := by
    have hstopping := (hstep.worker h l).1
    rcases (hstep.worker h l).2 with hsame | ⟨-, hlook⟩
    · exact hstopping (h.stages l (hsame ▸ hstage))
    · rw [hlook] at hstage
      rcases Worker.look_not_serving hstage with hstage | hstop
      · exact hstopping (h.stages l hstage)
      · exact hstopping hstop
  proper l t ht := by
    rcases hstep.submitted ht with ht | ⟨s, hasks, -⟩
    · exact h.proper l t ht
    · exact hasks.proper
  operations l c o response timer ticket ht := by
    rcases hstep.submitted ht with ht | ⟨s, hasks, hconnectors⟩
    · exact Nat.lt_of_lt_of_le (h.operations l c o response timer ticket ht)
        (hstep.grows.operations c)
    · rw [State.connector, hconnectors]
      cases hasks with
      | @execute _ _ request _ responses _ hresponses =>
        have hc := State.lt_connectors_of_responses hresponses
        have hconnector := State.connector_accepting hc request responses c
        rw [State.connector, if_pos rfl] at hconnector
        rw [hconnector]
        simp
  pulls l i reply ht := by
    have hkeep : ∀ {x : Stream}, m.engine.stream? i = some x → x.loop = l →
        ∃ x', m'.engine.stream? i = some x' ∧ x'.loop = l := by
      intro x hx hl
      obtain ⟨x', hx', hloop, -⟩ := hstep.grows.streams i x hx
      exact ⟨x', hx', hloop.trans hl⟩
    rcases hstep.submitted ht with ht | ⟨s, hasks, -⟩
    · obtain ⟨x, hx, hl⟩ := h.pulls l i reply ht
      exact hkeep hx hl
    · cases hasks with
      | pull _ hx => exact hkeep hx rfl
  handed l key t ht := by
    obtain ⟨u, hu, rfl⟩ := Option.map_eq_some_iff.mp ht
    rcases hstep.task h hu with ⟨v, hv, huntimed, -⟩ | ⟨-, hproper, hsubmitted⟩
    · rw [huntimed]
      exact hstep.history.subset (h.handed l key _ (by rw [State.job?, hv]; rfl))
    · rw [hproper.untimed]
      exact hsubmitted
  slept l key t ht := by
    rcases hstep.task h ht with ⟨u, hu, huntimed, rfl | hslept⟩ | ⟨-, hproper, -⟩
    · exact h.slept l key _ hu
    · exact Or.inr hslept
    · exact Or.inl hproper.untimed
  ended l hended key t ht := by
    obtain ⟨hstage, hold⟩ := h.before_end hstep hended
    rcases hstep.task h ht with ⟨u, hu, -, rfl | hslept⟩ | ⟨hfree, -, -⟩
    · exact hold key _ hu
    · exact hslept
    · rw [h.stages l hstage] at hfree
      cases hfree
  looked l key rest t b hfound hready hjob := by
    rcases hstep.flagged h hfound hready hjob with ⟨hold, ⟨rest', hfront⟩, ht⟩ |
      ⟨u, ticket, -, rfl, hticket, -, -, rfl⟩
    · obtain ⟨ticket, hticket, hchecked⟩ := h.looked l key rest' t b hold hfront ht
      exact ⟨ticket, hticket, hstep.history.subset hchecked⟩
    · exact ⟨ticket, (Task.ticket?_untimed u).trans hticket, by simp⟩

theorem Orderly.start : ({} : Moment).Orderly where
  sound := by simp [State.Sound]
  streams := by simp [State.stream?]
  stages := by simp [State.worker]
  proper := by simp
  operations := by simp
  pulls := by simp
  handed := by simp [State.job?, State.loop, State.worker]
  slept := by simp [State.loop, State.worker]
  ended := by simp [State.worker]
  looked := by simp [State.worker]

/-- What moves keep, runs keep. -/
theorem Orderly.after_induction {P : Moment → Prop} (h : m.Orderly) (hm : P m)
    (hstep : ∀ {m e m'}, m.Orderly → P m → m.Step e m' → P m') (events : List Event) :
    P (m.after events) := by
  induction events generalizing m with
  | nil => exact hm
  | cons e events ih => exact ih (h.keep (h.step e)) (hstep h hm (h.step e))

theorem Orderly.after (h : m.Orderly) (events : List Event) : (m.after events).Orderly :=
  h.after_induction h (fun _ => Orderly.keep) events

theorem Orderly.history_after (h : m.Orderly) (events : List Event) :
    m.history <+: (m.after events).history :=
  h.after_induction (P := fun m' => m.history <+: m'.history) List.prefix_rfl
    (fun _ hpast hstep => hpast.trans hstep.history) events

theorem orderly_run (events : List Event) : (run events).Orderly :=
  Orderly.start.after events

end Moment

end HostBridge.Engine
