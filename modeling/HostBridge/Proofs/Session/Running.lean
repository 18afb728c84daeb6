import HostBridge.Proofs.Session.Invariant

/-!
# Runs without a shutdown

Connections go on running until the host asks one to shut down. Everything else that happens in a run
leaves the instances alone, or adds one: a cluster is closed, and a reaper is at work, only on behalf
of an instance that does not run any more.
-/

namespace HostBridge.Session

open Bridge (Entry)

/-- The event asks a connection to shut down. -/
def Event.shuts : Event → Bool
  | .act (.destroy _) | .act (.dropConnection _) => true
  | _ => false

/-! ## What leaves the instances alone -/

namespace State

variable {s : State}

theorem Aside.instances {s' : State} (h : Aside s s') : s'.instances = s.instances := by
  obtain ⟨host, trace, rfl⟩ := h
  rfl

theorem note_instances (s : State) (place : Place) (ns : List Log.Notice) :
    (s.note place ns).instances = s.instances :=
  (aside_note s place ns).instances

theorem register_instances (s : State) (label : String) (callback : Callback) :
    (s.register label callback).2.instances = s.instances :=
  (aside_register s label callback).instances

theorem invoke_instances (s : State) (place : Place) (cookie : Bridge.Cookie) (work : Work) :
    (s.invoke place cookie work).instances = s.instances :=
  (aside_invoke s place cookie work).instances

theorem promote_instances (s : State) (place : Place) (p : Promotion) (stream : Option Nat)
    (error : Option EngineError) : (s.promote place p stream error).instances = s.instances := by
  unfold promote
  cases s.target? p.result with
  | none => exact note_instances _ _ _
  | some target => cases stream <;> exact invoke_instances _ _ _ _

/-- A running instance is not told that its cluster is closed. -/
theorem clusterClosed_instances (h : ∀ x ∈ s.instances, x.state = .running) (place : Place)
    (i : Nat) : (s.clusterClosed place i).instances = s.instances := by
  unfold clusterClosed
  cases hx : s.instances[i]? with
  | none => rfl
  | some x =>
    have hrunning := h x (List.mem_of_getElem? hx)
    simp only [Instance.transit?, hrunning, reduceCtorEq, if_false]
    exact note_instances _ _ _

theorem complete_instances (h : ∀ x ∈ s.instances, x.state = .running) (place : Place)
    (c : Completion) : (s.complete place c).instances = s.instances := by
  cases c with
  | promoted p stream error => exact promote_instances _ _ _ _ _
  | row cookie row => exact invoke_instances _ _ _ _
  | closed i => exact clusterClosed_instances h place i

theorem took_instances (h : ∀ x ∈ s.instances, x.state = .running)
    (outcome : Option Completion × Engine.State Promotion Bridge.Cookie Nat) :
    (s.took outcome).instances = s.instances := by
  unfold took
  cases outcome.1 with
  | none => rfl
  | some c =>
    have hnote := note_instances { s with engine := outcome.2 } .host [.taskRejected]
    exact (complete_instances (by rw [hnote]; exact h) .host c).trans hnote

theorem turn_instances (h : ∀ x ∈ s.instances, x.state = .running) (l : Nat) :
    (s.turn l).instances = s.instances := by
  simp only [turn]
  split
  · rfl
  · exact complete_instances (s := { s with engine := (s.engine.turn l).2 }) h .loop _

theorem nextRow_instances (h : ∀ x ∈ s.instances, x.state = .running) (r : Nat)
    (callback : Callback) : (s.nextRow r callback).instances = s.instances := by
  have hregister := register_instances s rowLabel callback
  simp only [nextRow]
  split
  · exact (invoke_instances _ _ _ _).trans hregister
  · exact (took_instances (by rw [hregister]; exact h) _).trans hregister

theorem tell_instances (s : State) (label : String) (e : Entry Callback) (work : Work) :
    (s.tell label e work).instances = s.instances := by
  have hrow : ∀ answer, (s.tellRow label e answer).instances = s.instances := by
    intro answer
    unfold tellRow
    split
    · simp only [record]
      split <;> rfl
    · exact note_instances _ _ _
  cases work with
  | promoted error =>
    simp only [tell]
    split
    · rfl
    · exact note_instances _ _ _
  | row row => exact hrow _
  | failed error => exact hrow _

theorem dispatch_instances (s : State) : s.dispatch.2.instances = s.instances := by
  unfold dispatch
  split
  · rfl
  · simp only
    split
    · exact (tell_instances _ _ _ _).trans (note_instances _ _ _)
    · exact note_instances _ _ _
    · exact note_instances _ _ _

theorem attach_instances (s : State) (r : Nat) (operation : Operation) :
    (s.attach r operation).instances = s.instances :=
  note_instances _ _ _

theorem strike_instances (s : State) (target : Target) :
    (s.strike target).instances = s.instances := by
  cases target with
  | empty => rfl
  | pending operation => cases operation <;> rfl
  | active i => rfl

theorem execute_instances (h : ∀ x ∈ s.instances, x.state = .running) {x : Instance} {c : Nat}
    (hc : x.connector = .memory c) (request : Request) (p : Promotion) :
    (s.execute x request p).2.instances = s.instances := by
  simp only [execute, hc]
  split
  · rfl
  · exact took_instances h _

theorem submit_instances (h : ∀ x ∈ s.instances, x.state = .running ∧ ∃ c, x.connector = .memory c)
    (i : Nat) (request : Request) (callback : Callback) :
    (s.submit i request callback).2.instances = s.instances := by
  unfold submit
  cases hx : s.instances[i]? with
  | none => rfl
  | some x =>
    obtain ⟨-, c, hc⟩ := h x (List.mem_of_getElem? hx)
    simp only
    cases agent x with
    | error fault => rfl
    | ok u =>
      have hregister := register_instances (s.addResult .empty).2 queryLabel callback
      have hnote := (note_instances ((s.addResult .empty).2.register queryLabel callback).2 .host
        [.querySubmitted request.statement]).trans hregister
      have hrunning : ∀ y ∈ (((s.addResult .empty).2.register queryLabel callback).2.note .host
          [.querySubmitted request.statement]).instances, y.state = .running := by
        rw [hnote]
        exact fun y hy => (h y hy).1
      have hexecute := (execute_instances hrunning hc request ⟨(s.addResult .empty).1,
        ((s.addResult .empty).2.register queryLabel callback).1⟩).trans hnote
      simp only
      split
      · next hrefused =>
        rw [hrefused] at hexecute
        exact hexecute
      · next haccepted =>
        rw [haccepted] at hexecute
        exact hexecute

theorem create_instances (s : State) (c : Nat) (options : Options) :
    ∃ xs, (s.create (.memory c) options).2.instances = s.instances ++ xs ∧
      ∀ x ∈ xs, x.state = .running := by
  unfold create
  cases hvalid : options.validate with
  | error fault => exact ⟨[], by simp, by simp⟩
  | ok u =>
    simp only [connect, hvalid]
    split
    · exact ⟨[], by simp [note_instances], by simp⟩
    · exact ⟨_, by rw [note_instances, note_instances], by simp⟩

end State

namespace Moment

variable {m m' : Moment}

/-- No connection was asked to shut down. -/
def Running (m : Moment) : Prop :=
  ∀ (i : Nat) (x : Instance), m.state.instances[i]? = some x → x.state = .running

theorem Later.running (h : Later m m') (hrunning : m'.Running) : m.Running := by
  intro i x hx
  obtain ⟨x', hx', -, -, himp⟩ := h.instances i x hx
  exact himp (hrunning i x' hx')

namespace Running

theorem start : ({} : Moment).Running := by
  intro i x hx
  simp at hx

theorem of_mem (h : m.Running) (x : Instance) (hx : x ∈ m.state.instances) : x.state = .running := by
  obtain ⟨i, hi⟩ := List.mem_iff_getElem?.mp hx
  exact h i x hi

theorem of_eq (h : m.Running) (hinstances : m'.state.instances = m.state.instances) :
    m'.Running := by
  intro i x hx
  rw [hinstances] at hx
  exact h i x hx

theorem submitted (h : m.Running) {e : Option Nat} {i : Nat} {callback : Callback}
    {outcome : Except Error (Nat × Operation) × State}
    (houtcome : outcome.2.instances = m.state.instances) :
    (m.submitted e i callback outcome).Running := by
  refine h.of_eq ?_
  obtain ⟨_ | ⟨r, operation⟩, state⟩ := outcome
  · simp only [Moment.submitted]
    split <;> exact houtcome
  · exact houtcome

theorem act (h : m.Running) (hsane : m.Sane) {deed : Deed}
    (hcalm : (Event.act deed).shuts = false) : (m.act deed).Running := by
  have hmemory : ∀ x ∈ m.state.instances, x.state = .running ∧ ∃ c, x.connector = .memory c := by
    intro x hx
    obtain ⟨i, hi⟩ := List.mem_iff_getElem?.mp hx
    exact ⟨h i x hi, hsane.orderly.memory i x hi⟩
  cases deed with
  | connector | dropResult | executor => exact h.of_eq rfl
  | respond c response =>
    simp only [Moment.act]
    split
    · exact h.of_eq rfl
    · exact h
  | create c options =>
    obtain ⟨xs, hinstances, hxs⟩ := State.create_instances m.state c options
    intro i x hx
    rcases List.mem_append.mp (hinstances ▸ List.mem_of_getElem? hx) with hx | hx
    · exact h.of_mem x hx
    · exact hxs x hx
  | query i request name => exact h.submitted (State.submit_instances hmemory i request _)
  | next r name => exact h.of_eq (State.nextRow_instances h.of_mem r _)
  | cancel r =>
    simp only [Moment.act]
    split <;> exact h.of_eq rfl
  | executorQuery e i request name =>
    refine h.submitted ?_
    unfold State.executorSubmit
    split
    · rfl
    · exact State.submit_instances hmemory i request _
  | executorNext e name =>
    simp only [Moment.act]
    split
    · next hr =>
      simp only [State.executorNext, hr]
      exact h.of_eq rfl
    · next r hr => exact h.of_eq (State.nextRow_instances h.of_mem r _)
  | executorAbort e =>
    simp only [Moment.act]
    split <;> exact h.of_eq rfl
  | dropExecutor e =>
    refine h.of_eq ?_
    simp only [Moment.act, having, State.dropExecutor]
    split <;> rfl
  | destroy | dropConnection => cases hcalm
  | dispatch => exact h.of_eq (State.dispatch_instances _)

theorem resume (h : m.Running) : m.resume.Running := by
  unfold Moment.resume
  split
  · exact h
  · next r operation _ => exact h.of_eq (State.attach_instances _ r operation)
  · next e r operation _ => exact h.of_eq (State.attach_instances _ r operation)
  · next r target _ => exact h.of_eq (State.strike_instances _ target)
  · next e r target _ => exact h.of_eq (State.strike_instances _ target)

/-- The reaper of a running instance has nothing to do. -/
theorem reap (h : m.Running) (hsane : m.Sane) (i : Nat) : (m.having (m.state.reap i)).Running := by
  unfold State.reap
  cases hx : m.state.instances[i]? with
  | none => exact h
  | some x =>
    have habsent : x.reaper = .absent := by
      by_contra hreaper
      have := hsane.orderly.reaper i x hx hreaper
      rw [h i x hx] at this
      simp at this
    have hidle : x.reap (m.state.threadEnded x.loop) = x := by simp [Instance.reap, habsent]
    intro k y hy
    simp only [having, State.modifyInstance, List.getElem?_modify] at hy
    split at hy
    · next hk =>
      subst hk
      rw [hx] at hy
      obtain rfl : x.reap (m.state.threadEnded x.loop) = y := by simpa using hy
      rw [hidle]
      exact h i x hx
    · exact h k y (by simpa using hy)

theorem perform (h : m.Running) (hsane : m.Sane) {event : Event} (hcalm : event.shuts = false) :
    (m.perform event).Running := by
  cases event with
  | act deed =>
    simp only [Moment.perform]
    split
    · exact h.act hsane hcalm
    · exact h
  | resume => exact h.resume
  | turn l => exact h.of_eq (State.turn_instances h.of_mem l)
  | elapse l key =>
    simp only [Moment.perform]
    split
    · exact h.of_eq rfl
    · exact h
  | reap i => exact h.reap hsane i
  | reapers fault => exact h.of_eq rfl

/-- While no connection is shut down, every thread serves. -/
theorem serves (h : m.Running) (horderly : m.Orderly) (l : Nat) :
    (m.state.engine.worker l).stage = .serving ∧ (m.state.engine.loop l).stopping = false := by
  have hstop : (m.state.engine.loop l).stopping = false := by
    by_cases hl : l < m.state.instances.length
    · have hx := List.getElem?_eq_getElem hl
      exact (horderly.takes hx (h l _ hx)).2
    · rw [Engine.State.loop, Engine.State.worker_of_le]
      rw [horderly.workers]
      exact Nat.le_of_not_lt hl
  refine ⟨?_, hstop⟩
  by_contra hstage
  rw [horderly.stage l hstage] at hstop
  cases hstop

end Running

end Moment

open Moment

/-- Connections that are never asked to shut down go on running. -/
theorem running_run {events : List Event} (hcalm : ∀ event ∈ events, event.shuts = false) :
    (run events).Running := by
  suffices h : ∀ m : Moment, m.Sane → m.Running → (events.foldl perform m).Running from
    h _ Sane.start Running.start
  induction events with
  | nil => exact fun _ _ hrunning => hrunning
  | cons event events ih =>
    intro m hsane hrunning
    refine ih (fun e he => hcalm e (List.mem_cons_of_mem _ he)) _ (hsane.event event).1 ?_
    exact hrunning.perform hsane (hcalm event List.mem_cons_self)

end HostBridge.Session
