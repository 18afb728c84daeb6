import HostBridge.Proofs.Engine.Calm
import HostBridge.Proofs.Session.Step

/-!
# What leaves the instances alone

Connections are created and shut down by a few calls of the host, by the report of a closed cluster
and by the reapers. Everything else in a session leaves the instances alone, asks no loop to stop and
closes no cluster. This needs no assumption about the session: it holds in the middle of a shutdown
as well.
-/

namespace HostBridge.Session

open Bridge (Cookie Entry Message)

namespace State

variable {s s' s'' : State}

/-- The instances are left alone, and so are the loops as far as their end is concerned. -/
structure Calm (s s' : State) : Prop where
  /-- No instance changes. -/
  instances : s'.instances = s.instances
  /-- No loop is asked to stop, and no cluster is closed. -/
  engine : s.engine.Calm s'.engine

namespace Calm

theorem of_eq (hinstances : s'.instances = s.instances) (hengine : s'.engine = s.engine) :
    Calm s s' :=
  ⟨hinstances, hengine ▸ Engine.State.Calm.refl s.engine⟩

theorem of_aside (h : Aside s s') : Calm s s' := by
  obtain ⟨host, trace, rfl⟩ := h
  exact of_eq rfl rfl

theorem refl (s : State) : Calm s s :=
  of_eq rfl rfl

theorem trans (h : Calm s s') (h' : Calm s' s'') : Calm s s'' :=
  ⟨h'.instances.trans h.instances, h.engine.trans h'.engine⟩

end Calm

/-! ## The host -/

theorem calm_note (s : State) (place : Place) (ns : List Log.Notice) : Calm s (s.note place ns) :=
  Calm.of_aside (aside_note s place ns)

theorem calm_register (s : State) (label : String) (callback : Callback) :
    Calm s (s.register label callback).2 :=
  Calm.of_aside (aside_register s label callback)

theorem calm_invoke (s : State) (place : Place) (cookie : Cookie) (work : Work) :
    Calm s (s.invoke place cookie work) :=
  Calm.of_aside (aside_invoke s place cookie work)

theorem calm_tell (s : State) (label : String) (e : Entry Callback) (work : Work) :
    Calm s (s.tell label e work) := by
  have hmismatch : ∀ notice o, Calm s ((s.note .host [notice]).record o) := fun notice o =>
    (calm_note s .host [notice]).trans (Calm.of_eq rfl rfl)
  have hrow : ∀ answer, Calm s (s.tellRow label e answer) := by
    intro answer
    unfold tellRow
    split
    · simp only [record]
      split <;> exact Calm.of_eq rfl rfl
    · exact hmismatch _ _
  cases work with
  | promoted error =>
    simp only [tell]
    split
    · exact Calm.of_eq rfl rfl
    · exact hmismatch _ _
  | row row => exact hrow _
  | failed error => exact hrow _

theorem calm_dispatch (s : State) : Calm s s.dispatch.2 := by
  have hnote : ∀ host notice, Calm s ({ s with host }.note .host [notice]) := fun host notice =>
    have hhost : Calm s { s with host } := Calm.of_eq rfl rfl
    hhost.trans (calm_note _ _ _)
  unfold dispatch
  split
  · exact Calm.refl s
  · next message host _ =>
    have hfate := hnote (host.dispatch message).2 (host.dispatch message).1.notice
    simp only
    split
    · exact hfate.trans (calm_tell _ _ _ _)
    · exact hfate.trans (Calm.of_eq rfl rfl)
    · exact hfate

/-! ## Completions -/

theorem calm_promote (s : State) (place : Place) (p : Promotion) (stream : Option Nat)
    (error : Option EngineError) : Calm s (s.promote place p stream error) := by
  unfold promote
  cases s.target? p.result with
  | none => exact (calm_note _ _ _).trans (Calm.of_eq rfl rfl)
  | some target =>
    cases stream with
    | none => exact calm_invoke _ _ _ _
    | some i =>
      have hresult : Calm s (s.modifyResult p.result fun q =>
          { q with target := q.target.setStream i }) := Calm.of_eq rfl rfl
      exact hresult.trans (calm_invoke _ _ _ _)

/-- Whatever the engine reports, unless it is that a cluster is closed. -/
theorem calm_complete {c : Completion} (hc : ∀ i, c ≠ .closed i) (place : Place) :
    Calm s (s.complete place c) := by
  cases c with
  | promoted p stream error => exact calm_promote _ _ _ _ _
  | row cookie row => exact calm_invoke _ _ _ _
  | closed i => exact absurd rfl (hc i)

theorem calm_took {outcome : Option Completion × Engine.State Promotion Cookie Nat}
    (hengine : s.engine.Calm outcome.2) (hc : ∀ i, outcome.1 ≠ some (.closed i)) :
    Calm s (s.took outcome) := by
  have htaken : Calm s { s with engine := outcome.2 } := ⟨rfl, hengine⟩
  unfold took
  cases hcompletion : outcome.1 with
  | none => exact htaken
  | some c =>
    refine (htaken.trans (calm_note _ .host [.taskRejected])).trans (calm_complete ?_ .host)
    rintro i rfl
    exact hc i hcompletion

/-! ## Queries and rows -/

theorem calm_nextRow (s : State) (r : Nat) (callback : Callback) : Calm s (s.nextRow r callback) := by
  have hregister := calm_register s rowLabel callback
  simp only [nextRow]
  split
  · exact hregister.trans (calm_invoke _ _ _ _)
  · next stream _ =>
    obtain ⟨hpull, hclosed⟩ := Engine.State.calm_pull
      (s.register rowLabel callback).2.engine stream (s.register rowLabel callback).1
    exact hregister.trans (calm_took hpull hclosed)

theorem calm_attach (s : State) (r : Nat) (operation : Operation) : Calm s (s.attach r operation) :=
  (calm_note s .host _).trans (Calm.of_eq rfl rfl)

theorem calm_strike (s : State) (target : Target) : Calm s (s.strike target) := by
  cases target with
  | empty => exact Calm.refl s
  | pending operation =>
    cases operation with
    | memory c o =>
      exact ⟨rfl, Engine.State.Calm.of_woken (Engine.State.woken_cancelOperation s.engine c o)
        (s.engine.closes_cancelOperation c o)⟩
    | manual m o => exact Calm.of_eq rfl rfl
  | active i => exact ⟨rfl, Engine.State.Calm.of_workers rfl fun _ => rfl⟩

theorem calm_execute {x : Instance} {c : Nat} (hc : x.connector = .memory c) (request : Request)
    (p : Promotion) : Calm s (s.execute x request p).2 := by
  simp only [execute, hc]
  split
  · exact Calm.of_eq rfl rfl
  · next o outcome hexecute =>
    obtain ⟨hengine, hclosed⟩ := Engine.State.calm_execute hexecute
    exact calm_took hengine hclosed

theorem calm_submit (hmemory : ∀ (i : Nat) (x : Instance), s.instances[i]? = some x →
      ∃ c, x.connector = .memory c) (i : Nat) (request : Request) (callback : Callback) :
    Calm s (s.submit i request callback).2 := by
  unfold submit
  cases hx : s.instances[i]? with
  | none => exact Calm.of_eq rfl rfl
  | some x =>
    obtain ⟨c, hc⟩ := hmemory i x hx
    simp only
    cases agent x with
    | error fault => exact Calm.of_eq rfl rfl
    | ok u =>
      have hadd : Calm s (s.addResult .empty).2 := Calm.of_eq rfl rfl
      have hready := (hadd.trans (calm_register _ queryLabel callback)).trans
        (calm_note _ .host [.querySubmitted request.statement])
      have hexecute := hready.trans (calm_execute hc request ⟨(s.addResult .empty).1,
        ((s.addResult .empty).2.register queryLabel callback).1⟩)
      simp only
      split
      · next hrefused =>
        rw [hrefused] at hexecute
        exact hexecute.trans (Calm.of_eq rfl rfl)
      · next haccepted =>
        rw [haccepted] at hexecute
        exact hexecute

/-! ## Connections -/

/-- A connection is created with a loop of its own, or nothing happens to the instances. -/
theorem create_cases (s : State) (c : Nat) (options : Options) :
    Calm s (s.create (.memory c) options).2 ∨ ∃ trace,
      (s.create (.memory c) options).2 = { s with
        engine := s.engine.addLoop.2
        instances := s.instances ++ [{ connector := .memory c, loop := s.engine.workers.length }]
        trace } := by
  unfold create
  cases hvalid : options.validate with
  | error fault => exact Or.inl (Calm.refl s)
  | ok u =>
    simp only [connect, hvalid]
    split
    · exact Or.inl (calm_note s .host [.clusterConnected options.connection])
    · simp only [note_host]
      exact Or.inr ⟨_, rfl⟩

end State

namespace Moment

variable {m : Moment}

theorem calm_submitted {e : Option Nat} {i : Nat} {callback : Callback}
    {outcome : Except Error (Nat × Operation) × State} (h : m.state.Calm outcome.2) :
    m.state.Calm (m.submitted e i callback outcome).state := by
  obtain ⟨_ | ⟨r, operation⟩, state⟩ := outcome
  · simp only [submitted]
    split <;> exact h
  · exact h

theorem calm_resume (m : Moment) : m.state.Calm m.resume.state := by
  unfold resume
  split
  · exact State.Calm.refl _
  · exact State.calm_attach _ _ _
  · next e r operation _ =>
    exact (State.calm_attach m.state r operation).trans (State.Calm.of_eq rfl rfl)
  · exact State.calm_strike _ _
  · next e r target _ =>
    exact (State.calm_strike m.state target).trans (State.Calm.of_eq rfl rfl)

end Moment

/-- The call creates a connection or asks one to shut down. -/
def Deed.concernsInstance : Deed → Bool
  | create .. | destroy _ | dropConnection _ => true
  | _ => false

/-- The other calls of the host leave the instances alone. -/
theorem Moment.calm_act {m : Moment} (hmemory : ∀ (i : Nat) (x : Instance),
      m.state.instances[i]? = some x → ∃ c, x.connector = .memory c) {deed : Deed}
    (hdeed : deed.concernsInstance = false) : m.state.Calm (m.act deed).state := by
  cases deed with
  | connector =>
    refine ⟨rfl, Engine.State.Calm.of_workers rfl fun c => ?_⟩
    exact congrArg Engine.Connector.closes (m.state.engine.connector_addConnector c)
  | dropResult | executor => exact State.Calm.of_eq rfl rfl
  | respond c response =>
    simp only [act]
    split
    · exact ⟨rfl, Engine.State.Calm.of_workers rfl
        (Engine.State.closes_modifyConnector fun _ => by rfl)⟩
    · exact State.Calm.refl _
  | create | destroy | dropConnection => cases hdeed
  | query i request name => exact calm_submitted (State.calm_submit hmemory i request _)
  | next r name => exact State.calm_nextRow _ r _
  | cancel r =>
    simp only [act]
    split <;> exact State.Calm.refl _
  | executorQuery e i request name =>
    refine calm_submitted ?_
    unfold State.executorSubmit
    split
    · exact State.Calm.of_eq rfl rfl
    · exact State.calm_submit hmemory i request _
  | executorNext e name =>
    simp only [act]
    split
    · next hr =>
      simp only [State.executorNext, hr]
      exact State.Calm.of_eq rfl rfl
    · next r hr => exact State.calm_nextRow _ r _
  | executorAbort e =>
    simp only [act]
    split <;> exact State.Calm.refl _
  | dropExecutor e =>
    simp only [act, having, State.dropExecutor]
    split
    · exact State.Calm.refl _
    · exact State.Calm.of_eq rfl rfl
  | dispatch => exact State.calm_dispatch _

end HostBridge.Session
