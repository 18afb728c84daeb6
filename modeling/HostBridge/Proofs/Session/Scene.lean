import HostBridge.Proofs.Session.Calm
import HostBridge.Proofs.Session.Later
import Mathlib.Logic.Function.Iterate

/-!
# A shutdown, step by step

Three threads take part in the shutdown of an instance: the host asks for it, the thread of the loop
reports that the cluster is closed, and the reaper waits for that thread and releases what is left. If
no reaper can be started, the thread of the loop lets go of everything itself, without a wait. Each of
them does several things in a row, and the others can see the instance in between. A `Scene` is a
moment of a run together with what the host thread and the threads of the loops are in the middle of,
so that everything else may happen between any two of these things.

Shutdowns that nothing interrupts are those of a run. `Scene.Step` lists what an event can do to the
instances and to their loops.
-/

namespace HostBridge.Session

/-- How far the thread of a loop has come with the report that a cluster is closed. -/
inductive Report where
  /-- There is none. -/
  | idle
  /-- It was told that the cluster of an instance is closed. -/
  | begun (instanceNumber : Nat)
  /-- It has moved the instance on, whose loop is not stopped yet. -/
  | moved (instanceNumber : Nat)
  /-- It has stopped the loop of the instance, whose reaper is not started yet. -/
  | stopped (instanceNumber : Nat)
  /-- There is no reaper, and it has left the thread of the loop to itself. -/
  | detached (instanceNumber : Nat)
  /-- It has released the engine, too. -/
  | released (instanceNumber : Nat)
  /-- It has marked the instance as destroyed, and is about to give the signal. -/
  | marked (instanceNumber : Nat)

namespace Report

/-- The instance that is reported on. -/
def about? : Report → Option Nat
  | idle => none
  | begun i | moved i | stopped i | detached i | released i | marked i => some i

/-- The instance that was moved on and has no reaper. -/
def past? : Report → Option Nat
  | idle | begun _ => none
  | moved i | stopped i | detached i | released i | marked i => some i

theorem about?_of_past? {r : Report} {i : Nat} (h : r.past? = some i) : r.about? = some i := by
  cases r with
  | idle | begun => cases h
  | moved | stopped | detached | released | marked => exact h

/-- A thread that has found no reaper lets go of one piece of an instance, and comes that much
further. -/
inductive Releases (i : Nat) (x : Instance) : Report → Instance → Report → Prop
  /-- The thread of the loop is left to itself. -/
  | thread : Releases i x (.stopped i) { x with hasThread := false } (.detached i)
  /-- The engine is released. -/
  | engine : Releases i x (.detached i) { x with hasEngine := false } (.released i)
  /-- The instance is marked as destroyed. -/
  | state : Releases i x (.released i) { x with state := .destroyed } (.marked i)
  /-- The signal is given. -/
  | signal : Releases i x (.marked i) { x with signalOpen := false } .idle

end Report

/-- A moment of a run, with the shutdowns that are under way. -/
structure Scene where
  /-- The moment. -/
  moment : Moment := {}
  /-- The instance that the host has moved on and whose cluster it is about to close. -/
  request : Option Nat := none
  /-- What the threads of the loops are in the middle of. -/
  report : Nat → Report := fun _ => .idle

namespace Scene

/-- The session. -/
def state (c : Scene) : State := c.moment.state

/-- The scene with another session. -/
def having (c : Scene) (state : State) : Scene :=
  { c with moment := c.moment.having state }

/-- The host thread can begin a call. -/
def isFree (c : Scene) : Bool :=
  c.request.isNone && match c.moment.call with
    | .idle => true
    | _ => false

/-! ## The host -/

/-- The host asks an instance to shut down. An instance that runs is moved on. -/
def ask (c : Scene) (i : Nat) : Scene :=
  match c.state.instances[i]? with
  | none => c
  | some x =>
    match x.transit? .running .closingNetwork with
    | none => c.having (c.state.note .host [.destroyRefused x.state])
    | some y => { c.having (c.state.modifyInstance i fun _ => y) with request := some i }

/-- The host lets go of a connection. -/
def drop (c : Scene) (i : Nat) : Scene :=
  match c.state.instances[i]? with
  | none => c
  | some x => if x.state = .running then c.ask i else c

/-- The host looks for the engine of an instance and closes its cluster. -/
def close (c : Scene) (i : Nat) : Scene :=
  match c.state.instances[i]? with
  | none => { c with request := none }
  | some x =>
    if x.hasEngine then { c.having (c.state.close i x) with request := none }
    else { c with request := none }

/-! ## The threads of the loops -/

/-- The thread of a loop does something to an instance that it reports on, and comes further. -/
def goOn (c : Scene) (l i : Nat) (f : Instance → Instance) (r : Report) : Scene :=
  { c.having (c.state.modifyInstance i f) with report := Function.update c.report l r }

/-- The thread of a loop goes on, with a report if it is in the middle of one. -/
def turn (c : Scene) (l : Nat) : Scene :=
  match c.report l with
  | .idle =>
    match c.state.engine.turn l with
    | (some (.closed i), engine) =>
      { c.having { c.state with engine } with report := Function.update c.report l (.begun i) }
    | _ => { c with moment := c.moment.perform (.turn l) }
  | .begun i =>
    match (c.state.instances[i]?).bind fun x => x.transit? .closingNetwork .joiningThread with
    | none => { c with report := Function.update c.report l .idle }
    | some y => c.goOn l i (fun _ => y) (.moved i)
  | .moved i =>
    match c.state.instances[i]? with
    | none => { c with report := Function.update c.report l .idle }
    | some x =>
      { c.having { c.state with engine := c.state.engine.stop x.loop } with
        report := Function.update c.report l (.stopped i) }
  | .stopped i =>
    match c.state.reaperFault with
    | none => c.goOn l i (fun x => { x with reaper := .started }) .idle
    | some _ => c.goOn l i (fun x => { x with hasThread := false }) (.detached i)
  | .detached i => c.goOn l i (fun x => { x with hasEngine := false }) (.released i)
  | .released i => c.goOn l i (fun x => { x with state := .destroyed }) (.marked i)
  | .marked i => c.goOn l i (fun x => { x with signalOpen := false }) .idle

/-- One event. An event that cannot happen changes nothing. -/
def perform (c : Scene) : Event → Scene
  | .act (.destroy i) => if c.isFree then c.ask i else c
  | .act (.dropConnection i) => if c.isFree then c.drop i else c
  | .act deed => if c.isFree then { c with moment := c.moment.act deed } else c
  | .resume =>
    match c.request with
    | some i => c.close i
    | none => { c with moment := c.moment.resume }
  | .turn l => c.turn l
  | .elapse l key => { c with moment := c.moment.perform (.elapse l key) }
  | .reap i => c.having (c.state.reap i)
  | .reapers fault => { c with moment := c.moment.perform (.reapers fault) }

end Scene

/-- The scene after a run. -/
def scene (events : List Event) : Scene :=
  events.foldl Scene.perform {}

namespace Scene

variable {c c' : Scene} {i l : Nat} {x y : Instance}

/-! ## Shutdowns that nothing interrupts -/

theorem call_of_isFree (h : c.isFree = true) : c.request = none ∧ c.moment.call = .idle := by
  simp only [isFree, Bool.and_eq_true, Option.isNone_iff_eq_none] at h
  obtain ⟨hrequest, hcall⟩ := h
  refine ⟨hrequest, ?_⟩
  split at hcall
  · assumption
  · cases hcall

/-- A request that nothing interrupts is the request of a run. -/
theorem moment_destroy (hfree : c.isFree = true) (i : Nat) :
    ((c.perform (.act (.destroy i))).perform .resume).moment =
      c.moment.perform (.act (.destroy i)) := by
  obtain ⟨hrequest, hcall⟩ := call_of_isFree hfree
  have hresume : ∀ m : Moment, m.call = .idle → m.resume = m := fun m hm => by
    simp [Moment.resume, hm]
  simp only [perform, hfree, if_true, ask, Moment.perform, hcall, Moment.act, State.destroy]
  cases hx : c.state.instances[i]? with
  | none =>
    have hx' : c.moment.state.instances[i]? = none := hx
    simp only [hrequest, hx']
    exact hresume _ hcall
  | some x =>
    have hx' : c.moment.state.instances[i]? = some x := hx
    simp only [hx']
    cases hy : x.transit? .running .closingNetwork with
    | none =>
      simp only [having, hrequest]
      exact hresume _ hcall
    | some y =>
      have hget : (c.state.modifyInstance i fun _ => y).instances[i]? = some y := by
        simp [State.modifyInstance, hx]
      simp only [close, state, having, Moment.having] at hget ⊢
      rw [hget]
      dsimp only
      split <;> rfl

/-- So is the end of a connection that the host lets go of. -/
theorem moment_dropConnection (hfree : c.isFree = true) (i : Nat) :
    ((c.perform (.act (.dropConnection i))).perform .resume).moment =
      c.moment.perform (.act (.dropConnection i)) := by
  obtain ⟨hrequest, hcall⟩ := call_of_isFree hfree
  have hstay : (c.perform .resume).moment = c.moment := by
    simp [perform, hrequest, Moment.resume, hcall]
  have hdestroy := moment_destroy hfree i
  simp only [perform, hfree, if_true, drop, Moment.perform, hcall, Moment.act,
    State.dropConnection] at hdestroy hstay ⊢
  cases hx : c.state.instances[i]? with
  | none =>
    have hx' : c.moment.state.instances[i]? = none := hx
    simp only [hx']
    exact hstay
  | some x =>
    have hx' : c.moment.state.instances[i]? = some x := hx
    simp only [hx']
    by_cases hrunning : x.state = .running
    · simp only [if_pos hrunning]
      exact hdestroy
    · simp only [if_neg hrunning]
      exact hstay

theorem report_goOn (f : Instance → Instance) (r : Report) : (c.goOn l i f r).report l = r :=
  Function.update_self ..

theorem goOn_goOn (f g : Instance → Instance) (r r' : Report) :
    (c.goOn l i f r).goOn l i g r' = c.goOn l i (g ∘ f) r' := by
  simp only [goOn, having, Moment.having, state, State.modifyInstance, List.modify_modify_eq,
    Function.update_idem]

/-- A thread that finds no reaper lets go of everything, one piece after the other. -/
theorem turns_of_no_reaper (hstopped : c.report l = .stopped i)
    (hfault : c.state.reaperFault ≠ none) :
    (((c.turn l).turn l).turn l).turn l = c.goOn l i Instance.detach .idle := by
  obtain ⟨reason, hreason⟩ := Option.ne_none_iff_exists'.mp hfault
  have hdetached : c.turn l = c.goOn l i (fun x => { x with hasThread := false }) (.detached i) := by
    simp only [turn, hstopped, hreason]
  have hreleased : (c.turn l).turn l = c.goOn l i
      (fun x => { x with hasThread := false, hasEngine := false }) (.released i) := by
    rw [hdetached, turn, report_goOn]
    exact goOn_goOn _ _ _ _
  have hmarked : ((c.turn l).turn l).turn l = c.goOn l i
      (fun x => { x with hasThread := false, hasEngine := false, state := .destroyed })
      (.marked i) := by
    rw [hreleased, turn, report_goOn]
    exact goOn_goOn _ _ _ _
  rw [hmarked, turn, report_goOn]
  exact goOn_goOn _ _ _ _

/-- A report that nothing interrupts is the turn of a run. It takes more steps of its thread if there
is no reaper. -/
theorem moment_turn (hidle : c.report l = .idle)
    {engine : Engine.State Promotion Bridge.Cookie Nat}
    (hturn : c.state.engine.turn l = (some (.closed i), engine))
    (hx : c.state.instances[i]? = some x) (hclosing : x.state = .closingNetwork) :
    ((turn · l)^[if c.state.reaperFault = none then 4 else 7] c).moment =
      c.moment.perform (.turn l) := by
  have hmove : x.transit? .closingNetwork .joiningThread = some { x with state := .joiningThread } := by
    simp [Instance.transit?, hclosing]
  have htold : c.turn l = { c.having { c.state with engine } with
      report := Function.update c.report l (.begun i) } := by
    simp only [turn, hidle, hturn]
  set s : State := { c.state with engine } with hs
  have hx' : s.instances[i]? = some x := hx
  have hmoved : (c.turn l).turn l = { c.having (s.modifyInstance i fun _ =>
      { x with state := .joiningThread }) with report := Function.update c.report l (.moved i) } := by
    rw [htold]
    simp only [turn, goOn, having, Moment.having, state, Function.update_self, Function.update_idem]
    simp only [hx', Option.bind_some, hmove]
  -- the loop is stopped, and it depends on the reaper what comes next
  set s' : State := { s.modifyInstance i (fun _ => { x with state := .joiningThread }) with
    engine := engine.stop x.loop } with hs'
  have hstopped : ((c.turn l).turn l).turn l =
      { c.having s' with report := Function.update c.report l (.stopped i) } := by
    have hget : (s.modifyInstance i fun _ => { x with state := .joiningThread }).instances[i]? =
        some { x with state := .joiningThread } := by
      simp [State.modifyInstance, hx']
    rw [hmoved]
    simp only [turn, having, Moment.having, state, Function.update_self, Function.update_idem, hget]
    rfl
  have hrun : c.moment.perform (.turn l) = c.moment.having (s.clusterClosed .loop i) := by
    have hturn' : c.moment.state.engine.turn l = (some (.closed i), engine) := hturn
    have hglance : c.moment.state.engine.glance? l = none :=
      Engine.State.glance?_of_report (congrArg Prod.fst hturn)
    simp only [Moment.perform, Moment.having, State.turn, State.glimpse, hturn', hglance,
      State.complete, State.observe, Option.bind_none, Option.toList_none, List.append_nil]
    rfl
  have hself : (((c.turn l).turn l).turn l).report l = .stopped i := by
    rw [hstopped]
    exact Function.update_self ..
  have hsame : (((c.turn l).turn l).turn l).state.reaperFault = c.state.reaperFault := by
    rw [hstopped]
    rfl
  simp only [hrun, State.clusterClosed, hx', hmove, State.note]
  cases hfault : c.state.reaperFault with
  | none =>
    rw [if_pos rfl]
    show ((((c.turn l).turn l).turn l).turn l).moment = _
    rw [turn, hself]
    simp only [hsame, hfault]
    rw [hstopped]
    split
    · rfl
    · next hsome => exact absurd (hsome.symm.trans hfault) (Option.some_ne_none _)
  | some reason =>
    rw [if_neg (Option.some_ne_none reason)]
    show (((((((c.turn l).turn l).turn l).turn l).turn l).turn l).turn l).moment = _
    rw [turns_of_no_reaper hself (by simp [hsame, hfault]), hstopped]
    split
    · next hnone => exact absurd (hfault.symm.trans hnone) (Option.some_ne_none reason)
    · rfl

/-! ## What an event can do -/

/-- What an event can do to the instances and to their loops. -/
inductive Step (c : Scene) : Event → Scene → Prop
  /-- Nothing that concerns an instance. -/
  | calm {event : Event} {moment : Moment} (hcalm : c.state.Calm moment.state) :
      Step c event { c with moment }
  /-- A connection is created. -/
  | create {event : Event} {moment : Moment} {k : Nat}
      (hinstances : moment.state.instances = c.state.instances ++
        [{ connector := .memory k, loop := c.state.engine.workers.length }])
      (hengine : moment.state.engine = c.state.engine.addLoop.2) : Step c event { c with moment }
  /-- The host moves an instance on that runs. -/
  | ask {event : Event} {i : Nat} {x : Instance}
      (hevent : event = .act (.destroy i) ∨ event = .act (.dropConnection i))
      (hx : c.state.instances[i]? = some x) (hrunning : x.state = .running) :
      Step c event { c.having (c.state.modifyInstance i fun _ => { x with
        state := .closingNetwork }) with request := some i }
  /-- The host closes the cluster of an instance. -/
  | close {i k : Nat} {x : Instance} {moment : Moment} (hrequest : c.request = some i)
      (hinstances : moment.state.instances = c.state.instances)
      (hlength : moment.state.engine.workers.length = c.state.engine.workers.length)
      (hstopping : ∀ l, (moment.state.engine.loop l).stopping = (c.state.engine.loop l).stopping)
      (hannounces : ∀ k, moment.state.engine.Announces k → k = i ∨ c.state.engine.Announces k)
      (hx : c.state.instances[i]? = some x) (hk : x.connector = .memory k)
      (hcloses : ∀ d, (moment.state.engine.connector d).closes =
        (c.state.engine.connector d).closes +
          if d = k ∧ k < c.state.engine.connectors.length then 1 else 0) :
      Step c .resume { c with moment, request := none }
  /-- The thread of a loop is told that a cluster is closed. -/
  | told {l i : Nat} {engine : Engine.State Promotion Bridge.Cookie Nat}
      (hidle : c.report l = .idle) (hcalm : c.state.engine.Calm engine)
      (hannounced : c.state.engine.Announces i) :
      Step c (.turn l) { c.having { c.state with engine } with
        report := Function.update c.report l (.begun i) }
  /-- The thread of a loop takes no interest in the report. -/
  | ignore {l i : Nat} (hbegun : c.report l = .begun i) :
      Step c (.turn l) { c with report := Function.update c.report l .idle }
  /-- The thread of a loop moves an instance on. -/
  | move {l i : Nat} {x : Instance} (hbegun : c.report l = .begun i)
      (hx : c.state.instances[i]? = some x) (hclosing : x.state = .closingNetwork) :
      Step c (.turn l) (c.goOn l i (fun _ => { x with state := .joiningThread }) (.moved i))
  /-- The thread of a loop stops the loop of an instance. -/
  | stop {l i : Nat} (hmoved : c.report l = .moved i) :
      Step c (.turn l) { c.having { c.state with engine := c.state.engine.stop i } with
        report := Function.update c.report l (.stopped i) }
  /-- The thread of a loop starts the reaper of an instance. -/
  | start {l i : Nat} {x : Instance} (hstopped : c.report l = .stopped i)
      (hx : c.state.instances[i]? = some x) :
      Step c (.turn l) (c.goOn l i (fun _ => { x with reaper := .started }) .idle)
  /-- The thread of a loop lets go of a piece of an instance, for which there is no reaper. -/
  | release {l i : Nat} {x y : Instance} {r : Report} (hreleases : Report.Releases i x (c.report l) y r)
      (hfault : c.report l = .stopped i → c.state.reaperFault ≠ none)
      (hx : c.state.instances[i]? = some x) :
      Step c (.turn l) (c.goOn l i (fun _ => y) r)
  /-- The reaper of an instance takes a step. -/
  | reap {i : Nat} {x : Instance} (hx : c.state.instances[i]? = some x) :
      Step c (.reap i) (c.having (c.state.modifyInstance i fun _ =>
        x.reap (c.state.threadEnded i)))

end Scene

end HostBridge.Session
