import HostBridge.Proofs.Loop.Run
import Mathlib.Logic.Relation

/-!
# What one event of a run can do

An event of a run is made up of moves. Most of them are calls of the loop, which come from the host,
from a task, or from the drop of a task. A loop that is asked to stop refuses every task, so that all
a call then does is to write down that tasks were refused and dropped (`Refusals`), each of them
before the call that handed it over returns.
-/

namespace HostBridge.Loop

open Relation

/-! ## Calls -/

/-- What calls of a loop that is asked to stop write down, the newest in front. Within the drop of a
refused task there may be further calls. -/
inductive Refusals : List Occurrence → Prop where
  /-- There is no call. -/
  | nil : Refusals []
  /-- The host thread wrote to the log. -/
  | logged (notice : Log.Notice) {os : List Occurrence} (hos : Refusals os) :
      Refusals (.logged notice :: os)
  /-- The loop was asked to stop, once more. -/
  | stopAsked {os : List Occurrence} (hos : Refusals os) : Refusals (.stopAsked :: os)
  /-- A task was refused. -/
  | refused (task : Task) {inner os : List Occurrence} (hinner : Refusals inner)
      (hos : Refusals os) : Refusals (.handed task false :: (inner ++ .dropped task.name :: os))

theorem Refusals.append {os os' : List Occurrence} (h : Refusals os) (h' : Refusals os') :
    Refusals (os ++ os') := by
  induction h with
  | nil => exact h'
  | logged notice _ ih => exact .logged notice ih
  | stopAsked _ ih => exact .stopAsked ih
  | refused task hinner _ _ ih =>
    rw [List.cons_append, List.append_assoc, List.cons_append]
    exact .refused task hinner ih

theorem refusals_logged (ns : List Log.Notice) : Refusals (ns.map .logged) := by
  induction ns with
  | nil => exact .nil
  | cons n ns ih => exact .logged n ih

theorem Refusals.forall_mem {P : Occurrence → Prop} {os : List Occurrence} (hos : Refusals os)
    (hlogged : ∀ notice, P (.logged notice)) (hstop : P .stopAsked)
    (hhanded : ∀ task, P (.handed task false)) (hdropped : ∀ task, P (.dropped task)) :
    ∀ o ∈ os, P o := by
  induction hos with
  | nil => simp
  | logged notice _ ih => exact List.forall_mem_cons.mpr ⟨hlogged notice, ih⟩
  | stopAsked _ ih => exact List.forall_mem_cons.mpr ⟨hstop, ih⟩
  | refused task _ _ ih ih' =>
    refine List.forall_mem_cons.mpr ⟨hhanded task, List.forall_mem_append.mpr ⟨ih, ?_⟩⟩
    exact List.forall_mem_cons.mpr ⟨hdropped _, ih'⟩

/-- Every occurrence of the trace is lawful, given what happened before it. -/
def Throughout (law : Occurrence → List Occurrence → Prop) (trace : List Occurrence) : Prop :=
  ∀ later o earlier, trace = later ++ o :: earlier → law o earlier

namespace Throughout

variable {law : Occurrence → List Occurrence → Prop} {trace os : List Occurrence}

theorem nil : Throughout law [] := by
  intro later o earlier htrace
  cases later <;> cases htrace

theorem cons {o : Occurrence} (h : Throughout law trace) (ho : law o trace) :
    Throughout law (o :: trace) := by
  intro later o' earlier htrace
  cases later with
  | nil =>
    obtain ⟨rfl, rfl⟩ := List.cons.inj htrace
    exact ho
  | cons _ later => exact h later o' earlier (List.cons.inj htrace).2

theorem append (h : Throughout law trace) (hos : ∀ o ∈ os, ∀ earlier, law o earlier) :
    Throughout law (os ++ trace) := by
  induction os with
  | nil => exact h
  | cons o os ih =>
    have hrest := ih fun o' ho' => hos o' (List.mem_cons_of_mem _ ho')
    exact hrest.cons (hos o List.mem_cons_self _)

end Throughout

namespace State

variable {s s' : State}

/-- Adds to the trace, the newest in front. -/
def noting (s : State) (os : List Occurrence) : State :=
  { s with trace := os ++ s.trace }

theorem noting_noting (s : State) (os os' : List Occurrence) :
    (s.noting os).noting os' = s.noting (os' ++ os) := by
  simp [noting]

theorem log_eq_noting (s : State) (host : Bool) (ns : List Log.Notice) :
    s.log host ns = s.noting ((if host then ns else []).reverse.map .logged) := by
  cases host with
  | false => rfl
  | true =>
    simp only [log, if_true]
    induction ns generalizing s with
    | nil => rfl
    | cons n ns ih =>
      rw [List.foldl_cons, ih]
      simp [noting, record]

/-- Once the loop is asked to stop, this does nothing but have tasks refused. -/
def Refuses (f : State → State) : Prop :=
  ∀ s : State, s.loop.stopping = true → ∃ os, Refusals os ∧ f s = s.noting os

theorem refuses_id : Refuses id :=
  fun _ _ => ⟨[], .nil, rfl⟩

theorem Refuses.comp {f g : State → State} (hf : Refuses f) (hg : Refuses g) :
    Refuses fun s => g (f s) := by
  intro s hs
  obtain ⟨os, hos, h⟩ := hf s hs
  obtain ⟨os', hos', h'⟩ := hg (f s) (by rw [h]; exact hs)
  refine ⟨os' ++ os, hos'.append hos, ?_⟩
  show g (f s) = _
  rw [h', h, noting_noting]

theorem handing_of_stopping (hs : s.loop.stopping = true) (host : Bool) (task : Task)
    {drop : State → State} (hdrop : Refuses drop) :
    ∃ os, Refusals os ∧ s.handing host task drop = (false, s.noting os) := by
  set ns := (if host then refused false else []).reverse with hns
  have hlog : s.log host (refused false) = s.noting (ns.map .logged) := log_eq_noting s host _
  obtain ⟨os, hos, h⟩ := hdrop ((s.noting (ns.map .logged)).record (.dropped task.name)) hs
  refine ⟨.handed task false :: (os ++ .dropped task.name :: ns.map .logged),
    .refused task hos (refusals_logged ns), ?_⟩
  simp only [handing, spawn_of_stopping hs]
  rw [if_neg Bool.false_ne_true, hlog, h]
  simp [noting, record]

theorem askStop_eq_noting (s : State) (host : Bool) :
    s.askStop host = { s with loop := s.loop.stop }.noting
      (.stopAsked :: (if host then s.loop.stopNotices else []).reverse.map .logged) := by
  rw [askStop, log_eq_noting]
  rfl

theorem refuses_askStop (host : Bool) : Refuses fun s => s.askStop host := by
  intro s hs
  set ns := (if host then s.loop.stopNotices else []).reverse with hns
  refine ⟨.stopAsked :: ns.map .logged, .stopAsked (refusals_logged ns), ?_⟩
  have hstop : s.loop.stop = s.loop := by simp [Loop.stop, ← hs]
  show s.askStop host = _
  rw [askStop_eq_noting, hstop]

mutual

theorem refuses_release (host : Bool) : (acts : List Act) → Refuses fun s => s.release host acts
  | [] => refuses_id
  | a :: rest => (refuses_releaseAct host a).comp (refuses_release host rest)
termination_by structural acts => acts

theorem refuses_releaseAct (host : Bool) : (a : Act) → Refuses fun s => s.releaseAct host a
  | .reply fallback => refuses_callAll host fallback
  | .run | .yield | .stop | .isStopped | .spawn _ _ | .selfJoin | .pending | .panic _ => refuses_id
termination_by structural a => a

theorem refuses_callAll (host : Bool) : (acts : List Act) → Refuses fun s => s.callAll host acts
  | [] => refuses_id
  | a :: rest => (refuses_call host a).comp (refuses_callAll host rest)
termination_by structural acts => acts

theorem refuses_call (host : Bool) : (a : Act) → Refuses fun s => s.call host a
  | .spawn name acts => fun s hs => by
    obtain ⟨os, hos, h⟩ := handing_of_stopping hs host ⟨name, acts⟩ (refuses_release host acts)
    exact ⟨os, hos, congrArg Prod.snd h⟩
  | .stop => refuses_askStop host
  | .run | .yield | .isStopped | .reply _ | .selfJoin | .pending | .panic _ => refuses_id
termination_by structural a => a

end

/-- A call of the loop. What it can accept are tasks that are `welcome`. -/
inductive Call (welcome : Task → Prop) (s : State) : State → Prop
  /-- A task is accepted. -/
  | accept (task : Task) (hs : s.loop.stopping = false) (hwelcome : welcome task) :
      Call welcome s ({ s with loop := (s.loop.spawn task).2 }.noting [.handed task true])
  /-- The loop is asked to stop. -/
  | stop (ns : List Log.Notice) :
      Call welcome s ({ s with loop := s.loop.stop }.noting (.stopAsked :: ns.map .logged))
  /-- Tasks are refused. -/
  | refuse (hs : s.loop.stopping = true) {os : List Occurrence} (hos : Refusals os) :
      Call welcome s (s.noting os)

theorem handing_of_not_stopping (hs : s.loop.stopping = false) (host : Bool) (task : Task)
    (drop : State → State) :
    s.handing host task drop =
      (true, { s with loop := (s.loop.spawn task).2 }.noting [.handed task true]) := by
  have haccepted : (s.loop.spawn task).1 = true := by rw [spawn_of_not_stopping hs]
  simp only [handing, haccepted, if_true]
  rw [log_eq_noting]
  cases host <;> rfl

section Calls

variable {welcome : Task → Prop}

theorem call_handing (s : State) (host : Bool) (task : Task) {drop : State → State}
    (hdrop : Refuses drop) (hwelcome : welcome task) :
    s.Call welcome (s.handing host task drop).2 := by
  cases hs : s.loop.stopping with
  | false =>
    rw [handing_of_not_stopping hs]
    exact .accept task hs hwelcome
  | true =>
    obtain ⟨os, hos, h⟩ := handing_of_stopping hs host task hdrop
    rw [h]
    exact .refuse hs hos

theorem call_hand (s : State) (host : Bool) (task : Task) (hwelcome : welcome task) :
    s.Call welcome (s.hand host task).2 :=
  call_handing s host task (refuses_release host task.acts) hwelcome

theorem call_askStop (s : State) (host : Bool) : s.Call welcome (s.askStop host) := by
  rw [askStop_eq_noting]
  exact .stop _

/-- The state after some calls. -/
abbrev Calls (welcome : Task → Prop) : State → State → Prop :=
  ReflTransGen (Call welcome)

theorem calls_call (hwelcome : ∀ t, welcome t) (s : State) (host : Bool) (a : Act) :
    Calls welcome s (s.call host a) := by
  cases a with
  | spawn name acts => exact .single (call_hand s host ⟨name, acts⟩ (hwelcome _))
  | stop => exact .single (call_askStop s host)
  | run | yield | isStopped | reply | selfJoin | pending | panic => exact .refl

theorem calls_callAll (hwelcome : ∀ t, welcome t) (s : State) (host : Bool) (acts : List Act) :
    Calls welcome s (s.callAll host acts) := by
  induction acts generalizing s with
  | nil => exact .refl
  | cons a rest ih => exact (calls_call hwelcome s host a).trans (ih _)

theorem calls_releaseAct (hwelcome : ∀ t, welcome t) (s : State) (host : Bool) (a : Act) :
    Calls welcome s (s.releaseAct host a) := by
  cases a with
  | reply fallback => exact calls_callAll hwelcome s host fallback
  | run | yield | stop | isStopped | spawn | selfJoin | pending | panic => exact .refl

/-- The drop of a task does nothing but call the loop. -/
theorem calls_release (hwelcome : ∀ t, welcome t) (s : State) (host : Bool) (acts : List Act) :
    Calls welcome s (s.release host acts) := by
  induction acts generalizing s with
  | nil => exact .refl
  | cons a rest ih => exact (calls_releaseAct hwelcome s host a).trans (ih _)

end Calls

end State

/-! ## Moves -/

/-- The act does not end the turn of its task, and does not make it seen. -/
def Act.isQuiet : Act → Bool
  | stop | isStopped | spawn _ _ | selfJoin | reply _ => true
  | run | yield | pending | panic _ => false

/-- The occurrence tells what somebody was told. -/
def Occurrence.isAside : Occurrence → Bool
  | askedStopped _ _ | spawned _ _ | selfJoined _ _ => true
  | _ => false

/-- A part of an event. What the loop can accept in it are tasks that are `welcome`. -/
inductive Move (welcome : Task → Prop) : Moment → Moment → Prop
  /-- Somebody calls the loop. -/
  | call (m : Moment) {s : State} (hcall : m.state.Call welcome s) : Move welcome m (m.having s)
  /-- A task is told something. -/
  | aside (m : Moment) (hasThread : Bool) {o : Occurrence} (ho : o.isAside = true) :
      Move welcome m (m.having ({ m.state with hasThread }.noting [o]))
  /-- The thread is started. -/
  | start (m : Moment) (name : String) (hcontext : m.state.hasContext = true) :
      Move welcome m (m.having ({ m.state with
        phase := .running name, hasContext := false, hasThread := true }.noting
          [.announced (.loopStarted name)]))
  /-- The thread gets past an act. -/
  | pass {s : State} {v : Service} {a : Act} {rest : List Act} (hacts : v.acts = a :: rest)
      (hquiet : a.isQuiet = true) :
      Move welcome ⟨s, some v⟩ ⟨s, some { v with acts := rest }⟩
  /-- A task makes itself seen. -/
  | run {s : State} {v : Service} {rest : List Act} (hacts : v.acts = .run :: rest) :
      Move welcome ⟨s, some v⟩ ⟨s.noting [.ran v.task v.thread], some { v with acts := rest }⟩
  /-- The thread takes up the task in front. -/
  | takeUp {s : State} {thread : String} {key : Nat} {rest : List Nat} {task : Task}
      {loop : Loop Task} (hphase : s.phase.thread? = some thread)
      (hfront : s.loop.ready = key :: rest) (htask : s.loop.tasks.get? key = some task)
      (htasks : loop.tasks = s.loop.tasks) (hready : loop.ready = rest)
      (hstopping : loop.stopping = s.loop.stopping) :
      Move welcome ⟨s, none⟩
        ⟨{ s with loop }, some ⟨thread, key, task.name, task.acts⟩⟩
  /-- The task has nothing left to do. -/
  | finish {s : State} {v : Service} (hacts : v.acts = []) :
      Move welcome ⟨s, some v⟩ ⟨s.conclude v.key v.task .finished, none⟩
  /-- The task gives up its turn. -/
  | yield {s : State} {v : Service} {rest : List Act} (hacts : v.acts = .yield :: rest) :
      Move welcome ⟨s, some v⟩ ⟨s.conclude v.key v.task (.yielded rest), none⟩
  /-- The task goes to sleep. -/
  | sleep {s : State} {v : Service} {rest : List Act} (hacts : v.acts = .pending :: rest) :
      Move welcome ⟨s, some v⟩ ⟨s.conclude v.key v.task (.asleep rest), none⟩
  /-- The task has failed, and its drop has called the loop. -/
  | fail {s : State} {v : Service} {payload : Payload} {rest : List Act}
      (hacts : v.acts = .panic payload :: rest) :
      Move welcome ⟨s, some v⟩
        ⟨{ s with loop := s.loop.finish v.key, panics := s.panics ++ [payload] }.noting
          [.dropped v.task, .panicked v.task payload], none⟩
  /-- The thread looks at its signals and goes on. -/
  | renew {s : State} {thread : String} (hphase : s.phase = .running thread) :
      Move welcome ⟨s, none⟩ ⟨{ s with loop := s.loop.renew }, none⟩
  /-- The thread sees the request to stop. -/
  | drain {s : State} {thread : String} (hphase : s.phase = .running thread)
      (hsignal : s.stopSignalled = true) :
      Move welcome ⟨s, none⟩ ⟨{ s with phase := .draining thread, loop := s.loop.handBack }, none⟩
  /-- The thread sees a panic, and no request to stop. -/
  | abort {s : State} {thread : String} {payload : Payload} {panics : List Payload}
      (hphase : s.phase = .running thread) (hsignal : s.stopSignalled = false)
      (hpanics : s.panics = payload :: panics) :
      Move welcome ⟨s, none⟩
        ⟨{ s with phase := .aborted thread, panics, loop := s.loop.handBack }.noting
          [.announced (.loopAborted thread payload.reason)], none⟩
  /-- The thread has nothing left to run and ends. -/
  | exit {s : State} {thread : String} (hphase : s.phase = .draining thread)
      (hready : s.loop.ready = []) :
      Move welcome ⟨s, none⟩
        ⟨{ s with phase := .stopped thread }.noting [.announced (.loopStopped thread)], none⟩

/-- The moment after some moves. -/
abbrev Moves (welcome : Task → Prop) : Moment → Moment → Prop :=
  ReflTransGen (Move welcome)

/-- The task can be handed to the loop by the next thing that a task does. -/
def Service.Offers (v : Service) (t : Task) : Prop :=
  match v.acts with
  | .spawn name acts :: _ => t = ⟨name, acts⟩
  -- The drop of a failed task may hand over anything that it holds.
  | .panic _ :: _ => True
  | _ => False

namespace Moment

variable {welcome asleep : Task → Prop} {m m' : Moment} {e : Event}

/-- The task can be handed to the loop by the event. -/
def Offers (m : Moment) (t : Task) : Event → Prop
  | .spawn name acts => t = ⟨name, acts⟩
  | .step => ∃ v, m.service = some v ∧ v.Offers t
  | .start _ | .stop => False

/-! ## The queue during a turn -/

/-- The loop, with the task that its thread is in the middle of still in front. -/
def queue (m : Moment) : Loop Task :=
  { m.state.loop with ready := (m.service.map Service.key).toList ++ m.state.loop.ready }

/-- The queue is sound, and the task that the thread is in the middle of is in its slot. -/
structure Sound (asleep : Task → Prop) (m : Moment) : Prop where
  /-- Each ready task is in the queue once, and the others have a reason to sleep. -/
  queue : m.queue.Sound asleep
  /-- The task in service is kept in its slot. -/
  held : ∀ v, m.service = some v → ∃ t, m.state.loop.tasks.get? v.key = some t ∧ t.name = v.task

theorem sound_start : ({} : Moment).Sound asleep where
  queue := sound_new
  held := by simp

theorem Sound.valid (h : m.Sound asleep) : m.state.loop.tasks.Valid :=
  h.queue.valid

/-- Nothing has happened to the tasks and their queue. -/
theorem Sound.congr {s : State} (h : m.Sound asleep) (htasks : s.loop.tasks = m.state.loop.tasks)
    (hready : s.loop.ready = m.state.loop.ready) : (m.having s).Sound asleep where
  queue := h.queue.reorder htasks (by simp [Moment.queue, having, hready])
  held v hv := by
    obtain ⟨t, ht, hname⟩ := h.held v hv
    exact ⟨t, by rw [← ht]; exact congrArg (Registry.get? · v.key) htasks, hname⟩

theorem Sound.spawned {t : Task} (h : m.Sound asleep) (hs : m.state.loop.stopping = false)
    (os : List Occurrence) :
    (m.having ({ m.state with loop := (m.state.loop.spawn t).2 }.noting os)).Sound asleep where
  queue := by
    have hspawn := h.queue.spawn t
    rw [spawn_of_not_stopping (show m.queue.stopping = false from hs)] at hspawn
    refine hspawn.reorder ?_ ?_ <;>
      simp [Moment.queue, having, State.noting, spawn_of_not_stopping hs]
  held v hv := by
    obtain ⟨t', ht', hname⟩ := h.held v hv
    refine ⟨t', ?_, hname⟩
    simp only [having, State.noting, spawn_of_not_stopping hs]
    rw [Registry.get?_insert h.valid, if_neg]
    · exact ht'
    · intro heq
      have hfresh := Registry.get?_fresh h.valid t
      rw [← heq, ht'] at hfresh
      cases hfresh

/-- The task in service has other things left to do. -/
theorem Sound.passed {s : State} {v : Service} (h : Sound asleep ⟨s, some v⟩) (acts : List Act) :
    Sound asleep ⟨s, some { v with acts }⟩ where
  queue := h.queue
  held := by
    rintro _ ⟨⟩
    obtain ⟨t, ht⟩ := h.held v rfl
    exact ⟨t, ht⟩

theorem Sound.call {s : State} (h : m.Sound asleep) (hcall : m.state.Call welcome s) :
    (m.having s).Sound asleep := by
  cases hcall with
  | accept task hs => exact h.spawned hs _
  | stop | refuse => exact h.congr rfl rfl

/-- The task in service is finished, or dropped. -/
theorem Sound.finished {s s' : State} {v : Service} (h : Sound asleep ⟨s, some v⟩)
    (htasks : s'.loop.tasks = (s.loop.tasks.remove v.key).2)
    (hready : s'.loop.ready = s.loop.ready) : Sound asleep ⟨s', none⟩ where
  queue := h.queue.finish rfl htasks hready
  held := by simp

/-- The task in service goes to the end of the queue. -/
theorem Sound.yielded {s : State} {v : Service} (h : Sound asleep ⟨s, some v⟩) (rest : List Act) :
    Sound asleep ⟨s.conclude v.key v.task (.yielded rest), none⟩ where
  queue := by
    obtain ⟨t, ht, -⟩ := h.held v rfl
    obtain ⟨hnot, -⟩ := List.nodup_cons.mp h.queue.nodup
    have hfull : ((Moment.queue ⟨s, some v⟩).tasks.get? v.key).isSome := by
      rw [show (Moment.queue ⟨s, some v⟩).tasks = s.loop.tasks from rfl, ht]
      rfl
    refine (h.queue.modify_wake (fun _ => ⟨v.task, rest⟩) hfull).reorder ?_ ?_
    · simp [Moment.queue, State.conclude, Loop.sleep, wake_tasks]
    · have hnot' : v.key ∉ s.loop.ready := hnot
      simp [Moment.queue, State.conclude, Loop.sleep, Loop.wake, hnot']
  held := by simp

theorem Sound.move (h : m.Sound asleep) (hmove : Move welcome m m')
    (hasleep : ∀ v rest, m.service = some v → v.acts = .pending :: rest → asleep ⟨v.task, rest⟩) :
    m'.Sound asleep := by
  cases hmove with
  | call _ hcall => exact h.call hcall
  | aside | start => exact h.congr rfl rfl
  | pass => exact h.passed _
  | run => exact (h.passed _).congr rfl rfl
  | takeUp hphase hfront htask htasks hready =>
    refine ⟨h.queue.reorder htasks ?_, ?_⟩
    · simp [Moment.queue, hready, hfront]
    · rintro _ ⟨⟩
      exact ⟨_, by rw [← htask]; exact congrArg (Registry.get? · _) htasks, rfl⟩
  | finish | fail => exact h.finished rfl rfl
  | yield => exact h.yielded _
  | sleep hacts => exact ⟨h.queue.sleep rfl rfl rfl (hasleep _ _ rfl hacts), by simp⟩
  | renew => exact ⟨h.queue.reorder (renew_tasks _) (.of_eq (renew_ready _)), by simp⟩
  | drain | abort => exact ⟨h.queue.reorder rfl (handBack_ready_perm _), by simp⟩
  | exit => exact ⟨h.queue, by simp⟩

/-! ## Events as moves -/

theorem moves_of_calls {s s' : State} (h : State.Calls welcome s s') (service : Option Service) :
    Moves welcome ⟨s, service⟩ ⟨s', service⟩ :=
  h.lift (fun s => (⟨s, service⟩ : Moment)) fun s _ hcall => Move.call ⟨s, service⟩ hcall

theorem moves_advance (s : State) (v : Service) (hwelcome : ∀ t, v.Offers t → welcome t) :
    Moves welcome ⟨s, some v⟩ (v.advance s) := by
  obtain ⟨thread, key, task, acts⟩ := v
  cases acts with
  | nil => exact .single (.finish rfl)
  | cons a rest =>
    -- An act that does not end the turn is passed first; then comes what it does.
    have hpass (hquiet : a.isQuiet = true) :
        Move welcome ⟨s, some ⟨thread, key, task, a :: rest⟩⟩ ⟨s, some ⟨thread, key, task, rest⟩⟩ :=
      .pass rfl hquiet
    cases a with
    | yield => exact .single (.yield rfl)
    | pending => exact .single (.sleep rfl)
    | run => exact .single (.run rfl)
    | reply => exact .single (hpass rfl)
    | stop => exact .head (hpass rfl) (.single (.call _ (State.call_askStop s false)))
    | isStopped => exact .head (hpass rfl) (.single (.aside _ s.hasThread rfl))
    | spawn name acts =>
      have hcall : s.Call welcome (s.hand false ⟨name, acts⟩).2 :=
        State.call_hand s false ⟨name, acts⟩ (hwelcome _ rfl)
      exact .head (hpass rfl) (.head (.call _ hcall) (.single (.aside _ _ rfl)))
    | selfJoin =>
      refine .head (hpass rfl) (.single ?_)
      show Move welcome _ ⟨s.act task thread .selfJoin, _⟩
      simp only [State.act]
      split
      · exact .aside _ false rfl
      · exact .aside _ s.hasThread rfl
    | panic payload =>
      have hcalls := State.calls_release (fun t => hwelcome t trivial) s false rest
      exact .tail (moves_of_calls hcalls _) (.fail rfl)

theorem moves_takeUp {s : State} {thread : String} {leave : Loop Task → Loop Task}
    (h : Sound asleep ⟨s, none⟩) (hphase : s.phase.thread? = some thread)
    (htasks : (leave s.loop).tasks = s.loop.tasks) (hready : (leave s.loop).ready = s.loop.ready.tail)
    (hstopping : (leave s.loop).stopping = s.loop.stopping) :
    Moves welcome ⟨s, none⟩ (s.takeUp thread leave) := by
  cases hfront : s.loop.ready with
  | nil =>
    simp only [State.takeUp, front?, hfront]
    exact .refl
  | cons key rest =>
    have hfull : (s.loop.tasks.get? key).isSome := h.queue.full key (by simp [Moment.queue, hfront])
    obtain ⟨task, htask⟩ := Option.isSome_iff_exists.mp hfull
    simp only [State.takeUp, front?, hfront, List.head?_cons, Option.map_some, htask]
    exact .single (.takeUp hphase hfront htask htasks (by rw [hready, hfront]; rfl) hstopping)

theorem moves_look {s : State} {thread : String} (hphase : s.phase = .running thread) :
    Moves welcome ⟨s, none⟩ ⟨s.look thread, none⟩ := by
  refine .single ?_
  unfold State.look
  split
  · next hsignal => exact .drain hphase hsignal
  · next hsignal =>
    split
    · exact .renew hphase
    · next hpanics => exact .abort hphase (by simpa using hsignal) hpanics

theorem moves_step (h : m.Sound asleep)
    (hwelcome : ∀ v t, m.service = some v → v.Offers t → welcome t) : Moves welcome m m.step := by
  obtain ⟨s, service⟩ := m
  cases service with
  | some v => exact moves_advance s v fun t => hwelcome v t rfl
  | none =>
    simp only [step]
    cases hphase : s.phase with
    | created | stopped | aborted => exact .refl
    | running name =>
      simp only
      split
      · exact moves_look hphase
      · exact moves_takeUp h (by rw [hphase]; rfl) (beginTurn_tasks _) (beginTurn_ready _)
          (beginTurn_stopping _)
    | draining name =>
      simp only
      split
      · next hready => exact .single (.exit hphase (List.isEmpty_iff.mp hready))
      · exact moves_takeUp h (by rw [hphase]; rfl) rfl rfl rfl

/-- An event is a sequence of moves. -/
theorem moves_perform (h : m.Sound asleep) (hwelcome : ∀ t, m.Offers t e → welcome t) :
    Moves welcome m (m.perform e) := by
  cases e with
  | spawn name acts =>
    simp only [perform, State.apply]
    split
    · exact .single (.call m (State.call_hand m.state true ⟨name, acts⟩ (hwelcome _ rfl)))
    · exact .refl
  | start name =>
    simp only [perform, State.apply]
    split
    · next hcontext => exact .single (.start m name hcontext)
    · exact .refl
  | stop =>
    simp only [perform, State.apply]
    split
    · exact .single (.call m (State.call_askStop m.state true))
    · exact .refl
  | step => exact moves_step h fun v t hv ht => hwelcome t ⟨v, hv, ht⟩

/-! ## Invariants of runs -/

variable {inv : Moment → Prop}

theorem Sound.moves_induction (h : m.Sound asleep) (hm : inv m)
    (hmove : ∀ m m', m.Sound asleep → Move welcome m m' → inv m → inv m')
    (hasleep : ∀ m v rest, inv m → m.service = some v → v.acts = .pending :: rest →
      asleep ⟨v.task, rest⟩) (hmoves : Moves welcome m m') : m'.Sound asleep ∧ inv m' := by
  induction hmoves with
  | refl => exact ⟨h, hm⟩
  | tail _ hmv ih => exact ⟨ih.1.move hmv (hasleep _ · · ih.2), hmove _ _ ih.1 hmv ih.2⟩

/-- What is kept by every move is kept by every sequence of events. -/
theorem Sound.foldl_induction (h : m.Sound asleep) (hm : inv m) (events : List Event)
    (hmove : ∀ m m', m.Sound asleep → Move welcome m m' → inv m → inv m')
    (hwelcome : ∀ m t, inv m → ∀ e ∈ events, m.Offers t e → welcome t)
    (hasleep : ∀ m v rest, inv m → m.service = some v → v.acts = .pending :: rest →
      asleep ⟨v.task, rest⟩) :
    (events.foldl perform m).Sound asleep ∧ inv (events.foldl perform m) := by
  induction events generalizing m with
  | nil => exact ⟨h, hm⟩
  | cons e events ih =>
    have hmoves : Moves welcome m (m.perform e) :=
      moves_perform h fun t => hwelcome m t hm e (by simp)
    obtain ⟨h', hm'⟩ := h.moves_induction hm hmove hasleep hmoves
    exact ih h' hm' fun m t hm e he => hwelcome m t hm e (by simp [he])

end Moment

end HostBridge.Loop
