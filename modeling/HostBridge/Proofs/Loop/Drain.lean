import HostBridge.Proofs.Loop.Moves
import Mathlib.Algebra.GroupWithZero.Nat

/-!
# A thread with a reason to end does end

A thread has a reason to end once the loop is asked to stop or a task has failed. From then on every
step that it takes makes its rank smaller. The rank counts what is left to do by all unfinished tasks,
tasks that they will hand over included, so that it does not matter whether these are accepted. A call
from outside can only make the rank larger by handing over a task that is accepted, which a loop that
is asked to stop does not do.
-/

namespace HostBridge.Loop

/-- How far the thread is from its end. -/
def Phase.rank : Phase → Nat
  | running _ => 2
  | draining _ => 1
  | _ => 0

/-- The thread has ended. -/
def Phase.isEnded : Phase → Bool
  | stopped _ | aborted _ => true
  | _ => false

theorem Act.weight_pos (a : Act) : 0 < a.weight := by
  cases a <;> simp only [Act.weight] <;> omega

theorem Task.weight_cons (name : String) (a : Act) (rest : List Act) :
    Task.weight ⟨name, a :: rest⟩ = a.weight + Task.weight ⟨name, rest⟩ := by
  simp only [Task.weight, actsWeight]
  omega

/-- A bound on what an event adds to what is left to do, as long as tasks are accepted. -/
def Event.expense : Event → Nat
  | .spawn name acts => 2 * Task.weight ⟨name, acts⟩ + 1
  | .start _ | .stop | .step => 0

theorem effort_cons (t : Task) (ts : List Task) : effort (t :: ts) = t.weight + effort ts :=
  rfl

theorem effort_perm {ts ts' : List Task} (h : ts.Perm ts') : effort ts = effort ts' := by
  induction h with
  | nil => rfl
  | cons t _ ih => rw [effort_cons, effort_cons, ih]
  | swap t t' ts =>
    simp only [effort_cons]
    omega
  | trans _ _ ih ih' => exact ih.trans ih'

namespace Moment

variable {welcome asleep : Task → Prop} {m m' : Moment} {s : State} {v : Service} {t : Task}

/-! ## Where the thread stands -/

/-- The facts about the thread and its signals that hold throughout a run. -/
structure Orderly (m : Moment) : Prop where
  /-- The context is there until the thread is started. -/
  fresh : m.state.hasContext = true → m.state.phase = .created
  /-- The host keeps its handle. -/
  handle : m.state.hasHandle = true
  /-- A task is served by the thread. -/
  serving : ∀ v, m.service = some v → m.state.phase.thread? = some v.thread
  /-- Requests to stop are remembered. -/
  stopping : m.state.loop.stopping = true ↔ .stopAsked ∈ m.state.trace
  /-- The thread winds up in order only at a request to stop. -/
  draining : ∀ thread, m.state.phase = .draining thread ∨ m.state.phase = .stopped thread →
    m.state.loop.stopping = true

theorem orderly_start : ({} : Moment).Orderly where
  fresh _ := rfl
  handle := rfl
  serving := by simp
  stopping := by simp
  draining := by simp

theorem Orderly.stopSignalled_eq (h : m.Orderly) :
    m.state.stopSignalled = m.state.loop.stopping := by
  simp [State.stopSignalled, h.handle]

/-- Neither the thread nor its signals are touched. -/
theorem Orderly.keep {service : Option Service} (h : m.Orderly) (os : List Occurrence)
    (hcontext : s.hasContext = m.state.hasContext) (hhandle : s.hasHandle = m.state.hasHandle)
    (hphase : s.phase = m.state.phase) (hstopping : s.loop.stopping = m.state.loop.stopping)
    (htrace : s.trace = os ++ m.state.trace) (hos : .stopAsked ∉ os)
    (hservice : ∀ v, service = some v → m.state.phase.thread? = some v.thread) :
    Orderly ⟨s, service⟩ where
  fresh hc := by rw [hphase]; exact h.fresh (hcontext ▸ hc)
  handle := hhandle.trans h.handle
  serving v hv := by rw [hphase]; exact hservice v hv
  stopping := by
    rw [hstopping, h.stopping, htrace]
    simp [hos]
  draining thread ht := by
    rw [hphase] at ht
    rw [hstopping]
    exact h.draining thread ht

theorem Orderly.call (h : m.Orderly) (hcall : m.state.Call welcome s) :
    (m.having s).Orderly := by
  cases hcall with
  | accept task hs =>
    refine h.keep _ rfl rfl rfl ?_ rfl (by simp) h.serving
    simp [State.noting, spawn_of_not_stopping hs]
  | stop ns =>
    exact {
      fresh := h.fresh
      handle := h.handle
      serving := h.serving
      stopping := by simp [having, State.noting, Loop.stop]
      draining := fun _ _ => rfl }
  | refuse hs hos =>
    exact {
      fresh := h.fresh
      handle := h.handle
      serving := h.serving
      stopping := by
        refine iff_of_true hs ?_
        exact List.mem_append_right _ (h.stopping.mp hs)
      draining := fun _ _ => hs }

theorem Orderly.move (h : m.Orderly) (hmove : Move welcome m m') : m'.Orderly := by
  cases hmove with
  | call _ hcall => exact h.call hcall
  | aside _ hasThread ho =>
    refine h.keep _ rfl rfl rfl rfl rfl ?_ h.serving
    intro hmem
    rw [← List.mem_singleton.mp hmem] at ho
    cases ho
  | start m name hcontext =>
    have hcreated := h.fresh hcontext
    have hidle : m.service = none := by
      cases hv : m.service with
      | none => rfl
      | some v =>
        have := h.serving v hv
        rw [hcreated] at this
        cases this
    exact {
      fresh := by simp [having, State.noting]
      handle := h.handle
      serving := by simp [having, hidle]
      stopping := by simpa [having, State.noting] using h.stopping
      draining := by simp [having, State.noting] }
  | pass =>
    have hserving := h.serving _ rfl
    refine h.keep [] rfl rfl rfl rfl rfl (by simp) ?_
    rintro _ ⟨⟩
    exact hserving
  | run =>
    have hserving := h.serving _ rfl
    refine h.keep _ rfl rfl rfl rfl rfl (by simp) ?_
    rintro _ ⟨⟩
    exact hserving
  | takeUp hphase hfront htask htasks hready hstopping =>
    refine h.keep [] rfl rfl rfl hstopping rfl (by simp) ?_
    rintro _ ⟨⟩
    exact hphase
  | finish => exact h.keep [.finished _] rfl rfl rfl rfl rfl (by simp) (by simp)
  | yield => exact h.keep [] rfl rfl rfl (wake_stopping _ _) rfl (by simp) (by simp)
  | sleep => exact h.keep [] rfl rfl rfl rfl rfl (by simp) (by simp)
  | fail => exact h.keep _ rfl rfl rfl rfl rfl (by simp) (by simp)
  | renew => exact h.keep [] rfl rfl rfl (renew_stopping _) rfl (by simp) (by simp)
  | drain hphase hsignal =>
    rw [h.stopSignalled_eq] at hsignal
    exact {
      fresh := fun hc => absurd (h.fresh hc) (by simp [hphase])
      handle := h.handle
      serving := by simp
      stopping := h.stopping
      draining := fun _ _ => hsignal }
  | abort hphase hsignal hpanics =>
    exact {
      fresh := fun hc => absurd (h.fresh hc) (by simp [hphase])
      handle := h.handle
      serving := by simp
      stopping := h.stopping.trans (by simp [State.noting])
      draining := by simp [State.noting] }
  | exit hphase hready =>
    exact {
      fresh := fun hc => absurd (h.fresh hc) (by simp [hphase])
      handle := h.handle
      serving := by simp
      stopping := by simpa [State.noting] using h.stopping
      draining := fun _ _ => h.draining _ (Or.inl hphase) }

/-! ## What is left to do -/

/-- The unfinished tasks with what they have left to do. -/
def left (m : Moment) : List Task :=
  match m.service with
  | none => m.state.loop.tasks.contents
  | some v => ⟨v.task, v.acts⟩ :: (m.state.loop.tasks.remove v.key).2.contents

theorem left_spawned (h : m.Sound asleep) (hs : m.state.loop.stopping = false) (t : Task)
    (os : List Occurrence) :
    (m.having ({ m.state with loop := (m.state.loop.spawn t).2 }.noting os)).left.Perm
      (t :: m.left) := by
  obtain ⟨s, service⟩ := m
  cases service with
  | none =>
    simpa [left, having, State.noting, spawn_of_not_stopping hs] using
      Registry.contents_insert h.valid t
  | some v =>
    obtain ⟨t', ht', -⟩ := h.held v rfl
    have hperm := (Registry.contents_remove_insert h.valid ht' t).cons ⟨v.task, v.acts⟩
    simpa [left, having, State.noting, spawn_of_not_stopping hs] using
      hperm.trans (List.Perm.swap t ⟨v.task, v.acts⟩ _)

theorem left_takeUp {key : Nat} {loop : Loop Task} (thread : String)
    (htask : s.loop.tasks.get? key = some t) (htasks : loop.tasks = s.loop.tasks) :
    (left ⟨{ s with loop }, some ⟨thread, key, t.name, t.acts⟩⟩).Perm (left ⟨s, none⟩) := by
  simp only [left, htasks]
  exact (Registry.contents_remove htask).symm

/-- The task in service goes back to its slot. -/
theorem left_put (h : Sound asleep ⟨s, some v⟩) (t : Task) :
    (s.loop.tasks.modify v.key fun _ => t).contents.Perm
      (t :: (s.loop.tasks.remove v.key).2.contents) := by
  obtain ⟨t', ht', -⟩ := h.held v rfl
  exact Registry.contents_modify ht' fun _ => t

theorem left_yielded (h : Sound asleep ⟨s, some v⟩) (rest : List Act) :
    (left ⟨s.conclude v.key v.task (.yielded rest), none⟩).Perm
      (⟨v.task, rest⟩ :: (s.loop.tasks.remove v.key).2.contents) := by
  simpa [left, State.conclude, wake_tasks, Loop.sleep] using left_put h ⟨v.task, rest⟩

/-! ## Rank -/

/-- A bound on the steps that the thread takes to its end. -/
def rank (m : Moment) : Nat :=
  2 * effort m.left + m.state.loop.ready.length + m.state.phase.rank

theorem rank_serving (s : State) (v : Service) :
    rank ⟨s, some v⟩ = 2 * (Task.weight ⟨v.task, v.acts⟩ +
      effort (s.loop.tasks.remove v.key).2.contents) + s.loop.ready.length + s.phase.rank := by
  simp only [rank, left, effort_cons]

/-- A call can only raise the rank by handing over a task that is accepted. -/
theorem rank_call_le (h : m.Sound asleep) (hcall : m.state.Call (· = t) s) :
    (m.having s).rank ≤ m.rank + 2 * t.weight + 1 := by
  cases hcall with
  | accept task hs hwelcome =>
    subst hwelcome
    have hleft := effort_perm (left_spawned h hs task [.handed task true])
    have hready : (m.state.loop.spawn task).2.ready.length = m.state.loop.ready.length + 1 := by
      simp [spawn_of_not_stopping hs]
    rw [effort_cons] at hleft
    simp only [rank, hleft]
    simp only [having, State.noting, hready]
    omega
  | stop | refuse =>
    show m.rank ≤ _
    omega

theorem rank_call_of_stopping (hs : m.state.loop.stopping = true)
    (hcall : m.state.Call welcome s) : (m.having s).rank = m.rank := by
  cases hcall with
  | accept task hs' => simp [hs] at hs'
  | stop | refuse => rfl

theorem rank_askStop (m : Moment) (host : Bool) : (m.having (m.state.askStop host)).rank = m.rank := by
  rw [State.askStop_eq_noting]
  rfl

theorem rank_call (h : m.Sound asleep) (host : Bool) (a : Act) :
    (m.having (m.state.call host a)).rank ≤ m.rank + 2 * a.weight := by
  cases a with
  | spawn name acts =>
    have hle := rank_call_le h (State.call_hand m.state host ⟨name, acts⟩ rfl)
    simp only [Task.weight] at hle
    simp only [Act.weight]
    refine Nat.le_trans hle ?_
    omega
  | stop =>
    have heq := rank_askStop m host
    simp only [State.call]
    omega
  | run | yield | isStopped | reply | selfJoin | pending | panic => exact Nat.le_add_right _ _

theorem Sound.calls (h : m.Sound asleep) (hcalls : State.Calls welcome m.state s) :
    (m.having s).Sound asleep := by
  induction hcalls with
  | refl => exact h
  | tail _ hcall ih => exact ih.call hcall

theorem rank_callAll (h : m.Sound asleep) (host : Bool) (acts : List Act) :
    (m.having (m.state.callAll host acts)).rank ≤ m.rank + 2 * actsWeight acts := by
  induction acts generalizing m with
  | nil => exact Nat.le_add_right _ _
  | cons a rest ih =>
    have hcall := rank_call h host a
    have hrest := ih (h.calls (State.calls_call (fun _ => trivial) m.state host a))
    simp only [actsWeight]
    refine Nat.le_trans hrest ?_
    omega

theorem rank_releaseAct (h : m.Sound asleep) (host : Bool) (a : Act) :
    (m.having (m.state.releaseAct host a)).rank ≤ m.rank + 2 * a.weight := by
  cases a with
  | reply fallback =>
    have hle := rank_callAll h host fallback
    simp only [Act.weight]
    refine Nat.le_trans hle ?_
    omega
  | run | yield | stop | isStopped | spawn | selfJoin | pending | panic => exact Nat.le_add_right _ _

/-- What the drop of a task can cause was among what the task could cause. -/
theorem rank_release (h : m.Sound asleep) (host : Bool) (acts : List Act) :
    (m.having (m.state.release host acts)).rank ≤ m.rank + 2 * actsWeight acts := by
  induction acts generalizing m with
  | nil => exact Nat.le_add_right _ _
  | cons a rest ih =>
    have hact := rank_releaseAct h host a
    have hrest := ih (h.calls (State.calls_releaseAct (fun _ => trivial) m.state host a))
    simp only [actsWeight]
    refine Nat.le_trans hrest ?_
    omega

theorem rank_act_lt (h : m.Sound asleep) (task thread : String) (a : Act) :
    (m.having (m.state.act task thread a)).rank < m.rank + 2 * a.weight := by
  have hpos := a.weight_pos
  cases a with
  | run | isStopped | reply | yield | pending | panic =>
    show m.rank < _
    omega
  | stop =>
    have heq := rank_askStop m false
    simp only [State.act]
    omega
  | selfJoin =>
    have heq : (m.having (m.state.act task thread .selfJoin)).rank = m.rank := by
      simp only [State.act]
      split <;> rfl
    omega
  | spawn name acts =>
    have hle := rank_call_le h (State.call_hand m.state false ⟨name, acts⟩ rfl)
    show (m.having (m.state.hand false ⟨name, acts⟩).2).rank < _
    simp only [Task.weight] at hle
    simp only [Act.weight]
    omega

theorem rank_finished_lt (s : State) (v : Service) :
    rank ⟨s.conclude v.key v.task .finished, none⟩ < rank ⟨s, some v⟩ := by
  rw [rank_serving]
  show 2 * effort (s.loop.tasks.remove v.key).2.contents + s.loop.ready.length + s.phase.rank < _
  simp only [Task.weight]
  omega

theorem rank_asleep (h : Sound asleep ⟨s, some v⟩) (rest : List Act) :
    rank ⟨s.conclude v.key v.task (.asleep rest), none⟩ = rank ⟨s, some { v with acts := rest }⟩ := by
  have hleft := effort_perm (left_put h ⟨v.task, rest⟩)
  rw [effort_cons] at hleft
  rw [rank_serving]
  simp only [← hleft]
  rfl

theorem rank_yielded_le (h : Sound asleep ⟨s, some v⟩) (rest : List Act) :
    rank ⟨s.conclude v.key v.task (.yielded rest), none⟩ ≤
      rank ⟨s, some { v with acts := rest }⟩ + 1 := by
  rw [← rank_asleep h]
  have hready : ((s.loop.sleep v.key ⟨v.task, rest⟩).wake v.key).ready.length ≤
      s.loop.ready.length + 1 := by
    unfold Loop.wake
    split <;> simp [Loop.sleep]
  simp only [rank, left, State.conclude, wake_tasks]
  simp only [Loop.sleep] at hready ⊢
  omega

/-- A task that fails is gone, and its drop causes no more than it had left to do. -/
theorem rank_failed_lt {payload : Payload} {rest : List Act} (h : Sound asleep ⟨s, some v⟩)
    (hacts : v.acts = .panic payload :: rest) :
    rank ⟨s.conclude v.key v.task (.failed payload rest), none⟩ < rank ⟨s, some v⟩ := by
  have hle := rank_release h false rest
  have hfailed := rank_serving (s.release false rest) v
  have hpos := (Act.panic payload).weight_pos
  rw [hacts, Task.weight_cons] at hfailed
  show 2 * effort ((s.release false rest).loop.tasks.remove v.key).2.contents +
    (s.release false rest).loop.ready.length + (s.release false rest).phase.rank < _
  simp only [having, Task.weight] at hle hfailed
  omega

/-- Whatever a task does next, less is left to do. -/
theorem rank_advance_lt (h : Sound asleep ⟨s, some v⟩) : (v.advance s).rank < rank ⟨s, some v⟩ := by
  cases hacts : v.acts with
  | nil =>
    simp only [Service.advance, hacts]
    exact rank_finished_lt s v
  | cons a rest =>
    have hpass : rank ⟨s, some { v with acts := rest }⟩ + 2 * a.weight = rank ⟨s, some v⟩ := by
      simp only [rank_serving, hacts, Task.weight_cons]
      omega
    have hpos := a.weight_pos
    simp only [Service.advance, hacts]
    cases a with
    | yield =>
      have hle := rank_yielded_le h rest
      show rank ⟨s.conclude v.key v.task (.yielded rest), none⟩ < _
      omega
    | pending =>
      have heq := rank_asleep h rest
      show rank ⟨s.conclude v.key v.task (.asleep rest), none⟩ < _
      omega
    | panic payload => exact rank_failed_lt h hacts
    | run | stop | isStopped | spawn | selfJoin | reply =>
      rw [← hpass]
      exact rank_act_lt (h.passed rest) v.task v.thread _

theorem rank_takeUp_lt {thread : String} {leave : Loop Task → Loop Task}
    (h : Sound asleep ⟨s, none⟩) (hne : s.loop.ready ≠ [])
    (htasks : (leave s.loop).tasks = s.loop.tasks)
    (hready : (leave s.loop).ready = s.loop.ready.tail) :
    (s.takeUp thread leave).rank < rank ⟨s, none⟩ := by
  obtain ⟨key, rest, hfront⟩ := List.exists_cons_of_ne_nil hne
  have hfull : (s.loop.tasks.get? key).isSome := h.queue.full key (by simp [Moment.queue, hfront])
  obtain ⟨task, htask⟩ := Option.isSome_iff_exists.mp hfull
  have hleft := effort_perm (left_takeUp thread htask htasks)
  simp only [State.takeUp, front?, hfront, List.head?_cons, Option.map_some, htask]
  simp only [rank, hleft, hready, hfront, List.tail_cons, List.length_cons]
  omega

/-! ## Reasons to end -/

/-- The thread has a reason to end, or has ended. -/
def Winds (m : Moment) : Prop :=
  match m.state.phase with
  | .created => False
  | .running _ => m.state.loop.stopping = true ∨ m.state.panics ≠ []
  | .draining _ | .stopped _ | .aborted _ => True

theorem rank_look_lt {thread : String} (hm : Orderly ⟨s, none⟩) (hphase : s.phase = .running thread)
    (hreason : s.loop.stopping = true ∨ s.panics ≠ []) :
    rank ⟨s.look thread, none⟩ < rank ⟨s, none⟩ := by
  have hready : s.loop.handBack.ready.length = s.loop.ready.length :=
    (handBack_ready_perm s.loop).length_eq
  have htasks : s.loop.handBack.tasks = s.loop.tasks := rfl
  unfold State.look
  split
  · simp only [rank, left, hready, htasks, hphase, Phase.rank]
    omega
  · next hsignal =>
    have hpanics : s.panics ≠ [] := by
      refine hreason.resolve_left fun hs => hsignal ?_
      rw [hm.stopSignalled_eq]
      exact hs
    split
    · next hnil => exact absurd hnil hpanics
    · simp only [rank, left, State.record, hready, htasks, hphase, Phase.rank]
      omega

theorem rank_step_lt (h : m.Sound asleep) (hm : m.Orderly) (hwinds : m.Winds)
    (hended : m.state.phase.isEnded = false) : m.step.rank < m.rank := by
  obtain ⟨s, service⟩ := m
  cases service with
  | some v => exact rank_advance_lt h
  | none =>
    cases hphase : s.phase with
    | created => simp [Winds, hphase] at hwinds
    | stopped | aborted => simp [Phase.isEnded, hphase] at hended
    | running name =>
      have hreason : s.loop.stopping = true ∨ s.panics ≠ [] := by simpa [Winds, hphase] using hwinds
      simp only [step, hphase]
      split
      · exact rank_look_lt hm hphase hreason
      · next hlook =>
        have hne : s.loop.ready ≠ [] := by
          intro hnil
          simp [mustLook, hnil] at hlook
        exact rank_takeUp_lt h hne (beginTurn_tasks _) (beginTurn_ready _)
    | draining name =>
      simp only [step, hphase]
      split
      · simp only [rank, left, State.endThread, State.record, Phase.rank, hphase]
        omega
      · next hne =>
        have hne' : s.loop.ready ≠ [] := by simpa using hne
        exact rank_takeUp_lt h hne' rfl rfl

theorem Winds.keep {service : Option Service} (h : m.Winds) (hphase : s.phase = m.state.phase)
    (hstopping : m.state.loop.stopping = true → s.loop.stopping = true)
    (hpanics : m.state.panics ≠ [] → s.panics ≠ []) : Winds ⟨s, service⟩ := by
  unfold Winds at h ⊢
  simp only [hphase]
  cases hp : m.state.phase with
  | created =>
    rw [hp] at h
    exact h
  | running =>
    rw [hp] at h
    exact h.imp hstopping hpanics
  | draining | stopped | aborted => trivial

/-- A reason to end stays one, until the thread has ended. -/
theorem Winds.move (h : m.Winds) (hm : m.Orderly) (hmove : Move welcome m m') : m'.Winds := by
  cases hmove with
  | call _ hcall =>
    cases hcall with
    | accept task hs => exact h.keep rfl (fun hs' => by simp [hs] at hs') id
    | stop => exact h.keep rfl (fun _ => rfl) id
    | refuse => exact h
  | start _ _ hcontext =>
    have hcreated := hm.fresh hcontext
    simp [Winds, hcreated] at h
  | aside | pass | run | finish | sleep => exact h
  | takeUp _ _ _ _ _ hstopping => exact h.keep rfl (fun hs => hstopping.trans hs) id
  | yield => exact h.keep rfl (fun hs => (wake_stopping _ _).trans hs) id
  | fail => exact h.keep rfl id fun _ => by simp [State.noting]
  | renew => exact h.keep rfl (fun hs => (renew_stopping _).trans hs) id
  | drain | abort | exit => trivial

theorem Orderly.phase_of_ended (hm : m.Orderly) (hended : m.state.phase.isEnded = true)
    (hmove : Move welcome m m') : m'.state.phase = m.state.phase := by
  cases hmove with
  | call _ hcall => cases hcall <;> rfl
  | aside | pass | run | takeUp | finish | yield | sleep | fail | renew => rfl
  | start _ _ hc => simp [hm.fresh hc, Phase.isEnded] at hended
  | drain hphase | abort hphase | exit hphase => simp [hphase, Phase.isEnded] at hended

/-! ## The end -/

/-- What holds of the thread and its tasks throughout a run. -/
structure Steady (m : Moment) : Prop where
  /-- The queue is in order. -/
  sound : m.Sound fun _ => True
  /-- So are the thread and its signals. -/
  orderly : m.Orderly

theorem steady_start : ({} : Moment).Steady where
  sound := sound_start
  orderly := orderly_start

/-- What is kept by every move of a steady moment is kept by every sequence of events. -/
theorem Steady.foldl_induction (inv : Moment → Prop) (h : m.Steady) (hm : inv m)
    (events : List Event)
    (hmove : ∀ m m', m.Steady → Move (fun _ => True) m m' → inv m → inv m') :
    (events.foldl perform m).Steady ∧ inv (events.foldl perform m) := by
  have hkeep : ∀ m m', m.Sound (fun _ => True) → Move (fun _ => True) m m' →
      m.Orderly ∧ inv m → m'.Orderly ∧ inv m' := by
    intro m m' hsound hmv hm
    exact ⟨hm.1.move hmv, hmove m m' ⟨hsound, hm.1⟩ hmv hm.2⟩
  obtain ⟨hsound, horderly, hinv⟩ := h.sound.foldl_induction ⟨h.orderly, hm⟩ events hkeep
    (fun _ _ _ _ _ _ => trivial) fun _ _ _ _ _ _ => trivial
  exact ⟨⟨hsound, horderly⟩, hinv⟩

theorem steady_run (events : List Event) : (run events).Steady :=
  (steady_start.foldl_induction (fun _ => True) trivial events fun _ _ _ _ h => h).1

/-- A thread that has ended stays as it is. -/
theorem Steady.phase_foldl (h : m.Steady) (hended : m.state.phase.isEnded = true)
    (later : List Event) : (later.foldl perform m).state.phase = m.state.phase := by
  refine (h.foldl_induction (fun m' => m'.state.phase = m.state.phase) rfl later ?_).2
  intro m₁ m₂ h₁ hmove heq
  exact (h₁.orderly.phase_of_ended (heq ▸ hended) hmove).trans heq

theorem stopping_move (hs : m.state.loop.stopping = true) (hmove : Move welcome m m') :
    m'.state.loop.stopping = true := by
  cases hmove with
  | call _ hcall =>
    cases hcall with
    | accept task hs' => simp [hs] at hs'
    | stop => rfl
    | refuse => exact hs
  | takeUp _ _ _ _ _ hstopping => exact hstopping.trans hs
  | yield => exact (wake_stopping _ _).trans hs
  | renew => exact (renew_stopping _).trans hs
  | aside | start | pass | run | finish | sleep | fail | drain | abort | exit => exact hs

theorem rank_perform_le (h : m.Steady) (hwinds : m.Winds) (hended : m.state.phase.isEnded = false)
    (e : Event) :
    (m.perform e).rank + [e].countP Event.isStep ≤
      m.rank + if m.state.loop.stopping then 0 else e.expense := by
  cases e with
  | spawn name acts =>
    have hperform : m.perform (.spawn name acts) = m.having (m.state.hand true ⟨name, acts⟩).2 := by
      simp [perform, State.apply, h.orderly.handle]
    have hcall : m.state.Call (· = ⟨name, acts⟩) (m.state.hand true ⟨name, acts⟩).2 :=
      State.call_hand m.state true ⟨name, acts⟩ rfl
    have hstep : [Event.spawn name acts].countP Event.isStep = 0 := rfl
    rw [hperform, hstep]
    by_cases hs : m.state.loop.stopping = true
    · have heq := rank_call_of_stopping hs hcall
      rw [if_pos hs]
      omega
    · have hle := rank_call_le h.sound hcall
      rw [if_neg hs, Event.expense]
      omega
  | start name =>
    have hcontext : m.state.hasContext = false := by
      by_contra hc
      have hcreated := h.orderly.fresh (by simpa using hc)
      simp [Winds, hcreated] at hwinds
    have hperform : m.perform (.start name) = m := by
      simp [perform, State.apply, hcontext, having]
    rw [hperform]
    exact Nat.le_add_right _ _
  | stop =>
    have hperform : m.perform .stop = m.having (m.state.askStop true) := by
      simp [perform, State.apply, h.orderly.handle]
    rw [hperform, rank_askStop]
    exact Nat.le_add_right _ _
  | step =>
    have hlt := rank_step_lt h.sound h.orderly hwinds hended
    show m.step.rank + 1 ≤ _
    omega

/-- A thread with a reason to end has ended after enough steps, whatever calls come between them.
Tasks that are handed over then count only as long as the loop was not asked to stop. -/
theorem Steady.ends (h : m.Steady) (hwinds : m.Winds) (later : List Event)
    (hle : m.rank + (if m.state.loop.stopping then 0 else (later.map Event.expense).sum) ≤
      later.countP Event.isStep) :
    (later.foldl perform m).state.phase.isEnded = true := by
  induction later generalizing m with
  | nil =>
    by_contra hended
    have hrank : 0 < m.state.phase.rank := by
      cases hphase : m.state.phase with
      | created => simp [Winds, hphase] at hwinds
      | running | draining => simp [Phase.rank]
      | stopped | aborted => simp [hphase, Phase.isEnded] at hended
    simp only [rank, List.countP_nil] at hle
    omega
  | cons e later ih =>
    by_cases hended : m.state.phase.isEnded = true
    · rw [h.phase_foldl hended]
      exact hended
    · have hstep := rank_perform_le h hwinds (by simpa using hended) e
      have hkeep := h.foldl_induction
        (fun m' => m'.Winds ∧ (m.state.loop.stopping = true → m'.state.loop.stopping = true))
        ⟨hwinds, id⟩ [e] fun m₁ m₂ h₁ hmove hm₁ =>
          ⟨hm₁.1.move h₁.orderly hmove, fun hs => stopping_move (hm₁.2 hs) hmove⟩
      obtain ⟨h', hwinds', hstopping⟩ := hkeep
      refine ih h' hwinds' ?_
      rw [show ([e].foldl perform m) = m.perform e from rfl] at hstopping
      have hcount : (e :: later).countP Event.isStep =
          later.countP Event.isStep + [e].countP Event.isStep := by
        rw [← List.singleton_append, List.countP_append, Nat.add_comm]
      rw [hcount, List.map_cons, List.sum_cons] at hle
      by_cases hs : m.state.loop.stopping = true
      · rw [if_pos hs] at hle hstep
        rw [if_pos (hstopping hs)]
        omega
      · rw [if_neg hs] at hle hstep
        split <;> omega

/-- A thread that is asked to stop does not end for a panic any more. -/
theorem Orderly.not_aborted (hm : m.Orderly) (hs : m.state.loop.stopping = true)
    (hphase : ∀ thread, m.state.phase ≠ .aborted thread) (hmove : Move welcome m m') :
    ∀ thread, m'.state.phase ≠ .aborted thread := by
  cases hmove with
  | call _ hcall => cases hcall <;> exact hphase
  | aside | pass | run | takeUp | finish | yield | sleep | fail | renew => exact hphase
  | start | drain | exit => simp [having, State.noting]
  | abort _ hsignal =>
    rw [hm.stopSignalled_eq, hs] at hsignal
    cases hsignal

theorem Steady.not_aborted_foldl (h : m.Steady) (hs : m.state.loop.stopping = true)
    (hphase : ∀ thread, m.state.phase ≠ .aborted thread) (later : List Event) (thread : String) :
    (later.foldl perform m).state.phase ≠ .aborted thread := by
  have hkept := h.foldl_induction
    (fun m' => m'.state.loop.stopping = true ∧ ∀ thread, m'.state.phase ≠ .aborted thread)
    ⟨hs, hphase⟩ later fun m₁ m₂ h₁ hmove hm₁ =>
      ⟨stopping_move hm₁.1 hmove, h₁.orderly.not_aborted hm₁.1 hm₁.2 hmove⟩
  exact hkept.2.2 thread

/-- After a request to stop, a thread that has not ended for a panic ends in order. -/
theorem Steady.stops (h : m.Steady) (hs : m.state.loop.stopping = true)
    (hstarted : m.state.phase ≠ .created) (hphase : ∀ thread, m.state.phase ≠ .aborted thread)
    (later : List Event) (hle : m.rank ≤ later.countP Event.isStep) :
    ∃ thread, (later.foldl perform m).state.phase = .stopped thread := by
  have hwinds : m.Winds := by
    unfold Winds
    split
    · next hcreated => exact hstarted hcreated
    · exact Or.inl hs
    all_goals trivial
  have hended := h.ends hwinds later (by rw [if_pos hs]; exact hle)
  cases hlast : (later.foldl perform m).state.phase with
  | created | running | draining => simp [hlast, Phase.isEnded] at hended
  | stopped thread => exact ⟨thread, rfl⟩
  | aborted thread => exact absurd hlast (h.not_aborted_foldl hs hphase later thread)

end Moment

end HostBridge.Loop
