import HostBridge.Loop.Machine
import HostBridge.Proofs.Loop
import Mathlib.Logic.Function.Iterate

/-!
# Runs of a loop

The host calls a loop while the thread of the loop runs its tasks, so a call may come between any two
things that a task does. A `Moment` is a loop together with the task that its thread is in the middle
of. The thread does one thing at a time; a thread that nobody interrupts takes the turns of the loop.
-/

namespace HostBridge.Loop

/-- A task that the thread is in the middle of. -/
structure Service where
  /-- The name of the thread. -/
  thread : String
  /-- The key of the task. -/
  key : Nat
  /-- The name of the task. -/
  task : String
  /-- What the task has left to do. -/
  acts : List Act

/-- A loop at some moment of a run. -/
structure Moment where
  /-- The loop and its thread. -/
  state : State := {}
  /-- What the thread is in the middle of. -/
  service : Option Service := none

/-- Something that happens in a run. -/
inductive Event where
  /-- The host hands the loop a task. -/
  | spawn (name : String) (acts : List Act)
  /-- The host starts the thread. -/
  | start (name : String)
  /-- The host asks the loop to stop. -/
  | stop
  /-- The thread does the next thing that it has to do. -/
  | step

/-- The thread goes on. -/
def Event.isStep : Event → Bool
  | step => true
  | _ => false

/-- The thread takes up the task in front, after its key has left the queue in the given way. -/
def State.takeUp (s : State) (thread : String) (leave : Loop Task → Loop Task) : Moment :=
  match s.loop.front? with
  | none => ⟨s, none⟩
  | some (_, none) => ⟨{ s with loop := leave s.loop }, none⟩
  | some (key, some task) =>
    ⟨{ s with loop := leave s.loop }, some ⟨thread, key, task.name, task.acts⟩⟩

/-- The thread goes on with a task: it carries out one act, or the turn ends. -/
def Service.advance (v : Service) (s : State) : Moment :=
  match v.acts with
  | [] => ⟨s.conclude v.key v.task .finished, none⟩
  | .yield :: rest => ⟨s.conclude v.key v.task (.yielded rest), none⟩
  | .pending :: rest => ⟨s.conclude v.key v.task (.asleep rest), none⟩
  | .panic payload :: rest => ⟨s.conclude v.key v.task (.failed payload rest), none⟩
  | a :: rest => ⟨s.act v.task v.thread a, some { v with acts := rest }⟩

namespace Moment

/-- The moment with another state of the loop. -/
def having (m : Moment) (state : State) : Moment := { m with state }

/-- The thread does one thing. -/
def step (m : Moment) : Moment :=
  match m.service with
  | some v => v.advance m.state
  | none =>
    match m.state.phase with
    | .running name =>
      if m.state.loop.mustLook then ⟨m.state.look name, none⟩
      else m.state.takeUp name Loop.beginTurn
    | .draining name =>
      if m.state.loop.ready.isEmpty then ⟨m.state.endThread name, none⟩
      else m.state.takeUp name Loop.pop
    | _ => m

/-- One event. -/
def perform (m : Moment) : Event → Moment
  | .spawn name acts => m.having (m.state.apply (.spawn name acts)).2
  | .start name => m.having (m.state.apply (.start name)).2
  | .stop => m.having (m.state.apply .stop).2
  | .step => m.step

end Moment

/-- The moment after a run. -/
def run (events : List Event) : Moment :=
  events.foldl Moment.perform {}

theorem run_append (events later : List Event) :
    run (events ++ later) = later.foldl Moment.perform (run events) :=
  List.foldl_append

/-! ## A thread that nobody interrupts -/

/-- A task that nobody interrupts gets the whole of its turn. -/
theorem exists_steps_service (thread name : String) (key : Nat) (acts : List Act) (s : State) :
    ∃ n, Moment.step^[n] ⟨s, some ⟨thread, key, name, acts⟩⟩ =
      ⟨(s.runActs name thread acts).2.conclude key name (s.runActs name thread acts).1, none⟩ := by
  induction acts generalizing s with
  | nil => exact ⟨1, rfl⟩
  | cons a rest ih =>
    -- An act either ends the turn or leaves the rest of it to further steps.
    cases a with
    | yield | pending | panic => exact ⟨1, rfl⟩
    | run | stop | isStopped | spawn | selfJoin | reply =>
      obtain ⟨n, hn⟩ := ih _
      exact ⟨n + 1, hn⟩

theorem exists_steps_tick (s : State) (thread : String) (leave : Loop Task → Loop Task)
    (h : Moment.step ⟨s, none⟩ = s.takeUp thread leave) :
    ∃ n, Moment.step^[n] ⟨s, none⟩ = ⟨s.tick thread leave, none⟩ := by
  unfold State.takeUp at h
  unfold State.tick
  split
  · next hfront => exact ⟨0, rfl⟩
  · next hfront =>
    rw [hfront] at h
    exact ⟨1, h⟩
  · next key task hfront =>
    rw [hfront] at h
    obtain ⟨n, hn⟩ := exists_steps_service thread task.name key task.acts { s with loop := leave s.loop }
    refine ⟨n + 1, ?_⟩
    rw [Function.iterate_succ_apply, h]
    exact hn

/-- The steps of a thread that nobody interrupts make up the turns of the loop. -/
theorem exists_steps_turn (s : State) : ∃ n, Moment.step^[n] ⟨s, none⟩ = ⟨s.turn, none⟩ := by
  unfold State.turn
  split
  · next name hphase =>
    split
    · next hlook => exact ⟨1, by simp [Moment.step, hphase, hlook]⟩
    · next hlook => exact exists_steps_tick s name _ (by simp [Moment.step, hphase, hlook])
  · next name hphase =>
    split
    · next hready => exact ⟨1, by simp [Moment.step, hphase, hready]⟩
    · next hready => exact exists_steps_tick s name _ (by simp [Moment.step, hphase, hready])
  · exact ⟨0, rfl⟩

end HostBridge.Loop
