import HostBridge.Proofs.Engine.Ledger
import Mathlib.Data.List.Induction

/-!
# What is reported when a thread has ended

A loop that was asked to stop runs what is ready, and its thread ends when nothing is. By then every
pull that was handed to the loop was answered and every closing reported, each once. So was every
promotion, with one exception: a promotion that sleeps for its delay at that moment. Nobody runs it
any more and nobody drops it, so whoever waits for it waits forever. Its operation was not cancelled
before; a cancellation would have woken it in time.
-/

namespace HostBridge.Engine

open Moment

variable {m m' : Moment} {e : Event} {l key : Nat} {t : Errand}

/-! ## A thread that has ended -/

/-- A thread that has ended stays so, and keeps its tasks. -/
theorem Moment.Step.ended (h : m.Step e m') (hm : m.Orderly)
    (hended : (m.engine.worker l).stage = .ended) (ht : m.engine.job? l key = some t) :
    (m'.engine.worker l).stage = .ended ∧ m'.engine.job? l key = some t := by
  constructor
  · rcases (h.worker hm l).2 with hsame | ⟨-, hlook⟩
    · exact hsame.trans hended
    · rw [hlook, Worker.look, hended]
      exact hended
  · rcases h.job hm ht with ht | ⟨-, u, x, s, hfront, -, -⟩
    · exact ht
    · obtain ⟨hmust, -⟩ := State.front?_eq_some.mp hfront
      exact absurd hended (Worker.ready_of_not_mustLook hmust).2

/-- A task that a thread has left behind is never reported. -/
theorem replies_after_end (events later : List Event)
    (hended : ((run events).engine.worker l).stage = .ended)
    (ht : (run events).engine.job? l key = some t) :
    (run (events ++ later)).replies t = [] := by
  have hkeep : ((run (events ++ later)).engine.worker l).stage = .ended ∧
      (run (events ++ later)).engine.job? l key = some t := by
    rw [run_append]
    exact (orderly_run events).after_induction ⟨hended, ht⟩
      (fun hm h hstep => hstep.ended hm h.1 h.2) later
  exact (ledger_run (events ++ later)).replies_eq_nil hkeep.2

/-- When a thread ended, the promotion slept for its delay. -/
def Asleep (events : List Event) (l c o : Nat) (response : Response) (ticket : Nat) : Prop :=
  ∃ before after key, events = before ++ .turn l :: after ∧
    ((run before).engine.worker l).stage = .draining ∧
    ((run before).engine.loop l).ready = [] ∧
    ((run before).engine.loop l).tasks.get? key = some (.promote c o response .armed ticket) ∧
    (run before).engine.isCancelled c o = false

/-- What a thread has left behind slept for its delay when the thread ended. -/
theorem asleep_of_ended {events : List Event}
    (hended : ((run events).engine.worker l).stage = .ended)
    (ht : ((run events).engine.loop l).tasks.get? key = some t) :
    ∃ c o response ticket, t.untimed = .promote c o response .fresh ticket ∧
      Asleep events l c o response ticket := by
  induction events using List.reverseRecOn generalizing t with
  | nil => cases hended
  | append_singleton events e ih =>
    have hm := orderly_run events
    have hrun : run (events ++ [e]) = (run events).perform e := run_append events [e]
    have hstep := hm.step e
    rw [← hrun] at hstep
    by_cases hbefore : ((run events).engine.worker l).stage = .ended
    · rcases hstep.task hm ht with ⟨u, hu, huntimed, -⟩ | ⟨hfree, -, -⟩
      · obtain ⟨c, o, response, ticket, htask, before, after, key', rfl, hasleep⟩ := ih hbefore hu
        exact ⟨c, o, response, ticket, huntimed.trans htask, before, after ++ [e], key', by simp,
          hasleep⟩
      · rw [hm.stages l (by simp [hbefore])] at hfree
        cases hfree
    · -- The thread ends now: nothing is ready, so the task sleeps.
      rcases (hstep.worker hm l).2 with hsame | ⟨rfl, hlook⟩
      · exact absurd (hsame ▸ hended) hbefore
      · rw [hlook] at hended
        obtain ⟨hdraining, hready⟩ := (Worker.look_ended hended).resolve_left hbefore
        rcases hstep.task hm ht with ⟨u, hu, huntimed, -⟩ | ⟨hfree, -, -⟩
        · obtain ⟨c, o, response, ticket, rfl, hcancelled⟩ :=
            (hm.sound.loop l).asleep key u hu (by simp [State.loop, hready])
          exact ⟨c, o, response, ticket, huntimed, events, [], key, rfl, hdraining, hready, hu,
            hcancelled⟩
        · rw [hm.stages l (by simp [hdraining])] at hfree
          cases hfree

/-! ## Every request is reported, unless it sleeps -/

/-- When the thread of a loop has ended, a task that was handed to the loop was reported once, or it
is a promotion that slept then and is never reported. -/
theorem replied_or_asleep {events : List Event}
    (hended : ((run events).engine.worker l).stage = .ended)
    (ht : .submitted l t ∈ (run events).history) :
    (∃ place x, (run events).replies t = [(place, x)] ∧ x.answers t = true) ∨
      (∃ c o response ticket, t = .promote c o response .fresh ticket ∧
        Asleep events l c o response ticket ∧ ∃ ms, response.delay = some ms ∧ ms ≠ 0) ∧
        ∀ later, (run (events ++ later)).replies t = [] := by
  have hm := orderly_run events
  rcases (ledger_run events).replied_or_waiting hm ht with hreplied | ⟨-, key, hjob⟩
  · exact Or.inl hreplied
  · refine Or.inr ⟨?_, fun later => replies_after_end events later hended hjob⟩
    obtain ⟨u, hu, rfl⟩ := Option.map_eq_some_iff.mp hjob
    obtain ⟨c, o, response, ticket, huntimed, hasleep⟩ := asleep_of_ended hended hu
    have hslept := hm.ended l hended key u hu
    cases u <;> cases huntimed
    exact ⟨_, _, _, _, rfl, hasleep, hslept.2⟩

/-- When the thread of a loop has ended, every pull that was handed to the loop was answered once and
every closing was reported once. A promotion was reported once too, or it slept for its delay when
the thread ended; then it is never reported, whatever happens later. What the thread did not report
itself says that it was cancelled. -/
theorem reported_once_unless_asleep (events : List Event) (l : Nat)
    (hended : ((run events).engine.worker l).stage = .ended) :
    (∀ c o response ticket,
      .submitted l (.promote c o response .fresh ticket) ∈ (run events).history →
        (∃ place stream error, (run events).replies (.promote c o response .fresh ticket) =
          [(place, .promoted ticket stream error)]) ∨
        Asleep events l c o response ticket ∧ (∃ ms, response.delay = some ms ∧ ms ≠ 0) ∧
          ∀ later, (run (events ++ later)).replies (.promote c o response .fresh ticket) = []) ∧
    (∀ i reply, .submitted l (.pull i reply) ∈ (run events).history →
      ∃ place row, (run events).replies (.pull i reply) = [(place, .row reply row)]) ∧
    (∀ ticket, .submitted l (.close ticket) ∈ (run events).history →
      ∃ place, (run events).replies (.close ticket) = [(place, .closed ticket)]) ∧
    ∀ x, .completed .host x ∈ (run events).history → x.isCanceled = true := by
  refine ⟨fun c o response ticket ht => ?_, fun i reply ht => ?_, fun ticket ht => ?_,
    fun x hx => ((ledger_run events).reports _ x hx).2 rfl⟩
  · rcases replied_or_asleep hended ht with ⟨place, x, hreplies, hx⟩ | ⟨⟨_, _, _, _, heq, h⟩, hlost⟩
    · obtain ⟨stream, error, rfl⟩ := Completion.answers_promote hx
      exact Or.inl ⟨place, stream, error, hreplies⟩
    · cases heq
      exact Or.inr ⟨h.1, h.2, hlost⟩
  · rcases replied_or_asleep hended ht with ⟨place, x, hreplies, hx⟩ | ⟨⟨_, _, _, _, heq, -⟩, -⟩
    · obtain ⟨row, rfl⟩ := Completion.answers_pull hx
      exact ⟨place, row, hreplies⟩
    · cases heq
  · rcases replied_or_asleep hended ht with ⟨place, x, hreplies, hx⟩ | ⟨⟨_, _, _, _, heq, -⟩, -⟩
    · obtain rfl := Completion.answers_close hx
      exact ⟨place, hreplies⟩
    · cases heq

/-- Two queries, the first with a delay of ten minutes, and a stream that is asked for a row. The
loop is stopped while the first query sleeps. Its cluster is closed when the thread has ended. -/
def stoppedRun : List Event :=
  [.connector, .loop, .respond 0 { delay := some 600000 }, .respond 0 { rows := [.done] },
    .execute 0 0 { statement := "slow" }, .execute 0 0 { statement := "fast" },
    .stream 0 [.done] {}, .pull 0, .turn 0, .turn 0, .turn 0, .stop 0, .turn 0, .turn 0, .turn 0,
    .turn 0, .turn 0, .close 0 0]

/-- In that run everything is reported but the first query, for which nothing is reported even after
the cluster was closed. -/
theorem reported_once_unless_asleep_in_stoppedRun :
    ((run stoppedRun).engine.worker 0).stage = .ended ∧
    (∃ place stream error, (run stoppedRun).replies (.promote 0 1 { rows := [.done] } .fresh 1) =
      [(place, .promoted 1 stream error)]) ∧
    (∃ place row, (run stoppedRun).replies (.pull 0 ⟨0, 2⟩) = [(place, .row ⟨0, 2⟩ row)]) ∧
    (∃ place, (run stoppedRun).replies (.close 3) = [(place, .closed 3)]) ∧
    Asleep stoppedRun 0 0 0 { delay := some 600000 } 0 ∧
    ∀ later, (run (stoppedRun ++ later)).replies
      (.promote 0 0 { delay := some 600000 } .fresh 0) = [] := by
  have hended : ((run stoppedRun).engine.worker 0).stage = .ended := rfl
  obtain ⟨hpromotions, hpulls, hclosings, -⟩ := reported_once_unless_asleep stoppedRun 0 hended
  have hfast : ((run stoppedRun).replies
      (.promote 0 1 { rows := [.done] } .fresh 1)).length = 1 := rfl
  have hslow : (run stoppedRun).replies (.promote 0 0 { delay := some 600000 } .fresh 0) = [] := rfl
  refine ⟨hended, ?_, hpulls _ _ (List.mem_of_getElem? (i := 2) rfl),
    hclosings _ (List.mem_of_getElem? (i := 7) rfl), ?_⟩
  · rcases hpromotions 0 1 _ 1 (List.mem_of_getElem? (i := 1) rfl) with h | ⟨-, -, hlost⟩
    · exact h
    · have hnone := hlost []
      rw [List.append_nil] at hnone
      rw [hnone] at hfast
      cases hfast
  · rcases hpromotions 0 0 _ 0 (List.mem_of_getElem? (i := 0) rfl) with ⟨_, _, _, h⟩ | ⟨h, -, hlost⟩
    · rw [hslow] at h
      cases h
    · exact ⟨h, hlost⟩

/-- That a thread has ended does not mean that every promotion handed to its loop was reported. -/
theorem promotion_lost_in_stoppedRun :
    ¬ ∀ (events : List Event) (l : Nat), ((run events).engine.worker l).stage = .ended →
      ∀ c o response ticket,
        .submitted l (.promote c o response .fresh ticket) ∈ (run events).history →
          ∃ later place stream error,
            (run (events ++ later)).replies (.promote c o response .fresh ticket) =
              [(place, .promoted ticket stream error)] := by
  intro h
  obtain ⟨later, place, stream, error, hreplies⟩ := h stoppedRun 0 rfl 0 0 _ 0
    (List.mem_of_getElem? (i := 0) rfl)
  have hjob : (run stoppedRun).engine.job? 0 0 =
      some (.promote 0 0 { delay := some 600000 } .fresh 0) := rfl
  rw [replies_after_end stoppedRun later rfl hjob] at hreplies
  cases hreplies

end HostBridge.Engine
