import HostBridge.Proofs.Loop.Drain

/-!
# Panics that escape, and panics that do not

What a failed task throws waits until the thread looks at its signals. If the thread then finds no
request to stop, it ends for the oldest of these panics. If it does find one, it ends in order, and the
panics are never looked at. The same is true of a task that fails after that look, while the thread
runs what is left.
-/

namespace HostBridge.Loop

/-- What the failed task threw. -/
def Occurrence.thrown? : Occurrence → Option Payload
  | panicked _ payload => some payload
  | _ => none

open Occurrence

/-- What failed tasks have thrown, the oldest in front. -/
def thrown (trace : List Occurrence) : List Payload :=
  (trace.filterMap thrown?).reverse

theorem thrown_append {os : List Occurrence} (hos : os.filterMap thrown? = [])
    (trace : List Occurrence) : thrown (os ++ trace) = thrown trace := by
  rw [thrown, List.filterMap_append, hos]
  rfl

/-- The thread has reported its end for a reason. It ends for a panic if it was not asked to stop and a
task has failed, and then gives the oldest panic as its reason. It ends in order if it was asked to. -/
def Justified (o : Occurrence) (earlier : List Occurrence) : Prop :=
  match o with
  | .announced (.loopAborted _ reason) =>
    .stopAsked ∉ earlier ∧ ∃ payload, (thrown earlier).head? = some payload ∧ reason = payload.reason
  | .announced (.loopStopped _) => .stopAsked ∈ earlier
  | _ => True

namespace Moment

variable {welcome : Task → Prop} {m m' : Moment} {s : State}

/-- What the thread knows about panics. -/
structure Alert (m : Moment) : Prop where
  /-- The panics wait for the thread, unless it has ended for one. -/
  panics : (∀ thread, m.state.phase ≠ .aborted thread) → m.state.panics = thrown m.state.trace
  /-- Tasks fail only on the thread. -/
  started : thrown m.state.trace ≠ [] → m.state.phase ≠ .created
  /-- The thread ends for a reason. -/
  justified : Throughout Justified m.state.trace
  /-- The end for a panic is reported. -/
  aborted : ∀ thread, m.state.phase = .aborted thread →
    ∃ reason, .announced (.loopAborted thread reason) ∈ m.state.trace
  /-- The end after a request to stop is reported. -/
  stopped : ∀ thread, m.state.phase = .stopped thread →
    .announced (.loopStopped thread) ∈ m.state.trace

theorem alert_start : ({} : Moment).Alert where
  panics _ := rfl
  started h := absurd rfl h
  justified := .nil
  aborted := by simp
  stopped := by simp

/-- The thread and its panics are left alone. -/
theorem Alert.keep {service : Option Service} (h : m.Alert) (os : List Occurrence)
    (htrace : s.trace = os ++ m.state.trace) (hthrown : os.filterMap thrown? = [])
    (hos : ∀ o ∈ os, ∀ earlier, Justified o earlier) (hphase : s.phase = m.state.phase)
    (hpanics : s.panics = m.state.panics) : Alert ⟨s, service⟩ where
  panics hp := by
    rw [hpanics, htrace, thrown_append hthrown]
    exact h.panics (hphase ▸ hp)
  started hs := by
    rw [htrace, thrown_append hthrown] at hs
    exact hphase ▸ h.started hs
  justified := htrace ▸ h.justified.append hos
  aborted thread hp := by
    obtain ⟨reason, hmem⟩ := h.aborted thread (hphase ▸ hp)
    exact ⟨reason, htrace ▸ List.mem_append_right _ hmem⟩
  stopped thread hp := htrace ▸ List.mem_append_right _ (h.stopped thread (hphase ▸ hp))

theorem Alert.refusals {os : List Occurrence} (h : m.Alert) (hos : Refusals os)
    (htrace : s.trace = os ++ m.state.trace) (hphase : s.phase = m.state.phase)
    (hpanics : s.panics = m.state.panics) : (m.having s).Alert := by
  refine h.keep os htrace ?_ ?_ hphase hpanics
  · exact List.filterMap_eq_nil_iff.mpr
      (hos.forall_mem (fun _ => rfl) rfl (fun _ => rfl) fun _ => rfl)
  · exact hos.forall_mem (fun _ _ => trivial) (fun _ => trivial) (fun _ _ => trivial)
      fun _ _ => trivial

theorem Alert.call (h : m.Alert) (hcall : m.state.Call welcome s) : (m.having s).Alert := by
  cases hcall with
  | accept task => exact h.keep _ rfl rfl (by simp [Justified]) rfl rfl
  | stop ns => exact h.refusals (.stopAsked (refusals_logged ns)) rfl rfl rfl
  | refuse _ hos => exact h.refusals hos rfl rfl rfl

/-- A task has failed on the thread. -/
theorem Alert.fail {v : Service} (h : Alert ⟨s, some v⟩) (hm : Orderly ⟨s, some v⟩) (loop : Loop Task)
    (payload : Payload) :
    Alert ⟨{ s with loop, panics := s.panics ++ [payload] }.noting
      [.dropped v.task, .panicked v.task payload], none⟩ := by
  have hthread : s.phase.thread? = some v.thread := hm.serving v rfl
  have hthrown : thrown (.dropped v.task :: .panicked v.task payload :: s.trace) =
      thrown s.trace ++ [payload] := List.reverse_cons
  have hpanicked : Throughout Justified (.panicked v.task payload :: s.trace) :=
    h.justified.cons trivial
  exact {
    panics := fun hp => by
      show s.panics ++ [payload] = thrown (.dropped v.task :: .panicked v.task payload :: s.trace)
      rw [hthrown, show s.panics = thrown s.trace from h.panics hp]
    started := fun _ hcreated => by
      have hphase : s.phase = .created := hcreated
      rw [hphase] at hthread
      cases hthread
    justified := hpanicked.cons trivial
    aborted := fun thread hp => by
      have hphase : s.phase = .aborted thread := hp
      rw [hphase] at hthread
      cases hthread
    stopped := fun thread hp => by
      have hphase : s.phase = .stopped thread := hp
      rw [hphase] at hthread
      cases hthread }

/-- The thread ends for the oldest panic. -/
theorem Alert.abort {thread : String} {payload : Payload} {panics : List Payload} (h : Alert ⟨s, none⟩)
    (hm : Orderly ⟨s, none⟩) (hphase : s.phase = .running thread) (hsignal : s.stopSignalled = false)
    (hpanics : s.panics = payload :: panics) :
    Alert ⟨{ s with phase := .aborted thread, panics, loop := s.loop.handBack }.noting
      [.announced (.loopAborted thread payload.reason)], none⟩ := by
  have hthrown : s.panics = thrown s.trace := h.panics (by simp [hphase])
  have hnot : .stopAsked ∉ s.trace := by
    intro hmem
    have hstopping : s.loop.stopping = true := hm.stopping.mpr hmem
    have heq : s.stopSignalled = s.loop.stopping := hm.stopSignalled_eq
    rw [heq, hstopping] at hsignal
    cases hsignal
  exact {
    panics := fun hp => absurd rfl (hp thread)
    started := fun _ => by simp [State.noting]
    justified := h.justified.cons ⟨hnot, payload, by rw [← hthrown, hpanics]; rfl, rfl⟩
    aborted := by
      rintro _ ⟨⟩
      exact ⟨payload.reason, List.mem_cons_self⟩
    stopped := by simp [State.noting] }

theorem Alert.move (h : m.Alert) (hm : m.Orderly) (hmove : Move welcome m m') : m'.Alert := by
  cases hmove with
  | call _ hcall => exact h.call hcall
  | @aside _ _ o ho =>
    cases o with
    | askedStopped | spawned | selfJoined => exact h.keep _ rfl rfl (by simp [Justified]) rfl rfl
    | _ => cases ho
  | start _ name hcontext =>
    have hcreated := hm.fresh hcontext
    exact {
      panics := fun _ => h.panics (by simp [hcreated])
      started := fun _ => by simp [having, State.noting]
      justified := h.justified.cons trivial
      aborted := by simp [having, State.noting]
      stopped := by simp [having, State.noting] }
  | pass | takeUp | yield | sleep | renew => exact h.keep [] rfl rfl (by simp) rfl rfl
  | run => exact h.keep _ rfl rfl (by simp [Justified]) rfl rfl
  | @finish _ v => exact h.keep [.finished v.task] rfl rfl (by simp [Justified]) rfl rfl
  | fail => exact h.fail hm _ _
  | drain hphase =>
    exact {
      panics := fun _ => h.panics (by simp [hphase])
      started := fun _ => by simp
      justified := h.justified
      aborted := by simp
      stopped := by simp }
  | abort hphase hsignal hpanics => exact h.abort hm hphase hsignal hpanics
  | exit hphase =>
    have hstopping := hm.draining _ (Or.inl hphase)
    exact {
      panics := fun _ => h.panics (by simp [hphase])
      started := fun _ => by simp [State.noting]
      justified := h.justified.cons (hm.stopping.mp hstopping)
      aborted := by simp [State.noting]
      stopped := by
        rintro _ ⟨⟩
        exact List.mem_cons_self }

/-- A panic is a reason to end. -/
theorem Alert.winds (h : m.Alert) (hthrown : thrown m.state.trace ≠ []) : m.Winds := by
  unfold Winds
  split
  · next hcreated => exact h.started hthrown hcreated
  · next hphase =>
    right
    rw [h.panics (by simp [hphase])]
    exact hthrown
  all_goals trivial

end Moment

theorem alert_run (events : List Event) : (run events).Alert :=
  (Moment.steady_start.foldl_induction Moment.Alert Moment.alert_start events
    fun _ _ h hmove hm => hm.move h.orderly hmove).2

/-- The thread ends for a panic only if it saw one before it was asked to stop, and in order only if it
was asked to stop. A panic makes it end so, after enough steps, if nobody asks it to stop until then.
Once it is asked to stop it ends in order, whatever has failed and whatever is going to fail. -/
theorem panic_escapes_until_stop (events : List Event) :
    Throughout Justified (run events).state.trace ∧
    (∀ thread, (run events).state.phase = .aborted thread →
      ∃ reason, .announced (.loopAborted thread reason) ∈ (run events).state.trace) ∧
    (∀ thread, (run events).state.phase = .stopped thread →
      .announced (.loopStopped thread) ∈ (run events).state.trace) ∧
    (thrown (run events).state.trace ≠ [] → ∀ later,
      .stopAsked ∉ (run (events ++ later)).state.trace →
      (run events).rank + (later.map Event.expense).sum ≤ later.countP Event.isStep →
        ∃ thread, (run (events ++ later)).state.phase = .aborted thread) ∧
    (.stopAsked ∈ (run events).state.trace →
      (∀ thread, (run events).state.phase ≠ .aborted thread) → ∀ later,
        (∀ thread, (run (events ++ later)).state.phase ≠ .aborted thread) ∧
        ((run events).state.phase ≠ .created →
          (run events).rank ≤ later.countP Event.isStep →
            ∃ thread, (run (events ++ later)).state.phase = .stopped thread)) := by
  have halert := alert_run events
  have hsteady := Moment.steady_run events
  refine ⟨halert.justified, halert.aborted, halert.stopped, ?_, ?_⟩
  · intro hthrown later hnot hle
    have hended := hsteady.ends (halert.winds hthrown) later (by split <;> omega)
    rw [← run_append] at hended
    cases hlast : (run (events ++ later)).state.phase with
    | created | running | draining => simp [hlast, Phase.isEnded] at hended
    | aborted thread => exact ⟨thread, rfl⟩
    | stopped thread =>
      have horderly := (Moment.steady_run (events ++ later)).orderly
      exact absurd (horderly.stopping.mp (horderly.draining thread (Or.inr hlast))) hnot
  · intro hasked hphase later
    have hs := hsteady.orderly.stopping.mpr hasked
    rw [run_append]
    exact ⟨hsteady.not_aborted_foldl hs hphase later,
      fun hstarted hle => hsteady.stops hs hstarted hphase later hle⟩

/-- The only task fails. -/
def failedRun : List Event :=
  [.spawn "a" [.panic (.text "static message")], .start "io", .step, .step, .step]

theorem panic_escapes_in_failedRun :
    thrown (run failedRun).state.trace = [.text "static message"] ∧
    ∃ thread, (run (failedRun ++ [.step, .step])).state.phase = .aborted thread := by
  obtain ⟨-, -, -, hescapes, -⟩ := panic_escapes_until_stop failedRun
  have hstopping := (Moment.steady_run (failedRun ++ [.step, .step])).orderly.stopping
  have hthrown : thrown (run failedRun).state.trace = [.text "static message"] := by decide
  refine ⟨hthrown, hescapes (by simp [hthrown]) [.step, .step] ?_ (by decide)⟩
  rw [← hstopping]
  decide

/-- One task fails, and before the thread has looked at its signals another one has the loop stopped. -/
def overtakenRun : List Event :=
  [.spawn "a" [.panic (.text "static message")], .spawn "b" [.stop], .start "io", .step, .step, .step,
    .step, .step, .step, .step, .step]

/-- The only task fails after the host has stopped the loop. -/
def lateRun : List Event :=
  [.spawn "a" [.panic (.text "static message")], .stop, .start "io", .step, .step, .step, .step]

theorem panic_need_not_escape :
    (¬ ∀ events, thrown (run events).state.trace ≠ [] →
      ∀ thread, (run events).state.phase ≠ .stopped thread) ∧
    (run overtakenRun).state.phase = .stopped "io" ∧
    thrown (run overtakenRun).state.trace = [.text "static message"] ∧
    (run lateRun).state.phase = .stopped "io" ∧
    thrown (run lateRun).state.trace = [.text "static message"] := by
  have hphase : (run overtakenRun).state.phase = .stopped "io" := by decide
  have hthrown : thrown (run overtakenRun).state.trace = [.text "static message"] := by decide
  refine ⟨fun hall => ?_, hphase, hthrown, by decide, by decide⟩
  exact hall overtakenRun (by rw [hthrown]; simp) "io" hphase

end HostBridge.Loop
