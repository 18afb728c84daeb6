import HostBridge.Proofs.Session.Accounted
import HostBridge.Proofs.Session.Delivery

/-!
# What holds in every run

The three invariants of a session hold together at every moment of a run: instances, loops and tasks
keep step, the history tells the truth, and the host serves its callbacks. So every event is nothing
but moves, and `run_induction` is the way to show anything else about runs: it is enough to look at
the start and at single moves.
-/

namespace HostBridge.Session

namespace Moment

variable {m m' : Moment}

/-- What holds at every moment of a run. -/
structure Sane (m : Moment) : Prop where
  /-- Instances, loops and tasks keep step. -/
  orderly : m.Orderly
  /-- The history tells the truth. -/
  accounted : m.Accounted
  /-- The host serves its callbacks. -/
  bridged : m.Bridged

namespace Sane

theorem start : ({} : Moment).Sane where
  orderly := by
    have hloop : ∀ l, ({} : Engine.State Promotion Bridge.Cookie Nat).worker l = {} := fun l => by
      simp [Engine.State.worker]
    refine ⟨by simp [Engine.State.Sound], rfl, by simp, by simp, by simp, by simp, by simp, by simp,
      ?_, ?_, ?_, ?_⟩
    · simp [hloop]
    · simp [hloop]
    · simp [Engine.State.job?, Engine.State.loop, hloop]
    · simp [Engine.State.job?, Engine.State.loop, hloop]
  accounted := ⟨by simp, by simp, by simp, by simp⟩
  bridged := ⟨rfl, Served.new, by simp⟩

/-- An event of a run is nothing but moves. -/
theorem footing (h : m.Sane) : m.Footing where
  sound := h.orderly.sound
  opened := h.bridged.opened
  running i x hx hrunning :=
    ⟨h.orderly.hasEngine i x hx hrunning, h.orderly.loop i x hx, h.orderly.memory i x hx,
      (h.orderly.takes hx hrunning).2⟩
  operation e r operation hcall := by
    obtain ⟨-, i, t, haccepted⟩ := h.accounted.cancelling e r _ hcall
    obtain ⟨⟨c, o, x, hoperation, -⟩, -⟩ := h.accounted.recorded _ haccepted
    exact ⟨c, o, hoperation⟩
  target e r hcall := (h.accounted.cancelling e r _ hcall).1 rfl
  stream r i htarget := by
    obtain ⟨t, error, alive, hreported⟩ := h.accounted.known_of_target htarget
    obtain ⟨j, operation, -, hstream⟩ := h.accounted.recorded _ hreported
    obtain ⟨x, hx, -⟩ := hstream i rfl
    exact ⟨x, hx⟩
  unparked l key hjob := h.orderly.due l key _ hjob
  message message rest hqueue := by
    obtain ⟨e, he, hticket, -, hfits⟩ := h.bridged.message hqueue
    refine ⟨e, he, hticket, fun work hw => ?_⟩
    obtain ⟨o, ho, -⟩ := hear_of_fits (hfits work hw)
    exact ⟨o, ho⟩

theorem step (h : m.Sane) (hstep : m.Step m') : m'.Sane := by
  have hissued := h.bridged.issued
  have hanchored := fun r i x => h.accounted.anchored h.orderly (r := r) (i := i) (x := x)
  exact ⟨h.orderly.step h.bridged.opened hissued hanchored hstep,
    h.accounted.step h.orderly hissued hstep, h.bridged.step h.orderly hanchored hstep⟩

end Sane

/-- What single moves keep, moves in a row keep. -/
theorem Sane.steps_induction {P : Moment → Prop}
    (hstep : ∀ m m', m.Sane → m.Step m' → P m → P m') (hsteps : m.Steps m') (h : m.Sane) (hP : P m) :
    m'.Sane ∧ P m' := by
  induction hsteps with
  | refl => exact ⟨h, hP⟩
  | tail _ hlast ih => exact ⟨ih.1.step hlast, hstep _ _ ih.1 hlast ih.2⟩

/-- An event keeps what holds at every moment, and takes nothing back. -/
theorem Sane.event (h : m.Sane) (event : Event) :
    (m.perform event).Sane ∧ Later m (m.perform event) :=
  h.steps_induction (fun _ _ _ hstep hlater => hlater.trans hstep.later)
    (steps_perform h.footing event) (Later.refl m)

/-- What single moves keep, events in a row keep. -/
theorem Sane.foldl_induction {P : Moment → Prop}
    (hstep : ∀ m m', m.Sane → m.Step m' → P m → P m') (events : List Event) (h : m.Sane)
    (hP : P m) : (events.foldl perform m).Sane ∧ P (events.foldl perform m) := by
  induction events generalizing m with
  | nil => exact ⟨h, hP⟩
  | cons event events ih =>
    obtain ⟨h', hP'⟩ := h.steps_induction hstep (steps_perform h.footing event) hP
    exact ih h' hP'

end Moment

open Moment

/-- What holds at the start and is kept by single moves holds at the end of every run. -/
theorem run_induction {P : Moment → Prop} (hstart : P {})
    (hstep : ∀ m m', m.Sane → m.Step m' → P m → P m') (events : List Event) : P (run events) :=
  (Sane.start.foldl_induction hstep events hstart).2

theorem sane_run (events : List Event) : (run events).Sane :=
  (Sane.start.foldl_induction (fun _ _ _ _ => id) events trivial (P := fun _ => True)).1

end HostBridge.Session
