import HostBridge.Proofs.Session.Perform

/-!
# Nothing is taken back in a run

A moment of a run is *later* than another if it can be reached from it: its history goes on where the
other ends, and connections, results, operations, streams and cancellations are still there. An
instance that is running now was running then.
-/

namespace HostBridge.Session

/-- The reaper leaves an instance on its loop, and revives nobody. -/
theorem Instance.reap_spec (x : Instance) (ended : Bool) :
    (x.reap ended).connector = x.connector ∧ (x.reap ended).loop = x.loop ∧
      ((x.reap ended).state = x.state ∨
        x.reaper = .released ∧ (x.reap ended).state = .destroyed) := by
  unfold Instance.reap
  split
  · exact ⟨rfl, rfl, Or.inl rfl⟩
  · split <;> exact ⟨rfl, rfl, Or.inl rfl⟩
  · next h => exact ⟨rfl, rfl, Or.inr ⟨h, rfl⟩⟩
  · exact ⟨rfl, rfl, Or.inl rfl⟩
  · exact ⟨rfl, rfl, Or.inl rfl⟩
  · exact ⟨rfl, rfl, Or.inl rfl⟩

theorem getElem?_modify_const {α : Type} {xs : List α} {i : Nat} {x : α} (hx : xs[i]? = some x)
    (y : α) (k : Nat) : (xs.modify i fun _ => y)[k]? = if k = i then some y else xs[k]? := by
  rw [List.getElem?_modify]
  by_cases hk : i = k
  · subst hk
    simp [hx]
  · have : ¬ k = i := fun e => hk e.symm
    simp [hk, this]

namespace Moment

variable {m m' m'' : Moment}

/-- What stays in a run. -/
structure Later (m m' : Moment) : Prop where
  /-- The history goes on. -/
  history : m.history <+: m'.history
  /-- Registrations go on. -/
  callbacks : m.callbacks <+: m'.callbacks
  /-- Operations, streams and cancellations stay. -/
  engine : m.state.engine.Grows m'.state.engine
  /-- Instances stay, and none of them starts to run again. -/
  instances : ∀ (i : Nat) (x : Instance), m.state.instances[i]? = some x →
    ∃ x' : Instance, m'.state.instances[i]? = some x' ∧ x'.connector = x.connector ∧
      x'.loop = x.loop ∧ (x'.state = .running → x.state = .running)
  /-- Results stay. -/
  results : m.state.results.length ≤ m'.state.results.length

namespace Later

theorem refl (m : Moment) : Later m m where
  history := List.prefix_refl _
  callbacks := List.prefix_refl _
  engine := .refl _
  instances _ x hx := ⟨x, hx, rfl, rfl, id⟩
  results := Nat.le_refl _

theorem trans (h : Later m m') (h' : Later m' m'') : Later m m'' where
  history := h.history.trans h'.history
  callbacks := h.callbacks.trans h'.callbacks
  engine := h.engine.trans h'.engine
  instances i x hx := by
    obtain ⟨x', hx', hc, hl, hr⟩ := h.instances i x hx
    obtain ⟨x'', hx'', hc', hl', hr'⟩ := h'.instances i x' hx'
    exact ⟨x'', hx'', hc'.trans hc, hl'.trans hl, fun e => hr (hr' e)⟩
  results := Nat.le_trans h.results h'.results

/-- A move that leaves instances alone. -/
theorem of_engine (hhistory : m.history <+: m'.history) (hcallbacks : m.callbacks <+: m'.callbacks)
    (hengine : m.state.engine.Grows m'.state.engine)
    (hinstances : m'.state.instances = m.state.instances)
    (hresults : m.state.results.length ≤ m'.state.results.length) : Later m m' where
  history := hhistory
  callbacks := hcallbacks
  engine := hengine
  instances _ x hx := ⟨x, hinstances ▸ hx, rfl, rfl, id⟩
  results := hresults

/-- A move that changes one instance. -/
theorem of_instance {i : Nat} {x y : Instance} (hhistory : m'.history = m.history)
    (hcallbacks : m'.callbacks = m.callbacks) (hengine : m.state.engine.Grows m'.state.engine)
    (hresults : m'.state.results = m.state.results) (hx : m.state.instances[i]? = some x)
    (hinstances : m'.state.instances = m.state.instances.modify i fun _ => y)
    (hconnector : y.connector = x.connector) (hloop : y.loop = x.loop)
    (hrunning : y.state = .running → x.state = .running) : Later m m' where
  history := hhistory ▸ List.prefix_refl _
  callbacks := hcallbacks ▸ List.prefix_refl _
  engine := hengine
  instances k z hz := by
    rw [hinstances, getElem?_modify_const hx]
    by_cases hk : k = i
    · subst hk
      obtain rfl := Option.some.inj (hz.symm.trans hx)
      exact ⟨y, by simp, hconnector, hloop, hrunning⟩
    · exact ⟨z, by simp [hk, hz], rfl, rfl, id⟩
  results := Nat.le_of_eq (by rw [hresults])

end Later

/-- A move takes nothing back. -/
theorem Step.later (h : m.Step m') : Later m m' := by
  cases h with
  | note | grasp =>
    exact .of_engine (List.prefix_refl _) (List.prefix_refl _) (.refl _) rfl (Nat.le_refl _)
  | attach | letGo =>
    exact .of_engine (List.prefix_refl _) (List.prefix_refl _) (.refl _) rfl
      (by simp [having, State.modifyResult, State.dropResult])
  | connector =>
    exact .of_engine (List.prefix_refl _) (List.prefix_refl _) (.addConnector _) rfl (Nat.le_refl _)
  | respond _ =>
    exact .of_engine (List.prefix_append _ _) (List.prefix_refl _) (.respond _) rfl (Nat.le_refl _)
  | create c =>
    refine ⟨List.prefix_refl _, List.prefix_refl _, .of_eq rfl rfl, fun i x hx => ?_, Nat.le_refl _⟩
    refine ⟨x, ?_, rfl, rfl, id⟩
    exact List.getElem?_append_left (List.getElem?_eq_some_iff.mp hx).1 ▸ hx
  | refuse name hides =>
    exact .of_engine (List.prefix_append _ _) (List.prefix_append _ _) (.refl _) rfl (by simp)
  | accept hx hrunning hc hresponses =>
    refine .of_engine (List.prefix_append _ _) (List.prefix_append _ _) ?_ rfl (by simp)
    exact (Engine.State.Grows.accepting _ _).trans (.of_eq rfl rfl)
  | askEarly _ | askLate _ _ _ =>
    exact .of_engine (List.prefix_append _ _) (List.prefix_append _ _) (.refl _) rfl (Nat.le_refl _)
  | ask _ _ _ =>
    exact .of_engine (List.prefix_append _ _) (List.prefix_append _ _) (.of_eq rfl rfl) rfl
      (Nat.le_refl _)
  | strikeOperation _ =>
    exact .of_engine (List.prefix_append _ _) (List.prefix_refl _)
      (.of_woken (Engine.State.woken_cancelOperation _ _ _)) rfl (Nat.le_refl _)
  | strikeStream _ =>
    exact .of_engine (List.prefix_append _ _) (List.prefix_refl _) (.cancelStream _ _) rfl
      (Nat.le_refl _)
  | close hx hrunning hc =>
    refine .of_instance rfl rfl ?_ rfl hx rfl rfl rfl fun h => by cases h
    exact (Engine.State.Grows.of_woken (Engine.State.woken_closing _ _)).trans (.of_eq rfl rfl)
  | tell | drop =>
    exact .of_engine (List.prefix_refl _) (List.prefix_refl _) (.refl _) rfl (Nat.le_refl _)
  | look | sleep | elapse | stray =>
    exact .of_engine (List.prefix_refl _) (List.prefix_refl _) (.of_eq rfl rfl) rfl (Nat.le_refl _)
  | report hready htask hsettled htarget =>
    exact .of_engine (List.prefix_append _ _) (List.prefix_refl _) (.settled hsettled) rfl (by simp)
  | reportLost hready htask hsettled htarget =>
    exact .of_engine (List.prefix_append _ _) (List.prefix_refl _) (.settled hsettled) rfl
      (Nat.le_refl _)
  | check | answer =>
    exact .of_engine (List.prefix_append _ _) (List.prefix_refl _) (.of_eq rfl rfl) rfl
      (Nat.le_refl _)
  | draw =>
    exact .of_engine (List.prefix_refl _) (List.prefix_refl _) (.drawn _ _ _ _) rfl (Nat.le_refl _)
  | shut hready htask hx hshuts =>
    exact .of_instance rfl rfl (.of_eq rfl rfl) rfl hx rfl hshuts.spec.1 hshuts.spec.2.1
      fun h => absurd h hshuts.state_ne_running
  | @reap i x hx =>
    obtain ⟨hc, hl, hs⟩ := x.reap_spec (m.state.threadEnded x.loop)
    refine .of_instance rfl rfl (.refl _) rfl hx rfl hc hl fun h => ?_
    rcases hs with hs | ⟨-, hs⟩
    · exact hs ▸ h
    · rw [hs] at h
      cases h

end Moment

end HostBridge.Session
