import HostBridge.Proofs.Session.Later

/-!
# Instances, loops and tasks keep step

An instance has a loop of its own, in the order of creation. The loop is asked to stop when the
cluster of the instance is closed, and not before; if the instance has a reaper, it is destroyed after
the thread of the loop has ended. From the moment of the request to shut down, every promotion that the loop still has
to make is cancelled. So none of them sleeps, and the thread, which ends when nothing is ready, ends
when nothing is left.
-/

namespace HostBridge.Session

open Bridge (Cookie Entry Host Message)

/-- The instance has a reaper, which has seen the end of the thread. -/
def Instance.Joined (x : Instance) : Prop :=
  x.state = .destroyed ∧ x.reaper ≠ .absent ∨ x.reaper = .released ∨ x.reaper = .marked ∨
    x.reaper = .done

namespace Moment

variable {m m' : Moment}

/-- The history accounts for a task on a loop, and its cookie has a callback of the right kind. -/
def Due (m : Moment) (l : Nat) : Task → Prop
  | .promote c o _ _ p =>
    .accepted l (.memory c o) p.result p.cookie.ticket ∈ m.history ∧
      o < (m.state.engine.connector c).operations.length ∧
      (∃ x : Instance, m.state.instances[l]? = some x ∧ x.connector = .memory c) ∧
      p.cookie.key.isSome = true ∧
      ∃ name hides, m.callbacks[p.cookie.ticket]? = some (.promotion name hides)
  | .pull i cookie =>
    (∃ r, .asked r cookie.ticket (some i) ∈ m.history) ∧
      (∃ x, m.state.engine.stream? i = some x ∧ x.loop = l) ∧
      cookie.key.isSome = true ∧
      ∃ name e, m.callbacks[cookie.ticket]? = some (.row name e)
  | .close _ => True
  | .park => False

/-- A promotion on the loop of an instance that is shutting down is cancelled. -/
def Doomed (m : Moment) (l : Nat) (t : Task) : Prop :=
  ∀ c o response timer p (x : Instance), t = .promote c o response timer p →
    m.state.instances[l]? = some x → x.state ≠ .running → m.state.engine.isCancelled c o = true

/-- Instances, loops and tasks agree. -/
structure Orderly (m : Moment) : Prop where
  /-- Ready tasks are there, and no cancelled promotion sleeps. -/
  sound : m.state.engine.Sound
  /-- There is a loop for each instance. -/
  workers : m.state.engine.workers.length = m.state.instances.length
  /-- An instance has the loop of its number. -/
  loop : ∀ (i : Nat) (x : Instance), m.state.instances[i]? = some x → x.loop = i
  /-- An instance belongs to a connector in memory. -/
  memory : ∀ (i : Nat) (x : Instance), m.state.instances[i]? = some x →
    ∃ c, x.connector = .memory c
  /-- A running instance holds its engine. -/
  hasEngine : ∀ (i : Nat) (x : Instance), m.state.instances[i]? = some x → x.state = .running →
    x.hasEngine = true
  /-- A loop was asked to stop exactly if the cluster of its instance is closed. -/
  stopping : ∀ (i : Nat) (x : Instance), m.state.instances[i]? = some x →
    ((m.state.engine.loop i).stopping = true ↔ x.state = .joiningThread ∨ x.state = .destroyed)
  /-- A reaper is at work only when the cluster is closed. -/
  reaper : ∀ (i : Nat) (x : Instance), m.state.instances[i]? = some x → x.reaper ≠ .absent →
    x.state = .joiningThread ∨ x.state = .destroyed
  /-- A reaper has waited for the thread before it releases the engine. -/
  joined : ∀ (i : Nat) (x : Instance), m.state.instances[i]? = some x → x.Joined →
    (m.state.engine.worker i).stage = .ended
  /-- A thread stops serving when its loop was asked to stop. -/
  stage : ∀ l, (m.state.engine.worker l).stage ≠ .serving →
    (m.state.engine.loop l).stopping = true
  /-- A thread ends when nothing is left to do. -/
  ended : ∀ l, (m.state.engine.worker l).stage = .ended → ∀ key, m.state.engine.job? l key = none
  /-- The history accounts for every task. -/
  due : ∀ l key t, m.state.engine.job? l key = some t → m.Due l t
  /-- Promotions of instances that shut down are cancelled. -/
  doomed : ∀ l key t, m.state.engine.job? l key = some t → m.Doomed l t

theorem Later.callback (h : Later m m') {t : Nat} {callback : Callback}
    (ht : m.callbacks[t]? = some callback) : m'.callbacks[t]? = some callback := by
  obtain ⟨hlt, rfl⟩ := List.getElem?_eq_some_iff.mp ht
  exact List.prefix_iff_getElem?.mp h.callbacks t hlt

/-- What the history accounts for, it goes on to account for. -/
theorem Due.mono {l : Nat} {t : Task} (h : m.Due l t) (hlater : Later m m') : m'.Due l t := by
  cases t with
  | promote c o response timer p =>
    obtain ⟨haccepted, ho, ⟨x, hx, hc⟩, hkey, name, hides, hcallback⟩ := h
    obtain ⟨x', hx', hc', -⟩ := hlater.instances l x hx
    exact ⟨hlater.history.subset haccepted, Nat.lt_of_lt_of_le ho (hlater.engine.operations c),
      ⟨x', hx', hc'.trans hc⟩, hkey, name, hides, hlater.callback hcallback⟩
  | pull i cookie =>
    obtain ⟨⟨r, hasked⟩, ⟨x, hx, hl⟩, hkey, name, e, hcallback⟩ := h
    obtain ⟨x', hx', hl', -⟩ := hlater.engine.streams i x hx
    exact ⟨⟨r, hlater.history.subset hasked⟩, ⟨x', hx', hl'.trans hl⟩, hkey, name, e,
      hlater.callback hcallback⟩
  | close reply => trivial
  | park => exact h

/-- The callback of a task was registered. -/
theorem Due.ticket_lt {l : Nat} {t : Task} (h : m.Due l t) {cookie : Cookie}
    (hcookie : cookie? t = some cookie) : cookie.ticket < m.callbacks.length := by
  cases t with
  | promote c o response timer p =>
    obtain ⟨-, -, -, -, name, hides, hcallback⟩ := h
    obtain rfl := Option.some.inj hcookie
    exact (List.getElem?_eq_some_iff.mp hcallback).1
  | pull i cookie =>
    obtain ⟨-, -, -, name, e, hcallback⟩ := h
    obtain rfl := Option.some.inj hcookie
    exact (List.getElem?_eq_some_iff.mp hcallback).1
  | close | park => cases hcookie

/-- The loop of a running instance takes tasks. -/
theorem Orderly.takes (h : m.Orderly) {i : Nat} {x : Instance}
    (hx : m.state.instances[i]? = some x) (hrunning : x.state = .running) :
    i < m.state.engine.workers.length ∧ (m.state.engine.loop i).stopping = false := by
  constructor
  · rw [h.workers]
    exact (List.getElem?_eq_some_iff.mp hx).1
  · have := h.stopping i x hx
    rw [hrunning] at this
    simpa using this

/-! ## Moves that leave the instances alone -/

/-- The loops go on, and what is added to them is accounted for. -/
theorem Orderly.shift (h : m.Orderly) (hlater : Later m m') (hsound : m'.state.engine.Sound)
    (hinstances : m'.state.instances = m.state.instances) {new : List (Nat × Task)}
    (hshifts : m.state.engine.Shifts m'.state.engine new)
    (hnew : ∀ l t, (l, t) ∈ new → m'.Due l t ∧ m'.Doomed l t) : m'.Orderly where
  sound := hsound
  workers := by rw [hshifts.length, hinstances]; exact h.workers
  loop := hinstances ▸ h.loop
  memory := hinstances ▸ h.memory
  hasEngine := hinstances ▸ h.hasEngine
  stopping i x hx := by
    rw [hshifts.stopping]
    exact h.stopping i x (hinstances ▸ hx)
  reaper := hinstances ▸ h.reaper
  joined i x hx := by
    rw [hshifts.stage]
    exact h.joined i x (hinstances ▸ hx)
  stage l := by
    rw [hshifts.stage, hshifts.stopping]
    exact h.stage l
  ended l hl key := by
    rw [hshifts.stage] at hl
    cases ht : m'.state.engine.job? l key with
    | none => rfl
    | some t =>
      exfalso
      rcases hshifts.jobs l key t ht with ht | ⟨-, hstop⟩
      · rw [h.ended l hl key] at ht
        cases ht
      · have := h.stage l (by rw [hl]; decide)
        rw [hstop] at this
        cases this
  due l key t ht := by
    rcases hshifts.jobs l key t ht with ht | ⟨ht, -⟩
    · exact (h.due l key t ht).mono hlater
    · exact (hnew l t ht).1
  doomed l key t ht := by
    rcases hshifts.jobs l key t ht with ht | ⟨ht, -⟩
    · intro c o response timer p x he hx hstate
      refine hlater.engine.cancelled c o ?_
      exact h.doomed l key t ht c o response timer p x he (hinstances ▸ hx) hstate
    · exact (hnew l t ht).2

/-! ## Moves that change an instance -/

/-- One instance gets on, and its loop may be asked to stop. -/
theorem Orderly.change (h : m.Orderly) (hlater : Later m m') (hsound : m'.state.engine.Sound)
    {i : Nat} {x y : Instance} (hx : m.state.instances[i]? = some x)
    (hinstances : m'.state.instances = m.state.instances.modify i fun _ => y)
    (hconnector : y.connector = x.connector) (hloop : y.loop = x.loop)
    (hengine : y.state = .running → y.hasEngine = true)
    (hreaper : y.reaper ≠ .absent → y.state = .joiningThread ∨ y.state = .destroyed)
    (hjoined : y.Joined → (m.state.engine.worker i).stage = .ended)
    (hlength : m'.state.engine.workers.length = m.state.engine.workers.length)
    (hstage : ∀ l, (m'.state.engine.worker l).stage = (m.state.engine.worker l).stage)
    (hothers : ∀ l, l ≠ i →
      (m'.state.engine.loop l).stopping = (m.state.engine.loop l).stopping)
    (hstops : (m.state.engine.loop i).stopping = true → (m'.state.engine.loop i).stopping = true)
    (hstop : (m'.state.engine.loop i).stopping = true ↔
      y.state = .joiningThread ∨ y.state = .destroyed)
    (hjobs : ∀ l key t, m'.state.engine.job? l key = some t → m'.Doomed l t ∧
      (m.state.engine.job? l key = some t ∨
        m'.Due l t ∧ (m.state.engine.loop l).stopping = false)) : m'.Orderly := by
  have hget := fun k => hinstances ▸ getElem?_modify_const hx y k
  -- a fact about the instances holds for the one that changed and for the others
  have hall : ∀ {P : Nat → Instance → Prop}, P i y →
      (∀ k z, k ≠ i → m.state.instances[k]? = some z → P k z) →
      ∀ (k : Nat) (z : Instance), m'.state.instances[k]? = some z → P k z := by
    intro P hy hrest k z hz
    rw [hget k] at hz
    split at hz
    · next hk =>
      obtain rfl := Option.some.inj hz
      exact hk ▸ hy
    · next hk => exact hrest k z hk hz
  have hstopping : ∀ l, (m.state.engine.loop l).stopping = true →
      (m'.state.engine.loop l).stopping = true := by
    intro l hl
    by_cases hi : l = i
    · subst hi
      exact hstops hl
    · rw [hothers l hi]
      exact hl
  refine ⟨hsound, ?_, ?_, ?_, ?_, ?_, ?_, ?_, ?_, ?_, ?_, ?_⟩
  · rw [hlength, hinstances, List.length_modify]
    exact h.workers
  · exact hall (hloop.trans (h.loop i x hx)) fun k z _ hz => h.loop k z hz
  · refine hall ?_ fun k z _ hz => h.memory k z hz
    rw [hconnector]
    exact h.memory i x hx
  · exact hall hengine fun k z _ hz => h.hasEngine k z hz
  · refine hall hstop fun k z hk hz => ?_
    rw [hothers k hk]
    exact h.stopping k z hz
  · exact hall hreaper fun k z _ hz => h.reaper k z hz
  · refine hall (fun hy => ?_) fun k z _ hz => ?_
    · rw [hstage]
      exact hjoined hy
    · rw [hstage]
      exact h.joined k z hz
  · intro l hl
    rw [hstage] at hl
    exact hstopping l (h.stage l hl)
  · intro l hl key
    rw [hstage] at hl
    cases ht : m'.state.engine.job? l key with
    | none => rfl
    | some t =>
      exfalso
      rcases (hjobs l key t ht).2 with ht | ⟨-, hfree⟩
      · rw [h.ended l hl key] at ht
        cases ht
      · have := h.stage l (by rw [hl]; decide)
        rw [hfree] at this
        cases this
  · intro l key t ht
    rcases (hjobs l key t ht).2 with ht | ⟨ht, -⟩
    · exact (h.due l key t ht).mono hlater
    · exact ht
  · exact fun l key t ht => (hjobs l key t ht).1

/-- Whoever was shutting down before the instance `i` got on was so before. -/
theorem Orderly.doomed_change (h : m.Orderly) (hlater : Later m m') {i : Nat} {x y : Instance}
    (hx : m.state.instances[i]? = some x)
    (hinstances : m'.state.instances = m.state.instances.modify i fun _ => y)
    (hrunning : x.state ≠ .running) {l key : Nat} {t : Task}
    (ht : m.state.engine.job? l key = some t) : m'.Doomed l t := by
  intro c o response timer p z he hz hstate
  refine hlater.engine.cancelled c o ?_
  rw [hinstances, getElem?_modify_const hx] at hz
  split at hz
  · next hl => exact h.doomed l key t ht c o response timer p x he (hl ▸ hx) hrunning
  · exact h.doomed l key t ht c o response timer p z he hz hstate

/-! ## Single moves -/

theorem Orderly.create (h : m.Orderly) (c : Nat) :
    (m.having { m.state with
      engine := m.state.engine.addLoop.2
      instances := m.state.instances ++
        [{ connector := .memory c, loop := m.state.engine.workers.length }] }).Orderly := by
  have hlater := (Step.create (m := m) c).later
  have hworker := Engine.State.worker_addLoop m.state.engine
  have hall : ∀ {P : Nat → Instance → Prop},
      P m.state.engine.workers.length
        { connector := .memory c, loop := m.state.engine.workers.length } →
      (∀ k z, k ≠ m.state.engine.workers.length → m.state.instances[k]? = some z → P k z) →
      ∀ (k : Nat) (z : Instance), (m.state.instances ++
        [{ connector := .memory c, loop := m.state.engine.workers.length }])[k]? = some z →
          P k z := by
    intro P hnew hold k z hz
    rw [List.getElem?_append] at hz
    split at hz
    · next hk => exact hold k z (by rw [h.workers]; exact Nat.ne_of_lt hk) hz
    · next hk =>
      rw [List.getElem?_singleton] at hz
      split at hz
      · next hk' =>
        obtain rfl := Option.some.inj hz
        have : k = m.state.engine.workers.length := by rw [h.workers]; omega
        exact this ▸ hnew
      · cases hz
  have hjob := Engine.State.job?_addLoop m.state.engine
  refine ⟨h.sound.addLoop, by simp [having, Engine.State.addLoop, h.workers], ?_, ?_, ?_, ?_, ?_, ?_,
    ?_, ?_, ?_, ?_⟩
  · exact hall rfl fun k z _ hz => h.loop k z hz
  · exact hall ⟨c, rfl⟩ fun k z _ hz => h.memory k z hz
  · exact hall (fun _ => rfl) fun k z _ hz => h.hasEngine k z hz
  · refine hall ?_ fun k z hk hz => ?_
    · simp [having, Engine.State.loop, hworker, Worker.held]
    · simp only [having, Engine.State.loop, hworker, hk, if_false]
      exact h.stopping k z hz
  · exact hall (fun hy => absurd rfl hy) fun k z _ hz => h.reaper k z hz
  · refine hall (by simp [Instance.Joined]) fun k z hk hz => ?_
    simp only [having, hworker, hk, if_false]
    exact h.joined k z hz
  · intro l
    simp only [having, Engine.State.loop, hworker]
    split
    · exact fun hl => absurd rfl hl
    · exact h.stage l
  · intro l
    simp only [having, hworker, hjob]
    split
    · exact fun hl => by cases hl
    · exact h.ended l
  · intro l key t ht
    simp only [having, hjob] at ht
    exact (h.due l key t ht).mono hlater
  · intro l key t ht
    simp only [having, hjob] at ht
    intro d o response timer p x he hx hstate
    have hl := Engine.State.lt_of_job? ht
    rw [h.workers] at hl
    have hx' : m.state.instances[l]? = some x := by
      simp only [having] at hx
      rwa [List.getElem?_append_left hl] at hx
    exact h.doomed l key t ht d o response timer p x he hx' hstate

/-- A thread that has nothing ready and was asked to stop has nothing to do: what is not ready
sleeps, and what sleeps is not cancelled. -/
theorem Orderly.idle (h : m.Orderly) {l : Nat} (hready : (m.state.engine.loop l).ready = [])
    (hstop : (m.state.engine.loop l).stopping = true) (key : Nat) :
    m.state.engine.job? l key = none := by
  cases ht : m.state.engine.job? l key with
  | none => rfl
  | some t =>
    exfalso
    have hl := Engine.State.lt_of_job? ht
    rw [h.workers] at hl
    obtain ⟨u, hu, rfl⟩ := Option.map_eq_some_iff.mp ht
    obtain ⟨c, o, response, p, rfl, hcancelled⟩ :=
      (h.sound.loop l).asleep key u hu (by simp [hready])
    have hx := List.getElem?_eq_getElem hl
    have hstate := (h.stopping l _ hx).mp hstop
    have hdoomed := h.doomed l key _ ht c o response .fresh p _ rfl hx
      (by rcases hstate with hs | hs <;> simp [hs])
    rw [hcancelled] at hdoomed
    cases hdoomed

theorem Orderly.look (h : m.Orderly) {l : Nat}
    (hmust : (m.state.engine.worker l).mustLook = true) :
    (m.having { m.state with engine := m.state.engine.looked l }).Orderly := by
  have hlater := (Step.look hmust).later
  have hjobs := Engine.State.sameJobs_looked m.state.engine l
  have hstopping := Engine.State.stopping_looked m.state.engine l
  have hworker := Engine.State.worker_looked m.state.engine l
  refine ⟨h.sound.looked hmust, hjobs.length.trans h.workers, h.loop, h.memory, h.hasEngine, ?_, h.reaper,
    ?_, ?_, ?_, ?_, ?_⟩
  · intro i x hx
    rw [← h.stopping i x hx]
    simp only [having, hstopping]
  · intro i x hx hgone
    have hended := h.joined i x hx hgone
    rcases hworker i with hw | ⟨-, hw⟩
    · simp only [having, hw, hended]
    · simp [having, hw, Worker.look, hended]
  · intro k hk
    simp only [having, hstopping]
    rcases hworker k with hw | ⟨-, hw⟩
    · exact h.stage k (by simpa only [having, hw] using hk)
    · rcases Worker.look_not_serving (by simpa only [having, hw] using hk) with hk | hk
      · exact h.stage k hk
      · exact hk
  · intro k hk key
    simp only [having, hjobs.job?]
    rcases hworker k with hw | ⟨-, hw⟩
    · exact h.ended k (by simpa only [having, hw] using hk) key
    · rcases Worker.look_ended (by simpa only [having, hw] using hk) with hk | ⟨hstage, hready⟩
      · exact h.ended k hk key
      · exact h.idle hready (h.stage k (by rw [hstage]; decide)) key
  · intro k key t ht
    simp only [having, hjobs.job?] at ht
    exact (h.due k key t ht).mono hlater
  · intro k key t ht
    simp only [having, hjobs.job?] at ht
    exact h.doomed k key t ht

/-- A request to shut down cancels every promotion of the instance. -/
theorem Orderly.close (h : m.Orderly) {i c : Nat} {x : Instance}
    (hx : m.state.instances[i]? = some x) (hrunning : x.state = .running)
    (hc : x.connector = .memory c) :
    (m.having { m.state with
      instances := m.state.instances.modify i fun _ => { x with state := .closingNetwork }
      engine := (m.state.engine.closing c).spawned i (.close i) }).Orderly := by
  have hlater := (Step.close hx hrunning hc).later
  obtain ⟨hi, hstop⟩ := h.takes hx hrunning
  have hwoken := Engine.State.woken_closing m.state.engine c
  have hshifts := (Engine.State.Shifts.of_woken hwoken).trans
    (Engine.State.Shifts.spawned (h.sound.closing c) (hwoken.length ▸ hi) (hwoken.stopping i ▸ hstop)
      (.close i))
  refine h.change hlater ((h.sound.closing c).spawned _) hx rfl rfl rfl (fun e => by cases e)
    (fun hreaper => ?_) (fun hgone => ?_) hshifts.length hshifts.stage
    (fun l _ => hshifts.stopping l) (fun hs => (hshifts.stopping i).trans hs) ?_ ?_
  · have := h.reaper i x hx hreaper
    rw [hrunning] at this
    simp at this
  · refine h.joined i x hx ?_
    exact hgone.imp_left fun ⟨hdestroyed, _⟩ => nomatch hdestroyed
  · have hstop' : (((m.state.engine.closing c).spawned i (.close i)).loop i).stopping = false :=
      (hshifts.stopping i).trans hstop
    simp [having, hstop']
  · intro l key t ht
    rcases hshifts.jobs l key t ht with hold | ⟨hnew, hfree⟩
    · refine ⟨?_, Or.inl hold⟩
      intro d o response timer p z he hz hstate
      simp only [having] at hz ⊢
      rw [getElem?_modify_const hx] at hz
      split at hz
      · next hl =>
        -- the promotion is one of the instance that shuts down, so its connector is `c`
        subst hl he
        obtain ⟨-, ho, ⟨x', hx', hc'⟩, -⟩ := h.due _ key _ hold
        obtain rfl := Option.some.inj (hx.symm.trans hx')
        obtain rfl : c = d := by simpa using hc.symm.trans hc'
        exact Engine.State.isCancelled_closing ho
      · exact hwoken.cancelled d o (h.doomed l key t hold d o response timer p z he hz hstate)
    · have ht : t = .close i := (Prod.mk.inj (List.mem_singleton.mp hnew)).2
      subst ht
      refine ⟨?_, Or.inr ⟨trivial, hfree⟩⟩
      intro d o response timer p z he
      cases he

/-- When the cluster is closed, the loop is asked to stop. -/
theorem Orderly.shut (h : m.Orderly) {l key i : Nat} {keys : List Nat} {x : Instance}
    (hready : (m.state.engine.loop l).ready = key :: keys)
    (htask : m.state.engine.job? l key = some (.close i))
    {y : Instance} (hx : m.state.instances[i]? = some x) (hshuts : x.Shuts y) :
    (m.having { m.state with
      engine := (m.state.engine.finished l key).stop x.loop
      instances := m.state.instances.modify i fun _ => y }).Orderly := by
  have hlater := (Step.shut hready htask hx hshuts).later
  obtain ⟨hconnector, hsame, hstate⟩ := hshuts.spec
  have hclosing := hshuts.closing
  have hshifts := Engine.State.Shifts.finished htask
  have hi : x.loop < (m.state.engine.finished l key).workers.length := by
    rw [hshifts.length, h.loop i x hx, h.workers]
    exact (List.getElem?_eq_some_iff.mp hx).1
  have hxi := h.loop i x hx
  have hloop := Engine.State.loop_stop hi
  have hjobs := Engine.State.sameJobs_stop hi
  rw [hxi] at hloop
  have hfree : ¬ y.Joined := by
    have habsent : x.reaper = .absent := by
      by_contra hreaper
      simpa [hclosing] using h.reaper i x hx hreaper
    cases hshuts <;> simp [Instance.Joined, Instance.detach, habsent]
  refine h.change hlater ((h.sound.finished hready).stop _) hx rfl hconnector hsame
    (absurd · hshuts.state_ne_running) (fun _ => hstate) (absurd · hfree)
    (hjobs.length.trans hshifts.length)
    (fun k => (Engine.State.stage_stop _ _ k).trans (hshifts.stage k)) (fun k hk => ?_) (fun _ => ?_) ?_
    fun k key' t ht => ⟨?_, Or.inl ?_⟩
  · simp only [having, hxi, hloop, hk, if_false]
    exact hshifts.stopping k
  · simp [having, hxi, hloop, Loop.stop]
  · simp [having, hxi, hloop, Loop.stop, hstate]
  · simp only [having, hjobs.job?] at ht
    rcases hshifts.jobs k key' t ht with ht | ⟨ht, -⟩
    · exact h.doomed_change hlater hx rfl (by simp [hclosing]) ht
    · simp at ht
  · simp only [having, hjobs.job?] at ht
    rcases hshifts.jobs k key' t ht with ht | ⟨ht, -⟩
    · exact ht
    · simp at ht

/-- The reaper gets on, if there is one. -/
theorem Orderly.reap (h : m.Orderly) {i : Nat} {x : Instance}
    (hx : m.state.instances[i]? = some x) :
    (m.having { m.state with
      instances := m.state.instances.modify i fun _ =>
        x.reap (m.state.threadEnded x.loop) }).Orderly := by
  have hlater := (Step.reap hx).later
  obtain ⟨hc, hl, hstate⟩ := x.reap_spec (m.state.threadEnded x.loop)
  have hgone : x.reaper ≠ .absent → x.state = .joiningThread ∨ x.state = .destroyed := h.reaper i x hx
  have hrunning : x.state = .running → x.reap (m.state.threadEnded x.loop) = x := by
    intro hr
    have habsent : x.reaper = .absent := by
      by_contra ha
      have := hgone ha
      simp [hr] at this
    simp [Instance.reap, habsent]
  have hstill : x.state ≠ .running → (x.reap (m.state.threadEnded x.loop)).state ≠ .running := by
    intro hr
    rcases hstate with hs | ⟨-, hs⟩
    · rwa [hs]
    · simp [hs]
  have hclosed : (x.state = .joiningThread ∨ x.state = .destroyed) →
      (x.reap (m.state.threadEnded x.loop)).state = .joiningThread ∨
        (x.reap (m.state.threadEnded x.loop)).state = .destroyed := by
    intro hs
    rcases hstate with hsame | ⟨-, hdestroyed⟩
    · rwa [hsame]
    · exact Or.inr hdestroyed
  refine h.change hlater h.sound hx rfl hc hl (fun hr => ?_) (fun hreaper => ?_) (fun hjoined => ?_) rfl
    (fun _ => rfl) (fun _ _ => rfl) id ?_ fun l key t ht => ⟨?_, Or.inl ht⟩
  · have hr' : x.state = .running := by
      by_contra hne
      exact hstill hne hr
    rw [hrunning hr']
    exact h.hasEngine i x hx hr'
  · refine hclosed (hgone fun ha => hreaper ?_)
    simp [Instance.reap, ha]
  · -- the reaper releases the engine only after it has seen the end of the thread
    have hold := h.joined i x hx
    have hthread : m.state.threadEnded x.loop = true →
        (m.state.engine.worker i).stage = .ended := by
      intro he
      rw [State.threadEnded, h.loop i x hx] at he
      simpa using he
    unfold Instance.reap at hjoined
    cases hreaper : x.reaper with
    | absent => simp [Instance.Joined, hreaper] at hjoined
    | started =>
      simp [Instance.Joined, hreaper] at hjoined
      exact hold (Or.inl ⟨hjoined, by simp [hreaper]⟩)
    | joining =>
      simp only [hreaper] at hjoined
      split at hjoined
      · next he => exact hthread he
      · exact hold hjoined
    | released => exact hold (Or.inr (Or.inl hreaper))
    | marked => exact hold (Or.inr (Or.inr (Or.inl hreaper)))
    | done => exact hold (Or.inr (Or.inr (Or.inr hreaper)))
  · rw [← h.stopping i x hx |>.trans ⟨hclosed, fun hs => ?_⟩]
    · rfl
    · by_contra hne
      rcases hstate with hsame | ⟨hreleased, -⟩
      · exact hne (hsame ▸ hs)
      · exact hne (hgone (by simp [hreleased]))
  · intro c o response timer p z he hz hs
    simp only [having] at hz ⊢
    rw [getElem?_modify_const hx] at hz
    split at hz
    · next hl =>
      obtain rfl := Option.some.inj hz
      refine h.doomed l key t ht c o response timer p x he (hl ▸ hx) fun hr => hs ?_
      rw [hrunning hr]
      exact hr
    · exact h.doomed l key t ht c o response timer p z he hz hs

/-! ## Every move -/

/-- A move that adds no task and changes no instance. -/
theorem Orderly.keep (h : m.Orderly) (hlater : Later m m') (hsound : m'.state.engine.Sound)
    (hinstances : m'.state.instances = m.state.instances)
    (hshifts : m.state.engine.Shifts m'.state.engine []) : m'.Orderly :=
  h.shift hlater hsound hinstances hshifts (by simp)

/-- Instances, loops and tasks keep step. -/
theorem Orderly.step (h : m.Orderly) (hopen : m.state.host.closed = false)
    (hissued : m.callbacks.length = m.state.host.issued)
    (hanchored : ∀ r i x, m.state.target? r = some (.active i) → m.state.engine.stream? i = some x →
      x.loop < m.state.engine.workers.length) (hstep : m.Step m') : m'.Orderly := by
  have hlater := hstep.later
  have hlast : ∀ callback : Callback,
      (m.callbacks ++ [callback])[m.state.host.issued]? = some callback := by
    intro callback
    rw [← hissued]
    simp
  have hstreams : ∀ i, m.state.engine.isStreamCancelled i = true →
      m'.state.engine.isStreamCancelled i = true := fun _ => hlater.engine.isStreamCancelled
  cases hstep with
  | note | grasp | attach | letGo | refuse | askEarly | askLate | strikeStream | tell | drop =>
    exact h.keep hlater (h.sound.congr rfl (fun _ _ => rfl) hstreams) rfl (.of_workers rfl)
  | connector =>
    exact h.keep hlater (h.sound.congr rfl (Engine.State.isCancelled_addConnector _) hstreams) rfl
      (.of_workers rfl)
  | respond _ =>
    exact h.keep hlater (h.sound.congr rfl (Engine.State.isCancelled_respond _) hstreams) rfl
      (.of_workers rfl)
  | create c => exact h.create c
  | @accept e i c x request name hides response responses hx hrunning hc hresponses =>
    obtain ⟨hi, hstop⟩ := h.takes hx hrunning
    have hsound : (m.state.engine.accepting c request responses).Sound := h.sound.accepting _ _
    have hshifts : m.state.engine.Shifts (m.state.engine.accepting c request responses) [] :=
      .of_workers rfl
    refine h.shift hlater (hsound.spawned _) rfl (hshifts.trans (.spawned hsound hi hstop _)) ?_
    intro l t hnew
    obtain ⟨rfl, rfl⟩ := Prod.mk.inj (List.mem_singleton.mp hnew)
    refine ⟨⟨?_, ?_, ⟨x, hx, hc⟩, Host.register_key hopen _ _, name, hides, ?_⟩, ?_⟩
    · simp [nextCookie]
    · have hconnector := Engine.State.connector_accepting
        (Engine.State.lt_connectors_of_responses hresponses) request responses c
      rw [if_pos rfl] at hconnector
      have : (((m.state.engine.accepting c request responses).spawned l
          (.promote c (m.state.engine.connector c).operations.length response .fresh
            ⟨m.state.results.length, m.nextCookie queryLabel (.promotion name hides)⟩)).connector
              c).operations.length = (m.state.engine.connector c).operations.length + 1 := by
        show ((m.state.engine.accepting c request responses).connector c).operations.length = _
        rw [hconnector]
        simp
      rw [this]
      exact Nat.lt_succ_self _
    · simp only [nextCookie, Host.register_ticket]
      exact hlast _
    · intro d o response' timer p z he hz hstate
      obtain rfl := Option.some.inj (hx.symm.trans hz)
      exact absurd hrunning hstate
  | @ask r i x name e htarget hx hstop =>
    have hl := hanchored r i x htarget hx
    refine h.shift hlater (h.sound.spawned _) rfl (.spawned h.sound hl hstop _) ?_
    intro l t hnew
    obtain ⟨rfl, rfl⟩ := Prod.mk.inj (List.mem_singleton.mp hnew)
    refine ⟨⟨⟨r, ?_⟩, ⟨x, hx, rfl⟩, Host.register_key hopen _ _, name, e, ?_⟩, ?_⟩
    · simp [nextCookie]
    · simp only [nextCookie, Host.register_ticket]
      exact hlast _
    · intro d o response timer p z he
      cases he
  | strikeOperation _ =>
    exact h.keep hlater (h.sound.cancelOperation _ _) rfl
      (.of_woken (Engine.State.woken_cancelOperation _ _ _))
  | close hx hrunning hc => exact h.close hx hrunning hc
  | look hmust => exact h.look hmust
  | sleep hready htask hcancelled =>
    refine h.keep hlater (h.sound.slept hready ⟨_, _, _, _, rfl, hcancelled⟩) rfl (.slept ?_)
    rw [Engine.State.job?, htask]
    rfl
  | elapse harmed => exact h.keep hlater (h.sound.elapse harmed) rfl (.elapse harmed)
  | report hready htask hsettled _ | reportLost hready htask hsettled _ =>
    refine h.keep hlater ((h.sound.finished hready).congr hsettled.workers (fun c o => ?_) hstreams)
      rfl ((Engine.State.Shifts.finished htask).congr hsettled.workers)
    rw [Engine.State.isCancelled, (hsettled.connector c).2]
    rfl
  | check hready htask hchecks =>
    exact h.keep hlater (h.sound.checked hready htask hchecks) rfl
      (.of_sameQueues (Engine.State.sameQueues_checked _ _ _))
  | draw hready htask =>
    exact h.keep hlater (h.sound.drawn hready htask _) rfl
      (.of_sameQueues (Engine.State.sameQueues_drawn _ _ _ _))
  | answer hready htask =>
    exact h.keep hlater (h.sound.finished hready) rfl (.finished htask)
  | shut hready htask hx hshuts => exact h.shut hready htask hx hshuts
  | stray hready htask => exact h.keep hlater (h.sound.finished hready) rfl (.finished htask)
  | reap hx => exact h.reap hx

end Moment

end HostBridge.Session
