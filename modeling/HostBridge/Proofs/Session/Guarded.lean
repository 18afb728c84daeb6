import HostBridge.Proofs.Session.Scene

/-!
# What holds between any two steps of a shutdown

The pieces of an instance are let go one after the other, by its reaper or, if there can be none, by
the thread that reports its end. The progress of a reaper says what the instance still has;
`Instance.Fits` says how its state goes with that and with its loop, and `Report.Suits` says the same
of a thread that reports. `Scene.Guarded` is what holds in every scene. Its core is who comes when: a
cluster is reported as closed only after the host has closed it, one thread only moves the instance
on, and that thread lets go of it or starts the reaper after it has stopped the loop.
-/

namespace HostBridge.Session

/-! ## What an instance has at each point of its shutdown -/

/-- How many steps a reaper has taken. -/
def Reaper.steps : Reaper → Nat
  | absent => 0
  | started => 1
  | joining => 2
  | released => 3
  | marked => 4
  | done => 5

/-- The pieces of an instance fit the progress of its reaper. -/
structure Instance.Reaped (x : Instance) (stopping : Bool) : Prop where
  /-- The loop was stopped. -/
  stopped : stopping = true
  /-- The reaper takes the thread first. -/
  thread : x.hasThread = decide (x.reaper.steps ≤ 1)
  /-- It releases the engine when the thread has ended. -/
  engine : x.hasEngine = decide (x.reaper.steps ≤ 2)
  /-- Then the instance is destroyed. -/
  state : x.state = if x.reaper.steps ≤ 3 then .joiningThread else .destroyed
  /-- The signal comes last. -/
  signal : x.signalOpen = decide (x.reaper.steps ≤ 4)

/-- The pieces of an instance are gone in their order, and its state fits its loop. -/
structure Instance.Fits (x : Instance) (stopping : Bool) : Prop where
  /-- The thread goes only when the loop was stopped. -/
  thread : x.hasThread = false → stopping = true
  /-- The engine goes after the thread. -/
  engine : x.hasEngine = false → x.hasThread = false
  /-- Then the instance is destroyed. -/
  destroyed : x.state = .destroyed → x.hasEngine = false
  /-- The signal comes last. -/
  signal : x.signalOpen = false → x.state = .destroyed
  /-- A loop is stopped only when its cluster is closed, and only then there is a reaper. -/
  early : x.state = .running ∨ x.state = .closingNetwork → stopping = false ∧ x.reaper = .absent
  /-- What a reaper has done is what is gone. -/
  reaped : x.reaper ≠ .absent → x.Reaped stopping

/-- How an instance stands that a thread has moved on and that has no reaper. -/
def Report.Suits (x : Instance) : Report → Prop
  | idle | begun _ => True
  | moved _ | stopped _ => x.state = .joiningThread ∧ x.reaper = .absent ∧ x.hasThread = true
  | detached _ => x.state = .joiningThread ∧ x.reaper = .absent ∧ x.hasThread = false
  | released _ => x.state = .joiningThread ∧ x.reaper = .absent ∧ x.hasEngine = false
  | marked _ => x.state = .destroyed ∧ x.reaper = .absent

namespace Instance.Fits

variable {x : Instance} {stopping : Bool}

/-- A new instance runs, and has everything. -/
theorem new (k loop : Nat) : Instance.Fits { connector := .memory k, loop } false :=
  ⟨nofun, nofun, nofun, nofun, fun _ => ⟨rfl, rfl⟩, (absurd rfl ·)⟩

/-- The thread is there as long as the loop is not stopped. -/
theorem hasThread (h : x.Fits stopping) (hstopping : stopping = false) : x.hasThread = true := by
  by_contra hthread
  rw [h.thread (by simpa using hthread)] at hstopping
  cases hstopping

/-- The rest is there as long as the thread is. -/
theorem intact (h : x.Fits stopping) (hthread : x.hasThread = true) :
    x.hasEngine = true ∧ x.signalOpen = true := by
  have hengine : x.hasEngine = true := by
    by_contra hengine
    rw [h.engine (by simpa using hengine)] at hthread
    cases hthread
  refine ⟨hengine, ?_⟩
  by_contra hsignal
  rw [h.destroyed (h.signal (by simpa using hsignal))] at hengine
  cases hengine

theorem reap (h : x.Fits stopping) (ended : Bool) : (x.reap ended).Fits stopping := by
  cases hreaper : x.reaper with
  | absent | done =>
    have hsame : x.reap ended = x := by simp [Instance.reap, hreaper]
    exact hsame.symm ▸ h
  | joining =>
    cases ended with
    | false =>
      have hsame : x.reap false = x := by simp [Instance.reap, hreaper]
      exact hsame.symm ▸ h
    | true =>
      obtain ⟨hstopped, hthread, -, hstate, hsignal⟩ := h.reaped (by simp [hreaper])
      simp only [hreaper, Reaper.steps] at hthread hstate hsignal
      simp only [Instance.reap, hreaper, if_true]
      refine ⟨h.thread, fun _ => hthread, fun _ => rfl, h.signal, fun hearly => ?_, fun _ =>
        ⟨hstopped, hthread, rfl, hstate, hsignal⟩⟩
      simp [hstate] at hearly
  | started =>
    obtain ⟨hstopped, -, hengine, hstate, hsignal⟩ := h.reaped (by simp [hreaper])
    simp only [hreaper, Reaper.steps] at hengine hstate hsignal
    simp only [Instance.reap, hreaper]
    refine ⟨fun _ => hstopped, fun _ => rfl, h.destroyed, h.signal, fun hearly => ?_, fun _ =>
      ⟨hstopped, rfl, hengine, hstate, hsignal⟩⟩
    simp [hstate] at hearly
  | released =>
    obtain ⟨hstopped, hthread, hengine, -, hsignal⟩ := h.reaped (by simp [hreaper])
    simp only [hreaper, Reaper.steps] at hthread hengine hsignal
    simp only [Instance.reap, hreaper]
    exact ⟨h.thread, h.engine, fun _ => hengine, fun _ => rfl, nofun, fun _ =>
      ⟨hstopped, hthread, hengine, rfl, hsignal⟩⟩
  | marked =>
    obtain ⟨hstopped, hthread, hengine, hstate, -⟩ := h.reaped (by simp [hreaper])
    simp only [hreaper, Reaper.steps] at hthread hengine hstate
    simp only [Instance.reap, hreaper]
    refine ⟨h.thread, h.engine, h.destroyed, fun _ => hstate, fun hearly => ?_, fun _ =>
      ⟨hstopped, hthread, hengine, hstate, rfl⟩⟩
    simp [hstate] at hearly

/-- While all of an instance is there, its state may change, as long as it fits the loop. -/
theorem transit (h : x.Fits stopping) (hstopping : stopping = false) {target : Lifecycle}
    (htarget : target ≠ .destroyed) (hreaper : x.reaper = .absent) :
    ({ x with state := target } : Instance).Fits stopping where
  thread := h.thread
  engine := h.engine
  destroyed := (absurd · htarget)
  signal hsignal := absurd ((h.intact (h.hasThread hstopping)).2.symm.trans hsignal) nofun
  early _ := ⟨hstopping, hreaper⟩
  reaped := (absurd hreaper ·)

end Instance.Fits

/-- An instance that was moved on and has no reaper is neither running nor about to be closed. -/
theorem Report.Suits.late {x : Instance} {r : Report} {i : Nat} (h : r.Suits x)
    (hpast : r.past? = some i) :
    x.reaper = .absent ∧ x.state ≠ .running ∧ x.state ≠ .closingNetwork := by
  cases r with
  | idle | begun => cases hpast
  | moved | stopped | detached | released =>
    obtain ⟨hstate, habsent, -⟩ := h
    simp [hstate, habsent]
  | marked =>
    obtain ⟨hstate, habsent⟩ := h
    simp [hstate, habsent]

namespace Report.Releases

variable {i : Nat} {x y : Instance} {r r' : Report}

theorem past? (h : Releases i x r y r') : r.past? = some i := by
  cases h <;> rfl

theorem about? (h : Releases i x r y r') : r'.about? = none ∨ r'.about? = r.about? := by
  cases h with
  | thread | engine | state => exact Or.inr rfl
  | signal => exact Or.inl rfl

theorem past?_eq (h : Releases i x r y r') {k : Nat} (hk : r'.past? = some k) : k = i := by
  cases h with
  | thread | engine | state => exact (Option.some.inj hk).symm
  | signal => cases hk

theorem ne_stopped (h : Releases i x r y r') : r' ≠ .stopped i := by
  cases h <;> nofun

/-- What lets go of an instance leaves it to its connector, on its loop and without a reaper. -/
theorem spec (h : Releases i x r y r') :
    y.connector = x.connector ∧ y.loop = x.loop ∧ y.reaper = x.reaper := by
  cases h <;> exact ⟨rfl, rfl, rfl⟩

theorem state_ne_running (h : Releases i x r y r') (hstate : x.state ≠ .running) :
    y.state ≠ .running := by
  cases h with
  | thread | engine | signal => exact hstate
  | state => nofun

theorem suits (h : Releases i x r y r') (hsuits : r.Suits x) : r'.Suits y := by
  cases h with
  | thread => exact ⟨hsuits.1, hsuits.2.1, rfl⟩
  | engine => exact ⟨hsuits.1, hsuits.2.1, rfl⟩
  | state => exact ⟨rfl, hsuits.2.1⟩
  | signal => trivial

/-- The pieces go in the same order as with a reaper. -/
theorem fits {stopping : Bool} (h : Releases i x r y r') (hsuits : r.Suits x)
    (hstopped : r = .stopped i → stopping = true) (hfits : x.Fits stopping) : y.Fits stopping := by
  obtain ⟨habsent, hlate⟩ := hsuits.late h.past?
  have hnone : y.reaper = .absent := h.spec.2.2.trans habsent
  rw [← not_or] at hlate
  cases h with
  | thread =>
    exact ⟨fun _ => hstopped rfl, fun _ => rfl, hfits.destroyed, hfits.signal,
      (absurd · hlate), (absurd hnone ·)⟩
  | engine =>
    exact ⟨hfits.thread, fun _ => hsuits.2.2, fun _ => rfl, hfits.signal, (absurd · hlate),
      (absurd hnone ·)⟩
  | state =>
    exact ⟨hfits.thread, hfits.engine, fun _ => hsuits.2.2, fun _ => rfl, nofun, (absurd hnone ·)⟩
  | signal =>
    exact ⟨hfits.thread, hfits.engine, hfits.destroyed, fun _ => hsuits.1, (absurd · hlate),
      (absurd hnone ·)⟩

end Report.Releases

namespace Scene

variable {c c' : Scene} {i l : Nat} {x y : Instance} {event : Event}

/-- What holds between any two events. -/
structure Guarded (c : Scene) : Prop where
  /-- There is a loop for each instance. -/
  workers : c.state.engine.workers.length = c.state.instances.length
  /-- An instance has the loop of its number. -/
  loop : ∀ (i : Nat) (x : Instance), c.state.instances[i]? = some x → x.loop = i
  /-- An instance belongs to a connector in memory. -/
  memory : ∀ (i : Nat) (x : Instance), c.state.instances[i]? = some x →
    ∃ k, x.connector = .memory k
  /-- The pieces of an instance fit its progress. -/
  fits : ∀ (i : Nat) (x : Instance), c.state.instances[i]? = some x →
    x.Fits (c.state.engine.loop i).stopping
  /-- The host is about to close the cluster of an instance that it has moved on. -/
  asked : ∀ i, c.request = some i →
    ∃ x, c.state.instances[i]? = some x ∧ x.state = .closingNetwork
  /-- A cluster is reported as closed only after the host has closed it. -/
  told : ∀ i, c.state.engine.Announces i ∨ (∃ l, (c.report l).about? = some i) →
    c.request ≠ some i ∧ ∃ x, c.state.instances[i]? = some x ∧ x.state ≠ .running
  /-- An instance that was moved on is as the thread has left it. -/
  past : ∀ l i, (c.report l).past? = some i → ∃ x, c.state.instances[i]? = some x ∧
    (c.report l).Suits x
  /-- Its loop was stopped. -/
  stopped : ∀ l i, c.report l = .stopped i → (c.state.engine.loop i).stopping = true
  /-- One thread only moves an instance on. -/
  alone : ∀ l k i, (c.report l).past? = some i → (c.report k).past? = some i → l = k

theorem guarded_start : ({} : Scene).Guarded where
  workers := rfl
  loop := by simp [state]
  memory := by simp [state]
  fits := by simp [state]
  asked := by simp
  told i h := by
    rcases h with ⟨l, hl⟩ | ⟨l, hl⟩
    · simp [state, Engine.State.loop, Engine.State.worker, Registry.contents] at hl
    · cases hl
  past := nofun
  stopped := nofun
  alone := nofun

/-- A thread may be told of a closed cluster, but nothing is done to an instance. -/
theorem Guarded.reports (h : c.Guarded) (hcalm : c.state.Calm c'.state)
    (hrequest : c'.request = c.request)
    (habout : ∀ l i, (c'.report l).about? = some i →
      c.state.engine.Announces i ∨ ∃ l, (c.report l).about? = some i)
    (hpast : ∀ l i, (c'.report l).past? = some i → c'.report l = c.report l) : c'.Guarded where
  workers := by rw [hcalm.instances, hcalm.engine.length]; exact h.workers
  loop := hcalm.instances ▸ h.loop
  memory := hcalm.instances ▸ h.memory
  fits i x hx := by
    rw [hcalm.engine.stopping]
    exact h.fits i x (hcalm.instances ▸ hx)
  asked i hi := hcalm.instances ▸ h.asked i (hrequest ▸ hi)
  told i hi := by
    rw [hrequest, hcalm.instances]
    refine h.told i ?_
    rcases hi with hi | ⟨l, hl⟩
    · exact Or.inl (hcalm.engine.announces i hi)
    · exact habout l i hl
  past l i hl := by
    have hsame := hpast l i hl
    rw [hsame] at hl ⊢
    exact hcalm.instances ▸ h.past l i hl
  stopped l i hl := by
    rw [hcalm.engine.stopping]
    exact h.stopped l i (hpast l i (by rw [hl]; rfl) ▸ hl)
  alone l k i hl hk := h.alone l k i (hpast l i hl ▸ hl) (hpast k i hk ▸ hk)

/-- One instance changes. -/
theorem Guarded.change (h : c.Guarded) (hx : c.state.instances[i]? = some x)
    (hinstances : c'.state.instances = c.state.instances.modify i fun _ => y)
    (hengine : c'.state.engine = c.state.engine) (hconnector : y.connector = x.connector)
    (hloop : y.loop = x.loop) (hfits : y.Fits (c.state.engine.loop i).stopping)
    (hrunning : y.state = .running → x.state = .running)
    (hrequest : ∀ k, c'.request = some k →
      (c.request = some k ∨ k = i ∧ x.state = .running) ∧ (k = i → y.state = .closingNetwork))
    (habout : ∀ l k, (c'.report l).about? = some k → ∃ l, (c.report l).about? = some k)
    (hpast : ∀ l k, (c'.report l).past? = some k →
      if k = i then (c'.report l).Suits y else c'.report l = c.report l)
    (hstopped : ∀ l k, c'.report l = .stopped k → c.report l = .stopped k)
    (halone : ∀ l k, (c'.report l).past? = some i → (c'.report k).past? = some i → l = k) :
    c'.Guarded := by
  have hget := fun k => hinstances ▸ getElem?_modify_const hx y k
  have hself : c'.state.instances[i]? = some y := by rw [hget, if_pos rfl]
  have hothers : ∀ k, k ≠ i → c'.state.instances[k]? = c.state.instances[k]? := fun k hk => by
    rw [hget, if_neg hk]
  -- a fact about the instances holds for the one that changed and for the others
  have hall : ∀ {P : Nat → Instance → Prop}, P i y →
      (∀ k z, c.state.instances[k]? = some z → P k z) →
      ∀ (k : Nat) (z : Instance), c'.state.instances[k]? = some z → P k z := by
    intro P hy hrest k z hz
    by_cases hk : k = i
    · subst hk
      exact Option.some.inj (hself.symm.trans hz) ▸ hy
    · exact hrest k z (hothers k hk ▸ hz)
  have htold : ∀ k, c'.state.engine.Announces k ∨ (∃ l, (c'.report l).about? = some k) →
      c.state.engine.Announces k ∨ ∃ l, (c.report l).about? = some k := by
    intro k hk
    rcases hk with hk | ⟨l, hl⟩
    · exact Or.inl (hengine ▸ hk)
    · exact Or.inr (habout l k hl)
  refine ⟨?_, ?_, ?_, ?_, ?_, ?_, ?_, ?_, ?_⟩
  · rw [hengine, hinstances, List.length_modify]
    exact h.workers
  · exact hall (hloop.trans (h.loop i x hx)) h.loop
  · exact hall (hconnector ▸ h.memory i x hx) h.memory
  · rw [hengine]
    exact hall hfits h.fits
  · intro k hk
    obtain ⟨hbefore, hclosing⟩ := hrequest k hk
    by_cases hki : k = i
    · subst hki
      exact ⟨y, hself, hclosing rfl⟩
    · rw [hothers k hki]
      exact h.asked k (hbefore.resolve_right fun hb => hki hb.1)
  · intro k hk
    obtain ⟨hnot, z, hz, hstate⟩ := h.told k (htold k hk)
    constructor
    · intro hk'
      rcases (hrequest k hk').1 with hbefore | ⟨rfl, hrun⟩
      · exact hnot hbefore
      · rw [hx] at hz
        exact hstate (Option.some.inj hz ▸ hrun)
    · by_cases hki : k = i
      · subst hki
        rw [hx] at hz
        exact ⟨y, hself, fun hrun => hstate (Option.some.inj hz ▸ hrunning hrun)⟩
      · exact ⟨z, hothers k hki ▸ hz, hstate⟩
  · intro l k hl
    have hcase := hpast l k hl
    split at hcase
    · next hki =>
      subst hki
      exact ⟨y, hself, hcase⟩
    · next hki =>
      rw [hcase] at hl ⊢
      rw [hothers k hki]
      exact h.past l k hl
  · intro l k hl
    rw [hengine]
    exact h.stopped l k (hstopped l k hl)
  · intro l k j hl hk
    by_cases hji : j = i
    · subst hji
      exact halone l k hl hk
    · have hl' := hpast l j hl
      have hk' := hpast k j hk
      rw [if_neg hji] at hl' hk'
      exact h.alone l k j (hl' ▸ hl) (hk' ▸ hk)

theorem past?_update {report : Nat → Report} {l k j : Nat} {r : Report}
    (h : (Function.update report l r k).past? = some j) :
    k = l ∧ r.past? = some j ∨ k ≠ l ∧ (report k).past? = some j := by
  rw [Function.update_apply] at h
  split at h
  · next hk => exact Or.inl ⟨hk, h⟩
  · next hk => exact Or.inr ⟨hk, h⟩

theorem stopped_of_update {report : Nat → Report} {l k j : Nat} {r : Report} (hr : r ≠ .stopped j)
    (h : Function.update report l r k = .stopped j) : report k = .stopped j := by
  rw [Function.update_apply] at h
  split at h
  · exact absurd h hr
  · exact h

/-- A report that was under way goes on, and the others with it. -/
theorem about?_update {report : Nat → Report} {l k j : Nat} {r : Report}
    (hr : r.about? = none ∨ r.about? = (report l).about?)
    (h : (Function.update report l r k).about? = some j) : ∃ l, (report l).about? = some j := by
  rw [Function.update_apply] at h
  split at h
  · rcases hr with hr | hr
    · rw [hr] at h
      cases h
    · exact ⟨l, hr ▸ h⟩
  · exact ⟨k, h⟩

theorem Guarded.ask (h : c.Guarded) (hx : c.state.instances[i]? = some x)
    (hrunning : x.state = .running) :
    ({ c.having (c.state.modifyInstance i fun _ => { x with state := .closingNetwork }) with
      request := some i } : Scene).Guarded := by
  have hfits := h.fits i x hx
  obtain ⟨hstopping, habsent⟩ := hfits.early (Or.inl hrunning)
  refine h.change hx rfl rfl rfl rfl (hfits.transit hstopping (by decide) habsent) nofun ?_
    (fun l k hl => ⟨l, hl⟩) ?_ (fun _ _ => id) (fun l k => h.alone l k i)
  · intro k hk
    obtain rfl := Option.some.inj hk
    exact ⟨Or.inr ⟨rfl, hrunning⟩, fun _ => rfl⟩
  · intro l k hl
    split
    · next hk =>
      obtain ⟨z, hz, hsuits⟩ := h.past l k hl
      rw [hk, hx] at hz
      exact absurd (Option.some.inj hz ▸ hrunning) (hsuits.late hl).2.1
    · rfl

/-- One thread only reports on an instance that was moved on. -/
theorem Guarded.alone_update (h : c.Guarded) (hpast : (c.report l).past? = some i) {r : Report}
    {k : Nat} (hk : (Function.update c.report l r k).past? = some i) : k = l := by
  rcases past?_update hk with ⟨hkl, -⟩ | ⟨-, hk⟩
  · exact hkl
  · exact h.alone k l i hk hpast

theorem Guarded.move (h : c.Guarded) (hbegun : c.report l = .begun i)
    (hx : c.state.instances[i]? = some x) (hclosing : x.state = .closingNetwork) :
    (c.goOn l i (fun _ => { x with state := .joiningThread }) (.moved i)).Guarded := by
  have hfits := h.fits i x hx
  obtain ⟨hstopping, habsent⟩ := hfits.early (Or.inr hclosing)
  have hnot := (h.told i (Or.inr ⟨l, by rw [hbegun]; rfl⟩)).1
  -- no thread has moved the instance on before
  have hfirst : ∀ k, (c.report k).past? ≠ some i := by
    intro k hk
    obtain ⟨z, hz, hsuits⟩ := h.past k i hk
    rw [hx] at hz
    exact (hsuits.late hk).2.2 (Option.some.inj hz ▸ hclosing)
  refine h.change hx rfl rfl rfl rfl (hfits.transit hstopping (by decide) habsent) nofun ?_
    (fun k j hj => about?_update (Or.inr (by rw [hbegun]; rfl)) hj) ?_
    (fun k j => stopped_of_update nofun) ?_
  · intro k hk
    exact ⟨Or.inl hk, fun hki => absurd (hki ▸ hk) hnot⟩
  · intro k j hj
    rcases past?_update hj with ⟨rfl, hj'⟩ | ⟨hkl, hj⟩
    · obtain rfl : i = j := Option.some.inj hj'
      rw [if_pos rfl, report_goOn]
      exact ⟨rfl, habsent, hfits.hasThread hstopping⟩
    · split
      · next hji => exact absurd (hji ▸ hj) (hfirst k)
      · exact Function.update_of_ne hkl ..
  · intro k j hk hj
    rcases past?_update hk with ⟨rfl, -⟩ | ⟨-, hk⟩
    · rcases past?_update hj with ⟨rfl, -⟩ | ⟨-, hj⟩
      · rfl
      · exact absurd hj (hfirst j)
    · exact absurd hk (hfirst k)

/-- A thread that has moved an instance on does something else to it. -/
theorem Guarded.goOn (h : c.Guarded) (hpast : (c.report l).past? = some i)
    (hx : c.state.instances[i]? = some x) {r : Report} (hconnector : y.connector = x.connector)
    (hloop : y.loop = x.loop) (hfits : y.Fits (c.state.engine.loop i).stopping)
    (hrunning : y.state ≠ .running)
    (habout : r.about? = none ∨ r.about? = (c.report l).about?)
    (hsuits : ∀ k, r.past? = some k → k = i ∧ r.Suits y) (hstopped : r ≠ .stopped i) :
    (c.goOn l i (fun _ => y) r).Guarded := by
  have hnot := (h.told i (Or.inr ⟨l, Report.about?_of_past? hpast⟩)).1
  refine h.change hx rfl rfl hconnector hloop hfits (absurd · hrunning) ?_
    (fun k j => about?_update habout) ?_ ?_ ?_
  · intro k hk
    exact ⟨Or.inl hk, fun hki => absurd (hki ▸ hk) hnot⟩
  · intro k j hj
    rcases past?_update hj with ⟨rfl, hj'⟩ | ⟨hkl, hj⟩
    · obtain ⟨hji, hsuits⟩ := hsuits j hj'
      rw [if_pos hji, report_goOn]
      exact hsuits
    · split
      · next hji => exact absurd (h.alone k l i (hji ▸ hj) hpast) hkl
      · exact Function.update_of_ne hkl ..
  · intro k j hj
    refine stopped_of_update ?_ hj
    rintro rfl
    exact hstopped ((hsuits j rfl).1 ▸ rfl)
  · intro k j hk hj
    rw [h.alone_update hpast hk, h.alone_update hpast hj]

theorem Guarded.start (h : c.Guarded) (hstopped : c.report l = .stopped i)
    (hx : c.state.instances[i]? = some x) :
    (c.goOn l i (fun _ => { x with reaper := .started }) .idle).Guarded := by
  have hpast : (c.report l).past? = some i := by rw [hstopped]; rfl
  obtain ⟨z, hz, hsuits⟩ := h.past l i hpast
  obtain rfl : x = z := Option.some.inj (hx.symm.trans hz)
  rw [hstopped] at hsuits
  obtain ⟨hstate, -, hthread⟩ := hsuits
  have hfits := h.fits i x hx
  obtain ⟨hengine, hsignal⟩ := hfits.intact hthread
  have hstarted : ({ x with reaper := .started } : Instance).Fits
      (c.state.engine.loop i).stopping :=
    ⟨hfits.thread, hfits.engine, hfits.destroyed, hfits.signal, by simp [hstate], fun _ =>
      ⟨h.stopped l i hstopped, hthread, hengine, hstate, hsignal⟩⟩
  exact h.goOn hpast hx rfl rfl hstarted (by simp [hstate]) (Or.inl rfl) nofun nofun

/-- A thread that finds no reaper lets go of an instance. -/
theorem Guarded.release (h : c.Guarded) {r : Report}
    (hreleases : Report.Releases i x (c.report l) y r) (hx : c.state.instances[i]? = some x) :
    (c.goOn l i (fun _ => y) r).Guarded := by
  have hpast := hreleases.past?
  obtain ⟨z, hz, hsuits⟩ := h.past l i hpast
  obtain rfl : x = z := Option.some.inj (hx.symm.trans hz)
  obtain ⟨hconnector, hloop, -⟩ := hreleases.spec
  refine h.goOn hpast hx hconnector hloop (hreleases.fits hsuits (h.stopped l i) (h.fits i x hx))
    (hreleases.state_ne_running (hsuits.late hpast).2.1) hreleases.about?
    (fun k hk => ⟨hreleases.past?_eq hk, hreleases.suits hsuits⟩) hreleases.ne_stopped

/-- A reaper has nothing to do before it is started. -/
theorem Guarded.reap_early (h : c.Guarded) (hx : c.state.instances[i]? = some x)
    (hearly : x.state = .running ∨ x.state = .closingNetwork ∨ x.reaper = .absent) (ended : Bool) :
    x.reap ended = x := by
  have habsent : x.reaper = .absent := by
    rcases hearly with hrunning | hclosing | habsent
    · exact ((h.fits i x hx).early (Or.inl hrunning)).2
    · exact ((h.fits i x hx).early (Or.inr hclosing)).2
    · exact habsent
  simp [Instance.reap, habsent]

theorem Guarded.reap (h : c.Guarded) (hx : c.state.instances[i]? = some x) (ended : Bool) :
    (c.having (c.state.modifyInstance i fun _ => x.reap ended)).Guarded := by
  obtain ⟨hconnector, hloop, hstate⟩ := x.reap_spec ended
  refine h.change hx rfl rfl hconnector hloop ((h.fits i x hx).reap ended) ?_ ?_
    (fun l k hl => ⟨l, hl⟩) ?_ (fun _ _ => id) (fun l k => h.alone l k i)
  · intro hrunning
    rcases hstate with hstate | ⟨-, hstate⟩
    · exact hstate ▸ hrunning
    · rw [hstate] at hrunning
      cases hrunning
  · intro k hk
    refine ⟨Or.inl hk, fun hki => ?_⟩
    obtain ⟨z, hz, hclosing⟩ := h.asked k hk
    rw [hki, hx] at hz
    obtain rfl := Option.some.inj hz
    rw [h.reap_early hx (Or.inr (Or.inl hclosing))]
    exact hclosing
  · intro l k hl
    split
    · next hki =>
      obtain ⟨z, hz, hsuits⟩ := h.past l k hl
      rw [hki, hx] at hz
      obtain rfl := Option.some.inj hz
      rw [h.reap_early hx (Or.inr (Or.inr (hsuits.late hl).1))]
      exact hsuits
    · rfl

theorem Guarded.close (h : c.Guarded) {moment : Moment} (hrequest : c.request = some i)
    (hinstances : moment.state.instances = c.state.instances)
    (hlength : moment.state.engine.workers.length = c.state.engine.workers.length)
    (hstopping : ∀ l, (moment.state.engine.loop l).stopping = (c.state.engine.loop l).stopping)
    (hannounces : ∀ k, moment.state.engine.Announces k → k = i ∨ c.state.engine.Announces k) :
    ({ c with moment, request := none } : Scene).Guarded where
  workers := hlength.trans (h.workers.trans (congrArg List.length hinstances).symm)
  loop k z hz := h.loop k z (hinstances ▸ hz)
  memory k z hz := h.memory k z (hinstances ▸ hz)
  fits k z hz := (hstopping k).symm ▸ h.fits k z (hinstances ▸ hz)
  asked := nofun
  told k hk := by
    refine ⟨nofun, ?_⟩
    show ∃ x, moment.state.instances[k]? = some x ∧ x.state ≠ .running
    rw [hinstances]
    have hbefore : k = i ∨ c.state.engine.Announces k ∨ ∃ l, (c.report l).about? = some k := by
      rcases hk with hk | hk
      · exact (hannounces k hk).imp_right Or.inl
      · exact Or.inr (Or.inr hk)
    rcases hbefore with rfl | hk
    · obtain ⟨x, hx, hclosing⟩ := h.asked k hrequest
      exact ⟨x, hx, by rw [hclosing]; decide⟩
    · exact (h.told k hk).2
  past l k hl := by
    obtain ⟨x, hx, hpast⟩ := h.past l k hl
    exact ⟨x, hinstances.symm ▸ hx, hpast⟩
  stopped l k hl := (hstopping k).trans (h.stopped l k hl)
  alone := h.alone

theorem Guarded.stop (h : c.Guarded) (hmoved : c.report l = .moved i) :
    ({ c.having { c.state with engine := c.state.engine.stop i } with
      report := Function.update c.report l (.stopped i) } : Scene).Guarded := by
  have hpast : (c.report l).past? = some i := by rw [hmoved]; rfl
  obtain ⟨x, hx, hsuits⟩ := h.past l i hpast
  rw [hmoved] at hsuits
  have hl : i < c.state.engine.workers.length := by
    rw [h.workers]
    exact (List.getElem?_eq_some_iff.mp hx).1
  have hloop := Engine.State.loop_stop (s := c.state.engine) hl
  -- the thread has moved the same instance on before and after
  have hsame : ∀ k j, (Function.update c.report l (.stopped i) k).past? = some j →
      (c.report k).past? = some j := by
    intro k j hj
    rcases past?_update hj with ⟨rfl, hj'⟩ | ⟨-, hj'⟩
    · exact hpast.trans hj'
    · exact hj'
  refine ⟨?_, h.loop, h.memory, ?_, h.asked, ?_, ?_, ?_,
    fun k k' j hk hk' => h.alone k k' j (hsame k j hk) (hsame k' j hk')⟩
  · show (c.state.engine.stop i).workers.length = _
    rw [Engine.State.stop, Engine.State.modifyLoop, Engine.State.modifyWorker, List.length_modify]
    exact h.workers
  · intro k z hz
    show z.Fits ((c.state.engine.stop i).loop k).stopping
    rw [hloop]
    split
    · next hk =>
      obtain rfl : x = z := Option.some.inj (hx.symm.trans (hk ▸ hz))
      obtain ⟨-, hengine, hdestroyed, hsignal, -, -⟩ := h.fits i x hx
      obtain ⟨hstate, habsent, -⟩ := hsuits
      exact ⟨fun _ => rfl, hengine, hdestroyed, hsignal, by simp [hstate], (absurd habsent ·)⟩
    · exact h.fits k z hz
  · intro k hk
    refine h.told k ?_
    rcases hk with ⟨j, hj⟩ | ⟨j, hj⟩
    · refine Or.inl ⟨j, ?_⟩
      have htasks : ((c.state.engine.stop i).loop j).tasks = (c.state.engine.loop j).tasks := by
        rw [hloop]
        split
        · next hji => rw [hji]; rfl
        · rfl
      rw [← htasks]
      exact hj
    · exact Or.inr (about?_update (Or.inr (by rw [hmoved]; rfl)) hj)
  · intro k j hj
    rcases past?_update hj with ⟨rfl, hj'⟩ | ⟨hkl, hj'⟩
    · obtain rfl : i = j := Option.some.inj hj'
      refine ⟨x, hx, ?_⟩
      show Report.Suits x (Function.update c.report k (.stopped i) k)
      rw [Function.update_self]
      exact hsuits
    · show ∃ z, _ ∧ Report.Suits z (Function.update c.report l (.stopped i) k)
      rw [Function.update_of_ne hkl]
      exact h.past k j hj'
  · intro k j hj
    show ((c.state.engine.stop i).loop j).stopping = true
    rw [hloop]
    split
    · rfl
    · next hji =>
      refine h.stopped k j (stopped_of_update ?_ hj)
      rintro hij
      exact hji (Report.stopped.inj hij).symm

theorem Guarded.create (h : c.Guarded) {moment : Moment} {k : Nat}
    (hinstances : moment.state.instances = c.state.instances ++
      [{ connector := .memory k, loop := c.state.engine.workers.length }])
    (hengine : moment.state.engine = c.state.engine.addLoop.2) :
    ({ c with moment } : Scene).Guarded := by
  have hold : ∀ (i : Nat) (x : Instance), c.state.instances[i]? = some x →
      moment.state.instances[i]? = some x := by
    intro i x hx
    rw [hinstances, List.getElem?_append_left (List.getElem?_eq_some_iff.mp hx).1, hx]
  have hloop : ∀ l, l ≠ c.state.engine.workers.length →
      moment.state.engine.loop l = c.state.engine.loop l := by
    intro l hl
    rw [hengine, Engine.State.loop, Engine.State.worker_addLoop, if_neg hl]
    rfl
  have hnew : moment.state.engine.loop c.state.engine.workers.length =
      { turns := 1, left := Loop.batch - 1 } := by
    rw [hengine, Engine.State.loop, Engine.State.worker_addLoop, if_pos rfl]
    rfl
  -- an instance is an old one or the new one
  have hcases : ∀ (i : Nat) (x : Instance), moment.state.instances[i]? = some x →
      c.state.instances[i]? = some x ∧ i ≠ c.state.engine.workers.length ∨
      i = c.state.engine.workers.length ∧
        x = { connector := .memory k, loop := c.state.engine.workers.length } := by
    intro i x hx
    rw [hinstances] at hx
    rcases Nat.lt_trichotomy i c.state.instances.length with hi | rfl | hi
    · rw [List.getElem?_append_left hi] at hx
      exact Or.inl ⟨hx, h.workers ▸ Nat.ne_of_lt hi⟩
    · rw [List.getElem?_concat_length] at hx
      exact Or.inr ⟨h.workers.symm, (Option.some.inj hx).symm⟩
    · rw [List.getElem?_eq_none (by simp; omega)] at hx
      cases hx
  refine ⟨?_, ?_, ?_, ?_, ?_, ?_, ?_, ?_, h.alone⟩
  · show moment.state.engine.workers.length = moment.state.instances.length
    rw [hengine, hinstances]
    simp [Engine.State.addLoop, h.workers]
  · intro i x hx
    rcases hcases i x hx with ⟨hx, -⟩ | ⟨rfl, rfl⟩
    · exact h.loop i x hx
    · rfl
  · intro i x hx
    rcases hcases i x hx with ⟨hx, -⟩ | ⟨rfl, rfl⟩
    · exact h.memory i x hx
    · exact ⟨k, rfl⟩
  · intro i x hx
    rcases hcases i x hx with ⟨hx, hi⟩ | ⟨rfl, rfl⟩
    · show x.Fits (moment.state.engine.loop i).stopping
      rw [hloop i hi]
      exact h.fits i x hx
    · show Instance.Fits _ (moment.state.engine.loop _).stopping
      rw [hnew]
      exact .new k c.state.engine.workers.length
  · intro i hi
    obtain ⟨x, hx, hclosing⟩ := h.asked i hi
    exact ⟨x, hold i x hx, hclosing⟩
  · intro i hi
    have hbefore : c.state.engine.Announces i ∨ ∃ l, (c.report l).about? = some i := by
      rcases hi with ⟨l, hl⟩ | hi
      · have hl' : .close i ∈ (moment.state.engine.loop l).tasks.contents := hl
        by_cases hlnew : l = c.state.engine.workers.length
        · rw [hlnew, hnew] at hl'
          cases hl'
        · exact Or.inl ⟨l, hloop l hlnew ▸ hl'⟩
      · exact Or.inr hi
    obtain ⟨hnot, x, hx, hstate⟩ := h.told i hbefore
    exact ⟨hnot, x, hold i x hx, hstate⟩
  · intro l i hl
    obtain ⟨x, hx, hpast⟩ := h.past l i hl
    exact ⟨x, hold i x hx, hpast⟩
  · intro l i hl
    obtain ⟨x, hx, -⟩ := h.past l i (by rw [hl]; rfl)
    have hne : i ≠ c.state.engine.workers.length := by
      rw [h.workers]
      exact Nat.ne_of_lt (List.getElem?_eq_some_iff.mp hx).1
    show (moment.state.engine.loop i).stopping = true
    rw [hloop i hne]
    exact h.stopped l i hl

/-- What holds between any two events. -/
theorem Guarded.step (h : c.Guarded) (hstep : c.Step event c') : c'.Guarded := by
  cases hstep with
  | calm hcalm =>
    exact h.reports hcalm rfl (fun l i hl => Or.inr ⟨l, hl⟩) (fun _ _ _ => rfl)
  | create hinstances hengine => exact h.create hinstances hengine
  | ask _ hx hrunning => exact h.ask hx hrunning
  | close hrequest hinstances hlength hstopping hannounces =>
    exact h.close hrequest hinstances hlength hstopping hannounces
  | @told l i engine hidle hcalm hannounced =>
    refine h.reports ⟨rfl, hcalm⟩ rfl ?_ ?_
    · intro k j hj
      have hj' : (Function.update c.report l (.begun i) k).about? = some j := hj
      rw [Function.update_apply] at hj'
      split at hj'
      · obtain rfl := Option.some.inj hj'
        exact Or.inl hannounced
      · exact Or.inr ⟨k, hj'⟩
    · intro k j hj
      rcases past?_update hj with ⟨-, hj⟩ | ⟨hkl, -⟩
      · cases hj
      · exact Function.update_of_ne hkl ..
  | @ignore l i hbegun =>
    refine h.reports (State.Calm.refl _) rfl
      (fun k j hj => Or.inr (about?_update (Or.inl rfl) hj)) ?_
    intro k j hj
    rcases past?_update hj with ⟨-, hj⟩ | ⟨hkl, -⟩
    · cases hj
    · exact Function.update_of_ne hkl ..
  | move hbegun hx hclosing => exact h.move hbegun hx hclosing
  | stop hmoved => exact h.stop hmoved
  | start hstopped hx => exact h.start hstopped hx
  | release hreleases _ hx => exact h.release hreleases hx
  | reap hx => exact h.reap hx _

/-! ## Every event is such a step -/

theorem modifyInstance_eq (hx : c.state.instances[i]? = some x) (f : Instance → Instance) :
    c.state.modifyInstance i f = c.state.modifyInstance i fun _ => f x := by
  have hmodify : c.state.instances.modify i f = c.state.instances.modify i fun _ => f x := by
    refine List.ext_getElem? fun k => ?_
    rw [List.getElem?_modify, List.getElem?_modify]
    by_cases hk : i = k
    · subst hk
      simp [hx]
    · simp [hk]
  rw [State.modifyInstance, State.modifyInstance, hmodify]

theorem step_refl (c : Scene) (event : Event) : c.Step event c :=
  .calm (State.Calm.refl _)

theorem step_ask (c : Scene) (i : Nat)
    (hevent : event = .act (.destroy i) ∨ event = .act (.dropConnection i)) :
    c.Step event (c.ask i) := by
  unfold Scene.ask
  split
  · exact c.step_refl event
  · next x hx =>
    simp only [Instance.transit?]
    by_cases hrunning : x.state = .running
    · rw [if_pos hrunning]
      exact .ask hevent hx hrunning
    · rw [if_neg hrunning]
      exact .calm (State.calm_note c.state .host [.destroyRefused x.state])

/-- The host finds the engine of the instance that it has moved on, and the loop takes the task that
reports the end. -/
theorem Guarded.step_close (h : c.Guarded) (hrequest : c.request = some i) :
    c.Step .resume (c.close i) := by
  obtain ⟨x, hx, hclosing⟩ := h.asked i hrequest
  have hfits := h.fits i x hx
  have hstopping := (hfits.early (Or.inr hclosing)).1
  have hengine : x.hasEngine = true := (hfits.intact (hfits.hasThread hstopping)).1
  obtain ⟨k, hk⟩ := h.memory i x hx
  have hwoken := Engine.State.woken_closing c.state.engine k
  obtain ⟨hlength, hloops, hannounces, hcloses⟩ :=
    Engine.State.submit_calm (c.state.engine.closing k) i (.close i)
  have htaken : ((c.state.engine.closing k).submit i (.close i)).1 = none := by
    simp [Engine.State.submit, Loop.spawn, hwoken.stopping, hstopping]
  simp only [Scene.close, hx, hengine, if_true, State.close, hk, h.loop i x hx,
    Engine.State.close_eq, State.took, htaken]
  refine .close hrequest rfl (hlength.trans hwoken.length)
    (fun l => (hloops l).trans (hwoken.stopping l)) (fun j hj => ?_) hx hk
    fun d => (hcloses d).trans (c.state.engine.closes_closing k d)
  rcases hannounces j hj with hclose | ⟨l, hl⟩
  · exact Or.inl (Engine.Task.close.inj hclose).symm
  · exact Or.inr ⟨l, hwoken.tasks l ▸ hl⟩

/-- The thread of a loop does what it does to the instance that it has moved on. -/
theorem Guarded.goOn_eq (h : c.Guarded) (hpast : (c.report l).past? = some i)
    (f : Instance → Instance) (r : Report) : ∃ x, c.state.instances[i]? = some x ∧
      c.goOn l i f r = c.goOn l i (fun _ => f x) r := by
  obtain ⟨x, hx, -⟩ := h.past l i hpast
  exact ⟨x, hx, by rw [Scene.goOn, Scene.goOn, modifyInstance_eq hx]⟩

theorem Guarded.step_release (h : c.Guarded) {f : Instance → Instance} {r : Report}
    (hreleases : ∀ x, Report.Releases i x (c.report l) (f x) r)
    (hfault : c.report l = .stopped i → c.state.reaperFault ≠ none) :
    c.Step (.turn l) (c.goOn l i f r) := by
  obtain ⟨x, hx, hf⟩ := h.goOn_eq (hreleases { connector := .memory 0, loop := 0 }).past? f r
  rw [hf]
  exact .release (hreleases x) hfault hx

theorem Guarded.step_turn (h : c.Guarded) (l : Nat) : c.Step (.turn l) (c.turn l) := by
  unfold Scene.turn
  split
  · next hidle =>
    obtain ⟨hcalm, hannounced⟩ := Engine.State.calm_turn c.state.engine l
    split
    · next i engine hturn =>
      rw [hturn] at hcalm hannounced
      exact .told hidle hcalm (hannounced i rfl)
    · next hother =>
      refine .calm ?_
      show c.state.Calm (c.state.turn l)
      have htaken : c.state.Calm { c.state with engine := (c.state.engine.turn l).2 } := ⟨rfl, hcalm⟩
      simp only [State.turn]
      split
      · exact htaken
      · next completion hcompletion =>
        refine htaken.trans (State.calm_complete ?_ .loop)
        rintro i rfl
        exact hother i _ (Prod.ext hcompletion rfl)
  · next i hbegun =>
    cases hx : c.state.instances[i]? with
    | none => exact .ignore hbegun
    | some x =>
      simp only [Option.bind_some, Instance.transit?]
      by_cases hclosing : x.state = .closingNetwork
      · rw [if_pos hclosing]
        exact .move hbegun hx hclosing
      · rw [if_neg hclosing]
        exact .ignore hbegun
  · next i hmoved =>
    obtain ⟨x, hx, -⟩ := h.past l i (by rw [hmoved]; rfl)
    simp only [hx, h.loop i x hx]
    exact .stop hmoved
  · next i hstopped =>
    split
    · obtain ⟨x, hx, hf⟩ := h.goOn_eq (by rw [hstopped]; rfl) _ .idle
      rw [hf]
      exact .start hstopped hx
    · next hfault =>
      exact h.step_release (fun x => hstopped.symm ▸ .thread) fun _ => by simp [hfault]
  · next i hdetached =>
    exact h.step_release (fun x => hdetached.symm ▸ .engine) fun hstopped => by
      simp [hdetached] at hstopped
  · next i hreleased =>
    exact h.step_release (fun x => hreleased.symm ▸ .state) fun hstopped => by
      simp [hreleased] at hstopped
  · next i hmarked =>
    exact h.step_release (fun x => hmarked.symm ▸ .signal) fun hstopped => by
      simp [hmarked] at hstopped

theorem Guarded.step_act (h : c.Guarded) (deed : Deed) :
    c.Step (.act deed) (c.perform (.act deed)) := by
  have hcalm : deed.concernsInstance = false →
      c.Step (.act deed) { c with moment := c.moment.act deed } :=
    fun hdeed => .calm (Moment.calm_act h.memory hdeed)
  cases hfree : c.isFree with
  | false =>
    have hsame : c.perform (.act deed) = c := by
      cases deed <;> simp [perform, hfree]
    rw [hsame]
    exact c.step_refl _
  | true =>
    cases deed with
    | destroy i =>
      simp only [perform, hfree, if_true]
      exact c.step_ask i (Or.inl rfl)
    | dropConnection i =>
      simp only [perform, hfree, if_true, Scene.drop]
      split
      · exact c.step_refl _
      · split
        · exact c.step_ask i (Or.inr rfl)
        · exact c.step_refl _
    | create k options =>
      simp only [perform, hfree, if_true, Moment.act]
      rcases State.create_cases c.state k options with hcalm | ⟨trace, hcreate⟩
      · exact .calm hcalm
      · exact .create (congrArg State.instances hcreate) (congrArg State.engine hcreate)
    | connector | respond | query | next | cancel | dropResult | executor | executorQuery
    | executorNext | executorAbort | dropExecutor | dispatch =>
      simp only [perform, hfree, if_true]
      exact hcalm rfl

theorem Guarded.step_perform (h : c.Guarded) (event : Event) : c.Step event (c.perform event) := by
  cases event with
  | act deed => exact h.step_act deed
  | resume =>
    simp only [perform]
    split
    · next i hrequest => exact h.step_close hrequest
    · exact .calm (Moment.calm_resume _)
  | turn l => exact h.step_turn l
  | elapse l key =>
    refine .calm ?_
    simp only [Moment.perform]
    split
    · exact ⟨rfl, Engine.State.calm_elapse _ l key⟩
    · exact State.Calm.refl _
  | reap i =>
    simp only [perform, State.reap]
    split
    · exact .calm (State.Calm.refl _)
    · next x hx =>
      rw [modifyInstance_eq hx, h.loop i x hx]
      exact .reap hx
  | reapers fault => exact .calm (State.Calm.of_eq rfl rfl)

theorem guarded_scene (events : List Event) : (scene events).Guarded := by
  suffices h : ∀ c : Scene, c.Guarded → (events.foldl perform c).Guarded from h _ guarded_start
  induction events with
  | nil => exact fun c h => h
  | cons event events ih => exact fun c h => ih _ (h.step (h.step_perform event))

end Scene

end HostBridge.Session
