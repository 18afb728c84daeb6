import HostBridge.Proofs.Session.Guarded

/-!
# Shutdowns take their course

An instance goes through its states in order, however the threads that take part in its shutdown take
turns and whether or not a reaper can be started. The main statement speaks of every scene, thus of
every point between two steps of a request, of a report and of a reaper.
-/

namespace HostBridge.Session

namespace Scene

variable {c c' : Scene} {i : Nat} {x y : Instance} {event : Event}

/-! ## What becomes of one instance -/

/-- What an event can do to one instance. -/
inductive Progress (c : Scene) (i : Nat) (x : Instance) : Event → Instance → Prop
  /-- It is left alone. -/
  | stay {event : Event} : Progress c i x event x
  /-- The host moves it on. -/
  | ask {event : Event} (hevent : event = .act (.destroy i) ∨ event = .act (.dropConnection i))
      (hrunning : x.state = .running) : Progress c i x event { x with state := .closingNetwork }
  /-- The thread of a loop moves it on. -/
  | move {l : Nat} (hclosing : x.state = .closingNetwork) :
      Progress c i x (.turn l) { x with state := .joiningThread }
  /-- The thread of a loop starts its reaper. -/
  | start {l : Nat} (hjoining : x.state = .joiningThread) (habsent : x.reaper = .absent) :
      Progress c i x (.turn l) { x with reaper := .started }
  /-- The thread of a loop, which finds no reaper, lets go of a piece of it. -/
  | release {l : Nat} {y : Instance} {r : Report}
      (hreleases : Report.Releases i x (c.report l) y r) (hsuits : (c.report l).Suits x)
      (hstopped : c.report l = .stopped i →
        (c.state.engine.loop i).stopping = true ∧ c.state.reaperFault ≠ none) :
      Progress c i x (.turn l) y
  /-- Its reaper takes a step. -/
  | reap : Progress c i x (.reap i) (x.reap (c.state.threadEnded i))

/-- One instance is left alone while another one changes. -/
theorem progress_modify {k : Nat} {z : Instance} (hx : c.state.instances[i]? = some x)
    (hz : c.state.instances[k]? = some z) (y : Instance)
    (hprogress : c.Progress k z event y) : ∃ w, (c.state.modifyInstance k fun _ => y).instances[i]? =
      some w ∧ c.Progress i x event w := by
  have hget := getElem?_modify_const hz y i
  by_cases hik : i = k
  · subst hik
    obtain rfl : x = z := Option.some.inj (hx.symm.trans hz)
    exact ⟨y, by rw [State.modifyInstance, hget, if_pos rfl], hprogress⟩
  · exact ⟨x, by rw [State.modifyInstance, hget, if_neg hik, hx], .stay⟩

theorem Guarded.progress (h : c.Guarded) (hstep : c.Step event c')
    (hx : c.state.instances[i]? = some x) :
    ∃ y, c'.state.instances[i]? = some y ∧ c.Progress i x event y := by
  cases hstep with
  | calm hcalm => exact ⟨x, hcalm.instances.symm ▸ hx, .stay⟩
  | create hinstances hengine =>
    refine ⟨x, ?_, .stay⟩
    show Moment.state _ |>.instances[i]? = some x
    rw [hinstances, List.getElem?_append_left (List.getElem?_eq_some_iff.mp hx).1, hx]
  | ask hevent hz hrunning => exact progress_modify hx hz _ (.ask hevent hrunning)
  | close _ hinstances => exact ⟨x, hinstances.symm ▸ hx, .stay⟩
  | told | ignore | stop => exact ⟨x, hx, .stay⟩
  | move _ hz hclosing => exact progress_modify hx hz _ (.move hclosing)
  | @start l k z hstopped hz =>
    obtain ⟨w, hw, hsuits⟩ := h.past l k (by rw [hstopped]; rfl)
    rw [hstopped] at hsuits
    obtain rfl : z = w := Option.some.inj (hz.symm.trans hw)
    exact progress_modify hx hz _ (.start hsuits.1 hsuits.2.1)
  | @release l k z w r hreleases hfault hz =>
    obtain ⟨z', hz', hsuits⟩ := h.past l k hreleases.past?
    obtain rfl : z = z' := Option.some.inj (hz.symm.trans hz')
    -- another instance may be the one that the thread reports on
    by_cases hik : i = k
    · subst hik
      exact progress_modify hx hz w (.release hreleases hsuits fun hstopped =>
        ⟨h.stopped l i hstopped, hfault hstopped⟩)
    · refine ⟨x, ?_, .stay⟩
      show (c.state.modifyInstance k fun _ => w).instances[i]? = some x
      rw [State.modifyInstance, getElem?_modify_const hz, if_neg hik, hx]
  | reap hz => exact progress_modify hx hz _ .reap

/-- The state of an instance moves on by one step at most. -/
theorem Progress.number (h : c.Progress i x event y) (hfits : x.Fits (c.state.engine.loop i).stopping) :
    y.state = x.state ∨ y.state.number = x.state.number + 1 := by
  cases h with
  | stay | start => exact Or.inl rfl
  | ask _ hrunning => exact Or.inr (by rw [hrunning]; rfl)
  | move hclosing => exact Or.inr (by rw [hclosing]; rfl)
  | @release l _ _ hreleases hsuits =>
    generalize c.report l = report at hreleases hsuits
    cases hreleases with
    | thread | engine | signal => exact Or.inl rfl
    | state => exact Or.inr (by rw [hsuits.1]; rfl)
  | reap =>
    obtain ⟨-, -, hstate⟩ := x.reap_spec (c.state.threadEnded i)
    refine hstate.imp_right fun ⟨hreleased, hdestroyed⟩ => ?_
    have hjoining := (hfits.reaped (by simp [hreleased])).state
    rw [hdestroyed, hjoining, hreleased]
    rfl

/-- The pieces of an instance are taken by its reaper or, if there is none, by the thread that has
stopped its loop. A reaper takes the engine only when the thread has ended. -/
theorem Progress.pieces (h : c.Progress i x event y) :
    (y.hasThread ≠ x.hasThread ∨ y.hasEngine ≠ x.hasEngine ∨ y.signalOpen ≠ x.signalOpen →
      event = .reap i ∧ x.reaper ≠ .absent ∨
      x.reaper = .absent ∧ ∃ l, event = .turn l ∧ (c.report l).past? = some i) ∧
    (y.hasEngine ≠ x.hasEngine → event = .reap i → c.state.threadEnded i = true) := by
  cases h with
  | stay | ask | move | start => simp
  | @release l _ _ hreleases hsuits =>
    have hpast := hreleases.past?
    exact ⟨fun _ => Or.inr ⟨(hsuits.late hpast).1, l, rfl, hpast⟩, nofun⟩
  | reap =>
    constructor
    · intro hchanged
      refine Or.inl ⟨rfl, fun habsent => ?_⟩
      simp [Instance.reap, habsent] at hchanged
    · intro hchanged _
      by_contra hended
      have hkept : (x.reap (c.state.threadEnded i)).hasEngine = x.hasEngine := by
        unfold Instance.reap
        split <;> first | rfl | simp [hended]
      exact hchanged hkept

/-- The thread of an instance is taken after its loop was stopped, and left to itself only if no
reaper can be started. -/
theorem Progress.thread (h : c.Progress i x event y)
    (hfits : x.Fits (c.state.engine.loop i).stopping) (hchanged : y.hasThread ≠ x.hasThread) :
    (c.state.engine.loop i).stopping = true ∧
      (event ≠ .reap i → c.state.reaperFault ≠ none) := by
  cases h with
  | stay | ask | move | start => exact absurd rfl hchanged
  | @release l _ _ hreleases _ hstopped =>
    generalize hreport : c.report l = report at hreleases
    cases hreleases with
    | thread => exact ⟨(hstopped hreport).1, fun _ => (hstopped hreport).2⟩
    | engine | state | signal => exact absurd rfl hchanged
  | reap =>
    refine ⟨?_, fun hne => absurd rfl hne⟩
    unfold Instance.reap at hchanged
    split at hchanged
    · next hstarted => exact (hfits.reaped (by simp [hstarted])).stopped
    · split at hchanged <;> exact absurd rfl hchanged
    all_goals exact absurd rfl hchanged

/-- A reaper is started once, and then it is alone with its instance. -/
theorem Progress.reaper (h : c.Progress i x event y) :
    y.reaper = x.reaper ∨ event = .reap i ∨ x.reaper = .absent ∧ y.reaper = .started := by
  cases h with
  | stay | ask | move => exact Or.inl rfl
  | start _ habsent => exact Or.inr (Or.inr ⟨habsent, rfl⟩)
  | release hreleases => exact Or.inl hreleases.spec.2.2
  | reap => exact Or.inr (Or.inl rfl)

/-- An instance that runs is left alone by everybody but the host. -/
theorem Progress.running (h : c.Progress i x event y)
    (hfits : x.Fits (c.state.engine.loop i).stopping) (hrunning : x.state = .running) :
    y = x ∨ event = .act (.destroy i) ∨ event = .act (.dropConnection i) := by
  cases h with
  | stay => exact Or.inl rfl
  | ask hevent => exact Or.inr hevent
  | move hclosing =>
    rw [hrunning] at hclosing
    cases hclosing
  | start hjoining =>
    rw [hrunning] at hjoining
    cases hjoining
  | release hreleases hsuits => exact absurd hrunning (hsuits.late hreleases.past?).2.1
  | reap =>
    have habsent := (hfits.early (Or.inl hrunning)).2
    exact Or.inl (by simp [Instance.reap, habsent])

/-- A thread that has moved an instance on never waits. -/
theorem Guarded.report_turn (h : c.Guarded) {l : Nat} (hpast : (c.report l).past? = some i) :
    (c.turn l).report l ≠ c.report l := by
  obtain ⟨x, hx, -⟩ := h.past l i hpast
  unfold Scene.turn
  split
  · next hreport => simp [hreport, Report.past?] at hpast
  · next hreport => simp [hreport, Report.past?] at hpast
  · next k hreport =>
    obtain rfl : k = i := by simpa [hreport, Report.past?] using hpast
    simp [hx, hreport]
  · next hreport =>
    split <;> simp [report_goOn, hreport]
  all_goals next hreport => simp [report_goOn, hreport]

/-- No instance ever goes back. -/
theorem Guarded.later (h : c.Guarded) (hx : c.state.instances[i]? = some x) (events : List Event) :
    ∃ y, (events.foldl perform c).state.instances[i]? = some y ∧ x.state.number ≤ y.state.number := by
  induction events generalizing c x with
  | nil => exact ⟨x, hx, Nat.le_refl _⟩
  | cons event events ih =>
    have hstep := h.step_perform event
    obtain ⟨y, hy, hprogress⟩ := h.progress hstep hx
    obtain ⟨z, hz, hle⟩ := ih (h.step hstep) hy
    refine ⟨z, hz, Nat.le_trans ?_ hle⟩
    rcases hprogress.number (h.fits i x hx) with hsame | hnext
    · exact Nat.le_of_eq (by rw [hsame])
    · omega

end Scene

open Scene

/-- However the host, the threads of the loops and the reapers take turns, between any two steps of
theirs: an instance takes queries exactly if it runs; it holds its engine as long as it runs or its
cluster is being closed, so that a request to shut down always finds the engine; its loop is stopped
only when its cluster was closed; its thread is taken only after that; when it is destroyed, its loop
is stopped, and its thread and its engine are gone; and the signal of its end comes only then. Its
state moves on one step at a time and never back.

The pieces are taken by its reaper, the engine only when the thread has ended, or else there is no
reaper and the thread that has stopped the loop takes them all; it leaves the thread of the loop to
itself, which happens only when no reaper can be started. The wait for the thread belongs to the
reaper alone: nobody else changes how far the reaper has come, but for its start, and a thread that
reports goes on in each of its turns. While an instance runs only the host can move it on. -/
theorem shutdown_in_order (events : List Event) {i : Nat} {x : Instance}
    (hx : (scene events).state.instances[i]? = some x) :
    (State.agent x = .ok () ↔ x.state = .running) ∧
    (x.state = .running ∨ x.state = .closingNetwork → x.hasEngine = true) ∧
    ((scene events).request = some i → x.hasEngine = true) ∧
    ((scene events).state.destroy i).1 ≠ .error .instanceDestroyed ∧
    ((scene events).state.engine.isStopped x.loop = true →
      x.state = .joiningThread ∨ x.state = .destroyed) ∧
    (x.hasThread = false → (scene events).state.engine.isStopped x.loop = true) ∧
    (x.state = .destroyed → (scene events).state.engine.isStopped x.loop = true ∧
      x.hasThread = false ∧ x.hasEngine = false) ∧
    (x.signalOpen = false → x.state = .destroyed) ∧
    (∀ event, ∃ y, ((scene events).perform event).state.instances[i]? = some y ∧
      (y.state = x.state ∨ y.state.number = x.state.number + 1) ∧
      (y.hasThread ≠ x.hasThread ∨ y.hasEngine ≠ x.hasEngine ∨ y.signalOpen ≠ x.signalOpen →
        event = .reap i ∧ x.reaper ≠ .absent ∨
        x.reaper = .absent ∧ ∃ l, event = .turn l ∧ ((scene events).report l).past? = some i) ∧
      (y.hasEngine ≠ x.hasEngine → event = .reap i →
        (scene events).state.threadEnded x.loop = true) ∧
      (y.hasThread ≠ x.hasThread → (scene events).state.engine.isStopped x.loop = true ∧
        (event ≠ .reap i → (scene events).state.reaperFault ≠ none)) ∧
      (y.reaper = x.reaper ∨ event = .reap i ∨ x.reaper = .absent ∧ y.reaper = .started) ∧
      (x.state = .running → y = x ∨ event = .act (.destroy i) ∨ event = .act (.dropConnection i))) ∧
    (∀ l, ((scene events).report l).past? = some i →
      ((scene events).perform (.turn l)).report l ≠ (scene events).report l) ∧
    ∀ more, ∃ y, (scene (events ++ more)).state.instances[i]? = some y ∧
      x.state.number ≤ y.state.number := by
  have hguarded := guarded_scene events
  have hfits := hguarded.fits i x hx
  have hengine : x.state = .running ∨ x.state = .closingNetwork → x.hasEngine = true :=
    fun hstate => (hfits.intact (hfits.hasThread (hfits.early hstate).1)).1
  rw [hguarded.loop i x hx]
  refine ⟨?_, hengine, ?_, ?_, ?_, hfits.thread, ?_, hfits.signal, ?_,
    fun l hpast => hguarded.report_turn hpast, ?_⟩
  · unfold State.agent
    cases hstate : x.state with
    | running => simp [hengine (Or.inl hstate)]
    | closingNetwork | joiningThread | destroyed => simp
  · intro hrequest
    obtain ⟨z, hz, hclosing⟩ := hguarded.asked i hrequest
    obtain rfl : x = z := Option.some.inj (hx.symm.trans hz)
    exact hengine (Or.inr hclosing)
  · simp only [State.destroy, hx, Instance.transit?]
    by_cases hrunning : x.state = .running
    · simp [hrunning, hengine (Or.inl hrunning)]
    · simp [hrunning]
  · intro hstopped
    have hstopping : ((scene events).state.engine.loop i).stopping = true := hstopped
    have hearly := hfits.early
    rw [hstopping] at hearly
    cases hstate : x.state with
    | running | closingNetwork => simp [hstate] at hearly
    | joiningThread => exact Or.inl rfl
    | destroyed => exact Or.inr rfl
  · intro hdestroyed
    have hgone := hfits.destroyed hdestroyed
    have hthread := hfits.engine hgone
    exact ⟨hfits.thread hthread, hthread, hgone⟩
  · intro event
    have hstep := hguarded.step_perform event
    obtain ⟨y, hy, hprogress⟩ := hguarded.progress hstep hx
    obtain ⟨hpieces, hended⟩ := hprogress.pieces
    exact ⟨y, hy, hprogress.number hfits, hpieces, hended, hprogress.thread hfits,
      hprogress.reaper, hprogress.running hfits⟩
  · intro more
    rw [scene, List.foldl_append]
    exact hguarded.later hx more

/-- A shutdown in which everybody interrupts everybody: the loop turns and the reaper looks before the
host has closed the cluster, the host asks again while the report is under way, and the reaper waits
for a thread that has not ended. -/
def crossedRun : List Event :=
  [.act .connector, .act (.create 0 { connection := "mem" }), .act (.destroy 0), .turn 0, .reap 0,
    .resume, .turn 0, .act (.destroy 0), .turn 0, .act (.dropConnection 0), .turn 0, .reap 0, .turn 0,
    .reap 0, .reap 0, .turn 0, .turn 0, .reap 0, .reap 0, .reap 0]

/-- A shutdown for which no reaper can be started, although one looks at the instance all the time. -/
def refusedRun : List Event :=
  [.act .connector, .act (.create 0 { connection := "mem" }), .act (.destroy 0), .resume, .turn 0,
    .turn 0, .turn 0, .reapers (some "no threads left"), .turn 0, .reap 0, .turn 0, .reap 0, .turn 0,
    .turn 0]

/-- In the first run the instance is asked to shut down, waits for its thread with its loop not
stopped yet, and is destroyed with nothing left. In the second, the thread of the loop goes on when it
has released the engine, and leaves nothing either. -/
theorem shutdown_in_order_crossed :
    (((scene (crossedRun.take 3)).request = some 0 ∧
      ((scene (crossedRun.take 3)).state.destroy 0).1 ≠ .error .instanceDestroyed) ∧
    ((scene (crossedRun.take 9)).state.engine.isStopped 0 = false ∧
      ∃ y, (scene (crossedRun.take 9 ++ crossedRun.drop 9)).state.instances[0]? = some y ∧
        2 ≤ y.state.number)) ∧
    (scene crossedRun).state.engine.isStopped 0 = true ∧
    ((scene (refusedRun.take 11)).perform (.turn 0)).report 0 ≠
      (scene (refusedRun.take 11)).report 0 ∧
    (scene refusedRun).state.engine.isStopped 0 = true := by
  have hasked : (scene (crossedRun.take 3)).state.instances[0]? =
      some { connector := .memory 0, loop := 0, state := .closingNetwork } := by decide +kernel
  have hmoved : (scene (crossedRun.take 9)).state.instances[0]? =
      some { connector := .memory 0, loop := 0, state := .joiningThread } := by decide +kernel
  have hdone : (scene crossedRun).state.instances[0]? =
      some ⟨.memory 0, 0, .destroyed, false, false, false, .done⟩ := by decide +kernel
  have hreleased : (scene (refusedRun.take 11)).state.instances[0]? =
      some ⟨.memory 0, 0, .joiningThread, false, false, true, .absent⟩ := by decide +kernel
  have hgone : (scene refusedRun).state.instances[0]? =
      some ⟨.memory 0, 0, .destroyed, false, false, false, .absent⟩ := by decide +kernel
  obtain ⟨-, -, -, hfound, -⟩ := shutdown_in_order _ hasked
  obtain ⟨-, -, -, -, -, -, -, -, -, -, hlater⟩ := shutdown_in_order _ hmoved
  obtain ⟨-, -, -, -, -, -, hdestroyed, -⟩ := shutdown_in_order _ hdone
  obtain ⟨-, -, -, -, -, -, -, -, -, hgoes, -⟩ := shutdown_in_order _ hreleased
  obtain ⟨-, -, -, -, -, -, hempty, -⟩ := shutdown_in_order _ hgone
  exact ⟨⟨⟨by decide +kernel, hfound⟩, by decide +kernel, hlater _⟩, (hdestroyed rfl).1,
    hgoes 0 (by decide +kernel), (hempty rfl).1⟩

end HostBridge.Session
