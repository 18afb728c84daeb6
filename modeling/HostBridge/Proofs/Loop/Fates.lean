import HostBridge.Proofs.Loop.Drain

/-!
# What becomes of the tasks of a loop

A loop accepts tasks until it is asked to stop. What it has accepted is finished, has failed, or is
still left to do, and a task that is left has not been seen more often than it has come to that. What
it refuses is dropped before the call that handed it over returns.

If no task fails or goes to sleep, nothing is left when the thread ends.
-/

namespace HostBridge.Loop

namespace Occurrence

/-- The task that was accepted. -/
def accepted? : Occurrence → Option Task
  | handed task true => some task
  | _ => none

/-- The name of the task that was refused. -/
def refused? : Occurrence → Option String
  | handed task false => some task.name
  | _ => none

/-- The name of the task that was dropped. -/
def dropped? : Occurrence → Option String
  | dropped task => some task
  | _ => none

/-- The name of the task that finished. -/
def finished? : Occurrence → Option String
  | finished task => some task
  | _ => none

/-- The name of the task that failed. -/
def failed? : Occurrence → Option String
  | panicked task _ => some task
  | _ => none

/-- The name of the task that made itself seen. -/
def ran? : Occurrence → Option String
  | ran task _ => some task
  | _ => none

end Occurrence

open Occurrence

/-- The name of the task, as often as it is going to make itself seen. -/
def Task.shows (t : Task) : List String :=
  t.acts.filterMap fun
    | .run => some t.name
    | _ => none

/-! ## Accounts -/

/-- What refusals do not mention. -/
theorem Refusals.filterMap_eq_nil {β : Type} {os : List Occurrence} {f : Occurrence → Option β}
    (hos : Refusals os) (hlogged : ∀ notice, f (.logged notice) = none)
    (hstop : f .stopAsked = none) (hhanded : ∀ task, f (.handed task false) = none)
    (hdropped : ∀ task, f (.dropped task) = none) : os.filterMap f = [] :=
  List.filterMap_eq_nil_iff.mpr (hos.forall_mem hlogged hstop hhanded hdropped)

theorem Refusals.accepted_append {os : List Occurrence} (hos : Refusals os)
    (trace : List Occurrence) :
    (os ++ trace).filterMap accepted? = trace.filterMap accepted? := by
  rw [List.filterMap_append, hos.filterMap_eq_nil (fun _ => rfl) rfl (fun _ => rfl) fun _ => rfl]
  rfl

/-- Each task that is refused is dropped. -/
theorem Refusals.dropped_perm {os : List Occurrence} (hos : Refusals os) :
    (os.filterMap dropped?).Perm (os.filterMap refused?) := by
  induction hos with
  | nil => exact .refl _
  | logged | stopAsked => assumption
  | refused task _ _ ih ih' =>
    simp only [List.filterMap_cons, List.filterMap_append, dropped?, refused?]
    exact List.perm_middle.trans ((ih.append ih').cons task.name)

/-- What the trace says about tasks, given those that are left. -/
structure Tallied (trace : List Occurrence) (left : List Task) : Prop where
  /-- An accepted task is finished, has failed, or is left. -/
  accepted : ((trace.filterMap accepted?).map Task.name).Perm
    (trace.filterMap finished? ++ trace.filterMap failed? ++ left.map Task.name)
  /-- A dropped task was refused or has failed. -/
  dropped : (trace.filterMap dropped?).Perm (trace.filterMap refused? ++ trace.filterMap failed?)
  /-- If nothing has failed, what tasks are going to show is what they have not shown so far. -/
  shown : trace.filterMap failed? = [] → ((trace.filterMap accepted?).flatMap Task.shows).Perm
    (trace.filterMap ran? ++ left.flatMap Task.shows)

namespace Tallied

variable {trace os : List Occurrence} {left left' : List Task} {t : Task} {n : String}

theorem start : Tallied [] [] :=
  ⟨.refl _, .refl _, fun _ => .refl _⟩

theorem reorder (h : Tallied trace left) (hleft : left'.Perm left) : Tallied trace left' where
  accepted := h.accepted.trans ((hleft.map _).symm.append_left _)
  dropped := h.dropped
  shown hf := (h.shown hf).trans ((hleft.flatMap_right _).symm.append_left _)

theorem accept (h : Tallied trace left) : Tallied (.handed t true :: trace) (t :: left) where
  accepted := by
    simp only [List.filterMap_cons, accepted?, finished?, failed?, List.map_cons]
    exact (h.accepted.cons t.name).trans List.perm_middle.symm
  dropped := h.dropped
  shown hf := by
    simp only [List.filterMap_cons, accepted?, ran?, List.flatMap_cons]
    refine ((h.shown hf).append_left t.shows).trans ?_
    exact List.perm_append_comm_assoc _ _ _

/-- Refusals only add tasks that are refused and dropped. -/
theorem refusals (h : Tallied trace left) (hos : Refusals os) : Tallied (os ++ trace) left := by
  have haccepted : os.filterMap accepted? = [] :=
    hos.filterMap_eq_nil (fun _ => rfl) rfl (fun _ => rfl) fun _ => rfl
  have hfinished : os.filterMap finished? = [] :=
    hos.filterMap_eq_nil (fun _ => rfl) rfl (fun _ => rfl) fun _ => rfl
  have hfailed : os.filterMap failed? = [] :=
    hos.filterMap_eq_nil (fun _ => rfl) rfl (fun _ => rfl) fun _ => rfl
  have hran : os.filterMap ran? = [] :=
    hos.filterMap_eq_nil (fun _ => rfl) rfl (fun _ => rfl) fun _ => rfl
  constructor
  · simpa [haccepted, hfinished, hfailed] using h.accepted
  · simpa [hfailed] using hos.dropped_perm.append h.dropped
  · simpa [haccepted, hfailed, hran] using h.shown

/-- The occurrence is not about the fate of a task. -/
theorem note {o : Occurrence} (h : Tallied trace left) (haccepted : o.accepted? = none)
    (hrefused : o.refused? = none) (hdropped : o.dropped? = none) (hfinished : o.finished? = none)
    (hfailed : o.failed? = none) (hran : o.ran? = none) : Tallied (o :: trace) left := by
  constructor
  · simpa only [List.filterMap_cons, haccepted, hfinished, hfailed] using h.accepted
  · simpa only [List.filterMap_cons, hdropped, hrefused, hfailed] using h.dropped
  · simpa only [List.filterMap_cons, haccepted, hfailed, hran] using h.shown

theorem pass {a : Act} {rest : List Act} (h : Tallied trace (⟨n, a :: rest⟩ :: left))
    (ha : a ≠ .run) : Tallied trace (⟨n, rest⟩ :: left) where
  accepted := h.accepted
  dropped := h.dropped
  shown hf := by
    have hshows : Task.shows ⟨n, a :: rest⟩ = Task.shows ⟨n, rest⟩ := by
      cases a <;> simp_all [Task.shows]
    simpa only [List.flatMap_cons, hshows] using h.shown hf

theorem run {rest : List Act} {thread : String}
    (h : Tallied trace (⟨n, .run :: rest⟩ :: left)) :
    Tallied (.ran n thread :: trace) (⟨n, rest⟩ :: left) where
  accepted := h.accepted
  dropped := h.dropped
  shown hf := by
    have hshows : Task.shows ⟨n, .run :: rest⟩ = n :: Task.shows ⟨n, rest⟩ := by simp [Task.shows]
    have hshown := h.shown hf
    rw [List.flatMap_cons, hshows] at hshown
    exact hshown.trans List.perm_middle

theorem finish (h : Tallied trace (⟨n, []⟩ :: left)) : Tallied (.finished n :: trace) left where
  accepted := by
    refine h.accepted.trans ?_
    exact List.perm_middle
  dropped := h.dropped
  shown hf := h.shown hf

theorem fail {acts : List Act} {payload : Payload} (h : Tallied trace (⟨n, acts⟩ :: left)) :
    Tallied (.dropped n :: .panicked n payload :: trace) left where
  accepted := by
    refine h.accepted.trans ?_
    simp only [List.filterMap_cons, finished?, failed?, List.map_cons, List.append_assoc]
    exact List.perm_middle.append_left _
  dropped := by
    simp only [List.filterMap_cons, dropped?, refused?, failed?]
    exact (h.dropped.cons n).trans List.perm_middle.symm
  shown hf := by simp [failed?] at hf

end Tallied

namespace Moment

variable {welcome asleep : Task → Prop} {m m' : Moment} {s : State}

/-- The accounts of the tasks are in order. -/
def Tallied (m : Moment) : Prop :=
  Loop.Tallied m.state.trace m.left

theorem Tallied.call (h : m.Tallied) (hm : m.Sound asleep) (hcall : m.state.Call welcome s) :
    (m.having s).Tallied := by
  cases hcall with
  | accept task hs => exact h.accept.reorder (left_spawned hm hs task [.handed task true])
  | stop ns =>
    have hlogged : Loop.Tallied (ns.map .logged ++ m.state.trace) m.left :=
      h.refusals (refusals_logged ns)
    exact hlogged.note rfl rfl rfl rfl rfl rfl
  | refuse _ hos => exact h.refusals hos

theorem Tallied.serving {v : Service} {acts : List Act} (h : Tallied ⟨s, some v⟩)
    (hacts : v.acts = acts) :
    Loop.Tallied s.trace (⟨v.task, acts⟩ :: (s.loop.tasks.remove v.key).2.contents) :=
  hacts ▸ h

theorem Tallied.move (h : m.Tallied) (hm : m.Sound asleep) (hmove : Move welcome m m') :
    m'.Tallied := by
  cases hmove with
  | call _ hcall => exact h.call hm hcall
  | @aside m hasThread o ho =>
    cases o with
    | askedStopped | spawned | selfJoined => exact h.note rfl rfl rfl rfl rfl rfl
    | _ => cases ho
  | start => exact h.note rfl rfl rfl rfl rfl rfl
  | pass hacts hquiet =>
    have hserving := h.serving hacts
    refine hserving.pass ?_
    rintro rfl
    cases hquiet
  | run hacts => exact (h.serving hacts).run
  | takeUp _ _ htask htasks => exact h.reorder (left_takeUp _ htask htasks)
  | finish hacts => exact (h.serving hacts).finish
  | yield hacts =>
    have hserving := (h.serving hacts).pass (by simp)
    exact hserving.reorder (left_yielded hm _)
  | @sleep s v rest hacts =>
    have hserving := (h.serving hacts).pass (by simp)
    exact hserving.reorder (left_put hm ⟨v.task, rest⟩)
  | fail hacts => exact (h.serving hacts).fail
  | renew hphase => exact h.reorder (by simp [left])
  | drain hphase hsignal => exact h
  | abort hphase hsignal hpanics => exact h.note rfl rfl rfl rfl rfl rfl
  | exit hphase hready => exact h.note rfl rfl rfl rfl rfl rfl

end Moment

/-! ## Answers -/

/-- A call that handed over a task was answered as it should be. A task is accepted if and only if
the loop was not asked to stop before. A task that is refused is dropped after that request and before
the answer, and in between there are only calls that its drop has made. -/
def Fair (o : Occurrence) (earlier : List Occurrence) : Prop :=
  match o with
  | .handed task accepted =>
    (accepted = true ↔ .stopAsked ∉ earlier) ∧
    (accepted = false → ∃ during before, earlier = during ++ .dropped task.name :: before ∧
      .stopAsked ∈ before ∧ Refusals during)
  | _ => True

theorem fair_refusals {trace os : List Occurrence} (h : Throughout Fair trace)
    (hs : .stopAsked ∈ trace) (hos : Refusals os) : Throughout Fair (os ++ trace) := by
  -- The calls of a drop follow the drop, so the trace before them varies.
  induction hos generalizing trace with
  | nil => exact h
  | logged notice _ ih => exact (ih h hs).cons trivial
  | stopAsked _ ih => exact (ih h hs).cons trivial
  | @refused task inner os hinner _ ih ih' =>
    have hs' : .stopAsked ∈ os ++ trace := List.mem_append_right _ hs
    have hdropped : Throughout Fair (.dropped task.name :: (os ++ trace)) := (ih' h hs).cons trivial
    have hall := ih hdropped (List.mem_cons_of_mem _ hs')
    rw [List.cons_append, List.append_assoc, List.cons_append]
    refine hall.cons ⟨?_, fun _ => ⟨inner, os ++ trace, rfl, hs', hinner⟩⟩
    simp [hs]

namespace Moment

variable {welcome asleep : Task → Prop} {m m' : Moment} {s : State}

theorem fair_call (h : Throughout Fair m.state.trace) (hm : m.Orderly)
    (hcall : m.state.Call welcome s) : Throughout Fair s.trace := by
  cases hcall with
  | accept task hs =>
    have hnot : .stopAsked ∉ m.state.trace := by
      intro hmem
      simp [hm.stopping.mpr hmem] at hs
    refine h.cons ⟨?_, by simp⟩
    simp [hnot]
  | stop ns => exact (h.append (by simp [Fair])).cons trivial
  | refuse hs hos => exact fair_refusals h (hm.stopping.mp hs) hos

theorem fair_move (h : Throughout Fair m.state.trace) (hm : m.Orderly)
    (hmove : Move welcome m m') : Throughout Fair m'.state.trace := by
  cases hmove with
  | call _ hcall => exact fair_call h hm hcall
  | @aside _ _ o ho =>
    refine h.cons ?_
    cases o with
    | handed => cases ho
    | _ => trivial
  | pass | takeUp | yield | sleep | renew | drain => exact h
  | start | run | finish | abort | exit => exact h.cons trivial
  | @fail s v payload =>
    have hpanicked : Throughout Fair (.panicked v.task payload :: s.trace) := h.cons trivial
    exact hpanicked.cons trivial

end Moment

/-! ## Tasks that neither fail nor sleep -/

mutual

/-- The act does not fail or sleep, nor does a task that it hands over. -/
def Act.isPlain : Act → Bool
  | .pending | .panic _ => false
  | .spawn _ acts => arePlain acts
  | .run | .yield | .stop | .isStopped | .selfJoin | .reply _ => true
termination_by structural a => a

/-- None of the acts fails or sleeps. -/
def arePlain : List Act → Bool
  | [] => true
  | a :: rest => a.isPlain && arePlain rest
termination_by structural as => as

end

/-- The task does not fail or sleep. -/
def Task.isPlain (t : Task) : Bool :=
  arePlain t.acts

/-- What the host hands over does not fail or sleep. -/
def Event.isPlain : Event → Bool
  | .spawn _ acts => arePlain acts
  | .start _ | .stop | .step => true

namespace Moment

variable {welcome asleep : Task → Prop} {m m' : Moment} {s : State}

/-- The run goes as one does with plain tasks. -/
structure Tame (m : Moment) : Prop where
  /-- What is left to do is plain. -/
  plain : ∀ t ∈ m.left, t.isPlain = true
  /-- Nothing has failed. -/
  failed : m.state.trace.filterMap failed? = []
  /-- The thread has no panic to look at. -/
  panics : m.state.panics = []
  /-- The thread has not ended for one. -/
  phase : ∀ thread, m.state.phase ≠ .aborted thread
  /-- The thread ends when nothing is left. -/
  done : ∀ thread, m.state.phase = .stopped thread → m.left = []

theorem tame_start : ({} : Moment).Tame where
  plain := by simp [left, Registry.contents]
  failed := rfl
  panics := rfl
  phase := by simp
  done := by simp

/-- Nothing has failed, and the thread is where it was. -/
theorem Tame.keep {service : Option Service} (h : m.Tame) (os : List Occurrence)
    (hplain : ∀ t ∈ left ⟨s, service⟩, t.isPlain = true) (htrace : s.trace = os ++ m.state.trace)
    (hos : os.filterMap failed? = []) (hpanics : s.panics = m.state.panics)
    (hphase : s.phase = m.state.phase)
    (hdone : ∀ thread, m.state.phase = .stopped thread → left ⟨s, service⟩ = []) :
    Tame ⟨s, service⟩ where
  plain := hplain
  failed := by
    rw [htrace, List.filterMap_append, hos, h.failed]
    rfl
  panics := hpanics.trans h.panics
  phase thread := hphase ▸ h.phase thread
  done thread hstopped := hdone thread (hphase ▸ hstopped)

/-- The thread serves a task, so it has not ended. -/
theorem Tame.serve {s₀ : State} {v : Service} {service : Option Service} (h : Tame ⟨s₀, some v⟩)
    (hm : Orderly ⟨s₀, some v⟩) (os : List Occurrence)
    (hplain : ∀ t ∈ left ⟨s, service⟩, t.isPlain = true) (htrace : s.trace = os ++ s₀.trace)
    (hos : os.filterMap failed? = []) (hpanics : s.panics = s₀.panics) (hphase : s.phase = s₀.phase) :
    Tame ⟨s, service⟩ := by
  refine h.keep os hplain htrace hos hpanics hphase fun thread hstopped => ?_
  have hthread := hm.serving v rfl
  rw [hstopped] at hthread
  cases hthread

theorem Tame.call (h : m.Tame) (hsound : m.Sound asleep) (hm : m.Orderly)
    (hcall : m.state.Call (fun t => t.isPlain = true) s) : (m.having s).Tame := by
  cases hcall with
  | accept task hs hplain =>
    have hleft := left_spawned hsound hs task [.handed task true]
    refine h.keep [.handed task true] ?_ rfl rfl rfl rfl ?_
    · intro t ht
      rcases List.mem_cons.mp (hleft.mem_iff.mp ht) with rfl | ht
      · exact hplain
      · exact h.plain t ht
    · intro thread hphase
      have hstopping := hm.draining thread (Or.inr hphase)
      simp [hs] at hstopping
  | stop ns =>
    refine h.keep (.stopAsked :: ns.map .logged) h.plain rfl ?_ rfl rfl h.done
    exact (Refusals.stopAsked (refusals_logged ns)).filterMap_eq_nil (fun _ => rfl) rfl
      (fun _ => rfl) fun _ => rfl
  | @refuse _ os hos =>
    refine h.keep os h.plain rfl ?_ rfl rfl h.done
    exact hos.filterMap_eq_nil (fun _ => rfl) rfl (fun _ => rfl) fun _ => rfl

/-- Nothing is left when nothing is ready, as nothing sleeps. -/
theorem Sound.left_eq_nil (h : Sound (fun _ => False) ⟨s, none⟩) (hready : s.loop.ready = []) :
    left ⟨s, none⟩ = [] := by
  refine List.eq_nil_iff_forall_not_mem.mpr fun t ht => ?_
  obtain ⟨key, hkey⟩ := Registry.mem_contents.mp ht
  exact h.queue.asleep key t hkey (by simp [Moment.queue, hready])

section Serving

variable {v : Service} {a : Act} {acts rest : List Act}

theorem Tame.plain_serving (h : Tame ⟨s, some v⟩) (hacts : v.acts = acts) : arePlain acts = true :=
  hacts ▸ h.plain ⟨v.task, v.acts⟩ (by simp [left])

theorem Tame.plain_tail (h : Tame ⟨s, some v⟩) (hacts : v.acts = a :: rest) :
    Task.isPlain ⟨v.task, rest⟩ = true := by
  have hplain := h.plain_serving hacts
  simp only [arePlain, Bool.and_eq_true] at hplain
  exact hplain.2

theorem Tame.plain_others (h : Tame ⟨s, some v⟩) :
    ∀ t ∈ (s.loop.tasks.remove v.key).2.contents, t.isPlain = true :=
  fun t ht => h.plain t (by simp [left, ht])

end Serving

theorem Tame.move (h : m.Tame) (hsound : m.Sound fun _ => False) (hm : m.Orderly)
    (hmove : Move (fun t => t.isPlain = true) m m') : m'.Tame := by
  cases hmove with
  | call _ hcall => exact h.call hsound hm hcall
  | @aside _ _ o ho =>
    refine h.keep [o] h.plain rfl ?_ rfl rfl h.done
    cases o with
    | askedStopped | spawned | selfJoined => rfl
    | _ => cases ho
  | start _ name hcontext =>
    exact ⟨h.plain, h.failed, h.panics, by simp [having, State.noting], by simp [having, State.noting]⟩
  | pass hacts =>
    refine h.serve hm [] ?_ rfl rfl rfl rfl
    exact List.forall_mem_cons.mpr ⟨h.plain_tail hacts, h.plain_others⟩
  | run hacts =>
    refine h.serve hm _ ?_ rfl rfl rfl rfl
    exact List.forall_mem_cons.mpr ⟨h.plain_tail hacts, h.plain_others⟩
  | @takeUp _ thread _ _ _ _ hphase _ htask htasks =>
    have hleft := left_takeUp thread htask htasks
    refine h.keep [] (fun t ht => h.plain t (hleft.mem_iff.mp ht)) rfl rfl rfl rfl ?_
    intro thread hstopped
    rw [hstopped] at hphase
    cases hphase
  | @finish s v hacts =>
    exact h.serve hm [.finished v.task] h.plain_others rfl rfl rfl rfl
  | @yield s v rest hacts =>
    refine h.serve hm [] ?_ rfl rfl rfl rfl
    intro t ht
    rcases List.mem_cons.mp ((left_yielded hsound rest).mem_iff.mp ht) with rfl | ht
    · exact h.plain_tail hacts
    · exact h.plain_others t ht
  | sleep hacts =>
    have hplain := h.plain_serving hacts
    simp [arePlain, Act.isPlain] at hplain
  | fail hacts =>
    have hplain := h.plain_serving hacts
    simp [arePlain, Act.isPlain] at hplain
  | renew hphase =>
    exact h.keep [] (by simpa [left] using h.plain) rfl rfl rfl rfl (by simpa [left] using h.done)
  | drain hphase => exact ⟨h.plain, h.failed, h.panics, by simp, by simp⟩
  | abort hphase hsignal hpanics =>
    rw [h.panics] at hpanics
    cases hpanics
  | exit hphase hready =>
    exact ⟨h.plain, h.failed, h.panics, by simp [State.noting], fun _ _ => hsound.left_eq_nil hready⟩

/-- What a plain task hands over is plain. -/
theorem Tame.offers {t : Task} {e : Event} (h : m.Tame) (he : e.isPlain = true)
    (hoffers : m.Offers t e) : t.isPlain = true := by
  cases e with
  | spawn name acts =>
    obtain rfl : t = ⟨name, acts⟩ := hoffers
    exact he
  | start | stop => exact hoffers.elim
  | step =>
    obtain ⟨v, hv, hoffers⟩ := hoffers
    obtain ⟨s, service⟩ := m
    obtain rfl : service = some v := hv
    unfold Service.Offers at hoffers
    split at hoffers
    · next name acts rest hacts =>
      have hplain := h.plain_serving hacts
      simp only [arePlain, Act.isPlain, Bool.and_eq_true] at hplain
      subst hoffers
      exact hplain.1
    · next hacts =>
      have hplain := h.plain_serving hacts
      simp [arePlain, Act.isPlain] at hplain
    · exact hoffers.elim

/-- After the request to stop nothing is accepted any more. -/
theorem accepted_move (hs : m.state.loop.stopping = true) (hmove : Move welcome m m') :
    m'.state.trace.filterMap accepted? = m.state.trace.filterMap accepted? := by
  cases hmove with
  | call _ hcall =>
    cases hcall with
    | accept task hs' => simp [hs] at hs'
    | stop ns => exact (refusals_logged ns).accepted_append m.state.trace
    | refuse _ hos => exact hos.accepted_append m.state.trace
  | @aside _ _ o ho =>
    cases o with
    | askedStopped | spawned | selfJoined => rfl
    | _ => cases ho
  | pass | takeUp | yield | sleep | renew | drain => rfl
  | start | run | finish | abort | exit | fail => rfl

end Moment

/-! ## The law -/

/-- The accounts and answers of every run. -/
theorem tallied_run (events : List Event) :
    (run events).Tallied ∧ Throughout Fair (run events).state.trace := by
  refine (Moment.steady_start.foldl_induction
    (fun m => m.Tallied ∧ Throughout Fair m.state.trace) ⟨.start, .nil⟩ events ?_).2
  intro m m' h hmove hm
  exact ⟨hm.1.move h.sound hmove, Moment.fair_move hm.2 h.orderly hmove⟩

theorem tame_run (events : List Event) (hplain : ∀ e ∈ events, e.isPlain = true) :
    (run events).Tame := by
  have hmove : ∀ m m' : Moment, (m.Sound fun _ => False) →
      Move (fun t => t.isPlain = true) m m' → m.Orderly ∧ m.Tame → m'.Orderly ∧ m'.Tame :=
    fun m m' hsound hmove hm => ⟨hm.1.move hmove, hm.2.move hsound hm.1 hmove⟩
  have hasleep : ∀ (m : Moment) v rest, m.Orderly ∧ m.Tame → m.service = some v →
      v.acts = .pending :: rest → False := by
    rintro ⟨s, service⟩ v rest ⟨-, hm⟩ hv hacts
    obtain rfl : service = some v := hv
    have hplain := hm.plain_serving hacts
    simp [arePlain, Act.isPlain] at hplain
  exact (Moment.sound_start.foldl_induction ⟨Moment.orderly_start, Moment.tame_start⟩ events hmove
    (fun m t hm e he => hm.2.offers (hplain e he)) hasleep).2.2

/-- What the host is told about a task that it hands over. -/
theorem Moment.Orderly.apply_spawn {m : Moment} (hm : m.Orderly) (name : String) (acts : List Act) :
    ∃ accepted, (m.state.apply (.spawn name acts)).1 = .flag accepted ∧
      (accepted = true ↔ .stopAsked ∉ m.state.trace) := by
  have happly : (m.state.apply (.spawn name acts)).1 =
      .flag (m.state.hand true ⟨name, acts⟩).1 := by
    simp [State.apply, hm.handle]
  refine ⟨_, happly, ?_⟩
  rw [← hm.stopping]
  cases hs : m.state.loop.stopping with
  | false => simp [State.hand, State.handing_of_not_stopping hs]
  | true =>
    obtain ⟨os, -, h⟩ := State.handing_of_stopping hs true ⟨name, acts⟩
      (State.refuses_release true acts)
    simp [State.hand, h]

/-- In a run whose tasks neither fail nor sleep, a task is accepted if and only if the loop was not
asked to stop before, and a task that is refused is dropped once, before the call that handed it over
returns. What is accepted is run once: at every moment it is finished or left to do, what it has shown
and what it has left to show make up what it was to show, and nothing is left when the thread ends. A
thread that was started and is asked to stop does end, whatever calls come in between, because nothing
is accepted any more. -/
theorem task_fates (events : List Event) (hplain : ∀ e ∈ events, e.isPlain = true) :
    Throughout Fair (run events).state.trace ∧
    (∀ name acts, ∃ accepted, ((run events).state.apply (.spawn name acts)).1 = .flag accepted ∧
      (accepted = true ↔ .stopAsked ∉ (run events).state.trace)) ∧
    ((run events).state.trace.filterMap dropped?).Perm
      ((run events).state.trace.filterMap refused?) ∧
    (((run events).state.trace.filterMap accepted?).map Task.name).Perm
      ((run events).state.trace.filterMap finished? ++ (run events).left.map Task.name) ∧
    (((run events).state.trace.filterMap accepted?).flatMap Task.shows).Perm
      ((run events).state.trace.filterMap ran? ++ (run events).left.flatMap Task.shows) ∧
    (∀ thread, (run events).state.phase ≠ .aborted thread) ∧
    (∀ thread, (run events).state.phase = .stopped thread → (run events).left = []) ∧
    ((run events).state.phase ≠ .created → .stopAsked ∈ (run events).state.trace →
      ∀ later, (run events).rank ≤ later.countP Event.isStep →
        (∃ thread, (run (events ++ later)).state.phase = .stopped thread) ∧
        (run (events ++ later)).state.trace.filterMap accepted? =
          (run events).state.trace.filterMap accepted?) := by
  obtain ⟨htallied, hfair⟩ := tallied_run events
  have htame := tame_run events hplain
  have hsteady := Moment.steady_run events
  have hdropped := htallied.dropped
  have haccepted := htallied.accepted
  rw [htame.failed, List.append_nil] at hdropped haccepted
  refine ⟨hfair, hsteady.orderly.apply_spawn, hdropped, haccepted, htallied.shown htame.failed,
    htame.phase, htame.done, ?_⟩
  intro hstarted hasked later hle
  have hs := hsteady.orderly.stopping.mpr hasked
  have hkept := hsteady.foldl_induction
    (fun m => m.state.loop.stopping = true ∧
      m.state.trace.filterMap accepted? = (run events).state.trace.filterMap accepted?)
    ⟨hs, rfl⟩ later fun m m' h hmove hm =>
      ⟨Moment.stopping_move hm.1 hmove, (Moment.accepted_move hm.1 hmove).trans hm.2⟩
  rw [run_append]
  exact ⟨hsteady.stops hs hstarted htame.phase later hle, hkept.2.2⟩

/-- A task hands over another one, has the loop stopped and goes on. What it hands over then is
refused, and so is what the drop of that hands over. The host comes too late as well. -/
def crossedRun : List Event :=
  [.spawn "a" [.spawn "b" [.run], .stop, .spawn "c" [.run, .reply [.spawn "d" [.run], .stop]], .run],
    .start "io", .step, .step, .step, .step, .spawn "e" [.run], .step, .step, .step, .step, .step,
    .step, .step, .step]

theorem task_fates_in_crossedRun :
    (run crossedRun).state.phase = .stopped "io" ∧
    (run crossedRun).state.trace.filterMap refused? = ["c", "d", "e"] ∧
    (run crossedRun).state.trace.filterMap ran? = ["b", "a"] ∧
    (run crossedRun).left = [] ∧
    ((run crossedRun).state.trace.filterMap dropped?).Perm
      ((run crossedRun).state.trace.filterMap refused?) := by
  have hphase : (run crossedRun).state.phase = .stopped "io" := by decide
  obtain ⟨-, -, hdropped, -, -, -, hdone, -⟩ := task_fates crossedRun (by decide)
  exact ⟨hphase, by decide, by decide, hdone "io" hphase, hdropped⟩

end HostBridge.Loop
