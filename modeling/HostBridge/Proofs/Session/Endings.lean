import HostBridge.Proofs.Session.Guarded
import Mathlib.Data.Finset.Card
import Mathlib.Data.List.Infix

/-!
# A connection is shut down once

The host ends a connection by asking it to shut down or by letting go of it, as often as it likes and
in any order. The first time counts: it moves the instance on and closes a cluster, and everything
after it is refused or does nothing. `endings` lists all these attempts of a run. `Tallied` ties them
to the states of the instances and to the number of clusters that each connector has closed; as in
the rest of the theory of shutdowns, it holds between any two steps of the threads.
-/

namespace HostBridge.Session

namespace Scene

variable {c c' : Scene} {i k : Nat} {x y : Instance} {event : Event} {ended : List Nat}

/-- The connection that the host ends by an event, whether or not it has done so before. -/
def ending? (c : Scene) : Event → Option Nat
  | .act (.destroy i) | .act (.dropConnection i) =>
    if c.isFree ∧ i < c.state.instances.length then some i else none
  | _ => none

/-- The connections that the host ends in the course of some events, in order. -/
def endings (c : Scene) : List Event → List Nat
  | [] => []
  | event :: events => (c.ending? event).toList ++ (c.perform event).endings events

/-- The connections of a connector that are among the given ones. -/
def among (c : Scene) (ended : List Nat) (k : Nat) : Finset Nat :=
  (Finset.range c.state.instances.length).filter fun i =>
    i ∈ ended ∧ (c.state.instances[i]?).map Instance.connector = some (.memory k)

/-- The connections of a connector are made from one that exists. -/
def Founded (c : Scene) (k : Nat) : Prop :=
  ∀ x ∈ c.state.instances, x.connector = .memory k → k < c.state.engine.connectors.length

instance (c : Scene) (k : Nat) : Decidable (c.Founded k) :=
  inferInstanceAs (Decidable (∀ x ∈ c.state.instances, _))

theorem mem_among : i ∈ c.among ended k ↔
    i ∈ ended ∧ ∃ x, c.state.instances[i]? = some x ∧ x.connector = .memory k := by
  simp only [among, Finset.mem_filter, Finset.mem_range, Option.map_eq_some_iff]
  constructor
  · rintro ⟨-, hended, hx⟩
    exact ⟨hended, hx⟩
  · rintro ⟨hended, x, hx, hk⟩
    exact ⟨(List.getElem?_eq_some_iff.mp hx).1, hended, x, hx, hk⟩

/-- What the connections that were ended say about the instances and about the connectors. -/
structure Tallied (c : Scene) (ended : List Nat) : Prop where
  /-- Only connections that exist are ended. -/
  lt : ∀ i ∈ ended, i < c.state.instances.length
  /-- An instance runs until its connection is ended. -/
  running : ∀ i x, c.state.instances[i]? = some x → (x.state = .running ↔ i ∉ ended)
  /-- The host asks for the end of connections that were ended. -/
  request : ∀ i, c.request = some i → i ∈ ended

/-- A connector has closed one cluster for each of its connections that was ended, save for the one
that the host is in the middle of. -/
def Counted (c : Scene) (ended : List Nat) (k : Nat) : Prop :=
  (c.state.engine.connector k).closes =
    ((c.among ended k).filter fun i => c.request ≠ some i).card

/-! ## What one event does -/

/-- Neither the instances change nor what the host is in the middle of. -/
theorem Tallied.keep (h : c.Tallied ended) (hinstances : c'.state.instances = c.state.instances)
    (hrequest : c'.request = c.request) : c'.Tallied ended where
  lt := hinstances ▸ h.lt
  running := hinstances ▸ h.running
  request := hrequest ▸ h.request

theorem Counted.keep (h : c.Counted ended k)
    (hconnector : ∀ i : Nat, (c'.state.instances[i]?).map Instance.connector = some (.memory k) ↔
      (c.state.instances[i]?).map Instance.connector = some (.memory k))
    (hrequest : c'.request = c.request)
    (hcloses : (c'.state.engine.connector k).closes = (c.state.engine.connector k).closes) :
    c'.Counted ended k := by
  have hamong : c'.among ended k = c.among ended k := by
    ext i
    have hi := hconnector i
    simp only [Option.map_eq_some_iff] at hi
    rw [mem_among, mem_among, hi]
  rw [Counted, hcloses, hamong, hrequest]
  exact h

/-- One instance changes, but goes on running if it ran. -/
theorem Tallied.change (h : c.Tallied ended) (hx : c.state.instances[i]? = some x)
    (hinstances : c'.state.instances = c.state.instances.modify i fun _ => y)
    (hrunning : y.state = .running ↔ x.state = .running) (hrequest : c'.request = c.request) :
    c'.Tallied ended := by
  refine ⟨?_, ?_, hrequest ▸ h.request⟩
  · rw [hinstances, List.length_modify]
    exact h.lt
  · intro j z hz
    rw [hinstances, getElem?_modify_const hx] at hz
    split at hz
    · next hj =>
      obtain rfl := Option.some.inj hz
      rw [hj, hrunning]
      exact h.running i x hx
    · exact h.running j z hz

theorem Counted.change (h : c.Counted ended k) (hx : c.state.instances[i]? = some x)
    (hinstances : c'.state.instances = c.state.instances.modify i fun _ => y)
    (hconnector : y.connector = x.connector) (hrequest : c'.request = c.request)
    (hengine : c'.state.engine = c.state.engine) : c'.Counted ended k := by
  refine h.keep (fun j => ?_) hrequest (by rw [hengine])
  rw [hinstances, getElem?_modify_const hx]
  split
  · next hj => rw [hj, hx, Option.map_some, Option.map_some, hconnector]
  · rfl

/-- A connection is created, which nobody has ended. -/
theorem Tallied.create (h : c.Tallied ended) (hnew : x.state = .running)
    (hinstances : c'.state.instances = c.state.instances ++ [x])
    (hrequest : c'.request = c.request) : c'.Tallied ended := by
  refine ⟨?_, ?_, hrequest ▸ h.request⟩
  · intro i hi
    have hlt := h.lt i hi
    rw [hinstances, List.length_append]
    omega
  · intro i z hz
    rw [hinstances] at hz
    by_cases hi : i < c.state.instances.length
    · rw [List.getElem?_append_left hi] at hz
      exact h.running i z hz
    · rw [List.getElem?_append_right (Nat.le_of_not_lt hi)] at hz
      obtain rfl : z = x := List.mem_singleton.mp (List.mem_of_getElem? hz)
      simp only [hnew, true_iff]
      intro hended
      exact hi (h.lt i hended)

theorem Counted.create (h : c.Counted ended k) (htallied : c.Tallied ended)
    (hinstances : c'.state.instances = c.state.instances ++ [x])
    (hrequest : c'.request = c.request)
    (hcloses : (c'.state.engine.connector k).closes = (c.state.engine.connector k).closes) :
    c'.Counted ended k := by
  have hamong : c'.among ended k = c.among ended k := by
    ext i
    rw [mem_among, mem_among]
    refine and_congr_right fun hi => ?_
    rw [hinstances, List.getElem?_append_left (htallied.lt i hi)]
  rw [Counted, hcloses, hamong, hrequest]
  exact h

/-- The host moves an instance on that runs. Its cluster is not closed yet. -/
theorem Tallied.ask (h : c.Tallied ended) (hx : c.state.instances[i]? = some x)
    (hinstances : c'.state.instances = c.state.instances.modify i fun _ => y)
    (hclosing : y.state ≠ .running) (hrequest : c'.request = some i) :
    c'.Tallied (ended ++ [i]) := by
  refine ⟨?_, ?_, ?_⟩
  · intro j hj
    rw [hinstances, List.length_modify]
    rcases List.mem_append.mp hj with hj | hj
    · exact h.lt j hj
    · rw [List.mem_singleton.mp hj]
      exact (List.getElem?_eq_some_iff.mp hx).1
  · intro j z hz
    rw [hinstances, getElem?_modify_const hx] at hz
    split at hz
    · next hj =>
      obtain rfl := Option.some.inj hz
      simp [hj, hclosing]
    · next hj =>
      rw [h.running j z hz]
      simp [hj]
  · intro j hj
    rw [hrequest] at hj
    simp [Option.some.inj hj]

theorem Counted.ask (h : c.Counted ended k) (htallied : c.Tallied ended)
    (hx : c.state.instances[i]? = some x) (hrunning : x.state = .running)
    (hinstances : c'.state.instances = c.state.instances.modify i fun _ => y)
    (hfree : c.request = none)
    (hrequest : c'.request = some i) (hengine : c'.state.engine = c.state.engine) :
    c'.Counted (ended ++ [i]) k := by
  have hfirst : i ∉ ended := (htallied.running i x hx).mp hrunning
  have hsame : ((c'.among (ended ++ [i]) k).filter fun j => c'.request ≠ some j) =
      (c.among ended k).filter fun j => c.request ≠ some j := by
    ext j
    simp only [Finset.mem_filter, mem_among, hfree, hrequest, hinstances, getElem?_modify_const hx,
      List.mem_append, List.mem_singleton, ne_eq, Option.some.injEq, reduceCtorEq, not_false_eq_true,
      and_true]
    by_cases hj : j = i
    · subst hj
      simp [hfirst]
    · simp [hj, Ne.symm hj]
  rw [Counted, hengine, hsame]
  exact h

/-- The host closes the cluster of the instance that it has moved on. -/
theorem Counted.close (h : c.Counted ended k) (htallied : c.Tallied ended) (hfounded : c.Founded k)
    {d : Nat} (hrequest : c.request = some i) (hx : c.state.instances[i]? = some x)
    (hd : x.connector = .memory d) (hinstances : c'.state.instances = c.state.instances)
    (hdone : c'.request = none)
    (hcloses : (c'.state.engine.connector k).closes = (c.state.engine.connector k).closes +
      if k = d ∧ d < c.state.engine.connectors.length then 1 else 0) : c'.Counted ended k := by
  have hamong : c'.among ended k = c.among ended k := by
    ext j
    rw [mem_among, mem_among, hinstances]
  have hall : ((c'.among ended k).filter fun j => c'.request ≠ some j) = c.among ended k := by
    rw [hamong, hdone]
    simp
  have hrest : ((c.among ended k).filter fun j => c.request ≠ some j) =
      (c.among ended k).erase i := by
    ext j
    rw [Finset.mem_filter, Finset.mem_erase, hrequest, and_comm]
    simp [eq_comm]
  rw [Counted, hall, hcloses, h, hrest]
  have hended := htallied.request i hrequest
  by_cases hkd : k = d
  · subst hkd
    have hmem : i ∈ c.among ended k := mem_among.mpr ⟨hended, x, hx, hd⟩
    rw [if_pos ⟨rfl, hfounded x (List.mem_of_getElem? hx) hd⟩]
    exact Finset.card_erase_add_one hmem
  · have hnot : i ∉ c.among ended k := by
      intro hmem
      obtain ⟨-, z, hz, hk⟩ := mem_among.mp hmem
      obtain rfl : x = z := Option.some.inj (hx.symm.trans hz)
      rw [hd] at hk
      exact hkd (ConnectorRef.memory.inj hk).symm
    rw [if_neg fun hboth => hkd hboth.1, Finset.erase_eq_of_notMem hnot, Nat.add_zero]

/-- To end a connection once more adds nothing. -/
theorem Tallied.again (h : c.Tallied ended) (hended : i ∈ ended) : c.Tallied (ended ++ [i]) := by
  have hmem : ∀ j, j ∈ ended ++ [i] ↔ j ∈ ended := by
    intro j
    simp only [List.mem_append, List.mem_singleton, or_iff_left_iff_imp]
    rintro rfl
    exact hended
  exact ⟨fun j hj => h.lt j ((hmem j).mp hj),
    fun j z hz => (h.running j z hz).trans (not_congr (hmem j)).symm,
    fun j hj => (hmem j).mpr (h.request j hj)⟩

theorem Counted.again (h : c.Counted ended k) (hended : i ∈ ended) :
    c.Counted (ended ++ [i]) k := by
  have hamong : c.among (ended ++ [i]) k = c.among ended k := by
    ext j
    simp only [mem_among, List.mem_append, List.mem_singleton]
    refine and_congr_left fun _ => or_iff_left_of_imp ?_
    rintro rfl
    exact hended
  rw [Counted, hamong]
  exact h

/-- What an event has to keep, where some connections were ended before and some after it. -/
def Tallies (c c' : Scene) (ended ended' : List Nat) : Prop :=
  c'.Tallied ended' ∧ ∀ k, c.Founded k → c.Counted ended k → c'.Counted ended' k

/-- The host asks an instance to shut down. -/
theorem Tallied.tallies_ask (h : c.Tallied ended) (hfree : c.isFree = true)
    (hi : i < c.state.instances.length) : c.Tallies (c.ask i) ended (ended ++ [i]) := by
  obtain ⟨hrequest, -⟩ := call_of_isFree hfree
  obtain ⟨x, hx⟩ : ∃ x, c.state.instances[i]? = some x := ⟨_, List.getElem?_eq_getElem hi⟩
  simp only [Scene.ask, hx, Instance.transit?]
  by_cases hrunning : x.state = .running
  · rw [if_pos hrunning]
    refine ⟨h.ask hx rfl (by simp) rfl, fun k _ hk => ?_⟩
    exact hk.ask h hx hrunning rfl hrequest rfl rfl
  · rw [if_neg hrunning]
    have hended : i ∈ ended := not_not.mp fun hnot => hrunning ((h.running i x hx).mpr hnot)
    have hcalm := State.calm_note c.state .host [.destroyRefused x.state]
    constructor
    · exact (h.again hended).keep hcalm.instances rfl
    · intro k _ hk
      exact (hk.again hended).keep (fun j => by rw [← hcalm.instances]; rfl) rfl
        (hcalm.engine.closes k)

/-- The host lets go of a connection. -/
theorem Tallied.tallies_drop (h : c.Tallied ended) (hfree : c.isFree = true)
    (hi : i < c.state.instances.length) : c.Tallies (c.drop i) ended (ended ++ [i]) := by
  obtain ⟨x, hx⟩ : ∃ x, c.state.instances[i]? = some x := ⟨_, List.getElem?_eq_getElem hi⟩
  simp only [Scene.drop, hx]
  by_cases hrunning : x.state = .running
  · rw [if_pos hrunning]
    exact h.tallies_ask hfree hi
  · rw [if_neg hrunning]
    have hended : i ∈ ended := not_not.mp fun hnot => hrunning ((h.running i x hx).mpr hnot)
    exact ⟨h.again hended, fun k _ hk => hk.again hended⟩

/-- Whatever else happens ends no connection. -/
theorem Guarded.tallies_step (hguarded : c.Guarded) (h : c.Tallied ended)
    (hstep : c.Step event c') (hother : ∀ i, event ≠ .act (.destroy i) ∧
      event ≠ .act (.dropConnection i)) : c.Tallies c' ended ended := by
  -- the steps of threads that only look at the instances
  have hkeep : c'.state.instances = c.state.instances → c'.request = c.request →
      (∀ k, (c'.state.engine.connector k).closes = (c.state.engine.connector k).closes) →
      c.Tallies c' ended ended := by
    intro hinstances hrequest hcloses
    refine ⟨h.keep hinstances hrequest, fun k _ hk => ?_⟩
    exact hk.keep (fun i => by rw [hinstances]) hrequest (hcloses k)
  cases hstep with
  | calm hcalm => exact hkeep hcalm.instances rfl hcalm.engine.closes
  | create hinstances hengine =>
    refine ⟨h.create rfl hinstances rfl, fun k _ hk => hk.create h hinstances rfl ?_⟩
    show (Engine.State.connector (Moment.state _).engine k).closes = _
    rw [hengine]
    rfl
  | @ask _ i _ hevent =>
    rcases hevent with hevent | hevent
    · exact absurd hevent (hother i).1
    · exact absurd hevent (hother i).2
  | close hrequest hinstances _ _ _ hx hd hcloses =>
    refine ⟨⟨?_, ?_, nofun⟩, fun k hfounded hk => ?_⟩
    · exact fun i hi => (congrArg List.length hinstances).symm ▸ h.lt i hi
    · exact fun i z hz => h.running i z (hinstances ▸ hz)
    · exact hk.close h hfounded hrequest hx hd hinstances rfl (hcloses k)
  | told _ hcalm => exact hkeep rfl rfl hcalm.closes
  | ignore => exact hkeep rfl rfl fun _ => rfl
  | stop => exact hkeep rfl rfl fun _ => rfl
  | move _ hx hclosing =>
    refine ⟨h.change hx rfl ?_ rfl, fun k _ hk => hk.change hx rfl rfl rfl rfl⟩
    simp [hclosing]
  | start _ hx =>
    exact ⟨h.change hx rfl Iff.rfl rfl, fun k _ hk => hk.change hx rfl rfl rfl rfl⟩
  | release hreleases _ hx =>
    obtain ⟨z, hz, hsuits⟩ := hguarded.past _ _ hreleases.past?
    obtain rfl := Option.some.inj (hz.symm.trans hx)
    have hstate := (hsuits.late hreleases.past?).2.1
    refine ⟨h.change hx rfl ?_ rfl, fun k _ hk => hk.change hx rfl hreleases.spec.1 rfl rfl⟩
    simp [hstate, hreleases.state_ne_running hstate]
  | @reap i x hx =>
    obtain ⟨hconnector, -, hstate⟩ := x.reap_spec (c.state.threadEnded i)
    refine ⟨h.change hx rfl ?_ rfl, fun k _ hk => hk.change hx rfl hconnector rfl rfl⟩
    rcases hstate with hstate | ⟨hreleased, hstate⟩
    · rw [hstate]
    · -- an instance that runs has no reaper
      have hrunning : x.state ≠ .running := fun hrunning =>
        nomatch hreleased.symm.trans ((hguarded.fits i x hx).early (Or.inl hrunning)).2
      simp [hstate, hrunning]

theorem Guarded.tallies_perform (hguarded : c.Guarded) (h : c.Tallied ended) (event : Event) :
    c.Tallies (c.perform event) ended (ended ++ (c.ending? event).toList) := by
  have hnothing : c.Tallies c ended ended := ⟨h, fun _ _ hk => hk⟩
  have hother : (∀ i, event ≠ .act (.destroy i) ∧ event ≠ .act (.dropConnection i)) →
      c.Tallies (c.perform event) ended ended :=
    hguarded.tallies_step h (hguarded.step_perform event)
  -- a call that the host makes only if it is free, and that needs the connection to exist
  have hends : ∀ (i : Nat) (next : Scene),
      (c.isFree = true → i < c.state.instances.length → c.Tallies next ended (ended ++ [i])) →
      (c.state.instances[i]? = none → next = c) →
      c.Tallies (if c.isFree then next else c) ended
        (ended ++ (if c.isFree ∧ i < c.state.instances.length then some i else none).toList) := by
    intro i next hnext hsame
    by_cases hfree : c.isFree = true
    · by_cases hi : i < c.state.instances.length
      · rw [if_pos hfree, if_pos ⟨hfree, hi⟩]
        exact hnext hfree hi
      · rw [if_pos hfree, if_neg fun hboth => hi hboth.2,
          hsame (List.getElem?_eq_none (Nat.le_of_not_lt hi))]
        simpa using hnothing
    · rw [if_neg hfree, if_neg fun hboth => hfree hboth.1]
      simpa using hnothing
  cases event with
  | act deed =>
    cases deed with
    | destroy i => exact hends i (c.ask i) h.tallies_ask fun hnone => by simp [Scene.ask, hnone]
    | dropConnection i =>
      exact hends i (c.drop i) h.tallies_drop fun hnone => by simp [Scene.drop, hnone]
    | connector | respond | create | query | next | cancel | dropResult | executor | executorQuery
    | executorNext | executorAbort | dropExecutor | dispatch =>
      simpa [ending?] using hother (by simp)
  | resume | turn | elapse | reap | reapers => simpa [ending?] using hother (by simp)

end Scene

open Scene

/-- The connections that the host ends in a run, in order. -/
def ended (events : List Event) : List Nat :=
  ({} : Scene).endings events

theorem tallied_scene (events : List Event) : (scene events).Tallied (ended events) ∧
    ∀ k, (∀ before ∈ events.inits, (scene before).Founded k) →
      (scene events).Counted (ended events) k := by
  suffices h : ∀ (c : Scene) (earlier : List Nat), c.Guarded → c.Tallied earlier →
      (events.foldl perform c).Tallied (earlier ++ c.endings events) ∧
      ∀ k, (∀ before ∈ events.inits, (before.foldl perform c).Founded k) → c.Counted earlier k →
        (events.foldl perform c).Counted (earlier ++ c.endings events) k by
    have hstart : ({} : Scene).Tallied [] := ⟨nofun, by simp [Scene.state], nofun⟩
    obtain ⟨htallied, hcounted⟩ := h {} [] guarded_start hstart
    exact ⟨htallied, fun k hfounded => hcounted k hfounded rfl⟩
  induction events with
  | nil =>
    intro c earlier _ htallied
    simpa [endings] using htallied
  | cons event events ih =>
    intro c earlier hguarded htallied
    obtain ⟨htold, hcount⟩ := hguarded.tallies_perform htallied event
    obtain ⟨hfinally, hcounted⟩ := ih _ _ (hguarded.step (hguarded.step_perform event)) htold
    rw [endings, ← List.append_assoc]
    refine ⟨hfinally, fun k hfounded hk => ?_⟩
    refine hcounted k (fun before hbefore => ?_) (hcount k ?_ hk)
    · refine hfounded (event :: before) ?_
      rw [List.mem_inits] at hbefore ⊢
      exact (List.prefix_cons_inj event).mpr hbefore
    · exact hfounded [] ((List.mem_inits _ _).mpr (List.nil_prefix))

/-- However requests to shut down, connections that are let go, the threads of the loops and the
reapers take turns: a connection runs until the host ends it for the first time. Until then a request
succeeds, and letting go of the connection comes to a request. From then on a request is refused as
one that comes too late, whatever the instance is doing, and nothing changes but the log; letting go
of the connection does nothing at all. A request that was begun finds the engine whose cluster it is
to close. And a connector has closed exactly as many clusters as it has connections that were ended,
not counting the one whose request is under way. -/
theorem connection_ended_once (events : List Event) :
    (∀ (i : Nat) (x : Instance), (scene events).state.instances[i]? = some x →
      (x.state = .running ↔ i ∉ ended events) ∧
      (i ∉ ended events → ((scene events).state.destroy i).1 = .ok () ∧
        (scene events).state.dropConnection i = ((scene events).state.destroy i).2) ∧
      (i ∈ ended events →
        (scene events).state.destroy i =
          (.error .destroyInProgress, (scene events).state.note .host [.destroyRefused x.state]) ∧
        (scene events).state.dropConnection i = (scene events).state) ∧
      ((scene events).request = some i → x.hasEngine = true)) ∧
    ∀ k, (∀ before ∈ events.inits, (scene before).Founded k) →
      ((scene events).state.engine.connector k).closes =
        (((scene events).among (ended events) k).filter
          fun i => (scene events).request ≠ some i).card := by
  have hguarded := guarded_scene events
  obtain ⟨htallied, hcounted⟩ := tallied_scene events
  refine ⟨fun i x hx => ?_, hcounted⟩
  have hrunning := htallied.running i x hx
  have hfits := hguarded.fits i x hx
  have hengine : x.state = .running ∨ x.state = .closingNetwork → x.hasEngine = true :=
    fun hstate => (hfits.intact (hfits.hasThread (hfits.early hstate).1)).1
  refine ⟨hrunning, ?_, ?_, ?_⟩
  · intro hfirst
    have hstate := hrunning.mpr hfirst
    constructor
    · simp [State.destroy, hx, Instance.transit?, hstate, hengine (Or.inl hstate)]
    · simp [State.dropConnection, hx, hstate]
  · intro hagain
    have hstate : x.state ≠ .running := fun hstate => hrunning.mp hstate hagain
    constructor
    · simp [State.destroy, hx, Instance.transit?, hstate]
    · simp [State.dropConnection, hx, hstate]
  · intro hrequest
    obtain ⟨z, hz, hclosing⟩ := hguarded.asked i hrequest
    obtain rfl : x = z := Option.some.inj (hx.symm.trans hz)
    exact hengine (Or.inr hclosing)

/-- Two connectors with three connections. The first connection is asked to shut down, asked again
while its loop reports, and let go in the end; the second is let go while it runs, and the host is
still closing its cluster; the third is left alone. -/
def endedRun : List Event :=
  [.act .connector, .act .connector, .act (.create 0 { connection := "mem" }),
    .act (.create 0 { connection := "mem" }), .act (.create 1 { connection := "mem" }),
    .act (.destroy 0), .turn 0, .resume, .turn 0, .turn 0, .act (.destroy 0), .turn 0, .turn 0,
    .turn 0, .reap 0, .act (.dropConnection 0), .act (.dropConnection 1)]

/-- In that run three attempts end the first connection and one ends the second. A cluster of the
first connector is closed, and after one more step of the host both are. -/
theorem connection_ended_once_in_endedRun :
    ended endedRun = [0, 0, 0, 1] ∧
    ((scene endedRun).state.engine.connector 0).closes = 1 ∧
    (∃ s, (scene endedRun).state.destroy 0 = (.error .destroyInProgress, s)) ∧
    ((scene endedRun).state.destroy 2).1 = .ok () ∧
    ((scene (endedRun ++ [.resume])).among (ended (endedRun ++ [.resume])) 0).card = 2 := by
  have hjoining : (scene endedRun).state.instances[0]? = some
      { connector := .memory 0, loop := 0, state := .joiningThread, reaper := .joining,
        hasThread := false } := by
    decide +kernel
  have hleft : (scene endedRun).state.instances[2]? =
      some { connector := .memory 1, loop := 2 } := by decide +kernel
  obtain ⟨heach, hcount⟩ := connection_ended_once endedRun
  obtain ⟨-, hafter⟩ := connection_ended_once (endedRun ++ [.resume])
  obtain ⟨-, -, hagain, -⟩ := heach 0 _ hjoining
  obtain ⟨-, hfirst, -, -⟩ := heach 2 _ hleft
  refine ⟨by decide +kernel, ?_, ⟨_, (hagain (by decide +kernel)).1⟩, (hfirst (by decide +kernel)).1,
    ?_⟩
  · rw [hcount 0 (by decide +kernel)]
    decide +kernel
  · have hall := hafter 0 (by decide +kernel)
    have hidle : (scene (endedRun ++ [.resume])).request = none := by decide +kernel
    have hcloses : ((scene (endedRun ++ [.resume])).state.engine.connector 0).closes = 2 := by
      decide +kernel
    rw [hcloses, hidle] at hall
    simpa using hall.symm

end HostBridge.Session
