import HostBridge.Proofs.Session.Invariant
import HostBridge.Proofs.Session.Traffic

/-!
# A rejected query leaves no trace

A query is rejected at one of three depths: an executor that has a query already does not get to the
connection; an instance that does not take queries does not get to the engine; and an engine without a
response comes last, when the callback is registered and its cookie has been handed over. In the last
case the cookie is dropped on the way back, and a release is queued for the callback. Nothing else has
changed then, and the next poll takes the callback away.
-/

namespace HostBridge.Session

open Bridge (Cookie Entry Host Message)
open Relation (ReflTransGen)

/-! ## What a rejected query does -/

namespace State

variable {s s' : State} {i : Nat} {k : Option Nat} {request : Request} {name : String}
  {callback : Callback} {fault : Error}

/-- A query is submitted, by an executor if one is given. -/
def pose (s : State) (k : Option Nat) (i : Nat) (request : Request) (name : String) :
    Except Error Unit × State :=
  match k with
  | none =>
    let (answer, s) := s.query i request (.promotion name false)
    (answer.map fun _ => (), s)
  | some e => s.executorQuery e i request name

/-- What a rejected query leaves behind. -/
inductive Rejected (s : State) (callback : Callback) : State → Prop
  /-- The callback was dropped before it was registered. -/
  | early : Rejected s callback (s.record (.dropped none callback.name))
  /-- The callback was registered, and its cookie was dropped with the result of the query. -/
  | late (os : List Occurrence) (hos : ∀ o ∈ os, o.tells? = none) : Rejected s callback { s with
      host := (s.host.register queryLabel callback).2.release
        (s.host.register queryLabel callback).1
      results := s.results ++ [{ alive := false }]
      trace := os ++ s.trace }

theorem register_spec (s : State) (label : String) (callback : Callback) :
    ∃ os, (∀ o ∈ os, o.tells? = none) ∧ s.register label callback =
      ((s.host.register label callback).1,
        { s with host := (s.host.register label callback).2, trace := os ++ s.trace }) := by
  simp only [State.register, note_host]
  split
  · exact ⟨[_], by simp [Occurrence.tells?], rfl⟩
  · exact ⟨[_, _], by simp [Occurrence.tells?], rfl⟩

/-- A query that an engine in memory refuses drops its cookie. -/
theorem execute_error {x : Instance} {c : Nat} {p : Promotion} {e : EngineError}
    (hc : x.connector = .memory c) (h : (s.execute x request p).1 = .error e) :
    s.execute x request p = (.error e, s.release p.cookie) := by
  simp only [execute, hc] at h ⊢
  split at h
  · rw [Except.error.inj h]
  · cases h

/-- A submission is rejected before the callback is registered, or because no response is left. -/
theorem rejected_of_submit
    (hmemory : ∀ x, s.instances[i]? = some x → ∃ c, x.connector = .memory c)
    (h : (s.submit i request callback).1 = .error fault) :
    Rejected s callback (s.submit i request callback).2 := by
  unfold submit at h ⊢
  cases hx : s.instances[i]? with
  | none => exact .early
  | some x =>
    simp only [hx] at h ⊢
    cases hagent : agent x with
    | error e => exact .early
    | ok u =>
      obtain ⟨c, hc⟩ := hmemory x hx
      obtain ⟨os, hos, hregister⟩ := register_spec (s.addResult .empty).2 queryLabel callback
      simp only [hagent, hregister, note_host] at h ⊢
      generalize hexecuted : execute _ x request _ = executed at h ⊢
      obtain ⟨_ | operation, s'⟩ := executed
      · obtain ⟨-, rfl⟩ := Prod.mk.inj
          (hexecuted.symm.trans (execute_error hc (congrArg Prod.fst hexecuted)))
        have hresults := Moment.modify_last s.results { target := .empty }
          fun q => { q with alive := false }
        simp only [addResult, release, dropResult, modifyResult, hresults]
        exact .late (.logged (.querySubmitted request.statement) :: os)
          (List.forall_mem_cons.mpr ⟨rfl, hos⟩)
      · cases h

theorem rejected_of_pose
    (hmemory : ∀ x, s.instances[i]? = some x → ∃ c, x.connector = .memory c)
    (h : (s.pose k i request name).1 = .error fault) :
    Rejected s (.promotion name k.isSome) (s.pose k i request name).2 := by
  have hsubmit : ∀ hides, (∃ e, (s.submit i request (.promotion name hides)).1 = .error e) →
      Rejected s (.promotion name hides) (s.submit i request (.promotion name hides)).2 :=
    fun hides ⟨e, he⟩ => rejected_of_submit hmemory he
  cases k with
  | none =>
    have hrejected := hsubmit false
    simp only [pose, query] at h ⊢
    generalize s.submit i request (.promotion name false) = submitted at h hrejected ⊢
    obtain ⟨e | ⟨r, operation⟩, s'⟩ := submitted
    · exact hrejected ⟨e, rfl⟩
    · cases h
  | some e =>
    have hrejected := hsubmit true
    simp only [pose, executorQuery, executorSubmit] at h ⊢
    cases hresult : s.executors[e]?.bind Executor.result with
    | some r => exact .early
    | none =>
      simp only [hresult] at h ⊢
      generalize s.submit i request (.promotion name true) = submitted at h hrejected ⊢
      obtain ⟨e | ⟨r, operation⟩, s'⟩ := submitted
      · exact hrejected ⟨e, rfl⟩
      · cases h

/-! ## What stays as it was -/

/-- Nothing but the host and its log has changed, except that there may be a further result, which
nobody holds. -/
structure Untouched (s s' : State) : Prop where
  /-- The engine, with its connectors, loops and streams. -/
  engine : s'.engine = s.engine
  /-- The hand-driven connectors. -/
  manuals : s'.manuals = s.manuals
  /-- The instances. -/
  instances : s'.instances = s.instances
  /-- The executors. -/
  executors : s'.executors = s.executors
  /-- Whether reapers can be started. -/
  reaperFault : s'.reaperFault = s.reaperFault
  /-- The results that there were. -/
  results : ∀ (r : Nat) (q : QueryResult), s.results[r]? = some q → s'.results[r]? = some q
  /-- Results that there were not. -/
  unheld : ∀ (r : Nat) (q : QueryResult), s'.results[r]? = some q → s.results[r]? = none →
    q = { alive := false }

theorem Rejected.untouched (h : Rejected s callback s') : s.Untouched s' := by
  cases h with
  | early =>
    refine ⟨rfl, rfl, rfl, rfl, rfl, fun r q hq => hq, fun r q hq hnone => ?_⟩
    have hsame : s.results[r]? = some q := hq
    rw [hnone] at hsame
    cases hsame
  | late =>
    refine ⟨rfl, rfl, rfl, rfl, rfl, fun r q hq => ?_, fun r q hq hnone => ?_⟩
    · exact (List.getElem?_append_left (List.getElem?_eq_some_iff.mp hq).1).trans hq
    · have hadded : (s.results ++ [{ alive := false }])[r]? = some q := hq
      rw [List.getElem?_append_right (List.getElem?_eq_none_iff.mp hnone),
        List.getElem?_singleton] at hadded
      split at hadded
      · exact (Option.some.inj hadded).symm
      · cases hadded

/-- The slots of an open host after a registration whose cookie was dropped. -/
theorem late_host {host : Host Callback Work} (hopen : host.closed = false)
    (callback : Callback) :
    let key := (host.registry.insert ⟨host.issued, callback⟩).1
    (host.register queryLabel callback).2.release (host.register queryLabel callback).1 =
      { host with
        registry := (host.registry.insert ⟨host.issued, callback⟩).2
        queue := host.queue ++ [.release key queryLabel host.issued]
        issued := host.issued + 1 } := by
  simp [Host.register, hopen, Host.release]

/-! ## As if there had been no query -/

/-- The second host has further messages in its queue, about slots that are vacant in the first one,
and otherwise the slots hold the same. -/
def Burdened (host host' : Host Callback Work) : Prop :=
  ∃ before extra after, host.queue = before ++ after ∧ host'.queue = before ++ extra ++ after ∧
    (∀ key ∈ extra.map Message.key, host.registry.get? key = none) ∧
    ∀ key, key ∉ extra.map Message.key → host'.registry.get? key = host.registry.get? key

/-- Two sessions with an open host that only differ in what the second one will drop. -/
structure Alike (s s' : State) : Prop where
  /-- Their engines do the same. -/
  engine : s'.engine = s.engine
  /-- Their instances are the same. -/
  instances : s'.instances = s.instances
  /-- Their reapers start, or fail to. -/
  reaperFault : s'.reaperFault = s.reaperFault
  /-- Their results refer to the same. -/
  target : ∀ r, s'.target? r = s.target? r
  /-- The first host is open. -/
  opened : s.host.closed = false
  /-- The second host is open. -/
  opened' : s'.host.closed = false
  /-- The second host has more to do. -/
  host : Burdened s.host s'.host

theorem Rejected.alike (h : Rejected s callback s') (hopen : s.host.closed = false)
    (hvalid : s.host.registry.Valid) : s.Alike s' := by
  cases h with
  | early =>
    exact ⟨rfl, rfl, rfl, fun r => rfl, hopen, hopen,
      s.host.queue, [], [], by simp, by simp [record], by simp, fun key _ => rfl⟩
  | late =>
    have hhost := late_host hopen callback
    refine ⟨rfl, rfl, rfl, fun r => ?_, hopen, by simp [hhost, hopen], s.host.queue,
      [.release (s.host.registry.insert ⟨s.host.issued, callback⟩).1 queryLabel s.host.issued], [],
      by simp, by simp [hhost], ?_, fun key hkey => ?_⟩
    · -- the new result is as good as none
      simp only [target?]
      by_cases hr : r < s.results.length
      · rw [List.getElem?_append_left hr]
      · rw [List.getElem?_eq_none (Nat.le_of_not_lt hr),
          List.getElem?_append_right (Nat.le_of_not_lt hr), List.getElem?_singleton]
        by_cases hlast : r - s.results.length = 0 <;> simp [hlast]
    · simp [Message.key, Registry.get?_fresh hvalid]
    · have hne : key ≠ (s.host.registry.insert ⟨s.host.issued, callback⟩).1 := by
        simpa [Message.key] using hkey
      simp [hhost, Registry.get?_insert hvalid, hne]

theorem Burdened.push {host host' : Host Callback Work} (h : Burdened host host')
    (messages : List (Message Work)) :
    Burdened { host with queue := host.queue ++ messages }
      { host' with queue := host'.queue ++ messages } := by
  obtain ⟨before, extra, after, hqueue, hqueue', hvacant, hsame⟩ := h
  exact ⟨before, extra, after ++ messages, by simp [hqueue], by simp [hqueue'], hvacant, hsame⟩

namespace Alike

theorem withHost (h : s.Alike s') {host host' : Host Callback Work}
    (hclosed : host.closed = s.host.closed) (hclosed' : host'.closed = s'.host.closed)
    (hhost : Burdened host host') : Alike { s with host } { s' with host := host' } :=
  ⟨h.engine, h.instances, h.reaperFault, h.target, hclosed.trans h.opened,
    hclosed'.trans h.opened', hhost⟩

theorem withReaperFault (h : s.Alike s') (fault : Option String) :
    Alike { s with reaperFault := fault } { s' with reaperFault := fault } :=
  ⟨h.engine, h.instances, rfl, h.target, h.opened, h.opened', h.host⟩

theorem invoke (h : s.Alike s') (place : Place) (cookie : Cookie) (work : Work) :
    (s.invoke place cookie work).Alike (s'.invoke place cookie work) := by
  rw [invoke_eq h.opened, invoke_eq h.opened']
  refine h.withHost (Host.invoke_closed _ _ _) (Host.invoke_closed _ _ _) ?_
  cases hkey : cookie.key with
  | none => simpa [Host.invoke, hkey] using h.host
  | some key =>
    rw [Host.invoke_of_key h.opened hkey, Host.invoke_of_key h.opened' hkey]
    exact h.host.push _

theorem release (h : s.Alike s') (cookie : Cookie) :
    (s.release cookie).Alike (s'.release cookie) := by
  refine h.withHost (Host.release_closed _ _) (Host.release_closed _ _) ?_
  cases hkey : cookie.key with
  | none => simpa [Host.release, hkey] using h.host
  | some key =>
    rw [Host.release_of_key h.opened hkey, Host.release_of_key h.opened' hkey]
    exact h.host.push _

theorem withEngine (h : s.Alike s') (engine : Engine.State Promotion Cookie Nat) :
    Alike { s with engine } { s' with engine } :=
  ⟨rfl, h.instances, h.reaperFault, h.target, h.opened, h.opened', h.host⟩

theorem modifyInstance (h : s.Alike s') (i : Nat) (f : Instance → Instance) :
    (s.modifyInstance i f).Alike (s'.modifyInstance i f) :=
  ⟨h.engine, by simp only [State.modifyInstance, h.instances], h.reaperFault, h.target, h.opened,
    h.opened', h.host⟩

theorem setStream (h : s.Alike s') (r stream : Nat) :
    (s.modifyResult r fun q => { q with target := q.target.setStream stream }).Alike
      (s'.modifyResult r fun q => { q with target := q.target.setStream stream }) := by
  have hmodified : ∀ (s : State) (k : Nat),
      (s.modifyResult r fun q => { q with target := q.target.setStream stream }).target? k =
        (s.target? k).map fun target => if r = k then .active stream else target := by
    intro s k
    simp only [target?, modifyResult, List.getElem?_modify]
    cases s.results[k]? with
    | none => rfl
    | some q => by_cases hk : r = k <;> cases halive : q.alive <;> simp [hk, halive, Target.setStream]
  refine ⟨h.engine, h.instances, h.reaperFault, fun k => ?_, h.opened, h.opened', h.host⟩
  rw [hmodified, hmodified, h.target]

theorem promote (h : s.Alike s') (p : Promotion) (stream : Option Nat)
    (error : Option EngineError) :
    (s.promote .loop p stream error).Alike (s'.promote .loop p stream error) := by
  simp only [State.promote, h.target]
  cases s.target? p.result with
  | none => exact h.release p.cookie
  | some target =>
    cases stream with
    | none => exact h.invoke _ _ _
    | some k => exact (h.setStream p.result k).invoke _ _ _

theorem clusterClosed (h : s.Alike s') (i : Nat) :
    (s.clusterClosed .loop i).Alike (s'.clusterClosed .loop i) := by
  simp only [State.clusterClosed, h.instances]
  cases s.instances[i]? with
  | none => exact h
  | some x =>
    simp only
    cases x.transit? .closingNetwork .joiningThread with
    | none => exact h
    | some y =>
      have hmodified := h.modifyInstance i fun _ => y
      have hstopped := hmodified.withEngine ((s.modifyInstance i fun _ => y).engine.stop x.loop)
      have hengine : (s'.modifyInstance i fun _ => y).engine =
          (s.modifyInstance i fun _ => y).engine := hmodified.engine
      have hfault : (s'.modifyInstance i fun _ => y).reaperFault =
          (s.modifyInstance i fun _ => y).reaperFault := hmodified.reaperFault
      simp only [hfault] at hstopped
      simp only [note, hengine, hfault]
      split
      · exact hstopped.modifyInstance i fun y => { y with reaper := .started }
      · exact hstopped.modifyInstance i Instance.detach

theorem turn (h : s.Alike s') (l : Nat) : (s.turn l).Alike (s'.turn l) := by
  simp only [State.turn, h.engine]
  generalize s.engine.turn l = turned
  obtain ⟨completion, engine⟩ := turned
  have hengine := h.withEngine engine
  cases completion with
  | none => exact hengine
  | some completion =>
    cases completion with
    | promoted p stream error => exact hengine.promote p stream error
    | row cookie row => exact hengine.invoke _ _ _
    | closed i => exact hengine.clusterClosed i

theorem reap (h : s.Alike s') (i : Nat) : (s.reap i).Alike (s'.reap i) := by
  simp only [State.reap, h.instances, threadEnded, h.engine]
  cases s.instances[i]? with
  | none => exact h
  | some x => exact h.modifyInstance i _

theorem poll (h : s.Alike s') (key : Nat) :
    s'.poll.2.host.registry.get? key = s.poll.2.host.registry.get? key := by
  obtain ⟨before, extra, after, hqueue, hqueue', hvacant, hsame⟩ := h.host
  rw [get?_poll h.opened, get?_poll h.opened', hqueue, hqueue']
  by_cases hkey : key ∈ extra.map Message.key
  · rw [hvacant key hkey]
    simp only [List.map_append, List.mem_append, hkey, or_true, true_or, if_true, ite_self]
  · rw [hsame key hkey]
    simp only [List.map_append, List.mem_append, hkey, or_false]

end Alike

/-- A callback that was registered is on its way to be dropped. -/
theorem Rejected.discarded (h : Rejected s callback s') (hnumbered : s.Numbered)
    (hclaims : s.host.closed = false → s.host.registry.Valid ∧
      ∀ message ∈ s.host.queue, (s.host.registry.get? message.key).isSome = true) :
    s' = s.record (.dropped none callback.name) ∨
      s'.host = (s.host.register queryLabel callback).2.release
        (s.host.register queryLabel callback).1 ∧ s'.Discarded s.host.issued := by
  cases h with
  | early => exact Or.inl rfl
  | late os hos =>
    have hissued : ((s.host.register queryLabel callback).2.release
        (s.host.register queryLabel callback).1).issued = s.host.issued + 1 := by simp
    refine Or.inr ⟨rfl, ?_, fun o ho ht => ?_, fun key e he hticket => ?_⟩
    · rw [hissued]
      exact Nat.lt_succ_self _
    · rcases List.mem_append.mp ho with ho | ho
      · rw [hos o ho] at ht
        cases ht
      · exact Nat.lt_irrefl _ (hnumbered.told o ho _ ht)
    · have hold : s.host.registry.get? key ≠ some e := fun hold =>
        Nat.lt_irrefl _ (hticket ▸ hnumbered.slots key e hold)
      cases hopen : s.host.closed with
      | true =>
        -- a closed host has not kept it
        simp [Host.register, hopen, Host.release] at he
        exact absurd he hold
      | false =>
        obtain ⟨hvalid, hfull⟩ := hclaims hopen
        have hhost := late_host hopen callback
        simp only [hhost] at he ⊢
        rw [Registry.get?_insert hvalid] at he
        split at he
        · next hkey =>
          refine ⟨s.host.queue, queryLabel, s.host.issued, [], by rw [hkey], fun message hm heq => ?_⟩
          have hvacant := Registry.get?_fresh hvalid (⟨s.host.issued, callback⟩ : Entry Callback)
          have := hfull message hm
          rw [heq, hkey, hvacant] at this
          cases this
        · exact absurd he hold

/-- A query of an executor without a result is a query of its connection, and then the executor is
started with the new result. -/
theorem executorQuery_eq {e : Nat} (hnone : s.executors[e]?.bind Executor.result = none) (i : Nat)
    (request : Request) (name : String) :
    s.executorQuery e i request name = match s.query i request (.promotion name true) with
      | (.error fault, s) => (.error fault, s)
      | (.ok r, s) => (.ok (), s.modifyExecutor e fun _ => ⟨some r, .started⟩) := by
  simp only [executorQuery, executorSubmit, hnone, query]
  obtain ⟨e' | ⟨r, operation⟩, s'⟩ := s.submit i request (.promotion name true) <;> rfl

end State

/-! ## Whatever comes next -/

/-- A query is submitted, by an executor if one is given. -/
def Deed.pose (k : Option Nat) (i : Nat) (request : Request) (name : String) : Deed :=
  match k with
  | none => .query i request name
  | some e => .executorQuery e i request name

/-- The event takes place outside the host thread. -/
def Event.isOutside : Event → Bool
  | .turn _ | .elapse _ _ | .reap _ | .reapers _ => true
  | .act _ | .resume => false

namespace Moment

variable {m m' : Moment} {i : Nat} {k : Option Nat} {request : Request} {name : String}
  {fault : Error}

/-- What can come next: an event, or, between two calls, the end of the host. -/
inductive Next (m : Moment) : Moment → Prop
  /-- An event. -/
  | event (event : Event) : Next m (m.perform event)
  /-- The host is torn down. -/
  | teardown (hidle : m.call = .idle) : Next m (m.having m.state.teardown)

/-- What can come sooner or later. -/
abbrev Leads : Moment → Moment → Prop :=
  ReflTransGen Next

theorem Next.moves (h : m.Next m') : m.state.Moves m'.state := by
  cases h with
  | event event => exact moves_perform m event
  | teardown hidle => exact State.moves_teardown m.state

theorem Leads.moves (h : m.Leads m') : m.state.Moves m'.state := by
  induction h with
  | refl => exact .refl
  | tail _ hnext ih => exact ih.trans hnext.moves

/-- What goes on outside the host thread makes no difference between sessions that are alike. -/
theorem alike_foldl (h : m.state.Alike m'.state) {events : List Event}
    (hevents : ∀ event ∈ events, event.isOutside = true) :
    (events.foldl perform m).state.Alike (events.foldl perform m').state := by
  induction events generalizing m m' with
  | nil => exact h
  | cons event events ih =>
    refine ih ?_ fun event hm => hevents event (List.mem_cons_of_mem _ hm)
    cases event with
    | act | resume => cases hevents _ List.mem_cons_self
    | turn l => exact h.turn l
    | reap i => exact h.reap i
    | reapers fault => exact h.withReaperFault fault
    | elapse l key =>
      simp only [perform, h.engine]
      split
      · exact h.withEngine _
      · exact h

theorem leads_run (events : List Event) : Leads {} (run events) := by
  suffices h : ∀ m : Moment, m.Leads (events.foldl perform m) from h {}
  induction events with
  | nil => exact fun m => .refl
  | cons event events ih => exact fun m => .head (.event event) (ih (m.perform event))

/-- As long as the host is open, everything is as in a run without its end. -/
theorem Leads.sane (h : Leads {} m) (hopen : m.state.host.closed = false) : m.Sane := by
  induction h with
  | refl => exact Sane.start
  | @tail m m' _ hnext ih =>
    have hopen' : m.state.host.closed = false := by
      by_contra hclosed
      rw [Bool.not_eq_false] at hclosed
      rw [hnext.moves.closed hclosed] at hopen
      cases hopen
    cases hnext with
    | event event => exact ((ih hopen').event event).1
    | teardown hidle =>
      rw [having, State.closed_teardown] at hopen
      cases hopen

theorem Leads.numbered (h : Leads {} m) : m.state.Numbered :=
  State.Numbered.moves ⟨by simp, by simp⟩ h.moves

theorem perform_pose (hidle : m.call = .idle)
    (h : (m.state.pose k i request name).1 = .error fault) :
    (m.perform (.act (.pose k i request name))).state = (m.state.pose k i request name).2 ∧
      (m.perform (.act (.pose k i request name))).call = .idle := by
  have hsubmitted : ∀ (callback : Callback) (e : Error) (s : State),
      (m.submitted k i callback (.error e, s)).state = s ∧
        (m.submitted k i callback (.error e, s)).call = .idle := by
    intro callback e s
    simp only [submitted]
    split <;> exact ⟨rfl, hidle⟩
  cases k with
  | none =>
    simp only [State.pose, State.query, Deed.pose, perform, hidle, act] at h ⊢
    generalize m.state.submit i request (.promotion name false) = answer at h ⊢
    obtain ⟨e | ⟨r, operation⟩, s⟩ := answer
    · exact hsubmitted _ e s
    · cases h
  | some e =>
    simp only [State.pose, State.executorQuery, Deed.pose, perform, hidle, act] at h ⊢
    generalize m.state.executorSubmit e i request name = answer at h ⊢
    obtain ⟨e' | ⟨r, operation⟩, s⟩ := answer
    · exact hsubmitted _ e' s
    · cases h

end Moment

open Moment

/-- A query on an instance in memory, of a connection or of an executor, is rejected, at any time of a
session whose host may have been torn down. Then nothing but the host and its log has changed: the
engine with its connectors and streams, the instances, the results and the executors are as before,
but for a further result that nobody holds. The callback was dropped before it was registered, or it
was registered and is never told anything, whatever comes next, and no poll leaves it in its slot. If
the host is open, its next poll leaves every slot as it would have left it without the query, whatever
went on outside the host thread in the meantime. An executor that has no result yet submits a query
just as the connection does, and has the result of that query then. -/
theorem rejected_without_trace {m : Moment} (hreachable : Leads {} m) (hidle : m.call = .idle)
    (k : Option Nat) (i : Nat) (request : Request) (name : String) {fault : Error}
    (hmemory : ∀ x, m.state.instances[i]? = some x → ∃ c, x.connector = .memory c)
    (hfault : (m.state.pose k i request name).1 = .error fault) :
    let m' := m.perform (.act (.pose k i request name))
    m'.state = (m.state.pose k i request name).2 ∧ m'.call = .idle ∧
    m.state.Untouched m'.state ∧
    (m'.state = m.state.record (.dropped none name) ∨
      ∃ cookie host, m.state.host.register queryLabel (.promotion name k.isSome) = (cookie, host) ∧
        m'.state.host = host.release cookie ∧ ∀ m'', m'.Leads m'' →
          (∀ o ∈ m''.state.trace, o.tells? ≠ some cookie.ticket) ∧
          ∀ key e, m''.state.poll.2.host.registry.get? key = some e → e.ticket ≠ cookie.ticket) ∧
    (m.state.host.closed = false → ∀ events : List Event,
      (∀ event ∈ events, event.isOutside = true) → ∀ key,
        (events.foldl perform m').state.poll.2.host.registry.get? key =
          (events.foldl perform m).state.poll.2.host.registry.get? key) ∧
    ∀ e m'', m'.Leads m'' → m''.state.executors[e]?.bind Executor.result = none →
      ∀ i request name, m''.state.executorQuery e i request name =
        match m''.state.query i request (.promotion name true) with
        | (.error fault, s) => (.error fault, s)
        | (.ok r, s) => (.ok (), s.modifyExecutor e fun _ => ⟨some r, .started⟩) := by
  intro m'
  obtain ⟨hstate, hidle'⟩ := perform_pose hidle hfault
  have hrejected : m.state.Rejected (.promotion name k.isSome) m'.state :=
    hstate ▸ State.rejected_of_pose hmemory hfault
  have hserved : m.state.host.closed = false → m.state.host.Owned m.callbacks _ := fun hopen =>
    (hreachable.sane hopen).bridged.served.owned
  refine ⟨hstate, hidle', hrejected.untouched, ?_, fun hopen events hevents =>
    (alike_foldl (hrejected.alike hopen (hserved hopen).valid) hevents).poll,
    fun e m'' _ hnone i request name => State.executorQuery_eq hnone i request name⟩
  have hclaims : m.state.host.closed = false → m.state.host.registry.Valid ∧
      ∀ message ∈ m.state.host.queue,
        (m.state.host.registry.get? message.key).isSome = true := fun hopen => by
    refine ⟨(hserved hopen).valid, fun message hm => ?_⟩
    obtain ⟨e, he, -⟩ := (hserved hopen).of_message hm
    rw [he]
    rfl
  refine (hrejected.discarded hreachable.numbered hclaims).imp_right fun ⟨hhost, hdiscarded⟩ =>
    ⟨_, _, (Prod.eta _).symm, hhost, fun m'' hleads => ?_⟩
  have hticket := Host.register_ticket m.state.host queryLabel (.promotion name k.isSome)
  have hlater := (hticket ▸ hdiscarded).moves hleads.moves
  exact ⟨hlater.silent, fun key e he => hlater.poll he⟩

/-- The only response was taken by a query whose promotion waits for the host. -/
def exhaustedRun : List Event :=
  [.act .connector, .act (.respond 0 {}), .act (.create 0 { connection := "mem" }), .act .executor,
    .act (.query 0 { statement := "a" } "first"), .resume, .turn 0,
    .turn 0]

/-- There an executor submits a query, which is rejected. A poll then leaves no callback, the second one
is never told anything, and once there is a response the executor can submit a query. -/
theorem rejected_without_trace_in_exhaustedRun :
    let m := run exhaustedRun
    let m' := m.perform (.act (.executorQuery 0 0 { statement := "b" } "second"))
    m.state.host.registry.size = 1 ∧ m'.state.host.registry.size = 2 ∧
    m'.state.executors = [{}] ∧
    (∀ key, m'.state.poll.2.host.registry.get? key = m.state.poll.2.host.registry.get? key) ∧
    m.state.poll.2.host.registry.size = 0 ∧
    (∀ m'', m'.Leads m'' → ∀ o ∈ m''.state.trace, o.tells? ≠ some 1) ∧
    ([.act (.respond 0 {}), .act (.executorQuery 0 0 { statement := "b" } "third"),
      .resume].foldl perform m').state.executors = [⟨some 2, .started⟩] := by
  intro m m'
  have hidle : m.call = .idle := rfl
  have hmemory : ∀ x, m.state.instances[0]? = some x → ∃ c, x.connector = .memory c := by
    rintro x ⟨⟩
    exact ⟨0, rfl⟩
  have hfault : (m.state.pose (some 0) 0 { statement := "b" } "second").1 =
      .error (.engine (Engine.noResponse "b")) := rfl
  obtain ⟨-, -, huntouched, hcallback, hpoll, -⟩ :=
    rejected_without_trace (leads_run exhaustedRun) hidle (some 0) 0 { statement := "b" } "second"
      hmemory hfault
  refine ⟨by decide +kernel, by decide +kernel, ?_, hpoll rfl [] (by simp), by decide +kernel, ?_,
    by decide +kernel⟩
  · exact huntouched.executors.trans (by decide +kernel)
  · have hbefore : m.state.host.issued = 1 := by decide +kernel
    rcases hcallback with hearly | ⟨cookie, host, hregister, -, hsilent⟩
    · -- the callback was registered
      have hissued := congrArg (fun s : State => s.host.issued) hearly
      have hafter : m'.state.host.issued = 2 := by decide +kernel
      exact absurd (hafter.symm.trans (hissued.trans hbefore)) (by decide)
    · have hticket : cookie.ticket = 1 := by
        rw [← hbefore, ← Host.register_ticket m.state.host queryLabel (.promotion "second" true)]
        exact congrArg (fun registered => registered.1.ticket) hregister.symm
      exact fun m'' hleads => hticket ▸ (hsilent m'' hleads).1

end HostBridge.Session
