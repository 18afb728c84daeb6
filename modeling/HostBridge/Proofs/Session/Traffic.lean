import HostBridge.Proofs.Bridge.Ownership
import HostBridge.Proofs.Session.Run
import Mathlib.Logic.Relation

/-!
# What the host sees of a session

Whatever a session does, the host only sees callbacks being registered, cookies being used up or
dropped, messages being handled, and perhaps its own end. `Move` lists these moves together with what
each adds to the trace, and every operation of a session is a few of them, whatever state it starts
from. So what depends on the host and on the trace alone needs to be shown for the moves only, and it
holds for a closed host as well.

Here it is shown that a callback whose cookie was dropped is never told anything: its release comes
before any other message about its slot.
-/

namespace HostBridge.Session

open Bridge (Cookie Entry Host Message)
open Relation (ReflTransGen)

/-- The callback, by ticket, that is told something. -/
def Occurrence.tells? : Occurrence → Option Nat
  | .promoted ticket _ _ => some ticket
  | .row ticket _ _ _ => some ticket
  | .logged _ | .dropped _ _ => none

namespace State

variable {s s' s'' : State}

/-- What can happen to the host and to the trace. -/
inductive Move (s s' : State) : Prop
  /-- Nothing happens to the host, and no callback is told anything. -/
  | log (os : List Occurrence) (hhost : s'.host = s.host) (htrace : s'.trace = os ++ s.trace)
      (hos : ∀ o ∈ os, o.tells? = none)
  /-- A callback is registered. -/
  | register (label : String) (callback : Callback)
      (hhost : s'.host = (s.host.register label callback).2) (htrace : s'.trace = s.trace)
  /-- A cookie is used up. -/
  | invoke (cookie : Cookie) (work : Work) (hhost : s'.host = (s.host.invoke cookie work).2)
      (htrace : s'.trace = s.trace)
  /-- A cookie is dropped. -/
  | release (cookie : Cookie) (hhost : s'.host = s.host.release cookie)
      (htrace : s'.trace = s.trace)
  /-- The oldest message is handled. The callback that it calls may be told something. -/
  | handle {message : Message Work} {rest : List (Message Work)} {os : List Occurrence}
      (hqueue : s.host.queue = message :: rest)
      (hhost : s'.host = (({ s.host with queue := rest } : Host Callback Work).dispatch message).2)
      (htrace : s'.trace = os ++ s.trace)
      (hos : ∀ o ∈ os, ∀ t, o.tells? = some t → ∃ e work,
        message.work? = some work ∧ s.host.registry.get? message.key = some e ∧ e.ticket = t)
  /-- The host is torn down. -/
  | teardown {os : List Occurrence} (hhost : s'.host = s.host.teardown.2)
      (htrace : s'.trace = os ++ s.trace) (hos : ∀ o ∈ os, o.tells? = none)

/-- Moves in a row. -/
abbrev Moves : State → State → Prop :=
  ReflTransGen Move

/-! ## Operations -/

theorem moves_same (hhost : s'.host = s.host) (htrace : s'.trace = s.trace) : Moves s s' :=
  .single (.log [] hhost htrace (by simp))

/-- What the host does not see makes no difference before an operation, -/
theorem moves_after (h : Moves s' s'') (hhost : s'.host = s.host) (htrace : s'.trace = s.trace) :
    Moves s s'' :=
  (moves_same hhost htrace).trans h

/-- nor after it. -/
theorem moves_before (h : Moves s s') (hhost : s''.host = s'.host) (htrace : s''.trace = s'.trace) :
    Moves s s'' :=
  h.trans (moves_same hhost htrace)

theorem moves_note (s : State) (place : Place) (ns : List Log.Notice) :
    Moves s (s.note place ns) := by
  cases place with
  | loop => exact .refl
  | host =>
    induction ns generalizing s with
    | nil => exact .refl
    | cons n ns ih =>
      have hrecord : Move s (s.record (.logged n)) :=
        .log [.logged n] rfl rfl (by simp [Occurrence.tells?])
      exact (ReflTransGen.single hrecord).trans (ih _)

theorem moves_dropped (s : State) (ticket : Option Nat) (name : String) :
    Moves s (s.record (.dropped ticket name)) :=
  .single (.log [.dropped ticket name] rfl rfl (by simp [Occurrence.tells?]))

theorem moves_register (s : State) (label : String) (callback : Callback) :
    Moves s (s.register label callback).2 := by
  have hhost : Moves s { s with host := (s.host.register label callback).2 } :=
    .single (.register label callback rfl rfl)
  simp only [State.register]
  split
  · exact hhost.trans (moves_note _ _ _)
  · exact (hhost.trans (moves_note _ _ _)).trans (moves_dropped _ _ _)

theorem moves_invoke (s : State) (place : Place) (cookie : Cookie) (work : Work) :
    Moves s (s.invoke place cookie work) := by
  have hhost : Moves s { s with host := (s.host.invoke cookie work).2 } :=
    .single (.invoke cookie work rfl rfl)
  simp only [State.invoke]
  split
  · exact hhost
  · exact hhost.trans (moves_note _ _ _)

theorem moves_release (s : State) (cookie : Cookie) : Moves s (s.release cookie) :=
  .single (.release cookie rfl rfl)

theorem tell_spec (s : State) (label : String) (e : Entry Callback) (work : Work) :
    ∃ os, (s.tell label e work).host = s.host ∧ (s.tell label e work).trace = os ++ s.trace ∧
      ∀ o ∈ os, ∀ t, o.tells? = some t → e.ticket = t := by
  have hmismatch : ∀ name : String, ∃ os,
      ((s.note .host [.callbackMismatched label]).record
        (.dropped (some e.ticket) name)).host = s.host ∧
      ((s.note .host [.callbackMismatched label]).record
        (.dropped (some e.ticket) name)).trace = os ++ s.trace ∧
      ∀ o ∈ os, ∀ t, o.tells? = some t → e.ticket = t := fun name =>
    ⟨[.dropped (some e.ticket) name, .logged (.callbackMismatched label)], rfl, rfl,
      by simp [Occurrence.tells?]⟩
  have hrow : ∀ answer, ∃ os, (s.tellRow label e answer).host = s.host ∧
      (s.tellRow label e answer).trace = os ++ s.trace ∧
      ∀ o ∈ os, ∀ t, o.tells? = some t → e.ticket = t := by
    intro answer
    cases hcallback : e.callback with
    | promotion name hides =>
      simp only [tellRow, hcallback]
      exact hmismatch name
    | row name executor =>
      refine ⟨[.row e.ticket name answer.1 answer.2], ?_, ?_, by simp [Occurrence.tells?]⟩
      all_goals
        simp only [tellRow, hcallback]
        split <;> rfl
  cases work with
  | promoted error =>
    cases hcallback : e.callback with
    | promotion name hides =>
      simp only [tell, hcallback]
      exact ⟨[_], rfl, rfl, by simp [Occurrence.tells?]⟩
    | row name executor =>
      simp only [tell, hcallback]
      exact hmismatch name
  | row row => exact hrow row.marshal
  | failed error => exact hrow (none, some error)

/-- A callback runs only if its message has found it in the slot. -/
theorem run_of_dispatch {host : Host Callback Work} {message : Message Work} {label : String}
    {e : Entry Callback} {work : Work} (h : (host.dispatch message).1 = .run label e work) :
    message.work? = some work ∧ host.registry.get? message.key = some e := by
  cases message with
  | release key label' ticket => cases h
  | call key label' ticket work' =>
    simp only [Host.dispatch] at h
    split at h
    · cases h
    · split at h
      · next entry registry hremove =>
        cases h
        refine ⟨rfl, ?_⟩
        rw [Message.key, ← Registry.remove_fst, hremove]
      · cases h

/-- The host handles the oldest message, and of the callbacks only the one that it calls is told
something. -/
theorem dispatch_spec {message : Message Work} {rest : List (Message Work)}
    (hqueue : s.host.queue = message :: rest) : ∃ os,
      s.dispatch.2.host =
        (({ s.host with queue := rest } : Host Callback Work).dispatch message).2 ∧
      s.dispatch.2.trace = os ++ s.trace ∧
      ∀ o ∈ os, ∀ t, o.tells? = some t → ∃ e work,
        message.work? = some work ∧ s.host.registry.get? message.key = some e ∧ e.ticket = t := by
  unfold State.dispatch Host.receive
  generalize hdispatch : ({ s.host with queue := rest } : Host Callback Work).dispatch message =
    dispatched
  obtain ⟨fate, host⟩ := dispatched
  simp only [hqueue, hdispatch]
  split
  · -- the message was a call, and its slot was full
    next label e work =>
    obtain ⟨hwork, he⟩ := run_of_dispatch (congrArg Prod.fst hdispatch)
    obtain ⟨os, htold, htrace, hos⟩ :=
      tell_spec ({ s with host }.note .host [.callbackInvoked label]) label e work
    refine ⟨os ++ [.logged (.callbackInvoked label)], htold,
      htrace.trans (by simp [note, record]), fun o ho t ht => ?_⟩
    rcases List.mem_append.mp ho with ho | ho
    · exact ⟨e, work, hwork, he, hos o ho t ht⟩
    · obtain rfl := List.mem_singleton.mp ho
      cases ht
  · next label e =>
    refine ⟨[.dropped (some e.ticket) e.callback.name, .logged (.callbackReleased label)], rfl, rfl,
      ?_⟩
    simp [Occurrence.tells?]
  · refine ⟨[.logged fate.notice], rfl, rfl, ?_⟩
    simp [Occurrence.tells?]

theorem moves_dispatch (s : State) : Moves s s.dispatch.2 := by
  cases hqueue : s.host.queue with
  | nil =>
    have heq : s.dispatch.2 = s := by simp [State.dispatch, Host.receive, hqueue]
    rw [heq]
  | cons message rest =>
    obtain ⟨os, hhost, htrace, hos⟩ := dispatch_spec hqueue
    exact .single (.handle hqueue hhost htrace hos)

theorem moves_dispatches (n : Nat) (s : State) : Moves s (s.dispatches n).2 := by
  induction n generalizing s with
  | zero => exact .refl
  | succ n ih => exact (moves_dispatch s).trans (ih s.dispatch.2)

theorem drops_spec (entries : List (Entry Callback)) (s : State) :
    let dropped :=
      entries.foldl (fun s e => s.record (.dropped (some e.ticket) e.callback.name)) s
    dropped.host = s.host ∧
      ∃ os, dropped.trace = os ++ s.trace ∧ ∀ o ∈ os, o.tells? = none := by
  induction entries generalizing s with
  | nil => exact ⟨rfl, [], rfl, by simp⟩
  | cons e entries ih =>
    obtain ⟨hhost, os, htrace, hos⟩ := ih (s.record (.dropped (some e.ticket) e.callback.name))
    refine ⟨hhost, os ++ [.dropped (some e.ticket) e.callback.name],
      htrace.trans (by simp [record]), List.forall_mem_append.mpr ⟨hos, ?_⟩⟩
    simp [Occurrence.tells?]

theorem teardown_spec (s : State) : s.teardown.host = s.host.teardown.2 ∧
    ∃ os, s.teardown.trace = os ++ s.trace ∧ ∀ o ∈ os, o.tells? = none := by
  unfold State.teardown
  cases hclosed : s.host.closed with
  | true =>
    have htorn : s.host.teardown = (none, s.host) := by simp [Host.teardown, hclosed]
    rw [htorn]
    exact ⟨rfl, [], rfl, by simp⟩
  | false =>
    simp only [Host.teardown, hclosed, Bool.false_eq_true, if_false]
    generalize hnoted : State.note _ _ _ = noted
    obtain ⟨hhost, os, htrace, hos⟩ := drops_spec s.host.registry.contents noted
    subst hnoted
    refine ⟨hhost, os ++ [.logged (.hostTornDown s.host.queue.length
      s.host.registry.contents.length)], htrace.trans (by simp [note, record]),
      List.forall_mem_append.mpr ⟨hos, ?_⟩⟩
    simp [Occurrence.tells?]

theorem moves_teardown (s : State) : Moves s s.teardown := by
  obtain ⟨hhost, os, htrace, hos⟩ := teardown_spec s
  exact .single (.teardown hhost htrace hos)

theorem closed_teardown (s : State) : s.teardown.host.closed = true := by
  rw [(teardown_spec s).1, Host.teardown]
  split
  · next hclosed => exact hclosed
  · rfl

/-! ## Completions of the engine -/

theorem moves_promote (s : State) (place : Place) (p : Promotion) (stream : Option Nat)
    (error : Option EngineError) : Moves s (s.promote place p stream error) := by
  simp only [promote]
  split
  · exact (moves_note _ _ _).trans (moves_release _ _)
  · refine moves_after (moves_invoke _ _ _ _) ?_ ?_
    all_goals split <;> rfl

theorem moves_clusterClosed (s : State) (place : Place) (i : Nat) :
    Moves s (s.clusterClosed place i) := by
  simp only [clusterClosed]
  split
  · exact .refl
  · next x _ =>
    split
    · exact moves_note _ _ _
    · next y _ =>
      have hstop : Moves s { s.modifyInstance i fun _ => y with
          engine := (s.modifyInstance i fun _ => y).engine.stop x.loop } := moves_same rfl rfl
      have hstopped := hstop.trans (moves_note _ place
        ((s.modifyInstance i fun _ => y).engine.loop x.loop).stopNotices)
      split
      · exact moves_before hstopped rfl rfl
      · refine ReflTransGen.trans ?_ (moves_note _ place _)
        exact moves_before hstopped rfl rfl

theorem moves_complete (s : State) (place : Place) (c : Completion) :
    Moves s (s.complete place c) := by
  cases c with
  | promoted p stream error => exact moves_promote s place p stream error
  | row cookie row => exact moves_invoke s place cookie (.row row)
  | closed i => exact moves_clusterClosed s place i

theorem moves_took (s : State) (outcome : Option Completion × Engine.State Promotion Cookie Nat) :
    Moves s (s.took outcome) := by
  have hengine : Moves s { s with engine := outcome.2 } := moves_same rfl rfl
  simp only [took]
  split
  · exact hengine
  · exact (hengine.trans (moves_note _ _ _)).trans (moves_complete _ _ _)

theorem moves_turn (s : State) (l : Nat) : Moves s (s.turn l) := by
  have hengine : Moves s { s with engine := (s.engine.turn l).2 } := moves_same rfl rfl
  simp only [turn]
  split
  · exact hengine
  · exact hengine.trans (moves_complete _ _ _)

/-! ## Calls of the host -/

theorem moves_promoteManual (s : State) (n l : Nat) (p : Promotion) (rows : Option (List Row))
    (metadata : Metadata) (error : Option EngineError) :
    Moves s (s.promoteManual n l p rows metadata error) := by
  simp only [promoteManual]
  split
  · exact moves_promote _ _ _ _ _
  · exact moves_after (moves_promote _ _ _ _ _) rfl rfl

theorem moves_executeManual (s : State) (n l : Nat) (request : Request) (p : Promotion) :
    Moves s (s.executeManual n l request p).2 := by
  have hreleases : ∀ (previous : Option Promotion) (s : State),
      Moves s (previous.toList.foldl (fun s q => s.release q.cookie) s) := by
    intro previous s
    cases previous with
    | none => exact .refl
    | some q => exact moves_release s q.cookie
  simp only [executeManual]
  split
  · exact moves_release _ _
  · split
    · exact moves_after (moves_release _ _) rfl rfl
    · split
      · exact moves_after (moves_promoteManual _ _ _ _ _ _ _) rfl rfl
      · exact moves_after (hreleases _ _) rfl rfl
      · exact moves_after (moves_release _ _) rfl rfl

theorem moves_execute (s : State) (x : Instance) (request : Request) (p : Promotion) :
    Moves s (s.execute x request p).2 := by
  simp only [execute]
  split
  · split
    · exact moves_release _ _
    · exact moves_took _ _
  · exact moves_executeManual _ _ _ _ _

theorem moves_submit (s : State) (i : Nat) (request : Request) (callback : Callback) :
    Moves s (s.submit i request callback).2 := by
  simp only [submit]
  split
  · exact moves_dropped _ _ _
  · split
    · exact moves_dropped _ _ _
    · next x _ _ _ =>
      have hregister := (moves_register (s.addResult .empty).2 queryLabel callback).trans
        (moves_note _ .host [.querySubmitted request.statement])
      have hexecute := (moves_after (s := s) hregister rfl rfl).trans (moves_execute _ x request
        ⟨(s.addResult .empty).1, ((s.addResult .empty).2.register queryLabel callback).1⟩)
      generalize execute _ x request _ = executed at hexecute ⊢
      obtain ⟨_ | operation, s'⟩ := executed
      · exact moves_before hexecute rfl rfl
      · exact hexecute

theorem moves_nextRow (s : State) (r : Nat) (callback : Callback) :
    Moves s (s.nextRow r callback) := by
  have hregister := moves_register s rowLabel callback
  simp only [nextRow]
  split
  · exact hregister.trans (moves_invoke _ _ _ _)
  · exact hregister.trans (moves_took _ _)

theorem moves_attach (s : State) (r : Nat) (operation : Operation) :
    Moves s (s.attach r operation) :=
  moves_before (moves_note s .host _) rfl rfl

theorem moves_strike (s : State) (target : Target) : Moves s (s.strike target) := by
  refine moves_same ?_ ?_
  all_goals
    cases target with
    | empty | active => rfl
    | pending operation => cases operation <;> rfl

theorem moves_create (s : State) (c : Nat) (options : Options) :
    Moves s (s.create (.memory c) options).2 := by
  unfold create
  cases hvalid : options.validate with
  | error fault => exact .refl
  | ok u =>
    have hconnect := moves_note s .host [.clusterConnected options.connection]
    simp only [connect, hvalid]
    split
    · exact hconnect
    · exact moves_before (hconnect.trans (moves_note _ .host
        [.instanceStarted options.connection options.threadName])) rfl rfl

theorem moves_destroy (s : State) (i : Nat) : Moves s (s.destroy i).2 := by
  simp only [destroy]
  split
  · exact .refl
  · next x _ =>
    split
    · exact moves_note s .host [.destroyRefused x.state]
    · split
      · simp only [close]
        split
        · exact moves_after (moves_took _ _) rfl rfl
        · exact moves_same rfl rfl
      · exact moves_same rfl rfl

theorem moves_dropConnection (s : State) (i : Nat) : Moves s (s.dropConnection i) := by
  simp only [dropConnection]
  split
  · exact .refl
  · split
    · exact moves_destroy s i
    · exact .refl

end State

/-! ## Events -/

namespace Moment

variable {m : Moment}

theorem moves_submitted (m : Moment) (k : Option Nat) (i : Nat) (callback : Callback)
    {submitted : Except Error (Nat × Operation) × State} (h : m.state.Moves submitted.2) :
    m.state.Moves (m.submitted k i callback submitted).state := by
  obtain ⟨_ | ⟨r, operation⟩, state⟩ := submitted
  · simp only [Moment.submitted]
    split <;> exact h
  · exact h

theorem moves_act (m : Moment) (deed : Deed) : m.state.Moves (m.act deed).state := by
  cases deed with
  | connector | dropResult | executor => exact State.moves_same rfl rfl
  | respond c response =>
    simp only [act]
    split
    · exact State.moves_same rfl rfl
    · exact .refl
  | create c options => exact State.moves_create m.state c options
  | query i request name => exact moves_submitted m _ _ _ (State.moves_submit _ _ _ _)
  | next r name => exact State.moves_nextRow m.state r _
  | cancel r =>
    simp only [act]
    split <;> exact .refl
  | executorQuery e i request name =>
    refine moves_submitted m _ _ _ ?_
    simp only [State.executorSubmit]
    split
    · exact State.moves_dropped _ _ _
    · exact State.moves_submit _ _ _ _
  | executorNext e name =>
    simp only [act]
    split
    · next hresult =>
      simp only [State.executorNext, hresult]
      exact State.moves_dropped _ _ _
    · exact State.moves_nextRow m.state _ _
  | executorAbort e =>
    simp only [act]
    split <;> exact .refl
  | dropExecutor e =>
    simp only [act, having, State.dropExecutor]
    split
    · exact .refl
    · exact State.moves_same rfl rfl
  | destroy i => exact State.moves_destroy m.state i
  | dropConnection i => exact State.moves_dropConnection m.state i
  | dispatch => exact State.moves_dispatch m.state

theorem moves_resume (m : Moment) : m.state.Moves m.resume.state := by
  simp only [resume]
  split
  · exact .refl
  · exact State.moves_attach _ _ _
  · next e r operation _ =>
    exact State.moves_before (State.moves_attach m.state r operation) rfl rfl
  · exact State.moves_strike _ _
  · next e r target _ =>
    exact State.moves_before (State.moves_strike m.state target) rfl rfl

theorem moves_perform (m : Moment) (event : Event) : m.state.Moves (m.perform event).state := by
  cases event with
  | act deed =>
    simp only [perform]
    split
    · exact moves_act m deed
    · exact .refl
  | resume => exact moves_resume m
  | turn l => exact State.moves_turn m.state l
  | elapse l key =>
    simp only [perform]
    split
    · exact State.moves_same rfl rfl
    · exact .refl
  | reap i =>
    simp only [perform, having, State.reap]
    split
    · exact .refl
    · exact State.moves_same rfl rfl
  | reapers fault => exact State.moves_same rfl rfl

end Moment

/-! ## What moves keep -/

namespace State

variable {s s' : State} {key t : Nat} {e : Entry Callback} {host : Host Callback Work}

/-- A message that is handled takes at most its own slot away, and a release does. -/
theorem host_dispatch (host : Host Callback Work) (message : Message Work) :
    (host.dispatch message).2.queue = host.queue ∧
    (host.dispatch message).2.closed = host.closed ∧
    (host.dispatch message).2.issued = host.issued ∧
    ∀ key e, (host.dispatch message).2.registry.get? key = some e →
      host.registry.get? key = some e ∧ (message.work? = none → key ≠ message.key) := by
  have hremove : ∀ {k key : Nat} {e : Entry Callback},
      (host.registry.remove k).2.get? key = some e →
        host.registry.get? key = some e ∧ key ≠ k := by
    intro k key e he
    rw [Registry.get?_remove] at he
    split at he
    · cases he
    · next hne => exact ⟨he, hne⟩
  cases message with
  | release k label ticket =>
    exact ⟨rfl, rfl, rfl, fun key e he => ⟨(hremove he).1, fun _ => (hremove he).2⟩⟩
  | call k label ticket work =>
    simp only [Host.dispatch]
    split
    · exact ⟨rfl, rfl, rfl, fun key e he => ⟨he, by simp [Message.work?]⟩⟩
    · split
      · next e' registry hentry =>
        refine ⟨rfl, rfl, rfl, fun key e he => ⟨(hremove (k := k) ?_).1, by simp [Message.work?]⟩⟩
        rw [hentry]
        exact he
      · exact ⟨rfl, rfl, rfl, fun key e he => ⟨he, by simp [Message.work?]⟩⟩

theorem host_teardown (host : Host Callback Work) :
    host.teardown.2 = host ∨
      host.teardown.2 = { host with closed := true, queue := [], registry := {} } := by
  unfold Host.teardown
  split
  · exact Or.inl rfl
  · exact Or.inr rfl

theorem queue_invoke (host : Host Callback Work) (cookie : Cookie) (work : Work) :
    ∃ after, (host.invoke cookie work).2 = { host with queue := host.queue ++ after } := by
  unfold Host.invoke
  split
  · exact ⟨[], by simp⟩
  · split
    · exact ⟨[], by simp⟩
    · exact ⟨_, rfl⟩

theorem queue_release (host : Host Callback Work) (cookie : Cookie) :
    ∃ after, host.release cookie = { host with queue := host.queue ++ after } := by
  unfold Host.release
  split
  · exact ⟨[], by simp⟩
  · split
    · exact ⟨[], by simp⟩
    · exact ⟨_, rfl⟩

theorem host_register (host : Host Callback Work) (label : String) (callback : Callback) :
    ∃ registry, (host.register label callback).2 =
        { host with registry, issued := host.issued + 1 } ∧
      ∀ key e, registry.get? key = some e →
        host.registry.get? key = some e ∨ e.ticket = host.issued := by
  unfold Host.register
  split
  · exact ⟨_, rfl, fun key e he => Or.inl he⟩
  · exact ⟨_, rfl, fun key e he => (Registry.of_get?_insert he).imp_right fun h => by rw [h]⟩

/-- Tickets are the numbers of registrations. -/
structure Numbered (s : State) : Prop where
  /-- What a slot holds was registered. -/
  slots : ∀ key e, s.host.registry.get? key = some e → e.ticket < s.host.issued
  /-- Who was told something was registered. -/
  told : ∀ o ∈ s.trace, ∀ t, o.tells? = some t → t < s.host.issued

/-- A callback was told nothing, and if a slot still holds it, its release comes before any other
message about that slot. -/
structure Discarded (s : State) (t : Nat) : Prop where
  /-- It was registered. -/
  issued : t < s.host.issued
  /-- It was told nothing. -/
  silent : ∀ o ∈ s.trace, o.tells? ≠ some t
  /-- Its release comes first. -/
  released : ∀ key e, s.host.registry.get? key = some e → e.ticket = t →
    ∃ before label ticket after, s.host.queue = before ++ .release key label ticket :: after ∧
      ∀ message ∈ before, message.key ≠ key

theorem Move.closed (h : Move s s') (hclosed : s.host.closed = true) : s'.host.closed = true := by
  cases h with
  | log _ hhost => rw [hhost, hclosed]
  | register label callback hhost => rw [hhost, Host.register_closed, hclosed]
  | invoke cookie work hhost => rw [hhost, Host.invoke_closed, hclosed]
  | release cookie hhost => rw [hhost, Host.release_closed, hclosed]
  | handle _ hhost =>
    rw [hhost, (host_dispatch _ _).2.1]
    exact hclosed
  | teardown hhost =>
    rw [hhost]
    rcases host_teardown s.host with heq | heq
    · rw [heq, hclosed]
    · rw [heq]

/-- The trace grows, and only a callback whose call is handled is told something. -/
theorem Move.grows (h : Move s s') : ∃ os, s'.trace = os ++ s.trace ∧
    ∀ o ∈ os, ∀ t, o.tells? = some t → ∃ message rest e work,
      s.host.queue = message :: rest ∧ message.work? = some work ∧
      s.host.registry.get? message.key = some e ∧ e.ticket = t := by
  cases h with
  | log _ _ htrace hos | teardown _ htrace hos =>
    refine ⟨_, htrace, fun o ho t ht => ?_⟩
    rw [hos o ho] at ht
    cases ht
  | register _ _ _ htrace | invoke _ _ _ htrace | release _ _ htrace => exact ⟨[], htrace, by simp⟩
  | handle hqueue _ htrace hos =>
    refine ⟨_, htrace, fun o ho t ht => ?_⟩
    obtain ⟨e, work, hwork, he, hticket⟩ := hos o ho t ht
    exact ⟨_, _, e, work, hqueue, hwork, he, hticket⟩

/-- Registrations are counted, and a slot is filled by a registration only. -/
theorem Move.fills (h : Move s s') : s.host.issued ≤ s'.host.issued ∧
    ∀ key e, s'.host.registry.get? key = some e → s.host.registry.get? key = some e ∨
      e.ticket = s.host.issued ∧ s'.host.issued = s.host.issued + 1 := by
  cases h with
  | log _ hhost =>
    rw [hhost]
    exact ⟨Nat.le_refl _, fun key e he => Or.inl he⟩
  | register label callback hhost =>
    obtain ⟨registry, heq, hslots⟩ := host_register s.host label callback
    rw [hhost, heq]
    exact ⟨Nat.le_succ _, fun key e he => (hslots key e he).imp_right fun h => ⟨h, rfl⟩⟩
  | invoke cookie work hhost =>
    obtain ⟨after, heq⟩ := queue_invoke s.host cookie work
    rw [hhost, heq]
    exact ⟨Nat.le_refl _, fun key e he => Or.inl he⟩
  | release cookie hhost =>
    obtain ⟨after, heq⟩ := queue_release s.host cookie
    rw [hhost, heq]
    exact ⟨Nat.le_refl _, fun key e he => Or.inl he⟩
  | handle _ hhost =>
    obtain ⟨-, -, hissued, hslots⟩ := host_dispatch { s.host with queue := _ } _
    rw [hhost]
    exact ⟨Nat.le_of_eq hissued.symm, fun key e he => Or.inl (hslots key e he).1⟩
  | teardown hhost =>
    rw [hhost]
    rcases host_teardown s.host with heq | heq
    · rw [heq]
      exact ⟨Nat.le_refl _, fun key e he => Or.inl he⟩
    · rw [heq]
      exact ⟨Nat.le_refl _, by simp⟩

theorem Numbered.move (h : s.Numbered) (hmove : Move s s') : s'.Numbered := by
  obtain ⟨hissued, hslots⟩ := hmove.fills
  obtain ⟨os, htrace, hos⟩ := hmove.grows
  refine ⟨fun key e he => ?_, fun o ho t ht => ?_⟩
  · rcases hslots key e he with he | ⟨hticket, hnext⟩
    · exact Nat.lt_of_lt_of_le (h.slots key e he) hissued
    · omega
  · refine Nat.lt_of_lt_of_le ?_ hissued
    rw [htrace] at ho
    rcases List.mem_append.mp ho with ho | ho
    · obtain ⟨message, rest, e, work, -, -, he, rfl⟩ := hos o ho t ht
      exact h.slots _ e he
    · exact h.told o ho t ht

/-- The messages stay in their order: new ones come last, and the oldest one leaves. -/
theorem Move.queue (h : Move s s') (he : s'.host.registry.get? key = some e) :
    (∃ after, s'.host.queue = s.host.queue ++ after) ∨
      ∃ message, s.host.queue = message :: s'.host.queue ∧
        (message.work? = none → key ≠ message.key) := by
  cases h with
  | log _ hhost => exact Or.inl ⟨[], by simp [hhost]⟩
  | register label callback hhost =>
    obtain ⟨registry, heq, -⟩ := host_register s.host label callback
    exact Or.inl ⟨[], by simp [hhost, heq]⟩
  | invoke cookie work hhost =>
    obtain ⟨after, heq⟩ := queue_invoke s.host cookie work
    exact Or.inl ⟨after, by rw [hhost, heq]⟩
  | release cookie hhost =>
    obtain ⟨after, heq⟩ := queue_release s.host cookie
    exact Or.inl ⟨after, by rw [hhost, heq]⟩
  | @handle message rest os hqueue hhost =>
    obtain ⟨hrest, -, -, hslots⟩ := host_dispatch { s.host with queue := rest } message
    rw [hhost] at he
    refine Or.inr ⟨message, ?_, (hslots key e he).2⟩
    rw [hhost, hrest, hqueue]
  | teardown hhost =>
    rcases host_teardown s.host with heq | heq
    · exact Or.inl ⟨[], by simp [hhost, heq]⟩
    · simp [hhost, heq] at he

theorem Discarded.move (h : s.Discarded t) (hmove : Move s s') : s'.Discarded t := by
  obtain ⟨hissued, hslots⟩ := hmove.fills
  obtain ⟨os, htrace, hos⟩ := hmove.grows
  refine ⟨Nat.lt_of_lt_of_le h.issued hissued, fun o ho ht => ?_, fun key e he hticket => ?_⟩
  · rw [htrace] at ho
    rcases List.mem_append.mp ho with ho | ho
    · -- a call that finds the callback would come before its release
      obtain ⟨message, rest, e, work, hqueue, hwork, he, hticket⟩ := hos o ho t ht
      obtain ⟨before, label, ticket, after, hsplit, hbefore⟩ := h.released _ e he hticket
      rw [hqueue] at hsplit
      cases before with
      | nil =>
        rw [(List.cons.inj hsplit).1] at hwork
        cases hwork
      | cons first before =>
        obtain ⟨rfl, -⟩ := List.cons.inj hsplit
        exact hbefore _ List.mem_cons_self rfl
    · exact h.silent o ho ht
  · have hold : s.host.registry.get? key = some e :=
      (hslots key e he).resolve_right fun ⟨hnew, _⟩ => by
        have := h.issued
        omega
    obtain ⟨before, label, ticket, after, hsplit, hbefore⟩ := h.released key e hold hticket
    rcases hmove.queue he with ⟨new, hqueue⟩ | ⟨message, hqueue, hkept⟩
    · exact ⟨before, label, ticket, after ++ new, by simp [hqueue, hsplit], hbefore⟩
    · rw [hsplit] at hqueue
      cases before with
      | nil =>
        -- the release itself was handled, and took the callback away
        obtain ⟨rfl, -⟩ := List.cons.inj hqueue
        exact absurd rfl (hkept rfl)
      | cons first before =>
        obtain ⟨-, hrest⟩ := List.cons.inj hqueue
        exact ⟨before, label, ticket, after, hrest.symm, fun message hmem =>
          hbefore message (List.mem_cons_of_mem _ hmem)⟩

theorem Moves.closed (h : Moves s s') (hclosed : s.host.closed = true) :
    s'.host.closed = true := by
  induction h with
  | refl => exact hclosed
  | tail _ hlast ih => exact hlast.closed ih

theorem Numbered.moves (h : s.Numbered) (hmoves : Moves s s') : s'.Numbered := by
  induction hmoves with
  | refl => exact h
  | tail _ hlast ih => exact ih.move hlast

theorem Discarded.moves (h : s.Discarded t) (hmoves : Moves s s') : s'.Discarded t := by
  induction hmoves with
  | refl => exact h
  | tail _ hlast ih => exact ih.move hlast

/-! ## Polls -/

/-- Every message of an open host empties its slot. -/
theorem get?_dispatch (hopen : host.closed = false) (message : Message Work) (key : Nat) :
    (host.dispatch message).2.registry.get? key =
      if key = message.key then none else host.registry.get? key := by
  rw [← Registry.get?_remove]
  cases message with
  | release => rfl
  | call k label ticket work =>
    simp only [Host.dispatch, hopen, Bool.false_eq_true, if_false, Message.key]
    split
    · next hremove => rw [hremove]
    · next hremove =>
      have hnone : host.registry.get? k = none := by
        rw [← Registry.remove_fst, hremove]
      simp [Registry.remove, hnone]

theorem queue_dispatches (n : Nat) (s : State) :
    (s.dispatches n).2.host.queue = s.host.queue.drop n := by
  induction n generalizing s with
  | zero => rfl
  | succ n ih =>
    have hdispatches : (s.dispatches (n + 1)).2 = (s.dispatch.2.dispatches n).2 := rfl
    rw [hdispatches, ih]
    cases hqueue : s.host.queue with
    | nil => simp [State.dispatch, Host.receive, hqueue]
    | cons message rest =>
      obtain ⟨os, hhost, -⟩ := dispatch_spec hqueue
      rw [hhost, (host_dispatch _ message).1, List.drop_succ_cons]

theorem get?_dispatches (n : Nat) (hopen : s.host.closed = false) (key : Nat) :
    (s.dispatches n).2.host.registry.get? key =
      if key ∈ (s.host.queue.take n).map Message.key then none else s.host.registry.get? key := by
  induction n generalizing s with
  | zero => simp [dispatches]
  | succ n ih =>
    have hdispatches : (s.dispatches (n + 1)).2 = (s.dispatch.2.dispatches n).2 := rfl
    cases hqueue : s.host.queue with
    | nil =>
      have hsame : s.dispatch.2 = s := by simp [State.dispatch, Host.receive, hqueue]
      rw [hdispatches, hsame, ih hopen, hqueue]
      simp
    | cons message rest =>
      obtain ⟨os, hhost, -⟩ := dispatch_spec hqueue
      obtain ⟨hrest, hclosed, -, -⟩ := host_dispatch { s.host with queue := rest } message
      have hopen' : s.dispatch.2.host.closed = false := by
        rw [hhost, hclosed]
        exact hopen
      have hslot := @get?_dispatch { s.host with queue := rest } hopen message key
      rw [hdispatches, ih hopen', hhost, hslot, hrest]
      by_cases hkey : key = message.key <;> simp [hkey]

/-- A poll of an open host empties the slots that the messages name, and no other. -/
theorem get?_poll (hopen : s.host.closed = false) (key : Nat) :
    s.poll.2.host.registry.get? key =
      if key ∈ s.host.queue.map Message.key then none else s.host.registry.get? key := by
  rw [State.poll, get?_dispatches _ hopen, List.take_length]

/-- A poll takes the release of a discarded callback as well. -/
theorem Discarded.poll (h : s.Discarded t) (he : s.poll.2.host.registry.get? key = some e) :
    e.ticket ≠ t := by
  intro hticket
  have hpolled : s.poll.2.Discarded t := h.moves (moves_dispatches _ s)
  obtain ⟨before, label, ticket, after, hsplit, -⟩ := hpolled.released key e he hticket
  have hempty : s.poll.2.host.queue = [] := by
    rw [State.poll, queue_dispatches, List.drop_length]
  simp [hempty] at hsplit

end State

end HostBridge.Session
