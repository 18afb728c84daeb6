import HostBridge.Proofs.Session.Step

/-!
# Events are moves

Each event of a run is taken apart into the moves of `Step`. This is the only place where the calls
of the host are unfolded.
-/

namespace HostBridge.Session.Moment

open Bridge (Cookie Entry Host Message)
open Relation (ReflTransGen)

variable {m m' : Moment}

/-- Something that only logs is a move. -/
theorem step_log (m : Moment) (os : List Occurrence) (hos : ∀ o ∈ os, o.isIdle = true) :
    m.Step (m.having { m.state with trace := os ++ m.state.trace }) :=
  .note hos

/-- Something that only concerns executors is a move. -/
theorem step_executors (m : Moment) (executors : List Executor) :
    m.Step (m.having { m.state with executors }) := by
  have hnone : ∀ o ∈ ([] : List Occurrence), o.isIdle = true := by simp
  exact .note hnone

/-! ## Queries -/

/-- An instance takes queries only while it is running. -/
theorem running_of_agent {x : Instance} (h : State.agent x = .ok ()) : x.state = .running := by
  unfold State.agent at h
  split at h <;> first | assumption | cases h

theorem modify_last {α : Type} (xs : List α) (x : α) (f : α → α) :
    (xs ++ [x]).modify xs.length f = xs ++ [f x] := by
  induction xs with
  | nil => rfl
  | cons y xs ih => simpa using ih

/-- A loop that was not asked to stop takes the promotion of a query over. -/
theorem execute_eq {engine : Engine.State Promotion Cookie Nat} {c i : Nat} {request : Request}
    {response : Engine.Response} {responses : List Engine.Response}
    (hresponses : (engine.connector c).responses = response :: responses)
    (hstop : (engine.loop i).stopping = false) (p : Promotion) :
    engine.execute c i request p = .ok ((engine.connector c).operations.length, none,
      (engine.accepting c request responses).spawned i
        (.promote c (engine.connector c).operations.length response .fresh p)) := by
  have hstop' : ((engine.accepting c request responses).loop i).stopping = false := hstop
  simp only [Engine.State.execute, hresponses]
  exact congrArg (fun x => Except.ok (_, x)) (Engine.State.submit_of_not_stopping hstop' _)

theorem execute_refused {engine : Engine.State Promotion Cookie Nat} {c : Nat}
    (hresponses : (engine.connector c).responses = []) (i : Nat) (request : Request)
    (p : Promotion) :
    engine.execute c i request p = .error (Engine.noResponse request.statement) := by
  simp only [Engine.State.execute, hresponses]

theorem steps_submit (h : m.Footing) (e : Option Nat) (i : Nat) (request : Request) (name : String)
    (hides : Bool) :
    m.Steps (m.submitted e i (.promotion name hides)
      (m.state.submit i request (.promotion name hides))) := by
  have hunseen : ∀ fault : Error, m.Steps (m.submitted e i (.promotion name hides)
      (.error fault, m.state.record (.dropped none name))) := by
    intro fault
    have hissued : (m.state.record (.dropped none name)).host.issued = m.state.host.issued := rfl
    simp only [submitted, hissued, if_true]
    exact .single (step_log m [.dropped none name] (by simp [Occurrence.isIdle]))
  unfold State.submit
  cases hx : m.state.instances[i]? with
  | none => exact hunseen _
  | some x =>
    simp only
    cases hagent : State.agent x with
    | error fault => exact hunseen fault
    | ok u =>
      have hrunning := running_of_agent hagent
      obtain ⟨-, hloop, ⟨c, hc⟩, hstop⟩ := h.running i x hx hrunning
      obtain ⟨key, hregister⟩ := State.register_eq (s := { m.state with
        results := m.state.results ++ [{}] }) h.opened queryLabel (.promotion name hides)
      have hlog : ∀ o ∈ [Occurrence.logged (.querySubmitted request.statement),
          .logged (.callbackRegistered queryLabel key)], o.isIdle = true := by
        simp [Occurrence.isIdle, isFault]
      simp only [State.addResult, hregister, State.note_host, State.execute, hc, hloop]
      cases hresponses : (m.state.engine.connector c).responses with
      | nil =>
        rw [execute_refused hresponses]
        have hissued : ((m.state.host.register queryLabel (.promotion name hides)).2.release
            (m.state.host.register queryLabel (.promotion name hides)).1).issued ≠
              m.state.host.issued := by simp
        have hresults := modify_last m.state.results { target := .empty }
          fun q => { q with alive := false }
        refine ReflTransGen.tail (.single (@Step.refuse m name hides)) ?_
        simp only [submitted, State.release, State.dropResult, State.modifyResult, hresults]
        rw [if_neg hissued]
        exact step_log _ _ hlog
      | cons response responses =>
        rw [execute_eq hresponses hstop]
        have haccept := @Step.accept m e i c x request name hides response responses hx hrunning hc
          hresponses
        exact ReflTransGen.tail (.single haccept) (step_log _ _ hlog)

/-! ## Rows -/

theorem steps_next (h : m.Footing) (r : Nat) (name : String) (e : Option Nat) :
    m.Steps (m.next r (.row name e)) := by
  obtain ⟨key, hregister⟩ := State.register_eq h.opened rowLabel (.row name e)
  have hlog : ∀ o ∈ [Occurrence.logged (.callbackRegistered rowLabel key)], o.isIdle = true := by
    simp [Occurrence.isIdle, isFault]
  have hopen : (m.state.host.register rowLabel (.row name e)).2.closed = false := by
    rw [Host.register_closed]
    exact h.opened
  unfold next State.nextRow
  simp only [hregister]
  have htarget : ∀ host trace, ({ m.state with host, trace } : State).target? r =
      m.state.target? r := fun _ _ => rfl
  cases hstream : (m.state.target? r).bind Target.stream? with
  | none =>
    simp only [htarget, hstream, Option.bind_none, State.observe]
    rw [State.invoke_eq hopen]
    exact ReflTransGen.tail (.single (@Step.askEarly m r name e hstream)) (step_log _ _ hlog)
  | some i =>
    have hactive : m.state.target? r = some (.active i) := by
      obtain ⟨target, ht, hi⟩ := Option.bind_eq_some_iff.mp hstream
      cases target <;> simp_all [Target.stream?]
    obtain ⟨x, hx⟩ := h.stream r i hactive
    simp only [htarget, hstream, Option.bind_some, Engine.State.pull, hx]
    cases hstop : (m.state.engine.loop x.loop).stopping with
    | false =>
      simp only [Engine.State.submit_of_not_stopping hstop, State.observe]
      exact ReflTransGen.tail (.single (@Step.ask m r i x name e hactive hx hstop))
        (step_log _ _ hlog)
    | true =>
      simp only [Engine.State.submit_of_stopping hstop, Engine.Task.abandoned?, State.observe]
      have hrejected : ∀ o ∈ [Occurrence.logged .taskRejected,
          .logged (.callbackRegistered rowLabel key)], o.isIdle = true := by
        simp [Occurrence.isIdle, isFault]
      simp only [State.took, State.note_host, State.complete, Host.register_ticket]
      rw [State.invoke_eq hopen]
      exact ReflTransGen.tail (.single (@Step.askLate m r i x name e hactive hx hstop))
        (step_log _ _ hrejected)

/-! ## The shutdown of an instance -/

theorem steps_destroy (h : m.Footing) (i : Nat) : m.Steps (m.having (m.state.destroy i).2) := by
  unfold State.destroy
  cases hx : m.state.instances[i]? with
  | none => exact .refl
  | some x =>
    simp only [Instance.transit?]
    by_cases hrunning : x.state = .running
    · obtain ⟨hengine, hloop, ⟨c, hc⟩, hstop⟩ := h.running i x hx hrunning
      have hclose := @Step.close m i c x hx hrunning hc
      have hstop' : ((m.state.engine.closing c).loop i).stopping = false := by
        rw [(Engine.State.woken_closing m.state.engine c).stopping]
        exact hstop
      simp only [hrunning, if_true, hengine, State.close, hc, hloop, State.modifyInstance,
        Engine.State.close_eq, Engine.State.submit_of_not_stopping hstop', State.took] at hclose ⊢
      exact .single hclose
    · simp only [hrunning, if_false, State.note_host]
      exact .single (step_log m [.logged (.destroyRefused x.state)]
        (by simp [Occurrence.isIdle, isFault]))

theorem steps_dropConnection (h : m.Footing) (i : Nat) :
    m.Steps (m.having (m.state.dropConnection i)) := by
  unfold State.dropConnection
  cases m.state.instances[i]? with
  | none => exact .refl
  | some x =>
    simp only
    split
    · exact steps_destroy h i
    · exact .refl

theorem steps_create (m : Moment) (c : Nat) (options : Options) :
    m.Steps (m.having (m.state.create (.memory c) options).2) := by
  have hlog : ∀ ns : List Log.Notice, (∀ n ∈ ns, isFault n = false) →
      ∀ o ∈ (ns.map Occurrence.logged).reverse, o.isIdle = true := by
    intro ns hns o ho
    obtain ⟨n, hn, rfl⟩ := List.mem_map.mp (List.mem_reverse.mp ho)
    simp [Occurrence.isIdle, hns n hn]
  unfold State.create
  cases hvalid : options.validate with
  | error fault => exact .refl
  | ok u =>
    simp only [State.connect, hvalid, State.note_host]
    split
    · exact .single (step_log m _ (hlog [.clusterConnected options.connection]
        (by simp [isFault])))
    · refine ReflTransGen.tail (.tail (.single (.create c)) (step_log _ _ (hlog
        [.clusterConnected options.connection] (by simp [isFault])))) (step_log _ _ (hlog
        [.instanceStarted options.connection options.threadName] (by simp [isFault])))

/-! ## Messages -/

theorem steps_dispatch (h : m.Footing) : m.Steps (m.having m.state.dispatch.2) := by
  unfold State.dispatch Host.receive
  cases hqueue : m.state.host.queue with
  | nil => exact .refl
  | cons message rest =>
    obtain ⟨e, he, hticket, hhear⟩ := h.message message rest hqueue
    have hopen : ({ m.state.host with queue := rest } : Host Callback Work).closed = false := h.opened
    simp only [Host.dispatch_eq hopen he]
    cases message with
    | call key label ticket work =>
      obtain ⟨o, ho⟩ := hhear work rfl
      simp only [Host.fate, State.note_host, Message.key]
      obtain ⟨executors, htell⟩ := State.tell_eq (s := { m.state with
        host := { m.state.host with queue := rest, registry := (m.state.host.registry.remove key).2 }
        trace := .logged (.callbackInvoked label) :: m.state.trace }) ho label
      have hlog := step_log m [.logged (.callbackInvoked label)] (by simp [Occurrence.isIdle, isFault])
      refine ReflTransGen.head hlog (.head (.tell hqueue he hticket ho) (.single ?_))
      have hlast := step_executors (m.having { m.state with
        host := { m.state.host with queue := rest, registry := (m.state.host.registry.remove key).2 }
        trace := o :: .logged (.callbackInvoked label) :: m.state.trace }) executors
      exact htell ▸ hlast
    | release key label ticket =>
      simp only [Host.fate, State.note_host, Message.key]
      have hlog := step_log m [.logged (.callbackReleased label)]
        (by simp [Occurrence.isIdle, isFault])
      exact ReflTransGen.head hlog (.single (.drop hqueue he hticket))

/-! ## Turns of a loop -/

/-- A promotion passes from the engine to its result. -/
theorem step_promote (h : m.Footing) {l key c o : Nat} {keys : List Nat} {response : Engine.Response}
    {p : Promotion} {stream : Option Nat} {error : Option EngineError}
    {engine : Engine.State Promotion Cookie Nat}
    (hready : (m.state.engine.loop l).ready = key :: keys)
    (htask : m.state.engine.job? l key = some (.promote c o response .fresh p))
    (hsettled : m.state.engine.Settled l key c response stream error engine) :
    m.Step { m with
      state := ({ m.state with engine } : State).promote .loop p stream error
      history := m.history ++ m.state.observe (some (.promoted p stream error)) } := by
  have hsame : ({ m.state with engine } : State).target? p.result = m.state.target? p.result := rfl
  cases htarget : m.state.target? p.result with
  | none =>
    simp only [State.promote, hsame, htarget, State.note, State.observe, Option.isSome_none]
    exact .reportLost hready htask hsettled htarget
  | some target =>
    have hstep := Step.report hready htask hsettled htarget
    simp only [State.promote, hsame, htarget, State.observe, Option.isSome_some]
    cases stream with
    | none =>
      have hresults : m.state.results.modify p.result (fun q => { q with target := q.target }) =
          m.state.results := List.modify_id _ _
      simp only [Option.map_none, Option.getD_none, hresults] at hstep
      rw [State.invoke_eq]
      · exact hstep
      · exact h.opened
    | some i =>
      rw [State.invoke_eq]
      · exact hstep
      · exact h.opened

/-- A turn in which no task ends, nor looks whether it was cancelled. -/
theorem perform_quiet {l : Nat} {engine : Engine.State Promotion Cookie Nat}
    (hturn : m.state.engine.turn l = (none, engine)) (hglance : m.state.engine.glance? l = none) :
    m.perform (.turn l) = m.having { m.state with engine } := by
  simp only [perform, State.turn, hturn, State.glimpse, hglance, Option.bind_none,
    Option.toList_none, State.observe, List.append_nil, having]

/-- The end of the task in front is a move. -/
theorem step_complete {l key : Nat} {t : Task} {c : Completion}
    {engine : Engine.State Promotion Cookie Nat}
    (hfront : m.state.engine.front? l = some (key, t))
    (hturn : m.state.engine.turn l = (some c, engine))
    (hworkers : engine.workers = (m.state.engine.finished l key).workers)
    (hstep : m.Step { m with
      state := ({ m.state with engine } : State).complete .loop c
      history := m.history ++ m.state.observe (some c) }) :
    m.Step (m.perform (.turn l)) := by
  have hglance : m.state.engine.glance? l = none :=
    Engine.State.glance?_of_finished hfront (by rw [hturn]; exact hworkers)
  simpa only [perform, State.turn, hturn, State.glimpse, hglance, Option.bind_none,
    Option.toList_none, List.append_nil] using hstep

section Check

variable {l key : Nat} {t : Task} {cookie : Cookie} {cancelled : Bool}
  (hfront : m.state.engine.front? l = some (key, t))
  (hfound : (m.state.engine.worker l).found = none)
  (hchecks : m.state.engine.Checks t cancelled) (hcookie : cookie? t = some cookie)
include hfront hfound hchecks hcookie

/-- The task in front looks whether it was cancelled. -/
theorem perform_check : m.perform (.turn l) =
    { m with
      state := { m.state with engine := m.state.engine.checked l cancelled }
      history := m.history ++ [.checked cookie.ticket cancelled] } := by
  have hglimpse : m.state.glimpse l = [.checked cookie.ticket cancelled] := by
    rw [State.glimpse, Engine.State.glance?_check hfront hfound hchecks, Option.bind_some, hcookie]
    rfl
  simp only [perform, State.turn, Engine.State.turn_check hfront hfound hchecks, hglimpse,
    State.observe, List.append_nil]

/-- A look of the task in front is a move. -/
theorem step_check : m.Step (m.perform (.turn l)) := by
  obtain ⟨-, keys, hready, htask⟩ := Engine.State.front?_eq_some.mp hfront
  rw [perform_check hfront hfound hchecks hcookie]
  exact .check hready htask hchecks hfound hcookie

end Check

/-- The report that a cluster is closed is a move. -/
theorem step_closed {l key i : Nat} {keys : List Nat}
    (hready : (m.state.engine.loop l).ready = key :: keys)
    (htask : m.state.engine.job? l key = some (.close i)) :
    m.Step { m with
      state := ({ m.state with engine := m.state.engine.finished l key } : State).complete .loop
        (.closed i)
      history := m.history ++ m.state.observe (some (.closed i)) } := by
  simp only [State.complete, State.clusterClosed, State.observe, List.append_nil]
  cases hx : m.state.instances[i]? with
  | none => exact .stray hready htask
  | some x =>
    simp only [Instance.transit?]
    by_cases hclosing : x.state = .closingNetwork
    · have hreaper := @Step.shut m l key i keys x _ hready htask hx (.reaper hclosing)
      have hdetached := @Step.shut m l key i keys x _ hready htask hx (.detached hclosing)
      simp only [hclosing, if_true, State.modifyInstance, State.note]
      split
      · rw [List.modify_modify_eq]
        exact hreaper
      · rw [List.modify_modify_eq]
        exact hdetached
    · simp only [hclosing, if_false, State.note]
      exact .stray hready htask

/-- A turn is a move. -/
theorem step_turn (h : m.Footing) (l : Nat) : m.Step (m.perform (.turn l)) := by
  cases hmust : (m.state.engine.worker l).mustLook with
  | true =>
    rw [perform_quiet (Engine.State.turn_of_mustLook hmust)
      (Engine.State.glance?_of_mustLook hmust)]
    exact .look hmust
  | false =>
    obtain ⟨key, t, hfront⟩ := h.sound.exists_front? hmust
    obtain ⟨-, keys, hready, htask⟩ := Engine.State.front?_eq_some.mp hfront
    have hjob := Engine.State.job?_of_front? hfront
    cases t with
    | promote c o response timer p =>
      cases hfound : (m.state.engine.worker l).found with
      | none =>
        cases hsleep : m.state.engine.mustSleep c o response timer with
        | true =>
          rw [perform_quiet (Engine.State.turn_sleep hfront hfound hsleep)
            (Engine.State.glance?_of_mustSleep hfront hfound hsleep)]
          refine .sleep hready htask ?_ hfound
          simp only [Engine.State.mustSleep, Bool.and_eq_true, Bool.not_eq_true'] at hsleep
          exact hsleep.1
        | false => exact step_check hfront hfound (.promote hsleep) rfl
      | some finding =>
        cases finding with
        | flag cancelled =>
          obtain ⟨stream, error, engine, hturn, hsettled⟩ :=
            Engine.State.turn_settle hfront hfound
          exact step_complete hfront hturn hsettled.workers (step_promote h hready hjob hsettled)
        | row row => exact (h.sound.finds hfound hready htask).elim
    | pull i cookie =>
      cases hfound : (m.state.engine.worker l).found with
      | none => exact step_check hfront hfound .pull rfl
      | some finding =>
        cases finding with
        | flag cancelled =>
          have hglance : m.state.engine.glance? l = none :=
            Engine.State.glance?_eq_none (Or.inr (by simp [hfound]))
          rw [perform_quiet (Engine.State.turn_draw hfront hfound) hglance]
          exact .draw hready hjob hfound
        | row row =>
          refine step_complete hfront (Engine.State.turn_pull hfront hfound) rfl ?_
          simp only [State.complete, State.observe]
          rw [State.invoke_eq]
          · exact .answer hready hjob hfound
          · exact h.opened
    | close i =>
      exact step_complete hfront (Engine.State.turn_close hfront) rfl (step_closed hready hjob)
    | park => exact absurd hjob (h.unparked l key)

/-! ## Events -/

theorem steps_resume (h : m.Footing) : m.Steps m.resume := by
  have hstrike : ∀ e r target, m.call = .cancelling e r target →
      m.Step { m with
        state := m.state.strike target
        call := .idle
        history := m.history ++ [.cancelled r target] } := by
    intro e r target hcall
    cases target with
    | empty => exact absurd hcall (h.target e r)
    | pending operation =>
      obtain ⟨c, o, rfl⟩ := h.operation e r operation hcall
      exact .strikeOperation hcall
    | active i => exact .strikeStream hcall
  have hattach : ∀ e r operation, m.call = .attaching e r operation →
      m.Steps { m with state := m.state.attach r operation, call := .idle } := by
    intro e r operation hcall
    simp only [State.attach, State.note_host]
    refine ReflTransGen.tail (.single (.attach hcall)) (step_log _ _ fun o ho => ?_)
    obtain ⟨n, hn, rfl⟩ := List.mem_map.mp (List.mem_reverse.mp ho)
    cases htarget : m.state.target? r with
    | none => simp [htarget] at hn
    | some target =>
      cases target <;> simp_all [Target.operationNotices, Occurrence.isIdle, isFault]
  unfold resume
  split
  · exact .refl
  · next r operation hcall => exact hattach none r operation hcall
  · next e r operation hcall =>
    exact ReflTransGen.tail (hattach (some e) r operation hcall) (step_executors _ _)
  · next r target hcall => exact .single (hstrike none r target hcall)
  · next e r target hcall =>
    exact ReflTransGen.tail (.single (hstrike (some e) r target hcall)) (step_executors _ _)

theorem steps_act (h : m.Footing) (deed : Deed) : m.Steps (m.act deed) := by
  cases deed with
  | connector => exact .single .connector
  | respond c response =>
    simp only [act]
    split
    · next hc => exact .single (.respond hc)
    · exact .refl
  | create c options => exact steps_create m c options
  | query i request name => exact steps_submit h none i request name false
  | next r name => exact steps_next h r name none
  | cancel r =>
    simp only [act]
    split
    · exact .refl
    · next target htarget => exact .single (.grasp htarget)
  | dropResult r => exact .single (.letGo r)
  | executor => exact .single (step_executors m _)
  | executorQuery e i request name =>
    simp only [act, State.executorSubmit]
    cases m.state.executors[e]?.bind Executor.result with
    | some r =>
      have hissued : (m.state.record (.dropped none name)).host.issued = m.state.host.issued := rfl
      simp only [submitted, hissued, if_true]
      exact .single (step_log m [.dropped none name] (by simp [Occurrence.isIdle]))
    | none => exact steps_submit h (some e) i request name true
  | executorNext e name =>
    simp only [act, State.executorNext]
    cases hresult : m.state.executors[e]?.bind Executor.result with
    | none => exact .single (step_log m [.dropped none name] (by simp [Occurrence.isIdle]))
    | some r => exact steps_next h r name (some e)
  | executorAbort e =>
    simp only [act]
    split
    · next r target hresult htarget =>
      obtain ⟨x, hx, hr⟩ := Option.bind_eq_some_iff.mp hresult
      simp only [State.executorGrasp, hx, Option.bind_some] at htarget
      split at htarget
      · rw [hr] at htarget
        exact .single (.grasp htarget)
      · cases htarget
    · exact .refl
  | dropExecutor e =>
    simp only [act, State.dropExecutor]
    cases m.state.executors[e]?.bind Executor.result with
    | none => exact .refl
    | some r => exact .single (.letGo r)
  | destroy i => exact steps_destroy h i
  | dropConnection i => exact steps_dropConnection h i
  | dispatch => exact steps_dispatch h

/-- An event is nothing but moves. -/
theorem steps_perform (h : m.Footing) (event : Event) : m.Steps (m.perform event) := by
  cases event with
  | act deed =>
    simp only [perform]
    split
    · exact steps_act h deed
    · exact .refl
  | resume => exact steps_resume h
  | turn l => exact .single (step_turn h l)
  | elapse l key =>
    simp only [perform]
    split
    · next harmed => exact .single (.elapse harmed)
    · exact .refl
  | reapers fault =>
    have hnone : ∀ o ∈ ([] : List Occurrence), o.isIdle = true := by simp
    exact .single (.note hnone)
  | reap i =>
    simp only [perform, State.reap]
    cases hx : m.state.instances[i]? with
    | none => exact .refl
    | some x =>
      have hmodify : m.state.instances.modify i (fun y => y.reap (m.state.threadEnded x.loop)) =
          m.state.instances.modify i fun _ => x.reap (m.state.threadEnded x.loop) := by
        refine List.ext_getElem? fun k => ?_
        rw [List.getElem?_modify, List.getElem?_modify]
        split
        · next hk => rw [← hk, hx]; rfl
        · rfl
      simp only [State.modifyInstance, hmodify]
      exact .single (.reap hx)

end HostBridge.Session.Moment
