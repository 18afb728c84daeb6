import HostBridge.Proofs.Session.Invariant

/-!
# What a call does, apart from the bridge

A call of the host does something to the engine, to the instances, to the results and to the
executors, and it also registers callbacks, queues messages and writes to the log. Here each call is
written out up to the latter: what becomes of the host and of the trace is left open. That is how a
call looks to whoever does not care about callbacks.
-/

namespace HostBridge.Session

open Bridge (Cookie Entry Host Message)

/-- The connector in memory of an instance that takes queries. -/
def Instance.serves? (x : Instance) : Option Nat :=
  match x.state, x.connector with
  | .running, .memory c => some c
  | _, _ => none

theorem Instance.serves?_eq_some {x : Instance} {c : Nat} :
    x.serves? = some c ↔ x.state = .running ∧ x.connector = .memory c := by
  obtain ⟨connector, -, state⟩ := x
  cases state <;> cases connector <;> simp [Instance.serves?]

namespace Moment

variable {m : Moment}

/-- The connector in memory of an instance, by number, that takes queries. -/
def serves? (m : Moment) (i : Nat) : Option Nat :=
  m.state.instances[i]?.bind Instance.serves?

theorem serves?_eq_some {i c : Nat} : m.serves? i = some c ↔
    ∃ x, m.state.instances[i]? = some x ∧ x.state = .running ∧ x.connector = .memory c := by
  simp only [serves?, Option.bind_eq_some_iff, Instance.serves?_eq_some]

theorem serves?_of_not_running {i : Nat} {x : Instance} (hx : m.state.instances[i]? = some x)
    (hstate : x.state ≠ .running) : m.serves? i = none := by
  rw [serves?, hx, Option.bind_some]
  unfold Instance.serves?
  split
  · next h _ => exact absurd h hstate
  · rfl

/-! ## Queries -/

/-- A query on an instance that does not serve is refused at once. -/
theorem submitted_unserved (hsane : m.Sane) (e : Option Nat) {i : Nat} (request : Request)
    (name : String) (hides : Bool) (hserves : m.serves? i = none) :
    ∃ trace, m.submitted e i (.promotion name hides)
      (m.state.submit i request (.promotion name hides)) = m.having { m.state with trace } := by
  have hunseen : ∀ fault : Error, ∃ trace, m.submitted e i (.promotion name hides)
      (.error fault, m.state.record (.dropped none name)) = m.having { m.state with trace } := by
    intro fault
    refine ⟨.dropped none name :: m.state.trace, ?_⟩
    simp [submitted, State.record, having]
  unfold State.submit
  cases hx : m.state.instances[i]? with
  | none => exact hunseen _
  | some x =>
    simp only
    cases hagent : State.agent x with
    | error fault => exact hunseen fault
    | ok u =>
      have hrunning := running_of_agent hagent
      obtain ⟨c, hc⟩ := hsane.orderly.memory i x hx
      rw [serves?_eq_some.mpr ⟨x, hx, hrunning, hc⟩] at hserves
      cases hserves

theorem submit_eq (hsane : m.Sane) {i : Nat} {x : Instance}
    (hx : m.state.instances[i]? = some x) (hrunning : x.state = .running) (request : Request)
    (name : String) (hides : Bool) :
    ∃ trace, m.state.submit i request (.promotion name hides) =
      match ({ m.state with
          host := (m.state.host.register queryLabel (.promotion name hides)).2
          results := m.state.results ++ [{}]
          trace } : State).execute x request
        ⟨m.state.results.length, m.nextCookie queryLabel (.promotion name hides)⟩ with
      | (.error e, s) => (.error (.engine e), s.dropResult m.state.results.length)
      | (.ok operation, s) => (.ok (m.state.results.length, operation), s) := by
  have hagent : State.agent x = .ok () := by
    simp [State.agent, hrunning, hsane.orderly.hasEngine i x hx hrunning]
  obtain ⟨key, hregister⟩ := State.register_eq (s := { m.state with
    results := m.state.results ++ [{}] }) hsane.bridged.opened queryLabel (.promotion name hides)
  refine ⟨.logged (.querySubmitted request.statement) ::
    .logged (.callbackRegistered queryLabel key) :: m.state.trace, ?_⟩
  simp only [State.submit, hx, hagent, State.addResult, hregister, State.note_host]
  rfl

theorem submitted_refused (hsane : m.Sane) (e : Option Nat) {i c : Nat} (request : Request)
    (name : String) (hides : Bool) (hserves : m.serves? i = some c)
    (hresponses : (m.state.engine.connector c).responses = []) :
    ∃ host trace, m.submitted e i (.promotion name hides)
        (m.state.submit i request (.promotion name hides)) =
      { m with
        state := { m.state with
          host, trace, results := m.state.results ++ [{ alive := false }] }
        callbacks := m.callbacks ++ [.promotion name hides]
        history := m.history ++ [.refused m.state.host.issued] } := by
  obtain ⟨x, hx, hrunning, hc⟩ := serves?_eq_some.mp hserves
  obtain ⟨trace, hsubmit⟩ := submit_eq hsane hx hrunning request name hides
  have hissued : ((m.state.host.register queryLabel (.promotion name hides)).2.release
      (m.nextCookie queryLabel (.promotion name hides))).issued ≠ m.state.host.issued := by
    simp
  have hresults := modify_last m.state.results { target := .empty } fun q => { q with alive := false }
  rw [hsubmit]
  simp only [State.execute, hc]
  rw [execute_refused hresponses]
  simp only [submitted, State.release, State.dropResult, State.modifyResult, hresults]
  rw [if_neg hissued]
  exact ⟨_, _, rfl⟩

theorem submitted_accepted (hsane : m.Sane) (e : Option Nat) {i c : Nat} (request : Request)
    (name : String) (hides : Bool) {response : Engine.Response} {responses : List Engine.Response}
    (hserves : m.serves? i = some c)
    (hresponses : (m.state.engine.connector c).responses = response :: responses) :
    ∃ host trace cookie, m.submitted e i (.promotion name hides)
        (m.state.submit i request (.promotion name hides)) =
      { state := { m.state with
          host, trace
          engine := (m.state.engine.accepting c request responses).spawned i
            (.promote c (m.state.engine.connector c).operations.length response .fresh
              ⟨m.state.results.length, cookie⟩)
          results := m.state.results ++ [{}] }
        call := .attaching e m.state.results.length
          (.memory c (m.state.engine.connector c).operations.length)
        callbacks := m.callbacks ++ [.promotion name hides]
        history := m.history ++ [.accepted i
          (.memory c (m.state.engine.connector c).operations.length)
          m.state.results.length m.state.host.issued] } := by
  obtain ⟨x, hx, hrunning, hc⟩ := serves?_eq_some.mp hserves
  obtain ⟨trace, hsubmit⟩ := submit_eq hsane hx hrunning request name hides
  have hloop := hsane.orderly.loop i x hx
  have hstop := (hsane.orderly.takes hx hrunning).2
  rw [hsubmit]
  simp only [State.execute, hc, hloop]
  rw [execute_eq hresponses hstop]
  exact ⟨_, _, _, rfl⟩

/-! ## Rows -/

theorem next_unstarted (hsane : m.Sane) {r : Nat} (name : String) (e : Option Nat)
    (hstream : (m.state.target? r).bind Target.stream? = none) :
    ∃ host trace, m.next r (.row name e) =
      { m with
        state := { m.state with host, trace }
        callbacks := m.callbacks ++ [.row name e]
        history := m.history ++ [.asked r m.state.host.issued none] } := by
  obtain ⟨key, hregister⟩ := State.register_eq hsane.bridged.opened rowLabel (.row name e)
  have hopen : (m.state.host.register rowLabel (.row name e)).2.closed = false := by
    rw [Host.register_closed]
    exact hsane.bridged.opened
  have htarget : ∀ host trace, ({ m.state with host, trace } : State).target? r =
      m.state.target? r := fun _ _ => rfl
  simp only [next, State.nextRow, hregister, htarget, hstream, Option.bind_none, State.observe]
  rw [State.invoke_eq hopen]
  exact ⟨_, _, rfl⟩

/-- A result with a stream is asked for a row. The loop of the stream is handed the pull, or answers
it at once if it was asked to stop. -/
theorem next_started (hsane : m.Sane) {r k : Nat} {x : Engine.Stream} (name : String)
    (e : Option Nat) (htarget : m.state.target? r = some (.active k))
    (hx : m.state.engine.stream? k = some x) :
    ∃ host trace cookie os, (∀ o ∈ os, ∃ t row, o = .answered t row) ∧ m.next r (.row name e) =
      { m with
        state := { m.state with
          host, trace
          engine := (m.state.engine.submit x.loop (.pull k cookie)).2 }
        callbacks := m.callbacks ++ [.row name e]
        history := m.history ++ .asked r m.state.host.issued (some k) :: os } := by
  obtain ⟨key, hregister⟩ := State.register_eq hsane.bridged.opened rowLabel (.row name e)
  have hopen : (m.state.host.register rowLabel (.row name e)).2.closed = false := by
    rw [Host.register_closed]
    exact hsane.bridged.opened
  have hsame : ∀ host trace, ({ m.state with host, trace } : State).target? r =
      m.state.target? r := fun _ _ => rfl
  have hstream : (m.state.target? r).bind Target.stream? = some k := by rw [htarget]; rfl
  cases hstop : (m.state.engine.loop x.loop).stopping with
  | false =>
    simp only [next, State.nextRow, hregister, hsame, hstream, Option.bind_some, Engine.State.pull,
      hx, Engine.State.submit_of_not_stopping hstop, State.observe]
    exact ⟨_, _, m.nextCookie rowLabel (.row name e), [], by simp, rfl⟩
  | true =>
    simp only [next, State.nextRow, hregister, hsame, hstream, Option.bind_some, Engine.State.pull,
      hx, Engine.State.submit_of_stopping hstop, Engine.Task.abandoned?, State.observe, State.took,
      State.note_host, State.complete, Host.register_ticket]
    rw [State.invoke_eq hopen]
    exact ⟨_, _, m.nextCookie rowLabel (.row name e),
      [.answered m.state.host.issued (.failed .clusterClosed)], by simp, rfl⟩

/-! ## Connections -/

theorem destroy_unserved (hsane : m.Sane) {i : Nat} (hserves : m.serves? i = none) :
    ∃ trace, (m.state.destroy i).2 = { m.state with trace } := by
  unfold State.destroy
  cases hx : m.state.instances[i]? with
  | none => exact ⟨_, rfl⟩
  | some x =>
    obtain ⟨c, hc⟩ := hsane.orderly.memory i x hx
    have hrunning : x.state ≠ .running := by
      intro hrunning
      rw [serves?_eq_some.mpr ⟨x, hx, hrunning, hc⟩] at hserves
      cases hserves
    simp only [Instance.transit?, hrunning, if_false, State.note_host]
    exact ⟨_, rfl⟩

theorem destroy_served (hsane : m.Sane) {i c : Nat} (hserves : m.serves? i = some c) :
    ∃ x, m.state.instances[i]? = some x ∧ (m.state.destroy i).2 = { m.state with
      instances := m.state.instances.modify i fun _ => { x with state := .closingNetwork }
      engine := (m.state.engine.closing c).spawned i (.close i) } := by
  obtain ⟨x, hx, hrunning, hc⟩ := serves?_eq_some.mp hserves
  have hengine := hsane.orderly.hasEngine i x hx hrunning
  have hloop := hsane.orderly.loop i x hx
  have hstop : ((m.state.engine.closing c).loop i).stopping = false := by
    rw [(Engine.State.woken_closing m.state.engine c).stopping]
    exact (hsane.orderly.takes hx hrunning).2
  refine ⟨x, hx, ?_⟩
  simp only [State.destroy, hx, Instance.transit?, hrunning, if_true, hengine, State.close, hc, hloop,
    State.modifyInstance, Engine.State.close_eq, Engine.State.submit_of_not_stopping hstop,
    State.took]

/-- Dropping a connection is the same as asking it to shut down, but for the log. -/
theorem dropConnection_eq (hsane : m.Sane) (i : Nat) :
    ∃ trace, m.state.dropConnection i = { (m.state.destroy i).2 with trace } := by
  unfold State.dropConnection
  cases hx : m.state.instances[i]? with
  | none =>
    refine ⟨m.state.trace, ?_⟩
    simp [State.destroy, hx]
  | some x =>
    by_cases hrunning : x.state = .running
    · simp only [hrunning, if_true]
      exact ⟨_, rfl⟩
    · obtain ⟨trace, hdestroy⟩ := destroy_unserved hsane (serves?_of_not_running hx hrunning)
      simp only [hrunning, if_false, hdestroy]
      exact ⟨m.state.trace, rfl⟩

/-! ## Cancellations -/

theorem strike_executors (s : State) (target : Target) :
    (s.strike target).executors = s.executors := by
  cases target with
  | empty | active => rfl
  | pending operation => cases operation <;> rfl

/-! ## Messages -/

/-- A callback is told a row. An executor changes only if the rows have come to their end. -/
theorem tellRow_eq (s : State) (label : String) (e : Entry Callback)
    (answer : Option String × Option Error) : ∃ trace executors,
      s.tellRow label e answer = { s with trace, executors } ∧
        (executors = s.executors ∨ answer = (none, none) ∧ ∃ name x,
          e.callback = .row name (some x) ∧
          executors = s.executors.modify x fun x => { x with state := .complete }) := by
  cases hcallback : e.callback with
  | promotion name hides =>
    simp only [State.tellRow, hcallback, State.note_host]
    exact ⟨_, _, rfl, Or.inl rfl⟩
  | row name executor =>
    simp only [State.tellRow, hcallback]
    split
    · next x => exact ⟨_, _, rfl, Or.inr ⟨rfl, name, x, rfl, rfl⟩⟩
    · exact ⟨_, _, rfl, Or.inl rfl⟩

/-- The host handles a message. An executor changes only if its callback is told that the rows have
come to their end. -/
theorem dispatch_eq (hsane : m.Sane) : ∃ host trace executors,
    m.state.dispatch.2 = { m.state with host, trace, executors } ∧
      (executors = m.state.executors ∨ ∃ t name e, (t, .row none none) ∈ m.owed ∧
        m.callbacks[t]? = some (.row name (some e)) ∧
        executors = m.state.executors.modify e fun x => { x with state := .complete }) := by
  unfold State.dispatch Host.receive
  cases hqueue : m.state.host.queue with
  | nil => exact ⟨_, _, _, rfl, Or.inl rfl⟩
  | cons message rest =>
    obtain ⟨e, he, hticket, hcallback, hfits⟩ := hsane.bridged.message hqueue
    have hopen : ({ m.state.host with queue := rest } : Host Callback Work).closed = false :=
      hsane.bridged.opened
    have howed : outcomeOf message ∈ m.owed := by
      rw [← hsane.bridged.served.order, hqueue]
      simp
    simp only [Host.dispatch_eq hopen he]
    cases message with
    | release key label ticket =>
      simp only [Host.fate, State.note_host]
      exact ⟨_, _, _, rfl, Or.inl rfl⟩
    | call key label ticket work =>
      simp only [Host.fate, State.note_host]
      cases work with
      | promoted error =>
        simp only [State.tell]
        split
        · exact ⟨_, _, _, rfl, Or.inl rfl⟩
        · simp only [State.note_host]
          exact ⟨_, _, _, rfl, Or.inl rfl⟩
      | failed error =>
        simp only [State.tell]
        obtain ⟨trace, executors, htell, hsame | ⟨hend, -⟩⟩ := tellRow_eq { m.state with
          host := { m.state.host with queue := rest, registry := _ }
          trace := .logged (.callbackInvoked label) :: m.state.trace } label e (none, some error)
        · exact ⟨_, trace, executors, htell, Or.inl hsame⟩
        · cases hend
      | row row =>
        simp only [State.tell]
        obtain ⟨trace, executors, htell, hsame | ⟨hend, name, x, hrow, hexecutors⟩⟩ :=
          tellRow_eq { m.state with
            host := { m.state.host with queue := rest, registry := _ }
            trace := .logged (.callbackInvoked label) :: m.state.trace } label e row.marshal
        · exact ⟨_, trace, executors, htell, Or.inl hsame⟩
        · refine ⟨_, trace, executors, htell, Or.inr ⟨ticket, name, x, ?_, ?_, hexecutors⟩⟩
          · rw [outcomeOf, Work.outcome, hend] at howed
            exact howed
          · rw [← hrow]
            exact hcallback

/-! ## Turns -/

/-- A result, if it is still held, gets a stream, if there is one. -/
def promoting (stream : Option Nat) (q : QueryResult) : QueryResult :=
  if q.alive then { q with target := (stream.map Target.active).getD q.target } else q

theorem promoting_none (q : QueryResult) : promoting none q = q := by
  obtain ⟨target, alive⟩ := q
  cases alive <;> rfl

theorem promote_eq (s : State) (hopen : s.host.closed = false) (p : Promotion) (stream : Option Nat)
    (error : Option EngineError) : ∃ host, s.promote .loop p stream error =
      { s with host, results := s.results.modify p.result (promoting stream) } := by
  cases hresult : s.results[p.result]? with
  | none =>
    have hresults : s.results.modify p.result (promoting stream) = s.results :=
      List.modify_eq_self (List.getElem?_eq_none_iff.mp hresult)
    have htarget : s.target? p.result = none := by simp [State.target?, hresult]
    simp only [State.promote, htarget, hresults]
    exact ⟨_, rfl⟩
  | some q =>
    have hresults : ∀ f : QueryResult → QueryResult, f q = promoting stream q →
        s.results.modify p.result f = s.results.modify p.result (promoting stream) := by
      intro f hf
      refine List.ext_getElem? fun k => ?_
      rw [List.getElem?_modify, List.getElem?_modify]
      by_cases hk : p.result = k
      · subst hk
        simp [hresult, hf]
      · simp [hk]
    cases halive : q.alive with
    | false =>
      have htarget : s.target? p.result = none := by simp [State.target?, hresult, halive]
      rw [← hresults id (by simp [promoting, halive]), List.modify_id]
      simp only [State.promote, htarget]
      exact ⟨_, rfl⟩
    | true =>
      have htarget : s.target? p.result = some q.target := by simp [State.target?, hresult, halive]
      cases stream with
      | none =>
        rw [← hresults id (promoting_none q).symm, List.modify_id]
        simp only [State.promote, htarget]
        rw [State.invoke_eq hopen]
        exact ⟨_, rfl⟩
      | some k =>
        rw [← hresults (fun q => { q with target := q.target.setStream k })
          (by simp [promoting, halive, Target.setStream])]
        simp only [State.promote, htarget, State.modifyResult]
        rw [State.invoke_eq]
        · exact ⟨_, rfl⟩
        · exact hopen

section Turn

variable {l : Nat} {engine : Engine.State Promotion Cookie Nat}

theorem turn_silent (hturn : m.state.engine.turn l = (none, engine)) :
    m.perform (.turn l) = { m with
      state := { m.state with engine }
      history := m.history ++ m.state.glimpse l } := by
  simp [perform, State.turn, hturn, State.observe]

/-- In a turn in which something is reported no task looks. -/
theorem glimpse_of_report {completion : Completion}
    (hturn : m.state.engine.turn l = (some completion, engine)) : m.state.glimpse l = [] := by
  rw [State.glimpse, Engine.State.glance?_of_report (congrArg Prod.fst hturn)]
  rfl

theorem turn_promoted (hsane : m.Sane) {p : Promotion} {stream : Option Nat}
    {error : Option EngineError}
    (hturn : m.state.engine.turn l = (some (.promoted p stream error), engine)) :
    ∃ host alive, m.perform (.turn l) =
      { m with
        state := { m.state with
          engine, host, results := m.state.results.modify p.result (promoting stream) }
        history := m.history ++ [.reported p.result p.cookie.ticket stream error alive] } := by
  obtain ⟨host, hpromote⟩ := promote_eq { m.state with engine } hsane.bridged.opened p stream error
  simp only [perform, State.turn, hturn, State.complete, hpromote, State.observe,
    glimpse_of_report hturn, List.append_nil]
  exact ⟨_, _, rfl⟩

theorem turn_answered (hsane : m.Sane) {cookie : Cookie} {row : Row}
    (hturn : m.state.engine.turn l = (some (.row cookie row), engine)) :
    ∃ host, m.perform (.turn l) =
      { m with
        state := { m.state with engine, host }
        history := m.history ++ [.answered cookie.ticket row] } := by
  simp only [perform, State.turn, hturn, State.complete, State.observe, glimpse_of_report hturn,
    List.append_nil]
  rw [State.invoke_eq]
  · exact ⟨_, rfl⟩
  · exact hsane.bridged.opened

/-- What becomes of an instance when its cluster is closed: a reaper takes over if the operating
system starts one. -/
def shutting (m : Moment) (x : Instance) : Instance :=
  match m.state.reaperFault with
  | none => { x with state := .joiningThread, reaper := .started }
  | some _ => { x with state := .joiningThread }.detach

/-- A turn reports that a cluster is closed, which stops the loop of its instance, unless that has
been done. -/
theorem turn_closed {i : Nat} (hturn : m.state.engine.turn l = (some (.closed i), engine)) :
    (∃ x, m.state.instances[i]? = some x ∧ x.state = .closingNetwork ∧ m.perform (.turn l) =
      m.having { m.state with
        engine := engine.stop x.loop
        instances := m.state.instances.modify i fun _ => m.shutting x }) ∨
    (∀ x, m.state.instances[i]? = some x → x.state ≠ .closingNetwork) ∧
      m.perform (.turn l) = m.having { m.state with engine } := by
  simp only [perform, State.turn, hturn, State.complete, State.clusterClosed, State.observe,
    glimpse_of_report hturn, List.append_nil]
  cases hx : m.state.instances[i]? with
  | none => exact Or.inr ⟨by simp, rfl⟩
  | some x =>
    simp only [Instance.transit?]
    by_cases hclosing : x.state = .closingNetwork
    · refine Or.inl ⟨x, rfl, hclosing, ?_⟩
      cases hfault : m.state.reaperFault <;>
        simp only [hclosing, if_true, State.modifyInstance, State.note, List.modify_modify_eq,
          shutting, hfault] <;> rfl
    · simp only [hclosing, if_false, State.note]
      exact Or.inr ⟨fun y hy => Option.some.inj hy ▸ hclosing, rfl⟩

end Turn

/-! ## Executors -/

/-- A connection is created without the executors. -/
theorem executors_create (s : State) (c : Nat) (options : Options) :
    (s.create (.memory c) options).2.executors = s.executors := by
  unfold State.create
  cases hvalid : options.validate with
  | error fault => rfl
  | ok u =>
    simp only [State.connect, hvalid, State.note_host]
    split <;> rfl

/-- A connection is shut down without the executors. -/
theorem executors_destroy (hsane : m.Sane) (i : Nat) :
    (m.state.destroy i).2.executors = m.state.executors := by
  cases hserves : m.serves? i with
  | none =>
    obtain ⟨trace, heq⟩ := destroy_unserved hsane hserves
    rw [heq]
  | some c =>
    obtain ⟨x, -, heq⟩ := destroy_served hsane hserves
    rw [heq]

theorem executors_dropConnection (hsane : m.Sane) (i : Nat) :
    (m.state.dropConnection i).executors = m.state.executors := by
  obtain ⟨trace, heq⟩ := dropConnection_eq hsane i
  rw [heq]
  exact executors_destroy hsane i

/-- The thread of a loop does not touch the executors. -/
theorem executors_turn (hsane : m.Sane) (l : Nat) :
    (m.perform (.turn l)).state.executors = m.state.executors := by
  generalize hturn : m.state.engine.turn l = turned
  obtain ⟨completion, engine⟩ := turned
  cases completion with
  | none => rw [turn_silent hturn]
  | some completion =>
    cases completion with
    | promoted p stream error =>
      obtain ⟨host, alive, heq⟩ := turn_promoted hsane hturn
      rw [heq]
    | row cookie row =>
      obtain ⟨host, heq⟩ := turn_answered hsane hturn
      rw [heq]
    | closed i =>
      rcases turn_closed hturn with ⟨x, -, -, heq⟩ | ⟨-, heq⟩
      all_goals rw [heq, having]

end Moment

end HostBridge.Session
