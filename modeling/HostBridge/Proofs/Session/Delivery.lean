import HostBridge.Proofs.Session.Orderly

/-!
# From the engine to the callbacks

Every callback that was registered is told something once, or dropped once, or is still in its slot.
What is told and dropped is told and dropped in the order in which the cookies were used up: what the
callbacks have seen, followed by what waits in the queue of the host, is what the history owes them.
-/

namespace HostBridge.Session

open Bridge (Cookie Entry Host Message)

/-- What becomes of a callback. -/
inductive Outcome where
  /-- It is told the outcome of a promotion. -/
  | promoted
  /-- It is told a row. -/
  | row (content : Option String) (error : Option Error)
  /-- It is dropped untold. -/
  | dropped

/-- What an occurrence does to a callback, by ticket. -/
def Occurrence.settles? : Occurrence → Option (Nat × Outcome)
  | .logged _ => none
  | .promoted ticket _ _ => some (ticket, .promoted)
  | .row ticket _ content error => some (ticket, .row content error)
  | .dropped ticket _ => ticket.map fun t => (t, .dropped)

/-- What work does to a callback. -/
def Work.outcome : Work → Outcome
  | .promoted _ => .promoted
  | .row answer => .row answer.marshal.1 answer.marshal.2
  | .failed error => .row none (some error)

/-- What a message does to a callback, by ticket. -/
def outcomeOf : Message Work → Nat × Outcome
  | .call _ _ ticket work => (ticket, work.outcome)
  | .release _ _ ticket => (ticket, .dropped)

/-- What an observation owes to a callback, by ticket. -/
def Observation.owes? : Observation → Option (Nat × Outcome)
  | .reported _ t _ _ true => some (t, .promoted)
  | .reported _ t _ _ false => some (t, .dropped)
  | .answered t row => some (t, .row row.marshal.1 row.marshal.2)
  | .asked _ t none => some (t, .row none (some .resultNotStarted))
  | .refused t => some (t, .dropped)
  | _ => none

/-- The work is of the kind of the callback. -/
def Work.fits : Work → Callback → Bool
  | .promoted _, .promotion .. => true
  | .row _, .row .. => true
  | .failed _, .row .. => true
  | _, _ => false

/-- A callback of the right kind is told what the work is about. -/
theorem hear_of_fits {e : Entry Callback} {work : Work} (h : work.fits e.callback = true) :
    ∃ o, hear e work = some o ∧ o.settles? = some (e.ticket, work.outcome) ∧
      ∀ n, o ≠ .logged n := by
  cases work <;> cases hcallback : e.callback <;>
    simp_all [Work.fits, hear, Occurrence.settles?, Work.outcome]

/-! ## The host -/

/-- A host serves its callbacks: slots are owned, messages are of the right kind, each ticket is in a
slot or settled, and outcomes come in the order in which they are owed. -/
structure Served (callbacks : List Callback) (host : Host Callback Work) (cookies : List Cookie)
    (settled owed : List (Nat × Outcome)) : Prop where
  /-- The slots are owned by the cookies and the messages. -/
  owned : host.Owned callbacks cookies
  /-- A message is of the kind of its callback. -/
  fits : ∀ message ∈ host.queue, ∀ work, message.work? = some work →
    ∃ callback, callbacks[message.ticket]? = some callback ∧ work.fits callback = true
  /-- Each ticket is in a slot or settled, once. -/
  tickets : (host.registry.contents.map Entry.ticket ++ settled.map Prod.fst).Perm
    (List.range host.issued)
  /-- What is owed is settled in order. -/
  order : settled ++ host.queue.map outcomeOf = owed

namespace Served

variable {callbacks : List Callback} {host : Host Callback Work} {cookies ds : List Cookie}
  {settled owed : List (Nat × Outcome)} {c : Cookie}

theorem new : Served [] {} [] [] [] where
  owned := Host.Owned.empty
  fits := by simp
  tickets := by simp [Registry.contents]
  order := rfl

theorem perm (h : Served callbacks host cookies settled owed) (hp : cookies.Perm ds) :
    Served callbacks host ds settled owed where
  owned := h.owned.perm hp
  fits := h.fits
  tickets := h.tickets
  order := h.order

theorem register (h : Served callbacks host cookies settled owed) (hopen : host.closed = false)
    (label : String) (callback : Callback) :
    Served (callbacks ++ [callback]) (host.register label callback).2
      ((host.register label callback).1 :: cookies) settled owed := by
  have hqueue : (host.register label callback).2.queue = host.queue := by
    simp [Host.register, hopen]
  have hregistry : (host.register label callback).2.registry =
      (host.registry.insert ⟨host.issued, callback⟩).2 := by
    simp [Host.register, hopen]
  refine ⟨h.owned.register hopen label callback, ?_, ?_, by rw [hqueue]; exact h.order⟩
  · intro message hm work hw
    obtain ⟨old, hold, hfits⟩ := h.fits message (hqueue ▸ hm) work hw
    refine ⟨old, ?_, hfits⟩
    exact List.getElem?_append_left (List.getElem?_eq_some_iff.mp hold).1 ▸ hold
  · rw [hregistry, Host.register_issued, List.range_succ]
    have hcontents := (Registry.contents_insert h.owned.valid
      (⟨host.issued, callback⟩ : Entry Callback)).map Entry.ticket
    refine (hcontents.append_right _).trans ?_
    rw [List.map_cons, List.cons_append]
    exact (h.tickets.cons host.issued).trans (List.perm_append_singleton _ _).symm

/-- A message is queued in place of a cookie. -/
theorem enqueue (h : Served callbacks host (c :: cookies) settled owed) (message : Message Work)
    (hclaim : c.claim? = some message.claim)
    (hfits : ∀ work, message.work? = some work →
      ∃ callback, callbacks[message.ticket]? = some callback ∧ work.fits callback = true) :
    Served callbacks { host with queue := host.queue ++ [message] } cookies settled
      (owed ++ [outcomeOf message]) where
  owned := h.owned.enqueue message hclaim
  fits message' hm work hw := by
    rcases List.mem_append.mp hm with hm | hm
    · exact h.fits message' hm work hw
    · obtain rfl := List.mem_singleton.mp hm
      exact hfits work hw
  tickets := h.tickets
  order := by
    rw [← h.order]
    simp

theorem invoke (h : Served callbacks host (c :: cookies) settled owed) (hopen : host.closed = false)
    (hkey : c.key.isSome = true) {work : Work} {callback : Callback}
    (hcallback : callbacks[c.ticket]? = some callback) (hfits : work.fits callback = true) :
    Served callbacks (host.invoke c work).2 cookies settled (owed ++ [(c.ticket, work.outcome)]) := by
  obtain ⟨key, hk⟩ := Option.isSome_iff_exists.mp hkey
  rw [Host.invoke_of_key hopen hk]
  refine h.enqueue (.call key c.label c.ticket work) ?_ ?_
  · simp [Cookie.claim?, hk, Message.claim, Message.key, Message.ticket]
  · intro work' hw
    obtain rfl : work = work' := by simpa [Message.work?] using hw
    exact ⟨callback, hcallback, hfits⟩

theorem release (h : Served callbacks host (c :: cookies) settled owed) (hopen : host.closed = false)
    (hkey : c.key.isSome = true) :
    Served callbacks (host.release c) cookies settled (owed ++ [(c.ticket, .dropped)]) := by
  obtain ⟨key, hk⟩ := Option.isSome_iff_exists.mp hkey
  rw [Host.release_of_key hopen hk]
  refine h.enqueue (.release key c.label c.ticket) ?_ ?_
  · simp [Cookie.claim?, hk, Message.claim, Message.key, Message.ticket]
  · intro work hw
    simp [Message.work?] at hw

theorem dispatch {message : Message Work} {rest : List (Message Work)} {e : Entry Callback}
    (h : Served callbacks host cookies settled owed) (hopen : host.closed = false)
    (hqueue : host.queue = message :: rest) (he : host.registry.get? message.key = some e) :
    Served callbacks
      { host with queue := rest, registry := (host.registry.remove message.key).2 } cookies
      (settled ++ [outcomeOf message]) owed := by
  obtain ⟨e', he', hticket, -, -, howned⟩ := h.owned.dispatch hopen hqueue
  obtain rfl := Option.some.inj (he.symm.trans he')
  have houtcome : (outcomeOf message).1 = e.ticket := by
    rw [hticket]
    cases message <;> rfl
  refine ⟨howned, fun message' hm => h.fits message' (by simp [hqueue, hm]), ?_, ?_⟩
  · refine List.Perm.trans ?_ h.tickets
    have hcontents := (Registry.contents_remove he).map Entry.ticket
    rw [List.map_append, List.map_singleton, houtcome, ← List.append_assoc]
    refine (List.perm_append_singleton _ _).trans ?_
    rw [← List.cons_append, ← List.map_cons]
    exact (hcontents.symm.append_right _)
  · rw [← h.order, hqueue]
    simp

end Served

/-! ## Runs -/

namespace Moment

variable {m m' : Moment}

/-- What became of callbacks so far, by ticket, in order. -/
def settled (m : Moment) : List (Nat × Outcome) :=
  (m.state.trace.filterMap Occurrence.settles?).reverse

/-- What the history owes to callbacks, by ticket, in order. -/
def owed (m : Moment) : List (Nat × Outcome) :=
  m.history.filterMap Observation.owes?

/-- The host is open and serves its callbacks, and no call went astray. -/
structure Bridged (m : Moment) : Prop where
  /-- The host is open. -/
  opened : m.state.host.closed = false
  /-- The host serves its callbacks; the cookies that are around are those of the tasks. -/
  served : Served m.callbacks m.state.host (m.state.engine.collect cookie?) m.settled m.owed
  /-- Every call has found a callback, of the right kind. -/
  quiet : ∀ n, .logged n ∈ m.state.trace → isFault n = false

namespace Bridged

/-- A message in front of the queue finds its callback, which is of the right kind. -/
theorem message (h : m.Bridged) {message : Message Work} {rest : List (Message Work)}
    (hqueue : m.state.host.queue = message :: rest) :
    ∃ e, m.state.host.registry.get? message.key = some e ∧ e.ticket = message.ticket ∧
      m.callbacks[message.ticket]? = some e.callback ∧
      ∀ work, message.work? = some work → work.fits e.callback = true := by
  have hmem : message ∈ m.state.host.queue := by simp [hqueue]
  obtain ⟨e, he, hticket, hcallback⟩ := h.served.owned.of_message hmem
  refine ⟨e, he, hticket, hcallback, fun work hw => ?_⟩
  obtain ⟨callback, hcallback', hfits⟩ := h.served.fits message hmem work hw
  obtain rfl := Option.some.inj (hcallback.symm.trans hcallback')
  exact hfits

/-- A host with no message left has settled what the history owes. -/
theorem settled_eq_owed (h : m.Bridged) (hqueue : m.state.host.queue = []) : m.settled = m.owed := by
  have := h.served.order
  rwa [hqueue, List.map_nil, List.append_nil] at this

theorem issued (h : m.Bridged) : m.callbacks.length = m.state.host.issued :=
  h.served.owned.length_callbacks

/-- A move that leaves the host and its callbacks alone. -/
theorem keep (h : m.Bridged) (hhost : m'.state.host = m.state.host)
    (hcallbacks : m'.callbacks = m.callbacks) (htrace : m'.state.trace = m.state.trace)
    (hcookies : (m.state.engine.collect cookie?).Perm (m'.state.engine.collect cookie?))
    (howed : m'.owed = m.owed) : m'.Bridged where
  opened := by rw [hhost]; exact h.opened
  served := by
    have hsettled : m'.settled = m.settled := by rw [settled, settled, htrace]
    rw [hhost, hcallbacks, hsettled, howed]
    exact h.served.perm hcookies
  quiet := by rw [htrace]; exact h.quiet

/-- A task comes to its end and uses its cookie up. -/
theorem collect_finished {l key : Nat} {t : Task} {cookie : Cookie}
    {engine : Engine.State Promotion Cookie Nat}
    (htask : m.state.engine.job? l key = some t) (hcookie : cookie? t = some cookie)
    (hworkers : engine.workers = (m.state.engine.finished l key).workers) :
    (m.state.engine.collect cookie?).Perm (cookie :: engine.collect cookie?) := by
  have hcollect := Engine.State.collect_finished (Engine.State.lt_of_job? htask) cookie? htask
  rw [hcookie] at hcollect
  have hsame : engine.collect cookie? = (m.state.engine.finished l key).collect cookie? := by
    rw [Engine.State.collect, Engine.State.collect, hworkers]
  rw [hsame]
  exact hcollect

theorem settles?_of_isIdle {o : Occurrence} (h : o.isIdle = true) : o.settles? = none := by
  cases o with
  | logged n => rfl
  | dropped ticket name => cases ticket <;> simp_all [Occurrence.isIdle, Occurrence.settles?]
  | promoted ticket name error | row ticket name content error => cases h

/-- Something happens to a callback. -/
theorem settled_cons {o : Occurrence} {outcome : Nat × Outcome} (ho : o.settles? = some outcome)
    (htrace : m'.state.trace = o :: m.state.trace) : m'.settled = m.settled ++ [outcome] := by
  rw [settled, settled, htrace, List.filterMap_cons_some ho, List.reverse_cons]

theorem owed_append {os : List Observation} (h : m'.history = m.history ++ os) :
    m'.owed = m.owed ++ os.filterMap Observation.owes? := by
  rw [owed, owed, h, List.filterMap_append]

/-- The callback in front of the queue hears of it. -/
theorem hears (h : m.Bridged) {message : Message Work} {rest : List (Message Work)}
    {e : Entry Callback} {o : Occurrence} (hqueue : m.state.host.queue = message :: rest)
    (he : m.state.host.registry.get? message.key = some e)
    (ho : o.settles? = some (outcomeOf message)) (hlogged : ∀ n, o ≠ .logged n) :
    (m.having { m.state with
      host := { m.state.host with
        queue := rest, registry := (m.state.host.registry.remove message.key).2 }
      trace := o :: m.state.trace }).Bridged where
  opened := h.opened
  served := by
    rw [settled_cons ho rfl]
    exact h.served.dispatch h.opened hqueue he
  quiet n hn := by
    rcases List.mem_cons.mp hn with hn | hn
    · exact absurd hn.symm (hlogged n)
    · exact h.quiet n hn

/-- A new callback hears that it will get no row from the engine. -/
theorem replies (h : m.Bridged) {name : String} {e : Option Nat} {work : Work}
    {os : List Observation} (hfits : work.fits (.row name e) = true)
    (howes : os.filterMap Observation.owes? = [(m.state.host.issued, work.outcome)]) :
    ({ m with
      state := { m.state with
        host := ((m.state.host.register rowLabel (.row name e)).2.invoke
          (m.nextCookie rowLabel (.row name e)) work).2 }
      callbacks := m.callbacks ++ [.row name e]
      history := m.history ++ os } : Moment).Bridged where
  opened := by simpa using h.opened
  served := by
    rw [owed_append rfl, howes]
    have hserved := h.served.register h.opened rowLabel (.row name e)
    have hopen : (m.state.host.register rowLabel (.row name e)).2.closed = false := by
      simpa using h.opened
    have hlast : (m.callbacks ++ [Callback.row name e])[
        (m.state.host.register rowLabel (.row name e)).1.ticket]? = some (.row name e) := by
      rw [Host.register_ticket, ← h.issued]
      simp
    have := hserved.invoke hopen (Host.register_key h.opened _ _) hlast hfits
    rwa [Host.register_ticket] at this
  quiet := h.quiet

/-- The host goes on to serve its callbacks. -/
theorem step (h : m.Bridged) (horderly : m.Orderly)
    (hanchored : ∀ r i x, m.state.target? r = some (.active i) → m.state.engine.stream? i = some x →
      x.loop < m.state.engine.workers.length) (hstep : m.Step m') : m'.Bridged := by
  have hsame : ∀ engine : Engine.State Promotion Cookie Nat,
      m.state.engine.SameJobs engine →
        (m.state.engine.collect cookie?).Perm (engine.collect cookie?) :=
    fun engine hjobs => by rw [hjobs.collect]
  cases hstep with
  | @note os executors reaperFault hos =>
    have hnone : os.filterMap Occurrence.settles? = [] :=
      List.filterMap_eq_nil_iff.mpr fun o ho => settles?_of_isIdle (hos o ho)
    have hsettled : (m.having { m.state with
        trace := os ++ m.state.trace, executors, reaperFault }).settled = m.settled := by
      simp [settled, having, List.filterMap_append, hnone]
    refine ⟨h.opened, ?_, fun n hn => ?_⟩
    · rw [hsettled]
      exact h.served
    · rcases List.mem_append.mp hn with hn | hn
      · simpa [Occurrence.isIdle] using hos _ hn
      · exact h.quiet n hn
  | grasp | attach | letGo | connector | reap => exact h.keep rfl rfl rfl (List.Perm.refl _) rfl
  | respond _ | strikeStream _ =>
    exact h.keep rfl rfl rfl (List.Perm.refl _) ((owed_append rfl).trans (List.append_nil _))
  | create c =>
    refine h.keep rfl rfl rfl ?_ rfl
    rw [having, Engine.State.collect_addLoop]
  | refuse name hides =>
    refine ⟨by simpa using h.opened, ?_, h.quiet⟩
    rw [owed_append rfl]
    have hserved := h.served.register h.opened queryLabel (.promotion name hides)
    have hopen : (m.state.host.register queryLabel (.promotion name hides)).2.closed = false := by
      simpa using h.opened
    have := hserved.release hopen (Host.register_key h.opened _ _)
    rwa [Host.register_ticket] at this
  | @accept e i c x request name hides response responses hx hrunning hc hresponses =>
    obtain ⟨hi, hstop⟩ := horderly.takes hx hrunning
    have hsound : (m.state.engine.accepting c request responses).Sound :=
      horderly.sound.accepting _ _
    have hi' : i < (m.state.engine.accepting c request responses).workers.length := hi
    have hstop' : ((m.state.engine.accepting c request responses).loop i).stopping = false := hstop
    refine ⟨by simpa using h.opened, ?_, h.quiet⟩
    rw [owed_append rfl]
    have hserved := h.served.register h.opened queryLabel (.promotion name hides)
    simp only [List.filterMap_cons, Observation.owes?, List.filterMap_nil, List.append_nil]
    refine hserved.perm (List.Perm.symm ?_)
    exact Engine.State.collect_spawned hi' hstop' hsound cookie? _
  | askEarly htarget =>
    exact h.replies rfl rfl
  | @ask r i x name e htarget hx hstop =>
    have hl := hanchored r i x htarget hx
    refine ⟨by simpa using h.opened, ?_, h.quiet⟩
    rw [owed_append rfl]
    have hserved := h.served.register h.opened rowLabel (.row name e)
    simp only [List.filterMap_cons, Observation.owes?, List.filterMap_nil, List.append_nil]
    refine hserved.perm (List.Perm.symm ?_)
    exact Engine.State.collect_spawned hl hstop horderly.sound cookie? _
  | askLate htarget hx hstop => exact h.replies rfl rfl
  | strikeOperation _ =>
    have hwoken := Engine.State.woken_cancelOperation m.state.engine
    exact h.keep rfl rfl rfl (hsame _ (.of_tasks (hwoken _ _).length (hwoken _ _).tasks))
      ((owed_append rfl).trans (List.append_nil _))
  | @close i c x hx hrunning hc =>
    obtain ⟨hi, hstop⟩ := horderly.takes hx hrunning
    have hwoken := Engine.State.woken_closing m.state.engine c
    refine h.keep rfl rfl rfl ?_ rfl
    refine (hsame _ (.of_tasks hwoken.length hwoken.tasks)).trans (List.Perm.symm ?_)
    exact Engine.State.collect_spawned (hwoken.length ▸ hi) (hwoken.stopping i ▸ hstop)
      (horderly.sound.closing c) cookie? _
  | @tell key ticket label work rest e o hqueue he hticket ho =>
    obtain ⟨e', he', -, -, hfits⟩ := h.message hqueue
    obtain rfl := Option.some.inj (he.symm.trans he')
    obtain ⟨o', ho', hsettles, hlogged⟩ := hear_of_fits (hfits work rfl)
    obtain rfl := Option.some.inj (ho.symm.trans ho')
    exact h.hears hqueue he (by rw [hsettles, hticket]; rfl) hlogged
  | drop hqueue he hticket =>
    exact h.hears hqueue he (by rw [hticket]; rfl) fun n hn => by cases hn
  | @look l _ => exact h.keep rfl rfl rfl (hsame _ (Engine.State.sameJobs_looked _ l)) rfl
  | check =>
    exact h.keep rfl rfl rfl (hsame _ (Engine.State.sameQueues_checked _ _ _).sameJobs)
      ((owed_append rfl).trans (List.append_nil _))
  | draw => exact h.keep rfl rfl rfl (hsame _ (Engine.State.sameQueues_drawn _ _ _ _).sameJobs) rfl
  | sleep hready htask hcancelled =>
    have hjob := congrArg (Option.map Engine.Task.untimed) htask
    exact h.keep rfl rfl rfl
      (hsame _ (Engine.State.sameJobs_slept (Engine.State.lt_of_job? hjob) hjob)) rfl
  | elapse harmed => exact h.keep rfl rfl rfl (hsame _ (Engine.State.sameJobs_elapse harmed)) rfl
  | report hready htask hsettled htarget =>
    obtain ⟨-, -, -, hkey, name, hides, hcallback⟩ := horderly.due _ _ _ htask
    refine ⟨by simpa using h.opened, ?_, h.quiet⟩
    rw [owed_append rfl]
    exact (h.served.perm (collect_finished htask rfl hsettled.workers)).invoke h.opened hkey hcallback
      rfl
  | reportLost hready htask hsettled htarget =>
    obtain ⟨-, -, -, hkey, name, hides, hcallback⟩ := horderly.due _ _ _ htask
    refine ⟨by simpa using h.opened, ?_, h.quiet⟩
    rw [owed_append rfl]
    exact (h.served.perm (collect_finished htask rfl hsettled.workers)).release h.opened hkey
  | answer hready htask =>
    obtain ⟨-, -, hkey, name, e, hcallback⟩ := horderly.due _ _ _ htask
    refine ⟨by simpa using h.opened, ?_, h.quiet⟩
    rw [owed_append rfl]
    exact (h.served.perm (collect_finished htask rfl rfl)).invoke h.opened hkey hcallback rfl
  | @shut l key i keys x y hready htask hx hshuts =>
    have hcollect := Engine.State.collect_finished (Engine.State.lt_of_job? htask) cookie? htask
    have hi : x.loop < (m.state.engine.finished l key).workers.length := by
      rw [(Engine.State.Shifts.finished htask).length, horderly.loop i x hx, horderly.workers]
      exact (List.getElem?_eq_some_iff.mp hx).1
    refine h.keep rfl rfl rfl (hcollect.trans ?_) rfl
    rw [having, (Engine.State.sameJobs_stop hi).collect]
    rfl
  | stray hready htask =>
    exact h.keep rfl rfl rfl
      (Engine.State.collect_finished (Engine.State.lt_of_job? htask) cookie? htask) rfl

end Bridged

end Moment

end HostBridge.Session
