import HostBridge.Proofs.Loop.Map
import HostBridge.Proofs.Session.Effect
import HostBridge.Proofs.Session.Looks

/-!
# What a connection can tell

The clusters of a connector share its responses and its operations, and all connections share a
host. What decides about the queries of one connection is much less than all that: the tasks of its
own loop, the responses that are left, which of the other connections still take queries, and what
the results of its own queries refer to. A *sight* is that much of a session, with another connection
out of sight.

An operation is *decided* when no cancellation of it makes a difference any more: it is cancelled, or
its promotion has looked. From then on the loop only depends on what the promotion saw.

A sight has moves of its own, one for each event of a run. They never ask what is out of sight.
-/

namespace HostBridge.Session

/-! ## Tasks -/

/-- A task on the loop of a connection. Callbacks, rows and the numbers of streams are out of sight; a
promotion shows whether its operation is decided. -/
inductive Chore where
  /-- Promotes a query. -/
  | promote (connector operation : Nat) (response : Engine.Response) (timer : Engine.Timer)
      (result : Nat) (decided : Bool)
  /-- Answers a pull. -/
  | pull
  /-- Reports that the cluster is closed. -/
  | close

namespace Chore

/-- The chore sleeps until the operation is cancelled, or until its delay is over. -/
def awaits (connector operation : Nat) : Chore → Bool
  | promote c o _ .armed _ _ => c == connector && o == operation
  | _ => false

/-- The chore promotes the query of the operation, which is not decided. -/
def isOpen (connector operation : Nat) : Chore → Bool
  | promote c o _ _ _ false => c == connector && o == operation
  | _ => false

/-- The chore after operations of a connector were decided. -/
def mark (connector : Nat) (operations : List Nat) : Chore → Chore
  | promote c o response timer r decided =>
    promote c o response timer r (decided || (c == connector && operations.contains o))
  | t => t

/-- The chore after its delay is over. -/
def elapse : Chore → Chore
  | promote c o response .armed r decided => promote c o response .elapsed r decided
  | t => t

/-- A promotion has to wait for its delay. -/
def waits (response : Engine.Response) (timer : Engine.Timer) (cancelled : Bool) : Bool :=
  !cancelled &&
    match timer, response.delay with
    | .elapsed, _ => false
    | _, none => false
    | .fresh, some ms => ms != 0
    | .armed, some _ => true

/-- What is in sight of a task, given which operations are decided. -/
def ofTask (decided : Nat → Nat → Bool) : Task → Chore
  | .promote c o response timer p => promote c o response timer p.result (decided c o)
  | .pull _ _ => pull
  | .close _ => close
  | .park => pull

/-- What is in sight of what a task has found out: what a promotion has seen, and how far a pull is. -/
def veil : Task × Finding → Finding
  | (.promote .., x) => x
  | (_, .flag _) => .flag false
  | (_, .row _) => .row .done

theorem awaits_ofTask (decided : Nat → Nat → Bool) (c o : Nat) (t : Task) :
    (ofTask decided t).awaits c o = t.awaits c o := by
  cases t with
  | promote c' o' response timer p => cases timer <;> rfl
  | pull | close | park => rfl

theorem isOpen_ofTask {decided : Nat → Nat → Bool} {c o : Nat} {t : Task} :
    (ofTask decided t).isOpen c o = true ↔
      decided c o = false ∧ ∃ response p, t.untimed = .promote c o response .fresh p := by
  cases t with
  | promote c' o' response timer p =>
    simp only [ofTask, Engine.Task.untimed, Engine.Task.promote.injEq]
    cases hdecided : decided c' o' with
    | true =>
      simp only [isOpen, Bool.false_eq_true, false_iff]
      rintro ⟨hopen, response', p', rfl, rfl, -⟩
      rw [hdecided] at hopen
      cases hopen
    | false =>
      simp only [isOpen, Bool.and_eq_true, beq_iff_eq]
      constructor
      · rintro ⟨rfl, rfl⟩
        exact ⟨hdecided, response, p, rfl, rfl, rfl, trivial, rfl⟩
      · rintro ⟨-, response', p', rfl, rfl, -⟩
        exact ⟨rfl, rfl⟩
  | pull | close | park => simp [ofTask, isOpen, Engine.Task.untimed]

end Chore

/-- Some task of a worker is of a kind. -/
def has {τ : Type} (kind : τ → Bool) (w : Worker τ) : Bool :=
  w.loop.tasks.contents.any kind

theorem has_iff {τ : Type} {kind : τ → Bool} {w : Worker τ} :
    has kind w = true ↔ ∃ key t, w.loop.tasks.get? key = some t ∧ kind t = true := by
  simp only [has, List.any_eq_true, Registry.mem_contents]
  constructor
  · rintro ⟨t, ⟨key, ht⟩, hkind⟩
    exact ⟨key, t, ht, hkind⟩
  · rintro ⟨key, t, ht, hkind⟩
    exact ⟨t, ⟨key, ht⟩, hkind⟩

/-! ## Sights -/

/-- What comes of a query: a stream, or an error. -/
abbrev Reported := Option Engine.Stream × Option EngineError

/-- What is in sight of a session. -/
@[ext]
structure Sight where
  /-- The loop of the connection. -/
  worker : Worker Chore
  /-- The responses that a connector has left, and how many operations it has. -/
  stock : Nat → List Engine.Response × Nat
  /-- How many connectors there are. -/
  connectors : Nat
  /-- The connector of a connection that takes queries. -/
  serves : Nat → Option Nat
  /-- How many connections there are. -/
  instances : Nat
  /-- The results of the connection's own queries. Which stream they have is out of sight. -/
  results : Nat → Option QueryResult
  /-- How many results there are. -/
  count : Nat
  /-- The results of the executors. -/
  executors : List (Option Nat)
  /-- The query that the host thread is about to attach to its result. -/
  attaching : Option (Option Nat × Nat × Operation)
  /-- The operation that the host thread is about to cancel, if that makes any difference. -/
  aim : Option (Nat × Nat)

namespace Sight

/-- The loop is handed a chore. -/
def spawn (v : Sight) (t : Chore) : Sight :=
  { v with worker := { v.worker with loop := (v.worker.loop.spawn t).2 } }

/-- Operations of a connector are cancelled, and their promotions wake up. -/
def abandon (v : Sight) (c : Nat) (operations : List Nat) : Sight :=
  { v with worker := Worker.map (Chore.mark c operations) { v.worker with
      loop := operations.foldl (fun l o => l.rouse (Chore.awaits c o)) v.worker.loop } }

/-- The host thread aims at an operation. It makes a difference only as long as the operation is
still to be promoted and is not decided. -/
def aimAt (v : Sight) (target : Option (Nat × Nat)) : Sight :=
  { v with aim := target.filter fun (c, o) => has (Chore.isOpen c o) v.worker }

/-- A result changes. -/
def modifyResult (v : Sight) (r : Nat) (f : QueryResult → QueryResult) : Sight :=
  { v with results := fun k => if k = r then (v.results r).map f else v.results k }

/-! ## Calls -/

/-- The connection `b` or another one is created. -/
def create (v : Sight) (b c : Nat) (options : Options) : Sight :=
  match options.validate with
  | .error _ => v
  | .ok () =>
    if options.threadName.toList.contains '\x00' then v
    else
      { v with
        worker := if b = v.instances then .held else v.worker
        serves := fun k => if k = v.instances then some c else v.serves k
        instances := v.instances + 1 }

/-- A query is submitted. -/
def submit (v : Sight) (b : Nat) (executor : Option Nat) (i : Nat) : Sight :=
  match v.serves i with
  | none => v
  | some c =>
    match v.stock c with
    | ([], _) => { v with count := v.count + 1 }
    | (response :: responses, o) =>
      let v' := { v with
        stock := fun d => if d = c then (responses, o + 1) else v.stock d
        results := fun r => if r = v.count ∧ i = b then some {} else v.results r
        count := v.count + 1
        attaching := some (executor, v.count, .memory c o) }
      if i = b then v'.spawn (.promote c o response .fresh v.count false) else v'

/-- A result is asked for a row. -/
def next (v : Sight) (r : Nat) : Sight :=
  match v.results r with
  | some ⟨.active _, true⟩ => v.spawn .pull
  | _ => v

/-- A cancellation looks for what a result refers to. -/
def grasp (v : Sight) (r : Nat) : Sight :=
  match v.results r with
  | some ⟨.pending (.memory c o), true⟩ => v.aimAt (some (c, o))
  | _ => v

/-- A connection is asked to shut down. -/
def close (v : Sight) (b i : Nat) : Sight :=
  match v.serves i with
  | none => v
  | some c =>
    let v' := { v.abandon c (List.range (v.stock c).2) with
      serves := fun k => if k = i then none else v.serves k }
    if i = b then v'.spawn .close else v'

/-- The result of an executor. -/
def executor? (v : Sight) (e : Nat) : Option Nat :=
  v.executors[e]?.join

/-- The host begins a call. -/
def act (v : Sight) (b : Nat) : Deed → Sight
  | .connector => { v with connectors := v.connectors + 1 }
  | .respond c response =>
    if c < v.connectors then
      { v with stock := fun d =>
          if d = c then ((v.stock c).1 ++ [response], (v.stock c).2) else v.stock d }
    else v
  | .create c options => v.create b c options
  | .query i _ _ => v.submit b none i
  | .next r _ => v.next r
  | .cancel r => v.grasp r
  | .dropResult r => v.modifyResult r fun q => { q with alive := false }
  | .executor => { v with executors := v.executors ++ [none] }
  | .executorQuery e i _ _ => if (v.executor? e).isSome then v else v.submit b (some e) i
  | .executorNext e _ => ((v.executor? e).map v.next).getD v
  | .executorAbort e => ((v.executor? e).map v.grasp).getD v
  | .dropExecutor e =>
    match v.executor? e with
    | none => v
    | some r => v.modifyResult r fun q => { q with alive := false }
  | .destroy i => v.close b i
  | .dropConnection i => v.close b i
  | .dispatch => v

/-- The host goes on with a call. -/
def resume (v : Sight) : Sight :=
  match v.attaching with
  | some (e, r, operation) =>
    { v.modifyResult r fun q => { q with target := q.target.setOperation operation } with
      executors := match e with
        | none => v.executors
        | some e => v.executors.modify e fun _ => some r
      attaching := none }
  | none =>
    match v.aim with
    | some (c, o) => { v.abandon c [o] with aim := none }
    | none => v

/-! ## Turns -/

/-- The task that the thread of the loop runs next, unless it has to look at its signals. -/
def front? (v : Sight) : Option (Nat × Chore) :=
  if v.worker.mustLook then none
  else v.worker.loop.front?.bind fun (key, t) => t.map fun t => (key, t)

/-- The task in front has run to its end. -/
def finish (v : Sight) (key : Nat) : Sight :=
  { v with worker := { v.worker.leave with loop := v.worker.leave.loop.finish key } }

/-- What is reported of a promotion. -/
def reported (b : Nat) (response : Engine.Response) (cancelled : Bool) : Reported :=
  if cancelled then (none, some .canceled)
  else
    match response.error with
    | some e => (none, some e)
    | none => (some (.ofRows b response.rows response.metadata), none)

/-- A query was promoted. A result that is still held gets the stream, if there is one. -/
def promote (v : Sight) (r : Nat) (report : Reported) : Sight :=
  match report.1 with
  | none => v
  | some _ => v.modifyResult r fun q =>
      if q.alive then { q with target := .active 0 } else q

/-- The promotion in front looks whether its operation was cancelled, and stays there. -/
def check (v : Sight) (c o : Nat) (cancelled : Bool) : Sight :=
  { v with worker := (Worker.map (Chore.mark c [o]) v.worker).enter (.flag cancelled) }

/-- What a turn does to the loop and to the results. -/
def advance (v : Sight) (b : Nat) : Sight :=
  match v.front?, v.worker.found with
  | none, _ => if b < v.instances then { v with worker := v.worker.look } else v
  | some (key, .promote _ _ response _ r _), some (.flag seen) =>
    (v.finish key).promote r (reported b response seen)
  | some (key, .promote c o response timer r cancelled), _ =>
    if Chore.waits response timer cancelled then
      { v with worker := { v.worker.leave with
          loop := v.worker.leave.loop.sleep key (.promote c o response .armed r cancelled) } }
    else v.check c o cancelled
  | some (_, .pull), none => { v with worker := v.worker.enter (.flag false) }
  | some (_, .pull), some (.flag _) =>
    { v with worker := { v.worker with found := some (.row .done) } }
  | some (key, .pull), some (.row _) => v.finish key
  | some (key, .close), _ =>
    { v with worker := { v.worker.leave with loop := (v.worker.leave.loop.finish key).stop } }

theorem promote_keep (v : Sight) (r : Nat) (report : Reported) :
    v.promote r report = { v with results := (v.promote r report).results } := by
  unfold promote
  split <;> rfl

/-- A turn concerns the loop and the results. -/
theorem advance_keep (v : Sight) (b : Nat) : v.advance b =
    { v with worker := (v.advance b).worker, results := (v.advance b).results } := by
  unfold advance
  split
  · split <;> rfl
  · rw [promote_keep]
    rfl
  · split <;> rfl
  · rfl
  · rfl
  · rfl
  · rfl

/-- The loop takes a turn. -/
def turn (v : Sight) (b : Nat) : Sight :=
  (v.advance b).aimAt v.aim

/-- What a turn of the loop reports of a result. -/
def report (v : Sight) (b r : Nat) : List Reported :=
  match v.front?, v.worker.found with
  | some (_, .promote _ _ response _ r' _), some (.flag seen) =>
    if r' = r then [reported b response seen] else []
  | _, _ => []

/-- The delay of a promotion is over. -/
def elapse (v : Sight) (key : Nat) : Sight :=
  match v.worker.loop.tasks.get? key with
  | some (.promote _ _ _ .armed _ _) =>
    Sight.aimAt { v with worker := { v.worker with
        loop := { v.worker.loop with
          tasks := v.worker.loop.tasks.modify key Chore.elapse }.wake key } } v.aim
  | _ => v

/-- An event of a run. -/
def perform (v : Sight) (b : Nat) : Event → Sight
  | .act deed => v.act b deed
  | .resume => v.resume
  | .turn l => if l = b then v.turn b else v
  | .elapse l key => if l = b then v.elapse key else v
  | .reap _ | .reapers _ => v

/-- What an event reports of a result. -/
def reports (v : Sight) (b r : Nat) : Event → List Reported
  | .turn l => if l = b then v.report b r else []
  | _ => []

end Sight

/-- The call is one on a connection. -/
def Deed.uses (i : Nat) : Deed → Bool
  | .query j _ _ | .executorQuery _ j _ _ | .destroy j | .dropConnection j => j == i
  | _ => false

/-- The event is a call on a connection. -/
def Event.uses (i : Nat) : Event → Bool
  | .act deed => deed.uses i
  | _ => false

/-! ## The sight of a connection -/

/-- A query result without the number of its stream. -/
def QueryResult.outline (q : QueryResult) : QueryResult :=
  match q.target with
  | .active _ => { q with target := .active 0 }
  | _ => q

/-- The query that is about to be attached to its result. -/
def Call.attaching? : Call → Option (Option Nat × Nat × Operation)
  | .attaching e r operation => some (e, r, operation)
  | _ => none

/-- The operation in memory that is about to be cancelled. -/
def Call.aim? : Call → Option (Nat × Nat)
  | .cancelling _ _ (.pending (.memory c o)) => some (c, o)
  | _ => none

theorem Call.aim?_eq_some {call : Call} {c o : Nat} :
    call.aim? = some (c, o) ↔ ∃ e r, call = .cancelling e r (.pending (.memory c o)) := by
  cases call with
  | idle | attaching => simp [Call.aim?]
  | cancelling e r target =>
    cases target with
    | pending operation => cases operation <;> simp [Call.aim?]
    | empty | active => simp [Call.aim?]

/-- A query of a result was accepted on an instance. -/
def Observation.accepts (i r : Nat) : Observation → Bool
  | .accepted j _ q _ => j == i && q == r
  | _ => false

namespace Moment

/-- The host thread begins a call only when it is not in the middle of another. -/
def takes (m : Moment) : Event → Bool
  | .act _ =>
    match m.call with
    | .idle => true
    | _ => false
  | _ => true

/-- What an observation says of a result: the error, or the stream as it is now. -/
def reportOf? (m : Moment) (r : Nat) : Observation → Option Reported
  | .reported q _ stream error _ =>
    if q = r then some (stream.bind m.state.engine.stream?, error) else none
  | _ => none

/-- What an event reports of a result. -/
def reports (m : Moment) (r : Nat) (event : Event) : List Reported :=
  ((m.perform event).history.drop m.history.length).filterMap ((m.perform event).reportOf? r)

/-- The result belongs to a query that was accepted on an instance. -/
def owns (m : Moment) (i r : Nat) : Bool :=
  m.history.any (Observation.accepts i r)

theorem owns_iff {m : Moment} {i r : Nat} :
    m.owns i r = true ↔ ∃ operation t, .accepted i operation r t ∈ m.history := by
  simp only [owns, List.any_eq_true]
  constructor
  · rintro ⟨o, ho, haccepts⟩
    cases o <;> simp only [Observation.accepts, Bool.false_eq_true, Bool.and_eq_true, beq_iff_eq]
      at haccepts
    obtain ⟨rfl, rfl⟩ := haccepts
    exact ⟨_, _, ho⟩
  · rintro ⟨operation, t, ho⟩
    exact ⟨_, ho, by simp [Observation.accepts]⟩

/-- Only a query that is accepted gets an owner. -/
theorem owns_append {m m' : Moment} {os : List Observation}
    (hhistory : m'.history = m.history ++ os) (hos : ∀ o ∈ os, o.result? = none) (i r : Nat) :
    m'.owns i r = m.owns i r := by
  have hnone : os.any (Observation.accepts i r) = false := by
    refine List.any_eq_false.mpr fun o ho => ?_
    have := hos o ho
    cases o <;> simp_all [Observation.accepts]
  rw [owns, hhistory, List.any_append, hnone, Bool.or_false]
  rfl

/-- The promotion of an operation has looked whether it was cancelled. -/
def looked (m : Moment) (c o : Nat) : Bool :=
  m.history.any fun
    | .accepted _ (.memory d p) _ t =>
      d == c && p == o && (m.history.filterMap Observation.looker?).contains t
    | _ => false

theorem looked_iff {m : Moment} {c o : Nat} : m.looked c o = true ↔
    ∃ i r t seen, .accepted i (.memory c o) r t ∈ m.history ∧ .checked t seen ∈ m.history := by
  simp only [looked, List.any_eq_true]
  constructor
  · rintro ⟨x, hx, hlooks⟩
    split at hlooks
    · next i d p r t =>
      simp only [Bool.and_eq_true, beq_iff_eq, List.contains_iff_mem, List.mem_filterMap] at hlooks
      obtain ⟨⟨rfl, rfl⟩, y, hy, hlooker⟩ := hlooks
      cases y <;> simp only [Observation.looker?, reduceCtorEq] at hlooker
      obtain rfl := Option.some.inj hlooker
      exact ⟨i, r, _, _, hx, hy⟩
    · cases hlooks
  · rintro ⟨i, r, t, seen, haccepted, hchecked⟩
    refine ⟨_, haccepted, ?_⟩
    simp only [beq_self_eq_true, Bool.true_and, List.contains_iff_mem, List.mem_filterMap]
    exact ⟨_, hchecked, rfl⟩

/-- No cancellation of the operation makes a difference any more: it is cancelled, or its promotion has
looked. -/
def decided (m : Moment) (c o : Nat) : Bool :=
  m.state.engine.isCancelled c o || m.looked c o

/-- The tasks of a loop, as far as they are in sight. -/
def outlook (m : Moment) (b : Nat) : Worker Chore :=
  { (m.state.engine.worker b).map (Chore.ofTask m.decided) with
    found := (m.state.engine.busy? b).map Chore.veil }

/-- What is in sight of the connection `b`, while the connection `a` is out of sight. -/
def sight (m : Moment) (a b : Nat) : Sight where
  worker := m.outlook b
  stock c := ((m.state.engine.connector c).responses,
    (m.state.engine.connector c).operations.length)
  connectors := m.state.engine.connectors.length
  serves k := if k = a then none else m.serves? k
  instances := m.state.instances.length
  results r := if m.owns b r then m.state.results[r]?.map QueryResult.outline else none
  count := m.state.results.length
  executors := m.state.executors.map Executor.result
  attaching := m.call.attaching?
  aim := m.call.aim?.filter fun (c, o) => has (Chore.isOpen c o) (m.outlook b)

end Moment

end HostBridge.Session
