import HostBridge.Proofs.Engine.Effect
import HostBridge.Proofs.Session.Employed
import HostBridge.Proofs.Session.Script
import HostBridge.Proofs.Session.Sight

/-!
# Parts of a sight

How the parts of a sight change when the parts of a session do. The tasks of a loop are seen with
what is decided of their operations, so a cancellation on some other loop may show here. It shows only
if it concerns an operation that is *open*: one whose promotion is still a task of the loop in sight,
and which is not decided yet.
-/

namespace HostBridge.Session

open Bridge (Cookie)

namespace Moment

variable {m m' : Moment} {a b : Nat} {os : List Observation}

/-! ## What holds at every moment -/

/-- The end of a cluster is reported on the loop of its instance, which does not serve any more. -/
def Closers (m : Moment) : Prop :=
  ∀ l key i, m.state.engine.job? l key = some (.close i) →
    i = l ∧ ∃ x : Instance, m.state.instances[i]? = some x ∧ x.state ≠ .running

theorem Closers.step (h : m.Closers) (hsane : m.Sane) (hstep : m.Step m') : m'.Closers := by
  intro l key i hjob
  rcases hstep.job hsane hjob with hold | hnew
  · obtain ⟨hi, x, hx, hstate⟩ := h l key i hold
    obtain ⟨x', hx', -, -, hrunning⟩ := hstep.later.instances i x hx
    exact ⟨hi, x', hx', fun hstate' => hstate (hrunning hstate')⟩
  · exact hnew

/-- Everything that holds at every moment of a run. -/
structure Regular (m : Moment) : Prop where
  /-- Instances, loops, tasks, the history and the host are in order. -/
  sane : m.Sane
  /-- The books are in order. -/
  ledger : m.Ledger
  /-- The looks are in order. -/
  looks : m.Looks
  /-- Executors have their results for good. -/
  employed : m.Employed
  /-- The end of a cluster is reported on the loop of its instance. -/
  closers : m.Closers

namespace Regular

theorem start : ({} : Moment).Regular where
  sane := Sane.start
  ledger := Ledger.start
  looks := Looks.start
  employed := Employed.start
  closers := by simp [Closers, Engine.State.job?, Engine.State.loop, Engine.State.worker]

theorem event (h : m.Regular) (event : Event) : (m.perform event).Regular where
  sane := (h.sane.event event).1
  ledger := h.ledger.event h.sane event
  looks := (h.sane.steps_induction (P := fun m => m.Ledger ∧ m.Looks)
    (fun _ _ hsane hstep h => ⟨h.1.step hsane hstep, h.2.step hsane h.1 hstep⟩)
    (steps_perform h.sane.footing event) ⟨h.ledger, h.looks⟩).2.2
  employed := h.employed.event h.sane h.ledger event
  closers := (h.sane.steps_induction (fun _ _ hsane hstep h => h.step hsane hstep)
    (steps_perform h.sane.footing event) h.closers).2

theorem foldl (h : m.Regular) (events : List Event) : (events.foldl perform m).Regular := by
  induction events generalizing m with
  | nil => exact h
  | cons event events ih => exact ih (h.event event)

end Regular

/-! ## Decided operations -/

theorem decided_mono {c o : Nat} (hlater : Later m m') (h : m.decided c o = true) :
    m'.decided c o = true := by
  simp only [decided, Bool.or_eq_true] at h ⊢
  refine h.imp (hlater.engine.cancelled c o) fun hlooked => ?_
  obtain ⟨i, r, t, seen, haccepted, hchecked⟩ := looked_iff.mp hlooked
  exact looked_iff.mpr ⟨i, r, t, seen, hlater.history.subset haccepted,
    hlater.history.subset hchecked⟩

/-- Without a look and without a new query nobody has looked who had not. -/
theorem looked_append (hhistory : m'.history = m.history ++ os)
    (hos : ∀ x ∈ os, x.result? = none ∧ x.looker? = none) (c o : Nat) :
    m'.looked c o = m.looked c o := by
  rw [Bool.eq_iff_iff, looked_iff, looked_iff, hhistory]
  constructor
  · rintro ⟨i, r, t, seen, haccepted, hchecked⟩
    rcases List.mem_append.mp haccepted with haccepted | hnew
    · rcases List.mem_append.mp hchecked with hchecked | hnew
      · exact ⟨i, r, t, seen, haccepted, hchecked⟩
      · cases (hos _ hnew).2
    · cases (hos _ hnew).1
  · rintro ⟨i, r, t, seen, haccepted, hchecked⟩
    exact ⟨i, r, t, seen, List.mem_append_left _ haccepted, List.mem_append_left _ hchecked⟩

theorem decided_append
    (hcancelled : ∀ c o, m'.state.engine.isCancelled c o = m.state.engine.isCancelled c o)
    (hhistory : m'.history = m.history ++ os)
    (hos : ∀ x ∈ os, x.result? = none ∧ x.looker? = none) (c o : Nat) :
    m'.decided c o = m.decided c o := by
  rw [decided, decided, hcancelled, looked_append hhistory hos]

/-- The promotion of a new query has not looked. -/
theorem looked_accepted (hsane : m.Sane) {i r : Nat} {operation : Operation}
    (hhistory : m'.history = m.history ++ [.accepted i operation r m.state.host.issued])
    (c o : Nat) : m'.looked c o = m.looked c o := by
  rw [Bool.eq_iff_iff, looked_iff, looked_iff, hhistory]
  constructor
  · rintro ⟨i', r', t, seen, haccepted, hchecked⟩
    have hold : .checked t seen ∈ m.history := by simpa using hchecked
    rcases List.mem_append.mp haccepted with haccepted | hnew
    · exact ⟨i', r', t, seen, haccepted, hold⟩
    · obtain ⟨-, -, -, rfl⟩ := Observation.accepted.inj (List.mem_singleton.mp hnew)
      have ht : m.state.host.issued < m.callbacks.length := hsane.accounted.recorded _ hold
      rw [hsane.bridged.issued] at ht
      exact absurd ht (Nat.lt_irrefl _)
  · rintro ⟨i', r', t, seen, haccepted, hchecked⟩
    exact ⟨i', r', t, seen, List.mem_append_left _ haccepted, List.mem_append_left _ hchecked⟩

/-- The task of a promotion that has looked is what the thread of its loop is in the middle of. -/
theorem Regular.front_of_looked (h : m.Regular) {key c o : Nat} {response : Engine.Response}
    {timer : Engine.Timer} {p : Promotion}
    (ht : (m.state.engine.loop b).tasks.get? key = some (.promote c o response timer p))
    (hlooked : m.looked c o = true) :
    ∃ x rest, (m.state.engine.worker b).found = some x ∧
      (m.state.engine.loop b).ready = key :: rest := by
  have hjob : m.state.engine.job? b key = _ := congrArg (Option.map Engine.Task.untimed) ht
  obtain ⟨i, r, t, seen, haccepted, hchecked⟩ := looked_iff.mp hlooked
  have hdue := (h.sane.orderly.due b key _ hjob).1
  obtain rfl := h.ledger.operation_unique haccepted hdue
  obtain ⟨-, -, rfl⟩ := h.ledger.accepted_unique haccepted hdue
  rcases h.looks.underWay _ (List.mem_filterMap.mpr ⟨_, hchecked, rfl⟩) with
    ⟨x, l, u, cookie, hbusy, hcookie, hsame⟩ | hsettled
  · obtain ⟨hfound, key', rest, hready, hjob'⟩ := Engine.State.busy?_eq_some.mp hbusy
    obtain ⟨rfl, rfl⟩ := h.ledger.place_unique h.sane hjob hjob' rfl hcookie hsame.symm
    exact ⟨x, rest, hfound, hready⟩
  · exact absurd hsettled (h.ledger.not_settled h.sane hjob rfl)

/-! ## Parts of a sight -/

/-- The promotion of an operation is a task of a loop, and the operation is not decided. -/
def Open (m : Moment) (b c o : Nat) : Prop :=
  m.decided c o = false ∧
    ∃ key response p, m.state.engine.job? b key = some (.promote c o response .fresh p)

theorem get?_outlook (m : Moment) (b key : Nat) : (m.outlook b).loop.tasks.get? key =
    ((m.state.engine.loop b).tasks.get? key).map (Chore.ofTask m.decided) :=
  Registry.get?_map _ _ key

theorem has_isOpen {c o : Nat} : has (Chore.isOpen c o) (m.outlook b) = true ↔ m.Open b c o := by
  rw [has_iff]
  constructor
  · rintro ⟨key, chore, hchore, hopen⟩
    rw [get?_outlook] at hchore
    obtain ⟨t, ht, rfl⟩ := Option.map_eq_some_iff.mp hchore
    obtain ⟨hflag, response, p, hpromote⟩ := Chore.isOpen_ofTask.mp hopen
    refine ⟨hflag, key, response, p, ?_⟩
    rw [Engine.State.job?, ht, Option.map_some, hpromote]
  · rintro ⟨hflag, key, response, p, hjob⟩
    obtain ⟨t, ht, hpromote⟩ := Option.map_eq_some_iff.mp hjob
    refine ⟨key, _, ?_, Chore.isOpen_ofTask.mpr ⟨hflag, response, p, hpromote⟩⟩
    rw [get?_outlook, ht, Option.map_some]

/-- An operation that is there is not opened again. -/
theorem Sane.open_of_event (hsane : m.Sane) {c o : Nat} (event : Event)
    (ho : o < (m.state.engine.connector c).operations.length)
    (h : (m.perform event).Open b c o) : m.Open b c o := by
  have hall := hsane.steps_induction (P := fun m' => (m'.Open b c o → m.Open b c o) ∧
      o < (m'.state.engine.connector c).operations.length) ?_
    (steps_perform hsane.footing event) ⟨id, ho⟩
  · exact hall.2.1 h
  · intro m₁ m₂ hsane₁ hstep ⟨hopen, ho₁⟩
    have hgrows := hstep.later.engine
    refine ⟨fun ⟨hflag, key, response, p, hjob⟩ => hopen ⟨?_, ?_⟩,
      Nat.lt_of_lt_of_le ho₁ (hgrows.operations c)⟩
    · cases hflag₁ : m₁.decided c o with
      | false => rfl
      | true => exact (decided_mono hstep.later hflag₁).symm.trans hflag
    · rcases hstep.job hsane₁ hjob with hold | ⟨rfl, -⟩
      · exact ⟨key, response, p, hold⟩
      · -- a new promotion is one of a new operation
        exact absurd ho₁ (Nat.lt_irrefl _)

/-- Only what is decided of the tasks matters. -/
theorem map_ofTask_congr {w : Worker Task} {decided decided' : Nat → Nat → Bool}
    (h : ∀ key d o response timer p,
      w.loop.tasks.get? key = some (.promote d o response timer p) → decided' d o = decided d o) :
    w.map (Chore.ofTask decided') = w.map (Chore.ofTask decided) := by
  refine Worker.map_congr fun key t ht => ?_
  cases t with
  | promote d o response timer p => simp only [Chore.ofTask, h key d o response timer p ht]
  | pull | close | park => rfl

theorem outlook_congr (hworker : m'.state.engine.worker b = m.state.engine.worker b)
    (hdecided : ∀ key d o response timer p,
      (m.state.engine.loop b).tasks.get? key = some (.promote d o response timer p) →
      m'.decided d o = m.decided d o) : m'.outlook b = m.outlook b := by
  rw [outlook, outlook, Engine.State.busy?_of_worker hworker, hworker,
    map_ofTask_congr (w := m.state.engine.worker b) hdecided]

/-- What is recorded does not show, unless it is a look or a new query. -/
theorem outlook_append (hworker : m'.state.engine.worker b = m.state.engine.worker b)
    (hcancelled : ∀ c o, m'.state.engine.isCancelled c o = m.state.engine.isCancelled c o)
    (hhistory : m'.history = m.history ++ os)
    (hos : ∀ x ∈ os, x.result? = none ∧ x.looker? = none) : m'.outlook b = m.outlook b :=
  outlook_congr hworker fun _ c o _ _ _ _ => decided_append hcancelled hhistory hos c o

theorem outlook_spawn {l : Nat} {t : Task}
    (hworker : m'.state.engine.worker b = if b = l then
      { m.state.engine.worker l with loop := ((m.state.engine.loop l).spawn t).2 }
      else m.state.engine.worker b)
    (hbusy : m'.state.engine.busy? b = m.state.engine.busy? b)
    (hdecided : ∀ c o, m'.decided c o = m.decided c o) :
    m'.outlook b = if b = l then
      ((m.sight a b).spawn (Chore.ofTask m.decided t)).worker
      else m.outlook b := by
  split
  · next hl =>
    subst hl
    rw [outlook, hworker, if_pos rfl, funext fun c => funext (hdecided c), hbusy]
    have hloop := Loop.spawn_map (Chore.ofTask m.decided) (m.state.engine.loop b) t
    exact congrArg (Worker.mk · _ _ _) hloop.symm
  · next hl =>
    rw [if_neg hl] at hworker
    exact outlook_congr hworker fun _ c o _ _ _ _ => hdecided c o

/-- In sight, too, a thread is in the middle of a task or not. -/
theorem Sane.isSome_found (hsane : m.Sane) (b : Nat) :
    ((m.state.engine.busy? b).map Chore.veil).isSome =
      ((m.state.engine.worker b).map (Chore.ofTask m.decided)).found.isSome := by
  rw [Option.isSome_map, hsane.orderly.sound.isSome_busy?]
  rfl

theorem Sane.mustLook_outlook (hsane : m.Sane) (b : Nat) :
    (m.outlook b).mustLook = (m.state.engine.worker b).mustLook :=
  Worker.mustLook_found (hsane.isSome_found b)

theorem Sane.leave_outlook (hsane : m.Sane) (b : Nat) :
    (m.outlook b).leave = (m.state.engine.worker b).leave.map (Chore.ofTask m.decided) :=
  (Worker.leave_found_eq (hsane.isSome_found b)).trans (Worker.leave_map _ _)

theorem Sane.lt_of_owns (hsane : m.Sane) {i r : Nat} (howns : m.owns i r = true) :
    r < m.state.results.length := by
  obtain ⟨operation, t, ho⟩ := owns_iff.mp howns
  exact (hsane.accounted.recorded _ ho).2.1

/-- A result is in sight as before, if its owner and the result itself are the same. -/
theorem results_congr {r : Nat} (howns : m'.owns b r = m.owns b r)
    (hresult : m.owns b r = true → m'.state.results[r]? = m.state.results[r]?) :
    (m'.sight a b).results r = (m.sight a b).results r := by
  simp only [sight, howns]
  split
  · next howner => rw [hresult howner]
  · rfl

/-- What is left of a sight, besides the loop, the results and what the host thread aims at. -/
theorem sight_keep
    (hconnector : ∀ d, (m'.state.engine.connector d).responses =
        (m.state.engine.connector d).responses ∧
      (m'.state.engine.connector d).operations.length =
        (m.state.engine.connector d).operations.length)
    (hconnectors : m'.state.engine.connectors.length = m.state.engine.connectors.length)
    (hserves : ∀ k, m'.serves? k = m.serves? k)
    (hinstances : m'.state.instances.length = m.state.instances.length)
    (hcount : m'.state.results.length = m.state.results.length)
    (hexecutors : m'.state.executors.map Executor.result = m.state.executors.map Executor.result)
    (hattaching : m'.call.attaching? = m.call.attaching?) :
    m'.sight a b = { m.sight a b with
      worker := m'.outlook b
      results := (m'.sight a b).results
      aim := (m'.sight a b).aim } := by
  refine Sight.ext rfl (funext fun d => ?_) hconnectors (funext fun k => ?_) hinstances rfl hcount
    hexecutors hattaching rfl
  · obtain ⟨hresponses, hlength⟩ := hconnector d
    simp only [sight, hresponses, hlength]
  · simp only [sight, hserves]

/-- Nothing but the loop is in sight of what happens to the tasks. -/
theorem sight_of_outlook (hconnectors : m'.state.engine.connectors = m.state.engine.connectors)
    (hinstances : m'.state.instances = m.state.instances)
    (hresults : m'.state.results = m.state.results) (howns : ∀ r, m'.owns b r = m.owns b r)
    (hexecutors : m'.state.executors = m.state.executors) (hcall : m'.call = m.call)
    (haim : (m'.sight a b).aim = (m.sight a b).aim) :
    m'.sight a b = { m.sight a b with worker := m'.outlook b } := by
  have hconnector : ∀ d, m'.state.engine.connector d = m.state.engine.connector d := fun d => by
    rw [Engine.State.connector, hconnectors]
    rfl
  have hsame : (m'.sight a b).results = (m.sight a b).results :=
    funext fun r => results_congr (howns r) fun _ => by rw [hresults]
  rw [sight_keep (fun d => by rw [hconnector d]; exact ⟨rfl, rfl⟩)
    (congrArg List.length hconnectors) (fun k => by rw [serves?, hinstances]; rfl)
    (congrArg List.length hinstances) (congrArg List.length hresults)
    (congrArg (List.map Executor.result) hexecutors) (congrArg Call.attaching? hcall), haim, hsame]

/-! ## Cancelled operations -/

theorem foldl_rouse_map (decided : Nat → Nat → Bool) (c : Nat) (operations : List Nat)
    (l : Loop Task) :
    operations.foldl (fun l o => l.rouse (Chore.awaits c o)) (l.map (Chore.ofTask decided)) =
      (operations.foldl (fun l o => l.rouse (Engine.Task.awaits c o)) l).map
        (Chore.ofTask decided) := by
  induction operations generalizing l with
  | nil => rfl
  | cons o operations ih =>
    have hkind : (fun t => (Chore.ofTask decided t).awaits c o) = Engine.Task.awaits c o :=
      funext fun t => Chore.awaits_ofTask decided c o t
    rw [List.foldl_cons, List.foldl_cons, Loop.rouse_map, hkind, ih]

theorem foldl_rouse_tasks (c : Nat) (operations : List Nat) (l : Loop Task) :
    (operations.foldl (fun l o => l.rouse (Engine.Task.awaits c o)) l).tasks = l.tasks := by
  induction operations generalizing l with
  | nil => rfl
  | cons o operations ih => rw [List.foldl_cons, ih, Loop.rouse_tasks]

theorem outlook_marked {c : Nat} {operations : List Nat}
    (hworker : m'.state.engine.worker b = { m.state.engine.worker b with
      loop := operations.foldl (fun l o => l.rouse (Engine.Task.awaits c o))
        (m.state.engine.loop b) })
    (hbusy : m'.state.engine.busy? b = m.state.engine.busy? b)
    (hdecided : ∀ key d o response timer p,
      (m.state.engine.loop b).tasks.get? key = some (.promote d o response timer p) →
      m'.decided d o = (m.decided d o || (d == c && operations.contains o))) :
    m'.outlook b = ((m.sight a b).abandon c operations).worker := by
  have hloop : (m.sight a b).worker.loop =
      (m.state.engine.loop b).map (Chore.ofTask m.decided) := rfl
  simp only [outlook, hworker, hbusy, Sight.abandon, hloop, foldl_rouse_map, Worker.map,
    Loop.map_map]
  refine congrArg (Worker.mk · _ _ _) (Loop.map_congr fun key t ht => ?_)
  rw [foldl_rouse_tasks] at ht
  cases t with
  | promote d o response timer p =>
    simp only [Chore.ofTask, Chore.mark, hdecided key d o response timer p ht]
  | pull | close | park => rfl

theorem outlook_abandon (hsane : m.Sane) {c : Nat} {operations : List Nat}
    (h : m.state.engine.Abandons m'.state.engine c operations)
    (hbusy : m'.state.engine.busy? b = m.state.engine.busy? b)
    (hlooked : ∀ d o, m'.looked d o = m.looked d o) :
    m'.outlook b = ((m.sight a b).abandon c operations).worker := by
  refine outlook_marked (h.worker b) hbusy fun key d o response timer p ht => ?_
  have hdue := hsane.orderly.due b key _ (congrArg (Option.map Engine.Task.untimed) ht)
  rw [decided, decided, h.cancelled d o hdue.2.1, hlooked, Bool.or_right_comm]

theorem sight_abandon (hsane : m.Sane) {c : Nat} {operations : List Nat}
    (h : m.state.engine.Abandons m'.state.engine c operations)
    (hbusy : m'.state.engine.busy? b = m.state.engine.busy? b)
    (hlooked : ∀ d o, m'.looked d o = m.looked d o)
    (hinstances : m'.state.instances = m.state.instances)
    (hresults : m'.state.results = m.state.results) (howns : ∀ r, m'.owns b r = m.owns b r)
    (hexecutors : m'.state.executors.map Executor.result = m.state.executors.map Executor.result)
    (hattaching : m'.call.attaching? = m.call.attaching?) :
    m'.sight a b = { (m.sight a b).abandon c operations with aim := (m'.sight a b).aim } := by
  have hsame : (m'.sight a b).results = (m.sight a b).results :=
    funext fun r => results_congr (howns r) fun _ => by rw [hresults]
  rw [sight_keep h.connector h.connectors (fun k => by rw [serves?, hinstances]; rfl)
    (congrArg List.length hinstances) (congrArg List.length hresults) hexecutors hattaching,
    hsame, outlook_abandon hsane h hbusy hlooked]
  rfl

/-- Nothing is in sight of a cancellation that comes too late or concerns others. -/
theorem Regular.abandon_eq_self (h : m.Regular) {c : Nat} {operations : List Nat}
    (hnone : ∀ o ∈ operations, ¬ m.Open b c o) :
    (m.sight a b).abandon c operations = m.sight a b := by
  have hdecided : ∀ {key d o : Nat} {response : Engine.Response} {timer : Engine.Timer}
      {p : Promotion}, (m.state.engine.loop b).tasks.get? key =
        some (.promote d o response timer p) → d = c → o ∈ operations → m.decided d o = true := by
    rintro key d o response timer p ht rfl ho
    by_contra hfree
    refine hnone o ho ⟨by simpa using hfree, key, response, p, ?_⟩
    exact congrArg (Option.map Engine.Task.untimed) ht
  -- a promotion that is decided is awake already
  have hrouse : ∀ o ∈ operations,
      (m.state.engine.loop b).rouse (Engine.Task.awaits c o) = m.state.engine.loop b := by
    intro o ho
    refine Loop.rouse_of_ready fun key t ht hawaits => ?_
    obtain ⟨response, p, rfl⟩ := Engine.State.awaits_iff.mp hawaits
    by_contra hready
    obtain ⟨d, o', response', p', heq, hfree⟩ :=
      (h.sane.orderly.sound.loop b).asleep key _ ht hready
    cases heq
    rcases Bool.or_eq_true _ _ ▸ hdecided ht rfl ho with hcancelled | hlooked
    · rw [hcancelled] at hfree
      cases hfree
    · obtain ⟨x, rest, -, hfront⟩ := h.front_of_looked ht hlooked
      exact hready (hfront ▸ List.mem_cons_self)
  have hfold : ∀ operations' : List Nat, (∀ o ∈ operations', o ∈ operations) →
      operations'.foldl (fun l o => l.rouse (Engine.Task.awaits c o)) (m.state.engine.loop b) =
        m.state.engine.loop b := by
    intro operations'
    induction operations' with
    | nil => exact fun _ => rfl
    | cons o operations' ih =>
      intro hmem
      rw [List.foldl_cons, hrouse o (hmem o (by simp))]
      exact ih fun k hk => hmem k (by simp [hk])
  refine Sight.ext ?_ rfl rfl rfl rfl rfl rfl rfl rfl rfl
  refine (outlook_marked ?_ rfl fun key d o response timer p ht => ?_).symm
  · rw [hfold operations fun _ => id]
    rfl
  · by_cases hcancel : d = c ∧ o ∈ operations
    · simp [hdecided ht hcancel.1 hcancel.2]
    · rw [not_and] at hcancel
      by_cases hd : d = c
      · simp [hd, hcancel hd]
      · simp [hd]

/-! ## Results -/

/-- The stream of a result runs on the loop of its owner. -/
theorem Regular.owner_of_stream (h : m.Regular) {r k : Nat} {x : Engine.Stream}
    (htarget : m.state.target? r = some (.active k)) (hx : m.state.engine.stream? k = some x) :
    m.owns b r = true ↔ b = x.loop := by
  obtain ⟨t, error, alive, hreported⟩ := h.sane.accounted.known_of_target htarget
  obtain ⟨i, operation, haccepted, hstream⟩ := h.sane.accounted.recorded _ hreported
  obtain ⟨x', hx', hloop⟩ := hstream k rfl
  obtain rfl := Option.some.inj (hx.symm.trans hx')
  rw [hloop, owns_iff]
  constructor
  · rintro ⟨operation', t', ho⟩
    exact (h.ledger.accepted_unique ho haccepted).1
  · rintro rfl
    exact ⟨operation, t, haccepted⟩

/-- An operation that is still open belongs to the owner of the loop. Its promotion is not past, and has
not looked. -/
theorem Regular.owner_of_open (h : m.Regular) {c o i r t : Nat} (hopen : m.Open b c o)
    (haccepted : .accepted i (.memory c o) r t ∈ m.history) :
    m.owns b r = true ∧ ¬ m.Past r ∧ ∀ seen, .checked t seen ∉ m.history := by
  obtain ⟨hfree, key, response, p, hjob⟩ := hopen
  have hdue := (h.sane.orderly.due b key _ hjob).1
  obtain rfl := h.ledger.operation_unique haccepted hdue
  obtain ⟨hcancelled, hlooked⟩ := (Bool.or_eq_false_iff ..).mp hfree
  refine ⟨owns_iff.mpr ⟨_, _, hdue⟩, ?_, fun seen hchecked => ?_⟩
  · rintro ⟨i', c', o', t', haccepted', hflag | ⟨t'', stream, error, alive, hreported⟩⟩
    · obtain ⟨-, hoperation, -⟩ := h.ledger.accepted_unique haccepted' hdue
      cases hoperation
      rw [hcancelled] at hflag
      cases hflag
    · exact h.ledger.not_reported h.sane hjob hreported
  · rw [looked_iff.mpr ⟨i, _, t, seen, haccepted, hchecked⟩] at hlooked
    cases hlooked

theorem results_modify {r : Nat} {f g : QueryResult → QueryResult}
    (howns : ∀ k, m'.owns b k = m.owns b k)
    (hresults : m'.state.results = m.state.results.modify r f)
    (hcomm : ∀ q, (f q).outline = g q.outline) :
    (m'.sight a b).results = ((m.sight a b).modifyResult r g).results := by
  funext k
  simp only [sight, Sight.modifyResult, howns, hresults, List.getElem?_modify]
  by_cases hk : k = r
  · subst hk
    cases m.owns b k <;> simp [Function.comp_def, hcomm]
  · have hne : r ≠ k := Ne.symm hk
    simp [hk, hne]

theorem results_target {r : Nat} {target : Target} (howns : m.owns b r = true)
    (htarget : m.state.target? r = some target) :
    (m.sight a b).results r = some (QueryResult.outline ⟨target, true⟩) := by
  unfold State.target? at htarget
  split at htarget
  · next q hq =>
    split at htarget
    · next halive =>
      obtain rfl := Option.some.inj htarget
      have heq : q = ⟨q.target, true⟩ := by rw [← halive]
      simp only [sight, howns, if_true, hq, Option.map_some]
      rw [← heq]
    · cases htarget
  · cases htarget

theorem target_of_results {r : Nat} {q : QueryResult} (hq : (m.sight a b).results r = some q)
    (halive : q.alive = true) : m.owns b r = true ∧ ∃ target, m.state.target? r = some target ∧
      q = QueryResult.outline ⟨target, true⟩ := by
  simp only [sight] at hq
  split at hq
  · next howns =>
    obtain ⟨q', hq', rfl⟩ := Option.map_eq_some_iff.mp hq
    have halive' : q'.alive = true := by
      unfold QueryResult.outline at halive
      split at halive <;> exact halive
    have heq : q' = ⟨q'.target, true⟩ := by rw [← halive']
    refine ⟨howns, q'.target, ?_, by rw [← heq]⟩
    simp [State.target?, hq', halive']
  · cases hq

end Moment

end HostBridge.Session
