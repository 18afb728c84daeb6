import HostBridge.Proofs.Engine.Requests
import HostBridge.Proofs.Loop.Map

/-!
# What a request does to an engine, in full

A task that is handed over joins the tasks of one loop. A cancellation marks operations, and wakes
their promotions on whatever loop they sleep: closing a cluster does so for all operations of its
connector, a cancellation on request for one. Either way it is said here what becomes of every loop
and of every connector.
-/

namespace HostBridge.Engine.State

variable {π ρ κ : Type} {s : State π ρ κ}

/-! ## Tasks for a loop -/

theorem worker_spawned {l : Nat} (hl : l < s.workers.length) (t : Task π ρ κ) (k : Nat) :
    (s.spawned l t).worker k =
      if k = l then { s.worker l with loop := ((s.loop l).spawn t).2 } else s.worker k := by
  rw [spawned, modifyLoop, worker_modifyWorker]
  by_cases hk : k = l
  · rw [if_pos ⟨hk, hl⟩, if_pos hk]
  · rw [if_neg fun h => hk h.1, if_neg hk]

/-- A loop is handed a task, and keeps it unless it was asked to stop. -/
theorem worker_submit {l : Nat} (hl : l < s.workers.length) (t : Task π ρ κ) (k : Nat) :
    (s.submit l t).2.worker k =
      if k = l then { s.worker l with loop := ((s.loop l).spawn t).2 } else s.worker k := by
  cases hstop : (s.loop l).stopping with
  | true =>
    rw [submit_of_stopping hstop, Loop.spawn_of_stopping hstop]
    split
    · next hk => rw [hk]; rfl
    · rfl
  | false =>
    rw [submit_of_not_stopping hstop, worker_spawned hl]

theorem connectors_submit (s : State π ρ κ) (l : Nat) (t : Task π ρ κ) :
    (s.submit l t).2.connectors = s.connectors := by
  unfold submit
  split <;> rfl

/-- A pull that is answered on the spot is answered with a row. -/
theorem pull_fst (s : State π ρ κ) (k : Nat) (reply : ρ) :
    (s.pull k reply).1 = none ∨ ∃ row, (s.pull k reply).1 = some (.row reply row) := by
  unfold pull
  split
  · exact Or.inr ⟨_, rfl⟩
  · unfold submit
    split
    · exact Or.inl rfl
    · exact Or.inr ⟨_, rfl⟩

/-- A pull is handed to a loop, and nothing else changes. -/
theorem pull_snd (s : State π ρ κ) (k : Nat) (reply : ρ) :
    (s.pull k reply).2.connectors = s.connectors ∧ (s.pull k reply).2.streams = s.streams := by
  unfold pull submit
  split
  · exact ⟨rfl, rfl⟩
  · split <;> exact ⟨rfl, rfl⟩

/-! ## Cancellations -/

/-- Operations of a connector were cancelled, and on every loop their promotions woke up. -/
structure Abandons (s s' : State π ρ κ) (c : Nat) (operations : List Nat) : Prop where
  /-- The promotions of the operations are awake. -/
  worker : ∀ l, s'.worker l = { s.worker l with
    loop := operations.foldl (fun x o => x.rouse (Task.awaits c o)) (s.loop l) }
  /-- The loops are the same. -/
  workers : s'.workers.length = s.workers.length
  /-- Nothing else is cancelled. -/
  cancelled : ∀ d o, o < (s.connector d).operations.length →
    s'.isCancelled d o = (s.isCancelled d o || (d == c && operations.contains o))
  /-- Connectors keep their responses and their operations. -/
  connector : ∀ d, (s'.connector d).responses = (s.connector d).responses ∧
    (s'.connector d).operations.length = (s.connector d).operations.length
  /-- The connectors are the same. -/
  connectors : s'.connectors.length = s.connectors.length

namespace Abandons

variable {s' : State π ρ κ} {c : Nat} {operations : List Nat}

theorem abandon (h : Abandons s s' c operations) (o : Nat) :
    Abandons s (s'.abandon c o) c (operations ++ [o]) where
  worker l := by
    have hworker : (s'.abandon c o).worker l =
        { s'.worker l with loop := (s'.loop l).rouse (Task.awaits c o) } := worker_wake _ c o l
    rw [hworker, loop, h.worker, List.foldl_append]
    rfl
  workers := (woken_abandon s' c o).length.trans h.workers
  cancelled d p hp := by
    have hp' : p < (s'.connector d).operations.length := (h.connector d).2 ▸ hp
    by_cases hself : d = c ∧ p = o
    · obtain ⟨rfl, rfl⟩ := hself
      rw [isCancelled_abandon_self hp']
      simp
    · rw [isCancelled_abandon_ne hself, h.cancelled d p hp]
      rw [not_and] at hself
      by_cases hd : d = c
      · simp [hd, hself hd]
      · have hne : (d == c) = false := beq_eq_false_iff_ne.mpr hd
        simp [hne]
  connector d := by
    obtain ⟨hresponses, hlength⟩ := (woken_abandon s' c o).connector d
    exact ⟨hresponses.trans (h.connector d).1, hlength.trans (h.connector d).2⟩
  connectors := by
    simpa [State.abandon, wake, modifyConnector] using h.connectors

theorem abandonAll (h : Abandons s s' c operations) (more : List Nat) :
    Abandons s (s'.abandonAll c more) c (operations ++ more) := by
  induction more generalizing s' operations with
  | nil =>
    rw [List.append_nil]
    exact h
  | cons o more ih =>
    have hall := ih (h.abandon o)
    rw [List.append_assoc] at hall
    exact hall

/-- The connector takes notice before it cancels. -/
theorem counted {f : Connector → Connector} (hresponses : ∀ x, (f x).responses = x.responses)
    (hlength : ∀ x, (f x).operations.length = x.operations.length)
    (hflags : ∀ (x : Connector) (o : Nat), ((f x).operations[o]?.map Operation.cancelled).getD false =
      (x.operations[o]?.map Operation.cancelled).getD false) :
    Abandons s (s.modifyConnector c f) c [] where
  worker _ := rfl
  workers := rfl
  cancelled d o _ := by
    rw [isCancelled_modifyConnector fun p => hflags _ p]
    simp
  connector d := by
    rw [connector_modifyConnector]
    split
    · next hd => rw [hd.1]; exact ⟨hresponses _, hlength _⟩
    · exact ⟨rfl, rfl⟩
  connectors := by simp [modifyConnector]

end Abandons

theorem abandons_closing (s : State π ρ κ) (c : Nat) :
    Abandons s (s.closing c) c (List.range (s.connector c).operations.length) := by
  have hcount : Abandons s (s.modifyConnector c fun x => { x with closes := x.closes + 1 }) c [] :=
    .counted (fun _ => rfl) (fun _ => rfl) fun _ _ => rfl
  exact hcount.abandonAll _

theorem abandons_cancelOperation (s : State π ρ κ) (c o : Nat) :
    Abandons s (s.cancelOperation c o) c [o] := by
  have hcount : Abandons s (s.modifyConnector c fun x => { x with
      operations := x.operations.modify o fun p => { p with cancels := p.cancels + 1 } }) c [] :=
    .counted (fun _ => rfl) (fun _ => List.length_modify ..) fun _ => cancelled_counted _ o
  exact hcount.abandon o

/-! ## Turns -/

section Turn

variable {l : Nat} {completion : Option (Completion π ρ κ)} {s' : State π ρ κ}

theorem Turned.worker_ne (h : Turned s l completion s') {k : Nat} (hk : k ≠ l) :
    s'.worker k = s.worker k := by
  have hmodify : ∀ f, (s.modifyWorker l f).worker k = s.worker k := fun f => by
    rw [worker_modifyWorker, if_neg fun h => hk h.1]
  cases h with
  | look | sleep | check | draw | pull | close | park => exact hmodify _
  | report _ _ hsettled =>
    rw [worker, hsettled.workers]
    exact hmodify _

/-- A turn leaves connectors their responses and operations. -/
theorem Turned.connector (h : Turned s l completion s') (d : Nat) :
    (s'.connector d).responses = (s.connector d).responses ∧
      (s'.connector d).operations = (s.connector d).operations := by
  cases h with
  | look | sleep | check | draw | pull | close | park => exact ⟨rfl, rfl⟩
  | report _ _ hsettled => exact hsettled.connector d

theorem Turned.isCancelled (h : Turned s l completion s') (c o : Nat) :
    s'.isCancelled c o = s.isCancelled c o := by
  simp only [State.isCancelled, (h.connector c).2]

theorem Turned.connectors (h : Turned s l completion s') :
    s'.connectors.length = s.connectors.length := by
  cases h with
  | look | sleep | check | draw | pull | close | park => rfl
  | report _ _ hsettled =>
    cases hsettled with
    | cancelled | failed => rfl
    | promoted => exact List.length_modify ..

/-- The task that the thread of a loop runs next, unless it has to look at its signals. -/
def front? (s : State π ρ κ) (l : Nat) : Option (Nat × Task π ρ κ) :=
  if (s.worker l).mustLook then none
  else (s.loop l).front?.bind fun (key, t) => t.map fun t => (key, t)

theorem front?_eq_some {key : Nat} {t : Task π ρ κ} :
    s.front? l = some (key, t) ↔ (s.worker l).mustLook = false ∧
      ∃ rest, (s.loop l).ready = key :: rest ∧ (s.loop l).tasks.get? key = some t := by
  unfold front? Loop.front?
  cases (s.worker l).mustLook with
  | true => simp
  | false =>
    cases (s.loop l).ready with
    | nil => simp
    | cons k rest =>
      simp only [Bool.false_eq_true, if_false, List.head?_cons, Option.map_some, Option.bind_some,
        Option.map_eq_some_iff, Prod.mk.injEq, List.cons.injEq, true_and]
      constructor
      · rintro ⟨u, hu, rfl, rfl⟩
        exact ⟨rest, ⟨rfl, rfl⟩, hu⟩
      · rintro ⟨rest', ⟨rfl, rfl⟩, hu⟩
        exact ⟨t, hu, rfl, rfl⟩

theorem job?_of_front? {key : Nat} {t : Task π ρ κ} (hfront : s.front? l = some (key, t)) :
    s.job? l key = some t.untimed := by
  obtain ⟨-, rest, -, ht⟩ := front?_eq_some.mp hfront
  rw [job?, ht, Option.map_some]

/-- The number of the loop whose thread has a task to run is that of a loop. -/
theorem lt_of_front? {key : Nat} {t : Task π ρ κ} (hfront : s.front? l = some (key, t)) :
    l < s.workers.length :=
  lt_of_job? (job?_of_front? hfront)

/-- A thread that need not look at its signals has a task to run. -/
theorem Sound.exists_front? (h : s.Sound) (hmust : (s.worker l).mustLook = false) :
    ∃ key t, s.front? l = some (key, t) := by
  obtain ⟨key, rest, hready⟩ := List.exists_cons_of_ne_nil (Worker.ready_of_not_mustLook hmust).1
  obtain ⟨t, ht⟩ := Option.isSome_iff_exists.mp
    ((h.loop l).full key (by rw [State.loop, hready]; simp))
  exact ⟨key, t, front?_eq_some.mpr ⟨hmust, rest, hready, ht⟩⟩

theorem turn_of_mustLook (hmust : (s.worker l).mustLook = true) :
    s.turn l = (none, s.looked l) := by
  rw [turn, if_pos hmust, looked]

section Front

variable {key : Nat}

theorem turn_front {t : Task π ρ κ} (hfront : s.front? l = some (key, t)) :
    s.turn l = s.runTask l key t := by
  obtain ⟨hmust, rest, hready, ht⟩ := front?_eq_some.mp hfront
  have hfront' : (s.loop l).front? = some (key, some t) := by simp [Loop.front?, hready, ht]
  rw [turn, if_neg (by simp [hmust]), tick, hfront']

variable {c o : Nat} {response : Response} {timer : Timer} {p : π}

theorem turn_sleep (hfront : s.front? l = some (key, .promote c o response timer p))
    (hfound : (s.worker l).found = none) (hsleep : s.mustSleep c o response timer = true) :
    s.turn l = (none, s.slept l key (.promote c o response .armed p)) := by
  rw [turn_front hfront]
  simp only [runTask, hfound, hsleep, if_true]

theorem turn_check {t : Task π ρ κ} {cancelled : Bool} (hfront : s.front? l = some (key, t))
    (hfound : (s.worker l).found = none) (hchecks : s.Checks t cancelled) :
    s.turn l = (none, s.checked l cancelled) := by
  rw [turn_front hfront]
  cases hchecks with
  | promote hsleep => simp only [runTask, hfound, hsleep, Bool.false_eq_true, if_false]
  | pull => simp only [runTask, hfound]

theorem turn_draw {k : Nat} {reply : ρ} {cancelled : Bool}
    (hfront : s.front? l = some (key, .pull k reply))
    (hfound : (s.worker l).found = some (.flag cancelled)) :
    s.turn l = (none, s.drawn l k cancelled) := by
  rw [turn_front hfront]
  simp only [runTask, hfound]

theorem turn_settle {cancelled : Bool} (hfront : s.front? l = some (key, .promote c o response timer p))
    (hfound : (s.worker l).found = some (.flag cancelled)) : ∃ stream error s',
      s.turn l = (some (.promoted p stream error), s') ∧
      Settled s l key c response stream error s' := by
  rw [turn_front hfront]
  exact runTask_settle hfound c o response timer p

theorem turn_pull {k : Nat} {reply : ρ} {row : Row} (hfront : s.front? l = some (key, .pull k reply))
    (hfound : (s.worker l).found = some (.row row)) :
    s.turn l = (some (.row reply row), s.finished l key) := by
  rw [turn_front hfront]
  simp only [runTask, hfound]

theorem turn_close {reply : κ} (hfront : s.front? l = some (key, .close reply)) :
    s.turn l = (some (.closed reply), s.finished l key) := by
  rw [turn_front hfront]
  simp only [runTask]

/-! ### Glances -/

/-- The task that looks in the next turn of a loop whether it was cancelled, with what it sees. -/
def glance? (s : State π ρ κ) (l : Nat) : Option (Task π ρ κ × Bool) :=
  match (s.worker l).found, ((s.turn l).2.worker l).found, (s.loop l).front? with
  | none, some (.flag cancelled), some (_, some t) => some (t, cancelled)
  | _, _, _ => none

theorem glance?_eq_none (h : ((s.turn l).2.worker l).found = none ∨ (s.worker l).found ≠ none) :
    s.glance? l = none := by
  unfold glance?
  rcases h with h | h
  · rw [h]
    cases (s.worker l).found <;> rfl
  · cases hx : (s.worker l).found with
    | none => exact absurd hx h
    | some x => rfl

theorem glance?_check {t : Task π ρ κ} {cancelled : Bool} (hfront : s.front? l = some (key, t))
    (hfound : (s.worker l).found = none) (hchecks : s.Checks t cancelled) :
    s.glance? l = some (t, cancelled) := by
  have hl := lt_of_front? hfront
  obtain ⟨-, rest, hready, ht⟩ := front?_eq_some.mp hfront
  have hfront' : (s.loop l).front? = some (key, some t) := by simp [Loop.front?, hready, ht]
  have hfound' := found_checked hl cancelled
  simp only [glance?, turn_check hfront hfound hchecks, hfound, hfound', hfront']

/-- A task that ends in a turn does not look in it. -/
theorem glance?_of_finished {t : Task π ρ κ} (hfront : s.front? l = some (key, t))
    (hturn : (s.turn l).2.workers = (s.finished l key).workers) : s.glance? l = none := by
  refine glance?_eq_none (Or.inl ?_)
  rw [worker, hturn]
  exact found_finished (lt_of_front? hfront) key

/-- A task that goes to sleep does not look. -/
theorem glance?_of_mustSleep (hfront : s.front? l = some (key, .promote c o response timer p))
    (hfound : (s.worker l).found = none) (hsleep : s.mustSleep c o response timer = true) :
    s.glance? l = none := by
  refine glance?_eq_none (Or.inl ?_)
  rw [turn_sleep hfront hfound hsleep]
  exact found_slept (lt_of_front? hfront) key _

end Front

/-- A task that looks is one of its loop. -/
theorem exists_job?_of_glance? {t : Task π ρ κ} {cancelled : Bool}
    (h : s.glance? l = some (t, cancelled)) : ∃ key, s.job? l key = some t.untimed := by
  unfold glance? at h
  split at h
  · next key t' hfront =>
    obtain ⟨rfl, rfl⟩ := Prod.mk.inj (Option.some.inj h)
    obtain ⟨key', -, hkey⟩ := Option.map_eq_some_iff.mp hfront
    obtain ⟨rfl, ht⟩ := Prod.mk.inj hkey
    exact ⟨key', by rw [job?, ht, Option.map_some]⟩
  · cases h

/-- A thread that looks at its signals runs no task. -/
theorem glance?_of_mustLook (hmust : (s.worker l).mustLook = true) : s.glance? l = none := by
  refine glance?_eq_none ?_
  rw [turn_of_mustLook hmust]
  rcases worker_looked s l l with hworker | ⟨-, hworker⟩
  · rw [hworker]; exact em _
  · rw [hworker, Worker.look_found]; exact em _

/-- A task that reports something leaves the thread. -/
theorem found_of_runTask {t : Task π ρ κ} {completion : Completion π ρ κ}
    (hl : l < s.workers.length) (h : (s.runTask l key t).1 = some completion) :
    ((s.runTask l key t).2.worker l).found = none := by
  have hsettle : ∀ c response cancelled,
      (s.settle l c response cancelled).2.2.workers = s.workers := by
    intro c response cancelled
    unfold settle
    split
    · rfl
    · split <;> rfl
  revert h
  unfold runTask
  split
  case h_1 => exact fun _ => found_finished (by rw [hsettle]; exact hl) key
  case h_2 =>
    split
    · exact fun h => by cases h
    · exact fun h => by cases h
  case h_5 | h_6 => exact fun _ => found_finished hl key
  all_goals exact fun h => by cases h

/-- In a turn in which something is reported no task looks. -/
theorem glance?_of_report {completion : Completion π ρ κ} (h : (s.turn l).1 = some completion) :
    s.glance? l = none := by
  cases hmust : (s.worker l).mustLook with
  | true => exact glance?_of_mustLook hmust
  | false =>
    have hturn : s.turn l = s.tick l := if_neg (by simp [hmust])
    refine glance?_eq_none (Or.inl ?_)
    rw [hturn, tick] at h ⊢
    split at h
    · cases h
    · cases h
    · next key t hready =>
      have hfront : s.front? l = some (key, t) := by simp [front?, hmust, hready]
      exact found_of_runTask (lt_of_front? hfront) h

end Turn

end HostBridge.Engine.State
