import HostBridge.Engine.Basic
import HostBridge.Proofs.Loop

/-!
# Cancelled operations wake their tasks

Cancelling an operation, and closing a cluster, which cancels every operation of its connector, set
flags and put sleeping tasks back into the queues of their loops. `Woken` says that two states differ
in nothing else. An engine is *sound* if on every loop a task that is not ready sleeps for a delay
and its operation is not cancelled: no cancellation is lost on a sleeping task. A task that the
thread is in the middle of stands in front of the queue, and has not seen a cancellation that was
none.
-/

namespace HostBridge.Engine

variable {π ρ κ : Type}

namespace State

variable {s s' : State π ρ κ}

/-! ## Parts -/

theorem worker_eq {l : Nat} {w : Worker (Task π ρ κ)} (h : s.workers[l]? = some w) :
    s.worker l = w := by
  simp [worker, h]

theorem workers_getElem? {l : Nat} (h : l < s.workers.length) :
    s.workers[l]? = some (s.worker l) := by
  simp [worker, h]

theorem worker_of_le {l : Nat} (h : s.workers.length ≤ l) : s.worker l = {} := by
  simp [worker, h]

theorem worker_mem {l : Nat} (h : l < s.workers.length) : s.worker l ∈ s.workers :=
  List.mem_of_getElem? (workers_getElem? h)

theorem worker_modifyWorker (s : State π ρ κ) (l k : Nat)
    (f : Worker (Task π ρ κ) → Worker (Task π ρ κ)) :
    (s.modifyWorker l f).worker k =
      if k = l ∧ l < s.workers.length then f (s.worker l) else s.worker k := by
  simp only [worker, modifyWorker, List.getD_eq_getElem?_getD, List.getElem?_modify]
  by_cases hk : l = k
  · subst hk
    by_cases hl : l < s.workers.length
    · simp [hl]
    · simp [hl]
  · have : ¬ k = l := fun e => hk e.symm
    simp [hk, this]

theorem connector_modifyConnector (s : State π ρ κ) (c d : Nat) (f : Connector → Connector) :
    (s.modifyConnector c f).connector d =
      if d = c ∧ c < s.connectors.length then f (s.connector c) else s.connector d := by
  simp only [connector, modifyConnector, List.getD_eq_getElem?_getD, List.getElem?_modify]
  by_cases hd : c = d
  · subst hd
    by_cases hc : c < s.connectors.length
    · simp [hc]
    · simp [hc]
  · have : ¬ d = c := fun e => hd e.symm
    simp [hd, this]

/-- An operation belongs to a connector that is there. -/
theorem lt_connectors_of_lt_operations {c o : Nat}
    (h : o < (s.connector c).operations.length) : c < s.connectors.length := by
  by_contra hc
  simp [connector, Nat.le_of_not_lt hc] at h

/-- A change of a connector that keeps the flags of its operations keeps them all. -/
theorem isCancelled_modifyConnector {c : Nat} {f : Connector → Connector}
    (hf : ∀ o, ((f (s.connector c)).operations[o]?.map Operation.cancelled).getD false =
      s.isCancelled c o) (d o : Nat) :
    (s.modifyConnector c f).isCancelled d o = s.isCancelled d o := by
  unfold isCancelled
  rw [connector_modifyConnector]
  split
  · next hd =>
    rw [hd.1]
    exact hf o
  · rfl

/-! ## Waking -/

/-- Operations were cancelled and sleeping tasks woken; nothing else happened. -/
structure Woken (s s' : State π ρ κ) : Prop where
  /-- Streams are not touched. -/
  streams : s'.streams = s.streams
  /-- The loops are the same. -/
  length : s'.workers.length = s.workers.length
  /-- Only sleeping tasks join the queue of a loop, at its end. -/
  worker : ∀ l, ∃ extra, s'.worker l =
      { s.worker l with loop := { s.loop l with ready := (s.loop l).ready ++ extra } } ∧
    ∀ key ∈ extra, ∃ c o response reply,
      (s.loop l).tasks.get? key = some (.promote c o response .armed reply)
  /-- Connectors keep their responses and their operations. -/
  connector : ∀ c, (s'.connector c).responses = (s.connector c).responses ∧
    (s'.connector c).operations.length = (s.connector c).operations.length
  /-- What was cancelled stays cancelled. -/
  cancelled : ∀ c o, s.isCancelled c o = true → s'.isCancelled c o = true

namespace Woken

theorem refl (s : State π ρ κ) : Woken s s where
  streams := rfl
  length := rfl
  worker l := ⟨[], by simp [loop], by simp⟩
  connector _ := ⟨rfl, rfl⟩
  cancelled _ _ h := h

theorem trans {s'' : State π ρ κ} (h : Woken s s') (h' : Woken s' s'') : Woken s s'' where
  streams := h'.streams.trans h.streams
  length := h'.length.trans h.length
  worker l := by
    obtain ⟨extra, hw, hextra⟩ := h.worker l
    obtain ⟨extra', hw', hextra'⟩ := h'.worker l
    refine ⟨extra ++ extra', ?_, fun key hk => ?_⟩
    · rw [hw', loop, hw]
      simp
    · rcases List.mem_append.mp hk with hk | hk
      · exact hextra key hk
      · have := hextra' key hk
        rwa [loop, hw] at this
  connector c := ⟨(h'.connector c).1.trans (h.connector c).1,
    (h'.connector c).2.trans (h.connector c).2⟩
  cancelled c o hc := h'.cancelled c o (h.cancelled c o hc)

theorem tasks (h : Woken s s') (l : Nat) : (s'.loop l).tasks = (s.loop l).tasks := by
  obtain ⟨extra, hw, -⟩ := h.worker l
  rw [loop, hw]

theorem stopping (h : Woken s s') (l : Nat) : (s'.loop l).stopping = (s.loop l).stopping := by
  obtain ⟨extra, hw, -⟩ := h.worker l
  rw [loop, hw]

theorem stage (h : Woken s s') (l : Nat) : (s'.worker l).stage = (s.worker l).stage := by
  obtain ⟨extra, hw, -⟩ := h.worker l
  rw [hw]

end Woken

/-- Waking keys that are not ready yet puts them at the end of the queue. -/
theorem exists_foldl_wake {τ : Type} (keys : List Nat) (l : Loop τ) :
    ∃ extra, keys.foldl Loop.wake l = { l with ready := l.ready ++ extra } ∧
      ∀ key ∈ extra, key ∈ keys := by
  induction keys generalizing l with
  | nil => exact ⟨[], by simp⟩
  | cons key keys ih =>
    obtain ⟨extra, he, hmem⟩ := ih (l.wake key)
    rw [List.foldl_cons, he]
    unfold Loop.wake
    split
    · exact ⟨extra, rfl, fun k hk => List.mem_cons_of_mem _ (hmem k hk)⟩
    · refine ⟨key :: extra, by simp, fun k hk => ?_⟩
      rcases List.mem_cons.mp hk with rfl | hk
      · exact List.mem_cons_self
      · exact List.mem_cons_of_mem _ (hmem k hk)

theorem awaits_iff {c o : Nat} {t : Task π ρ κ} :
    t.awaits c o = true ↔ ∃ response reply, t = .promote c o response .armed reply := by
  cases t with
  | promote c' o' response timer reply =>
    cases timer <;> simp [Task.awaits]
  | pull stream reply => simp [Task.awaits]
  | close reply => simp [Task.awaits]
  | park => simp [Task.awaits]

/-- The keys of the tasks of a loop that wait for an operation. -/
def sleepers (l : Loop (Task π ρ κ)) (c o : Nat) : List Nat :=
  l.tasks.keys.filter fun key => (l.tasks.get? key).any (Task.awaits c o)

theorem mem_sleepers {l : Loop (Task π ρ κ)} {c o key : Nat} :
    key ∈ sleepers l c o ↔
      ∃ response reply, l.tasks.get? key = some (.promote c o response .armed reply) := by
  simp only [sleepers, List.mem_filter, Registry.mem_keys, Option.any_eq_true]
  constructor
  · rintro ⟨-, t, ht, hawaits⟩
    obtain ⟨response, reply, rfl⟩ := awaits_iff.mp hawaits
    exact ⟨response, reply, ht⟩
  · rintro ⟨response, reply, ht⟩
    exact ⟨by simp [ht], _, ht, awaits_iff.mpr ⟨response, reply, rfl⟩⟩

theorem worker_wake (s : State π ρ κ) (c o l : Nat) :
    (s.wake c o).worker l =
      { s.worker l with loop := (sleepers (s.loop l) c o).foldl Loop.wake (s.loop l) } := by
  simp only [wake, worker, List.getD_eq_getElem?_getD, List.getElem?_map, loop, sleepers]
  cases s.workers[l]? with
  | none => simp [Registry.keys]
  | some w => rfl

theorem woken_wake (s : State π ρ κ) (c o : Nat) : Woken s (s.wake c o) where
  streams := rfl
  length := by simp [wake]
  worker l := by
    rw [worker_wake]
    obtain ⟨extra, he, hmem⟩ := exists_foldl_wake (sleepers (s.loop l) c o) (s.loop l)
    refine ⟨extra, by rw [he], fun key hk => ?_⟩
    obtain ⟨response, reply, ht⟩ := mem_sleepers.mp (hmem key hk)
    exact ⟨c, o, response, reply, ht⟩
  connector _ := ⟨rfl, rfl⟩
  cancelled _ _ h := h

/-- Raising flags and counts of operations. -/
theorem woken_modifyConnector {c : Nat} {f : Connector → Connector}
    (hresponses : ∀ x, (f x).responses = x.responses)
    (hlength : ∀ x, (f x).operations.length = x.operations.length)
    (hcancelled : ∀ (x : Connector) (o : Nat),
      (x.operations[o]?.map Operation.cancelled).getD false = true →
        ((f x).operations[o]?.map Operation.cancelled).getD false = true) :
    Woken s (s.modifyConnector c f) where
  streams := rfl
  length := rfl
  worker l := ⟨[], by simp [worker, loop, modifyConnector], by simp⟩
  connector d := by
    rw [connector_modifyConnector]
    split
    · next hd => rw [hd.1]; exact ⟨hresponses _, hlength _⟩
    · exact ⟨rfl, rfl⟩
  cancelled d o hd := by
    rw [isCancelled, connector_modifyConnector]
    split
    · next hd' =>
      rw [hd'.1] at hd
      exact hcancelled _ o hd
    · exact hd

theorem woken_abandon (s : State π ρ κ) (c o : Nat) : Woken s (s.abandon c o) := by
  have hflag : Woken s (s.modifyConnector c fun x =>
      { x with operations := x.operations.modify o fun p => { p with cancelled := true } }) := by
    refine woken_modifyConnector (fun _ => rfl) (fun _ => by simp) ?_
    intro x k hk
    rw [List.getElem?_modify]
    cases hx : x.operations[k]? with
    | none => simp [hx] at hk
    | some p =>
      by_cases ho : o = k
      · simp [ho]
      · simpa [ho, hx] using hk
  exact hflag.trans (woken_wake _ c o)

theorem isCancelled_abandon_self {c o : Nat} (h : o < (s.connector c).operations.length) :
    (s.abandon c o).isCancelled c o = true := by
  have hc := lt_connectors_of_lt_operations h
  show (s.modifyConnector c _).isCancelled c o = true
  rw [isCancelled, connector_modifyConnector, if_pos ⟨rfl, hc⟩]
  simp [h]

theorem isCancelled_abandon_ne {c o c' o' : Nat} (h : ¬ (c' = c ∧ o' = o)) :
    (s.abandon c o).isCancelled c' o' = s.isCancelled c' o' := by
  show (s.modifyConnector c _).isCancelled c' o' = s.isCancelled c' o'
  rw [isCancelled, isCancelled, connector_modifyConnector]
  split
  · next hc =>
    have ho : ¬ o = o' := fun e => h ⟨hc.1, e.symm⟩
    rw [hc.1, List.getElem?_modify]
    simp [ho]
  · rfl

/-- Counting a cancellation changes no flag. -/
theorem cancelled_counted (operations : List Operation) (o k : Nat) :
    ((operations.modify o fun p => { p with cancels := p.cancels + 1 })[k]?.map
      Operation.cancelled).getD false = (operations[k]?.map Operation.cancelled).getD false := by
  rw [List.getElem?_modify]
  cases operations[k]? with
  | none => simp
  | some p => by_cases ho : o = k <;> simp [ho]

theorem woken_cancelOperation (s : State π ρ κ) (c o : Nat) : Woken s (s.cancelOperation c o) := by
  have hcount : Woken s (s.modifyConnector c fun x =>
      { x with operations := x.operations.modify o fun p => { p with cancels := p.cancels + 1 } }) :=
    woken_modifyConnector (fun _ => rfl) (fun _ => by simp) fun x k hk => by
      rw [cancelled_counted]
      exact hk
  exact hcount.trans (woken_abandon _ c o)

theorem isCancelled_cancelOperation {c o : Nat} (h : o < (s.connector c).operations.length) :
    (s.cancelOperation c o).isCancelled c o = true := by
  refine isCancelled_abandon_self ?_
  rw [connector_modifyConnector, if_pos ⟨rfl, lt_connectors_of_lt_operations h⟩]
  simpa using h

theorem isCancelled_cancelOperation_ne {c o c' o' : Nat} (h : ¬ (c' = c ∧ o' = o)) :
    (s.cancelOperation c o).isCancelled c' o' = s.isCancelled c' o' := by
  rw [cancelOperation, isCancelled_abandon_ne h]
  exact isCancelled_modifyConnector (fun k => cancelled_counted _ o k) c' o'

/-! ## Counts -/

/-- Giving up an operation does not count as a cancellation on request. -/
theorem cancels_abandon (s : State π ρ κ) (c o d : Nat) :
    ((s.abandon c o).connector d).operations.map Operation.cancels =
      (s.connector d).operations.map Operation.cancels := by
  have hconnector : (s.abandon c o).connector d = (s.modifyConnector c fun x => { x with
      operations := x.operations.modify o fun p => { p with cancelled := true } }).connector d := rfl
  rw [hconnector, connector_modifyConnector]
  split
  · next hd =>
    rw [hd.1]
    refine List.ext_getElem? fun k => ?_
    simp only [List.getElem?_map, List.getElem?_modify]
    by_cases ho : o = k <;> cases (s.connector c).operations[k]? <;> simp [ho]
  · rfl

/-- A cancellation on request is counted by its operation, and by no other. -/
theorem getElem?_cancels_cancelOperation (s : State π ρ κ) (c o d k : Nat) :
    (((s.cancelOperation c o).connector d).operations.map Operation.cancels)[k]? =
      if d = c ∧ k = o then
        ((s.connector d).operations.map Operation.cancels)[k]?.map (· + 1)
      else ((s.connector d).operations.map Operation.cancels)[k]? := by
  rw [cancelOperation, cancels_abandon, connector_modifyConnector]
  by_cases hd : d = c
  · subst hd
    by_cases hlt : d < s.connectors.length
    · rw [if_pos ⟨rfl, hlt⟩]
      simp only [List.getElem?_map, List.getElem?_modify]
      by_cases hk : k = o
      · cases (s.connector d).operations[k]? <;> simp [hk]
      · have hne : ¬ o = k := fun e => hk e.symm
        cases (s.connector d).operations[k]? <;> simp [hk, hne]
    · have hnone : s.connector d = {} := by simp [connector, Nat.le_of_not_lt hlt]
      simp [hlt, hnone]
  · simp [hd]

theorem cancels_cancelOperation {c o n : Nat}
    (h : ((s.connector c).operations.map Operation.cancels)[o]? = some n) :
    (((s.cancelOperation c o).connector c).operations.map Operation.cancels)[o]? = some (n + 1) := by
  rw [getElem?_cancels_cancelOperation, if_pos ⟨rfl, rfl⟩, h]
  rfl

/-! ## Soundness -/

/-- The task sleeps for its delay, and its operation was not cancelled. -/
def Sleeps (s : State π ρ κ) (t : Task π ρ κ) : Prop :=
  ∃ c o response reply, t = .promote c o response .armed reply ∧ s.isCancelled c o = false

/-- The task can have found that out: if it has seen that it was cancelled, it was. -/
def Finds (s : State π ρ κ) : Task π ρ κ → Finding → Prop
  | .promote c o _ _ _, .flag cancelled => cancelled = true → s.isCancelled c o = true
  | .pull i _, .flag cancelled => cancelled = true → s.isStreamCancelled i = true
  | .pull _ _, .row _ => True
  | _, _ => False

/-- What the thread has found out, the task in front has. -/
def Engaged (s : State π ρ κ) (w : Worker (Task π ρ κ)) : Prop :=
  ∀ x, w.found = some x → ∃ key rest t, w.loop.ready = key :: rest ∧
    w.loop.tasks.get? key = some t ∧ s.Finds t x

/-- On every loop, what is not ready sleeps, and the thread is in the middle of the task in front or of
none. -/
def Sound (s : State π ρ κ) : Prop :=
  ∀ w ∈ s.workers, w.loop.Sound s.Sleeps ∧ s.Engaged w

theorem sleeps_congr (h : ∀ c o, s'.isCancelled c o = s.isCancelled c o) :
    s'.Sleeps = s.Sleeps := by
  funext t
  simp [Sleeps, h]

theorem Finds.mono {t : Task π ρ κ} {x : Finding} (h : s.Finds t x)
    (hcancelled : ∀ c o, s.isCancelled c o = true → s'.isCancelled c o = true)
    (hstreams : ∀ i, s.isStreamCancelled i = true → s'.isStreamCancelled i = true) :
    s'.Finds t x := by
  cases t with
  | promote c o =>
    cases x with
    | flag b => exact fun hb => hcancelled c o (h hb)
    | row => exact h
  | pull i =>
    cases x with
    | flag b => exact fun hb => hstreams i (h hb)
    | row => trivial
  | close | park => cases x <;> exact h

theorem Engaged.of_found {w : Worker (Task π ρ κ)} (h : w.found = none) : s.Engaged w := by
  simp [Engaged, h]

/-- The queue of a loop goes on, and the task in front with it. -/
theorem Engaged.grow {w w' : Worker (Task π ρ κ)} (h : s.Engaged w) (hfound : w'.found = w.found)
    {extra : List Nat} (hready : w'.loop.ready = w.loop.ready ++ extra)
    (htask : ∀ key t x, w.loop.tasks.get? key = some t → s.Finds t x →
      ∃ t', w'.loop.tasks.get? key = some t' ∧ s'.Finds t' x) : s'.Engaged w' := by
  intro x hx
  obtain ⟨key, rest, t, hkey, ht, hfinds⟩ := h x (hfound ▸ hx)
  obtain ⟨t', ht', hfinds'⟩ := htask key t x ht hfinds
  exact ⟨key, rest ++ extra, t', by rw [hready, hkey, List.cons_append], ht', hfinds'⟩

theorem Sound.loop (h : s.Sound) (l : Nat) : (s.loop l).Sound s.Sleeps := by
  by_cases hl : l < s.workers.length
  · exact (h _ (worker_mem hl)).1
  · rw [State.loop, worker_of_le (Nat.le_of_not_lt hl)]
    exact Loop.sound_new

theorem Sound.engaged (h : s.Sound) (l : Nat) : s.Engaged (s.worker l) := by
  by_cases hl : l < s.workers.length
  · exact (h _ (worker_mem hl)).2
  · rw [worker_of_le (Nat.le_of_not_lt hl)]
    exact .of_found rfl

/-- A change of one loop. -/
theorem Sound.modifyWorker (h : s.Sound) {l : Nat}
    {f : Worker (Task π ρ κ) → Worker (Task π ρ κ)} (hf : (f (s.worker l)).loop.Sound s.Sleeps)
    (hengaged : s.Engaged (f (s.worker l))) : (s.modifyWorker l f).Sound := by
  intro w hw
  obtain ⟨k, hk⟩ := List.getElem?_of_mem hw
  have hwk : (s.modifyWorker l f).worker k = w := worker_eq hk
  rw [worker_modifyWorker] at hwk
  split at hwk
  · rw [← hwk]
    exact ⟨hf, hengaged⟩
  · rw [← hwk]
    exact ⟨h.loop k, h.engaged k⟩

/-- A change of anything but the loops and the flags of operations. -/
theorem Sound.congr (h : s.Sound) (hworkers : s'.workers = s.workers)
    (hcancelled : ∀ c o, s'.isCancelled c o = s.isCancelled c o)
    (hstreams : ∀ i, s.isStreamCancelled i = true → s'.isStreamCancelled i = true) : s'.Sound := by
  intro w hw
  obtain ⟨hasleep, hengaged⟩ := h w (hworkers ▸ hw)
  rw [sleeps_congr hcancelled]
  refine ⟨hasleep, hengaged.grow rfl (List.append_nil _).symm fun key t x ht hfinds => ⟨t, ht, ?_⟩⟩
  exact hfinds.mono (fun c o hc => (hcancelled c o).trans hc) hstreams

/-- The task of a cancelled operation does not go on sleeping. -/
theorem Sound.abandon (h : s.Sound) (c o : Nat) : (s.abandon c o).Sound := by
  intro w' hw'
  obtain ⟨l, hl⟩ := List.getElem?_of_mem hw'
  have hw : (s.abandon c o).worker l = w' := worker_eq hl
  have hworker : (s.abandon c o).worker l =
      { s.worker l with loop := (sleepers (s.loop l) c o).foldl Loop.wake (s.loop l) } :=
    worker_wake _ c o l
  rw [← hw, hworker]
  have hfull : ∀ key ∈ sleepers (s.loop l) c o, ((s.loop l).tasks.get? key).isSome := by
    intro key hk
    obtain ⟨response, reply, ht⟩ := mem_sleepers.mp hk
    simp [ht]
  refine ⟨((h.loop l).foldl_wake _ hfull).imp ?_, ?_⟩
  · rintro key t ht hk ⟨c', o', response, reply, rfl, hcancelled⟩
    refine ⟨c', o', response, reply, rfl, ?_⟩
    rw [isCancelled_abandon_ne, hcancelled]
    rintro ⟨rfl, rfl⟩
    rw [Loop.foldl_wake_tasks] at ht
    exact hk ((Loop.mem_ready_foldl_wake _ _).mpr (Or.inr (mem_sleepers.mpr ⟨response, reply, ht⟩)))
  · obtain ⟨extra, hextra, -⟩ := exists_foldl_wake (sleepers (s.loop l) c o) (s.loop l)
    have hwoken := woken_abandon s c o
    rw [hextra]
    exact (h.engaged l).grow rfl rfl fun key t x ht hfinds =>
      ⟨t, ht, hfinds.mono hwoken.cancelled fun i hi => hi⟩

theorem Sound.cancelOperation (h : s.Sound) (c o : Nat) : (s.cancelOperation c o).Sound := by
  have hcount : (s.modifyConnector c fun x => { x with
      operations := x.operations.modify o fun p => { p with cancels := p.cancels + 1 } }).Sound :=
    h.congr rfl (isCancelled_modifyConnector fun k => cancelled_counted _ o k) fun _ hi => hi
  exact hcount.abandon c o

/-! ## Closing -/

/-- The engine after all operations of a connector were given up. -/
def abandonAll (s : State π ρ κ) (c : Nat) (operations : List Nat) : State π ρ κ :=
  operations.foldl (fun s o => s.abandon c o) s

theorem woken_abandonAll (s : State π ρ κ) (c : Nat) (operations : List Nat) :
    Woken s (s.abandonAll c operations) := by
  induction operations generalizing s with
  | nil => exact Woken.refl s
  | cons o operations ih => exact (woken_abandon s c o).trans (ih _)

theorem isCancelled_abandonAll {c o : Nat} {operations : List Nat} (hmem : o ∈ operations)
    (ho : o < (s.connector c).operations.length) :
    (s.abandonAll c operations).isCancelled c o = true := by
  induction operations generalizing s with
  | nil => simp at hmem
  | cons p operations ih =>
    rcases List.mem_cons.mp hmem with rfl | hmem
    · exact (woken_abandonAll _ c operations).cancelled c o (isCancelled_abandon_self ho)
    · exact ih hmem (by rw [((woken_abandon s c p).connector c).2]; exact ho)

theorem Sound.abandonAll (h : s.Sound) (c : Nat) (operations : List Nat) :
    (s.abandonAll c operations).Sound := by
  induction operations generalizing s with
  | nil => exact h
  | cons o operations ih => exact ih (h.abandon c o)

/-- The engine after somebody has begun to close a cluster. -/
def counted (s : State π ρ κ) (c : Nat) : State π ρ κ :=
  s.modifyConnector c fun x => { x with closes := x.closes + 1 }

theorem woken_counted (s : State π ρ κ) (c : Nat) : Woken s (s.counted c) :=
  woken_modifyConnector (fun _ => rfl) (fun _ => rfl) fun _ _ h => h

theorem Sound.counted (h : s.Sound) (c : Nat) : (s.counted c).Sound :=
  h.congr rfl (isCancelled_modifyConnector fun _ => rfl) fun _ hi => hi

theorem operations_counted (s : State π ρ κ) (c d : Nat) :
    ((s.counted c).connector d).operations = (s.connector d).operations := by
  rw [counted, connector_modifyConnector]
  split
  · next hd => rw [hd.1]
  · rfl

/-- The engine after a cluster was closed, before the end is reported. -/
def closing (s : State π ρ κ) (c : Nat) : State π ρ κ :=
  (s.counted c).abandonAll c (List.range (s.connector c).operations.length)

theorem close_eq (s : State π ρ κ) (c i : Nat) (reply : κ) :
    s.close c i reply = (s.closing c).submit i (.close reply) := by
  show ((s.counted c).abandonAll c (List.range ((s.counted c).connector c).operations.length)).submit
    i (.close reply) = _
  rw [operations_counted]
  rfl

theorem woken_closing (s : State π ρ κ) (c : Nat) : Woken s (s.closing c) :=
  (woken_counted s c).trans (woken_abandonAll _ c _)

theorem Sound.closing (h : s.Sound) (c : Nat) : (s.closing c).Sound :=
  (h.counted c).abandonAll c _

/-- Closing a cluster cancels every operation of its connector. -/
theorem isCancelled_closing {c o : Nat} (ho : o < (s.connector c).operations.length) :
    (s.closing c).isCancelled c o = true := by
  refine isCancelled_abandonAll (List.mem_range.mpr ho) ?_
  rw [operations_counted]
  exact ho

end State

end HostBridge.Engine
