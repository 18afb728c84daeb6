import HostBridge.Proofs.Engine.Cancelled

/-!
# What neither stops a loop nor closes a cluster

Most of what an engine does has nothing to do with the end of a connection: it asks no loop to stop,
it closes no cluster, and it brings up no task that reports a closed one. `Calm` says so, for
everything but the request to close a cluster and the request to stop a loop.
-/

namespace HostBridge

theorem Registry.mem_contents_insert {γ : Type} {r : Registry γ} {c d : γ}
    (h : d ∈ (r.insert c).2.contents) : d = c ∨ d ∈ r.contents := by
  simp only [contents, List.mem_filterMap, id, exists_eq_right] at h ⊢
  unfold insert at h
  split at h
  · rcases List.mem_or_eq_of_mem_set h with h | h
    · exact Or.inr h
    · exact Or.inl (Option.some.inj h)
  · rcases List.mem_append.mp h with h | h
    · exact Or.inr h
    · exact Or.inl (Option.some.inj (List.mem_singleton.mp h))

namespace Engine.State

variable {π ρ κ : Type} {s s' s'' : State π ρ κ} {reply : κ}

/-- A task of some loop reports that a cluster is closed. -/
def Announces (s : State π ρ κ) (reply : κ) : Prop :=
  ∃ l, .close reply ∈ (s.loop l).tasks.contents

/-- The loops are the same, none is asked to stop, no cluster is closed and none is reported that was
not reported before. -/
structure Calm (s s' : State π ρ κ) : Prop where
  /-- The loops are the same. -/
  length : s'.workers.length = s.workers.length
  /-- No loop is asked to stop. -/
  stopping : ∀ l, (s'.loop l).stopping = (s.loop l).stopping
  /-- What is reported was to be reported before. -/
  announces : ∀ reply, s'.Announces reply → s.Announces reply
  /-- No cluster is closed. -/
  closes : ∀ c, (s'.connector c).closes = (s.connector c).closes

theorem closes_modifyConnector {c : Nat} {f : Connector → Connector}
    (hf : ∀ x, (f x).closes = x.closes) (d : Nat) :
    ((s.modifyConnector c f).connector d).closes = (s.connector d).closes := by
  rw [connector_modifyConnector]
  split
  · next hd => rw [hf, hd.1]
  · rfl

theorem closes_abandon (s : State π ρ κ) (c o d : Nat) :
    ((s.abandon c o).connector d).closes = (s.connector d).closes := by
  have hwake : ∀ s : State π ρ κ, (s.wake c o).connector d = s.connector d := fun _ => rfl
  rw [abandon, hwake]
  exact closes_modifyConnector (fun _ => by rfl) d

theorem closes_cancelOperation (s : State π ρ κ) (c o d : Nat) :
    ((s.cancelOperation c o).connector d).closes = (s.connector d).closes := by
  rw [cancelOperation, closes_abandon]
  exact closes_modifyConnector (fun _ => by rfl) d

/-- A cluster of a connector is closed. -/
theorem closes_closing (s : State π ρ κ) (c d : Nat) :
    ((s.closing c).connector d).closes =
      (s.connector d).closes + if d = c ∧ c < s.connectors.length then 1 else 0 := by
  have habandon : ∀ operations (s : State π ρ κ),
      ((s.abandonAll c operations).connector d).closes = (s.connector d).closes := by
    intro operations
    induction operations with
    | nil => exact fun s => rfl
    | cons o operations ih => exact fun s => (ih (s.abandon c o)).trans (closes_abandon s c o d)
  rw [closing, habandon, counted, connector_modifyConnector]
  split
  · next hd => rw [hd.1]
  · rfl

namespace Calm

theorem of_workers (h : s'.workers = s.workers)
    (hcloses : ∀ c, (s'.connector c).closes = (s.connector c).closes) : Calm s s' := by
  have hloop : ∀ l, s'.loop l = s.loop l := fun l => by rw [loop, loop, worker, worker, h]
  refine ⟨by rw [h], fun l => by rw [hloop], ?_, hcloses⟩
  rintro reply ⟨l, hl⟩
  rw [hloop] at hl
  exact ⟨l, hl⟩

theorem refl (s : State π ρ κ) : Calm s s :=
  of_workers rfl fun _ => rfl

theorem trans (h : Calm s s') (h' : Calm s' s'') : Calm s s'' where
  length := h'.length.trans h.length
  stopping l := (h'.stopping l).trans (h.stopping l)
  announces reply hreply := h.announces reply (h'.announces reply hreply)
  closes c := (h'.closes c).trans (h.closes c)

theorem of_woken (h : Woken s s')
    (hcloses : ∀ c, (s'.connector c).closes = (s.connector c).closes) : Calm s s' where
  length := h.length
  stopping := h.stopping
  announces _ := fun ⟨l, hl⟩ => ⟨l, h.tasks l ▸ hl⟩
  closes := hcloses

/-- A worker changes. -/
theorem modifyWorker {l : Nat} {f : Worker (Task π ρ κ) → Worker (Task π ρ κ)}
    (hstopping : (f (s.worker l)).loop.stopping = (s.loop l).stopping)
    (htasks : ∀ reply, .close reply ∈ (f (s.worker l)).loop.tasks.contents →
      .close reply ∈ (s.loop l).tasks.contents) : Calm s (s.modifyWorker l f) := by
  have hworker := fun k => worker_modifyWorker s l k f
  refine ⟨by simp [State.modifyWorker], fun k => ?_, fun reply ⟨k, hk⟩ => ?_, fun _ => rfl⟩
  · rw [loop, hworker]
    split
    · next hk => rw [hk.1, hstopping]
    · rfl
  · rw [loop, hworker] at hk
    split at hk
    · exact ⟨l, htasks reply hk⟩
    · exact ⟨k, hk⟩

end Calm

/-! ## Requests -/

/-- A loop takes a task or refuses it, and goes on as before. -/
theorem submit_calm (s : State π ρ κ) (l : Nat) (t : Task π ρ κ) :
    (s.submit l t).2.workers.length = s.workers.length ∧
      (∀ k, ((s.submit l t).2.loop k).stopping = (s.loop k).stopping) ∧
      (∀ reply, (s.submit l t).2.Announces reply → t = .close reply ∨ s.Announces reply) ∧
      ∀ c, ((s.submit l t).2.connector c).closes = (s.connector c).closes := by
  unfold submit Loop.spawn
  cases hstopping : (s.loop l).stopping with
  | true => exact ⟨rfl, fun _ => rfl, fun _ => Or.inr, fun _ => rfl⟩
  | false =>
    have hworker := fun k => worker_modifyWorker s l k fun w => { w with
      loop := { s.loop l with
        tasks := ((s.loop l).tasks.insert t).2
        ready := (s.loop l).ready ++ [((s.loop l).tasks.insert t).1]
        stopping := false } }
    simp only [Bool.false_eq_true, if_false, modifyLoop]
    refine ⟨by simp [State.modifyWorker], fun k => ?_, fun reply ⟨k, hk⟩ => ?_, fun _ => rfl⟩
    · rw [loop, hworker]
      split
      · next hk => rw [hk.1, hstopping]
      · rfl
    · rw [loop, hworker] at hk
      split at hk
      · rcases Registry.mem_contents_insert hk with hk | hk
        · exact Or.inl hk.symm
        · exact Or.inr ⟨l, hk⟩
      · exact Or.inr ⟨k, hk⟩

theorem calm_submit {l : Nat} {t : Task π ρ κ} (ht : ∀ reply, t ≠ .close reply) :
    Calm s (s.submit l t).2 := by
  obtain ⟨hlength, hstopping, hannounces, hcloses⟩ := submit_calm s l t
  refine ⟨hlength, hstopping, fun reply hreply => ?_, hcloses⟩
  rcases hannounces reply hreply with h | h
  · exact absurd h (ht reply)
  · exact h

/-- A refused task that reports no closed cluster reports none on the spot either. -/
theorem submit_fst_ne_closed {l : Nat} {t : Task π ρ κ} (ht : ∀ reply, t ≠ .close reply)
    (reply : κ) : (s.submit l t).1 ≠ some (.closed reply) := by
  unfold submit
  split
  · nofun
  · cases t with
    | close reply => exact absurd rfl (ht reply)
    | promote | pull | park => nofun

theorem calm_execute {c l o : Nat} {request : Request} {p : π}
    {outcome : Option (Completion π ρ κ) × State π ρ κ}
    (h : s.execute c l request p = .ok (o, outcome)) :
    Calm s outcome.2 ∧ ∀ reply, outcome.1 ≠ some (.closed reply) := by
  unfold execute at h
  split at h
  · cases h
  · next response responses _ =>
    cases h
    have haccepting : Calm s (s.modifyConnector c fun x => { x with
        responses
        requests := x.requests ++ [request]
        operations := x.operations ++ [{}] }) :=
      Calm.of_workers rfl (closes_modifyConnector fun _ => by rfl)
    exact ⟨haccepting.trans (calm_submit nofun), submit_fst_ne_closed nofun⟩

theorem calm_pull (s : State π ρ κ) (i : Nat) (r : ρ) :
    Calm s (s.pull i r).2 ∧ ∀ reply, (s.pull i r).1 ≠ some (.closed reply) := by
  unfold pull
  split
  · exact ⟨Calm.refl s, nofun⟩
  · exact ⟨calm_submit nofun, submit_fst_ne_closed nofun⟩

/-! ## Tasks -/

theorem calm_modifyTask {l key : Nat} {f : Task π ρ κ → Task π ρ κ}
    {g : Loop (Task π ρ κ) → Loop (Task π ρ κ)}
    (htasks : (g (s.loop l)).tasks = (s.loop l).tasks.modify key f)
    (hstopping : (g (s.loop l)).stopping = (s.loop l).stopping)
    (hf : ∀ t reply, (s.loop l).tasks.get? key = some t → f t = .close reply → t = .close reply) :
    Calm s (s.modifyLoop l g) := by
  refine Calm.modifyWorker hstopping fun reply hreply => ?_
  obtain ⟨k, hk⟩ := Registry.mem_contents.mp hreply
  rw [show (g (s.worker l).loop).tasks = _ from htasks, Registry.get?_modify] at hk
  refine Registry.mem_contents.mpr ⟨k, ?_⟩
  split at hk
  · next hkey =>
    obtain ⟨t, ht, hft⟩ := Option.map_eq_some_iff.mp hk
    rw [ht, hf t reply (hkey ▸ ht) hft]
  · exact hk

theorem calm_elapse (s : State π ρ κ) (l key : Nat) : Calm s (s.elapse l key) := by
  have htasks : ({ s.loop l with tasks := (s.loop l).tasks.modify key Task.elapse }.wake key).tasks =
      (s.loop l).tasks.modify key Task.elapse := Loop.wake_tasks _ _
  refine calm_modifyTask htasks (Loop.wake_stopping _ _) fun t reply _ ht => ?_
  cases t with
  | promote c o response timer p => cases timer <;> cases ht
  | close reply' => exact ht
  | pull | park => cases ht

/-- A task is finished, and the thread may be held up then. -/
theorem calm_finish (s : State π ρ κ) (l key : Nat) {f : Worker (Task π ρ κ) → Worker (Task π ρ κ)}
    (hf : ∀ w, (f w).loop = w.leave.loop.finish key) : Calm s (s.modifyWorker l f) := by
  refine Calm.modifyWorker (by rw [hf]; exact Worker.leave_stopping _) fun reply hreply => ?_
  rw [hf] at hreply
  obtain ⟨k, hk⟩ := Registry.mem_contents.mp hreply
  have hk' : ((s.loop l).tasks.remove key).2.get? k = some (.close reply) := by
    rw [← hk, Loop.finish, Worker.leave_tasks, loop]
  rw [Registry.get?_remove] at hk'
  split at hk'
  · cases hk'
  · exact Registry.mem_contents.mpr ⟨k, hk'⟩

theorem calm_checked (s : State π ρ κ) (l : Nat) (cancelled : Bool) :
    Calm s (s.checked l cancelled) :=
  Calm.modifyWorker (Worker.enter_stopping _ _) fun _ h => by rwa [Worker.enter_tasks] at h

theorem calm_drawn (s : State π ρ κ) (l i : Nat) (cancelled : Bool) :
    Calm s (s.drawn l i cancelled) := by
  have hstream : Calm s (s.modifyStream i fun x => (x.serve cancelled).2) :=
    Calm.of_workers rfl fun _ => rfl
  exact hstream.trans (Calm.modifyWorker rfl fun _ h => h)

/-- A promotion goes to sleep, looks whether it was cancelled, or comes to its end. -/
theorem calm_promote (s : State π ρ κ) (l key c o : Nat) (response : Response) (timer : Timer)
    (p : π) : Calm s (s.runTask l key (.promote c o response timer p)).2 ∧
      ∀ reply, (s.runTask l key (.promote c o response timer p)).1 ≠ some (.closed reply) := by
  have hslept : Calm s (s.slept l key (.promote c o response .armed p)) := by
    have hleave : Calm s (s.modifyWorker l Worker.leave) :=
      Calm.modifyWorker (Worker.leave_stopping _) fun _ h => by rwa [Worker.leave_tasks] at h
    have hsleep : Calm (s.modifyWorker l Worker.leave) ((s.modifyWorker l Worker.leave).modifyLoop l
        fun x => x.sleep key (.promote c o response .armed p)) :=
      calm_modifyTask rfl rfl fun _ _ _ h => by cases h
    rw [modifyLoop, modifyWorker, modifyWorker, List.modify_modify_eq] at hsleep
    exact hleave.trans hsleep
  have hpromote : ∀ x, (s.worker l).found = x → (∀ b, x ≠ some (.flag b)) →
      Calm s (s.runTask l key (.promote c o response timer p)).2 ∧
        ∀ reply, (s.runTask l key (.promote c o response timer p)).1 ≠ some (.closed reply) := by
    intro x hx hflag
    have hrun : s.runTask l key (.promote c o response timer p) =
        if s.mustSleep c o response timer then
          (none, s.slept l key (.promote c o response .armed p))
        else (none, s.checked l (s.isCancelled c o)) := by
      cases x with
      | none => simp only [runTask, hx]
      | some x =>
        cases x with
        | flag b => exact absurd rfl (hflag b)
        | row => simp only [runTask, hx]
    rw [hrun]
    split
    · exact ⟨hslept, fun reply h => by cases h⟩
    · exact ⟨calm_checked s l _, fun reply h => by cases h⟩
  cases hx : (s.worker l).found with
  | none => exact hpromote _ hx fun b h => by cases h
  | some x =>
    cases x with
    | row => exact hpromote _ hx fun b h => by cases h
    | flag b =>
      have hsettle : Calm s (s.settle l c response b).2.2 := by
        unfold settle
        split
        · exact Calm.refl s
        · split
          · exact Calm.refl s
          · exact Calm.of_workers rfl (closes_modifyConnector fun _ => by rfl)
      simp only [runTask, hx]
      exact ⟨hsettle.trans (calm_finish _ l key fun _ => rfl), fun reply h => by cases h⟩

theorem calm_runTask {l key : Nat} {t : Task π ρ κ} (ht : (s.loop l).tasks.get? key = some t) :
    Calm s (s.runTask l key t).2 ∧ ∀ reply, (s.runTask l key t).1 = some (.closed reply) →
      s.Announces reply := by
  cases t with
  | promote c o response timer p =>
    obtain ⟨hcalm, hclosed⟩ := calm_promote s l key c o response timer p
    exact ⟨hcalm, fun reply h => absurd h (hclosed reply)⟩
  | pull i cookie =>
    cases hx : (s.worker l).found with
    | none =>
      simp only [runTask, hx]
      exact ⟨calm_checked s l _, nofun⟩
    | some x =>
      cases x with
      | flag b =>
        simp only [runTask, hx]
        exact ⟨calm_drawn s l i b, nofun⟩
      | row row =>
        simp only [runTask, hx]
        exact ⟨calm_finish s l key fun _ => rfl, nofun⟩
  | close reply =>
    refine ⟨calm_finish s l key fun _ => rfl, fun reply' h => ⟨l, Registry.mem_contents.mpr ⟨key, ?_⟩⟩⟩
    cases h
    exact ht
  | park => exact ⟨calm_finish s l key fun _ => rfl, nofun⟩

theorem calm_turn (s : State π ρ κ) (l : Nat) :
    Calm s (s.turn l).2 ∧ ∀ reply, (s.turn l).1 = some (.closed reply) → s.Announces reply := by
  unfold turn
  split
  · refine ⟨Calm.modifyWorker (Worker.look_stopping _) fun _ h => ?_, nofun⟩
    rwa [Worker.look_tasks] at h
  · unfold tick
    split
    · exact ⟨Calm.refl s, nofun⟩
    · refine ⟨Calm.modifyWorker (Worker.leave_stopping _) fun _ h => ?_, nofun⟩
      rwa [Worker.leave_tasks] at h
    · next key t hfront =>
      obtain ⟨k, -, hk⟩ := Option.map_eq_some_iff.mp hfront
      obtain ⟨rfl, htask⟩ := Prod.mk.inj hk
      exact calm_runTask htask

end Engine.State

end HostBridge
