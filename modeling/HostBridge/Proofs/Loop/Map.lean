import HostBridge.Proofs.Loop

/-!
# Tasks seen through a function

A loop never looks into its tasks, so it does the same with what a function makes of them. Here every
move of a loop and of its thread is shown to commute with such a function. Only a wake-up of selected
tasks looks at the tasks, and it needs no more than the function keeps.
-/

namespace HostBridge

namespace Registry

variable {γ δ ε : Type}

/-- What a function makes of the contents, slot by slot. -/
def map (f : γ → δ) (r : Registry γ) : Registry δ where
  slots := r.slots.map (Option.map f)
  free := r.free

@[simp]
theorem get?_map (f : γ → δ) (r : Registry γ) (key : Nat) :
    (r.map f).get? key = (r.get? key).map f := by
  simp only [get?, map, List.getD_eq_getElem?_getD, List.getElem?_map]
  cases r.slots[key]? <;> rfl

theorem map_map (f : γ → δ) (g : δ → ε) (r : Registry γ) :
    (r.map f).map g = r.map fun c => g (f c) := by
  simp [map, Function.comp_def]

theorem keys_map (f : γ → δ) (r : Registry γ) : (r.map f).keys = r.keys := by
  have hlength : (r.map f).slots.length = r.slots.length := List.length_map _
  simp [keys, hlength]

/-- Only what the registry holds matters. -/
theorem map_congr {f g : γ → δ} {r : Registry γ} (h : ∀ key c, r.get? key = some c → f c = g c) :
    r.map f = r.map g := by
  simp only [map, mk.injEq, and_true]
  refine List.ext_getElem? fun key => ?_
  rw [List.getElem?_map, List.getElem?_map]
  cases hslot : r.slots[key]? with
  | none => rfl
  | some slot =>
    cases slot with
    | none => rfl
    | some c =>
      have hget : r.get? key = some c := by simp [get?, hslot]
      simp [h key c hget]

theorem insert_map (f : γ → δ) (r : Registry γ) (c : γ) :
    (r.map f).insert (f c) = ((r.insert c).1, (r.insert c).2.map f) := by
  cases hfree : r.free <;> simp [insert, map, hfree, List.map_set]

theorem remove_map (f : γ → δ) (r : Registry γ) (key : Nat) :
    ((r.map f).remove key).2 = (r.remove key).2.map f := by
  unfold remove
  rw [get?_map]
  cases r.get? key <;> simp [map, List.map_set]

theorem modify_map (f : γ → δ) {g : γ → γ} {h : δ → δ} (r : Registry γ) (key : Nat)
    (hcomm : ∀ c, r.get? key = some c → h (f c) = f (g c)) :
    (r.map f).modify key h = (r.modify key g).map f := by
  simp only [modify, map, mk.injEq, and_true]
  refine List.ext_getElem? fun k => ?_
  simp only [List.getElem?_modify, List.getElem?_map]
  cases hslot : r.slots[k]? with
  | none => simp
  | some slot =>
    by_cases hk : key = k
    · subst hk
      cases slot with
      | none => simp
      | some c =>
        have hget : r.get? key = some c := by simp [get?, hslot]
        simp [hcomm c hget]
    · simp [hk]

end Registry

namespace Loop

variable {τ σ υ : Type}

/-- What a function makes of the tasks. -/
def map (f : τ → σ) (l : Loop τ) : Loop σ where
  tasks := l.tasks.map f
  ready := l.ready
  taken := l.taken
  turns := l.turns
  left := l.left
  stopping := l.stopping

theorem map_map (f : τ → σ) (g : σ → υ) (l : Loop τ) :
    (l.map f).map g = l.map fun t => g (f t) := by
  simp [map, Registry.map_map]

theorem map_congr {f g : τ → σ} {l : Loop τ}
    (h : ∀ key t, l.tasks.get? key = some t → f t = g t) : l.map f = l.map g := by
  simp [map, Registry.map_congr h]

theorem spawn_map (f : τ → σ) (l : Loop τ) (t : τ) :
    ((l.map f).spawn (f t)).2 = (l.spawn t).2.map f := by
  have hstopping : (l.map f).stopping = l.stopping := rfl
  unfold spawn
  rw [hstopping]
  split
  · rfl
  · simp [map, Registry.insert_map]

theorem stop_of_stopping {l : Loop τ} (h : l.stopping = true) : l.stop = l := by
  rw [stop, ← h]

theorem finish_map (f : τ → σ) (l : Loop τ) (key : Nat) :
    (l.map f).finish key = (l.finish key).map f := by
  simp [finish, map, Registry.remove_map]

theorem sleep_map (f : τ → σ) (l : Loop τ) (key : Nat) (t : τ) :
    (l.map f).sleep key (f t) = (l.sleep key t).map f := by
  simp only [sleep, map, mk.injEq, and_true]
  exact Registry.modify_map f l.tasks key fun _ _ => rfl

theorem wake_map (f : τ → σ) (l : Loop τ) (key : Nat) :
    (l.map f).wake key = (l.wake key).map f := by
  unfold wake
  have hready : (l.map f).ready = l.ready := rfl
  rw [hready]
  split <;> rfl

theorem foldl_wake_map (f : τ → σ) (keys : List Nat) (l : Loop τ) :
    keys.foldl Loop.wake (l.map f) = (keys.foldl Loop.wake l).map f := by
  induction keys generalizing l with
  | nil => rfl
  | cons key keys ih =>
    rw [List.foldl_cons, List.foldl_cons, wake_map, ih]

theorem beginTurn_map (f : τ → σ) (l : Loop τ) : (l.map f).beginTurn = l.beginTurn.map f := by
  have htaken : (l.map f).taken = l.taken := rfl
  have hturns : (l.map f).turns = l.turns := rfl
  simp only [beginTurn, htaken, hturns, apply_ite (Loop.map f)]
  by_cases hnone : l.taken = 0
  · simp only [if_pos hnone]
    rfl
  · simp only [if_neg hnone]
    rfl

theorem renew_map (f : τ → σ) (l : Loop τ) : (l.map f).renew = l.renew.map f := by
  have hleft : (l.map f).left = l.left := rfl
  unfold renew
  rw [hleft]
  split <;> rfl

theorem front?_map (f : τ → σ) (l : Loop τ) :
    (l.map f).front? = l.front?.map fun (key, t) => (key, t.map f) := by
  simp only [front?, map, Option.map_map]
  cases l.ready.head? <;> simp

/-! ## Wake-ups of selected tasks -/

/-- Wakes the tasks of a kind, in the order of their keys. -/
def rouse (kind : τ → Bool) (l : Loop τ) : Loop τ :=
  (l.tasks.keys.filter fun key => (l.tasks.get? key).any kind).foldl Loop.wake l

theorem rouse_map (f : τ → σ) (kind : σ → Bool) (l : Loop τ) :
    (l.map f).rouse kind = (l.rouse fun t => kind (f t)).map f := by
  have hkeys : ((l.map f).tasks.keys.filter fun key => ((l.map f).tasks.get? key).any kind) =
      l.tasks.keys.filter fun key => (l.tasks.get? key).any fun t => kind (f t) := by
    have htasks : (l.map f).tasks = l.tasks.map f := rfl
    rw [htasks, Registry.keys_map]
    refine List.filter_congr fun key _ => ?_
    rw [Registry.get?_map, Option.any_map]
  rw [rouse, hkeys, foldl_wake_map]
  rfl

theorem rouse_tasks (kind : τ → Bool) (l : Loop τ) : (l.rouse kind).tasks = l.tasks :=
  foldl_wake_tasks _ l

/-- Tasks that are ready are not woken. -/
theorem rouse_of_ready {kind : τ → Bool} {l : Loop τ}
    (h : ∀ key t, l.tasks.get? key = some t → kind t = true → key ∈ l.ready) :
    l.rouse kind = l := by
  have hall : ∀ keys : List Nat, (∀ key ∈ keys, key ∈ l.ready) → keys.foldl Loop.wake l = l := by
    intro keys
    induction keys with
    | nil => exact fun _ => rfl
    | cons key keys ih =>
      intro hkeys
      have hwake : l.wake key = l := if_pos (hkeys key (by simp))
      rw [List.foldl_cons, hwake]
      exact ih fun k hk => hkeys k (by simp [hk])
  refine hall _ fun key hkey => ?_
  obtain ⟨t, ht, hkind⟩ := (Option.any_eq_true _ _).mp (List.mem_filter.mp hkey).2
  exact h key t ht hkind

end Loop

namespace Worker

variable {τ σ : Type}

/-- What a function makes of the tasks. -/
def map (f : τ → σ) (w : Worker τ) : Worker σ where
  loop := w.loop.map f
  stage := w.stage
  parked := w.parked
  found := w.found

theorem map_congr {f g : τ → σ} {w : Worker τ}
    (h : ∀ key t, w.loop.tasks.get? key = some t → f t = g t) : w.map f = w.map g := by
  simp [map, Loop.map_congr h]

theorem look_map (f : τ → σ) (w : Worker τ) : (w.map f).look = w.look.map f := by
  unfold look
  have hstage : (w.map f).stage = w.stage := rfl
  rw [hstage]
  split
  · have hstopping : (w.map f).loop.stopping = w.loop.stopping := rfl
    rw [hstopping]
    split
    · rfl
    · simp [map, Loop.renew_map]
  · have hready : (w.map f).loop.ready = w.loop.ready := rfl
    rw [hready]
    split <;> rfl
  · rfl

theorem leave_map (f : τ → σ) (w : Worker τ) : (w.map f).leave = w.leave.map f := by
  unfold leave
  have hstage : (w.map f).stage = w.stage := rfl
  have hfound : (w.map f).found = w.found := rfl
  rw [hstage, hfound]
  split
  · rfl
  · simp [map, Loop.beginTurn_map]
  · rfl

theorem enter_map (f : τ → σ) (w : Worker τ) (x : Finding) :
    (w.map f).enter x = (w.enter x).map f := by
  rw [enter, leave_map]
  rfl

/-! ## What was found out -/

theorem look_found_eq (w : Worker τ) (x : Option Finding) :
    { w with found := x }.look = { w.look with found := x } := by
  cases hstage : w.stage with
  | serving => by_cases hstopping : w.loop.stopping = true <;> simp [look, hstage, hstopping]
  | draining => by_cases hready : w.loop.ready.isEmpty = true <;> simp [look, hstage, hready]
  | ended => simp [look, hstage]

section Found

variable {w : Worker τ} {x : Option Finding} (h : x.isSome = w.found.isSome)
include h

/-- Whether the thread has to look depends on whether it is in the middle of a task, -/
theorem mustLook_found : { w with found := x }.mustLook = w.mustLook := by
  simp only [mustLook, h]

/-- and so does what happens when it leaves the task, -/
theorem leave_found_eq : { w with found := x }.leave = w.leave := by
  cases hx : x with
  | none =>
    have hfound : w.found = none := by simpa [hx] using h.symm
    rw [← hfound]
  | some y =>
    obtain ⟨z, hz⟩ := Option.isSome_iff_exists.mp (h.symm.trans (by rw [hx]; rfl))
    simp only [leave, hz]

/-- or stays with it. -/
theorem enter_found_eq (y : Finding) : { w with found := x }.enter y = w.enter y := by
  simp only [enter, leave_found_eq h]

end Found

end Worker

end HostBridge
