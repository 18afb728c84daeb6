import HostBridge.Registry
import Mathlib.Data.List.Perm.Basic
import Mathlib.Data.List.Nodup

/-!
# The slots of a registry

A registry is seen through `get?`: putting something in fills a slot that was vacant at that moment
and leaves the others alone, taking something out empties its slot and no other. All of it rests on
`Valid`, which every operation keeps.
-/

namespace HostBridge.Registry

variable {γ : Type} {r : Registry γ} {c : γ} {key : Nat}

@[simp]
theorem get?_empty (key : Nat) : ({} : Registry γ).get? key = none := by
  simp [get?]

theorem lt_of_get? (h : r.get? key = some c) : key < r.slots.length := by
  by_contra hlt
  simp [get?, Nat.le_of_not_lt hlt] at h

theorem slots_getElem? (h : key < r.slots.length) : r.slots[key]? = some (r.get? key) := by
  simp [get?, h]

theorem getD_set (xs : List (Option γ)) (key k : Nat) (x : Option γ) (h : key < xs.length) :
    (xs.set key x).getD k none = if k = key then x else xs.getD k none := by
  rw [List.getD_eq_getElem?_getD, List.getElem?_set]
  by_cases hk : k = key
  · subst hk
    simp [h]
  · simp [hk, Ne.symm hk]

/-! ## Insertion -/

/-- The slot that is filled was vacant. -/
theorem get?_fresh (h : r.Valid) (c : γ) : r.get? (r.insert c).1 = none := by
  unfold insert
  split
  · next key rest hfree => exact ((h.2 key).mp (by simp [hfree])).2
  · simp [get?]

/-- What was put in stands in its slot, and no other slot is touched. -/
theorem get?_insert (h : r.Valid) (c : γ) (k : Nat) :
    (r.insert c).2.get? k = if k = (r.insert c).1 then some c else r.get? k := by
  unfold insert
  split
  · next key rest hfree =>
    have hlt : key < r.slots.length := ((h.2 key).mp (by simp [hfree])).1
    simpa [get?] using getD_set r.slots key k (some c) hlt
  · simp only [get?, List.getD_eq_getElem?_getD, List.getElem?_append]
    by_cases hk : k < r.slots.length
    · simp [hk, Nat.ne_of_lt hk]
    · by_cases hk' : k = r.slots.length
      · simp [hk']
      · have : k - r.slots.length ≠ 0 := by omega
        simp [hk, hk', this]

/-- Nothing else is put in, even if the registry does not know its empty slots. -/
theorem of_get?_insert {d : γ} {k : Nat} (h : (r.insert c).2.get? k = some d) :
    r.get? k = some d ∨ d = c := by
  unfold insert at h
  split at h
  · next key rest hfree =>
    simp only [get?, List.getD_eq_getElem?_getD, List.getElem?_set] at h ⊢
    split at h
    · split at h
      · exact Or.inr (Option.some.inj h).symm
      · cases h
    · exact Or.inl h
  · simp only [get?, List.getD_eq_getElem?_getD, List.getElem?_append] at h ⊢
    split at h
    · exact Or.inl h
    · rw [List.getElem?_singleton] at h
      split at h
      · exact Or.inr (Option.some.inj h).symm
      · cases h

theorem valid_insert (h : r.Valid) (c : γ) : (r.insert c).2.Valid := by
  have hget := get?_insert h c
  unfold insert at hget ⊢
  split
  · next key rest hfree =>
    simp only [hfree] at hget
    have hkey := (h.2 key).mp (by simp [hfree])
    have hnodup : key ∉ rest ∧ rest.Nodup := by simpa [hfree] using h.1
    refine ⟨hnodup.2, fun k => ?_⟩
    rw [hget k]
    by_cases hk : k = key
    · simp [hk, hnodup.1]
    · have := h.2 k
      simp only [hfree, List.mem_cons, hk, false_or] at this
      simpa [hk] using this
  · next hfree =>
    simp only [hfree] at hget
    refine ⟨List.nodup_nil, fun k => ?_⟩
    rw [hget k]
    have := h.2 k
    simp only [hfree, List.not_mem_nil, false_iff, not_and] at this
    simp only [List.not_mem_nil, List.length_append, List.length_singleton, false_iff, not_and]
    intro hlt
    by_cases hk : k = r.slots.length
    · simp [hk]
    · simpa [hk] using this (by omega)

/-! ## Removal -/

@[simp]
theorem remove_fst (r : Registry γ) (key : Nat) : (r.remove key).1 = r.get? key := by
  unfold remove
  split <;> simp_all

theorem get?_remove (r : Registry γ) (key k : Nat) :
    (r.remove key).2.get? k = if k = key then none else r.get? k := by
  unfold remove
  split
  · next c hc =>
    simpa [get?] using getD_set r.slots key k none (lt_of_get? hc)
  · next hc =>
    by_cases hk : k = key
    · simp [hk, hc]
    · simp [hk]

theorem valid_remove (h : r.Valid) (key : Nat) : (r.remove key).2.Valid := by
  have hget := get?_remove r key
  unfold remove at hget ⊢
  split
  · next c hc =>
    simp only [hc] at hget
    have hkey : key ∉ r.free := fun hm => by simp [((h.2 key).mp hm).2] at hc
    refine ⟨List.nodup_cons.mpr ⟨hkey, h.1⟩, fun k => ?_⟩
    rw [hget k]
    by_cases hk : k = key
    · simp [hk, lt_of_get? hc]
    · simpa [hk] using h.2 k
  · exact h

/-! ## Change in place -/

theorem get?_modify (r : Registry γ) (key : Nat) (f : γ → γ) (k : Nat) :
    (r.modify key f).get? k = if k = key then (r.get? k).map f else r.get? k := by
  simp only [get?, modify, List.getD_eq_getElem?_getD, List.getElem?_modify]
  by_cases hk : key = k
  · subst hk
    cases r.slots[key]? <;> simp
  · have hk' : ¬ k = key := fun h => hk h.symm
    simp [hk, hk']

theorem valid_modify (h : r.Valid) (key : Nat) (f : γ → γ) : (r.modify key f).Valid := by
  refine ⟨h.1, fun k => ?_⟩
  rw [get?_modify]
  have hlen : (r.modify key f).slots.length = r.slots.length := by simp [modify]
  rw [hlen]
  by_cases hk : k = key
  · simpa [hk, modify] using h.2 key
  · simpa [hk, modify] using h.2 k

/-! ## Contents -/

theorem mem_contents : c ∈ r.contents ↔ ∃ key, r.get? key = some c := by
  simp only [contents, List.mem_filterMap, id, exists_eq_right, get?, List.getD_eq_getElem?_getD]
  constructor
  · intro h
    obtain ⟨key, hkey⟩ := List.getElem?_of_mem h
    exact ⟨key, by simp [hkey]⟩
  · rintro ⟨key, hkey⟩
    cases hk : r.slots[key]? with
    | none => simp [hk] at hkey
    | some x =>
      rw [hk] at hkey
      have hx : x = some c := by simpa using hkey
      exact List.mem_of_getElem? (hx ▸ hk)

theorem mem_keys : key ∈ r.keys ↔ (r.get? key).isSome := by
  simp only [keys, List.mem_filter, List.mem_range, and_iff_right_iff_imp]
  intro h
  obtain ⟨c, hc⟩ := Option.isSome_iff_exists.mp h
  exact lt_of_get? hc

theorem length_keys (r : Registry γ) : r.keys.length = r.size := by
  have hslots : r.slots = (List.range r.slots.length).map r.get? := by
    refine List.ext_getElem (by simp) fun key h _ => ?_
    simp [get?, h]
  rw [keys, size, contents, List.length_filterMap_eq_countP, ← List.countP_eq_length_filter]
  conv_rhs => rw [hslots, List.countP_map]
  rfl

/-- Filling a vacant slot adds to the contents what was put there. -/
theorem filterMap_set (xs : List (Option γ)) (key : Nat) (h : xs[key]? = some none) :
    ((xs.set key (some c)).filterMap id).Perm (c :: xs.filterMap id) := by
  induction xs generalizing key with
  | nil => simp at h
  | cons x xs ih =>
    cases key with
    | zero =>
      have hx : x = none := by simpa using h
      simp [hx]
    | succ key =>
      have := ih key (by simpa using h)
      cases x with
      | none => simpa using this
      | some d =>
        simp only [List.set_cons_succ, List.filterMap_cons, id]
        exact (this.cons d).trans (List.Perm.swap c d _)

theorem contents_insert (h : r.Valid) (c : γ) : (r.insert c).2.contents.Perm (c :: r.contents) := by
  unfold insert
  split
  · next key rest hfree =>
    obtain ⟨hlt, hnone⟩ := (h.2 key).mp (by simp [hfree])
    exact filterMap_set r.slots key (by rw [slots_getElem? hlt, hnone])
  · simp [contents]

theorem contents_remove (h : r.get? key = some c) :
    r.contents.Perm (c :: (r.remove key).2.contents) := by
  have hlt := lt_of_get? h
  have hset : (r.slots.set key none).set key (some c) = r.slots := by
    rw [List.set_set]
    refine List.ext_getElem? fun k => ?_
    rw [List.getElem?_set]
    by_cases hk : key = k
    · subst hk
      rw [slots_getElem? hlt, h]
      simp [hlt]
    · simp [hk]
  have := filterMap_set (c := c) (r.slots.set key none) key (by simp [hlt])
  rw [hset] at this
  simpa [contents, remove, h] using this

/-- What is put in beside a thing is there whether or not that thing is taken out. -/
theorem contents_remove_insert (hr : r.Valid) (h : r.get? key = some c) (d : γ) :
    ((r.insert d).2.remove key).2.contents.Perm (d :: (r.remove key).2.contents) := by
  have hne : key ≠ (r.insert d).1 := by
    intro heq
    have hfresh := get?_fresh hr d
    rw [← heq, h] at hfresh
    cases hfresh
  have hget : (r.insert d).2.get? key = some c := by rw [get?_insert hr, if_neg hne, h]
  have hperm : (c :: ((r.insert d).2.remove key).2.contents).Perm
      (d :: c :: (r.remove key).2.contents) :=
    (contents_remove hget).symm.trans
      ((contents_insert hr d).trans ((contents_remove h).cons d))
  exact (hperm.trans (List.Perm.swap c d _)).cons_inv

/-- A change in place replaces one of the contents. -/
theorem contents_modify (h : r.get? key = some c) (f : γ → γ) :
    (r.modify key f).contents.Perm (f c :: (r.remove key).2.contents) := by
  have hget : (r.modify key f).get? key = some (f c) := by simp [get?_modify, h]
  have hslots : (r.slots.modify key (Option.map f)).set key none = r.slots.set key none := by
    refine List.ext_getElem? fun k => ?_
    rw [List.getElem?_set, List.getElem?_set, List.length_modify, List.getElem?_modify]
    by_cases hk : key = k
    · simp [hk]
    · simp [hk]
  have hremove : ((r.modify key f).remove key).2.contents = (r.remove key).2.contents := by
    simp only [remove, hget, h, contents]
    rw [← hslots]
    rfl
  rw [← hremove]
  exact contents_remove hget

/-- A change in place that does not matter to `h` does not matter to the contents seen by `h`. -/
theorem map_contents_modify {β : Type} {f : γ → γ} {h : γ → β}
    (hf : ∀ c, r.get? key = some c → h (f c) = h c) :
    (r.modify key f).contents.map h = r.contents.map h := by
  suffices hlist : ∀ (xs : List (Option γ)) (key : Nat),
      (∀ c, xs.getD key none = some c → h (f c) = h c) →
        ((xs.modify key (Option.map f)).filterMap id).map h = (xs.filterMap id).map h from
    hlist r.slots key hf
  intro xs
  induction xs with
  | nil => simp
  | cons x xs ih =>
    intro key hkey
    cases key with
    | zero =>
      cases x with
      | none => simp
      | some c => simpa using hkey c rfl
    | succ key =>
      have := ih key (by simpa using hkey)
      cases x <;> simpa using this

end HostBridge.Registry
