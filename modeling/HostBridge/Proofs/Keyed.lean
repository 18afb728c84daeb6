import HostBridge.Keyed
import Mathlib.Data.List.Perm.Basic

/-!
# Tables without loss

In a table whose names increase, each name occurs once, so that taking a name out takes exactly the
value that is found under it, and putting a value in replaces exactly that one. Pairs of distinct
names are sorted without loss, and there is only one way to sort them.
-/

namespace HostBridge.Keyed

variable {β : Type} {t : Keyed β} {name : String}

/-- The names increase. -/
def Sorted (t : Keyed β) : Prop :=
  t.Pairwise fun a b => a.1 < b.1

theorem sorted_iff_names : Sorted t ↔ (t.map Prod.fst).Pairwise (· < ·) :=
  List.pairwise_map.symm

theorem sorted_nil : Sorted ([] : Keyed β) :=
  List.Pairwise.nil

theorem sorted_erase (h : Sorted t) (name : String) : Sorted (erase name t) :=
  List.Pairwise.filter _ h

/-- What was taken out is not found any more, and other names are not disturbed. -/
theorem find?_erase (name other : String) (t : Keyed β) :
    find? other (erase name t) = if other = name then none else find? other t := by
  induction t with
  | nil => simp [erase, find?]
  | cons p rest ih =>
    obtain ⟨n, v⟩ := p
    by_cases hn : n = name
    · have herase : erase name ((n, v) :: rest) = erase name rest := by simp [erase, hn]
      rw [herase, ih, hn, find?]
      split <;> rfl
    · have herase : erase name ((n, v) :: rest) = (n, v) :: erase name rest := by simp [erase, hn]
      rw [herase, find?, find?, ih]
      by_cases ho : other = n
      · simp [ho, hn]
      · simp [ho]

theorem erase_of_notMem (h : name ∉ t.map Prod.fst) : erase name t = t := by
  refine List.filter_eq_self.mpr fun p hp => ?_
  have hne : p.1 ≠ name := fun e => h (e ▸ List.mem_map_of_mem hp)
  simpa using hne

/-- A name that lies below all others is not in the table. -/
theorem erase_of_forall_lt (h : ∀ p ∈ t, name < p.1) : erase name t = t := by
  refine erase_of_notMem fun hmem => ?_
  obtain ⟨p, hp, rfl⟩ := List.mem_map.mp hmem
  exact String.lt_irrefl p.1 (h p hp)

theorem erase_cons_self {p : String × β} (h : ∀ q ∈ t, p.1 < q.1) : erase p.1 (p :: t) = t := by
  have : erase p.1 (p :: t) = erase p.1 t := by simp [erase]
  rw [this, erase_of_forall_lt h]

theorem erase_cons_ne {p : String × β} (h : p.1 ≠ name) :
    erase name (p :: t) = p :: erase name t := by
  simp [erase, h]

/-- Taking a name out of a table takes what is found under it. -/
theorem perm_find?_erase (h : Sorted t) (name : String) :
    (t.map Prod.snd).Perm ((find? name t).toList ++ (erase name t).map Prod.snd) := by
  induction t with
  | nil => simp [find?, erase]
  | cons p rest ih =>
    obtain ⟨hlt, hrest⟩ := List.pairwise_cons.mp h
    by_cases hn : name = p.1
    · subst hn
      rw [erase_cons_self hlt]
      simp [find?]
    · rw [erase_cons_ne (Ne.symm hn)]
      simp only [find?, if_neg hn, List.map_cons]
      exact ((ih hrest).cons p.2).trans List.perm_middle.symm

/-- Putting a value in replaces the one of the same name. -/
theorem insert_perm (h : Sorted t) (name : String) (value : β) :
    (insert name value t).Perm ((name, value) :: erase name t) := by
  induction t with
  | nil => simp [insert, erase]
  | cons p rest ih =>
    obtain ⟨hlt, hrest⟩ := List.pairwise_cons.mp h
    simp only [insert]
    split
    · next hname =>
      rw [erase_of_forall_lt]
      intro q hq
      rcases List.mem_cons.mp hq with rfl | hq
      · exact hname
      · exact String.lt_trans hname (hlt q hq)
    · next hname =>
      split
      · next hn =>
        have hne : p.1 ≠ name := fun e => hname (by rw [← e] at hn; exact absurd hn (String.lt_irrefl _))
        rw [erase_cons_ne hne]
        exact ((ih hrest).cons _).trans (List.Perm.swap _ _ _)
      · next hn =>
        have hn' : p.1 = name := String.le_antisymm (String.not_lt.mp hname) (String.not_lt.mp hn)
        subst hn'
        rw [erase_cons_self hlt]

theorem sorted_insert (h : Sorted t) (name : String) (value : β) :
    Sorted (insert name value t) := by
  induction t with
  | nil => simp [insert, Sorted]
  | cons p rest ih =>
    obtain ⟨hlt, hrest⟩ := List.pairwise_cons.mp h
    simp only [insert]
    split
    · next hname =>
      refine List.pairwise_cons.mpr ⟨fun q hq => ?_, h⟩
      rcases List.mem_cons.mp hq with rfl | hq
      · exact hname
      · exact String.lt_trans hname (hlt q hq)
    · next hname =>
      split
      · next hn =>
        refine List.pairwise_cons.mpr ⟨fun q hq => ?_, ih hrest⟩
        rcases List.mem_cons.mp ((insert_perm hrest name value).mem_iff.mp hq) with rfl | hq
        · exact hn
        · exact hlt q (List.mem_filter.mp hq).1
      · next hn =>
        have hn' : p.1 = name := String.le_antisymm (String.not_lt.mp hname) (String.not_lt.mp hn)
        exact List.pairwise_cons.mpr ⟨fun q hq => hn' ▸ hlt q hq, hrest⟩

/-! ## Sorting -/

theorem Sorted.nodup_names (h : Sorted t) : (t.map Prod.fst).Nodup :=
  List.pairwise_map.mpr (h.imp fun hlt => String.ne_of_lt hlt)

/-- Two tables of the same pairs are equal. -/
theorem Sorted.eq_of_perm {t' : Keyed β} (h : Sorted t) (h' : Sorted t') (hperm : t.Perm t') :
    t = t' :=
  hperm.eq_of_pairwise (fun _ _ _ _ hlt hgt => absurd hgt (String.lt_asymm hlt)) h h'

theorem sorted_foldl_insert (pairs : List (String × β)) (h : Sorted t) :
    Sorted (pairs.foldl (fun t (n, v) => insert n v t) t) := by
  induction pairs generalizing t with
  | nil => exact h
  | cons p rest ih => exact ih (sorted_insert h p.1 p.2)

theorem sorted_ofList (pairs : List (String × β)) : Sorted (ofList pairs) :=
  sorted_foldl_insert pairs sorted_nil

theorem foldl_insert_perm {pairs : List (String × β)} (h : Sorted t)
    (hnodup : (pairs.map Prod.fst ++ t.map Prod.fst).Nodup) :
    (pairs.foldl (fun t (n, v) => insert n v t) t).Perm (pairs ++ t) := by
  induction pairs generalizing t with
  | nil => exact .refl t
  | cons p rest ih =>
    obtain ⟨hnew, hrest⟩ := List.nodup_cons.mp hnodup
    have hinsert : (insert p.1 p.2 t).Perm (p :: t) := by
      have hnotMem : p.1 ∉ t.map Prod.fst := fun hmem => hnew (List.mem_append_right _ hmem)
      simpa only [erase_of_notMem hnotMem] using insert_perm h p.1 p.2
    have hnodup' : (rest.map Prod.fst ++ (insert p.1 p.2 t).map Prod.fst).Nodup :=
      ((hinsert.map Prod.fst).append_left _).nodup_iff.mpr
        (List.perm_middle.nodup_iff.mpr (List.nodup_cons.mpr ⟨hnew, hrest⟩))
    exact ((ih (sorted_insert h p.1 p.2) hnodup').trans (hinsert.append_left rest)).trans
      List.perm_middle

/-- Pairs of distinct names are sorted without loss. -/
theorem ofList_perm {pairs : List (String × β)} (h : (pairs.map Prod.fst).Nodup) :
    (ofList pairs).Perm pairs := by
  have hnodup : (pairs.map Prod.fst ++ ([] : Keyed β).map Prod.fst).Nodup := by simpa using h
  have hperm : (ofList pairs).Perm (pairs ++ []) := foldl_insert_perm sorted_nil hnodup
  simpa only [List.append_nil] using hperm

/-- Sorting pairs gives the one table that has them all. -/
theorem ofList_eq_of_perm {pairs : List (String × β)} (h : Sorted t) (hperm : t.Perm pairs) :
    ofList pairs = t := by
  have hnodup : (pairs.map Prod.fst).Nodup := (hperm.map Prod.fst).nodup_iff.mp h.nodup_names
  exact (sorted_ofList pairs).eq_of_perm h ((ofList_perm hnodup).trans hperm.symm)

/-- What was put in is all there is. -/
theorem mem_of_mem_foldl_insert {pairs : List (String × β)} {p : String × β} (h : Sorted t)
    (hp : p ∈ pairs.foldl (fun t (n, v) => insert n v t) t) : p ∈ pairs ∨ p ∈ t := by
  induction pairs generalizing t with
  | nil => exact Or.inr hp
  | cons q rest ih =>
    rcases ih (sorted_insert h q.1 q.2) hp with hp | hp
    · exact Or.inl (List.mem_cons_of_mem q hp)
    · rcases List.mem_cons.mp ((insert_perm h q.1 q.2).mem_iff.mp hp) with rfl | hp
      · exact Or.inl List.mem_cons_self
      · exact Or.inr (List.mem_filter.mp hp).1

theorem mem_of_mem_ofList {pairs : List (String × β)} {p : String × β} (hp : p ∈ ofList pairs) :
    p ∈ pairs :=
  (mem_of_mem_foldl_insert sorted_nil hp).resolve_right (List.not_mem_nil)

end HostBridge.Keyed
