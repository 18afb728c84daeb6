import HostBridge.Cancellation
import HostBridge.Proofs.Keyed
import Mathlib.Data.List.Nodup

/-!
# What becomes of a future

`State.fared` says, for each action, what becomes of the future of a name. It says so without the
listeners of other futures, save for one thing that it leaves out: a future that is dropped may hand
its notification on. `future?_perform` adds just that, and what it does not say is to whom.

A future is *sound* for the flag of its group if its bit and its listener together tell the flag. In
every run all futures are sound, whatever was handed on to them.
-/

namespace HostBridge.Cancellation

variable {α : Type}

/-! ## Tables of futures -/

namespace State

variable {s : State α} {futures : List (String × Future α)}

theorem lookup_cons (n m : String) (f : Future α) (futures : List (String × Future α)) :
    ((m, f) :: futures).lookup n = if n = m then some f else futures.lookup n := by
  by_cases hn : n = m
  · simp [hn]
  · have hbeq : (n == m) = false := by simpa using hn
    simp [List.lookup_cons, hbeq, hn]

theorem future?_setFuture (s : State α) (name n : String) (f : Future α) :
    (s.setFuture name f).future? n = if n = name then (s.future? n).map fun _ => f
      else s.future? n := by
  simp only [future?, setFuture]
  induction s.futures with
  | nil => simp
  | cons p rest ih =>
    obtain ⟨m, g⟩ := p
    by_cases hm : m = name
    · simp only [List.map_cons, hm, if_true, lookup_cons, ih]
      split <;> rfl
    · simp only [List.map_cons, hm, if_false, lookup_cons, ih]
      by_cases hn : n = m
      · simp [hn, hm]
      · simp [hn]

theorem names_setFuture (s : State α) (name : String) (f : Future α) :
    (s.setFuture name f).futures.map Prod.fst = s.futures.map Prod.fst := by
  simp only [setFuture, List.map_map]
  refine List.map_congr_left fun p _ => ?_
  simp only [Function.comp_apply]
  split <;> rfl

theorem lookup_notifyAll (group : Nat) (futures : List (String × Future α)) (n : String) :
    (notifyAll group futures).lookup n =
      (futures.lookup n).map fun f => if f.group = group then f.notify else f := by
  simp only [notifyAll]
  induction futures with
  | nil => simp
  | cons p rest ih =>
    obtain ⟨m, f⟩ := p
    by_cases hf : f.group = group
    · simp only [List.map_cons, hf, if_true, lookup_cons, ih]
      by_cases hn : n = m <;> simp [hn, hf]
    · simp only [List.map_cons, hf, if_false, lookup_cons, ih]
      by_cases hn : n = m <;> simp [hn, hf]

theorem names_notifyAll (group : Nat) (futures : List (String × Future α)) :
    (notifyAll group futures).map Prod.fst = futures.map Prod.fst := by
  simp only [notifyAll, List.map_map]
  refine List.map_congr_left fun p _ => ?_
  simp only [Function.comp_apply]
  split <;> rfl

/-! ## Notifications that are handed on -/

/-- One table comes from another when a future is dropped: its notification, if it had one, may have
reached a future of its group that waited. -/
structure Passed (dropped : Future α) (futures futures' : List (String × Future α)) : Prop where
  /-- The futures are the same. -/
  names : futures'.map Prod.fst = futures.map Prod.fst
  /-- Each of them is as it was, or was notified. -/
  lookup : ∀ n, futures'.lookup n = futures.lookup n ∨
    dropped.listener = .notified ∧ ∃ f, futures.lookup n = some f ∧ f.group = dropped.group ∧
      f.listener.isWaiting = true ∧ futures'.lookup n = some f.notify

theorem Passed.refl (dropped : Future α) (futures : List (String × Future α)) :
    Passed dropped futures futures :=
  ⟨rfl, fun _ => Or.inl rfl⟩

theorem passed_notifyFirst {dropped : Future α} (hdropped : dropped.listener = .notified)
    (futures : List (String × Future α)) :
    Passed dropped futures (notifyFirst dropped.group futures) := by
  induction futures with
  | nil => exact Passed.refl dropped []
  | cons p rest ih =>
    obtain ⟨m, f⟩ := p
    simp only [notifyFirst]
    split
    · next hf =>
      refine ⟨rfl, fun n => ?_⟩
      by_cases hn : n = m
      · exact Or.inr ⟨hdropped, f, by simp [hn], hf.1, hf.2, by simp [hn]⟩
      · exact Or.inl (by simp [lookup_cons, hn])
    · refine ⟨by simp [ih.names], fun n => ?_⟩
      by_cases hn : n = m
      · exact Or.inl (by simp [hn])
      · simpa [lookup_cons, hn] using ih.lookup n

theorem passed_handOn (dropped : Future α) (futures : List (String × Future α)) :
    Passed dropped futures (handOn dropped futures) := by
  unfold handOn
  split
  · next h => exact passed_notifyFirst h.1 futures
  · exact Passed.refl dropped futures

/-! ## Futures that are dropped -/

theorem lookup_eq_none {n : String} : futures.lookup n = none ↔ n ∉ futures.map Prod.fst := by
  simp only [List.lookup_eq_none_iff, List.mem_map, not_exists, not_and]
  constructor
  · intro h p hp hname
    simpa [hname] using h p hp
  · intro h p hp
    simpa using fun e => h p hp (Eq.symm e)

theorem lookup_eraseP (hnames : (futures.map Prod.fst).Nodup) (name n : String) :
    (futures.eraseP fun p => p.1 == name).lookup n =
      if n = name then none else futures.lookup n := by
  induction futures with
  | nil => simp
  | cons p rest ih =>
    obtain ⟨m, f⟩ := p
    obtain ⟨hm, hrest⟩ := List.nodup_cons.mp hnames
    by_cases hname : m = name
    · subst hname
      rw [List.eraseP_cons_of_pos (by simp)]
      split
      · next hn =>
        subst hn
        exact lookup_eq_none.mpr hm
      · next hn => simp [lookup_cons, hn]
    · rw [List.eraseP_cons_of_neg (by simpa using hname)]
      by_cases hn : n = m
      · subst hn
        simp [hname]
      · simp [lookup_cons, hn, ih hrest]

/-- The futures without one that is there. -/
theorem passed_dropFuture {name : String} {f : Future α} (h : futures.lookup name = some f) :
    Passed f (futures.eraseP fun p => p.1 == name) (dropFuture name futures) := by
  rw [dropFuture, h]
  exact passed_handOn f _

theorem dropFuture_of_none {name : String} (h : futures.lookup name = none) :
    dropFuture name futures = futures := by
  rw [dropFuture, h]

theorem nodup_dropFuture (hnames : (futures.map Prod.fst).Nodup) (name : String) :
    ((dropFuture name futures).map Prod.fst).Nodup := by
  cases h : futures.lookup name with
  | none =>
    rw [dropFuture_of_none h]
    exact hnames
  | some f =>
    rw [(passed_dropFuture h).names]
    exact hnames.sublist (List.eraseP_sublist.map _)

/-! ## Futures that are selected -/

/-- A new future goes to the end, so that the one that is dropped is the one that had its name. -/
theorem passed_select {name : String} {f : Future α} (g : Future α)
    (h : futures.lookup name = some f) :
    Passed f ((futures.eraseP fun p => p.1 == name) ++ [(name, g)])
      (dropFuture name (futures ++ [(name, g)])) := by
  have hname : name ∈ futures.map Prod.fst := by
    by_contra hnot
    rw [lookup_eq_none.mpr hnot] at h
    cases h
  obtain ⟨p, hp, hpname⟩ := List.mem_map.mp hname
  have herase : ((futures ++ [(name, g)]).eraseP fun p => p.1 == name) =
      (futures.eraseP fun p => p.1 == name) ++ [(name, g)] :=
    List.eraseP_append_left (p := fun q => q.1 == name) (by simp [hpname]) _ hp
  rw [← herase]
  refine passed_dropFuture ?_
  rw [List.lookup_append, h]
  rfl

theorem lookup_append {name : String} (g : Future α) (h : futures.lookup name = none)
    (n : String) :
    (futures ++ [(name, g)]).lookup n = if n = name then some g else futures.lookup n := by
  rw [List.lookup_append, lookup_cons]
  split
  · next hn =>
    rw [hn, h]
    rfl
  · simp

theorem nodup_append {name : String} (g : Future α) (hnames : (futures.map Prod.fst).Nodup)
    (h : futures.lookup name = none) : ((futures ++ [(name, g)]).map Prod.fst).Nodup := by
  rw [List.map_append, List.map_singleton, ← List.concat_eq_append, List.nodup_concat]
  exact ⟨lookup_eq_none.mp h, hnames⟩

/-! ## What an action does -/

/-- What becomes of the future of a name, apart from notifications that are handed on. -/
def fared (s : State α) (n : String) : Action α → Option (Future α)
  | .select handle name value =>
    match s.handles.find? handle with
    | some g => if n = name then some (s.selectFuture g value) else s.future? n
    | none => s.future? n
  | .dropFuture name => if n = name then none else s.future? n
  | .cancel handle =>
    (s.future? n).map fun f =>
      if s.handles.find? handle = some f.group ∧ s.isCancelled f.group = false then f.notify else f
  | .complete name value =>
    (s.future? n).map fun f => if n = name then { f with value := some value } else f
  | .poll name => (s.future? n).map fun f => if n = name then f.poll.2 else f
  | .create _ | .clone _ _ | .dropHandle _ | .cancelled _ => s.future? n

/-- The future of a name got a notification that another future of its group has left behind. -/
def Inherits (s s' : State α) (n : String) (a : Action α) : Prop :=
  ∃ f m d, s.fared n a = some f ∧ s'.future? n = some f.notify ∧ f.listener.isWaiting = true ∧
    s.future? m = some d ∧ d.listener = .notified ∧ d.group = f.group

/-- What is left when a future is dropped, given what the others would be otherwise. -/
theorem Passed.fares {s s' : State α} {n m : String} {a : Action α} {d : Future α}
    {futures : List (String × Future α)} (h : Passed d futures s'.futures)
    (hd : s.future? m = some d) (hfutures : futures.lookup n = s.fared n a) :
    s'.future? n = s.fared n a ∨ s.Inherits s' n a := by
  rcases h.lookup n with hsame | ⟨hnotified, f, hf, hgroup, hwaiting, hnotify⟩
  · exact Or.inl (hsame.trans hfutures)
  · exact Or.inr ⟨f, m, d, hfutures.symm.trans hf, hnotify, hwaiting, hd, hnotified, hgroup.symm⟩

/-- After an action the future of a name is what `fared` says, or it has inherited a notification as
well. -/
theorem future?_perform (hnames : (s.futures.map Prod.fst).Nodup) (a : Action α) (n : String) :
    (s.perform a).2.future? n = s.fared n a ∨ s.Inherits (s.perform a).2 n a := by
  cases a with
  | create handle => exact Or.inl rfl
  | clone source handle =>
    refine Or.inl ?_
    simp only [perform, fared]
    split <;> rfl
  | dropHandle handle => exact Or.inl rfl
  | cancel handle =>
    refine Or.inl ?_
    simp only [perform, fared]
    split
    · next hhandle => simp [hhandle]
    · next g hhandle =>
      simp only [cancelGroup, hhandle, Option.some.injEq]
      split
      · next hcancelled =>
        have hid : (fun f : Future α => if g = f.group ∧ s.isCancelled f.group = false then f.notify
            else f) = id := by
          funext f
          refine if_neg ?_
          rintro ⟨rfl, hnot⟩
          rw [hcancelled] at hnot
          cases hnot
        rw [hid, Option.map_id, id]
      · next hcancelled =>
        refine (lookup_notifyAll g s.futures n).trans ?_
        congr 1
        funext f
        by_cases hf : f.group = g
        · simp [hf, hcancelled]
        · simp [hf, Ne.symm hf]
  | cancelled handle =>
    refine Or.inl ?_
    simp only [perform, fared]
    split <;> rfl
  | select handle name value =>
    cases hhandle : s.handles.find? handle with
    | none => exact Or.inl (by simp only [perform, fared, hhandle])
    | some g =>
      cases hd : s.future? name with
      | none =>
        refine Or.inl ?_
        simp only [perform, fared, hhandle, hd]
        exact lookup_append _ hd n
      | some d =>
        simp only [perform, hhandle, hd, Option.isSome_some, if_true]
        refine Passed.fares (passed_select _ hd) hd ?_
        rw [lookup_append _ (by rw [lookup_eraseP hnames, if_pos rfl]), lookup_eraseP hnames]
        simp only [fared, hhandle]
        split <;> rfl
  | complete name value =>
    refine Or.inl ?_
    cases hf : s.future? name with
    | none =>
      simp only [perform, fared, hf]
      by_cases hn : n = name
      · simp [hn, hf]
      · simp [hn]
    | some f =>
      simp only [perform, fared, hf, future?_setFuture]
      split
      · next hn => simp [hn, hf]
      · simp
  | poll name =>
    refine Or.inl ?_
    cases hf : s.future? name with
    | none =>
      simp only [perform, fared, hf]
      by_cases hn : n = name
      · simp [hn, hf]
      · simp [hn]
    | some f =>
      simp only [perform, fared, hf, future?_setFuture]
      split
      · next hn => simp [hn, hf]
      · simp
  | dropFuture name =>
    cases hd : s.future? name with
    | none =>
      refine Or.inl ?_
      simp only [perform, fared]
      rw [dropFuture_of_none hd]
      split
      · next hn =>
        rw [hn]
        exact hd
      · rfl
    | some d =>
      exact Passed.fares (passed_dropFuture hd) hd (lookup_eraseP hnames name n)

/-- No two futures have the same name. -/
theorem nodup_perform (hnames : (s.futures.map Prod.fst).Nodup) (a : Action α) :
    ((s.perform a).2.futures.map Prod.fst).Nodup := by
  cases a with
  | create | dropHandle => exact hnames
  | clone source handle | cancelled handle =>
    simp only [perform]
    split <;> exact hnames
  | cancel handle =>
    simp only [perform]
    split
    · exact hnames
    · simp only [cancelGroup]
      split
      · exact hnames
      · rw [names_notifyAll]
        exact hnames
  | select handle name value =>
    simp only [perform]
    split
    · exact hnames
    · next g _ =>
      cases hd : s.future? name with
      | none => exact nodup_append _ hnames hd
      | some d =>
        simp only [Option.isSome_some, if_true]
        rw [(passed_select _ hd).names]
        exact nodup_append _ (hnames.sublist (List.eraseP_sublist.map _))
          (by rw [lookup_eraseP hnames, if_pos rfl])
  | complete name value | poll name =>
    simp only [perform]
    split
    · exact hnames
    · rw [names_setFuture]
      exact hnames
  | dropFuture name => exact nodup_dropFuture hnames name

/-- The flag of a group is set by the first cancellation, and never cleared. -/
theorem isCancelled_perform
    (hknown : ∀ handle g, s.handles.find? handle = some g → g < s.groups.length) (a : Action α)
    (g : Nat) :
    (s.perform a).2.isCancelled g = true ↔
      s.isCancelled g = true ∨ ∃ handle, a = .cancel handle ∧ s.handles.find? handle = some g := by
  cases a with
  | create handle =>
    simp only [perform, isCancelled, List.getD_eq_getElem?_getD, reduceCtorEq, false_and,
      exists_false, or_false]
    rcases Nat.lt_trichotomy g s.groups.length with hlt | heq | hgt
    · rw [List.getElem?_append_left hlt]
    · simp [heq]
    · have hold : s.groups[g]? = none := List.getElem?_eq_none (by omega)
      have hnew : (s.groups ++ [false])[g]? = none :=
        List.getElem?_eq_none (by rw [List.length_append, List.length_singleton]; omega)
      rw [hold, hnew]
  | clone source handle | cancelled handle | select handle name value | complete name value
  | poll name =>
    simp only [perform, reduceCtorEq, false_and, exists_false, or_false]
    split <;> rfl
  | dropHandle handle | dropFuture name =>
    simp only [perform, reduceCtorEq, false_and, exists_false, or_false]
    rfl
  | cancel handle =>
    simp only [perform, Action.cancel.injEq]
    cases hhandle : s.handles.find? handle with
    | none => simp [hhandle]
    | some k =>
      simp only [cancelGroup, exists_eq_left', hhandle, Option.some.injEq]
      by_cases hk : s.isCancelled k = true
      · rw [if_pos hk]
        refine ⟨Or.inl, ?_⟩
        rintro (hg | rfl)
        · exact hg
        · exact hk
      · rw [if_neg hk]
        simp only [isCancelled, List.getD_eq_getElem?_getD, List.getElem?_set]
        by_cases hkg : k = g
        · subst hkg
          simp [hknown handle k hhandle]
        · simp [hkg]

/-- A handle that is there belongs to a group that was made. -/
theorem known_perform
    (hknown : ∀ handle g, s.handles.find? handle = some g → g < s.groups.length) (a : Action α)
    {handle : String} {g : Nat} (h : (s.perform a).2.handles.find? handle = some g) :
    g < (s.perform a).2.groups.length := by
  cases a with
  | create name =>
    simp only [perform, Keyed.find?_insert] at h ⊢
    rw [List.length_append, List.length_singleton]
    split at h
    · obtain rfl := Option.some.inj h
      exact Nat.lt_succ_self _
    · exact Nat.lt_succ_of_lt (hknown handle g h)
  | clone source name =>
    simp only [perform] at h ⊢
    split at h
    · exact hknown handle g h
    · next k hsource =>
      simp only [Keyed.find?_insert] at h ⊢
      split at h
      · obtain rfl := Option.some.inj h
        exact hknown source k hsource
      · exact hknown handle g h
  | dropHandle name =>
    simp only [perform, Keyed.find?_erase] at h ⊢
    split at h
    · cases h
    · exact hknown handle g h
  | cancel name =>
    simp only [perform] at h ⊢
    split at h
    · exact hknown handle g h
    · simp only [cancelGroup] at h ⊢
      split at h
      · next hk =>
        rw [if_pos hk]
        exact hknown handle g h
      · next hk =>
        rw [if_neg hk]
        simpa using hknown handle g h
  | cancelled name | select name future value | complete name value | poll name =>
    simp only [perform] at h ⊢
    split at h <;> exact hknown handle g h
  | dropFuture name => exact hknown handle g h

end State

/-! ## Soundness -/

namespace Future

variable {f : Future α} {flag : Bool}

/-- The bit and the listener of a future tell the flag of its group. A waiting listener was polled
only while the flag was not set. -/
def Sound (f : Future α) (flag : Bool) : Prop :=
  match f.listener with
  | .waiting polled => f.cancelled = flag ∧ (polled = true → flag = false)
  | .notified => flag = true
  | .spent => flag = true ∧ f.cancelled = true

/-- A poll of a sound future says what the flag says, and otherwise what its own work says. -/
theorem Sound.poll_fst (h : f.Sound flag) :
    f.poll.1 = if flag then .cancelled else f.value.elim .pending .ready := by
  obtain ⟨group, listener, cancelled, value, wakes⟩ := f
  cases listener with
  | waiting polled =>
    obtain ⟨rfl, -⟩ := h
    cases cancelled with
    | true => rfl
    | false => cases value <;> rfl
  | notified =>
    obtain rfl : flag = true := h
    cases cancelled <;> rfl
  | spent =>
    obtain ⟨rfl, rfl⟩ : flag = true ∧ cancelled = true := h
    rfl

theorem Sound.poll (h : f.Sound flag) : f.poll.2.Sound flag := by
  obtain ⟨group, listener, cancelled, value, wakes⟩ := f
  cases listener with
  | waiting polled =>
    obtain ⟨rfl, hpolled⟩ := h
    cases cancelled with
    | true => exact ⟨rfl, hpolled⟩
    | false => cases value <;> exact ⟨rfl, fun _ => rfl⟩
  | notified =>
    obtain rfl : flag = true := h
    cases cancelled with
    | true => exact rfl
    | false => exact ⟨rfl, rfl⟩
  | spent =>
    obtain ⟨rfl, rfl⟩ : flag = true ∧ cancelled = true := h
    exact ⟨rfl, rfl⟩

/-- A poll changes neither the group nor the work of a future, and wakes nobody. -/
theorem poll_keeps (f : Future α) :
    f.poll.2.group = f.group ∧ f.poll.2.value = f.value ∧ f.poll.2.wakes = f.wakes := by
  obtain ⟨group, listener, cancelled, value, wakes⟩ := f
  cases cancelled with
  | true => exact ⟨rfl, rfl, rfl⟩
  | false => cases listener <;> cases value <;> exact ⟨rfl, rfl, rfl⟩

/-- A listener that waits learns of the task that polls its future, unless that was cancelled. -/
theorem Sound.poll_of_waiting (h : f.Sound false) {polled : Bool}
    (hwaiting : f.listener = .waiting polled) : f.poll.2.listener = .waiting true := by
  obtain ⟨group, listener, cancelled, value, wakes⟩ := f
  obtain rfl : listener = .waiting polled := hwaiting
  obtain ⟨rfl, -⟩ : cancelled = false ∧ _ := h
  cases value <;> rfl

theorem Sound.notify (h : f.Sound flag) : f.notify.Sound true := by
  obtain ⟨group, listener, cancelled, value, wakes⟩ := f
  cases listener with
  | waiting polled => exact rfl
  | notified => exact rfl
  | spent => exact ⟨rfl, h.2⟩

/-- A notification that comes after the flag was set wakes nobody. -/
theorem Sound.wakes_notify (h : f.Sound true) : f.notify.wakes = f.wakes := by
  obtain ⟨group, listener, cancelled, value, wakes⟩ := f
  cases listener with
  | waiting polled =>
    cases polled with
    | true => cases h.2 rfl
    | false => rfl
  | notified => rfl
  | spent => rfl

/-- A listener that has completed is not polled again: whatever is in its place, a poll of its future
neither looks at it nor changes it. -/
theorem Sound.poll_of_spent (h : f.Sound flag) (hspent : f.listener = .spent) (listener : Listener) :
    { f with listener }.poll = (.cancelled, { f with listener }) := by
  obtain ⟨group, listener', cancelled, value, wakes⟩ := f
  obtain rfl : listener' = .spent := hspent
  obtain ⟨-, rfl⟩ : flag = true ∧ cancelled = true := h
  rfl

end Future

namespace State

variable {s : State α}

/-- What holds of handles, groups and futures in every run. -/
structure Coherent (s : State α) : Prop where
  /-- A handle belongs to a group that was made. -/
  known : ∀ handle g, s.handles.find? handle = some g → g < s.groups.length
  /-- No two futures have the same name. -/
  names : (s.futures.map Prod.fst).Nodup
  /-- Every future tells the flag of its group. -/
  sound : ∀ n f, s.future? n = some f → f.Sound (s.isCancelled f.group)

theorem coherent_new : Coherent ({} : State α) where
  known _ _ h := by cases h
  names := List.nodup_nil
  sound _ _ h := by cases h

/-- Only the first cancellation of a group changes its flag. -/
theorem Coherent.flag_eq (h : s.Coherent) {a : Action α} {g : Nat}
    (hnot : ∀ handle, a = .cancel handle → s.handles.find? handle = some g →
      s.isCancelled g = true) :
    (s.perform a).2.isCancelled g = s.isCancelled g := by
  rw [Bool.eq_iff_iff, isCancelled_perform h.known]
  refine ⟨?_, Or.inl⟩
  rintro (hg | ⟨handle, ha, hhandle⟩)
  · exact hg
  · exact hnot handle ha hhandle

/-- Whatever becomes of a future without a notification of another, it is sound. -/
theorem Coherent.fared (h : s.Coherent) {n : String} {a : Action α} {f : Future α}
    (hf : s.fared n a = some f) : f.Sound ((s.perform a).2.isCancelled f.group) := by
  cases a with
  | create | clone | dropHandle | cancelled =>
    rw [h.flag_eq (by simp)]
    exact h.sound n f hf
  | select handle name value =>
    rw [h.flag_eq (by simp)]
    simp only [State.fared] at hf
    split at hf
    · split at hf
      · obtain rfl := Option.some.inj hf
        exact ⟨rfl, fun hpolled => by cases hpolled⟩
      · exact h.sound n f hf
    · exact h.sound n f hf
  | dropFuture name =>
    rw [h.flag_eq (by simp)]
    simp only [State.fared] at hf
    split at hf
    · cases hf
    · exact h.sound n f hf
  | complete name value =>
    rw [h.flag_eq (by simp)]
    obtain ⟨g, hg, rfl⟩ := Option.map_eq_some_iff.mp hf
    split
    · exact h.sound n g hg
    · exact h.sound n g hg
  | poll name =>
    rw [h.flag_eq (by simp)]
    obtain ⟨g, hg, rfl⟩ := Option.map_eq_some_iff.mp hf
    split
    · rw [g.poll_keeps.1]
      exact (h.sound n g hg).poll
    · exact h.sound n g hg
  | cancel handle =>
    obtain ⟨g, hg, rfl⟩ := Option.map_eq_some_iff.mp hf
    split
    · next hfirst =>
      have hcancelled : (s.perform (.cancel handle)).2.isCancelled g.group = true :=
        (isCancelled_perform h.known _ _).mpr (Or.inr ⟨handle, rfl, hfirst.1⟩)
      have hsound := (h.sound n g hg).notify
      rwa [← hcancelled] at hsound
    · next hnot =>
      rw [h.flag_eq]
      · exact h.sound n g hg
      · rintro _ ⟨⟩ hhandle
        by_contra hcancelled
        exact hnot ⟨hhandle, by simpa using hcancelled⟩

/-- A notification is handed on within a group that is cancelled. -/
theorem Coherent.isCancelled_of_notified (h : s.Coherent) {n : String} {f : Future α}
    (hf : s.future? n = some f) (hnotified : f.listener = .notified) :
    s.isCancelled f.group = true := by
  have hsound := h.sound n f hf
  rw [Future.Sound, hnotified] at hsound
  exact hsound

theorem Coherent.perform (h : s.Coherent) (a : Action α) : (s.perform a).2.Coherent where
  known _ _ hhandle := known_perform h.known a hhandle
  names := nodup_perform h.names a
  sound n f hf := by
    rcases future?_perform h.names a n with
      hfared | ⟨g, m, d, hg, hnotify, -, hd, hnotified, hgroup⟩
    · exact h.fared (hfared.symm.trans hf)
    · obtain rfl := Option.some.inj (hnotify.symm.trans hf)
      have hcancelled : (s.perform a).2.isCancelled g.notify.group = true :=
        (isCancelled_perform h.known a _).mpr
          (Or.inl (hgroup ▸ h.isCancelled_of_notified hd hnotified))
      rw [hcancelled]
      exact (h.fared hg).notify

theorem Coherent.run (h : s.Coherent) (actions : List (Action α)) : (s.run actions).Coherent := by
  induction actions generalizing s with
  | nil => exact h
  | cons a rest ih => exact ih (h.perform a)

theorem run_concat (s : State α) (actions : List (Action α)) (a : Action α) :
    s.run (actions ++ [a]) = ((s.run actions).perform a).2 := by
  induction actions generalizing s with
  | nil => rfl
  | cons b rest ih => exact ih (s.perform b).2

end State

end HostBridge.Cancellation
