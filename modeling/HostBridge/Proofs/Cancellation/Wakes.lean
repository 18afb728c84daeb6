import HostBridge.Proofs.Cancellation.Plain

/-!
# Who is woken by a cancellation

The task of a future is woken when the group of the future is cancelled for the first time, provided
that the future is there by then and was polled before. It is not woken otherwise: later
cancellations find the listener notified, a future that was selected too late never polls its
listener, and a notification that a dropped future hands on can only reach such a one.
-/

namespace HostBridge.Cancellation

variable {α : Type}

namespace Plain

variable {n : String} {g : Nat} {start since : List (Action α)}

/-- The action cancels a group that was not cancelled before. -/
def Strikes (p : Plain α) (g : Nat) (a : Action α) : Prop :=
  ∃ handle, a = .cancel handle ∧ p.handle handle = some g ∧ g ∉ p.cancelled

/-- After the action a name does not stand for the same future any more. -/
def Replaces (p : Plain α) (n : String) (a : Action α) : Prop :=
  a = .dropFuture n ∨ ∃ handle value, a = .select handle n value ∧ (p.handle handle).isSome

/-- Some actions leave the future of a name in its place. -/
def Stays (n : String) (start since : List (Action α)) : Prop :=
  ¬ ∃ front a back, since = front ++ a :: back ∧ (after (start ++ front)).Replaces n a

/-- In the course of some actions a group is cancelled for the first time, and the future of a name
was polled before. -/
def Alerts (n : String) (g : Nat) (start since : List (Action α)) : Prop :=
  ∃ front a back, since = front ++ a :: back ∧
    ((after (start ++ front)).Strikes g a ∧ .poll n ∈ front)

theorem stays_nil : Stays n start [] := by
  simp [Stays]

theorem stays_concat {a : Action α} :
    Stays n start (since ++ [a]) ↔
      Stays n start since ∧ ¬ (after (start ++ since)).Replaces n a := by
  rw [Stays, exists_split_concat (P := fun front a => (after (start ++ front)).Replaces n a), not_or]
  rfl

theorem Stays.front {back : List (Action α)} (h : Stays n start (since ++ back)) :
    Stays n start since := by
  rintro ⟨front, a, rest, rfl, ha⟩
  exact h ⟨front, a, rest ++ back, by simp, ha⟩

theorem not_alerts_nil : ¬ Alerts n g start [] := by
  simp [Alerts]

theorem alerts_concat {a : Action α} :
    Alerts n g start (since ++ [a]) ↔
      Alerts n g start since ∨ (after (start ++ since)).Strikes g a ∧ .poll n ∈ since :=
  exists_split_concat
    (P := fun front a => (after (start ++ front)).Strikes g a ∧ Action.poll n ∈ front)

/-- A group that was cancelled stays so. -/
theorem mem_cancelled_append (h : g ∈ (after start).cancelled) :
    g ∈ (after (start ++ since)).cancelled := by
  obtain ⟨before, handle, rest, rfl, hhandle⟩ := (mem_cancelled_after start g).mp h
  exact (mem_cancelled_after _ g).mpr ⟨before, handle, rest ++ since, by simp, hhandle⟩

theorem Alerts.mem_cancelled (h : Alerts n g start since) :
    g ∈ (after (start ++ since)).cancelled := by
  obtain ⟨front, a, back, rfl, ⟨handle, rfl, hhandle, -⟩, -⟩ := h
  exact (mem_cancelled_after _ g).mpr ⟨start ++ front, handle, back, by simp, hhandle⟩

/-- A group that is cancelled in the course of some actions is so for a first time. -/
theorem exists_strikes (hbefore : g ∉ (after start).cancelled)
    (hafter : g ∈ (after (start ++ since)).cancelled) :
    ∃ front a back, since = front ++ a :: back ∧ (after (start ++ front)).Strikes g a := by
  induction since using List.reverseRecOn with
  | nil => simp_all
  | append_singleton since a ih =>
    rw [exists_split_concat (P := fun front a => (after (start ++ front)).Strikes g a)]
    by_cases hg : g ∈ (after (start ++ since)).cancelled
    · exact Or.inl (ih hg)
    · rw [← List.append_assoc, after_concat, mem_cancelled_perform] at hafter
      obtain ⟨handle, ha, hhandle⟩ := hafter.resolve_left hg
      exact Or.inr ⟨handle, ha, hhandle, hg⟩

/-- A future was polled before its group was cancelled, and the group is cancelled by now. -/
theorem alerts_of_polled {front back : List (Action α)}
    (hbefore : g ∉ (after (start ++ front)).cancelled)
    (hafter : g ∈ (after (start ++ (front ++ .poll n :: back))).cancelled) :
    Alerts n g start (front ++ .poll n :: back) := by
  have hpolled : g ∉ (after (start ++ front ++ [.poll n])).cancelled := by
    rw [after_concat, mem_cancelled_perform]
    simpa using hbefore
  have hsplit : start ++ (front ++ .poll n :: back) = start ++ front ++ [.poll n] ++ back := by simp
  rw [hsplit] at hafter
  obtain ⟨middle, a, rest, rfl, hstrikes⟩ := exists_strikes hpolled hafter
  refine ⟨front ++ .poll n :: middle, a, rest, by simp, ?_, by simp⟩
  simpa using hstrikes

/-- A future that stays in its place stays in its group. -/
theorem group_perform {p : Plain α} {a : Action α} (ha : ¬ p.Replaces n a) :
    ((p.perform a).2.future n).map Prod.fst = (p.future n).map Prod.fst := by
  cases a with
  | create | dropHandle => rfl
  | clone source handle =>
    simp only [perform]
    cases p.handle source <;> rfl
  | cancel handle | cancelled handle =>
    simp only [perform]
    cases p.handle handle <;> rfl
  | poll name =>
    simp only [perform]
    cases p.future name <;> rfl
  | select handle name value =>
    simp only [perform]
    cases hhandle : p.handle handle with
    | none => rfl
    | some g =>
      have hname : n ≠ name := by
        rintro rfl
        exact ha (Or.inr ⟨handle, value, rfl, by simp [hhandle]⟩)
      simp [hname]
  | complete name value =>
    simp only [perform]
    cases hf : p.future name with
    | none => rfl
    | some q =>
      simp only [Function.update_apply]
      split
      · next hn => simp [hn, hf]
      · rfl
  | dropFuture name =>
    have hname : n ≠ name := by
      rintro rfl
      exact ha (Or.inl rfl)
    simp [perform, hname]

theorem future_select {p : Plain α} {handle : String} (value : Option α)
    (hhandle : p.handle handle = some g) :
    (p.perform (.select handle n value)).2.future n = some (g, value) := by
  simp [perform, hhandle]

/-- A future belongs to the group that it was selected with. -/
theorem Stays.group {before : List (Action α)} {handle : String} {value : Option α}
    (h : Stays n (before ++ [.select handle n value]) since)
    (hhandle : (after before).handle handle = some g) :
    ((after (before ++ [.select handle n value] ++ since)).future n).map Prod.fst = some g := by
  induction since using List.reverseRecOn with
  | nil => rw [List.append_nil, after_concat, future_select value hhandle, Option.map_some]
  | append_singleton since a ih =>
    obtain ⟨hstays, ha⟩ := stays_concat.mp h
    rw [← List.append_assoc, after_concat, group_perform ha]
    exact ih hstays

/-- Every future that is there was selected at some time and has stayed in its place since. -/
theorem exists_selected {actions : List (Action α)}
    (h : ((after actions).future n).map Prod.fst = some g) :
    ∃ before handle value since, actions = before ++ [.select handle n value] ++ since ∧
      (after before).handle handle = some g ∧
      Stays n (before ++ [.select handle n value]) since := by
  induction actions using List.reverseRecOn with
  | nil => cases h
  | append_singleton actions a ih =>
    rw [after_concat] at h
    by_cases ha : (after actions).Replaces n a
    · rcases ha with rfl | ⟨handle, value, rfl, hhandle⟩
      · simp [perform] at h
      · obtain ⟨k, hk⟩ := Option.isSome_iff_exists.mp hhandle
        rw [future_select value hk, Option.map_some, Option.some.injEq] at h
        exact ⟨actions, handle, value, [], by simp, h ▸ hk, stays_nil⟩
    · rw [group_perform ha] at h
      obtain ⟨before, handle, value, since, rfl, hhandle, hstays⟩ := ih h
      refine ⟨before, handle, value, since ++ [a], by simp, hhandle, ?_⟩
      exact stays_concat.mpr ⟨hstays, by simpa using ha⟩

end Plain

/-! ## One action -/

namespace State

variable {s : State α} {p : Plain α} {n : String} {a : Action α} {f : Future α}

/-- A future that stays in its place is polled, or is notified since its group is cancelled for the
first time, or keeps its listener. -/
theorem fared_of_stays (h : Agrees s p) (hf : s.future? n = some f) (ha : ¬ p.Replaces n a) :
    ∃ f', s.fared n a = some f' ∧ f'.group = f.group ∧
      (a = .poll n ∧ f' = f.poll.2 ∨ p.Strikes f.group a ∧ f' = f.notify ∨
        a ≠ .poll n ∧ ¬ p.Strikes f.group a ∧ f'.listener = f.listener ∧ f'.wakes = f.wakes) := by
  cases a with
  | create | clone | dropHandle | cancelled =>
    exact ⟨f, hf, rfl, Or.inr (Or.inr ⟨by simp, by simp [Plain.Strikes], rfl, rfl⟩)⟩
  | select handle name value =>
    refine ⟨f, ?_, rfl, Or.inr (Or.inr ⟨by simp, by simp [Plain.Strikes], rfl, rfl⟩)⟩
    simp only [fared, h.handle]
    cases hhandle : p.handle handle with
    | none => exact hf
    | some g =>
      have hname : n ≠ name := by
        rintro rfl
        exact ha (Or.inr ⟨handle, value, rfl, by simp [hhandle]⟩)
      exact (if_neg hname).trans hf
  | complete name value =>
    refine ⟨_, by rw [fared, hf, Option.map_some], ?_⟩
    split <;> exact ⟨rfl, Or.inr (Or.inr ⟨by simp, by simp [Plain.Strikes], rfl, rfl⟩)⟩
  | poll name =>
    refine ⟨_, by rw [fared, hf, Option.map_some], ?_⟩
    split
    · next hname => exact ⟨f.poll_keeps.1, Or.inl ⟨by rw [hname], rfl⟩⟩
    · next hname =>
      exact ⟨rfl, Or.inr (Or.inr ⟨by simpa using Ne.symm hname, by simp [Plain.Strikes], rfl, rfl⟩)⟩
  | cancel handle =>
    have hstrikes : p.Strikes f.group (.cancel handle) ↔
        s.handles.find? handle = some f.group ∧ s.isCancelled f.group = false := by
      simp [Plain.Strikes, h.handle, ← h.cancelled]
    refine ⟨_, by rw [fared, hf, Option.map_some], ?_⟩
    split
    · next hfirst => exact ⟨rfl, Or.inr (Or.inl ⟨hstrikes.mpr hfirst, rfl⟩)⟩
    · next hfirst =>
      exact ⟨rfl, Or.inr (Or.inr ⟨by simp, fun hs => hfirst (hstrikes.mp hs), rfl, rfl⟩)⟩
  | dropFuture name =>
    have hname : n ≠ name := by
      rintro rfl
      exact ha (Or.inl rfl)
    refine ⟨f, ?_, rfl, Or.inr (Or.inr ⟨by simp, by simp [Plain.Strikes], rfl, rfl⟩)⟩
    rw [fared, if_neg hname]
    exact hf

end State

/-! ## The life of a future -/

/-- What a future is like, given what happened since it was selected. -/
structure Chronicled (n : String) (g : Nat) (start since : List (Action α)) (f : Future α) :
    Prop where
  /-- It belongs to the group that it was selected with. -/
  group : f.group = g
  /-- Its task was woken if the first cancellation of the group came after a poll. -/
  woken : Plain.Alerts n g start since → f.wakes = 1
  /-- Otherwise it was not woken. -/
  unwoken : ¬ Plain.Alerts n g start since → f.wakes = 0
  /-- Until the group is cancelled, its listener waits, and knows whether there is a task to wake. -/
  waiting : g ∉ (Plain.after (start ++ since)).cancelled →
    ∃ polled, f.listener = .waiting polled ∧ (polled = true ↔ .poll n ∈ since)

namespace Chronicled

variable {n : String} {g : Nat} {start since : List (Action α)} {s : State α} {f f' : Future α}
  {a : Action α}

/-- A notification that was handed on changes nothing that matters. -/
theorem notify (h : Chronicled n g start since f)
    (hcancelled : g ∈ (Plain.after (start ++ since)).cancelled) (hf : f.Sound true) :
    Chronicled n g start since f.notify where
  group := h.group
  woken halerts := hf.wakes_notify.trans (h.woken halerts)
  unwoken halerts := hf.wakes_notify.trans (h.unwoken halerts)
  waiting hnot := absurd hcancelled hnot

/-- A group that is not cancelled after an action was not cancelled before. -/
theorem notMem_cancelled (hnot : g ∉ (Plain.after (start ++ (since ++ [a]))).cancelled) :
    g ∉ (Plain.after (start ++ since)).cancelled := by
  intro hmem
  rw [← List.append_assoc] at hnot
  exact hnot (Plain.mem_cancelled_append hmem)

/-- An action that is no first cancellation of its group leaves the number of wakes alone. -/
theorem keep (h : Chronicled n g start since f) (hstrikes : ¬ (Plain.after (start ++ since)).Strikes g a)
    (hgroup : f'.group = f.group) (hwakes : f'.wakes = f.wakes)
    (hwaiting : g ∉ (Plain.after (start ++ (since ++ [a]))).cancelled →
      ∃ polled, f'.listener = .waiting polled ∧ (polled = true ↔ .poll n ∈ since ++ [a])) :
    Chronicled n g start (since ++ [a]) f' := by
  have halerts : Plain.Alerts n g start (since ++ [a]) ↔ Plain.Alerts n g start since := by
    rw [Plain.alerts_concat]
    exact or_iff_left fun hal => hstrikes hal.1
  refine ⟨hgroup.trans h.group, fun hal => ?_, fun hal => ?_, hwaiting⟩
  · exact hwakes.trans (h.woken (halerts.mp hal))
  · exact hwakes.trans (h.unwoken (mt halerts.mpr hal))

/-- The future is polled. If its group is not cancelled, its listener learns of the task. -/
theorem poll (h : Chronicled n g start since f)
    (hsound : g ∉ (Plain.after (start ++ since)).cancelled → f.Sound false) :
    Chronicled n g start (since ++ [.poll n]) f.poll.2 := by
  refine h.keep (by simp [Plain.Strikes]) f.poll_keeps.1 f.poll_keeps.2.2 fun hnot => ?_
  obtain ⟨polled, hwaiting, -⟩ := h.waiting (notMem_cancelled hnot)
  exact ⟨true, (hsound (notMem_cancelled hnot)).poll_of_waiting hwaiting, by simp⟩

/-- The group is cancelled for the first time. The listener wakes the task that it knows of. -/
theorem strike (h : Chronicled n g start since f)
    (hstrikes : (Plain.after (start ++ since)).Strikes g a) :
    Chronicled n g start (since ++ [a]) f.notify := by
  have ⟨handle, ha, hhandle, hnot⟩ := hstrikes
  obtain ⟨polled, hwaiting, hpolled⟩ := h.waiting hnot
  have hunwoken := h.unwoken fun hal => hnot hal.mem_cancelled
  have halerts : Plain.Alerts n g start (since ++ [a]) ↔ polled = true := by
    rw [Plain.alerts_concat, hpolled]
    refine ⟨?_, fun hmem => Or.inr ⟨hstrikes, hmem⟩⟩
    rintro (hal | ⟨-, hmem⟩)
    · exact absurd hal.mem_cancelled hnot
    · exact hmem
  refine ⟨h.group, fun hal => ?_, fun hal => ?_, fun hnot' => ?_⟩
  · simp [Future.notify, hwaiting, Listener.wakesTask, halerts.mp hal, hunwoken]
  · simp [Future.notify, hwaiting, Listener.wakesTask, mt halerts.mpr hal, hunwoken]
  · refine absurd ?_ hnot'
    rw [← List.append_assoc, Plain.after_concat, Plain.mem_cancelled_perform]
    exact Or.inr ⟨handle, ha, hhandle⟩

/-- One more action that leaves the future in its place. -/
theorem step (h : Chronicled n g start since f) (hs : s.Coherent)
    (hagrees : Agrees s (Plain.after (start ++ since))) (hf : s.future? n = some f)
    (ha : ¬ (Plain.after (start ++ since)).Replaces n a) :
    ∃ f', s.fared n a = some f' ∧ Chronicled n g start (since ++ [a]) f' := by
  obtain rfl := h.group
  obtain ⟨f', hf', hgroup, hcases⟩ := State.fared_of_stays hagrees hf ha
  refine ⟨f', hf', ?_⟩
  rcases hcases with ⟨rfl, rfl⟩ | ⟨hstrikes, rfl⟩ | ⟨hpoll, hstrikes, hlistener, hwakes⟩
  · refine h.poll fun hnot => ?_
    have hflag : s.isCancelled f.group = false := by
      simpa using mt (hagrees.cancelled f.group).mp hnot
    exact hflag ▸ hs.sound n f hf
  · exact h.strike hstrikes
  · refine h.keep hstrikes hgroup hwakes fun hnot => ?_
    obtain ⟨polled, hwaiting, hpolled⟩ := h.waiting (notMem_cancelled hnot)
    refine ⟨polled, hlistener.trans hwaiting, ?_⟩
    simp [hpolled, Ne.symm hpoll]

/-- What is true of a future without inherited notifications is true with them. -/
theorem inherit (h : Chronicled n g start since f) (hs : s.Coherent)
    (hagrees : Agrees (s.perform a).2 (Plain.after (start ++ since)))
    (hf : s.fared n a = some f) :
    ∃ f', (s.perform a).2.future? n = some f' ∧ Chronicled n g start since f' := by
  rcases State.future?_perform hs.names a n with
    hsame | ⟨f', m, d, hf', hnotify, -, hd, hnotified, hgroup⟩
  · exact ⟨f, hsame.trans hf, h⟩
  · obtain rfl := Option.some.inj (hf.symm.trans hf')
    have hflag : (s.perform a).2.isCancelled f.group = true :=
      (State.isCancelled_perform hs.known a f.group).mpr
        (Or.inl (hgroup ▸ hs.isCancelled_of_notified hd hnotified))
    have hsound := hs.fared hf
    rw [hflag] at hsound
    exact ⟨f.notify, hnotify, h.notify (h.group ▸ (hagrees.cancelled f.group).mp hflag) hsound⟩

end Chronicled

/-- A future that was selected and has stayed in its place since is as the chronicle has it. -/
theorem chronicled_of_stays {n : String} {g : Nat} {before since : List (Action α)} {handle : String}
    {value : Option α} (hhandle : (Plain.after before).handle handle = some g)
    (h : Plain.Stays n (before ++ [.select handle n value]) since) :
    ∃ f, (({} : State α).run (before ++ [.select handle n value] ++ since)).future? n = some f ∧
      Chronicled n g (before ++ [.select handle n value]) since f := by
  induction since using List.reverseRecOn with
  | nil =>
    have hs := State.coherent_new.run before
    have hnew : (({} : State α).run before).fared n (.select handle n value) =
        some ((({} : State α).run before).selectFuture g value) := by
      simp only [State.fared, (agrees_run before).handle, hhandle, if_true]
    have hchronicled : Chronicled n g (before ++ [.select handle n value]) []
        ((({} : State α).run before).selectFuture g value) :=
      ⟨rfl, fun hal => absurd hal Plain.not_alerts_nil, fun _ => rfl, fun _ => ⟨false, rfl, by simp⟩⟩
    have hagrees := agrees_run (before ++ [.select handle n value])
    rw [State.run_concat] at hagrees
    rw [List.append_nil, State.run_concat]
    exact hchronicled.inherit hs (by rwa [List.append_nil]) hnew
  | append_singleton since a ih =>
    obtain ⟨hstays, ha⟩ := Plain.stays_concat.mp h
    obtain ⟨f, hf, hchronicled⟩ := ih hstays
    have hs := State.coherent_new.run (before ++ [.select handle n value] ++ since)
    obtain ⟨f', hf', hchronicled'⟩ := hchronicled.step hs (agrees_run _) hf ha
    have hagrees := agrees_run (before ++ [.select handle n value] ++ since ++ [a])
    rw [State.run_concat] at hagrees
    rw [← List.append_assoc, State.run_concat]
    exact hchronicled'.inherit hs (by rwa [← List.append_assoc]) hf'

/-- A poll that is pending comes before the first cancellation of the group. -/
theorem notMem_cancelled_of_pending {n : String} {g : Nat} {actions : List (Action α)}
    (hgroup : ((Plain.after actions).future n).map Prod.fst = some g)
    (hpending : ((({} : State α).run actions).perform (.poll n)).1 = .polled .pending) :
    g ∉ (Plain.after actions).cancelled := by
  rw [(agrees_run actions).outcome (State.coherent_new.run actions)] at hpending
  obtain ⟨⟨k, value⟩, hfuture, rfl⟩ := Option.map_eq_some_iff.mp hgroup
  intro hmem
  simp [Plain.perform, hfuture, hmem] at hpending

/-- Every future that is there was selected at some time and has stayed in its place since. If its
group was cancelled for the first time after that, and the future was polled in between, then its
task was woken exactly once; otherwise it was never woken. In particular, if a poll of the future was
pending, then its task has been woken once a handle of its group is cancelled. -/
theorem woken_by_first_cancellation (actions : List (Action α)) (n : String) (f : Future α)
    (hf : (({} : State α).run actions).future? n = some f) :
    ∃ before handle value since, actions = before ++ [.select handle n value] ++ since ∧
      (Plain.after before).handle handle = some f.group ∧
      Plain.Stays n (before ++ [.select handle n value]) since ∧
      (Plain.Alerts n f.group (before ++ [.select handle n value]) since → f.wakes = 1) ∧
      (¬ Plain.Alerts n f.group (before ++ [.select handle n value]) since → f.wakes = 0) ∧
      ∀ front back, since = front ++ .poll n :: back →
        ((({} : State α).run (before ++ [.select handle n value] ++ front)).perform (.poll n)).1 =
          .polled .pending →
        ∀ handle', (Plain.after actions).handle handle' = some f.group →
          ∃ f', (({} : State α).run (actions ++ [.cancel handle'])).future? n = some f' ∧
            f'.wakes = 1 := by
  have hgroup : ((Plain.after actions).future n).map Prod.fst = some f.group := by
    rw [← (agrees_run actions).future, hf]
    rfl
  obtain ⟨before, handle, value, since, rfl, hhandle, hstays⟩ := Plain.exists_selected hgroup
  obtain ⟨f', hf', hchronicled⟩ := chronicled_of_stays hhandle hstays
  obtain rfl := Option.some.inj (hf.symm.trans hf')
  refine ⟨before, handle, value, since, rfl, hhandle, hstays, hchronicled.woken,
    hchronicled.unwoken, ?_⟩
  rintro front back rfl hpending handle' hhandle'
  have hstays' : Plain.Stays n (before ++ [.select handle n value])
      (front ++ .poll n :: back ++ [.cancel handle']) :=
    Plain.stays_concat.mpr ⟨hstays, by simp [Plain.Replaces]⟩
  obtain ⟨f', hf', hchronicled'⟩ := chronicled_of_stays hhandle hstays'
  refine ⟨f', by rwa [List.append_assoc], hchronicled'.woken ?_⟩
  have hbefore := notMem_cancelled_of_pending (hstays.front.group hhandle) hpending
  have hafter : f.group ∈ (Plain.after (before ++ [.select handle n value] ++
      (front ++ .poll n :: back) ++ [.cancel handle'])).cancelled := by
    rw [Plain.after_concat, Plain.mem_cancelled_perform]
    exact Or.inr ⟨handle', rfl, hhandle'⟩
  rw [List.append_assoc, List.cons_append]
  exact Plain.alerts_of_polled hbefore (by simpa using hafter)

/-- Three futures of one group. The first is polled, the second is not; then the group is cancelled
twice. The third is selected too late, and inherits the notification of the second. -/
def inheritedRun : List (Action Nat) :=
  [.create "h", .select "h" "f" none, .select "h" "g" none, .poll "f", .clone "h" "k", .cancel "k",
    .cancel "h", .select "k" "i" (some 1), .poll "f", .dropFuture "g"]

/-- In that run only the task of the first future was woken, because it alone was polled before the
group was cancelled. -/
theorem woken_by_first_cancellation_in_inheritedRun :
    (∃ f, (({} : State Nat).run inheritedRun).future? "f" = some f ∧ f.wakes = 1 ∧
      ∃ before handle value since, inheritedRun = before ++ [.select handle "f" value] ++ since ∧
        Plain.Alerts "f" f.group (before ++ [.select handle "f" value]) since) ∧
    ∃ f, (({} : State Nat).run inheritedRun).future? "i" = some f ∧ f.listener = .notified ∧
      f.wakes = 0 ∧
      ∃ before handle value since, inheritedRun = before ++ [.select handle "i" value] ++ since ∧
        ¬ Plain.Alerts "i" f.group (before ++ [.select handle "i" value]) since := by
  refine ⟨⟨_, rfl, rfl, ?_⟩, ⟨_, rfl, rfl, rfl, ?_⟩⟩
  · obtain ⟨before, handle, value, since, hactions, -, -, -, hunwoken, -⟩ :=
      woken_by_first_cancellation inheritedRun "f" _ rfl
    exact ⟨before, handle, value, since, hactions, by_contra fun hal => nomatch hunwoken hal⟩
  · obtain ⟨before, handle, value, since, hactions, -, -, hwoken, -⟩ :=
      woken_by_first_cancellation inheritedRun "i" _ rfl
    exact ⟨before, handle, value, since, hactions, fun hal => nomatch hwoken hal⟩

end HostBridge.Cancellation
