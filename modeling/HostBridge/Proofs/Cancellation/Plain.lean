import HostBridge.Proofs.Cancellation.Futures
import Mathlib.Data.List.Induction
import Mathlib.Logic.Function.Basic

/-!
# Cancellation, plainly

What handles and futures promise can be said without listeners: a handle stands for a group, a
future for a group and a piece of work, and all else is a record of the groups that were cancelled. A
poll says that the future was cancelled exactly if its group is in that record. `Plain` is this
specification, and the main statement is that in every run every answer is the one that it gives.
-/

namespace HostBridge.Cancellation

variable {α : Type}

/-- What a sequence of actions comes to. -/
structure Plain (α : Type) where
  /-- How many groups were made. They go by number. -/
  groups : Nat := 0
  /-- The group of each handle. -/
  handle : String → Option Nat := fun _ => none
  /-- The groups that were cancelled, once for each time. -/
  cancelled : List Nat := []
  /-- The group of each future, and the value of its own work once that is done. -/
  future : String → Option (Nat × Option α) := fun _ => none

/-- Some action of a history that is one longer: it is the last one, or it came before. -/
theorem exists_split_concat {β : Type} {l : List β} {b : β} {P : List β → β → Prop} :
    (∃ front a back, l ++ [b] = front ++ a :: back ∧ P front a) ↔
      (∃ front a back, l = front ++ a :: back ∧ P front a) ∨ P l b := by
  constructor
  · rintro ⟨front, a, back, hl, ha⟩
    rcases List.eq_nil_or_concat back with rfl | ⟨back, c, rfl⟩
    · obtain ⟨rfl, hb⟩ := List.append_inj' hl rfl
      obtain rfl := List.singleton_inj.mp hb
      exact Or.inr ha
    · rw [List.concat_eq_append, ← List.cons_append, ← List.append_assoc] at hl
      obtain ⟨rfl, -⟩ := List.append_inj' hl rfl
      exact Or.inl ⟨front, a, back, rfl, ha⟩
  · rintro (⟨front, a, back, rfl, ha⟩ | ha)
    · exact ⟨front, a, back ++ [b], by simp, ha⟩
    · exact ⟨l, b, [], rfl, ha⟩

namespace Plain

/-- Carries out an action. -/
def perform (p : Plain α) : Action α → Outcome α × Plain α
  | .create handle =>
    (.unit, { p with
      groups := p.groups + 1
      handle := Function.update p.handle handle (some p.groups) })
  | .clone source handle =>
    match p.handle source with
    | none => (.noHandle, p)
    | some g => (.unit, { p with handle := Function.update p.handle handle (some g) })
  | .dropHandle handle =>
    (.flag (p.handle handle).isSome, { p with handle := Function.update p.handle handle none })
  | .cancel handle =>
    match p.handle handle with
    | none => (.noHandle, p)
    | some g => (.flag (g ∉ p.cancelled), { p with cancelled := g :: p.cancelled })
  | .cancelled handle =>
    match p.handle handle with
    | none => (.noHandle, p)
    | some g => (.flag (g ∈ p.cancelled), p)
  | .select handle name value =>
    match p.handle handle with
    | none => (.noHandle, p)
    | some g => (.unit, { p with future := Function.update p.future name (some (g, value)) })
  | .complete name value =>
    match p.future name with
    | none => (.noFuture, p)
    | some (g, _) =>
      (.unit, { p with future := Function.update p.future name (some (g, some value)) })
  | .poll name =>
    match p.future name with
    | none => (.noFuture, p)
    | some (g, value) =>
      (.polled (if g ∈ p.cancelled then .cancelled else value.elim .pending .ready), p)
  | .dropFuture name =>
    (.flag (p.future name).isSome, { p with future := Function.update p.future name none })

/-- What the actions come to, from the start. -/
def after (actions : List (Action α)) : Plain α :=
  actions.foldl (fun p a => (p.perform a).2) {}

theorem after_concat (actions : List (Action α)) (a : Action α) :
    after (actions ++ [a]) = ((after actions).perform a).2 := by
  simp [after]

/-- Only a cancellation changes the record. -/
theorem mem_cancelled_perform (p : Plain α) (a : Action α) (g : Nat) :
    g ∈ (p.perform a).2.cancelled ↔
      g ∈ p.cancelled ∨ ∃ handle, a = .cancel handle ∧ p.handle handle = some g := by
  cases a with
  | create | dropHandle | dropFuture => simp [perform]
  | clone | cancelled | select =>
    simp only [perform]
    split <;> simp
  | complete name | poll name =>
    simp only [perform]
    cases p.future name <;> simp
  | cancel handle =>
    simp only [perform]
    cases hhandle : p.handle handle with
    | none => simp [hhandle]
    | some k => simp [hhandle, or_comm, eq_comm]

/-- A group is in the record exactly if some handle that stood for it at that time was cancelled. -/
theorem mem_cancelled_after (actions : List (Action α)) (g : Nat) :
    g ∈ (after actions).cancelled ↔ ∃ before handle rest,
      actions = before ++ .cancel handle :: rest ∧ (after before).handle handle = some g := by
  have hsome : g ∈ (after actions).cancelled ↔ ∃ before a rest, actions = before ++ a :: rest ∧
      ∃ handle, a = .cancel handle ∧ (after before).handle handle = some g := by
    induction actions using List.reverseRecOn with
    | nil => simp [after]
    | append_singleton actions a ih =>
      rw [after_concat, mem_cancelled_perform, ih, exists_split_concat
        (P := fun before a => ∃ handle, a = .cancel handle ∧ (after before).handle handle = some g)]
  rw [hsome]
  constructor
  · rintro ⟨before, _, rest, hactions, handle, rfl, hhandle⟩
    exact ⟨before, handle, rest, hactions, hhandle⟩
  · rintro ⟨before, handle, rest, hactions, hhandle⟩
    exact ⟨before, _, rest, hactions, handle, rfl, hhandle⟩

end Plain

/-! ## Agreement -/

/-- What the specification keeps of a future. -/
def Future.plain (f : Future α) : Nat × Option α :=
  (f.group, f.value)

/-- Handles, groups and futures are as the specification has them. -/
structure Agrees (s : State α) (p : Plain α) : Prop where
  /-- As many groups were made. -/
  groups : s.groups.length = p.groups
  /-- The handles stand for the same groups. -/
  handle : ∀ handle, s.handles.find? handle = p.handle handle
  /-- The flags of the record are set. -/
  cancelled : ∀ g, s.isCancelled g = true ↔ g ∈ p.cancelled
  /-- The futures belong to the same groups and have done the same work. -/
  future : ∀ n, (s.future? n).map Future.plain = p.future n

namespace Agrees

variable {s : State α} {p : Plain α}

/-- The answer is the one of the specification. -/
theorem outcome (h : Agrees s p) (hs : s.Coherent) (a : Action α) :
    (s.perform a).1 = (p.perform a).1 := by
  cases a with
  | create handle => rfl
  | dropHandle handle => simp only [State.perform, Plain.perform, h.handle]
  | clone source handle | select source name value =>
    simp only [State.perform, Plain.perform, h.handle]
    cases p.handle source <;> rfl
  | cancelled handle =>
    simp only [State.perform, Plain.perform, h.handle]
    cases p.handle handle with
    | none => rfl
    | some g => simp only [← h.cancelled, Bool.decide_eq_true]
  | cancel handle =>
    simp only [State.perform, Plain.perform, h.handle]
    cases p.handle handle with
    | none => rfl
    | some g =>
      simp only [State.cancelGroup, ← h.cancelled]
      cases s.isCancelled g <;> rfl
  | complete name value =>
    simp only [State.perform, Plain.perform, ← h.future]
    cases s.future? name <;> rfl
  | poll name =>
    simp only [State.perform, Plain.perform, ← h.future]
    cases hf : s.future? name with
    | none => rfl
    | some f =>
      simp only [Option.map_some, Future.plain, (hs.sound name f hf).poll_fst, ← h.cancelled]
  | dropFuture name =>
    simp only [State.perform, Plain.perform, ← h.future, Option.isSome_map]

/-- Notifications apart, futures fare as in the specification. -/
theorem fared (h : Agrees s p) (n : String) (a : Action α) :
    (s.fared n a).map Future.plain = (p.perform a).2.future n := by
  cases a with
  | create | dropHandle => exact h.future n
  | clone source handle =>
    simp only [State.fared, Plain.perform]
    cases p.handle source <;> exact h.future n
  | cancelled handle =>
    simp only [State.fared, Plain.perform]
    cases p.handle handle <;> exact h.future n
  | cancel handle =>
    have hplain : ∀ f : Future α, Future.plain (if s.handles.find? handle = some f.group ∧
        s.isCancelled f.group = false then f.notify else f) = f.plain := by
      intro f
      split <;> rfl
    simp only [State.fared, Plain.perform, Option.map_map, Function.comp_def, hplain]
    cases p.handle handle <;> exact h.future n
  | select handle name value =>
    simp only [State.fared, Plain.perform, h.handle]
    cases p.handle handle with
    | none => exact h.future n
    | some g =>
      simp only [Function.update_apply]
      split
      · rfl
      · exact h.future n
  | complete name value =>
    simp only [State.fared, Plain.perform, Option.map_map, Function.comp_def]
    cases hf : p.future name with
    | none =>
      rw [← h.future]
      rw [← h.future] at hf
      by_cases hn : n = name
      · subst hn
        simp_all
      · simp [hn]
    | some q =>
      simp only [Function.update_apply]
      split
      · next hn =>
        subst hn
        obtain ⟨f, hfuture, rfl⟩ := Option.map_eq_some_iff.mp ((h.future n).trans hf)
        simp [hfuture, Future.plain]
      · exact h.future n
  | poll name =>
    have hplain : ∀ f : Future α, Future.plain (if n = name then f.poll.2 else f) = f.plain := by
      intro f
      split
      · simp only [Future.plain, f.poll_keeps]
      · rfl
    simp only [State.fared, Plain.perform, Option.map_map, Function.comp_def, hplain]
    cases p.future name <;> exact h.future n
  | dropFuture name =>
    simp only [State.fared, Plain.perform, Function.update_apply]
    split
    · rfl
    · exact h.future n

theorem handle_perform (h : Agrees s p) (a : Action α) (name : String) :
    (s.perform a).2.handles.find? name = (p.perform a).2.handle name := by
  cases a with
  | create handle =>
    simp only [State.perform, Plain.perform, Keyed.find?_insert, Function.update_apply, h.handle,
      h.groups]
  | clone source handle =>
    simp only [State.perform, Plain.perform, h.handle]
    cases p.handle source with
    | none => exact h.handle name
    | some g => simp only [Keyed.find?_insert, Function.update_apply, h.handle]
  | dropHandle handle =>
    simp only [State.perform, Plain.perform, Keyed.find?_erase, Function.update_apply, h.handle]
  | cancel handle =>
    simp only [State.perform, Plain.perform, h.handle]
    cases p.handle handle with
    | none => exact h.handle name
    | some g =>
      simp only [State.cancelGroup]
      split <;> exact h.handle name
  | cancelled handle | select handle future value =>
    simp only [State.perform, Plain.perform, h.handle]
    cases p.handle handle <;> exact h.handle name
  | complete future value | poll future =>
    simp only [State.perform, Plain.perform, ← h.future]
    cases s.future? future <;> exact h.handle name
  | dropFuture future => exact h.handle name

theorem groups_perform (h : Agrees s p) (a : Action α) :
    (s.perform a).2.groups.length = (p.perform a).2.groups := by
  cases a with
  | create handle => simp [State.perform, Plain.perform, h.groups]
  | clone source handle | cancelled source | select source name value =>
    simp only [State.perform, Plain.perform, h.handle]
    cases p.handle source <;> exact h.groups
  | dropHandle | dropFuture => exact h.groups
  | cancel handle =>
    simp only [State.perform, Plain.perform, h.handle]
    cases p.handle handle with
    | none => exact h.groups
    | some g =>
      simp only [State.cancelGroup]
      split
      · exact h.groups
      · simpa using h.groups
  | complete name value | poll name =>
    simp only [State.perform, Plain.perform, ← h.future]
    cases s.future? name <;> exact h.groups

theorem perform (h : Agrees s p) (hs : s.Coherent) (a : Action α) :
    Agrees (s.perform a).2 (p.perform a).2 where
  groups := h.groups_perform a
  handle := h.handle_perform a
  cancelled g := by
    rw [State.isCancelled_perform hs.known, Plain.mem_cancelled_perform, h.cancelled]
    simp only [h.handle]
  future n := by
    rw [← h.fared]
    rcases State.future?_perform hs.names a n with hfared | ⟨f, -, -, hf, hnotify, -⟩
    · rw [hfared]
    · rw [hnotify, hf]
      rfl

end Agrees

/-- Every run agrees with the specification. -/
theorem agrees_run (actions : List (Action α)) :
    Agrees (({} : State α).run actions) (Plain.after actions) := by
  induction actions using List.reverseRecOn with
  | nil => exact ⟨rfl, fun _ => rfl, by simp [State.isCancelled, State.run, Plain.after], fun _ => rfl⟩
  | append_singleton actions a ih =>
    rw [State.run_concat, Plain.after_concat]
    exact ih.perform (State.coherent_new.run actions) a

/-- Whatever was done with handles and futures, every answer is the one of the specification: a poll
says that a future was cancelled exactly if a handle of its group was cancelled before, and otherwise
what the work of the future says; a cancellation is successful exactly if it is the first one of its
group. A listener that has completed is not polled again. -/
theorem answers_as_specified (actions : List (Action α)) (a : Action α) :
    ((({} : State α).run actions).perform a).1 = ((Plain.after actions).perform a).1 ∧
    (∀ g, g ∈ (Plain.after actions).cancelled ↔ ∃ before handle rest,
      actions = before ++ .cancel handle :: rest ∧ (Plain.after before).handle handle = some g) ∧
    ∀ n f, (({} : State α).run actions).future? n = some f → f.listener = .spent →
      ∀ listener, { f with listener }.poll = (.cancelled, { f with listener }) := by
  have hcoherent := State.coherent_new.run actions
  refine ⟨(agrees_run actions).outcome hcoherent a, Plain.mem_cancelled_after actions, ?_⟩
  intro n f hf hspent listener
  exact (hcoherent.sound n f hf).poll_of_spent hspent listener

/-- Two futures under two handles of one group, one selected before and one after the group is
cancelled, and a third one under a group of its own. -/
def sharedGroup : List (Action Nat) :=
  [.create "h", .clone "h" "k", .select "h" "f" none, .poll "f", .dropHandle "h", .cancel "k",
    .poll "f", .select "k" "g" (some 1), .create "h", .select "h" "i" (some 2)]

/-- In that run the futures of the group are found cancelled, also the one whose work is done, and
the group cannot be cancelled again; the third future is not concerned. The listener of the first
future has completed. -/
theorem answers_as_specified_in_sharedGroup :
    ((({} : State Nat).run sharedGroup).perform (.poll "g")).1 = .polled .cancelled ∧
    ((({} : State Nat).run sharedGroup).perform (.cancel "k")).1 = .flag false ∧
    ((({} : State Nat).run sharedGroup).perform (.poll "i")).1 = .polled (.ready 2) ∧
    ∃ f, (({} : State Nat).run sharedGroup).future? "f" = some f ∧ f.listener = .spent ∧
      ∀ listener, { f with listener }.poll = (.cancelled, { f with listener }) := by
  refine ⟨?_, ?_, ?_, ?_⟩
  · exact (answers_as_specified sharedGroup (.poll "g")).1.trans rfl
  · exact (answers_as_specified sharedGroup (.cancel "k")).1.trans rfl
  · exact (answers_as_specified sharedGroup (.poll "i")).1.trans rfl
  · exact ⟨_, rfl, rfl, (answers_as_specified sharedGroup (.poll "f")).2.2 "f" _ rfl rfl⟩

end HostBridge.Cancellation
