import HostBridge.Proofs.Options
import HostBridge.Proofs.Session.Step

/-!
# The creation of a connection

What becomes of a creation is decided by the options alone. Options that offend against a demand are
refused before anything is touched. Acceptable options give a running instance with a loop of its
own, unless the name of the thread holds a character that the operating system does not take: no
demand asks for its absence, so that such a creation ends with neither a connection nor an error.
-/

namespace HostBridge.Session.State

variable {s : State} {o : Options}

theorem create_of_offends {fault : ArgumentFault} (h : o.Offends fault) (c : Nat) :
    s.create (.memory c) o = (.refused (.invalidArgument fault), s) := by
  have hvalidate : o.validate = .error (.invalidArgument fault) :=
    Options.validate_eq_error_iff.mpr ⟨fault, rfl, h⟩
  simp only [create, hvalidate]

theorem create_of_nul (h : o.Acceptable) (hnul : '\x00' ∈ o.threadName.toList) (c : Nat) :
    s.create (.memory c) o = (.badThreadName, s.note .host [.clusterConnected o.connection]) := by
  have hvalidate : o.validate = .ok () := Options.validate_eq_ok_iff.mpr h
  simp only [create, connect, hvalidate, List.contains_iff_mem.mpr hnul, if_true]

theorem create_of_acceptable (h : o.Acceptable) (hnul : '\x00' ∉ o.threadName.toList) (c : Nat) :
    ∃ trace, s.create (.memory c) o = (.created s.instances.length, { s with
      engine := s.engine.addLoop.2
      instances := s.instances ++ [{ connector := .memory c, loop := s.engine.addLoop.1 }]
      trace }) := by
  have hvalidate : o.validate = .ok () := Options.validate_eq_ok_iff.mpr h
  simp only [create, connect, hvalidate, mt List.contains_iff_mem.mp hnul, note_host]
  exact ⟨_, rfl⟩

/-- A connection is created exactly if the options are acceptable and the name of the thread is free
of null characters. It is running and takes queries, and its loop is new. The creation is refused
exactly if the options offend against a demand, with the fault of the first such demand, and then
nothing has changed. Otherwise the options are acceptable, but not the name; nothing has changed
then but the log. -/
theorem creation_decided_by_options (s : State) (c : Nat) (o : Options) :
    ∃ outcome s', s.create (.memory c) o = (outcome, s') ∧
      ((∃ i, outcome = .created i) ↔ o.Acceptable ∧ '\x00' ∉ o.threadName.toList) ∧
      (∀ e, outcome = .refused e ↔ ∃ fault, e = .invalidArgument fault ∧ o.Offends fault) ∧
      (outcome = .badThreadName ↔ o.Acceptable ∧ '\x00' ∈ o.threadName.toList) ∧
      match outcome with
      | .created i => i = s.instances.length ∧ ∃ x trace, agent x = .ok () ∧ x.state = .running ∧
          x.connector = .memory c ∧ x.loop = s.engine.workers.length ∧
          s' = { s with
            engine := { s.engine with workers := s.engine.workers ++ [.held] }
            instances := s.instances ++ [x]
            trace }
      | .refused _ => s' = s
      | .badThreadName => ∃ trace, s' = { s with trace } := by
  by_cases h : o.Acceptable
  · have hnone : ∀ fault, ¬ o.Offends fault := fun fault hoffends => by
      rw [← Options.fault?_eq_some_iff, Options.fault?_eq_none_iff.mpr h] at hoffends
      cases hoffends
    by_cases hnul : '\x00' ∈ o.threadName.toList
    · refine ⟨_, _, create_of_nul h hnul c, ?_, ?_, ?_, _, note_host s _⟩ <;> simp [h, hnul, hnone]
    · obtain ⟨trace, hcreate⟩ := create_of_acceptable (s := s) h hnul c
      refine ⟨_, _, hcreate, ?_, ?_, ?_, rfl, _, trace, rfl, rfl, rfl, rfl, rfl⟩ <;>
        simp [h, hnul, hnone]
  · obtain ⟨fault, hfault⟩ := Option.ne_none_iff_exists'.mp (mt Options.fault?_eq_none_iff.mp h)
    have hoffends : o.Offends fault := Options.fault?_eq_some_iff.mp hfault
    have hunique : ∀ fault', o.Offends fault' ↔ fault = fault' := fun fault' => by
      rw [← Options.fault?_eq_some_iff, hfault, Option.some.injEq]
    refine ⟨_, _, create_of_offends hoffends c, ?_, ?_, ?_, rfl⟩ <;> simp [h, hunique, eq_comm]

/-- The zero timeout is reported although there are two sources of trust as well. -/
theorem creation_decided_by_hastyOptions :
    let o : Options := {
      connection := "couchbase://mem"
      timeouts := { dispatch := some .zero }
      security := { capella := true, platform := true } }
    ¬ o.Acceptable ∧ o.Offends (.timeoutNotPositive "dispatch_timeout") ∧
    ({} : State).create (.memory 0) o =
      (.refused (.invalidArgument (.timeoutNotPositive "dispatch_timeout")), {}) := by
  intro o
  have hunacceptable : ¬ o.Acceptable := by decide
  have hoffends : o.Offends (.timeoutNotPositive "dispatch_timeout") :=
    Options.fault?_eq_some_iff.mp (by decide)
  obtain ⟨outcome, s', hcreate, -, hrefused, -, hafter⟩ := creation_decided_by_options {} 0 o
  obtain rfl := (hrefused _).mpr ⟨_, rfl, hoffends⟩
  obtain rfl : s' = {} := hafter
  exact ⟨hunacceptable, hoffends, hcreate⟩

/-- Options may pass every check and still give no connection: nothing looks for a null character in
the name of the thread. -/
theorem acceptable_name_not_taken :
    let o : Options := { connection := "couchbase://mem", threadName := "io\x00" }
    o.validate = .ok () ∧ o.Acceptable ∧
    (({} : State).create (.memory 0) o).1 = .badThreadName ∧
    ¬ ∃ i, (({} : State).create (.memory 0) o).1 = .created i := by
  intro o
  have hacceptable : o.Acceptable := by decide
  have hnul : '\x00' ∈ o.threadName.toList := by decide
  have hcreate : (({} : State).create (.memory 0) o).1 = .badThreadName :=
    congrArg Prod.fst (create_of_nul hacceptable hnul 0)
  refine ⟨Options.validate_eq_ok_iff.mpr hacceptable, hacceptable, hcreate, ?_⟩
  rintro ⟨i, hi⟩
  cases hcreate.symm.trans hi

end HostBridge.Session.State
