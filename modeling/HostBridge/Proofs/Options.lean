import HostBridge.Options
import Mathlib.Data.Finset.Card

/-!
# What is asked of options

The demands on the options of a connection, as propositions, in the order in which they are checked.
The check reports the fault of the first demand that is not met (`fault?_eq_some_iff`), and no fault
exactly if the options are acceptable (`fault?_eq_none_iff`).
-/

namespace HostBridge

/-! ## Blank texts -/

theorem Text.isBlank_eq_false_iff {s : String} :
    isBlank s = false ↔ ∃ c ∈ s.toList, isBlankChar c = false := by
  simp [isBlank]

/-! ## Sources of trust -/

/-- Something whose certificates may be the only ones that are trusted. -/
inductive TrustSource where
  /-- The authority of the hosted service. -/
  | capella
  /-- A file. -/
  | pemFile
  /-- A text. -/
  | pemText
  /-- Given certificates. -/
  | certificates
  /-- The platform. -/
  | platform
  deriving DecidableEq, Repr

namespace TrustSource

/-- All sources, in declared order. -/
def all : List TrustSource :=
  [capella, pemFile, pemText, certificates, platform]

theorem nodup_all : all.Nodup := by
  decide

theorem mem_all (a : TrustSource) : a ∈ all := by
  cases a <;> decide

end TrustSource

namespace Security

variable {s : Security}

/-- A source of trust is given. -/
def trusts (s : Security) : TrustSource → Bool
  | .capella => s.capella
  | .pemFile => s.pemFile.isSome
  | .pemText => s.pemText.isSome
  | .certificates => !s.certificates.isEmpty
  | .platform => s.platform

/-- No two sources of trust are given. -/
def TrustsAtMostOne (s : Security) : Prop :=
  ∀ a b, s.trusts a = true → s.trusts b = true → a = b

theorem count_sources_le_one_iff : s.sources.count true ≤ 1 ↔ s.TrustsAtMostOne := by
  have hnodup : (TrustSource.all.filter s.trusts).Nodup := TrustSource.nodup_all.filter _
  have hcount : s.sources.count true = (TrustSource.all.filter s.trusts).toFinset.card := by
    rw [List.toFinset_card_of_nodup hnodup, ← List.countP_eq_length_filter]
    change (TrustSource.all.map s.trusts).count true = _
    rw [List.count, List.countP_map]
    exact List.countP_congr fun a _ => by simp
  rw [hcount, Finset.card_le_one]
  simp only [List.mem_toFinset, List.mem_filter, TrustSource.mem_all, true_and, TrustsAtMostOne]
  exact ⟨fun h a b ha hb => h a ha b hb, fun h a ha b hb => h a b ha hb⟩

theorem fault?_eq_of_trustsAtMostOne (h : s.TrustsAtMostOne) : s.fault? = none :=
  if_neg (Nat.not_lt.mpr (count_sources_le_one_iff.mpr h))

theorem fault?_eq_of_not_trustsAtMostOne (h : ¬ s.TrustsAtMostOne) :
    s.fault? = some .severalTrustSources :=
  if_pos (Nat.lt_of_not_le fun hle => h (count_sources_le_one_iff.mp hle))

end Security

/-! ## Demands -/

/-- Something that is asked of options. -/
structure Demand where
  /-- The options meet it. -/
  met : Prop
  /-- The fault of options that do not. -/
  fault : ArgumentFault

namespace Demand

variable {d : Demand} {ds : List Demand}

open Classical in
/-- The fault of the first demand that is not met. -/
noncomputable def firstFault? (ds : List Demand) : Option ArgumentFault :=
  (ds.find? fun d => ¬ d.met).map Demand.fault

theorem firstFault?_cons_of_met (h : d.met) : firstFault? (d :: ds) = firstFault? ds := by
  rw [firstFault?, List.find?_cons_of_neg (by simpa using h), firstFault?]

theorem firstFault?_cons_of_not_met (h : ¬ d.met) : firstFault? (d :: ds) = some d.fault := by
  rw [firstFault?, List.find?_cons_of_pos (by simpa using h), Option.map_some]

theorem firstFault?_append (ds ds' : List Demand) :
    firstFault? (ds ++ ds') = (firstFault? ds).or (firstFault? ds') := by
  rw [firstFault?, List.find?_append, Option.map_or, firstFault?, firstFault?]

theorem firstFault?_eq_none_iff : firstFault? ds = none ↔ ∀ d ∈ ds, d.met := by
  simp [firstFault?]

theorem firstFault?_eq_some_iff {fault : ArgumentFault} :
    firstFault? ds = some fault ↔ ∃ before d after, ds = before ++ d :: after ∧
      (∀ b ∈ before, b.met) ∧ ¬ d.met ∧ d.fault = fault := by
  rw [firstFault?, Option.map_eq_some_iff]
  constructor
  · rintro ⟨d, hd, hfault⟩
    obtain ⟨hunmet, before, after, hds, hbefore⟩ := List.find?_eq_some_iff_append.mp hd
    exact ⟨before, d, after, hds, by simpa using hbefore, by simpa using hunmet, hfault⟩
  · rintro ⟨before, d, after, hds, hbefore, hunmet, hfault⟩
    exact ⟨d, List.find?_eq_some_iff_append.mpr ⟨by simpa using hunmet, before, after, hds,
      by simpa using hbefore⟩, hfault⟩

end Demand

open Demand (firstFault?)

namespace Timeouts

/-- A timeout that is given lasts a while. -/
def demands (t : Timeouts) : List Demand :=
  [⟨t.connect ≠ some .zero, .timeoutNotPositive "connect_timeout"⟩,
    ⟨t.dispatch ≠ some .zero, .timeoutNotPositive "dispatch_timeout"⟩,
    ⟨t.query ≠ some .zero, .timeoutNotPositive "query_timeout"⟩,
    ⟨t.management ≠ some .zero, .timeoutNotPositive "management_timeout"⟩,
    ⟨t.resolve ≠ some .zero, .timeoutNotPositive "resolve_timeout"⟩,
    ⟨t.socketConnect ≠ some .zero, .timeoutNotPositive "socket_connect_timeout"⟩]

theorem fault?_eq (t : Timeouts) : t.fault? = firstFault? t.demands := by
  have hdemands : t.demands = t.named.map fun p =>
      ⟨p.2 ≠ some .zero, .timeoutNotPositive p.1⟩ := rfl
  rw [fault?, firstFault?, hdemands, List.find?_map, Option.map_map]
  congr 2
  exact funext fun p => Bool.eq_iff_iff.mpr (by simp)

end Timeouts

namespace Options

/-- All that is asked of options, in the order in which it is checked. -/
def demands (o : Options) : List Demand :=
  ⟨∃ c ∈ o.connection.toList, Text.isBlankChar c = false, .emptyConnection⟩ ::
    ⟨o.threadName ≠ "", .emptyThreadName⟩ ::
      (o.timeouts.demands ++ [⟨o.security.TrustsAtMostOne, .severalTrustSources⟩])

/-- Options with which a connection may be created. -/
structure Acceptable (o : Options) : Prop where
  /-- Something in the connection string is not white space. -/
  connection : ∃ c ∈ o.connection.toList, Text.isBlankChar c = false
  /-- The thread of the loop has a name. -/
  threadName : o.threadName ≠ ""
  /-- No timeout that is given is zero. -/
  timeouts : ∀ t ∈ [o.timeouts.connect, o.timeouts.dispatch, o.timeouts.query,
    o.timeouts.management, o.timeouts.resolve, o.timeouts.socketConnect], t ≠ some .zero
  /-- At most one source of trust is given. -/
  security : o.security.TrustsAtMostOne

/-- The options do not meet a demand with this fault, and meet all demands before it. -/
def Offends (o : Options) (fault : ArgumentFault) : Prop :=
  ∃ before d after, o.demands = before ++ d :: after ∧ (∀ b ∈ before, b.met) ∧ ¬ d.met ∧
    d.fault = fault

variable {o : Options}

theorem forall_met_iff : (∀ d ∈ o.demands, d.met) ↔ o.Acceptable := by
  simp only [demands, Timeouts.demands, List.cons_append, List.nil_append, List.forall_mem_cons,
    List.not_mem_nil, false_imp_iff, implies_true, and_true]
  constructor
  · rintro ⟨hconnection, hname, h₁, h₂, h₃, h₄, h₅, h₆, hsecurity⟩
    exact ⟨hconnection, hname, by simp [h₁, h₂, h₃, h₄, h₅, h₆], hsecurity⟩
  · rintro ⟨hconnection, hname, htimeouts, hsecurity⟩
    simp only [List.forall_mem_cons, List.not_mem_nil, false_imp_iff, implies_true, and_true]
      at htimeouts
    obtain ⟨h₁, h₂, h₃, h₄, h₅, h₆⟩ := htimeouts
    exact ⟨hconnection, hname, h₁, h₂, h₃, h₄, h₅, h₆, hsecurity⟩

/-- The check reports the fault of the first demand that is not met. -/
theorem fault?_eq (o : Options) : o.fault? = firstFault? o.demands := by
  unfold fault? demands
  by_cases hblank : Text.isBlank o.connection = true
  · have hunmet : ¬ ∃ c ∈ o.connection.toList, Text.isBlankChar c = false := by
      rw [← Text.isBlank_eq_false_iff, hblank]
      decide
    rw [if_pos hblank, Demand.firstFault?_cons_of_not_met hunmet]
  rw [if_neg hblank, Demand.firstFault?_cons_of_met
    (Text.isBlank_eq_false_iff.mp (Bool.not_eq_true _ ▸ hblank))]
  by_cases hname : o.threadName = ""
  · rw [if_pos (String.isEmpty_iff.mpr hname),
      Demand.firstFault?_cons_of_not_met (not_not.mpr hname)]
  rw [if_neg (mt String.isEmpty_iff.mp hname), Demand.firstFault?_cons_of_met hname,
    Demand.firstFault?_append, Timeouts.fault?_eq]
  by_cases hsecurity : o.security.TrustsAtMostOne
  · rw [Security.fault?_eq_of_trustsAtMostOne hsecurity, Demand.firstFault?_cons_of_met hsecurity]
    rfl
  · rw [Security.fault?_eq_of_not_trustsAtMostOne hsecurity,
      Demand.firstFault?_cons_of_not_met hsecurity]

theorem fault?_eq_none_iff : o.fault? = none ↔ o.Acceptable := by
  rw [fault?_eq, Demand.firstFault?_eq_none_iff, forall_met_iff]

instance (o : Options) : Decidable o.Acceptable :=
  decidable_of_iff (o.fault? = none) fault?_eq_none_iff

theorem fault?_eq_some_iff {fault : ArgumentFault} : o.fault? = some fault ↔ o.Offends fault := by
  rw [fault?_eq, Demand.firstFault?_eq_some_iff, Offends]

theorem validate_eq_ok_iff : o.validate = .ok () ↔ o.Acceptable := by
  rw [← fault?_eq_none_iff, validate]
  cases o.fault? <;> simp

theorem validate_eq_error_iff {e : Error} :
    o.validate = .error e ↔ ∃ fault, e = .invalidArgument fault ∧ o.Offends fault := by
  simp only [← fault?_eq_some_iff, validate]
  cases o.fault? with
  | none => simp
  | some fault => simp [eq_comm]

end Options

end HostBridge
