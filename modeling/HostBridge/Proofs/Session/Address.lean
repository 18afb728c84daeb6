import HostBridge.Proofs.Engine.Effect
import HostBridge.Proofs.Session.Reported

/-!
# Which object a call on a query result reaches

A query result is told of operations and of streams, in any order and any number of times. In between
it is cancelled, asked for rows and asked for metadata, and all of this goes to one object: the stream
that it was told of last, or, as long as it was told of no stream, the operation that it was told of
last. What it was told of before that gets no call any more.
-/

namespace HostBridge.Session

open Bridge (Cookie)

/-! ## Calls -/

/-- A call on a query result. -/
inductive Use where
  /-- It is told of the operation of its query. -/
  | attach (operation : Operation)
  /-- It is told how its query was promoted, and then a callback is told. -/
  | promote (place : Place) (cookie : Cookie) (stream : Option Nat) (error : Option EngineError)
  /-- It is cancelled. -/
  | cancel
  /-- It is asked for its next row. -/
  | next (callback : Callback)
  /-- It is asked for its metadata. -/
  | metadata

namespace Use

/-- The operation that the result is told of. -/
def operation? : Use → Option Operation
  | attach operation => some operation
  | _ => none

/-- The stream that the result is told of. -/
def stream? : Use → Option Nat
  | promote _ _ stream _ => stream
  | _ => none

/-- What a call makes of the target of the result. -/
def aim (u : Use) (target : Target) : Target :=
  match u with
  | attach operation => target.setOperation operation
  | promote _ _ (some stream) _ => target.setStream stream
  | _ => target

end Use

/-- The last thing of a kind that a result was told of, or what it was made of if there is none. -/
def latest? {α : Type} (built : Option α) (f : Use → Option α) (uses : List Use) : Option α :=
  (built.toList ++ uses.filterMap f).getLast?

theorem latest?_concat {α : Type} (built : Option α) (f : Use → Option α) (uses : List Use)
    (u : Use) : latest? built f (uses ++ [u]) = (f u <|> latest? built f uses) := by
  cases hu : f u with
  | none => simp [latest?, hu]
  | some x => simp [latest?, hu, ← List.append_assoc]

/-- The object that a call on a result has to reach, by what the result was made of and by the calls
before: the latest stream, or else the latest operation. -/
def address (built : Option Nat) (uses : List Use) : Target :=
  match latest? built Use.stream? uses, latest? none Use.operation? uses with
  | some stream, _ => .active stream
  | none, some operation => .pending operation
  | none, none => .empty

theorem address_nil (built : Option Nat) :
    address built [] = (built.map Target.active).getD .empty := by
  cases built <;> rfl

theorem address_concat (built : Option Nat) (uses : List Use) (u : Use) :
    address built (uses ++ [u]) = u.aim (address built uses) := by
  unfold address
  rw [latest?_concat, latest?_concat]
  cases u with
  | attach operation =>
    cases latest? built Use.stream? uses with
    | none => cases latest? none Use.operation? uses <;> rfl
    | some stream => rfl
  | promote place cookie stream error =>
    cases stream with
    | none => rfl
    | some stream => rfl
  | cancel | next | metadata => rfl

namespace State

variable {s s' : State} {r : Nat} {target : Target}

/-- The state after a call on a result. -/
def use (s : State) (r : Nat) : Use → State
  | .attach operation => s.attach r operation
  | .promote place cookie stream error => s.promote place ⟨r, cookie⟩ stream error
  | .cancel => (s.cancel r).2
  | .next callback => s.nextRow r callback
  | .metadata => s

/-- How often an object was cancelled on request, if there is such an object. -/
def cancels? (s : State) : Target → Option Nat
  | .empty => none
  | .pending (.memory c o) => (s.engine.connector c).operations[o]?.map Engine.Operation.cancels
  | .pending (.manual m o) => s.manuals[m]?.bind fun x => x.operations[o]?
  | .active k => (s.engine.stream? k).map Engine.Stream.cancels

theorem cancels?_congr (hconnectors : s'.engine.connectors = s.engine.connectors)
    (hstreams : s'.engine.streams = s.engine.streams) (hmanuals : s'.manuals = s.manuals)
    (x : Target) : s'.cancels? x = s.cancels? x := by
  cases x with
  | empty => rfl
  | pending operation =>
    cases operation with
    | memory c o => simp only [cancels?, Engine.State.connector, hconnectors]
    | manual m o => simp only [cancels?, hmanuals]
  | active k => simp only [cancels?, Engine.State.stream?, hstreams]

theorem Aside.target? (h : Aside s s') (r : Nat) : s'.target? r = s.target? r := by
  obtain ⟨host, trace, rfl⟩ := h
  rfl

theorem Aside.cancels? (h : Aside s s') (x : Target) : s'.cancels? x = s.cancels? x := by
  obtain ⟨host, trace, rfl⟩ := h
  exact cancels?_congr rfl rfl rfl x

/-! ## Each call -/

/-- A change of what the result refers to. -/
theorem target?_modifyResult {f : Target → Target} (h : s.target? r = some target) :
    (s.modifyResult r fun q => { q with target := f q.target }).target? r = some (f target) := by
  obtain ⟨q, hq, halive, rfl⟩ := target?_eq_some.mp h
  exact target?_eq_some.mpr ⟨{ q with target := f q.target }, by simp [modifyResult, hq], halive, rfl⟩

theorem target?_attach (h : s.target? r = some target) (operation : Operation) :
    (s.attach r operation).target? r = some (target.setOperation operation) := by
  have hnote := aside_note s .host (((s.target? r).map Target.operationNotices).getD [])
  exact target?_modifyResult (f := fun t => t.setOperation operation)
    ((hnote.target? r).trans h)

theorem cancels?_attach (s : State) (r : Nat) (operation : Operation) (x : Target) :
    (s.attach r operation).cancels? x = s.cancels? x :=
  (aside_note s .host (((s.target? r).map Target.operationNotices).getD [])).cancels? x

theorem target?_promote (h : s.target? r = some target) (place : Place) (cookie : Cookie)
    (stream : Option Nat) (error : Option EngineError) :
    (s.promote place ⟨r, cookie⟩ stream error).target? r =
      some ((stream.map Target.active).getD target) := by
  simp only [promote, h]
  rw [(aside_invoke _ _ _ _).target?]
  cases stream with
  | none => exact h
  | some k => exact target?_modifyResult (f := fun t => t.setStream k) h

theorem cancels?_promote (h : s.target? r = some target) (place : Place) (cookie : Cookie)
    (stream : Option Nat) (error : Option EngineError) (x : Target) :
    (s.promote place ⟨r, cookie⟩ stream error).cancels? x = s.cancels? x := by
  simp only [promote, h]
  rw [(aside_invoke _ _ _ _).cancels?]
  cases stream with
  | none => rfl
  | some k => rfl

/-- A result without a stream is not ready to give rows. -/
theorem aside_nextRow (h : s.target? r = some target) (hstream : target.stream? = none)
    (callback : Callback) : Aside s (s.nextRow r callback) := by
  have hregister := aside_register s rowLabel callback
  have hnone : ((s.register rowLabel callback).2.target? r).bind Target.stream? = none := by
    rw [hregister.target?, h, Option.bind_some, hstream]
  simp only [nextRow, hnone]
  exact hregister.trans (aside_invoke _ _ _ _)

/-- A result with a stream passes the question on to it. -/
theorem nextRow_active {k : Nat} (h : s.target? r = some (.active k)) (callback : Callback) :
    Aside { s with engine := (s.engine.pull k (s.register rowLabel callback).1).2 }
      (s.nextRow r callback) := by
  have hregister := aside_register s rowLabel callback
  have hstream : ((s.register rowLabel callback).2.target? r).bind Target.stream? = some k := by
    rw [hregister.target?, h]
    rfl
  simp only [nextRow, hstream, took]
  obtain ⟨host, trace, hregistered⟩ := hregister
  rw [hregistered]
  -- a pull that the loop refuses is answered on the spot
  rcases s.engine.pull_fst k (s.register rowLabel callback).1 with hnone | ⟨row, hrow⟩
  · rw [hnone]
    exact ⟨host, trace, rfl⟩
  · rw [hrow]
    have hpulled : Aside { s with engine := (s.engine.pull k (s.register rowLabel callback).1).2 }
        { s with host, trace, engine := (s.engine.pull k (s.register rowLabel callback).1).2 } :=
      ⟨host, trace, rfl⟩
    exact (hpulled.trans (aside_note _ _ _)).trans (aside_invoke _ _ _ _)

theorem cancels?_cancelMemory (s : State) (c o : Nat) (x : Target) :
    (s.cancelOperation (.memory c o)).cancels? x =
      if x = .pending (.memory c o) then (s.cancels? x).map (· + 1) else s.cancels? x := by
  cases x with
  | empty => rfl
  | pending operation =>
    cases operation with
    | memory d k =>
      have hcounts := Engine.State.getElem?_cancels_cancelOperation s.engine c o d k
      simpa only [cancels?, cancelOperation, List.getElem?_map, Target.pending.injEq,
        Operation.memory.injEq] using hcounts
    | manual m k => rfl
  | active k =>
    have hstreams := (Engine.State.woken_cancelOperation s.engine c o).streams
    rw [if_neg (by simp)]
    simp only [cancels?, cancelOperation, Engine.State.stream?, hstreams]

theorem cancels?_cancelManual (s : State) (m o : Nat) (x : Target) :
    (s.cancelOperation (.manual m o)).cancels? x =
      if x = .pending (.manual m o) then (s.cancels? x).map (· + 1) else s.cancels? x := by
  cases x with
  | empty | active => rfl
  | pending operation =>
    cases operation with
    | memory d k => rfl
    | manual n k =>
      simp only [cancels?, cancelOperation, modifyManual, List.getElem?_modify]
      by_cases hn : n = m
      · subst hn
        by_cases hk : k = o
        · subst hk
          cases s.manuals[n]? <;> simp
        · have hne : ¬ o = k := fun e => hk e.symm
          cases s.manuals[n]? <;> simp [hk, hne]
      · have hne : ¬ m = n := fun e => hn e.symm
        cases s.manuals[n]? <;> simp [hn, hne]

theorem cancels?_cancelStream (s : State) (k : Nat) (x : Target) :
    (s.strike (.active k)).cancels? x =
      if x = .active k then (s.cancels? x).map (· + 1) else s.cancels? x := by
  cases x with
  | empty => rfl
  | pending operation => cases operation <;> rfl
  | active j =>
    simp only [cancels?, strike, Engine.State.stream?_cancelStream, Target.active.injEq]
    by_cases hj : j = k
    · subst hj
      cases s.engine.stream? j <;> simp [Engine.Stream.cancel]
    · simp [hj]

/-- A cancellation is counted by the object that it strikes, and by no other. -/
theorem cancels?_strike (s : State) (target x : Target) :
    (s.strike target).cancels? x =
      if x = target then (s.cancels? x).map (· + 1) else s.cancels? x := by
  cases target with
  | empty => cases x <;> rfl
  | pending operation =>
    cases operation with
    | memory c o => exact cancels?_cancelMemory s c o x
    | manual m o => exact cancels?_cancelManual s m o x
  | active k => exact cancels?_cancelStream s k x

theorem cancel_of_target (h : s.target? r = some target) :
    s.cancel r = (target != .empty, s.strike target) := by
  cases target with
  | empty =>
    have hgrasp : s.grasp r = none := by
      rw [grasp, h]
      rfl
    rw [cancel, hgrasp]
    rfl
  | pending | active => exact cancel_eq h (by simp)

/-! ## Any call -/

theorem target?_use (h : s.target? r = some target) (u : Use) :
    (s.use r u).target? r = some (u.aim target) := by
  cases u with
  | attach operation => exact target?_attach h operation
  | promote place cookie stream error =>
    refine (target?_promote h place cookie stream error).trans ?_
    cases stream <;> rfl
  | cancel =>
    simp only [use, cancel_of_target h]
    cases target with
    | empty | active => exact h
    | pending operation => cases operation <;> exact h
  | next callback =>
    cases target with
    | empty | pending => exact ((aside_nextRow h rfl callback).target? r).trans h
    | active k => exact ((nextRow_active h callback).target? r).trans h
  | metadata => exact h

/-- No call but a cancellation is counted. -/
theorem cancels?_use (h : s.target? r = some target) {u : Use} (hu : u ≠ .cancel) (x : Target) :
    (s.use r u).cancels? x = s.cancels? x := by
  cases u with
  | attach operation => exact cancels?_attach s r operation x
  | promote place cookie stream error => exact cancels?_promote h place cookie stream error x
  | cancel => exact absurd rfl hu
  | next callback =>
    cases target with
    | empty | pending => exact (aside_nextRow h rfl callback).cancels? x
    | active k =>
      obtain ⟨hconnectors, hstreams⟩ := s.engine.pull_snd k (s.register rowLabel callback).1
      rw [use, (nextRow_active h callback).cancels?]
      exact @cancels?_congr s { s with engine := _ } hconnectors hstreams rfl x
  | metadata => rfl

theorem cancels?_cancel (h : s.target? r = some target) (x : Target) :
    (s.cancel r).2.cancels? x =
      if x = target then (s.cancels? x).map (· + 1) else s.cancels? x := by
  rw [cancel_of_target h]
  exact cancels?_strike s target x

theorem isSome_cancels?_strike (target : Target) {x : Target} (hx : (s.cancels? x).isSome) :
    ((s.strike target).cancels? x).isSome := by
  rw [cancels?_strike]
  split
  · simpa using hx
  · exact hx

/-- No call takes an object away. -/
theorem isSome_cancels?_use (h : s.target? r = some target) (u : Use) {x : Target}
    (hx : (s.cancels? x).isSome) : ((s.use r u).cancels? x).isSome := by
  by_cases hu : u = .cancel
  · subst hu
    rw [use, cancel_of_target h]
    exact isSome_cancels?_strike target hx
  · rwa [cancels?_use h hu]

/-! ## Any number of calls -/

/-- Calls on a result in a row. A result is only told of objects that there are, and between two calls
anything may happen that neither tells the result anything nor takes an object away. -/
inductive Used (s : State) (r : Nat) : List Use → State → Prop
  /-- No call yet. -/
  | start : Used s r [] s
  /-- One more call. -/
  | call {uses : List Use} {s' : State} (h : Used s r uses s') (u : Use)
      (hoperation : ∀ operation, u.operation? = some operation →
        (s'.cancels? (.pending operation)).isSome)
      (hstream : ∀ k, u.stream? = some k → (s'.cancels? (.active k)).isSome) :
      Used s r (uses ++ [u]) (s'.use r u)
  /-- Something else happens. -/
  | meanwhile {uses : List Use} {s' s'' : State} (h : Used s r uses s')
      (htarget : s''.target? r = s'.target? r)
      (hobjects : ∀ x, (s'.cancels? x).isSome → (s''.cancels? x).isSome) :
      Used s r uses s''

variable {built : Option Nat} {uses : List Use}

theorem Used.aimed (h : s.Used r uses s') (hbuilt : s.target? r = some (address built [])) :
    s'.target? r = some (address built uses) := by
  induction h with
  | start => exact hbuilt
  | call _ u _ _ ih =>
    rw [address_concat]
    exact target?_use ih u
  | meanwhile _ htarget _ ih => exact htarget.trans ih

/-- What a result refers to is there. -/
theorem Used.filled (h : s.Used r uses s') (hbuilt : s.target? r = some (address built []))
    (hthere : address built [] ≠ .empty → (s.cancels? (address built [])).isSome)
    (hne : address built uses ≠ .empty) : (s'.cancels? (address built uses)).isSome := by
  induction h with
  | start => exact hthere hne
  | @call uses s' h u hoperation hstream ih =>
    rw [address_concat] at hne ⊢
    have hkeep := fun x => isSome_cancels?_use (h.aimed hbuilt) u (x := x)
    have hstay : u.aim (address built uses) = address built uses →
        ((s'.use r u).cancels? (u.aim (address built uses))).isSome := by
      intro heq
      rw [heq] at hne ⊢
      exact hkeep _ (ih hne)
    cases u with
    | attach operation =>
      cases htarget : address built uses with
      | active k => exact htarget ▸ hstay (by rw [htarget]; rfl)
      | empty | pending => exact hkeep _ (hoperation operation rfl)
    | promote place cookie stream error =>
      cases stream with
      | none => exact hstay rfl
      | some k => exact hkeep _ (hstream k rfl)
    | cancel | next | metadata => exact hstay rfl
  | meanwhile _ _ hobjects ih => exact hobjects _ (ih hne)

end State

open State

/-- A result is made without anything or with a stream, and then any number of calls follow. A
cancellation succeeds exactly if the result was ever told of a stream or of an operation. Then it is
counted once, by the latest stream if there is one and else by the latest operation, and by no other
object; otherwise nothing happens. No other call is counted. A row is asked for from that stream and
from nowhere else, and metadata is that of the stream. Once there is a stream, no operation takes its
place. -/
theorem calls_reach_latest (before s : State) (built : Option Nat) (uses : List Use)
    (hbuilt : ∀ k, built = some k → (before.cancels? (.active k)).isSome)
    (hused : (before.addResult ((built.map Target.active).getD .empty)).2.Used
      (before.addResult ((built.map Target.active).getD .empty)).1 uses s) :
    let r := before.results.length
    let target := address built uses
    ((s.cancel r).1 = true ↔ target ≠ .empty) ∧
    (target = .empty → (s.cancel r).2 = s) ∧
    (target ≠ .empty → (s.cancel r).2 = s.strike target ∧ (s.cancels? target).isSome) ∧
    (∀ x, (s.cancel r).2.cancels? x =
      if x = target then (s.cancels? x).map (· + 1) else s.cancels? x) ∧
    (∀ u x, u ≠ .cancel → (s.use r u).cancels? x = s.cancels? x) ∧
    (∀ callback, (s.nextRow r callback).manuals = s.manuals ∧
      (s.nextRow r callback).engine = match target.stream? with
        | some k => (s.engine.pull k (s.register rowLabel callback).1).2
        | none => s.engine) ∧
    s.metadata r = target.stream?.bind (fun k =>
      ((s.engine.stream? k).bind Engine.Stream.metadata).map Metadata.toJson) ∧
    ∀ k operation, target = .active k → (s.attach r operation).target? r = some (.active k) := by
  intro r target
  rw [← address_nil] at hused
  have hnew : (before.addResult (address built [])).2.target? r = some (address built []) :=
    target?_eq_some.mpr ⟨{ target := address built [] }, by simp [addResult, r], rfl, rfl⟩
  have hthere : address built [] ≠ .empty →
      ((before.addResult (address built [])).2.cancels? (address built [])).isSome := by
    cases built with
    | none => exact fun hne => absurd rfl hne
    | some k => exact fun _ => hbuilt k rfl
  have htarget : s.target? r = some target := hused.aimed hnew
  refine ⟨?_, ?_, fun hne => ⟨?_, hused.filled hnew hthere hne⟩, cancels?_cancel htarget,
    fun u x hu => cancels?_use htarget hu x, fun callback => ?_, ?_, ?_⟩
  · simp [cancel_of_target htarget]
  · intro hempty
    rw [cancel_of_target htarget, hempty]
    rfl
  · rw [cancel_of_target htarget]
  · cases hcase : target with
    | empty | pending =>
      obtain ⟨host, trace, hasked⟩ := aside_nextRow (hcase ▸ htarget) rfl callback
      exact ⟨by rw [hasked], by rw [hasked]; rfl⟩
    | active k =>
      obtain ⟨host, trace, hasked⟩ := nextRow_active (hcase ▸ htarget) callback
      exact ⟨by rw [hasked], by rw [hasked]; rfl⟩
  · rw [State.metadata, htarget, Option.bind_some]
  · intro k operation hactive
    rw [target?_attach htarget, hactive]
    rfl

/-- Two operations and two streams. -/
def twoOfEach : State where
  engine := {
    workers := [.held]
    connectors := [{ operations := [{}, {}] }]
    streams := [.ofRows 0 [] {}, .ofRows 0 [] {}] }

/-- A result is told of both operations and of both streams, and of an operation once more. It is
cancelled after the second operation, and somebody else cancels the first stream while the result
refers to it. -/
def toldOfAll : State :=
  let cookie : Cookie := ⟨none, queryLabel, 0⟩
  (twoOfEach.addResult .empty).2
    |>.use 0 (.attach (.memory 0 0))
    |>.use 0 (.attach (.memory 0 1))
    |>.use 0 .cancel
    |>.use 0 (.promote .loop cookie (some 0) none)
    |>.strike (.active 0)
    |>.use 0 (.attach (.memory 0 0))
    |>.use 0 (.promote .loop cookie (some 1) none)

/-- There a cancellation reaches the second stream. -/
theorem calls_reach_latest_in_toldOfAll :
    (toldOfAll.cancel 0).1 = true ∧
    (toldOfAll.cancel 0).2.cancels? (.active 1) = some 1 ∧
    (toldOfAll.cancel 0).2.cancels? (.active 0) = some 1 ∧
    (toldOfAll.cancel 0).2.cancels? (.pending (.memory 0 1)) = some 1 ∧
    (toldOfAll.cancel 0).2.cancels? (.pending (.memory 0 0)) = some 0 := by
  have hattached := ((Used.start (s := (twoOfEach.addResult .empty).2) (r := 0)).call
    (.attach (.memory 0 0)) (by rintro _ ⟨⟩; rfl) nofun).call
    (.attach (.memory 0 1)) (by rintro _ ⟨⟩; rfl) nofun
  have hpromoted := (hattached.call .cancel nofun nofun).call
    (.promote .loop ⟨none, queryLabel, 0⟩ (some 0) none) nofun (by rintro _ ⟨⟩; rfl)
  have hstruck : Used _ 0 _ (State.strike _ (.active 0)) :=
    hpromoted.meanwhile rfl fun _ => isSome_cancels?_strike (.active 0)
  have hused := (hstruck.call (.attach (.memory 0 0)) (by rintro _ ⟨⟩; rfl) nofun).call
    (.promote .loop ⟨none, queryLabel, 0⟩ (some 1) none) nofun (by rintro _ ⟨⟩; rfl)
  obtain ⟨hcancel, -, -, hcounts, -⟩ := calls_reach_latest twoOfEach toldOfAll none _ nofun hused
  exact ⟨hcancel.mpr (by decide), hcounts _, hcounts _, hcounts _, hcounts _⟩

end HostBridge.Session
