import HostBridge.Session.Connection

/-!
# Consuming rows

Rows are pulled one at a time, from a query result or through an executor. Both can be cancelled,
and both give the metadata of the query once its rows have come to an end.
-/

namespace HostBridge.Session.State

/-! ## Results -/

/-- Asks a query result for its next row. Without a stream the callback is told so. -/
def nextRow (s : State) (r : Nat) (callback : Callback) : State :=
  let (cookie, s) := s.register rowLabel callback
  match (s.target? r).bind Target.stream? with
  | none => s.invoke .host cookie (.failed .resultNotStarted)
  | some stream => s.took (s.engine.pull stream cookie)

/-- Cancels an operation. -/
def cancelOperation (s : State) : Operation → State
  | .memory c o => { s with engine := s.engine.cancelOperation c o }
  | .manual m o => s.modifyManual m fun x => { x with operations := x.operations.modify o (· + 1) }

/-- What a query result refers to, if it refers to anything. -/
def grasp (s : State) (r : Nat) : Option Target :=
  (s.target? r).filter fun target => target != .empty

/-- Cancels what a query result referred to when it was asked. -/
def strike (s : State) : Target → State
  | .empty => s
  | .pending operation => s.cancelOperation operation
  | .active stream => { s with engine := s.engine.cancelStream stream }

/-- Cancels whatever a query result refers to. The answer is whether it refers to anything. -/
def cancel (s : State) (r : Nat) : Bool × State :=
  match s.grasp r with
  | none => (false, s)
  | some target => (true, s.strike target)

/-- The metadata of a query result whose stream has ended, as hosts see it. -/
def metadata (s : State) (r : Nat) : Option Json :=
  ((s.target? r).bind Target.stream?).bind fun stream =>
    ((s.engine.stream? stream).bind Engine.Stream.metadata).map Metadata.toJson

/-! ## Executors -/

/-- Hands the query of an executor over to the engine, which can be done once. -/
def executorSubmit (s : State) (e i : Nat) (request : Request) (name : String) :
    Except Error (Nat × Operation) × State :=
  match s.executors[e]?.bind Executor.result with
  | some _ => (.error (.invalidArgument .alreadySubmitted), s.record (.dropped none name))
  | none => s.submit i request (.promotion name true)

/-- The result of an executor's query learns of its operation, and the executor of the result. -/
def executorAttach (s : State) (e r : Nat) (operation : Operation) : State :=
  (s.attach r operation).modifyExecutor e fun _ => ⟨some r, .started⟩

/-- Submits the query of an executor. -/
def executorQuery (s : State) (e i : Nat) (request : Request) (name : String) :
    Except Error Unit × State :=
  match s.executorSubmit e i request name with
  | (.error fault, s) => (.error fault, s)
  | (.ok (r, operation), s) => (.ok (), s.executorAttach e r operation)

/-- Asks the result of an executor for its next row. -/
def executorNext (s : State) (e : Nat) (name : String) : Except Error Unit × State :=
  match s.executors[e]?.bind Executor.result with
  | none => (.error .resultNotStarted, s.record (.dropped none name))
  | some r => (.ok (), s.nextRow r (.row name (some e)))

/-- What the result of an executor refers to, unless the executor was cancelled or is complete. -/
def executorGrasp (s : State) (e : Nat) : Option Target :=
  s.executors[e]?.bind fun x => if x.canAbort then x.result.bind s.grasp else none

/-- Cancels what the result of an executor referred to, and marks the executor. -/
def executorStrike (s : State) (e : Nat) (target : Target) : State :=
  (s.strike target).modifyExecutor e fun x => { x with state := .cancelled }

/-- Cancels the query of an executor, unless it was cancelled or is complete. The answer is whether
this call cancelled it. -/
def executorAbort (s : State) (e : Nat) : Bool × State :=
  match s.executorGrasp e with
  | none => (false, s)
  | some target => (true, s.executorStrike e target)

/-- The metadata of an executor's query, read back from what hosts see. -/
def executorMetadata (s : State) (e : Nat) : Except Error Metadata :=
  match (s.executors[e]?.bind Executor.result).bind s.metadata with
  | none => .error (.invalidArgument .metadataUnavailable)
  | some v => (Metadata.decode v).mapError fun cause => .codec (.decode cause)

/-- The host lets go of an executor and thereby of its result. -/
def dropExecutor (s : State) (e : Nat) : State :=
  match s.executors[e]?.bind Executor.result with
  | none => s
  | some r => s.dropResult r

end HostBridge.Session.State
