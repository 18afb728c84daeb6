import HostBridge.Error

/-!
# Rows of a result

A pull from a result stream yields a row, the end of the stream, or an error without a row. There is
no empty answer. `Row.marshal` turns it into what the host sees: a text and an error, each of which
may be absent, both of them absent exactly at the end.
-/

namespace HostBridge

/-- One answer of a result stream. -/
inductive Row where
  /-- The bytes of a row, with an error if the result is degraded. -/
  | content (bytes : ByteArray) (error : Option EngineError)
  /-- The end of the stream. -/
  | done
  /-- An error without a row. -/
  | failed (error : EngineError)

namespace Row

instance : Inhabited Row := ⟨done⟩

/-- The stream has ended. -/
def isDone : Row → Bool
  | done => true
  | _ => false

/-- The two optional errors are equal. -/
def sameError : Option EngineError → Option EngineError → Bool
  | none, none => true
  | some a, some b => a.same b
  | _, _ => false

/-- The two answers are equal, where floating-point zeros in contexts are equal. -/
def same : Row → Row → Bool
  | content a e, content b f => a.toList == b.toList && sameError e f
  | done, done => true
  | failed a, failed b => a.same b
  | _, _ => false

/-- The position of the first row of a list that equals the given one. -/
def firstEqual (rows : List Row) (r : Row) : Nat :=
  rows.findIdx fun s => s.same r

/-- What the host sees of an answer. Bytes that are no text are reported as an error. -/
def marshal : Row → Option String × Option Error
  | done => (none, none)
  | content bytes e =>
    match decodeUtf8 bytes with
    | .ok text => (some text, e.map Error.engine)
    | .error fault => (none, some fault)
  | failed e => (none, some (.engine e))

/-- The host sees neither text nor error exactly at the end. -/
theorem marshal_eq_none_none_iff {r : Row} : r.marshal = (none, none) ↔ r = done := by
  cases r with
  | content bytes e =>
    simp only [marshal, reduceCtorEq, iff_false]
    split <;> simp
  | done => simp [marshal]
  | failed e => simp [marshal]

end Row

end HostBridge
