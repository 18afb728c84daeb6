import HostBridge.EngineError

/-!
# Errors of the library

Every operation fails with one of these causes. The wording of a cause is in one place, `message`.
-/

namespace HostBridge

/-- Kinds of failure of the operating system. -/
inductive SystemFault where
  /-- No such thing. -/
  | notFound
  /-- Not allowed. -/
  | permissionDenied
  /-- The other side refused the connection. -/
  | connectionRefused
  /-- The other side reset the connection. -/
  | connectionReset
  /-- The connection was given up. -/
  | connectionAborted
  /-- There is no connection. -/
  | notConnected
  /-- The address is taken. -/
  | addressInUse
  /-- The address does not exist here. -/
  | addressNotAvailable
  /-- The reading end is gone. -/
  | brokenPipe
  /-- It is there already. -/
  | alreadyExists
  /-- The operation would have to wait. -/
  | wouldBlock
  /-- A parameter is wrong. -/
  | invalidInput
  /-- The data is wrong. -/
  | invalidData
  /-- Time ran out. -/
  | timedOut
  /-- Nothing could be written. -/
  | writeZero
  /-- The operation was interrupted. -/
  | interrupted
  /-- The operation does not exist here. -/
  | unsupported
  /-- The data ended too early. -/
  | unexpectedEof
  /-- Memory ran out. -/
  | outOfMemory
  /-- Anything else. -/
  | other
  deriving DecidableEq, Repr, Inhabited

/-- The fault in words. -/
def SystemFault.describe : SystemFault → String
  | notFound => "entity not found"
  | permissionDenied => "permission denied"
  | connectionRefused => "connection refused"
  | connectionReset => "connection reset"
  | connectionAborted => "connection aborted"
  | notConnected => "not connected"
  | addressInUse => "address in use"
  | addressNotAvailable => "address not available"
  | brokenPipe => "broken pipe"
  | alreadyExists => "entity already exists"
  | wouldBlock => "operation would block"
  | invalidInput => "invalid input parameter"
  | invalidData => "invalid data"
  | timedOut => "timed out"
  | writeZero => "write zero"
  | interrupted => "operation interrupted"
  | unsupported => "unsupported"
  | unexpectedEof => "unexpected end of file"
  | outOfMemory => "out of memory"
  | other => "other error"

/-- What is wrong with an argument. -/
inductive ArgumentFault where
  /-- The connection string is blank. -/
  | emptyConnection
  /-- The thread of the io loop has no name. -/
  | emptyThreadName
  /-- The named timeout is zero. -/
  | timeoutNotPositive (name : String)
  /-- More than one source of trust is given. -/
  | severalTrustSources
  /-- The io loop was asked to wait for itself. -/
  | selfJoin
  /-- The executor has submitted its query. -/
  | alreadySubmitted
  /-- The stream has not ended, so it has no metadata yet. -/
  | metadataUnavailable
  /-- Any other fault, in words. -/
  | custom (text : String)
  deriving DecidableEq, Repr

/-- The fault in words. -/
def ArgumentFault.describe : ArgumentFault → String
  | emptyConnection => "empty connection string"
  | emptyThreadName => "empty io thread name"
  | timeoutNotPositive name => name ++ " must be positive"
  | severalTrustSources => "only one trust source can be specified"
  | selfJoin => "io thread cannot join itself"
  | alreadySubmitted => "query already submitted by this executor"
  | metadataUnavailable => "metadata is only available once all rows have been iterated"
  | custom text => text

/-- Why a value could not be written as JSON or read from it. -/
inductive CodecFault where
  /-- The value does not have the expected form. -/
  | decode (cause : Json.DecodeError)
  /-- A key of a map is not a text and cannot be written as one. -/
  | keyNotText
  /-- Any other fault, in words. -/
  | custom (text : String)
  deriving Repr

/-- The fault in words. -/
def CodecFault.describe : CodecFault → String
  | decode cause => cause.message
  | keyNotText => "key must be a string"
  | custom text => text

/-- Why an operation failed. -/
inductive Error where
  /-- The engine reported an error. -/
  | engine (cause : EngineError)
  /-- Some bytes are not the text of anything. -/
  | invalidUtf8
  /-- A value could not be written as JSON or read from it. -/
  | codec (fault : CodecFault)
  /-- Rows were asked for before the query was promoted. -/
  | resultNotStarted
  /-- The instance is shutting down. -/
  | instanceClosing
  /-- The instance is gone. -/
  | instanceDestroyed
  /-- The instance has been asked to shut down before. -/
  | destroyInProgress
  /-- The host is torn down. -/
  | hostClosed
  /-- The operating system reported a fault. -/
  | system (fault : SystemFault)
  /-- An argument is wrong. -/
  | invalidArgument (fault : ArgumentFault)
  deriving Repr

namespace Error

instance : Inhabited Error := ⟨hostClosed⟩

/-- The message of an error. -/
def message : Error → String
  | engine cause => cause.describe
  | invalidUtf8 => "Invalid UTF-8 string"
  | codec fault => "Serialize/Deserialize error: " ++ fault.describe
  | resultNotStarted => "Result stream not started"
  | instanceClosing => "Instance is closing"
  | instanceDestroyed => "Instance destroyed"
  | destroyInProgress => "Destroy already in progress"
  | hostClosed => "Host environment closed"
  | system fault => "IO error: " ++ fault.describe
  | invalidArgument fault => "Invalid argument: " ++ fault.describe

/-- The engine error behind an error, if there is one. -/
def engine? : Error → Option EngineError
  | engine cause => some cause
  | _ => none

/-- The error is a cancellation reported by the engine. -/
def isCanceled (e : Error) : Bool :=
  match e.engine? with
  | some cause => cause.isCanceled
  | none => false

end Error

/-- The text that some bytes stand for. -/
def decodeUtf8 (bytes : ByteArray) : Except Error String :=
  match String.fromUTF8? bytes with
  | some s => .ok s
  | none => .error .invalidUtf8

end HostBridge
