import HostBridge.Duration
import HostBridge.Error
import HostBridge.Text.Blank

/-!
# Connection options

What it takes to connect to a cluster. Options are checked before anything is started, and the first
fault in a fixed order is the one reported: the connection string, the name of the loop's thread,
the timeouts in their order, the sources of trust.
-/

namespace HostBridge

/-- Who connects. -/
structure Credential where
  /-- The name. -/
  username : String := ""
  /-- The password. -/
  password : String := ""
  deriving DecidableEq, Repr

/-- How long the transport may take for each kind of operation. -/
structure Timeouts where
  /-- For connecting. -/
  connect : Option Duration := none
  /-- For sending a request. -/
  dispatch : Option Duration := none
  /-- For a query. -/
  query : Option Duration := none
  /-- For management. -/
  management : Option Duration := none
  /-- For resolving a name. -/
  resolve : Option Duration := none
  /-- For opening a socket. -/
  socketConnect : Option Duration := none
  deriving DecidableEq, Repr

namespace Timeouts

/-- The timeouts with their names, in the order in which they are checked. -/
def named (t : Timeouts) : List (String × Option Duration) :=
  [("connect_timeout", t.connect), ("dispatch_timeout", t.dispatch), ("query_timeout", t.query),
    ("management_timeout", t.management), ("resolve_timeout", t.resolve),
    ("socket_connect_timeout", t.socketConnect)]

/-- The first timeout that is given and zero. -/
def fault? (t : Timeouts) : Option ArgumentFault :=
  (t.named.find? fun (_, d) => d == some .zero).map fun (name, _) => .timeoutNotPositive name

end Timeouts

/-- Which certificates are trusted. -/
structure Security where
  /-- Only the authority of the hosted service. -/
  capella : Bool := false
  /-- Only the certificates of a file. -/
  pemFile : Option String := none
  /-- Only the certificates of a text. -/
  pemText : Option String := none
  /-- Only the given certificates. -/
  certificates : List String := []
  /-- Only the certificates of the platform. -/
  platform : Bool := false
  /-- Any certificate at all. -/
  disableVerification : Bool := false
  /-- The cipher suites to use. -/
  cipherSuites : List String := []
  deriving DecidableEq, Repr

namespace Security

/-- The five sources of trust, each with whether it is given. -/
def sources (s : Security) : List Bool :=
  [s.capella, s.pemFile.isSome, s.pemText.isSome, !s.certificates.isEmpty, s.platform]

/-- At most one source of trust may be given. -/
def fault? (s : Security) : Option ArgumentFault :=
  if 1 < s.sources.count true then some .severalTrustSources else none

end Security

/-- The options of a connection. -/
structure Options where
  /-- The connection string. -/
  connection : String
  /-- Who connects. -/
  credential : Credential := {}
  /-- The timeouts. -/
  timeouts : Timeouts := {}
  /-- The trusted certificates; those of the hosted service unless something else is asked for. -/
  security : Security := { capella := true }
  /-- The name of the thread of the io loop. -/
  threadName : String := "colbridge-io"
  deriving DecidableEq, Repr

namespace Options

/-- The first fault of the options, if there is one. -/
def fault? (o : Options) : Option ArgumentFault :=
  if Text.isBlank o.connection then some .emptyConnection
  else if o.threadName.isEmpty then some .emptyThreadName
  else o.timeouts.fault?.or o.security.fault?

/-- Accepts the options or reports their first fault. -/
def validate (o : Options) : Except Error Unit :=
  match o.fault? with
  | none => .ok ()
  | some fault => .error (.invalidArgument fault)

end Options

end HostBridge
