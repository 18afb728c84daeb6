import HostBridge.Json.Basic

/-!
# Build information

What the library tells a host about itself.
-/

namespace HostBridge.Build

/-- The version of the library. -/
def version : String := "0.1.0"

/-- The name under which hosts know the library. -/
def packageName : String := "colbridge-binding"

/-- The platform for which a library was built. -/
structure Platform where
  /-- The operating system. -/
  os : String
  /-- The processor. -/
  arch : String
  /-- Checks for development are on. -/
  debug : Bool

/-- The build information as a JSON value. -/
def info (p : Platform) : Json :=
  .obj [("arch", .str p.arch), ("debug", .bool p.debug), ("name", .str packageName),
    ("os", .str p.os), ("version", .str version)]

end HostBridge.Build
