/-!
# Durations

A duration counts seconds in 64 bits and nanoseconds below one second. Hosts see durations as whole
milliseconds in 64 bits: what is below a millisecond is cut off, and the count wraps around.
-/

namespace HostBridge

/-- A span of time. -/
structure Duration where
  /-- Whole seconds. -/
  secs : UInt64
  /-- Nanoseconds beyond the whole seconds. -/
  nanos : Fin 1000000000
  deriving DecidableEq, Repr

namespace Duration

/-- No time at all. -/
def zero : Duration := ⟨0, 0⟩

instance : Inhabited Duration := ⟨zero⟩

/-- The whole milliseconds of a duration, of any size. -/
def wholeMillis (d : Duration) : Nat :=
  d.secs.toNat * 1000 + d.nanos.val / 1000000

/-- The whole milliseconds of a duration modulo `2 ^ 64`. -/
def millis (d : Duration) : UInt64 :=
  UInt64.ofNat d.wholeMillis

/-- The duration of some milliseconds. -/
def ofMillis (ms : UInt64) : Duration :=
  ⟨UInt64.ofNat (ms.toNat / 1000), ⟨ms.toNat % 1000 * 1000000, by omega⟩⟩

end Duration

end HostBridge
