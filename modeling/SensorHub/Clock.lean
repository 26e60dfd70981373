/-!
The monotonic clock, in nanoseconds since the hub's epoch, and the 16-bit millisecond stamps
that events carry. Stamps wrap, so a waiting time is known only modulo 65536 milliseconds.
-/

namespace SensorHub.Clock

def millisecond : Nat := 1000000

def second : Nat := 1000000000

def millis (now : Nat) : Nat :=
  now / millisecond

/-- The stamp of an instant: the low 16 bits of its millisecond count. -/
def stamp (now : Nat) : UInt16 :=
  (millis now).toUInt16

/-- Milliseconds from the stamp `enqueued` to the stamp `now`, taking at most one wrap of the
counter in between. -/
def latency (now enqueued : UInt16) : UInt32 :=
  if now < enqueued then now.toUInt32 + 65536 - enqueued.toUInt32
  else now.toUInt32 - enqueued.toUInt32

end SensorHub.Clock
