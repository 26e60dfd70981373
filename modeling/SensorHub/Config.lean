import SensorHub.Clock
import SensorHub.Nanoapp.Info
/-!
The configuration of a hub and the conditions it has to meet.
-/

namespace SensorHub

/-- The settings of a hub. -/
structure Config where
  eventBlocks : UInt64
  eventsPerBlock : UInt64
  /-- How many low-priority system events may be evicted to make room for a critical one. -/
  evictTarget : UInt64
  /-- The waiting time from which a delivery is reported as delayed, in milliseconds. -/
  latencyWarnMillis : UInt32
  /-- The window in which reports of delays are limited, in milliseconds. -/
  throttleMillis : UInt64
  throttleCount : UInt32
  /-- The period of the wakeup counters, in seconds. -/
  wakeupBucketSeconds : UInt64
  wakeupBuckets : UInt64
  /-- The oldest interface version for which a nanoapp may be built. -/
  firstSupportedApi : UInt32
  deriving Repr, DecidableEq, Inhabited

namespace Config

def default : Config where
  eventBlocks := 4
  eventsPerBlock := 24
  evictTarget := 4
  latencyWarnMillis := 1000
  throttleMillis := 1000
  throttleCount := 10
  wakeupBucketSeconds := 300
  wakeupBuckets := 4
  firstSupportedApi := apiVersion11

/-- The largest pool whose slots a handle can name. -/
def maxCapacity : Nat := 65535

/-- The number of event slots, at most the largest 64-bit number. -/
def eventCapacity (c : Config) : Nat :=
  min (c.eventBlocks.toNat * c.eventsPerBlock.toNat) (UInt64.size - 1)

def throttleInterval (c : Config) : Nat :=
  c.throttleMillis.toNat * Clock.millisecond

def wakeupInterval (c : Config) : Nat :=
  c.wakeupBucketSeconds.toNat * Clock.second

/-- A condition that a configuration fails. -/
inductive Defect
  | emptyPool
  | poolTooLarge (capacity : Nat)
  | noWakeupBucket
  | noWakeupPeriod
  deriving Repr, DecidableEq, Inhabited

namespace Defect

def message : Defect → String
  | .emptyPool => "event_blocks and events_per_block must be non-zero"
  | .poolTooLarge capacity => s!"Event pool capacity {capacity} exceeds {maxCapacity}"
  | .noWakeupBucket => "wakeup_bucket_count must be non-zero"
  | .noWakeupPeriod => "wakeup_bucket_interval_secs must be non-zero"

end Defect

/-- The first condition that the configuration fails. -/
def defect? (c : Config) : Option Defect :=
  if c.eventBlocks = 0 ∨ c.eventsPerBlock = 0 then some .emptyPool
  else if maxCapacity < c.eventCapacity then some (.poolTooLarge c.eventCapacity)
  else if c.wakeupBuckets = 0 then some .noWakeupBucket
  else if c.wakeupBucketSeconds = 0 then some .noWakeupPeriod
  else none

def Valid (c : Config) : Prop :=
  c.defect? = none

instance (c : Config) : Decidable c.Valid :=
  inferInstanceAs (Decidable (c.defect? = none))

end Config

end SensorHub
