import SensorHub.Clock
import SensorHub.Config
import SensorHub.Nanoapp.Basic
/-!
What code that runs on the hub can see of it. Any code sees the snapshot that is shared with
all threads; an app sees itself; code that holds the whole loop sees the registry too.
-/

namespace SensorHub

/-- What any thread can see. -/
structure Snapshot where
  config : Config
  /-- The clock in nanoseconds. -/
  now : Nat
  running : Bool
  pending : Nat
  /-- Pool slots handed out. -/
  inFlight : Nat
  capacity : Nat
  blocks : Nat
  /-- Low-priority events dropped or evicted. -/
  dropped : UInt32
  current : Option UInt16
  stopping : Option UInt16
  /-- The loaded nanoapps, in registry order. -/
  directory : List Info
  deriving Repr, Inhabited

namespace Snapshot

def infoOfApp? (s : Snapshot) (appId : UInt64) : Option Info :=
  s.directory.find? fun i => i.appId == appId

def infoOfInstance? (s : Snapshot) (instanceId : UInt16) : Option Info :=
  s.directory.find? fun i => i.instanceId == instanceId

def instanceOfApp? (s : Snapshot) (appId : UInt64) : Option UInt16 :=
  (s.infoOfApp? appId).map Info.instanceId

def poolDebug (s : Snapshot) : String :=
  Text.record "EventPool"
    [("capacity", toString s.capacity), ("allocated", toString s.inFlight),
      ("blocks", toString s.blocks)]

def debug (s : Snapshot) : String :=
  Text.record "EventLoopHandle"
    [("running", Text.truth s.running), ("pending", toString s.pending), ("pool", s.poolDebug)]

end Snapshot

/-- What an app sees of itself while one of its entry points runs. -/
structure SelfView where
  info : Info
  registrations : Registrations
  /-- The app is being unloaded or the hub has stopped; settled when the entry point began. -/
  stopping : Bool
  deriving Repr, Inhabited

/-- What code that holds the loop can see. -/
structure HubView where
  shared : Snapshot
  /-- The registry, oldest load first. -/
  apps : List Nanoapp
  current : Option UInt16
  stopping : Option UInt16
  /-- The most pool slots found handed out before a dispatch. -/
  peakUsage : Nat
  /-- Events for one app that was not loaded. -/
  undelivered : UInt32
  /-- The instant of the last roll of the wakeup counters. -/
  lastRoll : Nat
  deriving Repr, Inhabited

namespace HubView

def appOfApp? (v : HubView) (appId : UInt64) : Option Nanoapp :=
  v.apps.find? fun n => n.info.appId == appId

def appOfInstance? (v : HubView) (instanceId : UInt16) : Option Nanoapp :=
  v.apps.find? fun n => n.info.instanceId == instanceId

def instanceOfApp? (v : HubView) (appId : UInt64) : Option UInt16 :=
  (v.appOfApp? appId).map fun n => n.info.instanceId

def infoOfApp? (v : HubView) (appId : UInt64) : Option Info :=
  (v.appOfApp? appId).map Nanoapp.info

def infoOfInstance? (v : HubView) (instanceId : UInt16) : Option Info :=
  (v.appOfInstance? instanceId).map Nanoapp.info

def currentApp? (v : HubView) : Option Nanoapp :=
  v.current.bind v.appOfInstance?

/-- Code that runs now must not start new work: its app is being unloaded, or the hub has
stopped. -/
def currentIsStopping (v : HubView) : Bool :=
  match v.current with
  | some instanceId => v.stopping == some instanceId || !v.shared.running
  | none => !v.shared.running

def dump (v : HubView) : List String :=
  let minutes := (v.shared.now - v.lastRoll) / Clock.second / 60
  let bucketMinutes := v.shared.config.wakeupBucketSeconds.toNat / 60
  ["\nEvent Loop:\n",
    s!"  Max event pool usage: {v.peakUsage}/{v.shared.capacity}\n",
    s!"  Number of low priority events dropped: {v.shared.dropped}\n",
    s!"  Number of undelivered unicast events: {v.undelivered}\n",
    s!"  Nanoapp host wakeup tracking: cycled {minutes} mins ago, " ++
      s!"bucketDuration={bucketMinutes} mins\n",
    "\nNanoapps:\n"] ++
  v.apps.map Nanoapp.stateRecord ++
  (if v.apps.isEmpty then []
    else "\nHost wakeups per bucket (oldest first):\n" :: v.apps.map Nanoapp.wakeupRecord)

def debug (v : HubView) : String :=
  Text.partialRecord "EventLoop"
    [("running", Text.truth v.shared.running),
      ("nanoapps", Text.bracketed (v.apps.map Nanoapp.debug)),
      ("current_app", Text.optional (toString ·) v.current),
      ("stopping_app", Text.optional (toString ·) v.stopping)]

end HubView

end SensorHub
