import SensorHub.Nanoapp.Registrations
import SensorHub.Nanoapp.Wakeups
/-!
What the hub keeps about a nanoapp, apart from the code it runs.
-/

namespace SensorHub

structure Nanoapp where
  info : Info
  registrations : Registrations
  wakeups : Wakeups
  eventsProcessed : UInt64
  /-- The number of the load that brought the app in, 0 until then. It tells apart apps that
  had the same instance id one after the other. -/
  load : Nat
  deriving Repr, DecidableEq, Inhabited

namespace Nanoapp

/-- An app that is not loaded yet, built for the current interface version. -/
def new (appId : UInt64) (version : UInt32) : Nanoapp where
  info := ⟨appId, version, 0, currentApiVersion, false⟩
  registrations := .empty
  wakeups := .unloaded
  eventsProcessed := 0
  load := 0

/-- The app, built for another interface version. -/
def withTargetApi (n : Nanoapp) (version : UInt32) : Nanoapp :=
  { n with info := { n.info with targetApi := version } }

/-- The app as a system nanoapp, which ordinary unload requests leave alone. -/
def asSystem (n : Nanoapp) : Nanoapp :=
  { n with info := { n.info with isSystem := true } }

/-- The app as it enters the registry. -/
def loaded (n : Nanoapp) (instanceId : UInt16) (wakeups : Wakeups) (load : Nat) : Nanoapp :=
  { n with
    info := { n.info with instanceId := instanceId }
    wakeups := wakeups
    load := load }

def rollWakeups (n : Nanoapp) : Nanoapp :=
  { n with wakeups := n.wakeups.roll }

def blame (n : Nanoapp) : Nanoapp :=
  { n with wakeups := n.wakeups.blame }

def countEvent (n : Nanoapp) : Nanoapp :=
  { n with eventsProcessed := n.eventsProcessed + 1 }

/-- The record of the dump that describes the app. -/
def stateRecord (n : Nanoapp) : String :=
  let i := n.info
  s!"  Id={i.instanceId} appId={Info.appIdText i.appId} ver={Text.hex 8 i.version.toNat} " ++
    s!"targetAPI={Text.hex 8 i.targetApi.toNat} system={Text.truth i.isSystem} " ++
    s!"events={n.eventsProcessed} broadcastRegs={n.registrations.size}\n"

/-- The record of the dump that lists the app's wakeup counters. -/
def wakeupRecord (n : Nanoapp) : String :=
  let buckets := Text.bracketed (n.wakeups.buckets.map toString)
  s!"  Id={n.info.instanceId} {buckets} total={n.wakeups.total}\n"

def debug (n : Nanoapp) : String :=
  Text.partialRecord "Nanoapp"
    [("info", n.info.debug), ("registrations", n.registrations.debug),
      ("events_processed", toString n.eventsProcessed)]

end Nanoapp

end SensorHub
