import SensorHub.Journal
import SensorHub.Peak
import SensorHub.Pool
import SensorHub.Routine
import SensorHub.Throttle
/-!
The hub: its state and the changes to it that run no code of an app or a service.
-/

namespace SensorHub

/-- What is to be done once an event is done. -/
inductive Completion (σ : Type)
  | nothing
  | free (callback : FreeCallback σ)
  | work (work : SystemWork σ)

/-- An event with its completion, under the number of the call that posted it. -/
structure Posting (σ : Type) where
  serial : Nat
  event : Event
  completion : Completion σ

namespace Completion

variable {σ : Type}

def ofCallback : Option (FreeCallback σ) → Completion σ
  | none => .nothing
  | some callback => .free callback

def hasCallback : Completion σ → Bool
  | .free _ => true
  | _ => false

end Completion

/-- What a search for room for a critical event comes to. -/
inductive Room
  /-- There is room, at the latest when the events at `evicted` are released. -/
  | found (evicted : List Handle)
  /-- There is nothing to evict. -/
  | nothing
  /-- Room for as many events as may be evicted at a time cannot be reserved. -/
  | overflow
  deriving Repr, DecidableEq

/-- A hub. What every thread may read is kept apart from what the loop keeps for itself: the
directory repeats the registry, and two words repeat the current and the stopping app. -/
structure Hub (σ : Type) where
  config : Config
  collaborators : Collaborators σ
  pool : Pool (Posting σ)
  /-- The handles of the events that wait for dispatch. -/
  queue : Queue Handle
  running : Bool
  directory : List Info
  dropped : UInt32
  /-- The current app for other threads, `systemId` for none. -/
  shownCurrent : UInt16
  /-- The stopping app for other threads, `systemId` for none. -/
  shownStopping : UInt16
  /-- The registry, oldest load first. -/
  apps : List (App σ)
  current : Option UInt16
  /-- The app that is being unloaded. -/
  stopping : Option UInt16
  /-- Where the search for a free instance id starts. -/
  nextId : UInt16
  peakUsage : Peak UInt64
  undelivered : UInt32
  latencyThrottle : Throttle
  lastRoll : Nat
  /-- The clock in nanoseconds. -/
  now : Nat
  memory : σ
  /-- What happened, latest first. -/
  journal : List Incident
  postings : Nat
  loads : Nat

namespace Hub

variable {σ : Type}

/-- A hub without apps and events that is created at the instant `now`. -/
def create (config : Config) (collaborators : Collaborators σ) (memory : σ) (now : Nat) :
    Hub σ where
  config := config
  collaborators := collaborators
  pool := .new config.eventBlocks.toNat config.eventsPerBlock.toNat
  queue := .empty
  running := true
  directory := []
  dropped := 0
  shownCurrent := systemId
  shownStopping := systemId
  apps := []
  current := none
  stopping := none
  nextId := 1
  peakUsage := ⟨0⟩
  undelivered := 0
  latencyThrottle := .new config.throttleInterval config.throttleCount
  lastRoll := now
  now := now
  memory := memory
  journal := []
  postings := 0
  loads := 0

/-- A hub for a configuration that meets every condition. -/
def new (config : Config) (collaborators : Collaborators σ) (memory : σ) (now : Nat) :
    Except Config.Defect (Hub σ) :=
  match config.defect? with
  | some defect => .error defect
  | none => .ok (create config collaborators memory now)

def record (hub : Hub σ) (incident : Incident) : Hub σ :=
  { hub with journal := incident :: hub.journal }

def log (hub : Hub σ) (report : LogRecord) : Hub σ :=
  hub.record (.logged report)

def logAll (hub : Hub σ) (reports : List LogRecord) : Hub σ :=
  reports.foldl log hub

/-- An instance id as other threads read it. -/
def shown (instanceId : Option UInt16) : UInt16 :=
  instanceId.getD systemId

/-- An instance id as other threads understand it. -/
def ofShown (word : UInt16) : Option UInt16 :=
  if word == systemId then none else some word

def setCurrent (hub : Hub σ) (instanceId : Option UInt16) : Hub σ :=
  { hub with current := instanceId, shownCurrent := shown instanceId }

def setStopping (hub : Hub σ) (instanceId : Option UInt16) : Hub σ :=
  { hub with stopping := instanceId, shownStopping := shown instanceId }

/-- Code of the app must not start new work: the app is being unloaded, or the hub has
stopped. -/
def isStopping (hub : Hub σ) (instanceId : UInt16) : Bool :=
  hub.stopping == some instanceId || !hub.running

def indexOf? (hub : Hub σ) (instanceId : UInt16) : Option Nat :=
  hub.apps.findIdx? fun app => app.nanoapp.info.instanceId == instanceId

def instanceOfApp? (hub : Hub σ) (appId : UInt64) : Option UInt16 :=
  (hub.apps.find? fun app => app.nanoapp.info.appId == appId).map fun app =>
    app.nanoapp.info.instanceId

/-- The number of the load of the app at a place, 0 if there is none. -/
def loadAt (hub : Hub σ) (index : Nat) : Nat :=
  ((hub.apps[index]?).map fun app => app.nanoapp.load).getD 0

def alterApp (hub : Hub σ) (index : Nat) (change : Nanoapp → Nanoapp) : Hub σ :=
  { hub with apps := hub.apps.modify index (App.alter change) }

def snapshot (hub : Hub σ) : Snapshot where
  config := hub.config
  now := hub.now
  running := hub.running
  pending := hub.queue.size
  inFlight := hub.pool.allocated.toNat
  capacity := hub.pool.capacity
  blocks := hub.pool.blocks
  dropped := hub.dropped
  current := ofShown hub.shownCurrent
  stopping := ofShown hub.shownStopping
  directory := hub.directory

def view (hub : Hub σ) : HubView where
  shared := hub.snapshot
  apps := hub.apps.map App.nanoapp
  current := hub.current
  stopping := hub.stopping
  peakUsage := hub.peakUsage.value.toNat
  undelivered := hub.undelivered
  lastRoll := hub.lastRoll

def elapse (hub : Hub σ) (nanoseconds : Nat) : Hub σ :=
  { hub with now := hub.now + nanoseconds }

/-- Numbers an event that is handed over for posting. -/
def offer (hub : Hub σ) (way : Way) (event : Event) (completion : Completion σ) :
    Posting σ × Hub σ :=
  let posting := ⟨hub.postings, event, completion⟩
  (posting,
    { hub with postings := hub.postings + 1 }.record
      (.offered hub.postings way event completion.hasCallback))

/-- Stamps an event and queues it, if the pool has a slot for it. -/
def enqueue (hub : Hub σ) (posting : Posting σ) : Bool × Hub σ :=
  let event := { posting.event with stamp := Clock.stamp hub.now }
  let (result, pool, reports) := hub.pool.allocate { posting with event := event }
  let hub := { hub with pool := pool }.logAll reports
  match result with
  | .ok handle =>
    (true, { hub with queue := hub.queue.push handle }.record (.admitted posting.serial hub.now))
  | .error posting => (false, hub.log (.notAllocated posting.event.type posting.event.target))

def evictable (hub : Hub σ) (handle : Handle) : Bool :=
  match hub.pool.inspect handle with
  | some posting => posting.event.isEvictable
  | none => false

/-- Looks for room for a critical event. With a full pool, evictable events leave the queue,
youngest first and at most as many as the configuration says; they are counted as dropped. A
target of zero evicts nothing and finds nothing wrong. -/
def makeRoom (hub : Hub σ) : Room × Hub σ :=
  let target := hub.config.evictTarget.toNat
  if !hub.pool.isFull || target == 0 then (.found [], hub)
  else
    match hub.queue.removeMatching target hub.evictable with
    | none => (.overflow, hub)
    | some ([], _) => (.nothing, hub.log .nothingToEvict)
    | some (removed, queue) =>
      (.found removed,
        { hub with queue := queue, dropped := hub.dropped + removed.length.toUInt32 })

def pop? (hub : Hub σ) : Option (Handle × Hub σ) :=
  hub.queue.pop?.map fun (handle, queue) =>
    (handle,
      { hub with queue := queue }.record
        (.popped handle ((hub.pool.inspect handle).map Posting.serial)))

def take (hub : Hub σ) (handle : Handle) : Option (Posting σ) × Hub σ :=
  let (posting, pool) := hub.pool.take handle
  (posting, { hub with pool := pool })

def vacate (hub : Hub σ) (handle : Handle) : Hub σ :=
  let (pool, reports) := hub.pool.release handle
  { hub with pool := pool }.logAll reports

def sampleUsage (hub : Hub σ) : Hub σ :=
  { hub with peakUsage := hub.peakUsage.add hub.pool.allocated }

/-- Rolls the wakeup counters of every app if more than a period has passed since the last
roll. -/
def rollWakeups (hub : Hub σ) : Hub σ :=
  if hub.config.wakeupInterval < hub.now - hub.lastRoll then
    { hub with
      lastRoll := hub.now
      apps := hub.apps.map (App.alter Nanoapp.rollWakeups)
    }.record (.rolled hub.now)
  else hub

/-- The first instance id from `candidate` on, in cyclic order, that is neither reserved nor in
use. The budget bounds the candidates. -/
def firstFreeId (used : UInt16 → Bool) : Nat → UInt16 → Option UInt16
  | 0, _ => none
  | budget + 1, candidate =>
    if candidate == systemId || candidate == broadcastId || used candidate then
      firstFreeId used budget (candidate + 1)
    else some candidate

/-- Assigns an instance id. After an assignment the next search starts behind it. -/
def assignId (hub : Hub σ) : Option UInt16 × Hub σ :=
  match firstFreeId (fun id => (hub.indexOf? id).isSome) 65536 hub.nextId with
  | none => (none, hub)
  | some id => (some id, { hub with nextId := id + 1 })

/-- Enters an app into the registry and the directory. -/
def enroll (hub : Hub σ) (app : App σ) (instanceId : UInt16) (wakeups : Wakeups) : Info × Hub σ :=
  let nanoapp := app.nanoapp.loaded instanceId wakeups (hub.loads + 1)
  (nanoapp.info,
    { hub with
      directory := hub.directory ++ [nanoapp.info]
      apps := hub.apps ++ [app.alter fun _ => nanoapp]
      loads := hub.loads + 1
    }.record (.loaded (hub.loads + 1) nanoapp.info))

/-- Removes an app from the registry and the directory: by its place from the one, by its
instance id from the other. -/
def erase (hub : Hub σ) (index load : Nat) (instanceId : UInt16) : Hub σ :=
  { hub with
    directory := hub.directory.filter fun i => i.instanceId != instanceId
    apps := hub.apps.eraseIdx index
  }.record (.erased load instanceId)

/-- Counts an event for one app that is not loaded. A full counter stays full. -/
def countUndelivered (hub : Hub σ) (event : Event) : Hub σ :=
  { hub with
    undelivered := if hub.undelivered == 4294967295 then hub.undelivered else hub.undelivered + 1
  }.log (.undelivered event.type event.sender event.target)

/-- Reports a delivery that comes late, as far as the throttle allows. -/
def checkLatency (hub : Hub σ) (event : Event) (receiver : UInt16) : Hub σ :=
  let latency := Clock.latency (Clock.stamp hub.now) event.stamp
  if hub.config.latencyWarnMillis ≤ latency then
    let (allowed, throttle) := hub.latencyThrottle.allow hub.now
    let hub := { hub with latencyThrottle := throttle }
    if allowed then hub.log (.delayed event.type event.sender receiver latency) else hub
  else hub

end Hub

end SensorHub
