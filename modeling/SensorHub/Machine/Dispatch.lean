import SensorHub.Machine.Loading
/-!
Dispatch. An event is offered to the apps in registry order: a broadcast to those registered
for it, any other event to the one it names. Then it is completed: its free callback runs in
the name of its sender, or its work is done with the loop in hand.
-/

namespace SensorHub.Hub

variable {σ : Type}

def wanted (event : Event) (nanoapp : Nanoapp) : Bool :=
  if event.isBroadcast then nanoapp.registrations.accepts event
  else event.target == nanoapp.info.instanceId

/-- Lets the app at a place handle an event. -/
def deliverTo (hub : Hub σ) (index : Nat) (app : App σ) (serial : Option Nat) (event : Event)
    (hasCallback : Bool) : Hub σ × List (Frame σ) :=
  let info := app.nanoapp.info
  let hub := hub.checkLatency event info.instanceId
  let stopping := hub.isStopping info.instanceId
  let hub := hub.setCurrent (some info.instanceId)
  let point := EntryPoint.event serial
  (hub.record (.entered app.nanoapp.load info.instanceId point stopping),
    [.code (.entry index stopping point) (app.onEvent event hasCallback),
      .delivered index])

/-- Offers an event to the app at a place, or completes it when there is none left. An event
for a single app that is not loaded is counted. -/
def offerTo (hub : Hub σ) (posting : Posting σ) (index : Nat) (reached : Bool) : Effect σ :=
  let event := posting.event
  match hub.apps[index]? with
  | some app =>
    if wanted event app.nanoapp then
      let (hub, frames) :=
        hub.deliverTo index app (some posting.serial) event posting.completion.hasCallback
      .go hub (frames ++ [.distribute posting (index + 1) true])
    else .go hub [.distribute posting (index + 1) reached]
  | none =>
    let missed := !reached && event.target != broadcastId && event.target != systemId
    .go (if missed then hub.countUndelivered event else hub) [.complete posting]

/-- Counts an event as processed; no app is current any more. -/
def finishDelivery (hub : Hub σ) (index : Nat) : Hub σ :=
  (hub.alterApp index Nanoapp.countEvent).setCurrent none

def perform (hub : Hub σ) (serial : Nat) (work : SystemWork σ) : Effect σ :=
  match work with
  | .shutdown =>
    .go ({ hub.log .stopRequested with running := false }.record .stopped) []
  | .load app =>
    let appId := app.nanoapp.info.appId
    if hub.running then hub.load app (.request appId) else .go (hub.log (.loadSkipped appId)) []
  | .unload instanceId force =>
    match hub.unload instanceId force true with
    | (.ok (), hub, frames) => .go hub frames
    | (.error reason, hub, _) => .go (hub.log (.deferredUnloadFailed reason)) []
  | .call _ routine => .go hub [.code (.loop (.callback serial)) routine]

/-- Completes an event. Its free callback runs with the sender as the current app, or with none
if the sender is not loaded; then the app that was current before is current again. -/
def complete (hub : Hub σ) (posting : Posting σ) : Effect σ :=
  let event := posting.event
  match posting.completion with
  | .nothing => .go hub []
  | .free callback =>
    let previous := hub.current
    let hub := hub.setCurrent ((hub.indexOf? event.sender).map fun _ => event.sender)
    .go (hub.record (.freed posting.serial event.type event.payload))
      [.code (.handle (.freed posting.serial event.sender)) (callback event.type event.payload),
        .restore previous]
  | .work work => (hub.record (.worked posting.serial)).perform posting.serial work

/-- Distributes the event at a handle, then gives the slot back. -/
def dispatch (hub : Hub σ) (handle : Handle) : Effect σ :=
  match hub.take handle with
  | (some posting, hub) =>
    .go (hub.record (.distributing posting.serial))
      [.distribute posting 0 false, .vacate handle]
  | (none, hub) => .go (hub.log (.emptyHandle handle)) [.vacate handle]

/-- Completes the event at a handle without distributing it, then gives the slot back. -/
def discard (hub : Hub σ) (handle : Handle) : Effect σ :=
  match hub.take handle with
  | (some posting, hub) => .go hub [.complete posting, .vacate handle]
  | (none, hub) => .go hub [.vacate handle]

/-- Releases an evicted event, then gives its slot back. -/
def releaseEvicted (hub : Hub σ) (handle : Handle) : Hub σ × List (Frame σ) :=
  match hub.take handle with
  | (some posting, hub) =>
    let (hub, frames) := (hub.record (.evicted posting.serial)).detach posting
    (hub, frames ++ [.vacate handle])
  | (none, hub) => (hub, [.vacate handle])

def deliverDirect (hub : Hub σ) (instanceId type : UInt16) (payload : Option Payload) :
    Bool × Hub σ × List (Frame σ) :=
  match hub.indexOf? instanceId with
  | none => (false, hub, [])
  | some index =>
    match hub.apps[index]? with
    | none => (false, hub, [])
    | some app =>
      let event := { Event.new type with
        payload := payload, target := instanceId, stamp := Clock.stamp hub.now }
      (true, hub.deliverTo index app none event false)

/-- Runs a routine in the name of an app, if it is loaded. -/
def freeMessage (hub : Hub σ) (appId : UInt64) (closure : Routine σ .handle .nothing) :
    Bool × Hub σ × List (Frame σ) :=
  match hub.instanceOfApp? appId with
  | none => (false, hub.log (.messageOwnerMissing appId), [])
  | some instanceId =>
    (true, hub.setCurrent (some instanceId),
      [.code (.handle (.message instanceId)) closure, .restore hub.current])

end SensorHub.Hub
