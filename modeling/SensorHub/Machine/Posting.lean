import SensorHub.Machine.Frame
/-!
Posting. A critical event is never dropped: with a full pool other events are evicted for it,
and if there is none the hub fails. Other events are dropped when the pool is full, and refused
when their sender is being unloaded. Once the hub has stopped nothing is queued. An event that
is not queued is released at once, in whatever code posted it.
-/

namespace SensorHub.Hub

variable {σ : Type}

def fail (hub : Hub σ) (error : Fatal) : Effect σ :=
  .fail (hub.log (.fatal error)) error

/-- Releases an event that does not reach the loop: its free callback runs, its work is thrown
away. -/
def detach (hub : Hub σ) (posting : Posting σ) : Hub σ × List (Frame σ) :=
  match posting.completion with
  | .nothing => (hub, [])
  | .free callback =>
    (hub.record (.freed posting.serial posting.event.type posting.event.payload),
      [.code (.handle (.detached posting.serial posting.event.sender))
        (callback posting.event.type posting.event.payload)])
  | .work _ =>
    ((hub.record (.discarded posting.serial)).log (.taskDiscarded posting.event.type), [])

/-- Queues a critical event on a running hub. Events that are evicted for it are released
first, in frames above it. -/
def postRunning (hub : Hub σ) (posting : Posting σ) : Effect σ :=
  match hub.makeRoom with
  | (.found evicted, hub) => .go hub [.evict evicted, .enqueue posting]
  | (.nothing, hub) => hub.fail (.noSpace posting.event.type)
  | (.overflow, hub) => .fail hub .capacityOverflow

def postCritical (hub : Hub σ) (posting : Posting σ) : Effect σ :=
  if hub.running then hub.postRunning posting
  else
    let (hub, frames) := hub.detach posting
    .go hub frames

/-- A critical event as it is posted: from the system, with high priority. -/
def critical (event : Event) : Event :=
  { event with sender := systemId, lowPriority := false }

/-- Posts an event that may be dropped, and says whether it was queued. -/
def postDroppable (hub : Hub σ) (posting : Posting σ) : Bool × Hub σ × List (Frame σ) :=
  let event := posting.event
  if !hub.running then (false, hub.detach posting)
  else if event.sender != systemId && hub.shownStopping == event.sender then
    (false, (hub.log (.senderStopping event.type event.sender)).detach posting)
  else
    match hub.enqueue posting with
    | (true, hub) => (true, hub, [])
    | (false, hub) =>
      let hub := { hub with dropped := hub.dropped + 1 }.record (.dropped posting.serial)
      (false, (hub.log (.dropped event.type event.target)).detach posting)

def announce (hub : Hub σ) (type : UInt16) (load : Nat) (info : Info) : Effect σ :=
  let (posting, hub) := hub.offer .critical (.status type info) .nothing
  (hub.record (.announced posting.serial load type info)).postCritical posting

/-- How work is posted. -/
def wayOf : SystemWork σ → Way
  | .shutdown => .stop
  | .load _ | .unload _ _ | .call _ _ => .system

/-- Queues work for the loop, and says whether it was queued. A hub that has stopped throws the
work away. -/
def request (hub : Hub σ) (work : SystemWork σ) : Bool × Effect σ :=
  let (posting, hub) := hub.offer (wayOf work) (.system work.kind) (.work work)
  if hub.running then (true, hub.postRunning posting)
  else (false, .go (hub.record (.discarded posting.serial)) [])

end SensorHub.Hub
