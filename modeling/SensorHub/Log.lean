import SensorHub.Nanoapp.Refusal
import SensorHub.Event
import SensorHub.Resource
import SensorHub.Pool.Handle
/-!
What the hub reports about itself: one constructor per report, with its level and its text.
-/

namespace SensorHub

/-- How serious a report is. -/
inductive Level
  | debug
  | info
  | warn
  | error
  deriving Repr, DecidableEq, Inhabited

namespace Level

def name : Level → String
  | .debug => "DEBUG"
  | .info => "INFO"
  | .warn => "WARN"
  | .error => "ERROR"

end Level

/-- The errors after which the hub does not go on. -/
inductive Fatal
  /-- A critical event met a full pool from which nothing could be evicted. -/
  | noSpace (type : UInt16)
  /-- A critical event was not admitted although room had been found for it. -/
  | notAdmitted (type : UInt16)
  /-- More memory was to be reserved than can be. -/
  | capacityOverflow
  deriving Repr, DecidableEq, Inhabited

namespace Fatal

def message : Fatal → String
  | .noSpace type => s!"Failed to post critical system event {Event.typeText type}: no space"
  | .notAdmitted type => s!"Failed to post critical system event {Event.typeText type}"
  | .capacityOverflow => "capacity overflow"

end Fatal

/-- A report. -/
inductive LogRecord
  | running (slots : Nat)
  | exiting
  | stopRequested
  | emptyHandle (handle : Handle)
  | undelivered (type sender target : UInt16)
  | delayed (type sender receiver : UInt16) (latency : UInt32)
  | loadRefused (reason : Refusal)
  | startFailed (info : Info)
  | cleanupFailed (reason : Refusal)
  | started (info : Info)
  | nothingToUnload (instanceId : UInt16)
  | systemProtected (instanceId : UInt16)
  | wentAway (instanceId : UInt16)
  | unloaded (info : Info)
  | leftovers (appId : UInt64) (count : UInt32) (kind : ResourceKind)
  | messageOwnerMissing (appId : UInt64)
  | senderStopping (type sender : UInt16)
  | dropped (type target : UInt16)
  | notAllocated (type target : UInt16)
  | nothingToEvict
  | taskDiscarded (type : UInt16)
  | loadSkipped (appId : UInt64)
  | deferredLoadFailed (appId : UInt64) (reason : Refusal)
  | deferredUnloadFailed (reason : Refusal)
  | poolGrew (blocks slots : Nat)
  | freeListOverflow (handle : Handle)
  | freeListOverflowGrowing (block : Nat)
  | unmappedHandle (handle : Handle)
  | unknownHandle (handle : Handle)
  | fatal (error : Fatal)
  deriving Repr, DecidableEq, Inhabited

namespace LogRecord

def level : LogRecord → Level
  | .running _ | .exiting | .started _ => .info
  | .stopRequested | .wentAway _ | .unloaded _ | .dropped _ _ | .loadSkipped _
  | .poolGrew _ _ => .debug
  | .undelivered _ _ _ | .delayed _ _ _ _ | .nothingToUnload _ | .leftovers _ _ _
  | .senderStopping _ _ | .nothingToEvict | .taskDiscarded _ => .warn
  | .emptyHandle _ | .loadRefused _ | .startFailed _ | .cleanupFailed _ | .systemProtected _
  | .messageOwnerMissing _ | .notAllocated _ _ | .deferredLoadFailed _ _
  | .deferredUnloadFailed _ | .freeListOverflow _ | .freeListOverflowGrowing _
  | .unmappedHandle _ | .unknownHandle _ | .fatal _ => .error

def text : LogRecord → String
  | .running slots => s!"[EventLoop] running with {slots} event slots"
  | .exiting => "[EventLoop] exiting"
  | .stopRequested => "[EventLoop] stop requested"
  | .emptyHandle handle => s!"[EventLoop] queued handle {handle.text} is empty"
  | .undelivered type sender target =>
    s!"[EventLoop] dropping event {Event.typeText type} from instance {sender}: " ++
      s!"target instance {target} not loaded"
  | .delayed type sender receiver latency =>
    s!"[EventLoop] delayed event {Event.typeText type} from instance {sender} " ++
      s!"to instance {receiver} took {latency}ms to deliver"
  | .loadRefused reason => s!"[EventLoop::start] {reason.message}"
  | .startFailed info => s!"[EventLoop::start] nanoapp {info.text} failed to start"
  | .cleanupFailed reason => s!"[EventLoop::start] cleanup after failed start: {reason.message}"
  | .started info => s!"[EventLoop::start] started nanoapp {info.text}"
  | .nothingToUnload instanceId =>
    s!"[EventLoop::unload] no nanoapp with instance ID {instanceId}"
  | .systemProtected instanceId =>
    s!"[EventLoop::unload] refusing to unload system nanoapp {instanceId}"
  | .wentAway instanceId =>
    s!"[EventLoop::unload] instance {instanceId} went away during flush"
  | .unloaded info => s!"[EventLoop::unload] unloaded nanoapp {info.text}"
  | .leftovers appId count kind =>
    s!"[EventLoop::unload] App {Info.appIdText appId} had {count} remaining {kind.label} " ++
      "at unload"
  | .messageOwnerMissing appId =>
    s!"[EventLoop] couldn't find app {Info.appIdText appId} for message free callback"
  | .senderStopping type sender =>
    s!"[EventLoop] rejecting event {Event.typeText type} from app instance {sender} " ++
      "because it's stopping"
  | .dropped type target =>
    s!"[EventLoop] dropped low priority event {Event.typeText type} for instance {target}"
  | .notAllocated type target =>
    s!"[EventLoop] failed to allocate event {Event.typeText type} to instance {target}"
  | .nothingToEvict => "[EventLoop] cannot remove any low priority event"
  | .taskDiscarded type =>
    s!"[Event] discarding system callback {Event.typeText type} outside the event loop"
  | .loadSkipped appId =>
    s!"[EventLoop] skipping deferred load of app {Info.appIdText appId}: loop stopped"
  | .deferredLoadFailed appId reason =>
    s!"[EventLoop] deferred load of app {Info.appIdText appId} failed: {reason.message}"
  | .deferredUnloadFailed reason => s!"[EventLoop] deferred unload failed: {reason.message}"
  | .poolGrew blocks slots => s!"[EventPool] grew to {blocks} block(s) ({slots} events)"
  | .freeListOverflow handle => s!"[EventPool] freelist overflow on handle {handle.text}"
  | .freeListOverflowGrowing block =>
    s!"[EventPool] freelist overflow while growing block {block}"
  | .unmappedHandle handle => s!"[EventPool] freelist yielded unmapped handle {handle.text}"
  | .unknownHandle handle => s!"[EventPool] release of unknown handle {handle.text}"
  | .fatal error => s!"FATAL: {error.message}"

end LogRecord

end SensorHub
