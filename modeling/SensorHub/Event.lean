import SensorHub.Nanoapp.Info
/-!
Events. An event names its sender and its target and owns a payload until it is done.
-/

namespace SensorHub

/-- The sender of events that no nanoapp sent. It is never assigned to a nanoapp. -/
def systemId : UInt16 := 0

/-- The target that means every nanoapp registered for the event. It is never assigned to a
nanoapp. -/
def broadcastId : UInt16 := 65535

/-- The group mask that meets every registration. -/
def allGroups : UInt32 := 4294967295

namespace EventType

/-- Broadcast once a nanoapp has started; the payload is its `Info`. -/
def nanoappStarted : UInt16 := 0x0003

/-- Broadcast once a nanoapp is about to end; the payload is its `Info`. -/
def nanoappStopped : UInt16 := 0x0004

/-- The first type that nanoapps may define for themselves. -/
def firstUser : UInt16 := 0x8000

end EventType

/-- Events that carry work for the loop itself. -/
inductive SystemKind
  | shutdown
  | nanoappLoad
  | nanoappUnload
  | messageFree
  | deferred
  deriving Repr, DecidableEq, Inhabited

namespace SystemKind

/-- Every kind, in the order of the event types. -/
def all : List SystemKind :=
  [.shutdown, .nanoappLoad, .nanoappUnload, .messageFree, .deferred]

def eventType : SystemKind → UInt16
  | .shutdown => 0x0100
  | .nanoappLoad => 0x0101
  | .nanoappUnload => 0x0102
  | .messageFree => 0x0103
  | .deferred => 0x0104

def name : SystemKind → String
  | .shutdown => "Shutdown"
  | .nanoappLoad => "NanoappLoad"
  | .nanoappUnload => "NanoappUnload"
  | .messageFree => "MessageFree"
  | .deferred => "Deferred"

def ofName? (name : String) : Option SystemKind :=
  all.find? fun k => k.name == name

end SystemKind

/-- What an event carries. A single-precision number is held by its bits. -/
inductive Payload
  | word32 (value : UInt32)
  | word16 (value : UInt16)
  | single (bits : UInt32)
  | text (value : String)
  | info (value : Info)
  | unit
  deriving Repr, DecidableEq, Inhabited

structure Event where
  type : UInt16
  payload : Option Payload
  lowPriority : Bool
  sender : UInt16
  target : UInt16
  groupMask : UInt32
  /-- The clock stamp of its admission; 0 until then. -/
  stamp : UInt16
  deriving Repr, DecidableEq, Inhabited

namespace Event

/-- A broadcast from the system to all groups, without payload. -/
def new (type : UInt16) : Event where
  type := type
  payload := none
  lowPriority := false
  sender := systemId
  target := broadcastId
  groupMask := allGroups
  stamp := 0

def isBroadcast (e : Event) : Bool :=
  e.target == broadcastId

/-- The event may be evicted to make room for a critical one. -/
def isEvictable (e : Event) : Bool :=
  e.lowPriority && e.sender == systemId

/-- The event that reports a nanoapp's start or stop. -/
def status (type : UInt16) (info : Info) : Event :=
  { new type with payload := some (.info info) }

/-- The event that carries work of kind `kind` for the loop. It is addressed to the system, so
no nanoapp ever receives it. -/
def system (kind : SystemKind) : Event :=
  { new kind.eventType with target := systemId }

/-- An event type as it reads in reports. -/
def typeText (type : UInt16) : String :=
  Text.hex 4 type.toNat

def debug (e : Event) : String :=
  Text.partialRecord "Event"
    [("event_type", typeText e.type), ("has_payload", Text.truth e.payload.isSome),
      ("low_priority", Text.truth e.lowPriority), ("sender", toString e.sender),
      ("target", toString e.target), ("group_mask", Text.hex 8 e.groupMask.toNat),
      ("enqueue_time_ms", toString e.stamp)]

end Event

end SensorHub
