import SensorHub.Log
/-!
The journal of a hub: everything that happened, in the order in which it happened. Events are
named by the number of the call that posted them and apps by the number of their load, so that
two events or two apps that look alike stay apart.
-/

namespace SensorHub

/-- How an event was posted. -/
inductive Way
  | critical
  | low
  /-- As work for the loop. -/
  | system
  | stop
  deriving Repr, DecidableEq, Inhabited

/-- An entry point of an app. -/
inductive EntryPoint
  | start
  /-- With the number of the event; `none` for an event delivered past the queue. -/
  | event (serial : Option Nat)
  | finish
  deriving Repr, DecidableEq, Inhabited

/-- One thing that happened. -/
inductive Incident
  | logged (report : LogRecord)
  | noted (line : String)
  /-- An event was handed over for posting. -/
  | offered (serial : Nat) (way : Way) (event : Event) (hasCallback : Bool)
  /-- An event was queued at an instant. -/
  | admitted (serial : Nat) (now : Nat)
  /-- A low-priority event found no slot. -/
  | dropped (serial : Nat)
  | evicted (serial : Nat)
  /-- A handle was taken from the front of the queue, with the number of its event. -/
  | popped (handle : Handle) (serial : Option Nat)
  | distributing (serial : Nat)
  /-- A free callback began. -/
  | freed (serial : Nat) (type : UInt16) (payload : Option Payload)
  /-- The work of a system event began. -/
  | worked (serial : Nat)
  | discarded (serial : Nat)
  | stopped
  /-- The status event of a load or an unload was handed over for posting. -/
  | announced (serial load : Nat) (type : UInt16) (info : Info)
  | loaded (load : Nat) (info : Info)
  | entered (load : Nat) (instanceId : UInt16) (point : EntryPoint) (stopping : Bool)
  | left (load : Nat) (point : EntryPoint)
  /-- A resource manager was asked to release what an app holds; managers are named by their
  place in the order of registration. -/
  | released (load : Nat) (kind : ResourceKind) (place : Nat)
  | erased (load : Nat) (instanceId : UInt16)
  | rolled (now : Nat)
  | blamed (load : Nat)
  deriving Repr, DecidableEq, Inhabited

end SensorHub
