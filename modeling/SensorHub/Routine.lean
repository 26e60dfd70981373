import SensorHub.Nanoapp.Refusal
import SensorHub.Resource
import SensorHub.View
/-!
The code that runs on a hub: entry points of nanoapps, free callbacks, system callbacks and the
services the hub calls into. A routine is a tree of operations, each with the routine that goes
on from its answer. All code of a run shares one memory of type `σ`.
-/

namespace SensorHub

/-- How much of the hub a routine can reach. -/
inductive Reach
  /-- What every thread can do: post events and look things up. -/
  | handle
  /-- Also what a nanoapp can do for itself. -/
  | app
  /-- Also the loop: the registry and the dispatcher. -/
  | loop
  deriving Repr, DecidableEq, Inhabited

/-- What a routine ends with. -/
inductive Answer
  | nothing
  | flag
  | count
  deriving Repr, DecidableEq, Inhabited

abbrev Answer.Value : Answer → Type
  | .nothing => Unit
  | .flag => Bool
  | .count => UInt32

mutual

/-- Code of reach `r` that ends with an answer `a`. -/
inductive Routine (σ : Type) : Reach → Answer → Type
  | done {r a} (value : a.Value) : Routine σ r a
  /-- Reads the memory. -/
  | recall {r a} (next : σ → Routine σ r a) : Routine σ r a
  | store {r a} (memory : σ) (next : Routine σ r a) : Routine σ r a
  /-- Writes a line into the journal. -/
  | note {r a} (line : String) (next : Routine σ r a) : Routine σ r a
  | pause {r a} (nanoseconds : Nat) (next : Routine σ r a) : Routine σ r a
  | observe {r a} (next : Snapshot → Routine σ r a) : Routine σ r a
  /-- Posts a critical event; the callback gets the payload back once the event is done. -/
  | post {r a} (event : Event)
      (free : Option (UInt16 → Option Payload → Routine σ .handle .nothing))
      (next : Routine σ r a) : Routine σ r a
  /-- Posts an event that may be dropped. The answer says whether it was queued. -/
  | postLow {r a} (event : Event)
      (free : Option (UInt16 → Option Payload → Routine σ .handle .nothing))
      (next : Bool → Routine σ r a) : Routine σ r a
  /-- Queues work for the loop. The answer says whether it was queued. -/
  | request {r a} (work : SystemWork σ) (next : Bool → Routine σ r a) : Routine σ r a
  | lookInward {a} (next : SelfView → Routine σ .app a) : Routine σ .app a
  | send {a} (event : Event)
      (free : Option (UInt16 → Option Payload → Routine σ .handle .nothing))
      (next : Bool → Routine σ .app a) : Routine σ .app a
  | register {a} (type : UInt16) (mask : UInt32) (next : Bool → Routine σ .app a) :
      Routine σ .app a
  | unregister {a} (type : UInt16) (mask : UInt32) (next : Bool → Routine σ .app a) :
      Routine σ .app a
  /-- Blames a wakeup of the host on this app. -/
  | blame {a} (next : Routine σ .app a) : Routine σ .app a
  | inspect {a} (next : HubView → Routine σ .loop a) : Routine σ .loop a
  | start {a} (app : App σ) (next : Except Refusal UInt16 → Routine σ .loop a) :
      Routine σ .loop a
  /-- Unloads an app; a system app only by force. -/
  | unload {a} (instanceId : UInt16) (force : Bool)
      (next : Except Refusal Unit → Routine σ .loop a) : Routine σ .loop a
  /-- Dispatches what is queued, and answers how many events that were. -/
  | runUntilIdle {a} (next : Nat → Routine σ .loop a) : Routine σ .loop a
  /-- Dispatches until the hub is stopped, then clears it. -/
  | run {a} (next : Routine σ .loop a) : Routine σ .loop a
  /-- Delivers an event to one app past the queue. The answer says whether that app is loaded. -/
  | deliver {a} (instanceId : UInt16) (type : UInt16) (payload : Option Payload)
      (next : Bool → Routine σ .loop a) : Routine σ .loop a
  /-- Rolls the wakeup counters if a period is over. -/
  | rollWakeups {a} (next : Routine σ .loop a) : Routine σ .loop a
  /-- Runs a routine on behalf of an app. The answer says whether that app is loaded. -/
  | freeMessage {a} (appId : UInt64) (closure : Routine σ .handle .nothing)
      (next : Bool → Routine σ .loop a) : Routine σ .loop a

/-- A nanoapp: its record and its entry points. -/
structure App (σ : Type) where
  nanoapp : Nanoapp
  /-- Runs once, after the app entered the registry. Ends with whether the app may stay. -/
  onStart : Routine σ .app .flag
  /-- Runs for every delivered event; told whether the event has a free callback. -/
  onEvent : Event → Bool → Routine σ .app .nothing
  /-- Runs once, before a started app leaves the registry. -/
  onEnd : Routine σ .app .nothing

/-- Work that the loop does when the event carrying it is dispatched. -/
inductive SystemWork (σ : Type)
  | shutdown
  | load (app : App σ)
  | unload (instanceId : UInt16) (force : Bool)
  | call (kind : SystemKind) (routine : Routine σ .loop .nothing)

end

instance {σ : Type} {r : Reach} : Inhabited (Routine σ r .nothing) :=
  ⟨.done ()⟩

/-- What a free callback does with the type and the payload of its event. -/
abbrev FreeCallback (σ : Type) :=
  UInt16 → Option Payload → Routine σ .handle .nothing

def App.alter {σ : Type} (change : Nanoapp → Nanoapp) (app : App σ) : App σ :=
  { app with nanoapp := change app.nanoapp }

namespace SystemWork

variable {σ : Type}

def kind : SystemWork σ → SystemKind
  | .shutdown => .shutdown
  | .load _ => .nanoappLoad
  | .unload _ _ => .nanoappUnload
  | .call kind _ => kind

end SystemWork

/-- A resource manager: its domain, and how it releases what an app still holds. It ends with
the number of things released. -/
structure Releaser (σ : Type) where
  kind : ResourceKind
  release : Info → Routine σ .handle .count

structure Collaborators (σ : Type) where
  /-- Runs before a dispatch cycle, with the queued events counting the one to dispatch. -/
  beforeCycle : Nat → Routine σ .handle .nothing
  /-- Runs after a dispatch cycle, with the queued events. -/
  afterCycle : Nat → Routine σ .handle .nothing
  /-- Completes the host messages of an app that goes away. -/
  flushMessages : Info → Routine σ .handle .nothing
  releasers : List (Releaser σ)

namespace Collaborators

variable {σ : Type}

def none : Collaborators σ where
  beforeCycle := fun _ => .done ()
  afterCycle := fun _ => .done ()
  flushMessages := fun _ => .done ()
  releasers := []

/-- The resource managers in the order of release, with their places in the order of
registration: domain by domain, and within a domain as they were registered. -/
def inReleaseOrder (c : Collaborators σ) : List (Nat × Releaser σ) :=
  ResourceKind.all.flatMap fun kind =>
    (c.releasers.zipIdx.filter fun r => r.1.kind == kind).map fun r => (r.2, r.1)

def debug (c : Collaborators σ) : String :=
  Text.partialRecord "Collaborators"
    [("resources", Text.bracketed (c.releasers.map fun r => r.kind.name))]

end Collaborators

end SensorHub
