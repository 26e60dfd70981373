import SensorHub.Hub.Basic
/-!
The obligations of a hub that is at work. A frame is one thing that is still to be done; the
frames of a run form a stack. Routines nest through it: whatever a routine sets off is pushed
above the frame in which the routine goes on.
-/

namespace SensorHub

/-- Who runs a routine that holds the loop. -/
inductive LoopActor
  /-- The code around the hub. -/
  | outside
  /-- The callback of the system event with this number. -/
  | callback (serial : Nat)
  deriving Repr, DecidableEq, Inhabited

/-- Why a routine of the smallest reach runs. -/
inductive Purpose
  /-- A free callback of an event that was dispatched or drained. -/
  | freed (serial : Nat) (sender : UInt16)
  /-- A free callback of an event that never reached dispatch. -/
  | detached (serial : Nat) (sender : UInt16)
  /-- A free callback of a message of an app. -/
  | message (instanceId : UInt16)
  | beforeCycle
  | afterCycle
  | flushMessages (info : Info)
  /-- Code of another thread. -/
  | foreign
  deriving Repr, DecidableEq, Inhabited

/-- Who asked for a load and is owed the answer. -/
inductive LoadClient (σ : Type)
  | routine (actor : LoopActor) (next : Except Refusal UInt16 → Routine σ .loop .nothing)
  /-- A queued request for the app with this identity. -/
  | request (appId : UInt64)

/-- Who runs a routine, and what is owed to whom when it ends. Apps are named by their place in
the registry, which cannot change while their code runs. -/
inductive Actor (σ : Type) : Reach → Answer → Type
  | loop (actor : LoopActor) : Actor σ .loop .nothing
  | handle (purpose : Purpose) : Actor σ .handle .nothing
  | release (kind : ResourceKind) (info : Info) : Actor σ .handle .count
  | start (index : Nat) (stopping : Bool) (client : LoadClient σ) : Actor σ .app .flag
  | entry (index : Nat) (stopping : Bool) (point : EntryPoint) : Actor σ .app .nothing

namespace Actor

variable {σ : Type} {a : Answer}

def index : Actor σ .app a → Nat
  | .start index _ _ => index
  | .entry index _ _ => index

def stopping : Actor σ .app a → Bool
  | .start _ stopping _ => stopping
  | .entry _ stopping _ => stopping

end Actor

/-- One thing that is still to be done. -/
inductive Frame (σ : Type)
  | code {r : Reach} {a : Answer} (actor : Actor σ r a) (routine : Routine σ r a)
  /-- Release evicted events, first one first. -/
  | evict (handles : List Handle)
  | vacate (handle : Handle)
  | enqueue (posting : Posting σ)
  | dispatch (handle : Handle)
  /-- Release the event at a handle without distributing it. -/
  | discard (handle : Handle)
  /-- Offer an event to the apps from a place of the registry on; some app may already have
  received it. -/
  | distribute (posting : Posting σ) (index : Nat) (reached : Bool)
  /-- Count an event as processed by the app at a place, which no longer runs. -/
  | delivered (index : Nat)
  | complete (posting : Posting σ)
  /-- Make an app current again. -/
  | restore (previous : Option UInt16)
  /-- Tell who asked for a load what came of it. -/
  | answer (client : LoadClient σ) (result : Except Refusal UInt16)
  /-- Go on with an unload whose host messages are flushed. -/
  | mark (info : Info) (started : Bool)
  /-- Dispatch everything that is queued. -/
  | flush
  /-- Go on with an unload whose queue is flushed. -/
  | settle (info : Info) (started : Bool) (previous : Option UInt16)
  | remove (index : Nat) (started : Bool)
  /-- Let resource managers release what an app holds, first one first. -/
  | release (load : Nat) (info : Info) (managers : List (Nat × Releaser σ))
  | erase (index load : Nat) (info : Info)
  /-- End an unload: no longer mark the app as stopping. -/
  | unmark (info : Info) (previous : Option UInt16)
  /-- Dispatch the event at a handle in a cycle of its own. -/
  | cycle (handle : Handle)
  /-- Go on with a cycle whose opening hook has run. -/
  | turn (handle : Handle)
  | endCycle
  /-- Dispatch what is queued, with a count of the events so far. -/
  | idle (count : Nat) (actor : LoopActor) (next : Nat → Routine σ .loop .nothing)
  | serve
  | await
  /-- Release everything that is queued. -/
  | drain
  /-- Remove all apps, latest load first. -/
  | clear
  | exit

namespace Frame

variable {σ : Type}

/-- The handles whose slots a frame still has to give back. -/
def held : Frame σ → List Handle
  | .evict handles => handles
  | .vacate handle | .dispatch handle | .discard handle | .cycle handle | .turn handle => [handle]
  | _ => []

end Frame

/-- What comes of working on the uppermost frame. -/
inductive Effect (σ : Type)
  /-- The frame gives way to `frames`. -/
  | go (hub : Hub σ) (frames : List (Frame σ))
  | wait
  /-- The hub does not go on. -/
  | fail (hub : Hub σ) (error : Fatal)

namespace Effect

variable {σ : Type}

/-- Puts frames below those of an effect. -/
def above (effect : Effect σ) (frames : List (Frame σ)) : Effect σ :=
  match effect with
  | .go hub upper => .go hub (upper ++ frames)
  | .wait => .wait
  | .fail hub error => .fail hub error

end Effect

end SensorHub
