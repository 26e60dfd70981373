import SensorHub.Event
/-!
The broadcasts a nanoapp subscribes to: per event type the groups it listens to. `groups` is
the view; a type without entry has the empty mask.
-/

namespace SensorHub

/-- Entries of event type and group mask, in the order in which the types were registered. -/
structure Registrations where
  entries : List (UInt16 × UInt32)
  deriving Repr, DecidableEq, Inhabited

namespace Registrations

def empty : Registrations :=
  ⟨[]⟩

/-- The groups of `type` that are listened to. -/
def groups (r : Registrations) (type : UInt16) : UInt32 :=
  match r.entries.find? fun e => e.1 == type with
  | none => 0
  | some e => e.2

/-- Adds `mask` to the first entry for `type`, or a new entry behind all others. -/
def widen (type : UInt16) (mask : UInt32) : List (UInt16 × UInt32) → List (UInt16 × UInt32)
  | [] => [(type, mask)]
  | e :: rest => if e.1 == type then (e.1, e.2 ||| mask) :: rest else e :: widen type mask rest

/-- Takes `mask` from the first entry for `type`; an entry that becomes empty is dropped. -/
def narrow (type : UInt16) (mask : UInt32) : List (UInt16 × UInt32) → List (UInt16 × UInt32)
  | [] => []
  | e :: rest =>
    if e.1 == type then
      if e.2 &&& ~~~mask == 0 then rest else (e.1, e.2 &&& ~~~mask) :: rest
    else e :: narrow type mask rest

/-- Listens to the groups in `mask` too. An empty mask is refused. -/
def register (r : Registrations) (type : UInt16) (mask : UInt32) : Bool × Registrations :=
  if mask == 0 then (false, r) else (true, ⟨widen type mask r.entries⟩)

def isRegistered (r : Registrations) (type : UInt16) : Bool :=
  r.entries.any fun e => e.1 == type

/-- Stops listening to the groups in `mask`. Says whether the type was registered. -/
def unregister (r : Registrations) (type : UInt16) (mask : UInt32) : Bool × Registrations :=
  if r.isRegistered type then (true, ⟨narrow type mask r.entries⟩) else (false, r)

/-- Some entry is for the event's type and shares a group with it. -/
def accepts (r : Registrations) (event : Event) : Bool :=
  r.entries.any fun e => e.1 == event.type && e.2 &&& event.groupMask != 0

def size (r : Registrations) : Nat :=
  r.entries.length

def isEmpty (r : Registrations) : Bool :=
  r.entries.isEmpty

def debug (r : Registrations) : String :=
  Text.record "BroadcastRegistrations"
    [("entries", Text.bracketed (r.entries.map fun e => s!"({e.1}, {e.2})"))]

end Registrations

end SensorHub
