import SensorHub.Reserve
/-!
Host wakeups blamed on a nanoapp: a short history of counters, of which the newest is counted
up and all are rolled forward once per period.
-/

namespace SensorHub

/-- Counters of the last periods, newest first, so that the first one is counted up. -/
structure Wakeups where
  newestFirst : List UInt16
  limit : Nat
  deriving Repr, DecidableEq, Inhabited

namespace Wakeups

/-- One empty counter. At least one counter is kept. -/
def new (limit : Nat) : Wakeups :=
  ⟨[0], max limit 1⟩

/-- The bytes of a counter for which room is reserved. -/
def counterWidth : Nat := 2

/-- The history with which an app is loaded. Room for all its counters is reserved at once; there is
no such history if that is more than can be reserved. -/
def new? (limit : Nat) : Option Wakeups :=
  if canReserve (max limit 1) counterWidth then some (new limit) else none

/-- The history of an app that is not loaded yet. -/
def unloaded : Wakeups :=
  new 4

/-- Counts one wakeup; a full counter stays full. -/
def blame (w : Wakeups) : Wakeups :=
  match w.newestFirst with
  | [] => w
  | c :: older => { w with newestFirst := (if c == 65535 then c else c + 1) :: older }

/-- Opens a counter for the next period. The oldest one is forgotten when all are in use. -/
def roll (w : Wakeups) : Wakeups :=
  if w.newestFirst.length == w.limit then
    { w with newestFirst := 0 :: w.newestFirst.dropLast }
  else { w with newestFirst := 0 :: w.newestFirst }

def buckets (w : Wakeups) : List UInt16 :=
  w.newestFirst.reverse

/-- The sum of the counters, in 32 bits. -/
def total (w : Wakeups) : UInt32 :=
  w.buckets.foldl (fun sum c => sum + c.toUInt32) 0

theorem new?_eq_none {limit : Nat} : new? limit = none ↔ 0x4000000000000000 ≤ limit := by
  have hreserve : canReserve (max limit 1) counterWidth = true ↔ limit < 0x4000000000000000 := by
    rw [canReserve_iff, counterWidth]
    omega
  by_cases h : canReserve (max limit 1) counterWidth = true
  · simpa [new?, h] using hreserve.mp h
  · simpa [new?, h] using mt hreserve.mpr h

theorem new?_eq_some {limit : Nat} {w : Wakeups} (h : new? limit = some w) : w = new limit := by
  unfold new? at h
  split at h
  next => exact (Option.some.inj h).symm
  next => cases h

theorem new?_of_lt {limit : Nat} (reserved : limit < 0x4000000000000000) :
    new? limit = some (new limit) := by
  cases h : new? limit with
  | none => exact absurd (new?_eq_none.mp h) (Nat.not_le_of_lt reserved)
  | some w => rw [new?_eq_some h]

end Wakeups

end SensorHub
