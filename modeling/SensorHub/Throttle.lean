/-!
A windowed rate limiter. A window opens at a hit and lasts one interval; the first hit after it
has expired opens the next. Instants and intervals are nanoseconds.
-/

namespace SensorHub

/-- Allows at most `maxCount` hits per window of length `interval`. -/
structure Throttle where
  interval : Nat
  maxCount : UInt32
  windowStart : Option Nat
  /-- Hits allowed in the open window. -/
  count : UInt32
  deriving Repr, DecidableEq

namespace Throttle

def new (interval : Nat) (maxCount : UInt32) : Throttle :=
  ⟨interval, maxCount, none, 0⟩

/-- The open window still covers `now`. An instant before its start counts as its start. -/
def covers (t : Throttle) (now : Nat) : Bool :=
  match t.windowStart with
  | none => false
  | some start => now - start < t.interval

/-- Opens a new window at `now` unless the open one covers it. -/
def roll (t : Throttle) (now : Nat) : Throttle :=
  if t.covers now then t else { t with windowStart := some now, count := 0 }

/-- Takes a hit at `now` and says whether it is allowed. -/
def allow (t : Throttle) (now : Nat) : Bool × Throttle :=
  let t := t.roll now
  if t.count < t.maxCount then (true, { t with count := t.count + 1 }) else (false, t)

end Throttle

end SensorHub
