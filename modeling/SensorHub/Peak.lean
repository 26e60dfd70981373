/-!
A statistic that remembers only its largest sample.
-/

namespace SensorHub

/-- The largest value seen so far. -/
structure Peak (α : Type) where
  value : α
  deriving Repr, DecidableEq

namespace Peak

variable {α : Type} [LT α] [DecidableLT α]

/-- Takes a sample. Only a strictly larger one replaces the value, so a sample that compares
with nothing is ignored. -/
def add (p : Peak α) (sample : α) : Peak α :=
  if p.value < sample then ⟨sample⟩ else p

end Peak

end SensorHub
