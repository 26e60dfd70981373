import SensorHub.Machine.Step
/-!
A hub at work: its state and the stack of what is still to be done. Other threads act between
two steps; their code is pushed on top and runs to its end before the loop goes on. So no post of
another thread is under way while the loop stops, and the second look into the queue with which a
run ends never finds an event.
-/

namespace SensorHub

/-- A hub and its frames, uppermost first. -/
structure Machine (σ : Type) where
  hub : Hub σ
  frames : List (Frame σ)

inductive Progress (σ : Type)
  | stepped (machine : Machine σ)
  | finished
  /-- The loop waits for an event. -/
  | waiting
  | failed (hub : Hub σ) (error : Fatal)

namespace Machine

variable {σ : Type}

/-- A hub that runs `routine` with the loop in hand. -/
def launch (hub : Hub σ) (routine : Routine σ .loop .nothing) : Machine σ :=
  ⟨hub, [.code (.loop .outside) routine]⟩

def step (m : Machine σ) : Progress σ :=
  match m.frames with
  | [] => .finished
  | frame :: rest =>
    match frame.step m.hub with
    | .go hub frames => .stepped ⟨hub, frames ++ rest⟩
    | .wait => .waiting
    | .fail hub error => .failed hub error

/-- Another thread runs `routine` before the next step. -/
def interrupt (m : Machine σ) (routine : Routine σ .handle .nothing) : Machine σ :=
  { m with frames := .code (.handle .foreign) routine :: m.frames }

inductive Stop
  | finished
  | waiting
  | failed (error : Fatal)
  | unfinished
  deriving Repr, DecidableEq, Inhabited

/-- Steps until the machine cannot go on, at most `budget` times. -/
def advance : Nat → Machine σ → Machine σ × Stop
  | 0, m => (m, .unfinished)
  | budget + 1, m =>
    match m.step with
    | .stepped m => advance budget m
    | .finished => (m, .finished)
    | .waiting => (m, .waiting)
    | .failed hub error => (⟨hub, m.frames⟩, .failed error)

end Machine

end SensorHub
