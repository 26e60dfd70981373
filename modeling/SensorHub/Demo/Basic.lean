import SensorHub.Routine
/-!
Demonstration nanoapps: a sampler smooths raw ticks into readings, a counter counts readings
and pongs, and an echo answers pings. With them come a monitor of the queue's depth and a timer
service.
-/

namespace SensorHub.Demo

/-- A part of a memory. -/
structure Cell (σ α : Type) where
  get : σ → α
  set : α → σ → σ

/-- A raw sample; the payload is a 32-bit number. -/
def sampleTick : UInt16 := EventType.firstUser + 1

/-- A smoothed reading; the payload is a single-precision number. -/
def reading : UInt16 := EventType.firstUser + 2

/-- A request to the echo; the payload is the instance id to reply to. -/
def ping : UInt16 := EventType.firstUser + 3

def pong : UInt16 := EventType.firstUser + 4

def samplerId : UInt64 := 0x4e48000000000001

def counterId : UInt64 := 0x4e48000000000002

def echoId : UInt64 := 0x4e48000000000003

def version : UInt32 := 0x01000000

/-- What a sampler remembers. -/
structure Average where
  value : Float32
  samples : UInt32

namespace Average

def empty : Average :=
  ⟨0, 0⟩

/-- Takes a sample, one of fewer than `2 ^ 32`. The first sixteen weigh equally; from then on the
average moves by a sixteenth of the distance. -/
def add (a : Average) (raw : UInt32) : Average :=
  let samples := a.samples + 1
  let weight := if samples < 16 then samples else 16
  ⟨a.value + (raw.toFloat32 - a.value) / weight.toFloat32, samples⟩

end Average

/-- What a counter counts. -/
structure Tally where
  readings : UInt64
  pongs : UInt64
  deriving Repr, DecidableEq, Inhabited

namespace Tally

def empty : Tally :=
  ⟨0, 0⟩

/-- Counts an event, if it is of a type that is counted. -/
def add (t : Tally) (type : UInt16) : Tally :=
  if type == reading then { t with readings := t.readings + 1 }
  else if type == pong then { t with pongs := t.pongs + 1 }
  else t

end Tally

section Apps

variable {σ : Type}

def registerOnStart (type : UInt16) : Routine σ .app .flag :=
  .register type allGroups fun accepted => .done accepted

/-- Sends the average of the samples so far with every tick. Each 32nd one wakes the host. -/
def sampler (cell : Cell σ Average) (nanoapp : Nanoapp) : App σ where
  nanoapp := nanoapp
  onStart := registerOnStart sampleTick
  onEvent := fun event _ =>
    match event.payload with
    | some (.word32 raw) =>
      .recall fun memory =>
        let average := (cell.get memory).add raw
        let send := .send
          { Event.new reading with payload := some (.single average.value.toBits) } none
          fun _ => .done ()
        .store (cell.set average memory)
          (if average.samples % 32 == 0 then .blame send else send)
    | _ => .done ()
  onEnd := .done ()

def counter (cell : Cell σ Tally) (nanoapp : Nanoapp) : App σ where
  nanoapp := nanoapp
  onStart := registerOnStart reading
  onEvent := fun event _ =>
    .recall fun memory => .store (cell.set ((cell.get memory).add event.type) memory) (.done ())
  onEnd := .done ()

/-- Answers a ping to the instance that it names. -/
def echo (nanoapp : Nanoapp) : App σ where
  nanoapp := nanoapp
  onStart := .done true
  onEvent := fun event _ =>
    match event.payload with
    | some (.word16 replyTo) =>
      if event.type == ping then
        .send { Event.new pong with target := replyTo } none fun _ => .done ()
      else .done ()
    | _ => .done ()
  onEnd := .done ()

/-- Remembers the deepest queue met before a dispatch. -/
def depthMonitor (cell : Cell σ Nat) (pending : Nat) : Routine σ .handle .nothing :=
  .recall fun memory => .store (cell.set (max (cell.get memory) pending) memory) (.done ())

/-- A timer service of which the sampler leaves one timer behind. -/
def timers : Releaser σ where
  kind := .timer
  release := fun info => .done (if info.appId == samplerId then 1 else 0)

end Apps

end SensorHub.Demo
