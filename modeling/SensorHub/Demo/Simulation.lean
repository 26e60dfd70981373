import SensorHub.Config.File
import SensorHub.Demo.Basic
import SensorHub.Machine.Basic
/-!
The simulation: a hub with the demonstration apps, producers that flood it with ticks and
pings, and a report. The loop, the producers and the code that ends the simulation take turns.
In which order they do is open; `run` settles on one order. Every thread is taken to start.
-/

namespace SensorHub.Demo.Simulation

/-- How many producers there are and what each of them posts. -/
structure Options where
  producers : Nat
  eventsPerProducer : UInt32
  /-- Every so many events one is a ping; 0 for none. -/
  pingEvery : UInt32
  deriving Repr, DecidableEq, Inhabited

def Options.default : Options :=
  ⟨4, 500, 10⟩

/-- What came of a simulation. -/
structure Report where
  posted : Nat
  rejected : Nat
  readings : UInt64
  pongs : UInt64
  dropped : UInt32
  maxPending : Nat
  /-- The records of the dump. -/
  dump : List String
  deriving Repr, DecidableEq, Inhabited

/-- Why there is no report. -/
inductive Failure
  | invalidConfig (defect : Config.Defect)
  | refused (reason : Refusal)
  | fatal (error : Fatal)
  /-- The loop did not come to rest. -/
  | restless
  deriving Repr, DecidableEq, Inhabited

namespace Failure

def message : Failure → String
  | .invalidConfig defect =>
    s!"invalid event loop configuration: {(ConfigError.invalid defect).message}"
  | .refused reason => reason.message
  | .fatal error => error.message
  | .restless => "event loop did not go idle"

end Failure

/-- The memory of the simulation's code. -/
structure Memory where
  average : Average
  tally : Tally
  depth : Nat
  /-- The instance ids of the counter and the echo. -/
  replyTo : UInt16
  echo : UInt16
  refusal : Option Refusal
  dump : List String

namespace Memory

def empty : Memory :=
  ⟨.empty, .empty, 0, 0, 0, none, []⟩

def averageCell : Cell Memory Average :=
  ⟨Memory.average, fun value memory => { memory with average := value }⟩

def tallyCell : Cell Memory Tally :=
  ⟨Memory.tally, fun value memory => { memory with tally := value }⟩

def depthCell : Cell Memory Nat :=
  ⟨Memory.depth, fun value memory => { memory with depth := value }⟩

end Memory

def collaborators : Collaborators Memory :=
  { Collaborators.none with
    beforeCycle := depthMonitor Memory.depthCell
    releasers := [timers] }

def alter (change : Memory → Memory) (next : Routine Memory .loop .nothing) :
    Routine Memory .loop .nothing :=
  .recall fun memory => .store (change memory) next

/-- Loads an app and goes on with its instance id. Where the load is refused, only the reason
is kept. -/
def startOr (app : App Memory) (next : UInt16 → Routine Memory .loop .nothing) :
    Routine Memory .loop .nothing :=
  .start app fun
    | .ok instanceId => next instanceId
    | .error reason => alter (fun memory => { memory with refusal := some reason }) (.done ())

def startup : Routine Memory .loop .nothing :=
  startOr (sampler Memory.averageCell (.new samplerId version)) fun _ =>
    startOr (counter Memory.tallyCell (.new counterId version)) fun replyTo =>
      startOr (echo (.new echoId version)) fun echo =>
        alter (fun memory => { memory with replyTo := replyTo, echo := echo }) (.done ())

/-- The event that a producer posts as its `seq`th. -/
def event (options : Options) (replyTo echo : UInt16) (seq : UInt32) : Event :=
  if options.pingEvery != 0 && seq % options.pingEvery == 0 then
    { Event.new ping with target := echo, payload := some (.word16 replyTo) }
  else { Event.new sampleTick with payload := some (.word32 (seq * 31 % 1000)) }

/-- Whose turn it is. -/
inductive Turn
  | loop
  | producer (index : Nat)
  /-- The code that ends the simulation once the producers are done. -/
  | closer
  deriving Repr, DecidableEq, Inhabited

/-- The state of a simulation whose apps are loaded. -/
structure State where
  machine : Machine Memory
  /-- The number of the event that each producer posts next. -/
  next : List UInt32
  /-- The loop has been asked to stop. -/
  closed : Bool
  posted : Nat
  rejected : Nat

namespace State

/-- More steps than the loop needs to come to rest after one post. -/
def patience : Nat := 100000

/-- The bytes that are kept of a producer's thread. -/
def producerWidth : Nat := 24

/-- A simulation whose apps have just been loaded; the loop has not dispatched anything yet, and
room is reserved for all producers. -/
def initial (config : Config) (options : Options) : Except Failure State :=
  match Hub.new config collaborators .empty 0 with
  | .error defect => .error (.invalidConfig defect)
  | .ok hub =>
    match (Machine.launch hub startup).advance patience with
    | (machine, .finished) =>
      match machine.hub.memory.refusal with
      | some reason => .error (.refused reason)
      | none =>
        if canReserve options.producers producerWidth then
          .ok ⟨.launch machine.hub (.run (.done ())), List.replicate options.producers 0,
            false, 0, 0⟩
        else .error (.fatal .capacityOverflow)
    | (_, .failed error) => .error (.fatal error)
    | (_, .waiting) | (_, .unfinished) => .error .restless

def post (options : Options) (s : State) (index : Nat) (seq : UInt32) : State :=
  let memory := s.machine.hub.memory
  let event := event options memory.replyTo memory.echo seq
  let (posting, hub) := s.machine.hub.offer .low { event with lowPriority := true } .nothing
  let (queued, hub, frames) := hub.postDroppable posting
  { s with
    machine := ⟨hub, frames ++ s.machine.frames⟩
    next := s.next.set index (seq + 1)
    posted := if queued then s.posted + 1 else s.posted
    rejected := if queued then s.rejected else s.rejected + 1 }

/-- Every producer has posted all its events, and none of them is under way any more. -/
def isQuiet (options : Options) (s : State) : Bool :=
  s.next.all (· == options.eventsPerProducer) && s.machine.hub.pool.allocated == 0

/-- Asks the loop for a dump and then to stop. -/
def close : Routine Memory .handle .nothing :=
  .request
    (.call .deferred
      (.inspect fun view => alter (fun memory => { memory with dump := view.dump }) (.done ())))
    fun _ => .request .shutdown fun _ => .done ()

/-- What comes of a turn. There is no result for a turn of someone who waits or has nothing left
to do. -/
def turn? (options : Options) (s : State) : Turn → Option (Except Failure State)
  | .loop =>
    match s.machine.step with
    | .stepped machine => some (.ok { s with machine := machine })
    | .failed _ error => some (.error (.fatal error))
    | .finished | .waiting => none
  | .producer index =>
    match s.next[index]? with
    | none => none
    | some seq =>
      if seq < options.eventsPerProducer then some (.ok (s.post options index seq)) else none
  | .closer =>
    if s.isQuiet options && !s.closed then
      some (.ok { s with machine := s.machine.interrupt close, closed := true })
    else none

def isOver (s : State) : Bool :=
  s.machine.frames.isEmpty

def report (s : State) : Report :=
  let hub := s.machine.hub
  { posted := s.posted
    rejected := s.rejected
    readings := hub.memory.tally.readings
    pongs := hub.memory.tally.pongs
    dropped := hub.dropped
    maxPending := hub.memory.depth
    dump := hub.memory.dump }

/-- One turn, without effect if there is nothing to do. -/
def take (options : Options) (turn : Turn) (s : State) : Except Failure State :=
  (s.turn? options turn).getD (.ok s)

/-- Turns of the loop until it waits or has ended, at most `budget` of them. -/
def settleWithin (options : Options) : Nat → State → Except Failure State
  | 0, _ => .error .restless
  | budget + 1, s =>
    match s.turn? options .loop with
    | none => .ok s
    | some (.ok s) => settleWithin options budget s
    | some (.error failure) => .error failure

/-- Turns of the loop until it waits or has ended. -/
def settle (options : Options) (s : State) : Except Failure State :=
  s.settleWithin options patience

/-- A producer takes `count` turns; after each of them the loop settles. -/
def produce (options : Options) (index : Nat) : Nat → State → Except Failure State
  | 0, s => .ok s
  | count + 1, s => do
    let s ← s.take options (.producer index)
    let s ← s.settle options
    produce options index count s

/-- The producers from the `index`th on post their events, one after the other. -/
def produceFrom (options : Options) (index : Nat) : Nat → State → Except Failure State
  | 0, s => .ok s
  | count + 1, s => do
    let s ← s.produce options index options.eventsPerProducer.toNat
    produceFrom options (index + 1) count s

end State

def run (config : Config) (options : Options) : Except Failure Report := do
  let s ← State.initial config options
  let s ← s.settle options
  let s ← s.produceFrom options 0 options.producers
  let s ← s.take options .closer
  let s ← s.settle options
  return s.report

end SensorHub.Demo.Simulation
