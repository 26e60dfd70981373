import SensorHub.Demo.Simulation
/-!
The commands of the program and the options that each of them takes.
-/

namespace SensorHub.CommandLine

/-- What the program can be told to do. -/
inductive Command
  | run
  | generate
  | validate
  deriving Repr, DecidableEq, Inhabited

namespace Command

/-- Every command, in the order in which the help lists them. -/
def all : List Command :=
  [.run, .generate, .validate]

def name : Command → String
  | .run => "run"
  | .generate => "gen-config"
  | .validate => "validate"

def about : Command → String
  | .run => "Run the simulation (default)"
  | .generate => "Generate a default configuration file"
  | .validate => "Validate a configuration file"

def ofName? (name : String) : Option Command :=
  all.find? fun c => c.name == name

end Command

/-- An option that takes a value. -/
inductive Key
  | config
  | logLevel
  | producers
  | events
  | pingEvery
  | output
  deriving Repr, DecidableEq, Inhabited

namespace Key

def name : Key → String
  | .config => "config"
  | .logLevel => "log-level"
  | .producers => "producers"
  | .events => "events"
  | .pingEvery => "ping-every"
  | .output => "output"

def letter? : Key → Option Char
  | .config => some 'c'
  | .producers => some 'p'
  | .events => some 'e'
  | .output => some 'o'
  | .logLevel | .pingEvery => none

def about : Key → String
  | .config => "Configuration file path"
  | .logLevel => "Log level (trace, debug, info, warn, error)"
  | .producers => "Number of producer threads"
  | .events => "Events posted by each producer"
  | .pingEvery => "Post a ping every N events (0 to disable)"
  | .output => "Output file path"

/-- The value used where the option is not given. -/
def fallback? : Key → Option String
  | .config => none
  | .logLevel => some "info"
  | .producers => some (toString Demo.Simulation.Options.default.producers)
  | .events => some (toString Demo.Simulation.Options.default.eventsPerProducer)
  | .pingEvery => some (toString Demo.Simulation.Options.default.pingEvery)
  | .output => some "nanohub.toml"

/-- The options of a command, or those that stand before the command. -/
def among : Option Command → List Key
  | none => [.config, .logLevel]
  | some .run => [.config, .producers, .events, .pingEvery]
  | some .generate => [.config, .output]
  | some .validate => [.config]

def ofName? (scope : Option Command) (name : String) : Option Key :=
  (among scope).find? fun key => key.name == name

def ofLetter? (scope : Option Command) (letter : Char) : Option Key :=
  (among scope).find? fun key => key.letter? == some letter

end Key

/-- What help is available on. -/
inductive Topic
  | program
  | help
  | command (command : Command)
  deriving Repr, DecidableEq, Inhabited

/-- The topic that the words after `help` name. -/
def Topic.ofWords? : List String → Option Topic
  | [] => some .program
  | ["help"] => some .help
  | [word] => (Command.ofName? word).map .command
  | _ => none

end SensorHub.CommandLine
