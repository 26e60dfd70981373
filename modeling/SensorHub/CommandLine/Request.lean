import SensorHub.CommandLine.Argument
import SensorHub.CommandLine.Settings
/-!
What a list of arguments asks for. Arguments are read from left to right: the options before
the command, the command, the options of the command. Help and the version are given as soon
as they are asked for, unless a mistake stands before them.
-/

namespace SensorHub.CommandLine

/-- What is asked for; options that are not given have no value yet. -/
inductive Demand
  | help (topic : Topic)
  | version
  | obey (command : Option Command) (settings : Settings)
  deriving Repr, DecidableEq, Inhabited

namespace Demand

/-- The options read so far. -/
structure Progress where
  settings : Settings
  /-- A value that stands apart from its option is looked at when the next option or the end
  is reached. -/
  waiting : Option (Key × String)
  deriving Repr, DecidableEq, Inhabited

namespace Progress

def empty : Progress :=
  ⟨.empty, none⟩

/-- Looks at the value that waits. -/
def settle? (p : Progress) : Option Settings :=
  match p.waiting with
  | none => some p.settings
  | some (key, text) => p.settings.put? key text

/-- An option with its value attached. -/
def attach? (p : Progress) (key : Key) (text : String) : Option Progress :=
  (p.settle?.bind fun s => s.put? key text).map fun s => ⟨s, none⟩

/-- An option with its value in the next argument, which must be a plain word. -/
def hold? (p : Progress) (key : Key) (next : String) : Option Progress :=
  match Argument.ofString next with
  | .plain word => p.settle?.map fun s => ⟨s, some (key, word)⟩
  | _ => none

end Progress

/-- The topic of the help that stands in `scope`. -/
def ownTopic : Option Command → Topic
  | none => .program
  | some command => .command command

/-- Asks for help or for the version by a flag. Only help has a flag behind a command. -/
def ofFlag? (scope : Option Command) (p : Progress) (isHelp isVersion : Bool) : Option Demand :=
  if isHelp then p.settle?.map fun _ => .help (ownTopic scope)
  else if isVersion && scope.isNone then p.settle?.map fun _ => .version
  else none

/-- Adds the options that stand before a command. -/
def under? (outer : Progress) : Demand → Option Demand
  | .obey command settings => outer.settle?.map fun s => .obey command (settings.within s)
  | demand => some demand

/-- Reads arguments behind the command `scope`, or before any. No result means that they make
no sense. -/
def read? (scope : Option Command) (p : Progress) : List String → Option Demand
  | [] => p.settle?.map (.obey scope)
  | argument :: rest =>
    match Argument.ofString argument with
    | .separator => if rest.isEmpty then p.settle?.map (.obey scope) else none
    | .plain word =>
      if scope.isSome then none
      else if word == "help" then (Topic.ofWords? rest).map .help
      else
        match Command.ofName? word with
        | none => none
        | some command => (read? (some command) .empty rest).bind (under? p)
    | .long name value =>
      match Key.ofName? scope name, value, rest with
      | none, some _, _ => none
      | none, none, _ => ofFlag? scope p (name == "help") (name == "version")
      | some key, some value, rest => (p.attach? key value).bind fun p => read? scope p rest
      | some _, none, [] => none
      | some key, none, next :: rest => (p.hold? key next).bind fun p => read? scope p rest
    | .short letter more =>
      match Key.ofLetter? scope letter, Argument.attached? more, rest with
      | none, _, _ => ofFlag? scope p (letter == 'h') (letter == 'V')
      | some key, some value, rest => (p.attach? key value).bind fun p => read? scope p rest
      | some _, none, [] => none
      | some key, none, next :: rest => (p.hold? key next).bind fun p => read? scope p rest

end Demand

/-- What the program is to do. -/
inductive Request
  | help (topic : Topic)
  | version
  | simulate (config : Option String) (options : Demo.Simulation.Options)
  | generate (output : String)
  | validate (config : Option String)
  deriving Repr, DecidableEq, Inhabited

namespace Request

def defaultOutput : String :=
  (Key.fallback? .output).getD ""

/-- Fills in the options that were not given. Without a command the simulation runs. -/
def ofDemand : Demand → Request
  | .help topic => .help topic
  | .version => .version
  | .obey (some .generate) s => .generate (s.output.getD defaultOutput)
  | .obey (some .validate) s => .validate s.config
  | .obey (some .run) s | .obey none s =>
    let standard := Demo.Simulation.Options.default
    .simulate s.config
      { producers := (s.producers.map UInt64.toNat).getD standard.producers
        eventsPerProducer := s.events.getD standard.eventsPerProducer
        pingEvery := s.pingEvery.getD standard.pingEvery }

/-- What the arguments ask for; no result means that they make no sense. -/
def ofArguments? (arguments : List String) : Option Request :=
  (Demand.read? none .empty arguments).map ofDemand

end Request

end SensorHub.CommandLine
