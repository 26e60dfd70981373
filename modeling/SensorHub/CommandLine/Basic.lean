import SensorHub.CommandLine.Help
import SensorHub.CommandLine.Job
import SensorHub.CommandLine.Request
import SensorHub.Dump
/-!
The program: the job that a list of arguments stands for.
-/

namespace SensorHub.CommandLine

open Demo (Simulation.Options Simulation.Report)

/-- Goes on with the configuration at `path`; if there is none, the job fails. -/
def withConfig (purpose path : String) (next : Config → Job) : Job :=
  .readFile path fun content =>
    match Config.ofFile content with
    | .ok config => next config
    | .error e => .finish (.failure s!"{purpose} {path}: {e.message}")

def banner (config : Config) (options : Simulation.Options) : String :=
  s!"Nanohub Simulator v{version}\n" ++
    "=====================================\n" ++
    s!"Event pool: {config.eventBlocks} x {config.eventsPerBlock} = " ++
    s!"{config.eventCapacity} events\n" ++
    s!"Producers: {options.producers} x {options.eventsPerProducer} events\n\n"

def results (report : Simulation.Report) : String :=
  "Results:\n" ++
    s!"  Events posted:          {report.posted}\n" ++
    s!"  Events rejected:        {report.rejected}\n" ++
    s!"  Low priority dropped:   {report.dropped}\n" ++
    s!"  Readings received:      {report.readings}\n" ++
    s!"  Pongs received:         {report.pongs}\n" ++
    s!"  Max pending at dispatch: {report.maxPending}\n" ++
    Dump.text report.dump

def simulate (options : Simulation.Options) (config : Config) : Job :=
  .print (banner config options)
    (match Demo.Simulation.run config options with
    | .ok report => .print (results report) (.finish .success)
    | .error (.fatal e) => .finish (.fatal e)
    | .error e => .finish (.failure e.message))

def generate (output : String) : Job :=
  match Config.default.toToml with
  | .error e => .finish (.failure e.message)
  | .ok text =>
    .writeFile output text fun
      | .ok () => .print s!"Generated configuration: {output}\n" (.finish .success)
      | .error fault => .finish (.failure s!"failed to write {output}: {fault.message}")

/-- What is printed of a valid configuration. -/
def summary (path : String) (config : Config) : String :=
  s!"Configuration is valid: {path}\n" ++
    s!"  Event capacity: {config.eventCapacity}\n" ++
    s!"  Eviction target: {config.evictTarget}\n" ++
    s!"  Wakeup buckets: {config.wakeupBuckets} x {config.wakeupBucketSeconds}s\n"

def validate : Option String → Job
  | none => .finish (.failure "validate needs --config <FILE>")
  | some path =>
    withConfig "invalid configuration" path fun config =>
      .print (summary path config) (.finish .success)

namespace Request

/-- How a request is met. -/
def job : Request → Job
  | .help topic => .print topic.text (.finish .success)
  | .version => .print s!"{programName} {CommandLine.version}\n" (.finish .success)
  | .simulate none options => CommandLine.simulate options .default
  | .simulate (some path) options =>
    withConfig "failed to load" path (CommandLine.simulate options)
  | .generate output => CommandLine.generate output
  | .validate config => CommandLine.validate config

end Request

/-- The job that the arguments stand for. -/
def job (arguments : List String) : Job :=
  match Request.ofArguments? arguments with
  | some request => request.job
  | none => .finish .misuse

end SensorHub.CommandLine
