import SensorHub.CommandLine.Basic
/-!
The command line: carries out on this system the job that the arguments stand for.
-/

namespace SensorHub.CommandLine

/-- Why the system refused a file. -/
def faultOf : IO.Error → FileFault
  | .noFileOrDirectory _ _ _ => .missing
  | .inappropriateType _ _ _ => .isDirectory
  | e => .refused (toString e)

def Job.execute : Job → IO Ending
  | .finish ending => return ending
  | .print text next => do
    IO.print text
    next.execute
  | .readFile path next => do
    match ← (IO.FS.readBinFile path).toBaseIO with
    | .ok content => (next (.ok content)).execute
    | .error e => (next (.error (faultOf e))).execute
  | .writeFile path text next => do
    match ← (IO.FS.writeFile path text).toBaseIO with
    | .ok () => (next (.ok ())).execute
    | .error e => (next (.error (faultOf e))).execute

end SensorHub.CommandLine

def main (arguments : List String) : IO UInt32 := do
  let ending ← (SensorHub.CommandLine.job arguments).execute
  for report in ending.report? do
    IO.eprintln report
  return ending.code
