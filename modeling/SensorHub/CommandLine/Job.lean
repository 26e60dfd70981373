import SensorHub.Config.File
import SensorHub.Log
/-!
What the program does to the world: it prints, reads files and writes files, and ends. A job is
carried out on the real system or on a directory held as a value.
-/

namespace SensorHub.CommandLine

/-- How a job ends. -/
inductive Ending
  | success
  | failure (reason : String)
  /-- The arguments make no sense. -/
  | misuse
  | fatal (error : Fatal)
  deriving Repr, DecidableEq, Inhabited

namespace Ending

def code : Ending → UInt32
  | .success => 0
  | .failure _ => 1
  | .misuse => 2
  | .fatal _ => 101

def report? : Ending → Option String
  | .success => none
  | .failure reason => some s!"Error: {reason}"
  | .misuse => some "error: invalid arguments"
  | .fatal error => some error.message

end Ending

/-- What is still to be done. -/
inductive Job
  | finish (ending : Ending)
  | print (text : String) (next : Job)
  | readFile (path : String) (next : Except FileFault ByteArray → Job)
  | writeFile (path text : String) (next : Except FileFault Unit → Job)

/-- The files of a directory that has no directories in it. -/
structure Directory where
  files : List (String × ByteArray)

namespace Directory

/-- Where a path leads from the directory. -/
inductive Place
  | directory
  | file (name : String)
  /-- The device that reads as an empty file and forgets what is written to it. -/
  | null
  | nowhere
  deriving Repr, DecidableEq

def longestName : Nat := 255

def longestPath : Nat := 4095

/-- The steps of a path that lead away from where one stands: not the empty ones and not single
dots. -/
def steps (path : String) : List String :=
  (path.splitOn "/").filter fun step => step != "" && step != "."

/-- Follows a path from the directory. A path that starts with a slash does not start here, and
one that ends with a slash or a dot does not lead to a file. -/
def place (path : String) : Place :=
  let isAbsolute := path.startsWith "/"
  let isFolder := path.endsWith "/" || path.endsWith "/."
  if path.utf8ByteSize > longestPath then .nowhere
  else
    match steps path with
    | [] => .directory
    | [".."] => .directory
    | [name] =>
      if isAbsolute || isFolder || name.utf8ByteSize > longestName then .nowhere
      else .file name
    | ["dev", "null"] => if isAbsolute && !isFolder then .null else .nowhere
    | _ => .nowhere

def get? (d : Directory) (name : String) : Option ByteArray :=
  (d.files.find? fun file => file.1 == name).map Prod.snd

def read (d : Directory) (path : String) : Except FileFault ByteArray :=
  match place path with
  | .directory => .error .isDirectory
  | .null => .ok .empty
  | .nowhere => .error .missing
  | .file name => (d.get? name).elim (.error .missing) .ok

/-- The directory once `text` is all there is in the file at `path`. -/
def write (d : Directory) (path text : String) : Except FileFault Directory :=
  match place path with
  | .directory => .error .isDirectory
  | .null => .ok d
  | .nowhere => .error .missing
  | .file name => .ok ⟨(name, text.toUTF8) :: d.files.filter fun file => file.1 != name⟩

end Directory

/-- What came of a job: its ending, what it printed and the directory it left. -/
structure Outcome where
  ending : Ending
  printed : String
  directory : Directory

/-- Carries a job out in a directory. -/
def Job.perform (d : Directory) : Job → Outcome
  | .finish ending => ⟨ending, "", d⟩
  | .print text next =>
    let outcome := next.perform d
    { outcome with printed := text ++ outcome.printed }
  | .readFile path next => (next (d.read path)).perform d
  | .writeFile path text next =>
    match d.write path text with
    | .ok after => (next (.ok ())).perform after
    | .error fault => (next (.error fault)).perform d

end SensorHub.CommandLine
