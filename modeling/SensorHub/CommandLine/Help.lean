import SensorHub.CommandLine.Command
/-!
The help of the program: what it is for, how it is called, and its options in two columns.
-/

namespace SensorHub.CommandLine

def programName : String :=
  "nanohub-sim"

def version : String :=
  "0.3.0"

/-- An entry of a section of the help and what it is about. -/
abbrev HelpRow := String × String

namespace HelpRow

/-- The row on a line, its first column filled with blanks up to `width`. -/
def line (width : Nat) (row : HelpRow) : String :=
  "  " ++ row.1 ++ "".pushn ' ' (width - row.1.length) ++ "  " ++ row.2 ++ "\n"

def ofCommand (command : Command) : HelpRow :=
  (command.name, command.about)

/-- What stands for the value of an option. -/
def placeholder (key : Key) : String :=
  String.ofList (key.name.toList.map fun c => if c == '-' then '_' else c.toUpper)

def ofKey (key : Key) : HelpRow :=
  let letter := key.letter?.elim "    " fun c => s!"-{c}, "
  let fallback := key.fallback?.elim "" fun text => s!" [default: {text}]"
  (s!"{letter}--{key.name} <{placeholder key}>", key.about ++ fallback)

def help : HelpRow :=
  ("-h, --help", "Print help")

def version : HelpRow :=
  ("-V, --version", "Print version")

end HelpRow

/-- A headed list of rows in two columns. -/
def helpSection (title : String) (rows : List HelpRow) : String :=
  let width := (rows.map fun row => row.1.length).foldl max 0
  title ++ ":\n" ++ String.join (rows.map (HelpRow.line width))

namespace Topic

def about : Topic → String
  | .program => "Nanohub simulator - runs an event loop with demo nanoapps and producer threads"
  | .help => "Print this message or the help of the given subcommand(s)"
  | .command c => c.about

def usage : Topic → String
  | .program => s!"Usage: {programName} [OPTIONS] [COMMAND]"
  | .help => s!"Usage: {programName} help [COMMAND]..."
  | .command c => s!"Usage: {programName} {c.name} [OPTIONS]"

def sections : Topic → List String
  | .program =>
    [helpSection "Commands" (Command.all.map HelpRow.ofCommand ++ [("help", about .help)]),
      helpSection "Options" ((Key.among none).map HelpRow.ofKey ++ [.help, .version])]
  | .help => [helpSection "Arguments" [("[COMMAND]...", "Print help for the subcommand(s)")]]
  | .command c =>
    [helpSection "Options" ((Key.among (some c)).map HelpRow.ofKey ++ [.help])]

def text (topic : Topic) : String :=
  topic.about ++ "\n\n" ++ topic.usage ++ "\n\n" ++ "\n".intercalate topic.sections

end Topic

end SensorHub.CommandLine
