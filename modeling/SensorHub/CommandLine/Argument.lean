/-!
The shapes of an argument: an option by its name, options by their letters, the mark after
which no option follows, or a plain word.
-/

namespace SensorHub.CommandLine

/-- An argument by its shape. -/
inductive Argument
  | plain (word : String)
  /-- Two dashes and a name, with the value behind the first equals sign, if there is one. -/
  | long (name : String) (value : Option String)
  /-- One dash, a letter and what follows it. -/
  | short (letter : Char) (rest : List Char)
  /-- Two dashes alone. -/
  | separator
  deriving Repr, DecidableEq, Inhabited

namespace Argument

/-- A name, and what stands behind the first equals sign. -/
def splitValue : List Char → List Char × Option (List Char)
  | [] => ([], none)
  | '=' :: value => ([], some value)
  | c :: rest => (c :: (splitValue rest).1, (splitValue rest).2)

/-- The shape of an argument. A single dash alone is a plain word. -/
def ofChars : List Char → Argument
  | ['-', '-'] => .separator
  | '-' :: '-' :: text =>
    .long (String.ofList (splitValue text).1) ((splitValue text).2.map String.ofList)
  | '-' :: letter :: rest => .short letter rest
  | text => .plain (String.ofList text)

def ofString (argument : String) : Argument :=
  ofChars argument.toList

/-- The value behind a letter, without the equals sign that may stand in front of it. -/
def attached? : List Char → Option String
  | [] => none
  | '=' :: value => some (String.ofList value)
  | value => some (String.ofList value)

end Argument

end SensorHub.CommandLine
