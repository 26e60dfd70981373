/-!
The one-line form in which diagnostic values are shown: a name, then its fields in braces.
A form that leaves fields out ends in two dots.
-/

namespace SensorHub.Text

/-- One shown field: its name and the text of its value. -/
abbrev Field := String × String

def fieldList (fields : List Field) : String :=
  ", ".intercalate (fields.map fun f => f.1 ++ ": " ++ f.2)

/-- A record whose fields are all shown. -/
def record (name : String) (fields : List Field) : String :=
  name ++ " \x7b " ++ fieldList fields ++ " \x7d"

/-- A record of which only some fields are shown. -/
def partialRecord (name : String) (fields : List Field) : String :=
  name ++ " \x7b " ++ fieldList fields ++ ", .. \x7d"

def bracketed (items : List String) : String :=
  "[" ++ ", ".intercalate items ++ "]"

def optional {α : Type} (text : α → String) : Option α → String
  | none => "None"
  | some a => "Some(" ++ text a ++ ")"

def truth (b : Bool) : String :=
  if b then "true" else "false"

end SensorHub.Text
