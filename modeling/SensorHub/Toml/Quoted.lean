import SensorHub.Decimal.Digits
/-!
The characters, strings and keys of TOML. A reader takes a text and gives what it read together
with the rest, or nothing if the text does not start as it should.
-/

namespace SensorHub.Toml

def isBlank (c : Char) : Bool :=
  c == ' ' || c == '\t'

/-- A character that may stand in a comment or a string: any but the control characters, of
which only the tab is allowed. -/
def isPrintable (c : Char) : Bool :=
  c == '\t' || (' ' ≤ c && c != '\x7f')

def skipBlanks (s : List Char) : List Char :=
  s.dropWhile isBlank

/-- Reads the end of a line: a line feed, after a carriage return or alone. -/
def newline? : List Char → Option (List Char)
  | '\n' :: rest => some rest
  | '\r' :: '\n' :: rest => some rest
  | _ => none

def skipComment : List Char → List Char
  | '#' :: rest => rest.dropWhile isPrintable
  | s => s

def skipLines : List Char → List Char
  | [] => []
  | '\r' :: '\n' :: rest => skipLines rest
  | c :: rest => if isBlank c || c == '\n' then skipLines rest else c :: rest

/-- Reads `digits` hexadecimal digits as the number of a character. -/
def codePoint (digits : Nat) (s : List Char) : Option (Char × List Char) :=
  let number := s.take digits
  let value := Decimal.ofDigits 16 number
  if number.length = digits ∧ number.all (Decimal.isDigit 16) ∧ value.isValidChar then
    some (Char.ofNat value, s.drop digits)
  else none

/-- Reads what follows the backslash of an escape. -/
def escape? : List Char → Option (Char × List Char)
  | 'b' :: rest => some ('\x08', rest)
  | 'f' :: rest => some ('\x0c', rest)
  | 'n' :: rest => some ('\n', rest)
  | 'r' :: rest => some ('\r', rest)
  | 't' :: rest => some ('\t', rest)
  | '\\' :: rest => some ('\\', rest)
  | '"' :: rest => some ('"', rest)
  | 'u' :: rest => codePoint 4 rest
  | 'U' :: rest => codePoint 8 rest
  | _ => none

/-- Reads a basic string behind its opening quote. The budget bounds the characters read. -/
def basicBody : Nat → List Char → Option (List Char × List Char)
  | 0, _ => none
  | _ + 1, [] => none
  | _ + 1, '"' :: rest => some ([], rest)
  | budget + 1, '\\' :: rest =>
    (escape? rest).bind fun (c, rest) =>
      (basicBody budget rest).map fun (text, rest) => (c :: text, rest)
  | budget + 1, c :: rest =>
    if isPrintable c then
      (basicBody budget rest).map fun (text, rest) => (c :: text, rest)
    else none

/-- Reads a literal string behind its opening quote. -/
def literalBody : List Char → Option (List Char × List Char)
  | [] => none
  | '\'' :: rest => some ([], rest)
  | c :: rest =>
    if isPrintable c then (literalBody rest).map fun (text, rest) => (c :: text, rest)
    else none

/-- Reads the end of a multi-line string: three quotes, before which up to two more belong to
the text. Gives the quotes of the text. -/
def closing? (quote : Char) (s : List Char) : Option (List Char × List Char) :=
  let run := (s.takeWhile (· == quote)).length
  if run < 3 then none else some (List.replicate (min run 5 - 3) quote, s.drop (min run 5))

/-- Reads the backslash that ends a line of a multi-line string, with all blanks and ends of
lines up to the next character of the text. -/
def lineJoin? (s : List Char) : Option (List Char) :=
  (newline? (skipBlanks s)).map skipLines

/-- Reads a multi-line basic string behind its opening quotes. The budget bounds the
characters read. -/
def multilineBasicBody : Nat → List Char → Option (List Char × List Char)
  | 0, _ => none
  | budget + 1, s =>
    match closing? '"' s with
    | some closed => some closed
    | none =>
      match s with
      | [] => none
      | '\\' :: rest =>
        match lineJoin? rest with
        | some rest => multilineBasicBody budget rest
        | none =>
          (escape? rest).bind fun (c, rest) =>
            (multilineBasicBody budget rest).map fun (text, rest) => (c :: text, rest)
      | c :: rest =>
        match newline? (c :: rest) with
        | some rest => (multilineBasicBody budget rest).map fun (text, rest) => ('\n' :: text, rest)
        | none =>
          if isPrintable c then
            (multilineBasicBody budget rest).map fun (text, rest) => (c :: text, rest)
          else none

/-- Reads a multi-line literal string behind its opening quotes. The budget bounds the
characters read. -/
def multilineLiteralBody : Nat → List Char → Option (List Char × List Char)
  | 0, _ => none
  | budget + 1, s =>
    match closing? '\'' s with
    | some closed => some closed
    | none =>
      match newline? s with
      | some rest => (multilineLiteralBody budget rest).map fun (text, rest) => ('\n' :: text, rest)
      | none =>
        match s with
        | [] => none
        | c :: rest =>
          if isPrintable c then
            (multilineLiteralBody budget rest).map fun (text, rest) => (c :: text, rest)
          else none

/-- The end of a line right behind the opening quotes of a multi-line string is not part of
its text. -/
def dropFirstNewline (s : List Char) : List Char :=
  (newline? s).getD s

def string? : List Char → Option (String × List Char)
  | '"' :: '"' :: '"' :: rest =>
    (multilineBasicBody (rest.length + 1) (dropFirstNewline rest)).map fun (text, rest) =>
      (String.ofList text, rest)
  | '"' :: rest =>
    (basicBody (rest.length + 1) rest).map fun (text, rest) => (String.ofList text, rest)
  | '\'' :: '\'' :: '\'' :: rest =>
    (multilineLiteralBody (rest.length + 1) (dropFirstNewline rest)).map fun (text, rest) =>
      (String.ofList text, rest)
  | '\'' :: rest => (literalBody rest).map fun (text, rest) => (String.ofList text, rest)
  | _ => none

def isBare (c : Char) : Bool :=
  c.isAlphanum || c == '_' || c == '-'

/-- Reads one part of a key: bare, or in quotes on one line. -/
def keyPart? : List Char → Option (String × List Char)
  | '"' :: rest =>
    (basicBody (rest.length + 1) rest).map fun (text, rest) => (String.ofList text, rest)
  | '\'' :: rest => (literalBody rest).map fun (text, rest) => (String.ofList text, rest)
  | s =>
    let bare := s.takeWhile isBare
    if bare.isEmpty then none else some (String.ofList bare, s.dropWhile isBare)

/-- Reads the parts of a key, with dots between them and blanks around each. The budget bounds
the number of parts. -/
def keyParts? : Nat → List Char → Option (List String × List Char)
  | 0, _ => none
  | budget + 1, s =>
    (keyPart? (skipBlanks s)).bind fun (part, rest) =>
      match skipBlanks rest with
      | '.' :: rest => (keyParts? budget rest).map fun (parts, rest) => (part :: parts, rest)
      | rest => some ([part], rest)

/-- The least depth at which a document is refused: of keys, and of arrays and inline tables in
each other. -/
def depthLimit : Nat := 80

/-- Reads a key: all parts but the last, and the last. A key of `depthLimit` parts is
refused. -/
def key? (s : List Char) : Option ((List String × String) × List Char) :=
  (keyParts? (depthLimit - 1) s).bind fun (parts, rest) =>
    parts.getLast?.map fun last => ((parts.dropLast, last), rest)

end SensorHub.Toml
