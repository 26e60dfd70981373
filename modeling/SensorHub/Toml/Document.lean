import SensorHub.Toml.Moment
import SensorHub.Toml.Quoted
/-!
TOML documents. A document is a sequence of lines that are blank, set a key or open a table.
-/

namespace SensorHub.Toml

/-- Reads a number or a moment. -/
def number? (s : List Char) : Option (Node × List Char) :=
  (moment? s).or ((fraction? s).or (integer? s))

def scalar? (s : List Char) : Option (Node × List Char) :=
  match s with
  | [] => none
  | '"' :: _ => (string? s).map fun (text, rest) => (.text text, rest)
  | '\'' :: _ => (string? s).map fun (text, rest) => (.text text, rest)
  | 't' :: 'r' :: 'u' :: 'e' :: rest => some (.boolean true, rest)
  | 'f' :: 'a' :: 'l' :: 's' :: 'e' :: rest => some (.boolean false, rest)
  | 'i' :: _ => specialFraction? s
  | 'n' :: _ => specialFraction? s
  | c :: _ => if c == '+' || c == '-' || Decimal.isDigit 10 c then number? s else none

/-- Skips blanks, ends of lines and comments between the values of an array. The budget bounds
the number of comments. -/
def skipArrayBlanks : Nat → List Char → Option (List Char)
  | 0, _ => none
  | budget + 1, s =>
    match skipLines s with
    | '#' :: rest => (newline? (skipComment ('#' :: rest))).bind (skipArrayBlanks budget)
    | rest => some rest

/-- Reads the values of an array behind its opening bracket, with `item` for each. A comma may
stand behind the last value. The budget bounds the number of values. -/
def items? (item : List Char → Option (Node × List Char)) :
    Nat → List Char → Option (List Node × List Char)
  | 0, _ => none
  | budget + 1, s =>
    (skipArrayBlanks (s.length + 1) s).bind fun s =>
      match s with
      | ']' :: rest => some ([], rest)
      | s =>
        (item s).bind fun (node, rest) =>
          (skipArrayBlanks (rest.length + 1) rest).bind fun rest =>
            match rest with
            | ',' :: rest =>
              (items? item budget rest).map fun (nodes, rest) => (node :: nodes, rest)
            | ']' :: rest => some ([node], rest)
            | _ => none

/-- Reads the entries of an inline table behind its opening brace and its blanks, with `item`
for each value. The budget bounds the number of entries. -/
def entries? (item : List Char → Option (Node × List Char)) :
    Nat → Entries → List Char → Option (Entries × List Char)
  | 0, _, _ => none
  | budget + 1, entries, s =>
    (key? s).bind fun ((path, key), rest) =>
      (char? '=' rest).bind fun rest =>
        (item (skipBlanks rest)).bind fun (node, rest) =>
          (Entries.insert path key node .header entries).bind fun entries =>
            match skipBlanks rest with
            | ',' :: rest => entries? item budget entries rest
            | '\x7d' :: rest => some (entries, rest)
            | _ => none

/-- Reads a value. `depth` is how many arrays and inline tables may still be nested in it. -/
def value? : Nat → List Char → Option (Node × List Char)
  | 0, s => scalar? s
  | depth + 1, s =>
    match s with
    | '[' :: rest =>
      (items? (value? depth) (rest.length + 1) rest).map fun (nodes, rest) => (.array nodes, rest)
    | '\x7b' :: rest =>
      match skipBlanks rest with
      | '\x7d' :: rest => some (.inlineTable [], rest)
      | inner =>
        (entries? (value? depth) (inner.length + 1) [] inner).map fun (entries, rest) =>
          (.inlineTable entries, rest)
    | s => scalar? s

/-- Reads the end of a line: blanks, a comment, and the line's end or the text's. -/
def lineEnd? (s : List Char) : Option (List Char) :=
  match skipComment (skipBlanks s) with
  | [] => some []
  | rest => newline? rest

/-- A document read so far: all its tables, and the header under which keys are set now. -/
structure Document where
  root : Entries
  header : List String
  deriving Inhabited

namespace Document

def empty : Document :=
  ⟨[], []⟩

def setKey (d : Document) (path : List String) (key : String) (node : Node) : Option Document :=
  (Entries.alter .path (Entries.insert path key node) d.header .header d.root).map fun root =>
    { d with root := root }

def openTable (d : Document) (path : List String) (key : String) : Option Document :=
  (Entries.openTable path key d.root).map fun root => ⟨root, path ++ [key]⟩

def openElement (d : Document) (path : List String) (key : String) : Option Document :=
  (Entries.openElement path key d.root).map fun root => ⟨root, path ++ [key]⟩

end Document

def keyLine? (d : Document) (s : List Char) : Option (Document × List Char) := do
  let ((path, key), s) ← key? s
  let s ← char? '=' s
  let (node, s) ← value? (depthLimit - 1) (skipBlanks s)
  let s ← lineEnd? s
  let d ← d.setKey path key node
  return (d, s)

/-- Reads a line that opens a table, behind its brackets. -/
def tableLine? (d : Document) (s : List Char) : Option (Document × List Char) := do
  let ((path, key), s) ← key? s
  let s ← char? ']' s
  let s ← lineEnd? s
  let d ← d.openTable path key
  return (d, s)

/-- Reads a line that opens an element of an array of tables, behind its brackets. -/
def elementLine? (d : Document) (s : List Char) : Option (Document × List Char) := do
  let ((path, key), s) ← key? s
  let s ← char? ']' s
  let s ← char? ']' s
  let s ← lineEnd? s
  let d ← d.openElement path key
  return (d, s)

/-- Reads lines to the end of the text. The budget bounds their number. -/
def lines? : Nat → Document → List Char → Option Document
  | 0, _, _ => none
  | budget + 1, d, s =>
    match skipBlanks s with
    | [] => some d
    | '[' :: '[' :: rest => (elementLine? d rest).bind fun (d, rest) => lines? budget d rest
    | '[' :: rest => (tableLine? d rest).bind fun (d, rest) => lines? budget d rest
    | s =>
      match newline? s with
      | some rest => lines? budget d rest
      | none =>
        if s.head? = some '#' then (lineEnd? s).bind (lines? budget d)
        else (keyLine? d s).bind fun (d, rest) => lines? budget d rest

/-- Skips the mark with which a text may announce its encoding. -/
def skipMark : List Char → List Char
  | '\ufeff' :: rest => rest
  | s => s

/-- Reads a document: the entries of its top table. -/
def parse? (text : String) : Option Entries :=
  let s := skipMark text.toList
  (lines? (s.length + 1) .empty s).map Document.root

end SensorHub.Toml
