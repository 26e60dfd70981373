/-!
The tree of a TOML document. A table remembers how it came about, because that decides what
may still be added to it: a table under a header is closed to dotted keys, a table made by a
dotted key is closed to headers, and a table made on the way to another header may still get a
header of its own.
-/

namespace SensorHub.Toml

/-- How a table came about. -/
inductive Origin
  /-- By its own header. -/
  | header
  /-- On the way to the table of a longer header. -/
  | path
  /-- By a dotted key. -/
  | dotted
  deriving Repr, DecidableEq, Inhabited

/-- A value or a table. Decimal fractions and moments are kept as they are written. -/
inductive Node
  | text (value : String)
  | integer (value : Int)
  | fraction (literal : String)
  | boolean (value : Bool)
  | moment (literal : String)
  | array (items : List Node)
  | inlineTable (entries : List (String × Node))
  | table (origin : Origin) (entries : List (String × Node))
  /-- An array of tables; its last table is kept apart, because additions go there. -/
  | tables (last : List (String × Node)) (earlier : List (List (String × Node)))
  deriving Inhabited

/-- The entries of a table, in the order in which their keys were first used. -/
abbrev Entries := List (String × Node)

namespace Entries

/-- What `key` stands for. -/
def get? (key : String) : Entries → Option Node
  | [] => none
  | (k, node) :: rest => if k == key then some node else get? key rest

/-- Makes `key` stand for `node`; a new key goes behind all others. -/
def set (key : String) (node : Node) : Entries → Entries
  | [] => [(key, node)]
  | (k, old) :: rest => if k == key then (k, node) :: rest else (k, old) :: set key node rest

/-- Changes the table that `path` leads to by `change`, which is told how that table came
about. Tables missing on the way are made with origin `making`. A dotted key does not enter a
table that has a header, and nothing enters a value. -/
def alter (making : Origin) (change : Origin → Entries → Option Entries) :
    List String → Origin → Entries → Option Entries
  | [], origin, entries => change origin entries
  | key :: path, _, entries =>
    match get? key entries with
    | none =>
      (alter making change path making []).map fun inner =>
        set key (.table making inner) entries
    | some (.table origin inner) =>
      if making = .dotted ∧ origin = .header then none
      else
        (alter making change path origin inner).map fun inner =>
          set key (.table origin inner) entries
    | some (.tables last earlier) =>
      (alter making change path .header last).map fun last =>
        set key (.tables last earlier) entries
    | some _ => none

/-- Adds `node` under a key of one or more parts, of which `path` are all but the last. No key
is used twice, and a table that was not made by a dotted key takes no part of one. -/
def insert (path : List String) (key : String) (node : Node) (origin : Origin)
    (entries : Entries) : Option Entries :=
  alter .dotted
    (fun origin inner =>
      if (origin == .dotted) == path.isEmpty then none
      else if (get? key inner).isSome then none
      else some (set key node inner))
    path origin entries

/-- Opens the table with header `path` and `key`. It may exist already if it was only made on
the way to another one. -/
def openTable (path : List String) (key : String) (root : Entries) : Option Entries :=
  alter .path
    (fun _ entries =>
      match get? key entries with
      | none => some (set key (.table .header []) entries)
      | some (.table .path inner) => some (set key (.table .header inner) entries)
      | some _ => none)
    path .header root

/-- Opens one more table of the array of tables with header `path` and `key`. -/
def openElement (path : List String) (key : String) (root : Entries) : Option Entries :=
  alter .path
    (fun _ entries =>
      match get? key entries with
      | none => some (set key (.tables [] []) entries)
      | some (.tables last earlier) => some (set key (.tables [] (last :: earlier)) entries)
      | some _ => none)
    path .header root

end Entries

end SensorHub.Toml
