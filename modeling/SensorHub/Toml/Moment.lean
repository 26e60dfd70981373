import SensorHub.Toml.Number
/-!
The dates and times of TOML.
-/

namespace SensorHub.Toml

/-- Reads a number of exactly `count` digits that lies between `low` and `high`. -/
def fixedNumber? (count low high : Nat) (s : List Char) : Option (Nat × List Char) :=
  let ds := s.take count
  let n := Decimal.ofDigits 10 ds
  if ds.length = count ∧ ds.all (Decimal.isDigit 10) ∧ low ≤ n ∧ n ≤ high then
    some (n, s.drop count)
  else none

def char? (c : Char) : List Char → Option (List Char)
  | [] => none
  | d :: rest => if d == c then some rest else none

def daysIn (year month : Nat) : Nat :=
  if month = 2 then
    if year % 4 = 0 ∧ (year % 100 ≠ 0 ∨ year % 400 = 0) then 29 else 28
  else if month = 4 ∨ month = 6 ∨ month = 9 ∨ month = 11 then 30
  else 31

def date? (s : List Char) : Option (List Char) := do
  let (year, s) ← fixedNumber? 4 0 9999 s
  let s ← char? '-' s
  let (month, s) ← fixedNumber? 2 1 12 s
  let s ← char? '-' s
  let (_, s) ← fixedNumber? 2 1 (daysIn year month) s
  return s

def secondFraction? : List Char → Option (List Char)
  | '.' :: rest =>
    if (rest.takeWhile (Decimal.isDigit 10)).isEmpty then none
    else some (rest.dropWhile (Decimal.isDigit 10))
  | s => some s

/-- Reads a time of day. A minute may have a leap second. -/
def time? (s : List Char) : Option (List Char) := do
  let (_, s) ← fixedNumber? 2 0 23 s
  let s ← char? ':' s
  let (_, s) ← fixedNumber? 2 0 59 s
  let s ← char? ':' s
  let (_, s) ← fixedNumber? 2 0 60 s
  secondFraction? s

/-- Reads the distance from universal time, if one follows. -/
def offset? : List Char → Option (List Char)
  | 'Z' :: rest => some rest
  | 'z' :: rest => some rest
  | '+' :: rest => distance? rest
  | '-' :: rest => distance? rest
  | s => some s
where
  distance? (s : List Char) : Option (List Char) := do
    let (_, s) ← fixedNumber? 2 0 23 s
    let s ← char? ':' s
    let (_, s) ← fixedNumber? 2 0 59 s
    return s

/-- A text that starts with two digits and a colon must go on as a time. -/
def startsTime (s : List Char) : Bool :=
  match fixedNumber? 2 0 23 s with
  | some (_, ':' :: _) => true
  | _ => false

/-- Reads a date, a time or both. Between a date and its time stands a `T` or a space. -/
def moment? (s : List Char) : Option (Node × List Char) :=
  let finish (rest : List Char) := (Node.moment (readPart s rest), rest)
  match date? s with
  | some rest =>
    match rest with
    | c :: more =>
      if (c == 'T' || c == 't' || c == ' ') && startsTime more then
        ((time? more).bind offset?).map finish
      else some (finish rest)
    | [] => some (finish rest)
  | none => (time? s).map finish

end SensorHub.Toml
