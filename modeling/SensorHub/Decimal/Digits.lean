/-!
Runs of digits and the numbers they stand for.
-/

namespace SensorHub.Decimal

/-- The value of a digit; letters of both cases go on from 10. Other characters have none. -/
def digitValue? (c : Char) : Option Nat :=
  if '0' ≤ c ∧ c ≤ '9' then some (c.toNat - 48)
  else if 'a' ≤ c ∧ c ≤ 'f' then some (c.toNat - 87)
  else if 'A' ≤ c ∧ c ≤ 'F' then some (c.toNat - 55)
  else none

/-- The character is a digit in base `base`, which is at most 16. -/
def isDigit (base : Nat) (c : Char) : Bool :=
  match digitValue? c with
  | none => false
  | some d => d < base

/-- The number that `digits` stands for in base `base`. A character that is no digit counts
as zero. -/
def ofDigits (base : Nat) (digits : List Char) : Nat :=
  digits.foldl (fun n c => n * base + (digitValue? c).getD 0) 0

/-- The number that `text` stands for, if it holds decimal digits only and one at least. -/
def natural? (text : List Char) : Option Nat :=
  if text.isEmpty || !text.all (isDigit 10) then none else some (ofDigits 10 text)

/-- The number that decimal digits stand for; a sign may stand in front of them. -/
def whole? : List Char → Option Int
  | '+' :: digits => (natural? digits).map Int.ofNat
  | '-' :: digits => (natural? digits).map fun n => -(n : Int)
  | digits => (natural? digits).map Int.ofNat

end SensorHub.Decimal
