/-!
The shortest decimal that identifies a double-precision number, and the text of it. Of all
decimals with the fewest digits that round to the number, the nearest is taken.
-/

namespace SensorHub.Decimal

/-- A positive number `mantissa · 2 ^ exponent` together with the numbers that round to it: in
units of a quarter of the last place they reach from `4 · mantissa - below` to
`4 · mantissa + 2`, ends included when the mantissa is even. -/
structure Binary where
  mantissa : Nat
  exponent : Int
  below : Nat
  deriving Repr, DecidableEq

/-- The finite positive number with the given exponent field and fraction field. -/
def Binary.ofFields (field fraction : Nat) : Binary :=
  if field = 0 then ⟨fraction, -1074, 2⟩
  else ⟨fraction + Nat.pow 2 52, field - 1075, if fraction = 0 ∧ 1 < field then 1 else 2⟩

namespace Binary

/-- A quarter of the last place, as a fraction, in units of `10 ^ place`. -/
def quarter (b : Binary) (place : Int) : Nat × Nat :=
  (Nat.pow 2 (b.exponent - 2).toNat * Nat.pow 10 (-place).toNat,
    Nat.pow 2 (2 - b.exponent).toNat * Nat.pow 10 place.toNat)

/-- `digits · 10 ^ place` rounds to the number. -/
def roundsFrom (b : Binary) (place : Int) (digits : Nat) : Bool :=
  let (num, den) := b.quarter place
  let low := (4 * b.mantissa - b.below) * num
  let high := (4 * b.mantissa + 2) * num
  if b.mantissa % 2 = 0 then low ≤ digits * den && digits * den ≤ high
  else low < digits * den && digits * den < high

/-- The nearer of the two multiples of `10 ^ place` around the number that round to it. A tie
goes to the larger one. -/
def nearest? (b : Binary) (place : Int) : Option Nat :=
  let (num, den) := b.quarter place
  let value := 4 * b.mantissa * num
  let down := value / den
  match b.roundsFrom place down, b.roundsFrom place (down + 1) with
  | true, true =>
    if value - down * den < (down + 1) * den - value then some down else some (down + 1)
  | true, false => some down
  | false, true => some (down + 1)
  | false, false => none

/-- The place of the leading digit of the number. -/
def leadingPlace (b : Binary) : Int :=
  let scaled :=
    b.mantissa * Nat.pow 2 b.exponent.toNat * Nat.pow 10 400 / Nat.pow 2 (-b.exponent).toNat
  ((Nat.toDigits 10 scaled).length : Int) - 401

/-- Digits and the place of the last of them, for the first grid from `count` digits on that
has a point rounding to the number. -/
def search (b : Binary) (leading : Int) : Nat → Nat → Nat × Int
  | 0, count => (4 * b.mantissa * (b.quarter (leading - count)).1
      / (b.quarter (leading - count)).2, leading - count)
  | budget + 1, count =>
    match b.nearest? (leading - count) with
    | some digits => (digits, leading - count)
    | none => search b leading budget (count + 1)

/-- The shortest digits, and the place of the last of them. -/
def shortest (b : Binary) : Nat × Int :=
  search b b.leadingPlace 17 0

end Binary

def stripZeros (digits : List Char) : List Char :=
  (digits.reverse.dropWhile (· == '0')).reverse

/-- Positional text of digits of which the leading one stands at `place`. There is at least one
digit on each side of the point. -/
def positional (digits : List Char) (place : Int) : String :=
  if place < 0 then
    String.ofList ('0' :: '.' :: List.replicate ((-place).toNat - 1) '0' ++ digits)
  else
    let whole := digits.take (place.toNat + 1)
    let part := digits.drop (place.toNat + 1)
    String.ofList (whole ++ List.replicate (place.toNat + 1 - whole.length) '0' ++
      '.' :: (if part.isEmpty then ['0'] else part))

def scientific (digits : List Char) (place : Int) : String :=
  let part := digits.drop 1
  String.ofList (digits.take 1 ++ (if part.isEmpty then [] else '.' :: part)) ++ s!"e{place}"

/-- The text of a number in double precision: positional when the leading digit stands between
the places -4 and 15, otherwise with an exponent. -/
def text (x : Float) : String :=
  let bits := x.toBits.toNat
  let sign := if bits < Nat.pow 2 63 then "" else "-"
  let field := bits / Nat.pow 2 52 % Nat.pow 2 11
  let fraction := bits % Nat.pow 2 52
  if field = 2047 then (if fraction = 0 then sign ++ "inf" else "NaN")
  else if field = 0 ∧ fraction = 0 then sign ++ "0.0"
  else
    let (number, last) := (Binary.ofFields field fraction).shortest
    let all := Nat.toDigits 10 number
    let place := last + all.length - 1
    let digits := stripZeros all
    sign ++ (if -4 ≤ place ∧ place ≤ 15 then positional digits place else scientific digits place)

end SensorHub.Decimal
