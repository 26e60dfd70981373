import SensorHub.Decimal.Digits
/-!
Reading numbers in double precision.
-/

namespace SensorHub.Decimal

/-- The value of `mantissa · 10 ^ exponent`, rounded to the nearest number. Exponents beyond
all finite numbers are cut short. -/
def ofScientific (mantissa : Nat) (exponent : Int) : Float :=
  let size : Int := (Nat.toDigits 10 mantissa).length
  if mantissa = 0 then 0
  else if 400 < size + exponent then 1 / 0
  else if size + exponent < -400 then 0
  else Float.ofScientific mantissa (exponent < 0) exponent.natAbs

/-- Reads a number without sign: digits with an optional point and an optional exponent, or a
name. -/
def unsigned? (s : List Char) : Option Float :=
  match String.ofList (s.map Char.toLower) with
  | "inf" | "infinity" => some (1 / 0)
  | "nan" => some (0 / 0)
  | _ =>
    let whole := s.takeWhile (isDigit 10)
    let (part, rest) :=
      match s.dropWhile (isDigit 10) with
      | '.' :: rest => (rest.takeWhile (isDigit 10), rest.dropWhile (isDigit 10))
      | rest => ([], rest)
    if whole.isEmpty && part.isEmpty then none
    else
      let value (exponent : Int) :=
        ofScientific (ofDigits 10 (whole ++ part)) (exponent - part.length)
      match rest with
      | [] => some (value 0)
      | 'e' :: rest | 'E' :: rest => (whole? rest).map value
      | _ => none

def read? (text : String) : Option Float :=
  match text.toList with
  | '-' :: rest => (unsigned? rest).map fun x => -x
  | '+' :: rest => unsigned? rest
  | s => unsigned? s

end SensorHub.Decimal
