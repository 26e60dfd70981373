import SensorHub.Decimal.Digits
import SensorHub.Toml.Node
/-!
The numbers of TOML: whole numbers in four bases, which have 64 bits with sign, and fractions.
-/

namespace SensorHub.Toml

/-- Reads what follows a digit in base `base`: further digits, each with or without an
underscore before it. Gives the digits without the underscores. -/
def moreDigits? (base : Nat) : List Char → Option (List Char × List Char)
  | [] => some ([], [])
  | '_' :: c :: rest =>
    if Decimal.isDigit base c then
      (moreDigits? base rest).map fun (ds, rest) => (c :: ds, rest)
    else none
  | c :: rest =>
    if Decimal.isDigit base c then
      (moreDigits? base rest).map fun (ds, rest) => (c :: ds, rest)
    else if c == '_' then none
    else some ([], c :: rest)

/-- Reads digits in base `base`, at least one, with single underscores between them. -/
def digits? (base : Nat) : List Char → Option (List Char × List Char)
  | [] => none
  | c :: rest =>
    if Decimal.isDigit base c then
      (moreDigits? base rest).map fun (ds, rest) => (c :: ds, rest)
    else none

/-- Reads an optional sign: whether it is a minus. -/
def sign : List Char → Bool × List Char
  | '+' :: rest => (false, rest)
  | '-' :: rest => (true, rest)
  | s => (false, s)

/-- Reads a whole number in base ten: a zero, or digits of which the first is not zero. -/
def wholeDigits? : List Char → Option (List Char × List Char)
  | '0' :: rest => some (['0'], rest)
  | s => digits? 10 s

/-- Whole numbers are smaller than this, and not smaller than its negative. -/
def integerBound : Nat := 9223372036854775808

/-- A whole number within 64 bits with sign. -/
def integer64? (n : Int) : Option Node :=
  if -integerBound ≤ n ∧ n < integerBound then some (.integer n) else none

/-- Reads a whole number. Only a number in base ten has a sign. -/
def integer? : List Char → Option (Node × List Char)
  | '0' :: 'x' :: rest => based 16 rest
  | '0' :: 'o' :: rest => based 8 rest
  | '0' :: 'b' :: rest => based 2 rest
  | s =>
    let (negative, s) := sign s
    (wholeDigits? s).bind fun (ds, rest) =>
      let n : Int := Decimal.ofDigits 10 ds
      (integer64? (if negative then -n else n)).map fun node => (node, rest)
where
  based (base : Nat) (s : List Char) : Option (Node × List Char) :=
    (digits? base s).bind fun (ds, rest) =>
      (integer64? (Decimal.ofDigits base ds)).map fun node => (node, rest)

def exponent? (s : List Char) : Option (Int × List Char) :=
  let (negative, s) := sign s
  (digits? 10 s).map fun (ds, rest) =>
    let n : Int := Decimal.ofDigits 10 ds
    (if negative then -n else n, rest)

/-- The number `mantissa · 10 ^ exponent` rounds to infinity in double precision: it reaches
the midpoint between the largest finite number and the next power of two. -/
def overflows (mantissa : Nat) (exponent : Int) : Bool :=
  let bound := (Nat.pow 2 54 - 1) * Nat.pow 2 970
  if mantissa = 0 then false
  else if 0 ≤ exponent then
    if 309 < exponent then true else bound ≤ mantissa * Nat.pow 10 exponent.toNat
  else if (Nat.toDigits 10 mantissa).length < (-exponent).toNat then false
  else bound * Nat.pow 10 (-exponent).toNat ≤ mantissa

/-- The part of `s` that was read when `rest` is what remained. -/
def readPart (s rest : List Char) : String :=
  String.ofList (s.take (s.length - rest.length))

/-- Reads a decimal fraction: a point with digits, an exponent, or both behind a whole number.
A fraction that is too large upwards is refused. -/
def finiteFraction? (s : List Char) : Option (Node × List Char) :=
  let (negative, unsigned) := sign s
  (wholeDigits? unsigned).bind fun (whole, rest) =>
    let finish (digits : List Char) (places : Nat) (exponent : Int) (rest : List Char) :=
      if !negative && overflows (Decimal.ofDigits 10 digits) (exponent - places) then none
      else some (Node.fraction (readPart s rest), rest)
    match rest with
    | '.' :: rest =>
      (digits? 10 rest).bind fun (places, rest) =>
        match rest with
        | 'e' :: more | 'E' :: more =>
          (exponent? more).bind fun (e, rest) => finish (whole ++ places) places.length e rest
        | _ => finish (whole ++ places) places.length 0 rest
    | 'e' :: more | 'E' :: more =>
      (exponent? more).bind fun (e, rest) => finish whole 0 e rest
    | _ => none

/-- Reads `inf` or `nan`, with or without a sign. -/
def specialFraction? (s : List Char) : Option (Node × List Char) :=
  match (sign s).2 with
  | 'i' :: 'n' :: 'f' :: rest => some (.fraction (readPart s rest), rest)
  | 'n' :: 'a' :: 'n' :: rest => some (.fraction (readPart s rest), rest)
  | _ => none

def fraction? (s : List Char) : Option (Node × List Char) :=
  (finiteFraction? s).or (specialFraction? s)

end SensorHub.Toml
