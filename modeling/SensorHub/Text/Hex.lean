/-!
Hexadecimal words as the hub writes them: lower case, zero-padded to a fixed number of places.
-/

namespace SensorHub.Text

/-- The hexadecimal digits of `n`, padded on the left with zeros to at least `width` places. -/
def hexDigits (width n : Nat) : String :=
  let digits := Nat.toDigits 16 n
  String.ofList (List.replicate (width - digits.length) '0' ++ digits)

/-- `hexDigits` behind the mark `0x`. -/
def hex (width n : Nat) : String :=
  "0x" ++ hexDigits width n

end SensorHub.Text
