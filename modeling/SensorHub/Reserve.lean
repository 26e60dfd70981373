/-!
Memory that is reserved ahead for entries still to come.
-/

namespace SensorHub

/-- Room for `count` entries of `width` bytes can be reserved at once. Where it cannot, whoever asks
for it fails. -/
def canReserve (count width : Nat) : Bool :=
  count * width < 0x8000000000000000

theorem canReserve_iff {count width : Nat} :
    canReserve count width = true ↔ count * width < 0x8000000000000000 :=
  decide_eq_true_iff

end SensorHub
