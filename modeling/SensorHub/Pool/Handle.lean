import SensorHub.Text.Hex
/-!
Handles to pooled events: one word, the block in its upper half and the slot in its lower half.
-/

namespace SensorHub

structure Handle where
  raw : UInt32
  deriving Repr, DecidableEq, Inhabited

namespace Handle

/-- The handle of a slot. Both parts are taken modulo 65536. -/
def ofParts (block slot : Nat) : Handle :=
  ⟨block.toUInt16.toUInt32 <<< 16 ||| slot.toUInt16.toUInt32⟩

def block (h : Handle) : Nat :=
  (h.raw >>> 16).toNat

def slot (h : Handle) : Nat :=
  (h.raw &&& 0xFFFF).toNat

def text (h : Handle) : String :=
  Text.hex 8 h.raw.toNat

end Handle

end SensorHub
