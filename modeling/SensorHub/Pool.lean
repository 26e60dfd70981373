import SensorHub.Log
import SensorHub.Queue
import Std.Data.TreeMap
/-!
The pool: a bounded store of items in slots. Slots come in blocks, and a block is made only
when an item needs it. Free slots wait in a first-in first-out list, so a slot that was given
back longest ago is used first. Handles may be misused; the pool then reports and goes on.
`inspect` is the view of the items.
-/

namespace SensorHub

/-- A pool of at most `maxBlocks` blocks of `blockSize` slots. -/
structure Pool (α : Type) where
  maxBlocks : Nat
  blockSize : Nat
  blocks : Nat
  /-- The items in the slots, by their handles. -/
  items : Std.TreeMap Nat α
  free : Queue Handle
  /-- Slots handed out and not given back, counted in 64 bits: a slot given back too often
  takes the count below zero. -/
  allocated : UInt64
  /-- Allocations refused for want of a slot. -/
  exhausted : UInt64

namespace Pool

variable {α : Type}

def new (maxBlocks blockSize : Nat) : Pool α where
  maxBlocks := maxBlocks
  blockSize := blockSize
  blocks := 0
  items := ∅
  free := .empty
  allocated := 0
  exhausted := 0

/-- The number of slots once every block is made. -/
def capacity (p : Pool α) : Nat :=
  p.maxBlocks * p.blockSize

/-- How many handles the free list can hold. -/
def freeLimit (p : Pool α) : Nat :=
  max p.capacity 1

def isFull (p : Pool α) : Bool :=
  p.capacity ≤ p.allocated.toNat

/-- The slot that `h` designates is made. -/
def isMade (p : Pool α) (h : Handle) : Bool :=
  h.block < p.blocks && h.slot < p.blockSize

def inspect (p : Pool α) (h : Handle) : Option α :=
  p.items[h.raw.toNat]?

def store (p : Pool α) (h : Handle) (item : α) : Pool α :=
  { p with items := p.items.insert h.raw.toNat item }

def clear (p : Pool α) (h : Handle) : Pool α :=
  { p with items := p.items.erase h.raw.toNat }

/-- Removes the item at `h`. The slot stays handed out. -/
def take (p : Pool α) (h : Handle) : Option α × Pool α :=
  (p.inspect h, p.clear h)

/-- Puts a handle behind the others in the free list, unless that is full. -/
def pushFree (p : Pool α) (h : Handle) : Option (Pool α) :=
  if p.free.size < p.freeLimit then some { p with free := p.free.push h } else none

/-- Gives the slot at `h` back, with whatever it still holds. -/
def release (p : Pool α) (h : Handle) : Pool α × List LogRecord :=
  if p.isMade h then
    let p := { p.clear h with allocated := p.allocated - 1 }
    match p.pushFree h with
    | none => (p, [.freeListOverflow h])
    | some p => (p, [])
  else (p, [.unknownHandle h])

/-- Puts `count` slots of a block, from `slot` on, into the free list. Stops at an overflow. -/
def pushSlots (block : Nat) : Nat → Nat → Pool α → Pool α × List LogRecord
  | 0, _, p => (p, [])
  | count + 1, slot, p =>
    match p.pushFree (.ofParts block slot) with
    | none => (p, [.freeListOverflowGrowing block])
    | some p => pushSlots block count (slot + 1) p

def grow (p : Pool α) : Pool α × List LogRecord :=
  let (p, reports) := pushSlots p.blocks p.blockSize 0 p
  ({ p with blocks := p.blocks + 1 },
    reports ++ [.poolGrew (p.blocks + 1) ((p.blocks + 1) * p.blockSize)])

/-- Makes blocks, at most `budget` of them, until a slot is free. -/
def refill : Nat → Pool α → Pool α × List LogRecord
  | 0, p => (p, [])
  | budget + 1, p =>
    if p.free.isEmpty then
      let (p, reports) := p.grow
      let (p, more) := refill budget p
      (p, reports ++ more)
    else (p, [])

/-- Stores `item` at `h`, which came off the free list. -/
def fill (p : Pool α) (h : Handle) (item : α) : Except α Handle × Pool α × List LogRecord :=
  if p.isMade h then (.ok h, { p.store h item with allocated := p.allocated + 1 }, [])
  else (.error item, p, [.unmappedHandle h])

/-- Stores `item` in a free slot, making blocks as needed. An item for which there is no slot
is given back. -/
def allocate (p : Pool α) (item : α) : Except α Handle × Pool α × List LogRecord :=
  let (p, reports) := refill (p.maxBlocks - p.blocks) p
  match p.free.pop? with
  | none => (.error item, { p with exhausted := p.exhausted + 1 }, reports)
  | some (h, free) =>
    let (result, p, more) := { p with free := free }.fill h item
    (result, p, reports ++ more)

def debug (p : Pool α) : String :=
  Text.record "EventPool"
    [("capacity", toString p.capacity), ("allocated", toString p.allocated),
      ("blocks", toString p.blocks)]

theorem compare_raw_eq_iff {h k : Handle} :
    compare h.raw.toNat k.raw.toNat = .eq ↔ h = k := by
  rw [Nat.compare_eq_eq, UInt32.toNat_inj]
  exact ⟨fun e => by cases h; cases k; simp_all, fun e => by rw [e]⟩

@[simp] theorem inspect_new (maxBlocks blockSize : Nat) (k : Handle) :
    (new maxBlocks blockSize : Pool α).inspect k = none := by
  simp [inspect, new]

@[simp] theorem inspect_store (p : Pool α) (h k : Handle) (item : α) :
    (p.store h item).inspect k = if h = k then some item else p.inspect k := by
  simp only [inspect, store, Std.TreeMap.getElem?_insert, compare_raw_eq_iff]

@[simp] theorem inspect_clear (p : Pool α) (h k : Handle) :
    (p.clear h).inspect k = if h = k then none else p.inspect k := by
  simp only [inspect, clear, Std.TreeMap.getElem?_erase, compare_raw_eq_iff]

end Pool

end SensorHub
