import Mathlib.Logic.Function.Basic
import SensorHub.Proofs.Usage

namespace SensorHub

variable {α : Type}

/-- A store as its users see it. -/
structure Store (α : Type) where
  /-- The handles that are out, the one handed out last first. -/
  live : List Handle
  held : Handle → Option α
  refused : Nat
  peak : Nat

namespace Store

open Pool (Use Answer)

variable {s : Store α}

def empty : Store α :=
  ⟨[], fun _ => none, 0, 0⟩

/-- A handle is given back only while it is out. -/
def Permits (s : Store α) : Use α → Prop
  | .release h => h ∈ s.live
  | _ => True

instance (s : Store α) (use : Use α) : Decidable (s.Permits use) :=
  match use with
  | .release h => inferInstanceAs (Decidable (h ∈ s.live))
  | .allocate _ | .inspect _ | .take _ => inferInstanceAs (Decidable True)

def Allows (capacity : Nat) (s : Store α) : Use α → Answer α → Prop
  | .allocate _, .slot (.ok h) => s.live.length < capacity ∧ h ∉ s.live
  | .allocate item, .slot (.error back) => capacity ≤ s.live.length ∧ back = item
  | .inspect h, .item found | .take h, .item found => found = s.held h
  | .release _, .done => True
  | _, _ => False

def after (s : Store α) : Use α → Answer α → Store α
  | .allocate item, .slot (.ok h) =>
    { s with
      live := h :: s.live
      held := Function.update s.held h (some item)
      peak := max s.peak (s.live.length + 1) }
  | .allocate _, _ => { s with refused := s.refused + 1 }
  | .inspect _, _ => s
  | .take h, _ => { s with held := Function.update s.held h none }
  | .release h, _ =>
    { s with live := s.live.erase h, held := Function.update s.held h none }

/-- The pool `p` started without blocks and was used as permitted, and `s` is what its users have
seen of it. -/
inductive Serving (maxBlocks blockSize : Nat) : Pool α → Store α → Prop where
  | start : Serving maxBlocks blockSize (.new maxBlocks blockSize) .empty
  | next {p : Pool α} {s : Store α} (use : Use α) : Serving maxBlocks blockSize p s →
      s.Permits use → Serving maxBlocks blockSize (p.serve use).2.1 (s.after use (p.serve use).1)

/-- How a pool keeps a store. -/
structure Kept (p : Pool α) (s : Store α) : Prop where
  sound : p.Sound s.live
  held : ∀ h, p.inspect h = s.held h
  refused : p.exhausted = .ofNat s.refused
  live_le : s.live.length ≤ s.peak
  peak_le : s.peak ≤ p.blocks * p.blockSize
  /-- The last block was made for want of a slot. -/
  needed : p.blocks * p.blockSize < s.peak + p.blockSize

variable {p : Pool α} {maxBlocks blockSize : Nat}

theorem kept_new (hpos : 0 < blockSize) (hcap : maxBlocks * blockSize ≤ Config.maxCapacity) :
    Kept (.new maxBlocks blockSize : Pool α) .empty where
  sound := Pool.sound_new hpos hcap
  held := Pool.inspect_new maxBlocks blockSize
  refused := rfl
  live_le := Nat.le_refl _
  peak_le := Nat.zero_le _
  needed := by simpa [Pool.new, empty] using hpos

theorem Kept.blocks (hk : Kept p s) :
    p.blocks = (s.peak + p.blockSize - 1) / p.blockSize := by
  have hpos := hk.sound.blockSize_pos
  have hle := hk.peak_le
  have hneeded := hk.needed
  refine (Nat.div_eq_of_lt_le ?_ ?_).symm
  · omega
  · rw [Nat.add_mul]
    omega

/-- An item goes into a slot that is not out, while there is one. -/
theorem Kept.allocate (hk : Kept p s) (item : α) :
    s.Allows p.capacity (.allocate item) (p.serve (.allocate item)).1 ∧
      Kept (p.serve (.allocate item)).2.1
        (s.after (.allocate item) (p.serve (.allocate item)).1) := by
  have hs := hk.sound
  by_cases hfull : s.live.length = p.capacity
  · simp only [Pool.serve, hs.allocate_full hfull item]
    refine ⟨⟨hfull.ge, rfl⟩, ⟨⟨hs.blockSize_pos, hs.capacity_le, hs.blocks_le, hs.nodup, hs.made,
      hs.count, hs.allocated⟩, hk.held, ?_, hk.live_le, hk.peak_le, hk.needed⟩⟩
    show p.exhausted + 1 = .ofNat (s.refused + 1)
    rw [hk.refused, UInt64.ofNat_add]
    rfl
  · obtain ⟨h, free, blocks, reports, heq, hnew, hsound, -, hblocks⟩ := hs.allocate_eq hfull item
    have hle := hs.length_le_capacity
    have hcount := hs.count
    have hlive := hk.live_le
    have hpeak := hk.peak_le
    have hneeded := hk.needed
    have hpos := hs.blockSize_pos
    have hfit : s.live.length + 1 ≤ blocks * p.blockSize := hsound.count ▸ Nat.le_add_left _ _
    simp only [Pool.serve, heq]
    refine ⟨⟨by omega, hnew⟩, ⟨hsound, ?_, hk.refused, Nat.le_max_right _ _, ?_, ?_⟩⟩
    · intro k
      refine (Pool.inspect_store p h k item).trans ?_
      rw [hk.held k]
      simp only [after, Function.update_apply, eq_comm]
    · refine Nat.max_le.mpr ⟨?_, hfit⟩
      rcases hblocks with rfl | ⟨-, rfl⟩
      · exact hpeak
      · show s.peak ≤ (p.blocks + 1) * p.blockSize
        rw [Nat.add_mul]
        omega
    · show blocks * p.blockSize < max s.peak (s.live.length + 1) + p.blockSize
      rcases hblocks with rfl | ⟨hfree, rfl⟩
      · omega
      · rw [hfree, List.length_nil] at hcount
        rw [Nat.add_mul]
        omega

theorem Kept.take (hk : Kept p s) (h : Handle) :
    Kept (p.clear h) { s with held := Function.update s.held h none } where
  sound := ⟨hk.sound.blockSize_pos, hk.sound.capacity_le, hk.sound.blocks_le, hk.sound.nodup,
    hk.sound.made, hk.sound.count, hk.sound.allocated⟩
  held k := by
    rw [Pool.inspect_clear, hk.held k]
    simp only [Function.update_apply, eq_comm]
  refused := hk.refused
  live_le := hk.live_le
  peak_le := hk.peak_le
  needed := hk.needed

theorem Kept.release (hk : Kept p s) {h : Handle} (hm : h ∈ s.live) :
    Kept (p.release h).1
      { s with live := s.live.erase h, held := Function.update s.held h none } := by
  obtain ⟨heq, hsound⟩ := hk.sound.release_eq hm
  rw [heq]
  exact ⟨hsound, (hk.take h).held, hk.refused, (List.length_erase_le ..).trans hk.live_le,
    hk.peak_le, hk.needed⟩

/-- What is permitted is answered rightly, and the pool goes on keeping the store. -/
theorem Kept.serve (hk : Kept p s) {use : Use α} (hp : s.Permits use) :
    s.Allows p.capacity use (p.serve use).1 ∧
      Kept (p.serve use).2.1 (s.after use (p.serve use).1) := by
  cases use with
  | allocate item => exact hk.allocate item
  | inspect h => exact ⟨hk.held h, hk⟩
  | take h => exact ⟨hk.held h, hk.take h⟩
  | release h => exact ⟨trivial, hk.release hp⟩

theorem Serving.kept (hpos : 0 < blockSize) (hcap : maxBlocks * blockSize ≤ Config.maxCapacity)
    (h : Serving maxBlocks blockSize p s) :
    Kept p s ∧ p.maxBlocks = maxBlocks ∧ p.blockSize = blockSize := by
  induction h with
  | start => exact ⟨kept_new hpos hcap, rfl, rfl⟩
  | @next p s use _ hp ih =>
    obtain ⟨hk, hmax, hsize⟩ := ih
    have hsturdy : p.Sturdy := hk.sound.sturdy
    obtain ⟨answer, next, reports, heq, -, hbecomes, -⟩ := hsturdy.serve use
    have hnext := (hk.serve hp).2
    rw [heq] at hnext ⊢
    exact ⟨hnext, hbecomes.maxBlocks.trans hmax, hbecomes.blockSize.trans hsize⟩

/-- A pool is a bounded store. An item is accepted exactly while fewer handles are out than the
pool has slots, under a handle that is not out, and given back otherwise; what a handle is asked
for is what it was given and not yet asked to give up. A handle that is out tells a block and a
slot of the pool. The pool counts the handles that are out and the items it refused, and has made
the blocks that the largest number of handles ever out needs. -/
theorem Serving.refines (hmax : 0 < maxBlocks) (hsize : 0 < blockSize)
    (hcap : maxBlocks * blockSize ≤ Config.maxCapacity) (h : Serving maxBlocks blockSize p s) :
    (∀ use, s.Permits use → s.Allows (maxBlocks * blockSize) use (p.serve use).1) ∧
    s.live.Nodup ∧
    (∀ h ∈ s.live, ∃ block < maxBlocks, ∃ slot < blockSize,
      h = .ofParts block slot ∧ h.block = block ∧ h.slot = slot) ∧
    p.allocated.toNat = s.live.length ∧ p.exhausted = .ofNat s.refused ∧
    p.blocks = (s.peak + blockSize - 1) / blockSize := by
  obtain ⟨hk, rfl, rfl⟩ := h.kept hsize hcap
  refine ⟨fun use hp => (hk.serve hp).1, (List.nodup_append.mp hk.sound.nodup).2.1, fun h hm => ?_,
    hk.sound.allocated, hk.refused, hk.blocks⟩
  have hmade := hk.sound.made h (List.mem_append_right _ hm)
  have hblocks := hk.sound.blocks_le
  simp only [Pool.isMade, Bool.and_eq_true, decide_eq_true_eq] at hmade
  exact ⟨h.block, by omega, h.slot, hmade.2, h.ofParts_block_slot.symm, rfl, rfl⟩

/-- Two blocks of one slot each. The third item is refused, and the slot of the first is used
again once it was given back. -/
theorem Serving.refines_two_slots :
    ∃ (p : Pool Nat) (s : Store Nat), Serving 2 1 p s ∧ s.live = [.ofParts 0 0, .ofParts 1 0] ∧
      s.held (.ofParts 0 0) = some 5 ∧ s.refused = 1 ∧ p.allocated.toNat = s.live.length ∧
      p.exhausted = .ofNat s.refused ∧ p.blocks = (s.peak + 1 - 1) / 1 := by
  have hstart : Serving 2 1 (.new 2 1 : Pool Nat) .empty := .start
  have hfull := ((hstart.next (.allocate 7) trivial).next (.allocate 8) trivial).next
    (.allocate 9) trivial
  have hserving := ((hfull.next (.take (.ofParts 0 0)) trivial).next
    (.release (.ofParts 0 0)) (by decide +kernel)).next (.allocate 5) trivial
  obtain ⟨-, -, -, hallocated, hexhausted, hblocks⟩ :=
    Serving.refines (by decide) (by decide) (by decide) hserving
  exact ⟨_, _, hserving, by decide +kernel, by decide +kernel, by decide +kernel, hallocated,
    hexhausted, hblocks⟩

end Store

end SensorHub
