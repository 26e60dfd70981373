import Mathlib.Data.List.Nodup
import Mathlib.Data.List.Perm.Basic
import Mathlib.Data.List.Range
import SensorHub.Config
import SensorHub.Pool

namespace SensorHub

namespace Handle

theorem block_eq (h : Handle) : h.block = h.raw.toNat / 65536 := by
  simp [block, UInt32.toNat_shiftRight, Nat.shiftRight_eq_div_pow]

theorem slot_eq (h : Handle) : h.slot = h.raw.toNat % 65536 := by
  have hmask : (0xFFFF : UInt32).toNat = 2 ^ 16 - 1 := rfl
  rw [slot, UInt32.toNat_and, hmask, Nat.and_two_pow_sub_one_eq_mod]

theorem raw_ofParts {block slot : Nat} (hb : block < 65536) (hs : slot < 65536) :
    (ofParts block slot).raw.toNat = block * 65536 + slot := by
  have hb' : block.toUInt16.toUInt32.toNat = block := by
    simp only [UInt16.toNat_toUInt32, Nat.toUInt16, UInt16.toNat_ofNat']
    omega
  have hs' : slot.toUInt16.toUInt32.toNat = slot := by
    simp only [UInt16.toNat_toUInt32, Nat.toUInt16, UInt16.toNat_ofNat']
    omega
  have hshift : (block.toUInt16.toUInt32 <<< 16).toNat = block <<< 16 := by
    rw [UInt32.toNat_shiftLeft, hb']
    have h16 : (16 : UInt32).toNat % 32 = 16 := rfl
    rw [h16, Nat.shiftLeft_eq]
    omega
  rw [ofParts, UInt32.toNat_or, hshift, hs', ← Nat.shiftLeft_add_eq_or_of_lt (by omega),
    Nat.shiftLeft_eq]

theorem block_ofParts {block slot : Nat} (hb : block < 65536) (hs : slot < 65536) :
    (ofParts block slot).block = block := by
  rw [block_eq, raw_ofParts hb hs]
  omega

theorem slot_ofParts {block slot : Nat} (hb : block < 65536) (hs : slot < 65536) :
    (ofParts block slot).slot = slot := by
  rw [slot_eq, raw_ofParts hb hs]
  omega

@[simp] theorem ofParts_block_slot (h : Handle) : ofParts h.block h.slot = h := by
  have hlt := h.raw.toNat_lt
  have hb : h.block < 65536 := by rw [block_eq]; omega
  have hs : h.slot < 65536 := by rw [slot_eq]; omega
  have hraw : (ofParts h.block h.slot).raw = h.raw := by
    rw [← UInt32.toNat_inj, raw_ofParts hb hs, block_eq, slot_eq]
    omega
  cases h
  exact congrArg mk hraw

end Handle

namespace Pool

variable {α : Type} {p : Pool α} {live : List Handle}

/-- The slots of `live` are the ones handed out, each of them once. -/
structure Sound (p : Pool α) (live : List Handle) : Prop where
  blockSize_pos : 0 < p.blockSize
  capacity_le : p.capacity ≤ Config.maxCapacity
  blocks_le : p.blocks ≤ p.maxBlocks
  nodup : (p.free.toList ++ live).Nodup
  made : ∀ h ∈ p.free.toList ++ live, p.isMade h = true
  count : p.free.toList.length + live.length = p.blocks * p.blockSize
  allocated : p.allocated.toNat = live.length

theorem Sound.perm {other : List Handle} (hs : p.Sound live) (hp : live.Perm other) :
    p.Sound other where
  blockSize_pos := hs.blockSize_pos
  capacity_le := hs.capacity_le
  blocks_le := hs.blocks_le
  nodup := (hp.append_left _).nodup_iff.mp hs.nodup
  made := fun h hm => hs.made h ((hp.append_left _).mem_iff.mpr hm)
  count := hp.length_eq ▸ hs.count
  allocated := hp.length_eq ▸ hs.allocated

theorem Sound.length_le_capacity (hs : p.Sound live) : live.length ≤ p.capacity := by
  have hcount := hs.count
  have hblocks := Nat.mul_le_mul_right p.blockSize hs.blocks_le
  unfold capacity
  omega

theorem Sound.isFull_iff (hs : p.Sound live) : p.isFull = true ↔ live.length = p.capacity := by
  have hle := hs.length_le_capacity
  simp only [isFull, decide_eq_true_eq, hs.allocated]
  omega

theorem sound_new {maxBlocks blockSize : Nat} (hpos : 0 < blockSize)
    (hcap : maxBlocks * blockSize ≤ Config.maxCapacity) :
    (new maxBlocks blockSize : Pool α).Sound [] where
  blockSize_pos := hpos
  capacity_le := hcap
  blocks_le := Nat.zero_le _
  nodup := List.nodup_nil
  made := by simp [new]
  count := by simp [new]
  allocated := rfl

/-- Slots that fit are put into the free list without a report. -/
theorem pushSlots_eq (block count slot : Nat) (p : Pool α)
    (hfit : p.free.size + count ≤ p.freeLimit) :
    ∃ free, pushSlots block count slot p = ({ p with free := free }, []) ∧
      free.toList = p.free.toList ++ (List.range' slot count).map (Handle.ofParts block) := by
  induction count generalizing slot p with
  | zero => exact ⟨p.free, rfl, by simp⟩
  | succ count ih =>
    have hroom : p.free.size < p.freeLimit := by omega
    obtain ⟨free, heq, hlist⟩ := ih (slot + 1) { p with free := p.free.push (.ofParts block slot) } (by
      simp only [Queue.push, freeLimit, capacity] at hfit ⊢
      omega)
    refine ⟨free, ?_, ?_⟩
    · simp only [pushSlots, pushFree, if_pos hroom]
      exact heq
    · rw [hlist, Queue.toList_push, List.range'_succ, List.map_cons, List.append_assoc]
      rfl

/-- A block that is made puts all of its slots into the free list, if that is empty. -/
theorem grow_eq (hcap : p.capacity ≤ Config.maxCapacity) (hfree : p.free.toList = [])
    (hmore : p.blocks < p.maxBlocks) :
    ∃ free, p.grow = ({ p with free := free, blocks := p.blocks + 1 },
        [.poolGrew (p.blocks + 1) ((p.blocks + 1) * p.blockSize)]) ∧
      free.toList = (List.range' 0 p.blockSize).map (Handle.ofParts p.blocks) ∧
      ∀ h ∈ free.toList, h.block = p.blocks ∧ h.slot < p.blockSize := by
  have hone : p.blockSize ≤ p.capacity := Nat.le_mul_of_pos_left _ (by omega)
  have hsize : p.free.size = 0 := by rw [← Queue.length_toList, hfree]; rfl
  simp only [Config.maxCapacity] at hcap
  obtain ⟨free, heq, hlist⟩ := pushSlots_eq p.blocks p.blockSize 0 p (by
    simp only [freeLimit]
    omega)
  rw [hfree, List.nil_append] at hlist
  refine ⟨free, by rw [Pool.grow, heq]; rfl, hlist, ?_⟩
  intro h hm
  rw [hlist, List.mem_map] at hm
  obtain ⟨slot, hslot, rfl⟩ := hm
  rw [List.mem_range'_1] at hslot
  have hblock : p.maxBlocks ≤ p.capacity := Nat.le_mul_of_pos_right _ (by omega)
  rw [Handle.block_ofParts (by omega) (by omega), Handle.slot_ofParts (by omega) (by omega)]
  omega

theorem Sound.grow (hs : p.Sound live) (hfree : p.free.toList = [])
    (hmore : p.blocks < p.maxBlocks) :
    ∃ free, p.grow = ({ p with free := free, blocks := p.blocks + 1 },
        [.poolGrew (p.blocks + 1) ((p.blocks + 1) * p.blockSize)]) ∧
      free.toList ≠ [] ∧ Sound { p with free := free, blocks := p.blocks + 1 } live := by
  have hpos := hs.blockSize_pos
  have hcap := hs.capacity_le
  have hone : p.blockSize ≤ p.capacity := Nat.le_mul_of_pos_left _ (by omega)
  have hblock : p.maxBlocks ≤ p.capacity := Nat.le_mul_of_pos_right _ hpos
  obtain ⟨free, heq, hlist, hnew⟩ := grow_eq hcap hfree hmore
  simp only [Config.maxCapacity] at hcap
  refine ⟨free, heq, ?_, hpos, hs.capacity_le, hmore, ?_, ?_, ?_, hs.allocated⟩
  · rw [hlist]
    simp only [ne_eq, List.map_eq_nil_iff, List.range'_eq_nil_iff]
    omega
  · rw [List.nodup_append]
    refine ⟨?_, (List.nodup_append.mp hs.nodup).2.1, ?_⟩
    · rw [hlist]
      refine (List.nodup_map_iff_inj_on List.nodup_range').mpr ?_
      intro a ha b hb hab
      rw [List.mem_range'_1] at ha hb
      have h := congrArg Handle.slot hab
      rwa [Handle.slot_ofParts (by omega) (by omega), Handle.slot_ofParts (by omega) (by omega)] at h
    · rintro h hm _ hl rfl
      have hmade := hs.made h (List.mem_append_right _ hl)
      simp only [isMade, Bool.and_eq_true, decide_eq_true_eq] at hmade
      have := (hnew h hm).1
      omega
  · intro h hm
    simp only [isMade, Bool.and_eq_true, decide_eq_true_eq]
    rcases List.mem_append.mp hm with hm | hm
    · have := hnew h hm
      omega
    · have hmade := hs.made h (List.mem_append_right _ hm)
      simp only [isMade, Bool.and_eq_true, decide_eq_true_eq] at hmade
      omega
  · have hcount := hs.count
    simp only [hfree, List.length_nil] at hcount
    show free.toList.length + live.length = (p.blocks + 1) * p.blockSize
    rw [hlist, List.length_map, List.length_range', Nat.add_mul]
    omega

/-- Once blocks are made as needed, a slot is free unless every slot is handed out. A block is
made only if no slot was free. Nothing else about the pool changes, and its growth is all there is
to report. -/
theorem Sound.refill (hs : p.Sound live) :
    ∃ free blocks reports, refill (p.maxBlocks - p.blocks) p =
        ({ p with free := free, blocks := blocks }, reports) ∧
      Sound { p with free := free, blocks := blocks } live ∧
      (free.toList = [] ↔ live.length = p.capacity) ∧
      (∀ r ∈ reports, ∃ blocks slots, r = .poolGrew blocks slots) ∧
      (live.length = p.capacity → free = p.free ∧ blocks = p.blocks ∧ reports = []) ∧
      (blocks = p.blocks ∨ p.free.toList = [] ∧ blocks = p.blocks + 1) := by
  have hcount := hs.count
  have hpos := hs.blockSize_pos
  have hempty : p.free.isEmpty = true ↔ p.free.toList = [] := by
    rw [Queue.isEmpty, beq_iff_eq, ← Queue.length_toList, List.length_eq_zero_iff]
  by_cases hfree : p.free.toList = []
  · have hlen : live.length = p.blocks * p.blockSize := by simpa [hfree] using hcount
    rcases hb : p.maxBlocks - p.blocks with _ | budget
    · have hblocks : p.blocks = p.maxBlocks := by have := hs.blocks_le; omega
      have hfull : live.length = p.capacity := by rw [hlen, hblocks]; rfl
      exact ⟨p.free, p.blocks, [], rfl, hs, by simp [hfree, hfull], by simp, by simp, .inl rfl⟩
    · obtain ⟨free, heq, hne, hsound⟩ := hs.grow hfree (by omega)
      have hnotEmpty : free.isEmpty = false := by
        rw [Queue.isEmpty, beq_eq_false_iff_ne, ← Queue.length_toList]
        exact fun h => hne (List.length_eq_zero_iff.mp h)
      have hroom : live.length ≠ p.capacity := by
        have : p.blocks * p.blockSize < p.maxBlocks * p.blockSize :=
          Nat.mul_lt_mul_of_pos_right (by omega) hpos
        rw [hlen, capacity]
        omega
      refine ⟨free, p.blocks + 1, [.poolGrew (p.blocks + 1) ((p.blocks + 1) * p.blockSize)],
        ?_, hsound, by simp [hne, hroom], by simp, fun h => absurd h hroom, .inr ⟨hfree, rfl⟩⟩
      rw [Pool.refill, if_pos (hempty.mpr hfree), heq]
      cases budget <;> simp [Pool.refill, hnotEmpty]
  · have hroom : live.length ≠ p.capacity := by
      have hblocks := Nat.mul_le_mul_right p.blockSize hs.blocks_le
      have hlen := List.length_pos_iff.mpr hfree
      unfold capacity
      omega
    refine ⟨p.free, p.blocks, [], ?_, hs, by simp [hfree, hroom], by simp,
      fun h => absurd h hroom, .inl rfl⟩
    rcases p.maxBlocks - p.blocks with _ | budget
    · rfl
    · rw [Pool.refill, if_neg (fun h => hfree (hempty.mp h))]

/-- An allocation in a pool with room takes a handle off the free list, once there is one. -/
theorem Sound.allocate_eq (hs : p.Sound live) (hroom : live.length ≠ p.capacity) (item : α) :
    ∃ h free blocks reports, p.allocate item =
        (.ok h, { ({ p with free := free, blocks := blocks } : Pool α).store h item with
          allocated := p.allocated + 1 }, reports) ∧
      h ∉ live ∧
      Sound { ({ p with free := free, blocks := blocks } : Pool α).store h item with
        allocated := p.allocated + 1 } (h :: live) ∧
      (∀ r ∈ reports, ∃ blocks slots, r = .poolGrew blocks slots) ∧
      (blocks = p.blocks ∨ p.free.toList = [] ∧ blocks = p.blocks + 1) := by
  obtain ⟨free, blocks, reports, heq, hsound, hiff, hgrew, -, hblocks⟩ := hs.refill
  cases hp : free.pop? with
  | none => exact absurd (hiff.mp (Queue.pop?_eq_none hp)) hroom
  | some popped =>
    obtain ⟨h, rest⟩ := popped
    have hlist := Queue.pop?_eq_some hp
    have hnd := hsound.nodup
    simp only [hlist, List.cons_append, List.nodup_cons] at hnd
    have hmade : ({ p with free := rest, blocks := blocks } : Pool α).isMade h = true :=
      hsound.made h (by simp [hlist])
    have hle := hs.length_le_capacity
    have hcap := hs.capacity_le
    simp only [Config.maxCapacity] at hcap
    have hlen : (p.allocated + 1).toNat = live.length + 1 := by
      have hone : (1 : UInt64).toNat = 1 := rfl
      rw [UInt64.toNat_add, hs.allocated, hone]
      omega
    refine ⟨h, rest, blocks, reports, ?_, fun hm => hnd.1 (List.mem_append_right _ hm),
      ⟨hs.blockSize_pos, hs.capacity_le, hsound.blocks_le, ?_, ?_, ?_, hlen⟩, hgrew, hblocks⟩
    · simp only [Pool.allocate, heq, hp, fill, if_pos hmade, List.append_nil]
    · exact (List.perm_middle.nodup_iff).mpr (List.nodup_cons.mpr hnd)
    · intro k hk
      refine hsound.made k ?_
      simpa [store, hlist, or_comm, or_left_comm, or_assoc] using hk
    · have hcount := hsound.count
      simp only [hlist, List.length_cons] at hcount
      show rest.toList.length + (live.length + 1) = blocks * p.blockSize
      omega

/-- An allocation in a pool with room hands out a slot that was not handed out, and changes no
other one. -/
theorem Sound.allocate (hs : p.Sound live) (hroom : live.length ≠ p.capacity) (item : α) :
    ∃ h next reports, p.allocate item = (.ok h, next, reports) ∧ h ∉ live ∧
      next.Sound (h :: live) ∧ next.capacity = p.capacity ∧
      (∀ k, next.inspect k = if h = k then some item else p.inspect k) ∧
      ∀ r ∈ reports, ∃ blocks slots, r = .poolGrew blocks slots := by
  obtain ⟨h, free, blocks, reports, heq, hnew, hsound, hgrew, -⟩ := hs.allocate_eq hroom item
  exact ⟨h, _, reports, heq, hnew, hsound, rfl, fun k => inspect_store p h k item, hgrew⟩

/-- An allocation in a pool without room gives the item back and changes no slot. -/
theorem Sound.allocate_full (hs : p.Sound live) (hfull : live.length = p.capacity) (item : α) :
    p.allocate item = (.error item, { p with exhausted := p.exhausted + 1 }, []) := by
  obtain ⟨free, blocks, reports, heq, -, hiff, -, hsame, -⟩ := hs.refill
  obtain ⟨rfl, rfl, rfl⟩ := hsame hfull
  have hnone : p.free.pop? = none := by
    cases hp : p.free.pop? with
    | none => rfl
    | some popped =>
      have hlist := Queue.pop?_eq_some hp
      rw [hiff.mpr hfull] at hlist
      cases hlist
  simp only [Pool.allocate, heq, hnone]

/-- A slot that is handed out is given back without a report, to be used again last. -/
theorem Sound.release_eq (hs : p.Sound live) {h : Handle} (hm : h ∈ live) :
    p.release h =
      ({ p.clear h with allocated := p.allocated - 1, free := p.free.push h }, []) ∧
    Sound { p.clear h with allocated := p.allocated - 1, free := p.free.push h }
      (live.erase h) := by
  have hmade := hs.made h (List.mem_append_right _ hm)
  have hperm := List.perm_cons_erase hm
  have hlen := hperm.length_eq
  have hcap := hs.length_le_capacity
  have hcount := hs.count
  have hblocks := Nat.mul_le_mul_right p.blockSize hs.blocks_le
  simp only [List.length_cons] at hlen
  have hroom : p.free.size < p.freeLimit := by
    rw [← Queue.length_toList, freeLimit, capacity]
    omega
  have hpush : ({ p.clear h with allocated := p.allocated - 1 } : Pool α).pushFree h =
      some { p.clear h with allocated := p.allocated - 1, free := p.free.push h } := if_pos hroom
  refine ⟨by simp only [Pool.release, if_pos hmade, hpush],
    hs.blockSize_pos, hs.capacity_le, hs.blocks_le, ?_, ?_, ?_, ?_⟩
  · have hnd := ((hperm.append_left _).nodup_iff).mp hs.nodup
    simpa [clear] using hnd
  · intro k hk
    refine hs.made k ((hperm.append_left _).mem_iff.mpr ?_)
    simpa [clear] using hk
  · show (p.free.push h).toList.length + (live.erase h).length = p.blocks * p.blockSize
    rw [Queue.toList_push, List.length_append, List.length_singleton]
    omega
  · have halloc := hs.allocated
    have hone : (1 : UInt64).toNat = 1 := rfl
    show (p.allocated - 1).toNat = (live.erase h).length
    rw [UInt64.toNat_sub, halloc, hone]
    have := hs.capacity_le
    simp only [Config.maxCapacity] at this
    omega

theorem Sound.release (hs : p.Sound live) {h : Handle} (hm : h ∈ live) :
    ∃ next, p.release h = (next, []) ∧ next.Sound (live.erase h) ∧ next.capacity = p.capacity ∧
      ∀ k, next.inspect k = if h = k then none else p.inspect k := by
  obtain ⟨heq, hsound⟩ := hs.release_eq hm
  exact ⟨_, heq, hsound, rfl, inspect_clear p h⟩

end Pool

end SensorHub
