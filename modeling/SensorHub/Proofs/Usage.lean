import Mathlib.Logic.Relation
import SensorHub.Proofs.Slots

namespace SensorHub.Pool

variable {α : Type} {p q : Pool α}

/-- What can be asked of a pool. The handles may be any. -/
inductive Use (α : Type) where
  | allocate (item : α)
  | inspect (h : Handle)
  | take (h : Handle)
  | release (h : Handle)

/-- What a pool answers. -/
inductive Answer (α : Type) where
  | slot (result : Except α Handle)
  | item (found : Option α)
  | done

def serve (p : Pool α) : Use α → Answer α × Pool α × List LogRecord
  | .allocate item =>
    let (result, q, reports) := p.allocate item
    (.slot result, q, reports)
  | .inspect h => (.item (p.inspect h), p, [])
  | .take h =>
    let (found, q) := p.take h
    (.item found, q, [])
  | .release h =>
    let (q, reports) := p.release h
    (.done, q, reports)

def run (p : Pool α) : List (Use α) → Pool α × List LogRecord
  | [] => (p, [])
  | use :: uses =>
    let (_, q, reports) := p.serve use
    let (last, more) := q.run uses
    (last, reports ++ more)

/-- What holds of a pool however it is used. -/
structure Sturdy (p : Pool α) : Prop where
  capacity_le : p.capacity ≤ Config.maxCapacity
  blocks_le : p.blocks ≤ p.maxBlocks
  free_made : ∀ h ∈ p.free.toList, p.isMade h = true
  free_le : p.free.size ≤ p.freeLimit

/-- One more turn of the loop that looks for a free slot: none is there, so a block is made. -/
def Expands (p q : Pool α) : Prop :=
  p.free.isEmpty = true ∧ p.blocks < p.maxBlocks ∧ q = p.grow.1

/-- The two reports that say that the free list is not what it should be. -/
def IsFault (r : LogRecord) : Prop :=
  (∃ h, r = .unmappedHandle h) ∨ ∃ block, r = .freeListOverflowGrowing block

/-- The pool `q` is one that `p` can become: of the same size, with no fewer blocks. -/
structure Becomes (p q : Pool α) : Prop where
  maxBlocks : q.maxBlocks = p.maxBlocks
  blockSize : q.blockSize = p.blockSize
  blocks : p.blocks ≤ q.blocks

theorem Becomes.refl (p : Pool α) : p.Becomes p := ⟨rfl, rfl, Nat.le_refl _⟩

theorem Becomes.trans {r : Pool α} (h : p.Becomes q) (k : q.Becomes r) : p.Becomes r :=
  ⟨k.maxBlocks.trans h.maxBlocks, k.blockSize.trans h.blockSize, h.blocks.trans k.blocks⟩

theorem sturdy_new {maxBlocks blockSize : Nat}
    (hcap : maxBlocks * blockSize ≤ Config.maxCapacity) :
    (new maxBlocks blockSize : Pool α).Sturdy where
  capacity_le := hcap
  blocks_le := Nat.zero_le _
  free_made := by simp [new]
  free_le := Nat.zero_le _

theorem Sound.sturdy {live : List Handle} (hs : p.Sound live) : p.Sturdy where
  capacity_le := hs.capacity_le
  blocks_le := hs.blocks_le
  free_made h hm := hs.made h (List.mem_append_left _ hm)
  free_le := by
    have hcount := hs.count
    have hblocks := Nat.mul_le_mul_right p.blockSize hs.blocks_le
    rw [← Queue.length_toList, freeLimit, capacity]
    omega

/-- A block that is made puts each of its slots into the free list, none if blocks are empty. -/
theorem Sturdy.grow (hs : p.Sturdy) (hfree : p.free.isEmpty = true)
    (hmore : p.blocks < p.maxBlocks) :
    ∃ q, p.grow = (q, [.poolGrew (p.blocks + 1) ((p.blocks + 1) * p.blockSize)]) ∧ q.Sturdy ∧
      p.Becomes q ∧ q.blocks = p.blocks + 1 := by
  have hempty : p.free.toList = [] := by
    rw [← List.length_eq_zero_iff, Queue.length_toList]
    simpa [Queue.isEmpty] using hfree
  obtain ⟨free, heq, hlist, hnew⟩ := grow_eq hs.capacity_le hempty hmore
  have hone : p.blockSize ≤ p.capacity := Nat.le_mul_of_pos_left _ (by omega)
  refine ⟨_, heq, ⟨hs.capacity_le, hmore, ?_, ?_⟩, ⟨rfl, rfl, Nat.le_succ _⟩, rfl⟩
  · intro h hm
    have := hnew h hm
    simp only [isMade, Bool.and_eq_true, decide_eq_true_eq]
    omega
  · show free.size ≤ max p.capacity 1
    rw [← Queue.length_toList, hlist, List.length_map, List.length_range']
    omega

/-- The loop ends: with a free slot, or without one and with every block made. -/
theorem Sturdy.refill (hs : p.Sturdy) :
    ∃ q reports, refill (p.maxBlocks - p.blocks) p = (q, reports) ∧
      Relation.ReflTransGen Expands p q ∧ q.Sturdy ∧ p.Becomes q ∧
      (q.free.isEmpty = true → q.blocks = q.maxBlocks) ∧ ∀ r ∈ reports, ¬ IsFault r := by
  induction hb : p.maxBlocks - p.blocks generalizing p with
  | zero =>
    have hle := hs.blocks_le
    exact ⟨p, [], rfl, .refl, hs, .refl p, fun _ => by omega, by simp⟩
  | succ budget ih =>
    by_cases hfree : p.free.isEmpty = true
    · obtain ⟨next, heq, hnext, hbecomes, hblocks⟩ := hs.grow hfree (by omega)
      have hmax := hbecomes.maxBlocks
      obtain ⟨q, reports, hrest, hloop, hq, hbecomes', hlast, hgood⟩ := ih hnext (by omega)
      have hturn : Expands p next := ⟨hfree, by omega, by rw [heq]⟩
      refine ⟨q, [.poolGrew (p.blocks + 1) ((p.blocks + 1) * p.blockSize)] ++ reports, ?_,
        .head hturn hloop, hq, hbecomes.trans hbecomes', hlast, ?_⟩
      · rw [Pool.refill, if_pos hfree, heq]
        simp only [hrest]
      · intro r hr
        rcases List.mem_append.mp hr with hr | hr
        · simp [List.mem_singleton.mp hr, IsFault]
        · exact hgood r hr
    · exact ⟨p, [], by rw [Pool.refill, if_neg hfree], .refl, hs, .refl p, fun h => absurd h hfree,
        by simp⟩

/-- What an allocation does in any pool that is used, be it rightly or not. -/
theorem Sturdy.allocate (hs : p.Sturdy) (item : α) :
    ∃ q next reports result, p.allocate item = (result, next, reports) ∧
      Relation.ReflTransGen Expands p q ∧ next.Sturdy ∧ p.Becomes next ∧
      (∀ r ∈ reports, ¬ IsFault r) ∧
      ((∃ h free, q.free.pop? = some (h, free) ∧ result = .ok h ∧ next.inspect h = some item) ∨
        (q.free.pop? = none ∧ q.blocks = q.maxBlocks ∧ result = .error item)) := by
  obtain ⟨q, reports, heq, hloop, hq, hbecomes, hlast, hgood⟩ := hs.refill
  cases hp : q.free.pop? with
  | none =>
    have hempty : q.free.isEmpty = true := by
      rw [Queue.isEmpty, beq_iff_eq, ← Queue.length_toList, Queue.pop?_eq_none hp]
      rfl
    refine ⟨q, { q with exhausted := q.exhausted + 1 }, reports, .error item, ?_, hloop,
      ⟨hq.capacity_le, hq.blocks_le, hq.free_made, hq.free_le⟩,
      ⟨hbecomes.maxBlocks, hbecomes.blockSize, hbecomes.blocks⟩, hgood,
      .inr ⟨hp, hlast hempty, rfl⟩⟩
    simp only [Pool.allocate, heq, hp]
  | some popped =>
    obtain ⟨h, free⟩ := popped
    have hlist := Queue.pop?_eq_some hp
    have hsize := congrArg List.length hlist
    have hle := hq.free_le
    rw [Queue.length_toList, List.length_cons, Queue.length_toList] at hsize
    have hmade : ({ q with free := free } : Pool α).isMade h = true :=
      hq.free_made h (by simp [hlist])
    refine ⟨q, { ({ q with free := free } : Pool α).store h item with
        allocated := q.allocated + 1 }, reports, .ok h, ?_, hloop,
      ⟨hq.capacity_le, hq.blocks_le, fun k hk => hq.free_made k ?_, ?_⟩,
      ⟨hbecomes.maxBlocks, hbecomes.blockSize, hbecomes.blocks⟩, hgood, .inl ⟨h, free, hp, rfl, ?_⟩⟩
    · simp only [Pool.allocate, heq, hp, fill, if_pos hmade, List.append_nil]
    · exact hlist ▸ List.mem_cons_of_mem h hk
    · show free.size ≤ q.freeLimit
      omega
    · exact (inspect_store _ h h item).trans (if_pos rfl)

/-- A handle that is given back goes into the free list only if its slot is made and there is
room, however often it was given back. -/
theorem Sturdy.release (hs : p.Sturdy) (h : Handle) :
    ∃ next reports, p.release h = (next, reports) ∧ next.Sturdy ∧ p.Becomes next ∧
      ∀ r ∈ reports, ¬ IsFault r := by
  by_cases hmade : p.isMade h = true
  · by_cases hroom : p.free.size < p.freeLimit
    · have hpush : ({ p.clear h with allocated := p.allocated - 1 } : Pool α).pushFree h =
          some { p.clear h with allocated := p.allocated - 1, free := p.free.push h } :=
        if_pos hroom
      refine ⟨{ p.clear h with allocated := p.allocated - 1, free := p.free.push h }, [], ?_,
        ⟨hs.capacity_le, hs.blocks_le, ?_, hroom⟩, ⟨rfl, rfl, Nat.le_refl _⟩, by simp⟩
      · simp only [Pool.release, if_pos hmade, hpush]
      · intro k hk
        rcases List.mem_append.mp (Queue.toList_push p.free h ▸ hk) with hk | hk
        · exact hs.free_made k hk
        · exact List.mem_singleton.mp hk ▸ hmade
    · have hpush : ({ p.clear h with allocated := p.allocated - 1 } : Pool α).pushFree h = none :=
        if_neg hroom
      refine ⟨{ p.clear h with allocated := p.allocated - 1 }, [.freeListOverflow h], ?_,
        ⟨hs.capacity_le, hs.blocks_le, hs.free_made, hs.free_le⟩, ⟨rfl, rfl, Nat.le_refl _⟩,
        by simp [IsFault]⟩
      simp only [Pool.release, if_pos hmade, hpush]
  · exact ⟨p, [.unknownHandle h], if_neg hmade, hs, .refl p, by simp [IsFault]⟩

theorem Sturdy.serve (hs : p.Sturdy) (use : Use α) :
    ∃ answer next reports, p.serve use = (answer, next, reports) ∧ next.Sturdy ∧ p.Becomes next ∧
      ∀ r ∈ reports, ¬ IsFault r := by
  cases use with
  | allocate item =>
    obtain ⟨-, next, reports, result, heq, -, hnext, hbecomes, hgood, -⟩ := hs.allocate item
    exact ⟨.slot result, next, reports, by simp only [Pool.serve, heq], hnext, hbecomes, hgood⟩
  | inspect h => exact ⟨.item (p.inspect h), p, [], rfl, hs, .refl p, by simp⟩
  | take h =>
    exact ⟨.item (p.inspect h), p.clear h, [], rfl,
      ⟨hs.capacity_le, hs.blocks_le, hs.free_made, hs.free_le⟩, ⟨rfl, rfl, Nat.le_refl _⟩, by simp⟩
  | release h =>
    obtain ⟨next, reports, heq, hnext, hbecomes, hgood⟩ := hs.release h
    exact ⟨.done, next, reports, by simp only [Pool.serve, heq], hnext, hbecomes, hgood⟩

theorem Sturdy.run (hs : p.Sturdy) (uses : List (Use α)) :
    (p.run uses).1.Sturdy ∧ p.Becomes (p.run uses).1 ∧ ∀ r ∈ (p.run uses).2, ¬ IsFault r := by
  induction uses generalizing p with
  | nil => exact ⟨hs, .refl p, by simp [Pool.run]⟩
  | cons use uses ih =>
    obtain ⟨answer, next, reports, heq, hnext, hbecomes, hgood⟩ := hs.serve use
    obtain ⟨hlast, hbecomes', hgood'⟩ := ih hnext
    simp only [Pool.run, heq]
    refine ⟨hlast, hbecomes.trans hbecomes', fun r hr => ?_⟩
    rcases List.mem_append.mp hr with hr | hr
    · exact hgood r hr
    · exact hgood' r hr

/-- A pool may be given any handles, in any order. The search for a free slot ends; then the item
is in the slot that was found, or no slot is free, every block is made and the item comes back.
No fault of the free list is reported. There are no more blocks than the pool may have, and no
block goes away. The free list designates slots that are made, and does not outgrow its room. -/
theorem run_safe {maxBlocks blockSize : Nat} (hcap : maxBlocks * blockSize ≤ Config.maxCapacity)
    (uses : List (Use α)) {reports : List LogRecord}
    (hrun : (new maxBlocks blockSize).run uses = (p, reports)) :
    (∀ item, ∃ q next more result, p.allocate item = (result, next, more) ∧
      Relation.ReflTransGen Expands p q ∧
      ((∃ h free, q.free.pop? = some (h, free) ∧ result = .ok h ∧ next.inspect h = some item) ∨
        (q.free.pop? = none ∧ q.blocks = q.maxBlocks ∧ result = .error item))) ∧
    (∀ h, .unmappedHandle h ∉ reports) ∧ (∀ block, .freeListOverflowGrowing block ∉ reports) ∧
    p.blocks ≤ maxBlocks ∧ (∀ more, p.blocks ≤ (p.run more).1.blocks) ∧
    (∀ h ∈ p.free.toList, h.block < p.blocks ∧ h.slot < blockSize) ∧
    p.free.toList.length ≤ max 1 (maxBlocks * blockSize) := by
  obtain ⟨hs, hbecomes, hgood⟩ : p.Sturdy ∧ (new maxBlocks blockSize).Becomes p ∧
      ∀ r ∈ reports, ¬ IsFault r := by
    simpa only [hrun] using (sturdy_new hcap).run uses
  have hmax : p.maxBlocks = maxBlocks := hbecomes.maxBlocks
  have hsize : p.blockSize = blockSize := hbecomes.blockSize
  refine ⟨fun item => ?_, fun h hm => hgood _ hm (.inl ⟨h, rfl⟩),
    fun block hm => hgood _ hm (.inr ⟨block, rfl⟩), hmax ▸ hs.blocks_le,
    fun more => (hs.run more).2.1.blocks, fun h hm => ?_, ?_⟩
  · obtain ⟨q, next, more, result, heq, hloop, -, -, -, hfound⟩ := hs.allocate item
    exact ⟨q, next, more, result, heq, hloop, hfound⟩
  · have hmade := hs.free_made h hm
    rw [isMade, hsize] at hmade
    simpa using hmade
  · have hle := hs.free_le
    rw [freeLimit, capacity, hmax, hsize] at hle
    rw [Queue.length_toList]
    omega

/-- A slot that was given back three times is in the free list as often as that has room. -/
theorem run_safe_released_thrice :
    ∃ p reports, (new 1 2 : Pool Nat).run [.allocate 7, .allocate 8, .release ⟨0⟩, .release ⟨0⟩,
        .release ⟨0⟩, .release ⟨65536⟩] = (p, reports) ∧
      p.free.toList = [⟨0⟩, ⟨0⟩] ∧ p.free.toList.length ≤ max 1 (1 * 2) ∧
      ∀ h, .unmappedHandle h ∉ reports := by
  have hsafe := run_safe (show 1 * 2 ≤ Config.maxCapacity by decide)
    [.allocate 7, .allocate 8, .release ⟨0⟩, .release ⟨0⟩, .release ⟨0⟩, .release ⟨65536⟩] rfl
  obtain ⟨-, hmapped, -, -, -, -, hlength⟩ := hsafe
  exact ⟨_, _, rfl, by decide +kernel, hlength, hmapped⟩

end SensorHub.Pool
