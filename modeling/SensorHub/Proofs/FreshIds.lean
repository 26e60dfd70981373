import SensorHub.Proofs.Undoing

namespace SensorHub.Hub

variable {σ : Type} {hub : Hub σ} {used : UInt16 → Bool} {budget : Nat} {start id : UInt16}

def Assignable (hub : Hub σ) (id : UInt16) : Prop :=
  id ≠ systemId ∧ id ≠ broadcastId ∧ ∀ app ∈ hub.apps, app.nanoapp.info.instanceId ≠ id

/-- In cyclic order, the first assignable id from the counter on. -/
def IsNext (hub : Hub σ) (id : UInt16) : Prop :=
  ∃ distance < 65536, id = hub.nextId + .ofNat distance ∧ hub.Assignable id ∧
    ∀ nearer < distance, ¬hub.Assignable (hub.nextId + .ofNat nearer)

def isPassed (used : UInt16 → Bool) (id : UInt16) : Bool :=
  id == systemId || id == broadcastId || used id

abbrev inUse (hub : Hub σ) (id : UInt16) : Bool :=
  (hub.indexOf? id).isSome

theorem assignable_iff : hub.Assignable id ↔ isPassed hub.inUse id = false := by
  simp [isPassed, Assignable, inUse, indexOf?, and_assoc]

theorem not_assignable_iff : ¬hub.Assignable id ↔ isPassed hub.inUse id = true := by
  rw [assignable_iff, Bool.not_eq_false]

theorem exists_distance (start id : UInt16) :
    ∃ distance < 65536, id = start + .ofNat distance := by
  refine ⟨(id - start).toNat, (id - start).toNat_lt, ?_⟩
  rw [UInt16.ofNat_toNat, UInt16.add_comm, UInt16.sub_add_cancel]

theorem firstFreeId_succ (used : UInt16 → Bool) (budget : Nat) (start : UInt16) :
    firstFreeId used (budget + 1) start =
      if isPassed used start then firstFreeId used budget (start + 1) else some start :=
  rfl

/-- The search goes through the distances from its start. -/
theorem firstFreeId_eq_find? (used : UInt16 → Bool) (budget : Nat) (start : UInt16) :
    firstFreeId used budget start =
      ((List.range budget).find? fun distance => !isPassed used (start + .ofNat distance)).map
        fun distance => start + .ofNat distance := by
  induction budget generalizing start with
  | zero => rfl
  | succ budget ih =>
    have hstart : start + .ofNat 0 = start := UInt16.add_zero start
    have hlater : (fun distance => start + .ofNat distance) ∘ Nat.succ =
        fun distance => start + 1 + .ofNat distance := by
      funext distance
      exact add_ofNat_succ start distance
    have hpasses : (fun distance => !isPassed used (start + .ofNat distance)) ∘ Nat.succ =
        fun distance => !isPassed used (start + 1 + .ofNat distance) :=
      congrArg (fun place : Nat → UInt16 => fun distance => !isPassed used (place distance)) hlater
    rw [firstFreeId_succ, List.range_succ_eq_map, List.find?_cons, hstart]
    cases hpassed : isPassed used start with
    | true =>
      rw [if_pos rfl, ih]
      simp only [Bool.not_true, List.find?_map, Option.map_map, hpasses, hlater]
    | false => exact congrArg some hstart.symm

/-- The search finds the first id that it does not pass over. -/
theorem firstFreeId_eq_some : firstFreeId used budget start = some id ↔
    ∃ distance < budget, id = start + .ofNat distance ∧ isPassed used id = false ∧
      ∀ nearer < distance, isPassed used (start + .ofNat nearer) = true := by
  rw [firstFreeId_eq_find?, Option.map_eq_some_iff]
  constructor
  · rintro ⟨distance, hfind, rfl⟩
    obtain ⟨hopen, hrange, hbefore⟩ := List.find?_range_eq_some.mp hfind
    refine ⟨distance, List.mem_range.mp hrange, rfl, by simpa using hopen, ?_⟩
    intro nearer hnearer
    simpa using hbefore nearer hnearer
  · rintro ⟨distance, hdistance, rfl, hopen, hbefore⟩
    refine ⟨distance, List.find?_range_eq_some.mpr ⟨?_, List.mem_range.mpr hdistance, ?_⟩, rfl⟩
    · simpa using hopen
    · intro nearer hnearer
      simpa using hbefore nearer hnearer

theorem firstFreeId_eq_none : firstFreeId used budget start = none ↔
    ∀ distance < budget, isPassed used (start + .ofNat distance) = true := by
  rw [firstFreeId_eq_find?, Option.map_eq_none_iff, List.find?_range_eq_none]
  simp only [Bool.not_not]

theorem firstFreeId_eq_some_iff_isNext :
    firstFreeId hub.inUse 65536 hub.nextId = some id ↔ hub.IsNext id := by
  simp only [firstFreeId_eq_some, IsNext, assignable_iff, Bool.not_eq_false]

theorem firstFreeId_eq_none_iff :
    firstFreeId hub.inUse 65536 hub.nextId = none ↔ ∀ id, ¬hub.Assignable id := by
  simp only [firstFreeId_eq_none, not_assignable_iff]
  constructor
  · intro hall id
    obtain ⟨distance, hdistance, rfl⟩ := exists_distance hub.nextId id
    exact hall distance hdistance
  · intro hall distance _
    exact hall _

theorem not_assignable_iff_exhausted : (∀ id, ¬hub.Assignable id) ↔
    ∀ id, id ≠ systemId → id ≠ broadcastId →
      ∃ app ∈ hub.apps, app.nanoapp.info.instanceId = id := by
  simp [Assignable]

theorem assignId_eq_some {hub' : Hub σ} : hub.assignId = (some id, hub') ↔
    firstFreeId hub.inUse 65536 hub.nextId = some id ∧ hub' = { hub with nextId := id + 1 } := by
  unfold assignId
  cases hfind : firstFreeId hub.inUse 65536 hub.nextId with
  | none => simp
  | some found =>
    constructor
    · intro h
      cases h
      exact ⟨rfl, rfl⟩
    · rintro ⟨hfound, rfl⟩
      cases hfound
      rfl

theorem assignId_eq_none {hub' : Hub σ} : hub.assignId = (none, hub') ↔
    firstFreeId hub.inUse 65536 hub.nextId = none ∧ hub' = hub := by
  unfold assignId
  cases hfind : firstFreeId hub.inUse 65536 hub.nextId with
  | none => simp [eq_comm]
  | some found => simp

/-- An app gets the first id in cyclic order that is neither reserved nor in use, and the next
search starts behind it. It gets none if and only if every id that is not reserved is in use, and
the next search then starts where this one did. That is the id, and that the counter, of a search
that moves the counter past each candidate. -/
theorem assignId_exact (hub : Hub σ) :
    (∀ id hub', hub.assignId = (some id, hub') ↔
      hub.IsNext id ∧ hub' = { hub with nextId := id + 1 }) ∧
    (∀ hub', hub.assignId = (none, hub') ↔
      (∀ id, id ≠ systemId → id ≠ broadcastId →
        ∃ app ∈ hub.apps, app.nanoapp.info.instanceId = id) ∧ hub' = hub) ∧
    hub.assignId = ((seekId hub.inUse 65536 hub.nextId).1,
      { hub with nextId := (seekId hub.inUse 65536 hub.nextId).2 }) := by
  refine ⟨fun id hub' => ?_, fun hub' => ?_, hub.assignId_eq_seekId⟩
  · rw [assignId_eq_some, firstFreeId_eq_some_iff_isNext]
  · rw [assignId_eq_none, firstFreeId_eq_none_iff, not_assignable_iff_exhausted]

end SensorHub.Hub
