import Mathlib.Data.Set.Card
import SensorHub.Nanoapp.Registrations

namespace SensorHub

/-- What a nanoapp asks of its subscriptions. -/
inductive Registrations.Call
  | register (type : UInt16) (mask : UInt32)
  | unregister (type : UInt16) (mask : UInt32)
  deriving Repr, DecidableEq

namespace Registrations

def serve (r : Registrations) : Call → Bool × Registrations
  | .register type mask => r.register type mask
  | .unregister type mask => r.unregister type mask

/-- Calls one after the other: their answers, and the state behind the last one. -/
def Call.run {σ : Type} (serve : σ → Call → Bool × σ) : σ → List Call → List Bool × σ
  | s, [] => ([], s)
  | s, call :: calls =>
    let answered := serve s call
    let rest := run serve answered.2 calls
    (answered.1 :: rest.1, rest.2)

/-- The mask of every event type. A type whose mask is 0 is not registered. -/
abbrev Masks := UInt16 → UInt32

/-- A call on the map from type to mask. -/
def Masks.serve (m : Masks) : Call → Bool × Masks
  | .register type mask => (mask != 0, Function.update m type (m type ||| mask))
  | .unregister type mask => (m type != 0, Function.update m type (m type &&& ~~~mask))

variable {entries : List (UInt16 × UInt32)} {type other : UInt16} {mask : UInt32}

@[simp] theorem groups_nil (type : UInt16) : groups ⟨[]⟩ type = 0 :=
  rfl

@[simp] theorem groups_cons (e : UInt16 × UInt32) (entries : List (UInt16 × UInt32))
    (type : UInt16) :
    groups ⟨e :: entries⟩ type = if e.1 = type then e.2 else groups ⟨entries⟩ type := by
  by_cases h : e.1 = type <;> simp [groups, h]

theorem groups_eq_zero (h : type ∉ entries.map Prod.fst) : groups ⟨entries⟩ type = 0 := by
  induction entries with
  | nil => rfl
  | cons e entries ih =>
    rw [List.map_cons, List.mem_cons, not_or] at h
    rw [groups_cons, if_neg (Ne.symm h.1)]
    exact ih h.2

theorem groups_widen_self : groups ⟨widen type mask entries⟩ type =
    groups ⟨entries⟩ type ||| mask := by
  induction entries with
  | nil => simp [widen]
  | cons e entries ih => by_cases h : e.1 = type <;> simp [widen, h, ih]

theorem groups_widen_of_ne (hne : other ≠ type) :
    groups ⟨widen type mask entries⟩ other = groups ⟨entries⟩ other := by
  induction entries with
  | nil => simp [widen, hne.symm]
  | cons e entries ih =>
    by_cases h : e.1 = type
    · subst h
      simp [widen, hne.symm]
    · simp [widen, h, ih]

theorem groups_narrow_self (distinct : (entries.map Prod.fst).Nodup) :
    groups ⟨narrow type mask entries⟩ type = groups ⟨entries⟩ type &&& ~~~mask := by
  induction entries with
  | nil => simp [narrow]
  | cons e entries ih =>
    obtain ⟨hfresh, hdistinct⟩ := List.nodup_cons.mp distinct
    by_cases h : e.1 = type
    · subst h
      by_cases hempty : e.2 &&& ~~~mask = 0
      · simp [narrow, hempty, groups_eq_zero hfresh]
      · simp [narrow, hempty]
    · simp [narrow, h, ih hdistinct]

theorem groups_narrow_of_ne (hne : other ≠ type) :
    groups ⟨narrow type mask entries⟩ other = groups ⟨entries⟩ other := by
  induction entries with
  | nil => rfl
  | cons e entries ih =>
    by_cases h : e.1 = type
    · subst h
      by_cases hempty : e.2 &&& ~~~mask = 0 <;> simp [narrow, hempty, hne.symm]
    · simp [narrow, h, ih]

theorem groups_widen : groups ⟨widen type mask entries⟩ =
    Function.update (groups ⟨entries⟩) type (groups ⟨entries⟩ type ||| mask) := by
  apply Function.eq_update_iff.mpr
  exact ⟨groups_widen_self, fun other hne => groups_widen_of_ne hne⟩

theorem groups_narrow (distinct : (entries.map Prod.fst).Nodup) :
    groups ⟨narrow type mask entries⟩ =
      Function.update (groups ⟨entries⟩) type (groups ⟨entries⟩ type &&& ~~~mask) := by
  apply Function.eq_update_iff.mpr
  exact ⟨groups_narrow_self distinct, fun other hne => groups_narrow_of_ne hne⟩

theorem map_fst_widen (type : UInt16) (mask : UInt32) (entries : List (UInt16 × UInt32)) :
    (widen type mask entries).map Prod.fst =
      if type ∈ entries.map Prod.fst then entries.map Prod.fst
      else entries.map Prod.fst ++ [type] := by
  induction entries with
  | nil => rfl
  | cons e entries ih =>
    by_cases h : e.1 = type
    · simp [widen, h]
    · simp only [widen, beq_iff_eq, h, if_false, List.map_cons, List.mem_cons, Ne.symm h, false_or,
        ih]
      split <;> rfl

theorem map_fst_narrow (type : UInt16) (mask : UInt32) (entries : List (UInt16 × UInt32)) :
    ((narrow type mask entries).map Prod.fst).Sublist (entries.map Prod.fst) := by
  induction entries with
  | nil => exact .slnil
  | cons e entries ih =>
    by_cases h : e.1 = type
    · by_cases hempty : e.2 &&& ~~~mask = 0
      · simp [narrow, h, hempty]
      · simp [narrow, h, hempty]
    · simpa [narrow, h] using ih

theorem widen_ne_zero (hmask : mask ≠ 0) (h : ∀ e ∈ entries, e.2 ≠ 0) :
    ∀ e ∈ widen type mask entries, e.2 ≠ 0 := by
  induction entries with
  | nil => simpa [widen] using hmask
  | cons head entries ih =>
    obtain ⟨hhead, hrest⟩ := List.forall_mem_cons.mp h
    by_cases hsame : head.1 = type
    · simpa [widen, hsame, hhead] using hrest
    · simpa [widen, hsame, hhead] using ih hrest

theorem narrow_ne_zero (h : ∀ e ∈ entries, e.2 ≠ 0) :
    ∀ e ∈ narrow type mask entries, e.2 ≠ 0 := by
  induction entries with
  | nil => exact h
  | cons head entries ih =>
    obtain ⟨hhead, hrest⟩ := List.forall_mem_cons.mp h
    by_cases hsame : head.1 = type
    · by_cases hempty : head.2 &&& ~~~mask = 0
      · simpa [narrow, hsame, hempty] using hrest
      · simpa [narrow, hsame, hempty] using hrest
    · simpa [narrow, hsame, hhead] using ih hrest

/-- Each type has one entry at most, and no entry has an empty mask. -/
structure Tidy (r : Registrations) : Prop where
  distinct : (r.entries.map Prod.fst).Nodup
  nonzero : ∀ e ∈ r.entries, e.2 ≠ 0

namespace Tidy

variable {r : Registrations}

theorem widened (h : r.Tidy) (hmask : mask ≠ 0) : Tidy ⟨widen type mask r.entries⟩ where
  distinct := by
    rw [map_fst_widen]
    by_cases hknown : type ∈ r.entries.map Prod.fst
    · rw [if_pos hknown]
      exact h.distinct
    · rw [if_neg hknown]
      exact List.nodup_append.mpr ⟨h.distinct, List.nodup_singleton _, by
        intro a ha b hb hab
        rw [List.mem_singleton.mp hb] at hab
        exact hknown (hab ▸ ha)⟩
  nonzero := widen_ne_zero hmask h.nonzero

theorem narrowed (h : r.Tidy) : Tidy ⟨narrow type mask r.entries⟩ where
  distinct := h.distinct.sublist (map_fst_narrow type mask r.entries)
  nonzero := narrow_ne_zero h.nonzero

theorem mem_iff (h : r.Tidy) (type : UInt16) :
    type ∈ r.entries.map Prod.fst ↔ r.groups type ≠ 0 := by
  obtain ⟨entries⟩ := r
  constructor
  · intro hmem
    obtain ⟨-, hnonzero⟩ := h
    induction entries with
    | nil => cases hmem
    | cons e entries ih =>
      obtain ⟨hhead, hrest⟩ := List.forall_mem_cons.mp hnonzero
      by_cases hsame : e.1 = type
      · simpa [hsame] using hhead
      · rw [groups_cons, if_neg hsame]
        exact ih ((List.mem_cons.mp hmem).resolve_left (Ne.symm hsame)) hrest
  · intro hgroups
    apply Classical.byContradiction
    intro hnone
    exact hgroups (groups_eq_zero hnone)

theorem isRegistered_iff (h : r.Tidy) (type : UInt16) :
    r.isRegistered type = true ↔ r.groups type ≠ 0 := by
  rw [← h.mem_iff]
  simp [isRegistered]

theorem accepts_iff (h : r.Tidy) (event : Event) :
    r.accepts event = true ↔ r.groups event.type &&& event.groupMask ≠ 0 := by
  obtain ⟨entries⟩ := r
  obtain ⟨hdistinct, -⟩ := h
  induction entries with
  | nil => simp [accepts]
  | cons e entries ih =>
    obtain ⟨hfresh, hrest⟩ := List.nodup_cons.mp hdistinct
    by_cases hsame : e.1 = event.type
    · -- no later entry has the type, so this one decides
      have hlater := ih hrest
      rw [hsame] at hfresh
      rw [groups_eq_zero hfresh] at hlater
      have hnone : accepts ⟨entries⟩ event = false := by simpa using hlater
      have hhead : accepts ⟨e :: entries⟩ event =
          (e.2 &&& event.groupMask != 0 || accepts ⟨entries⟩ event) := by
        simp [accepts, hsame]
      rw [hhead, hnone, groups_cons, if_pos hsame]
      simp
    · rw [groups_cons, if_neg hsame, ← ih hrest]
      simp [accepts, hsame]

theorem size_eq (h : r.Tidy) : r.size = {type | r.groups type ≠ 0}.ncard := by
  have hset : {type | r.groups type ≠ 0} = ((r.entries.map Prod.fst).toFinset : Set UInt16) := by
    ext type
    simp only [Set.mem_ofPred_eq, List.coe_toFinset]
    exact (h.mem_iff type).symm
  rw [hset, Set.ncard_coe_finset, List.toFinset_card_of_nodup h.distinct, List.length_map]
  rfl

end Tidy

/-- The entries hold the masks of the map, each type once. -/
structure Represents (r : Registrations) (m : Masks) : Prop where
  tidy : r.Tidy
  groups_eq : r.groups = m

theorem represents_empty : Represents empty fun _ => 0 :=
  ⟨⟨List.nodup_nil, by simp [empty]⟩, rfl⟩

/-- A call answers on the entries as it does on the map, and changes both alike. -/
theorem Represents.serve {r : Registrations} {m : Masks} (h : Represents r m) (call : Call) :
    (r.serve call).1 = (m.serve call).1 ∧ Represents (r.serve call).2 (m.serve call).2 := by
  obtain ⟨htidy, rfl⟩ := h
  cases call with
  | register type mask =>
    by_cases hmask : mask = 0
    · subst hmask
      have hsame : Function.update r.groups type (r.groups type ||| 0) = r.groups := by simp
      exact ⟨rfl, htidy, hsame.symm⟩
    · have hserve : r.serve (.register type mask) = (true, ⟨widen type mask r.entries⟩) := by
        simp [Registrations.serve, register, hmask]
      rw [hserve]
      exact ⟨by simp [Masks.serve, hmask], htidy.widened hmask, groups_widen⟩
  | unregister type mask =>
    by_cases hknown : r.isRegistered type = true
    · have hserve : r.serve (.unregister type mask) = (true, ⟨narrow type mask r.entries⟩) := by
        simp [Registrations.serve, unregister, hknown]
      rw [hserve]
      have hnonzero := (htidy.isRegistered_iff type).mp hknown
      exact ⟨by simp [Masks.serve, hnonzero], htidy.narrowed, groups_narrow htidy.distinct⟩
    · have hserve : r.serve (.unregister type mask) = (false, r) := by
        simp [Registrations.serve, unregister, hknown]
      rw [hserve]
      have hzero : r.groups type = 0 := by
        rw [htidy.isRegistered_iff] at hknown
        exact Classical.not_not.mp hknown
      have hsame : Function.update r.groups type (r.groups type &&& ~~~mask) = r.groups := by
        apply Function.update_eq_iff.mpr
        exact ⟨by simp [hzero], fun other _ => rfl⟩
      exact ⟨by simp [Masks.serve, hzero], htidy, hsame.symm⟩

theorem Represents.run {r : Registrations} {m : Masks} (h : Represents r m) (calls : List Call) :
    (Call.run Registrations.serve r calls).1 = (Call.run Masks.serve m calls).1 ∧
      Represents (Call.run Registrations.serve r calls).2 (Call.run Masks.serve m calls).2 := by
  induction calls generalizing r m with
  | nil => exact ⟨rfl, h⟩
  | cons call calls ih =>
    obtain ⟨hanswer, hnext⟩ := h.serve call
    obtain ⟨hanswers, hlast⟩ := ih hnext
    refine ⟨?_, hlast⟩
    simp only [Call.run]
    rw [hanswer, hanswers]

/-- After any calls, subscriptions are the map that the same calls write, which starts with no type
registered: the answers are the same, and so is what can be asked. -/
theorem run_represents_map (calls : List Call) :
    let r := (Call.run serve empty calls).2
    let m := (Call.run Masks.serve (fun _ => 0) calls).2
    (Call.run serve empty calls).1 = (Call.run Masks.serve (fun _ => 0) calls).1 ∧
      r.groups = m ∧
      (∀ event : Event, r.accepts event = true ↔ m event.type &&& event.groupMask ≠ 0) ∧
      (∀ type, r.isRegistered type = true ↔ m type ≠ 0) ∧
      r.size = {type | m type ≠ 0}.ncard := by
  intro r m
  obtain ⟨hanswers, hlast⟩ := represents_empty.run calls
  have htidy : r.Tidy := hlast.tidy
  have hgroups : r.groups = m := hlast.groups_eq
  rw [← hgroups]
  exact ⟨hanswers, rfl, htidy.accepts_iff, htidy.isRegistered_iff, htidy.size_eq⟩

end Registrations

end SensorHub
