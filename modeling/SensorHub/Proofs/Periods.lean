import SensorHub.Hub.Basic

namespace SensorHub

namespace Incident

def isWakeup : Incident → Bool
  | .loaded _ _ | .rolled _ | .blamed _ => true
  | _ => false

def rolledAt? : Incident → Option Nat
  | .rolled now => some now
  | _ => none

def isRoll (incident : Incident) : Bool :=
  incident.rolledAt?.isSome

end Incident

/-- When the counters were rolled, latest roll first. -/
def rolls (incidents : List Incident) : List Nat :=
  incidents.filterMap Incident.rolledAt?

/-- How many wakeups the load was blamed for in each period, latest period first. -/
def periods (load : Nat) (incidents : List Incident) : List Nat :=
  (incidents.splitOnP Incident.isRoll).map (List.count (.blamed load))

variable {load limit : Nat} {incident : Incident} {incidents : List Incident}

@[simp] theorem periods_nil (load : Nat) : periods load [] = [0] := rfl

theorem periods_ne_nil (load : Nat) (incidents : List Incident) : periods load incidents ≠ [] := by
  simp [periods]

theorem length_periods (load : Nat) (incidents : List Incident) :
    (periods load incidents).length = 1 + (rolls incidents).length := by
  induction incidents with
  | nil => rfl
  | cons incident incidents ih =>
    simp only [periods, rolls, List.length_map, List.splitOnP_cons_eq_if_modifyHead] at ih ⊢
    cases hroll : incident.rolledAt? with
    | none => simpa [Incident.isRoll, hroll] using ih
    | some now =>
      simp only [Incident.isRoll, hroll, Option.isSome_some, if_true, List.length_cons,
        List.filterMap_cons]
      omega

theorem periods_rolled (load now : Nat) (incidents : List Incident) :
    periods load (.rolled now :: incidents) = 0 :: periods load incidents := by
  simp [periods, List.splitOnP_cons_eq_if_modifyHead, Incident.isRoll, Incident.rolledAt?]

/-- Within a period only the wakeups count that the load is blamed for. -/
theorem periods_cons (h : incident.rolledAt? = none) :
    periods load (incident :: incidents) = (periods load incidents).modifyHead
      fun count => if incident = .blamed load then count + 1 else count := by
  simp only [periods, List.splitOnP_cons_eq_if_modifyHead, Incident.isRoll, h, Option.isSome_none]
  cases hparts : incidents.splitOnP Incident.isRoll with
  | nil => exact absurd hparts (List.splitOnP_ne_nil _ _)
  | cons part parts =>
    by_cases hb : incident = .blamed load
    · simp [hb]
    · simp [hb]

theorem periods_blamed (load : Nat) (incidents : List Incident) :
    periods load (.blamed load :: incidents) = (periods load incidents).modifyHead (· + 1) := by
  rw [periods_cons rfl]
  simp

theorem periods_other (h : incident.rolledAt? = none) (other : incident ≠ .blamed load) :
    periods load (incident :: incidents) = periods load incidents := by
  rw [periods_cons h]
  cases periods load incidents <;> simp [other]

namespace Wakeups

variable {w : Wakeups}

/-- The counters hold, latest period first, how many wakeups the load was blamed for in the last
periods since then, as far as they reach. -/
structure Recalls (w : Wakeups) (limit load : Nat) (since : List Incident) : Prop where
  reach : w.limit = limit
  counters : w.newestFirst.map UInt16.toNat = ((periods load since).take limit).map (min 65535)

theorem toNat_count {c : UInt16} {n : Nat} (h : c.toNat = min 65535 n) :
    (if c == 65535 then c else c + 1).toNat = min 65535 (n + 1) := by
  have hmax : (65535 : UInt16).toNat = 65535 := rfl
  split
  next full =>
    rw [eq_of_beq full, hmax] at h ⊢
    omega
  next room =>
    have hne : c.toNat ≠ 65535 := by
      intro heq
      apply room
      rw [beq_iff_eq, ← UInt16.toNat_inj, hmax]
      exact heq
    have hlt := c.toNat_lt
    have hone : (1 : UInt16).toNat = 1 := rfl
    rw [UInt16.toNat_add, hone, Nat.mod_eq_of_lt (by omega)]
    omega

namespace Recalls

theorem new (load n : Nat) : (Wakeups.new (n + 1)).Recalls (n + 1) load [] :=
  ⟨by simp [Wakeups.new], by simp [Wakeups.new]⟩

theorem other (h : w.Recalls limit load incidents) (plain : incident.rolledAt? = none)
    (other : incident ≠ .blamed load) : w.Recalls limit load (incident :: incidents) := by
  refine ⟨h.reach, ?_⟩
  rw [periods_other plain other]
  exact h.counters

theorem blame {n : Nat} (h : w.Recalls (n + 1) load incidents) :
    w.blame.Recalls (n + 1) load (.blamed load :: incidents) := by
  obtain ⟨hreach, hcounters⟩ := h
  cases hperiods : periods load incidents with
  | nil => exact absurd hperiods (periods_ne_nil load incidents)
  | cons count counts =>
    rw [hperiods, List.take_succ_cons, List.map_cons] at hcounters
    cases hnewest : w.newestFirst with
    | nil =>
      rw [hnewest] at hcounters
      cases hcounters
    | cons c older =>
      rw [hnewest, List.map_cons, List.cons.injEq] at hcounters
      have hblame : w.blame =
          { w with newestFirst := (if c == 65535 then c else c + 1) :: older } := by
        rw [Wakeups.blame, hnewest]
      rw [hblame]
      refine ⟨hreach, ?_⟩
      rw [periods_blamed, hperiods, List.modifyHead_cons, List.take_succ_cons, List.map_cons,
        List.map_cons, toNat_count hcounters.1, hcounters.2]

/-- The oldest period is forgotten when the counters reach no further. -/
theorem roll {n : Nat} (h : w.Recalls (n + 1) load incidents) (now : Nat) :
    w.roll.Recalls (n + 1) load (.rolled now :: incidents) := by
  obtain ⟨hreach, hcounters⟩ := h
  have hlength := congrArg List.length hcounters
  rw [List.length_map, List.length_map, List.length_take] at hlength
  refine ⟨?_, ?_⟩
  · rw [Wakeups.roll]
    split <;> exact hreach
  · rw [periods_rolled, List.take_succ_cons, List.map_cons, Wakeups.roll]
    split
    next full =>
      have hfull : w.newestFirst.length = n + 1 := by simpa [hreach] using full
      have htake : ((periods load incidents).take (n + 1)).dropLast =
          (periods load incidents).take n := by
        rw [List.dropLast_eq_take, List.length_take, List.take_take]
        congr 1
        omega
      have hdrop := congrArg List.dropLast hcounters
      rw [← List.map_dropLast, ← List.map_dropLast, htake] at hdrop
      simp [hdrop]
    next room =>
      have hroom : w.newestFirst.length ≠ n + 1 := by simpa [hreach] using room
      rw [List.take_of_length_le (by omega)] at hcounters
      rw [List.take_of_length_le (by omega)]
      simp [hcounters]

end Recalls

end Wakeups

end SensorHub
