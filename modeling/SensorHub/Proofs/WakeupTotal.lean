import Mathlib.Algebra.Ring.Nat
import Mathlib.Data.List.Induction
import SensorHub.Proofs.Periods

namespace SensorHub.Wakeups

/-- What happens to the counters of an app. -/
inductive Call
  | blame
  | roll
  deriving Repr, DecidableEq

def serve (w : Wakeups) : Call → Wakeups
  | .blame => w.blame
  | .roll => w.roll

def after (w : Wakeups) (calls : List Call) : Wakeups :=
  calls.foldl serve w

def sum (counters : List UInt16) : Nat :=
  (counters.map UInt16.toNat).sum

/-- The sum of counters in 32 bits, as the total is formed. -/
def sum32 (counters : List UInt16) : UInt32 :=
  counters.foldl (fun sum c => sum + c.toUInt32) 0

/-- In the course of the total, a sum does not fit in 32 bits. -/
def Overflows (w : Wakeups) : Prop :=
  ∃ older c newer, w.buckets = older ++ c :: newer ∧ 2 ^ 32 ≤ (sum32 older).toNat + c.toNat

/-- Fills so many counters, and opens the one behind them. -/
def fill : Nat → List Call
  | 0 => []
  | n + 1 => fill n ++ List.replicate 65535 .blame ++ [.roll]

variable {w : Wakeups} {counters : List UInt16} {limit n : Nat}

@[simp] theorem sum_concat (counters : List UInt16) (c : UInt16) :
    sum (counters ++ [c]) = sum counters + c.toNat := by
  simp [sum]

@[simp] theorem sum32_concat (counters : List UInt16) (c : UInt16) :
    sum32 (counters ++ [c]) = sum32 counters + c.toUInt32 := by
  simp [sum32]

theorem sum_replicate (n : Nat) (c : UInt16) : sum (.replicate n c) = c.toNat * n := by
  induction n with
  | zero => rfl
  | succ n ih => rw [List.replicate_succ', sum_concat, ih, Nat.mul_succ]

theorem sum_le (counters : List UInt16) : sum counters ≤ 65535 * counters.length := by
  induction counters using List.reverseRecOn with
  | nil => exact Nat.zero_le _
  | append_singleton counters c ih =>
    have hc := c.toNat_lt
    rw [sum_concat, List.length_append, List.length_singleton]
    omega

theorem toNat_sum32 (counters : List UInt16) : (sum32 counters).toNat = sum counters % 2 ^ 32 := by
  induction counters using List.reverseRecOn with
  | nil => rfl
  | append_singleton counters c ih =>
    rw [sum32_concat, sum_concat, UInt32.toNat_add, UInt16.toNat_toUInt32, ih, Nat.mod_add_mod]

/-- The first sum that does not fit is behind those that do. -/
theorem exists_overflow (large : 2 ^ 32 ≤ sum counters) :
    ∃ older c newer, counters = older ++ c :: newer ∧ 2 ^ 32 ≤ (sum32 older).toNat + c.toNat := by
  induction counters using List.reverseRecOn with
  | nil => cases large
  | append_singleton counters c ih =>
    by_cases hbefore : 2 ^ 32 ≤ sum counters
    · obtain ⟨older, d, newer, rfl, hlarge⟩ := ih hbefore
      exact ⟨older, d, newer ++ [c], by simp, hlarge⟩
    · refine ⟨counters, c, [], rfl, ?_⟩
      rw [toNat_sum32, Nat.mod_eq_of_lt (Nat.lt_of_not_le hbefore), ← sum_concat]
      exact large

theorem overflows_iff : w.Overflows ↔ 2 ^ 32 ≤ sum w.buckets := by
  refine ⟨?_, exists_overflow⟩
  rintro ⟨older, c, newer, hbuckets, hlarge⟩
  have hfits : (sum32 older).toNat ≤ sum older := by
    rw [toNat_sum32]
    exact Nat.mod_le _ _
  have hparts : sum w.buckets = sum older + c.toNat + sum newer := by
    rw [hbuckets]
    simp [sum, Nat.add_assoc]
  omega

theorem toNat_total (w : Wakeups) : w.total.toNat = sum w.buckets % 2 ^ 32 :=
  toNat_sum32 w.buckets

/-- No more counters are kept than the limit says, and one at least. -/
def WithinLimit (w : Wakeups) : Prop :=
  0 < w.limit ∧ w.newestFirst.length ≤ w.limit

theorem WithinLimit.blame (h : w.WithinLimit) :
    w.blame.limit = w.limit ∧ w.blame.WithinLimit := by
  obtain ⟨newestFirst, limit⟩ := w
  cases newestFirst with
  | nil => exact ⟨rfl, h⟩
  | cons c older => exact ⟨rfl, h⟩

theorem WithinLimit.roll (h : w.WithinLimit) :
    w.roll.limit = w.limit ∧ w.roll.WithinLimit := by
  obtain ⟨newestFirst, limit⟩ := w
  obtain ⟨hpos, hlength⟩ : 0 < limit ∧ newestFirst.length ≤ limit := h
  by_cases hfull : newestFirst.length = limit
  · have hroll : roll ⟨newestFirst, limit⟩ = ⟨0 :: newestFirst.dropLast, limit⟩ :=
      if_pos (beq_iff_eq.mpr hfull)
    have hkept : (0 :: newestFirst.dropLast).length ≤ limit := by
      rw [List.length_cons, List.length_dropLast]
      omega
    rw [hroll]
    exact ⟨rfl, hpos, hkept⟩
  · have hroll : roll ⟨newestFirst, limit⟩ = ⟨0 :: newestFirst, limit⟩ :=
      if_neg (mt beq_iff_eq.mp hfull)
    have hkept : (0 :: newestFirst).length ≤ limit := by
      rw [List.length_cons]
      omega
    rw [hroll]
    exact ⟨rfl, hpos, hkept⟩

theorem WithinLimit.serve (h : w.WithinLimit) (call : Call) :
    (w.serve call).limit = w.limit ∧ (w.serve call).WithinLimit := by
  cases call with
  | blame => exact h.blame
  | roll => exact h.roll

theorem WithinLimit.after (h : w.WithinLimit) (calls : List Call) :
    (w.after calls).limit = w.limit ∧ (w.after calls).WithinLimit := by
  induction calls generalizing w with
  | nil => exact ⟨rfl, h⟩
  | cons call calls ih =>
    obtain ⟨hlimit, hserved⟩ := h.serve call
    obtain ⟨hlast, hafter⟩ := ih hserved
    exact ⟨hlast.trans hlimit, hafter⟩

theorem withinLimit_new (limit : Nat) : (new limit).WithinLimit :=
  ⟨Nat.le_max_right limit 1, Nat.le_max_right limit 1⟩

theorem sum_after_le (limit : Nat) (calls : List Call) :
    sum ((new limit).after calls).buckets ≤ 65535 * max limit 1 := by
  obtain ⟨hlimit, -, hlength⟩ := (withinLimit_new limit).after calls
  have hmax : ((new limit).after calls).limit = max limit 1 := hlimit
  have hle := sum_le ((new limit).after calls).buckets
  rw [buckets, List.length_reverse] at hle
  rw [hmax] at hlength
  exact Nat.le_trans hle (Nat.mul_le_mul_left 65535 hlength)

theorem after_append (w : Wakeups) (calls later : List Call) :
    w.after (calls ++ later) = (w.after calls).after later :=
  List.foldl_append

/-- Wakeups go to the newest counter, until it is full. -/
theorem after_blames (c : UInt16) (older : List UInt16) (limit n : Nat) :
    after ⟨c :: older, limit⟩ (.replicate n .blame) =
      ⟨.ofNat (min 65535 (c.toNat + n)) :: older, limit⟩ := by
  induction n generalizing c with
  | zero =>
    have hc : min 65535 (c.toNat + 0) = c.toNat := by
      have hlt := c.toNat_lt
      omega
    rw [hc, UInt16.ofNat_toNat]
    rfl
  | succ n ih =>
    have hc : c.toNat = min 65535 c.toNat := by
      have hlt := c.toNat_lt
      omega
    have hnext := toNat_count hc
    have hsum : min 65535 (min 65535 (c.toNat + 1) + n) = min 65535 (c.toNat + (n + 1)) := by
      omega
    have hblame : serve ⟨c :: older, limit⟩ .blame =
        ⟨(if c == 65535 then c else c + 1) :: older, limit⟩ := rfl
    have hlast := ih (if c == 65535 then c else c + 1)
    rw [hnext, hsum] at hlast
    rw [List.replicate_succ, after, List.foldl_cons, hblame]
    exact hlast

/-- One counter after the other is filled, while the limit allows another one behind it. -/
theorem after_fill (room : n < limit) :
    (new limit).after (fill n) = ⟨0 :: List.replicate n 65535, limit⟩ := by
  induction n with
  | zero =>
    have hlimit : max limit 1 = limit := Nat.max_eq_left room
    rw [fill, new, hlimit]
    rfl
  | succ n ih =>
    have hblames : after ⟨0 :: List.replicate n 65535, limit⟩ (.replicate 65535 .blame) =
        ⟨65535 :: List.replicate n 65535, limit⟩ := by
      have hzero : (0 : UInt16).toNat = 0 := rfl
      have hmax : UInt16.ofNat 65535 = 65535 := rfl
      rw [after_blames, hzero, Nat.zero_add, Nat.min_self, hmax]
    have hroom : (65535 :: List.replicate n (65535 : UInt16)).length ≠ limit := by
      rw [List.length_cons, List.length_replicate]
      exact Nat.ne_of_lt room
    have hroll : roll ⟨65535 :: List.replicate n 65535, limit⟩ =
        ⟨0 :: 65535 :: List.replicate n 65535, limit⟩ :=
      if_neg (mt beq_iff_eq.mp hroom)
    rw [fill, after_append, after_append, ih (Nat.lt_of_succ_lt room), hblames]
    exact hroll

theorem sum_after_fill (room : n < limit) :
    sum ((new limit).after (fill n ++ [.blame])).buckets = 65535 * n + 1 := by
  have hblame : after ⟨0 :: List.replicate n 65535, limit⟩ [.blame] =
      ⟨1 :: List.replicate n 65535, limit⟩ := rfl
  have hmax : (65535 : UInt16).toNat = 65535 := rfl
  have hone : (1 : UInt16).toNat = 1 := rfl
  rw [after_append, after_fill room, hblame, buckets, List.reverse_cons, List.reverse_replicate,
    sum_concat, sum_replicate, hmax, hone]

/-- The total is the sum of the counters as 32 bits hold it, and some addition for it overflows
exactly if that is not the sum. Neither ever happens to an app if and only if it has no more than
65537 counters. -/
theorem total_exact_iff (limit : Nat) :
    (∀ calls, ((new limit).after calls).total.toNat =
        sum ((new limit).after calls).buckets % 2 ^ 32 ∧
      (((new limit).after calls).Overflows ↔ 2 ^ 32 ≤ sum ((new limit).after calls).buckets)) ∧
    ((∀ calls, ((new limit).after calls).total.toNat = sum ((new limit).after calls).buckets ∧
      ¬((new limit).after calls).Overflows) ↔ limit ≤ 65537) := by
  refine ⟨fun calls => ⟨toNat_total _, overflows_iff⟩, ?_, fun hlimit calls => ?_⟩
  · intro hexact
    apply Nat.le_of_not_lt
    intro hlimit
    obtain ⟨-, hfits⟩ := hexact (fill 65537 ++ [.blame])
    rw [overflows_iff, sum_after_fill hlimit] at hfits
    exact hfits (Nat.le_refl _)
  · have hsum : sum ((new limit).after calls).buckets < 2 ^ 32 := by
      have hle := sum_after_le limit calls
      omega
    refine ⟨?_, ?_⟩
    · rw [toNat_total, Nat.mod_eq_of_lt hsum]
    · rw [overflows_iff]
      exact Nat.not_le_of_lt hsum

/-- A configuration that meets every condition allows 65538 counters. After 2 ^ 32 wakeups the
total says that there was none. -/
theorem total_wraps_around :
    let config := { Config.default with wakeupBuckets := 65538 }
    let w := (new config.wakeupBuckets.toNat).after (fill 65537 ++ [.blame])
    config.Valid ∧ sum w.buckets = 4294967296 ∧ w.total = 0 ∧ w.Overflows := by
  intro config w
  have hsum : sum w.buckets = 4294967296 := sum_after_fill (Nat.lt_succ_self 65537)
  have htotal : w.total.toNat = 0 := by
    have hwraps := toNat_total w
    rw [hsum] at hwraps
    omega
  have hoverflows : w.Overflows := by
    rw [overflows_iff, hsum]
    exact Nat.le_refl _
  exact ⟨by decide, hsum, UInt32.toNat_inj.mp htotal, hoverflows⟩

end SensorHub.Wakeups
