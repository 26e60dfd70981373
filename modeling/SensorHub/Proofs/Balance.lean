import Mathlib.Algebra.Order.Floor.Div
import SensorHub.Proofs.Farewell

namespace SensorHub.Demo.Simulation

/-- The event is not a status event: a producer has posted it, or it is the answer to such an
event. -/
def Role.isPosted (role : Role) : Bool :=
  role != .status

def Role.isPing (role : Role) : Bool :=
  role == .ping || role == .pong

def Line.underWay (line : Line) : List Role :=
  line.hand.toList ++ line.waiting

/-- What a simulation with so many events in all comes to, after so many posts of which so many were
pings. -/
structure Line.Balanced (capacity total : Nat) (line : Line) (posts pings : Nat) : Prop where
  all : line.tally.readings.toNat + line.tally.pongs.toNat + line.dropped.toNat +
    line.underWay.countP Role.isPosted = posts
  statuses : line.underWay.length ≤ line.underWay.countP Role.isPosted + 3
  ample : total + 4 ≤ capacity → line.dropped = 0 ∧
    line.tally.pongs.toNat + line.underWay.countP Role.isPing = pings

namespace Role

variable {role reply : Role} {tally : Tally}

/-- The counter counts a reading or a pong, and counts it once. -/
theorem counted_received (last : role.reply? = none)
    (few : tally.readings.toNat + tally.pongs.toNat < 2 ^ 32) :
    (counted role tally).readings.toNat + (counted role tally).pongs.toNat =
      tally.readings.toNat + tally.pongs.toNat + (if role.isPosted then 1 else 0) ∧
    (counted role tally).pongs.toNat = tally.pongs.toNat + if role.isPing then 1 else 0 := by
  cases role with
  | tick | ping => cases last
  | status => exact ⟨rfl, rfl⟩
  | reading =>
    have hreadings : (tally.readings + 1).toNat = tally.readings.toNat + 1 := by
      rw [UInt64.toNat_add]
      exact Nat.mod_eq_of_lt (by simp; omega)
    simp [counted, hreadings, isPosted, isPing]
    omega
  | pong =>
    have hpongs : (tally.pongs + 1).toNat = tally.pongs.toNat + 1 := by
      rw [UInt64.toNat_add]
      exact Nat.mod_eq_of_lt (by simp; omega)
    simp [counted, hpongs, isPosted, isPing]
    omega

/-- An answer takes the place of the event that it answers. -/
theorem isPosted_reply (asks : role.reply? = some reply) :
    role.isPosted = true ∧ reply.isPosted = true ∧ reply.isPing = role.isPing := by
  cases role <;> cases asks <;> exact ⟨rfl, rfl, rfl⟩

end Role

theorem toNat_dropped {dropped : UInt32} (few : dropped.toNat + 1 < 2 ^ 32) :
    (dropped + 1).toNat = dropped.toNat + 1 := by
  rw [UInt32.toNat_add]
  exact Nat.mod_eq_of_lt few

namespace Line

variable {capacity total posts pings : Nat} {line line' : Line} {role : Role}

@[simp] theorem underWay_hand (waiting : List Role) (tally : Tally) (dropped : UInt32) :
    (Line.mk (some role) waiting tally dropped).underWay = role :: waiting := rfl

@[simp] theorem underWay_free (waiting : List Role) (tally : Tally) (dropped : UInt32) :
    (Line.mk none waiting tally dropped).underWay = waiting := rfl

theorem balanced_first : Line.first.Balanced capacity total 0 0 :=
  ⟨rfl, Nat.le_refl 3, fun _ => ⟨rfl, rfl⟩⟩

/-- What becomes of the event that is dealt with is counted once. -/
theorem Shift.balanced (shift : line.Shift capacity line')
    (balanced : line.Balanced capacity total posts pings) (le : posts ≤ total)
    (few : total < 2 ^ 32) : line'.Balanced capacity total posts pings := by
  obtain ⟨all, statuses, ample⟩ := balanced
  cases shift with
  | stay => exact ⟨all, statuses, ample⟩
  | @count role waiting tally dropped last =>
    simp only [underWay_hand, List.countP_cons, List.length_cons] at all statuses ample
    obtain ⟨received, pongs⟩ := @Role.counted_received role tally last (by omega)
    refine ⟨?_, ?_, fun slots => ⟨(ample slots).1, ?_⟩⟩
    · simp only [underWay_free]
      omega
    · simp only [underWay_free]
      split at statuses <;> omega
    · have echoes := (ample slots).2
      simp only [underWay_free]
      omega
  | @reply role reply waiting tally dropped asks =>
    obtain ⟨posted, answers, echoes⟩ := Role.isPosted_reply asks
    have hperm : (waiting ++ [reply]).Perm (reply :: waiting) := List.perm_append_singleton ..
    simp only [underWay_hand, List.countP_cons, List.length_cons, posted, if_true]
      at all statuses ample
    refine ⟨?_, ?_, fun slots => ⟨(ample slots).1, ?_⟩⟩
    · simp only [underWay_free, hperm.countP_eq, List.countP_cons, answers, if_true]
      exact all
    · simp only [underWay_free, hperm.countP_eq, hperm.length_eq, List.countP_cons,
        List.length_cons, answers, if_true]
      exact statuses
    · simp only [underWay_free, hperm.countP_eq, List.countP_cons, echoes]
      exact (ample slots).2
  | @lose role reply waiting tally dropped asks full =>
    obtain ⟨posted, -, -⟩ := Role.isPosted_reply asks
    simp only [underWay_hand, List.countP_cons, List.length_cons, posted, if_true] at all statuses
    have hdropped := @toNat_dropped dropped (by omega)
    refine ⟨?_, ?_, fun slots => ?_⟩
    · simp only [underWay_free]
      omega
    · simp only [underWay_free]
      omega
    -- Each event that is under way has a slot, and there is one left.
    · omega

theorem Step.balanced (step : line.Step capacity line')
    (balanced : line.Balanced capacity total posts pings) (le : posts ≤ total)
    (few : total < 2 ^ 32) : line'.Balanced capacity total posts pings := by
  cases step with
  | shift h => exact h.balanced balanced le few
  | @take role waiting tally dropped =>
    obtain ⟨all, statuses, ample⟩ := balanced
    cases role with
    | status =>
      have hcount : (Role.status :: waiting).countP Role.isPosted = waiting.countP Role.isPosted :=
        rfl
      simp only [underWay_free, hcount, List.length_cons] at statuses
      exact ⟨all, Nat.le_of_succ_le statuses, ample⟩
    | tick | ping | reading | pong => exact ⟨all, statuses, ample⟩

theorem Balanced.queue (balanced : line.Balanced capacity total posts pings)
    (posted : role.isPosted = true) :
    ({ line with waiting := line.waiting ++ [role] } : Line).Balanced capacity total (posts + 1)
      (pings + if role.isPing then 1 else 0) := by
  obtain ⟨all, statuses, ample⟩ := balanced
  have hunder : ({ line with waiting := line.waiting ++ [role] } : Line).underWay =
      line.underWay ++ [role] := (List.append_assoc ..).symm
  have hperm : (line.underWay ++ [role]).Perm (role :: line.underWay) :=
    List.perm_append_singleton ..
  refine ⟨?_, ?_, fun slots => ⟨(ample slots).1, ?_⟩⟩
  · rw [hunder, hperm.countP_eq, List.countP_cons, if_pos posted]
    dsimp only
    omega
  · rw [hunder, hperm.countP_eq, hperm.length_eq, List.countP_cons, if_pos posted, List.length_cons]
    omega
  · have echoes := (ample slots).2
    rw [hunder, hperm.countP_eq, List.countP_cons]
    dsimp only
    omega

theorem Balanced.settled (balanced : line.Balanced capacity total posts pings)
    (empty : line.underWay = []) :
    line.tally.readings.toNat + line.tally.pongs.toNat + line.dropped.toNat = posts ∧
      (total + 4 ≤ capacity → line.dropped = 0 ∧ line.tally.pongs.toNat = pings) := by
  obtain ⟨all, -, ample⟩ := balanced
  rw [empty, List.countP_nil, Nat.add_zero] at all ample
  exact ⟨all, ample⟩

/-- Only where there are too few slots for all events there is none for a posted event. -/
theorem Balanced.scarce {handles : Nat} (balanced : line.Balanced capacity total posts pings)
    (full : line.waiting.length + handles = capacity) (handles_le : handles ≤ 1)
    (lt : posts < total) : capacity < total + 4 := by
  obtain ⟨all, statuses, -⟩ := balanced
  have hwaiting : line.waiting.length ≤ line.underWay.length := by
    rw [underWay, List.length_append]
    omega
  omega

/-- A posted event for which there is no slot is counted as dropped. -/
theorem Balanced.drop (balanced : line.Balanced capacity total posts pings)
    (scarce : capacity < total + 4) (lt : posts < total) (few : total < 2 ^ 32) (pings' : Nat) :
    ({ line with dropped := line.dropped + 1 } : Line).Balanced capacity total (posts + 1)
      pings' := by
  obtain ⟨all, statuses, -⟩ := balanced
  have hdropped := @toNat_dropped line.dropped (by omega)
  have hunder : ({ line with dropped := line.dropped + 1 } : Line).underWay = line.underWay := rfl
  refine ⟨?_, statuses, fun slots => absurd slots (by omega)⟩
  rw [hunder, hdropped]
  dsimp only
  omega

end Line

namespace Options

variable {options : Options} {seq : UInt32}

def total (options : Options) : Nat :=
  options.producers * options.eventsPerProducer.toNat

/-- How many of a producer's first `count` events are pings. -/
def pingsAmong (options : Options) (count : Nat) : Nat :=
  if options.pingEvery = 0 then 0 else count ⌈/⌉ options.pingEvery.toNat

def role (options : Options) (seq : UInt32) : Role :=
  if options.pingEvery != 0 && seq % options.pingEvery == 0 then .ping else .tick

theorem isPosted_role : (options.role seq).isPosted = true := by
  rw [role]
  split <;> rfl

/-- The event has that role, with the ids that the apps have been given. -/
theorem fits_event : (options.role seq).Fits (event options 2 3 seq) := by
  rw [role, event]
  split
  · exact ⟨rfl, rfl, rfl⟩
  · exact ⟨rfl, rfl, rfl, _, rfl⟩

/-- Of a producer's events the first is a ping and then every so manyth one. -/
theorem isPing_role (pings : options.pingEvery ≠ 0) :
    (options.role seq).isPing = true ↔ options.pingEvery.toNat ∣ seq.toNat := by
  have hdvd : options.pingEvery.toNat ∣ seq.toNat ↔ seq % options.pingEvery = 0 := by
    rw [Nat.dvd_iff_mod_eq_zero, ← UInt32.toNat_mod, ← UInt32.toNat_inj]
    rfl
  rw [hdvd]
  by_cases h : seq % options.pingEvery = 0 <;> simp [role, pings, h, Role.isPing]

theorem pingsAmong_succ : options.pingsAmong (seq.toNat + 1) =
    options.pingsAmong seq.toNat + if (options.role seq).isPing then 1 else 0 := by
  by_cases pings : options.pingEvery = 0
  · simp [pingsAmong, role, pings, Role.isPing]
  · have hpos : 0 < options.pingEvery.toNat := by
      rw [Nat.pos_iff_ne_zero]
      exact fun h => pings (UInt32.toNat_inj.mp h)
    have hsucc : seq.toNat + 1 + options.pingEvery.toNat - 1 =
        seq.toNat + options.pingEvery.toNat - 1 + 1 := by omega
    have hdvd : options.pingEvery.toNat ∣ seq.toNat + options.pingEvery.toNat - 1 + 1 ↔
        options.pingEvery.toNat ∣ seq.toNat := by
      rw [Nat.sub_add_cancel (by omega)]
      exact Nat.dvd_add_self_right
    simp only [pingsAmong, if_neg pings, Nat.ceilDiv_eq_add_pred_div, hsucc, Nat.succ_div, hdvd,
      isPing_role pings]

end Options

end SensorHub.Demo.Simulation
