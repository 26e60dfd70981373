import Mathlib.Data.List.Induction
import SensorHub.Throttle

namespace SensorHub.Throttle

/-- A hit and what it was told. -/
structure Hit where
  now : Nat
  allowed : Bool
  deriving Repr, DecidableEq

/-- The throttle after hits at these instants, first one first. -/
def after (t : Throttle) (hits : List Nat) : Throttle :=
  hits.foldl (fun t now => (t.allow now).2) t

/-- What hits at these instants are told, first one first. -/
def answers (t : Throttle) : List Nat → List Hit
  | [] => []
  | now :: later => ⟨now, (t.allow now).1⟩ :: (t.allow now).2.answers later

def allowedIn (span : Nat → Bool) (hits : List Hit) : Nat :=
  hits.countP fun hit => hit.allowed && span hit.now

variable {t : Throttle} {interval now : Nat} {maxCount : UInt32} {past : List Hit}
  {span : Nat → Bool}

@[simp] theorem after_concat (t : Throttle) (hits : List Nat) (now : Nat) :
    t.after (hits ++ [now]) = ((t.after hits).allow now).2 := by
  simp [after]

theorem answers_append (t : Throttle) (hits later : List Nat) :
    t.answers (hits ++ later) = t.answers hits ++ (t.after hits).answers later := by
  induction hits generalizing t with
  | nil => rfl
  | cons now hits ih => simp [answers, ih, after]

@[simp] theorem answers_concat (t : Throttle) (hits : List Nat) (now : Nat) :
    t.answers (hits ++ [now]) = t.answers hits ++ [⟨now, ((t.after hits).allow now).1⟩] := by
  rw [answers_append]
  rfl

theorem map_now_answers (t : Throttle) (hits : List Nat) :
    (t.answers hits).map Hit.now = hits := by
  induction hits generalizing t with
  | nil => rfl
  | cons now hits ih => simp [answers, ih]

theorem answer_eq {hits : List Nat} {later : List Hit} {hit : Hit}
    (h : t.answers hits = past ++ hit :: later) :
    hits = past.map Hit.now ++ hit.now :: later.map Hit.now ∧
      past = t.answers (past.map Hit.now) ∧
      hit.allowed = ((t.after (past.map Hit.now)).allow hit.now).1 := by
  have hhits : hits = past.map Hit.now ++ hit.now :: later.map Hit.now := by
    rw [← map_now_answers t hits, h]
    simp
  have hlength : past.length = (t.answers (past.map Hit.now)).length := by
    have hmap := congrArg List.length (map_now_answers t (past.map Hit.now))
    simpa using hmap.symm
  rw [hhits, answers_append] at h
  obtain ⟨hpast, hrest⟩ := List.append_inj h.symm hlength
  rw [answers, List.cons.injEq] at hrest
  exact ⟨hhits, hpast, congrArg Hit.allowed hrest.1⟩

@[simp] theorem allowedIn_concat (span : Nat → Bool) (past : List Hit) (hit : Hit) :
    allowedIn span (past ++ [hit]) =
      allowedIn span past + if hit.allowed && span hit.now then 1 else 0 := by
  simp [allowedIn, List.countP_append, List.countP_cons]

theorem toNat_succ {count : UInt32} (h : count < maxCount) :
    (count + 1).toNat = count.toNat + 1 := by
  have hlt : count.toNat < maxCount.toNat := h
  have hmax := maxCount.toNat_lt
  have hone : (1 : UInt32).toNat = 1 := rfl
  rw [UInt32.toNat_add, hone]
  exact Nat.mod_eq_of_lt (by omega)

/-- The open window covers the instant, or one opens there and nothing is allowed in it yet. -/
theorem roll_cases (t : Throttle) (now : Nat) :
    (∃ start, t.windowStart = some start ∧ now - start < t.interval ∧ t.roll now = t) ∨
    ((∀ start, t.windowStart = some start → t.interval ≤ now - start) ∧
      t.roll now = { t with windowStart := some now, count := 0 }) := by
  unfold roll covers
  cases t.windowStart with
  | none => simp
  | some start =>
    by_cases h : now - start < t.interval
    · simp [h]
    · simp only [h, decide_false]
      right
      simp
      omega

@[simp] theorem interval_roll (t : Throttle) (now : Nat) : (t.roll now).interval = t.interval := by
  unfold roll
  split <;> rfl

@[simp] theorem maxCount_roll (t : Throttle) (now : Nat) : (t.roll now).maxCount = t.maxCount := by
  unfold roll
  split <;> rfl

/-- The throttle once it has let a hit through, if it can. -/
def takeHit (t : Throttle) : Throttle :=
  if t.count < t.maxCount then { t with count := t.count + 1 } else t

@[simp] theorem interval_takeHit (t : Throttle) : t.takeHit.interval = t.interval := by
  unfold takeHit
  split <;> rfl

@[simp] theorem maxCount_takeHit (t : Throttle) : t.takeHit.maxCount = t.maxCount := by
  unfold takeHit
  split <;> rfl

theorem allow_eq (t : Throttle) (now : Nat) :
    t.allow now = (decide ((t.roll now).count < t.maxCount), (t.roll now).takeHit) := by
  rw [← maxCount_roll t now]
  unfold allow takeHit
  dsimp only
  split <;> simp_all

/-- The count of a throttle tells how many of the hits so far its window has let through; no hit
came after `now`. -/
structure Tallied (t : Throttle) (past : List Hit) (now : Nat) : Prop where
  count_le : t.count.toNat ≤ t.maxCount.toNat
  opened : ∀ start, t.windowStart = some start → start ≤ now
  past_le : ∀ hit ∈ past, hit.now ≤ now
  counted : ∃ older current, past = older ++ current ∧
    current.countP Hit.allowed = t.count.toNat ∧
    ∀ hit ∈ current, ∀ start, t.windowStart = some start → start ≤ hit.now

namespace Tallied

theorem roll (h : t.Tallied past now) : (t.roll now).Tallied past now := by
  rcases roll_cases t now with ⟨start, -, -, hsame⟩ | ⟨-, hopens⟩
  · rw [hsame]
    exact h
  · rw [hopens]
    refine ⟨Nat.zero_le _, ?_, h.past_le, past, [], by simp, rfl, by simp⟩
    intro start hstart
    cases hstart
    exact Nat.le_refl now

theorem takeHit (h : t.Tallied past now) :
    t.takeHit.Tallied (past ++ [⟨now, decide (t.count < t.maxCount)⟩]) now := by
  obtain ⟨older, current, rfl, hcount, hcurrent⟩ := h.counted
  have hpast : ∀ hit ∈ older ++ current ++ [⟨now, decide (t.count < t.maxCount)⟩],
      hit.now ≤ now := by
    intro hit hmem
    rcases List.mem_append.mp hmem with hmem | hmem
    · exact h.past_le hit hmem
    · obtain rfl := List.mem_singleton.mp hmem
      exact Nat.le_refl now
  have hlater : ∀ hit ∈ current ++ [⟨now, decide (t.count < t.maxCount)⟩],
      ∀ start, t.windowStart = some start → start ≤ hit.now := by
    intro hit hmem start hstart
    rcases List.mem_append.mp hmem with hmem | hmem
    · exact hcurrent hit hmem start hstart
    · rw [List.mem_singleton.mp hmem]
      exact h.opened start hstart
  unfold Throttle.takeHit
  by_cases room : t.count < t.maxCount
  · have hroom : t.count.toNat < t.maxCount.toNat := room
    have hsucc := toNat_succ room
    rw [if_pos room]
    refine ⟨?_, h.opened, hpast, older, _, List.append_assoc .., ?_, hlater⟩
    · show (t.count + 1).toNat ≤ t.maxCount.toNat
      omega
    · show _ = (t.count + 1).toNat
      simp [List.countP_append, hcount, hsucc, room]
  · rw [if_neg room]
    refine ⟨h.count_le, h.opened, hpast, older, _, List.append_assoc .., ?_, hlater⟩
    simp [List.countP_append, hcount, room]

theorem mono {later : Nat} (h : t.Tallied past now) (hle : now ≤ later) :
    t.Tallied past later where
  count_le := h.count_le
  opened start hstart := Nat.le_trans (h.opened start hstart) hle
  past_le hit hmem := Nat.le_trans (h.past_le hit hmem) hle
  counted := h.counted

end Tallied

/-- In a short span any two instants are less than `interval` apart. -/
def Short (span : Nat → Bool) (interval : Nat) : Prop :=
  ∀ a b, span a = true → span b = true → b < a + interval

/-- How many windows a span has met so far: the hits in it that were allowed fall into the open
window, or into that and the one before; a third window begins behind the span. -/
inductive Meets (span : Nat → Bool) (t : Throttle) (past : List Hit) : Prop
  | one (few : allowedIn span past ≤ t.count.toNat)
  | two {start first : Nat} (opened : t.windowStart = some start) (spanned : span first = true)
      (later : first ≤ start) (few : allowedIn span past ≤ t.maxCount.toNat + t.count.toNat)
  | behind {start first : Nat} (opened : t.windowStart = some start) (spanned : span first = true)
      (gap : first + t.interval ≤ start) (few : allowedIn span past ≤ 2 * t.maxCount.toNat)

namespace Meets

theorem allowedIn_le (h : Meets span t past) (full : t.count.toNat ≤ t.maxCount.toNat) :
    allowedIn span past ≤ 2 * t.maxCount.toNat := by
  cases h with
  | one few => omega
  | two _ _ _ few => omega
  | behind _ _ _ few => exact few

/-- A window that opens is the next one that the span can meet. -/
theorem roll (h : Meets span t past) (ht : t.Tallied past now) :
    Meets span (t.roll now) past := by
  rcases roll_cases t now with ⟨start, -, -, hsame⟩ | ⟨hexpired, hopens⟩
  · rw [hsame]
    exact h
  · rw [hopens]
    have hfull := ht.count_le
    cases h with
    | one few =>
      by_cases hnone : allowedIn span past = 0
      · apply one
        omega
      · obtain ⟨hit, hmem, hspan⟩ := List.countP_pos_iff.mp (Nat.pos_of_ne_zero hnone)
        have hwithin : span hit.now = true := (Bool.and_eq_true_iff.mp hspan).2
        apply two rfl hwithin (ht.past_le hit hmem)
        show _ ≤ t.maxCount.toNat + 0
        omega
    | @two start first hopened hspan hlater few =>
      -- the second window has run its full length after an instant of the span
      have hgap := hexpired start hopened
      have hbegan := ht.opened start hopened
      apply behind rfl hspan
      · show first + t.interval ≤ now
        omega
      · show _ ≤ 2 * t.maxCount.toNat
        omega
    | @behind start first hopened hspan hgap few =>
      have hbegan := ht.opened start hopened
      exact behind rfl hspan (Nat.le_trans hgap hbegan) few

/-- A hit that is let through counts for the open window, unless that lies behind the span. -/
theorem takeHit (h : Meets span t past) (short : Short span t.interval)
    (ht : t.Tallied past now) :
    Meets span t.takeHit (past ++ [⟨now, decide (t.count < t.maxCount)⟩]) := by
  unfold Throttle.takeHit
  by_cases room : t.count < t.maxCount
  · have hsucc := toNat_succ room
    rw [if_pos room]
    cases h with
    | one few =>
      apply one
      show _ ≤ (t.count + 1).toNat
      rw [allowedIn_concat, hsucc]
      split <;> omega
    | two hopened hspan hlater few =>
      refine .two hopened hspan hlater ?_
      show _ ≤ t.maxCount.toNat + (t.count + 1).toNat
      rw [allowedIn_concat, hsucc]
      split <;> omega
    | @behind start first hopened hspan hgap few =>
      have hbegan := ht.opened start hopened
      -- the hit may be let through, but the span does not reach it
      have houtside : span now = false := by
        apply Bool.eq_false_iff.mpr
        intro hnow
        have hnear := short first now hspan hnow
        omega
      refine .behind hopened hspan hgap ?_
      rw [allowedIn_concat]
      simpa [houtside] using few
  · rw [if_neg room]
    have hsame : allowedIn span (past ++ [⟨now, decide (t.count < t.maxCount)⟩]) =
        allowedIn span past := by
      simp [room]
    cases h with
    | one few => exact one (hsame ▸ few)
    | two hopened hspan hlater few => exact two hopened hspan hlater (hsame ▸ few)
    | behind hopened hspan hgap few => exact behind hopened hspan hgap (hsame ▸ few)

end Meets

/-- A hit is refused when the open window has let through all it can. -/
theorem Tallied.refused (h : t.Tallied past now)
    (hopen : (t.roll now).maxCount ≤ (t.roll now).count) :
    t.maxCount.toNat ≤
      allowedIn (fun earlier => now < earlier + t.interval ∧ earlier ≤ now) past := by
  rcases roll_cases t now with ⟨start, hstart, hcovers, hsame⟩ | ⟨-, hopens⟩
  · rw [hsame] at hopen
    have hfull : t.maxCount.toNat ≤ t.count.toNat := hopen
    obtain ⟨older, current, hpast, hcount, hcurrent⟩ := h.counted
    have hlast : current.countP Hit.allowed ≤
        allowedIn (fun earlier => now < earlier + t.interval ∧ earlier ≤ now) current := by
      apply List.countP_mono_left
      intro hit hmem hallowed
      have hlater := hcurrent hit hmem start hstart
      have hearlier : hit.now ≤ now := by
        apply h.past_le
        rw [hpast]
        exact List.mem_append_right _ hmem
      have hnear : now < hit.now + t.interval := by omega
      simp [hallowed, hearlier, hnear]
    have hmore : allowedIn (fun earlier => now < earlier + t.interval ∧ earlier ≤ now) current ≤
        allowedIn (fun earlier => now < earlier + t.interval ∧ earlier ≤ now) past := by
      rw [hpast]
      simp [allowedIn]
    omega
  · rw [hopens] at hopen
    have hnone : t.maxCount.toNat ≤ 0 := hopen
    omega

@[simp] theorem interval_after (t : Throttle) (hits : List Nat) :
    (t.after hits).interval = t.interval := by
  induction hits using List.reverseRecOn with
  | nil => rfl
  | append_singleton hits now ih =>
    rw [after_concat, allow_eq, interval_takeHit, interval_roll, ih]

@[simp] theorem maxCount_after (t : Throttle) (hits : List Nat) :
    (t.after hits).maxCount = t.maxCount := by
  induction hits using List.reverseRecOn with
  | nil => rfl
  | append_singleton hits now ih =>
    rw [after_concat, allow_eq, maxCount_takeHit, maxCount_roll, ih]

theorem tallied_answers (interval : Nat) (maxCount : UInt32) {hits : List Nat}
    (sorted : hits.Pairwise (· ≤ ·)) (last : ∀ hit ∈ hits, hit ≤ now) :
    ((new interval maxCount).after hits).Tallied ((new interval maxCount).answers hits) now := by
  induction hits using List.reverseRecOn generalizing now with
  | nil => exact ⟨Nat.zero_le _, by simp [after, new], by simp [answers], [], [], rfl, rfl, by simp⟩
  | append_singleton hits hit ih =>
    obtain ⟨hsorted, -, hlast⟩ := List.pairwise_append.mp sorted
    have hbefore := ih hsorted fun earlier hmem =>
      hlast earlier hmem hit (List.mem_singleton_self _)
    have hafter := hbefore.roll.takeHit
    rw [after_concat, answers_concat, allow_eq]
    rw [maxCount_roll] at hafter
    exact hafter.mono (last hit (by simp))

theorem meets_answers {hits : List Nat} (short : Short span interval)
    (sorted : hits.Pairwise (· ≤ ·)) :
    Meets span ((new interval maxCount).after hits) ((new interval maxCount).answers hits) := by
  induction hits using List.reverseRecOn with
  | nil => exact .one (Nat.zero_le _)
  | append_singleton hits hit ih =>
    obtain ⟨hsorted, -, hlast⟩ := List.pairwise_append.mp sorted
    have htallied := tallied_answers interval maxCount hsorted fun earlier hmem =>
      hlast earlier hmem hit (List.mem_singleton_self _)
    have hshort : Short span (((new interval maxCount).after hits).roll hit).interval := by
      rw [interval_roll, interval_after]
      exact short
    have hafter := ((ih hsorted).roll htallied).takeHit hshort htallied.roll
    rw [after_concat, answers_concat, allow_eq]
    rwa [maxCount_roll] at hafter

theorem allowedIn_answers_le {hits : List Nat} (short : Short span interval)
    (sorted : hits.Pairwise (· ≤ ·)) :
    allowedIn span ((new interval maxCount).answers hits) ≤ 2 * maxCount.toNat := by
  have hmeets : Meets span ((new interval maxCount).after hits)
      ((new interval maxCount).answers hits) := meets_answers short sorted
  cases hits using List.reverseRecOn with
  | nil => exact Nat.zero_le _
  | append_singleton hits last =>
    have hlast : ∀ hit ∈ hits ++ [last], hit ≤ last := by
      intro hit hmem
      rcases List.mem_append.mp hmem with hmem | hmem
      · exact (List.pairwise_append.mp sorted).2.2 hit hmem last (List.mem_singleton_self _)
      · exact Nat.le_of_eq (List.mem_singleton.mp hmem)
    have hle := hmeets.allowedIn_le (tallied_answers interval maxCount sorted hlast).count_le
    rwa [maxCount_after] at hle

/-- However the hits follow each other, at most twice as many are allowed in a half-open span of one
interval as the count of the throttle says, and a hit is refused only if that many were allowed in
the interval up to it. -/
theorem allowance_bounded (interval : Nat) (maxCount : UInt32) {hits : List Nat}
    (sorted : hits.Pairwise (· ≤ ·)) :
    (∀ start, allowedIn (fun now => start ≤ now ∧ now < start + interval)
      ((new interval maxCount).answers hits) ≤ 2 * maxCount.toNat) ∧
    (∀ start, allowedIn (fun now => start < now ∧ now ≤ start + interval)
      ((new interval maxCount).answers hits) ≤ 2 * maxCount.toNat) ∧
    ∀ past now later, (new interval maxCount).answers hits = past ++ ⟨now, false⟩ :: later →
      maxCount.toNat ≤
        allowedIn (fun earlier => now < earlier + interval ∧ earlier ≤ now) past := by
  refine ⟨fun start => allowedIn_answers_le ?_ sorted,
    fun start => allowedIn_answers_le ?_ sorted, ?_⟩
  · intro a b ha hb
    simp only [decide_eq_true_eq] at ha hb
    omega
  · intro a b ha hb
    simp only [decide_eq_true_eq] at ha hb
    omega
  · intro past now later h
    obtain ⟨hhits, hpast, hrefused⟩ := answer_eq h
    rw [hhits] at sorted
    obtain ⟨hsorted, -, hlast⟩ := List.pairwise_append.mp sorted
    have htallied := tallied_answers interval maxCount hsorted fun earlier hmem =>
      hlast earlier hmem now (List.mem_cons_self ..)
    rw [← hpast] at htallied
    rw [allow_eq] at hrefused
    have hopen : ¬(((new interval maxCount).after (past.map Hit.now)).roll now).count <
        ((new interval maxCount).after (past.map Hit.now)).maxCount := by
      simpa using hrefused.symm
    have hmany := htallied.refused (by rw [maxCount_roll]; exact UInt32.not_lt.mp hopen)
    rw [maxCount_after, interval_after] at hmany
    exact hmany

/-- Two hits per window of ten instants. In the span from 9 on there are three, of two windows. -/
theorem allowance_bounded_twoWindows :
    let told := (new 10 2).answers [0, 9, 9, 10, 11, 12]
    told = [⟨0, true⟩, ⟨9, true⟩, ⟨9, false⟩, ⟨10, true⟩, ⟨11, true⟩, ⟨12, false⟩] ∧
      allowedIn (fun now => 9 ≤ now ∧ now < 9 + 10) told = 3 ∧
      allowedIn (fun now => 9 ≤ now ∧ now < 9 + 10) told ≤ 2 * 2 ∧
      2 ≤ allowedIn (fun earlier => 9 < earlier + 10 ∧ earlier ≤ 9) [⟨0, true⟩, ⟨9, true⟩] := by
  have sorted : [0, 9, 9, 10, 11, 12].Pairwise (· ≤ ·) := by decide
  obtain ⟨hspan, -, hrefused⟩ := allowance_bounded 10 2 sorted
  exact ⟨by decide, by decide, hspan 9, hrefused [⟨0, true⟩, ⟨9, true⟩] 9 _ rfl⟩

end SensorHub.Throttle
