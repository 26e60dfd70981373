import Mathlib.Algebra.Ring.Nat
import SensorHub.Queue

namespace SensorHub.Queue

variable {α s : Type}

/-- Asks about entries one after the other: the answers, and the state behind the last one. -/
def ask (accepts : s → α → Bool × s) : s → List α → List Bool × s
  | state, [] => ([], state)
  | state, a :: entries =>
    let first := accepts state a
    let rest := ask accepts first.2 entries
    (first.1 :: rest.1, rest.2)

/-- The entries at the places for which `p` holds, in their order. -/
def pick (p : Nat → Bool) (entries : List α) : List α :=
  (entries.zipIdx.filter fun e => p e.2).map Prod.fst

/-- The removal by place, with `entries` oldest first: goes down from `place`, and erases what is
accepted from the list that it walks. -/
def sweep (accepts : s → α → Bool × s) (max : Nat) :
    (place : Nat) → (removed entries : List α) → s → List α × List α × s
  | 0, removed, entries, state => (removed, entries, state)
  | place + 1, removed, entries, state =>
    if removed.length < max then
      match entries[place]? with
      | none => (removed, entries, state)
      | some a =>
        match accepts state a with
        | (true, state) => sweep accepts max place (removed ++ [a]) (entries.eraseIdx place) state
        | (false, state) => sweep accepts max place removed entries state
    else (removed, entries, state)

@[simp] theorem pick_nil (p : Nat → Bool) : pick p ([] : List α) = [] :=
  rfl

@[simp] theorem pick_cons (p : Nat → Bool) (a : α) (entries : List α) :
    pick p (a :: entries) =
      if p 0 then a :: pick (fun place => p (place + 1)) entries
      else pick (fun place => p (place + 1)) entries := by
  have hrest : (entries.zipIdx 1).filter (fun e => p e.2) =
      (entries.zipIdx.filter fun e => p (e.2 + 1)).map fun e => (e.1, e.2 + 1) := by
    rw [List.zipIdx_succ, List.filter_map]
    rfl
  by_cases h : p 0 <;> simp [pick, hrest, h]

theorem pick_all (entries : List α) : pick (fun _ => true) entries = entries := by
  induction entries with
  | nil => rfl
  | cons a entries ih => simp [ih]

theorem pick_none (entries : List α) : pick (fun _ => false) entries = [] := by
  induction entries with
  | nil => rfl
  | cons a entries ih => simp [ih]

theorem pick_concat (p : Nat → Bool) (entries : List α) (a : α) :
    pick p (entries ++ [a]) = pick p entries ++ if p entries.length then [a] else [] := by
  by_cases h : p entries.length <;> simp [pick, List.zipIdx_append, h]

theorem pick_reverse (p : Nat → Bool) (entries : List α) :
    pick p entries.reverse =
      (pick (fun place => p (entries.length - 1 - place)) entries).reverse := by
  induction entries generalizing p with
  | nil => rfl
  | cons a entries ih =>
    have hplaces : (fun place => p ((a :: entries).length - 1 - (place + 1))) =
        fun place => p (entries.length - 1 - place) := by
      funext place
      rw [List.length_cons]
      congr 1
      omega
    rw [List.reverse_cons, pick_concat, ih, List.length_reverse, pick_cons, hplaces]
    by_cases h : p entries.length <;> simp [h]

/-- What a walk over entries comes to, given the answers about those it asked for. -/
structure Walk (accepts : s → α → Bool × s) (max : Nat) (state : s) (entries : List α)
    (answers : List Bool) (taken left : List α) (last : s) : Prop where
  length_le : answers.length ≤ entries.length
  ask_eq : ask accepts state (entries.take answers.length) = (answers, last)
  unsated : ∀ k < answers.length, (answers.take k).count true < max
  stops : answers.count true = max ∨ answers.length = entries.length
  taken_eq : taken = pick (fun place => answers.getD place false) entries
  left_eq : left = pick (fun place => !answers.getD place false) entries

namespace Walk

variable {accepts : s → α → Bool × s} {max : Nat} {state next last : s} {a : α}
  {entries taken left : List α} {answers : List Bool}

theorem idle (stops : max = 0 ∨ entries = []) :
    Walk accepts max state entries [] [] entries state where
  length_le := Nat.zero_le _
  ask_eq := rfl
  unsated := by simp
  stops := by
    rcases stops with rfl | rfl
    · exact .inl rfl
    · exact .inr rfl
  taken_eq := (pick_none entries).symm
  left_eq := (pick_all entries).symm

theorem accepted (answer : accepts state a = (true, next))
    (walk : Walk accepts max next entries answers taken left last) :
    Walk accepts (max + 1) state (a :: entries) (true :: answers) (a :: taken) left last where
  length_le := Nat.succ_le_succ walk.length_le
  ask_eq := by
    rw [List.length_cons, List.take_succ_cons, ask, answer]
    simp only [walk.ask_eq]
  unsated := by
    intro k hk
    cases k with
    | zero => simp
    | succ k =>
      have hrest := walk.unsated k (Nat.lt_of_succ_lt_succ hk)
      rw [List.take_succ_cons, List.count_cons_self]
      omega
  stops := by
    rcases walk.stops with henough | hend
    · left
      rw [List.count_cons_self, henough]
    · right
      rw [List.length_cons, List.length_cons, hend]
  taken_eq := by simp [walk.taken_eq]
  left_eq := by simp [walk.left_eq]

theorem refused (answer : accepts state a = (false, next)) (wants : 0 < max)
    (walk : Walk accepts max next entries answers taken left last) :
    Walk accepts max state (a :: entries) (false :: answers) taken (a :: left) last where
  length_le := Nat.succ_le_succ walk.length_le
  ask_eq := by
    rw [List.length_cons, List.take_succ_cons, ask, answer]
    simp only [walk.ask_eq]
  unsated := by
    intro k hk
    cases k with
    | zero => simpa using wants
    | succ k =>
      have hrest := walk.unsated k (Nat.lt_of_succ_lt_succ hk)
      simpa using hrest
  stops := by
    rcases walk.stops with henough | hend
    · left
      simpa using henough
    · right
      rw [List.length_cons, List.length_cons, hend]
  taken_eq := by simp [walk.taken_eq]
  left_eq := by simp [walk.left_eq]

end Walk

theorem walk_takeUpTo (accepts : s → α → Bool × s) (max : Nat) (state : s) (entries : List α) :
    ∃ answers, Walk accepts max state entries answers (takeUpTo accepts max state entries).1
      (takeUpTo accepts max state entries).2.1 (takeUpTo accepts max state entries).2.2 := by
  fun_induction takeUpTo accepts max state entries with
  | case1 state entries => exact ⟨[], .idle (.inl rfl)⟩
  | case2 max state => exact ⟨[], .idle (.inr rfl)⟩
  | case3 max state a entries next answer taken left last htail ih =>
    obtain ⟨answers, walk⟩ := ih
    rw [htail] at walk
    exact ⟨true :: answers, walk.accepted answer⟩
  | case4 max state a entries next answer taken left last htail ih =>
    obtain ⟨answers, walk⟩ := ih
    rw [htail] at walk
    exact ⟨false :: answers, walk.refused answer (Nat.succ_pos max)⟩

/-- The scan by place walks over the entries in front of it, youngest first: what is behind it has
been looked at and stays. -/
theorem sweep_eq_takeUpTo (accepts : s → α → Bool × s) (max : Nat) (ahead removed behind : List α)
    (state : s) :
    sweep accepts max ahead.length removed (ahead.reverse ++ behind) state =
      let (taken, left, last) := takeUpTo accepts (max - removed.length) state ahead
      (removed ++ taken, left.reverse ++ behind, last) := by
  induction ahead generalizing removed behind state with
  | nil => cases max - removed.length <;> simp [sweep, takeUpTo]
  | cons a ahead ih =>
    by_cases hwants : removed.length < max
    · have hplace : ((a :: ahead).reverse ++ behind)[ahead.length]? = some a := by
        simp
      have herase : ((a :: ahead).reverse ++ behind).eraseIdx ahead.length =
          ahead.reverse ++ behind := by
        simp [List.eraseIdx_append_of_length_le]
      obtain ⟨wanted, hwanted⟩ : ∃ wanted, max - removed.length = wanted + 1 :=
        ⟨max - removed.length - 1, by omega⟩
      rw [List.length_cons, sweep, if_pos hwants, hplace, hwanted]
      cases hanswer : accepts state a with
      | mk answer next =>
        cases answer with
        | true =>
          have hrest : max - (removed ++ [a]).length = wanted := by
            rw [List.length_append, List.length_singleton]
            omega
          simp only [takeUpTo, hanswer, herase, ih, hrest]
          simp
        | false =>
          have hstays : (a :: ahead).reverse ++ behind = ahead.reverse ++ a :: behind := by simp
          simp only [takeUpTo, hanswer, hstays, ih, hwanted]
          simp
    · have hnone : max - removed.length = 0 := by omega
      rw [List.length_cons, sweep, if_neg hwants, hnone]
      simp [takeUpTo]

theorem takeFromBack_eq_sweep (q : Queue α) (max : Nat) (accepts : s → α → Bool × s)
    (state : s) :
    ((q.takeFromBack max accepts state).1, (q.takeFromBack max accepts state).2.1.toList,
      (q.takeFromBack max accepts state).2.2) =
    sweep accepts max q.toList.length [] q.toList state := by
  have hsweep := sweep_eq_takeUpTo accepts max q.toList.reverse [] [] state
  rw [List.length_nil, Nat.sub_zero, ← q.takeFromBack_toList max accepts state] at hsweep
  simpa using hsweep.symm

/-- Removing from the young end fails exactly if no room can be reserved for `max` entries. Otherwise
it asks about the entries one by one from the youngest on, about each at most once and under the
state that the answers before have left, until `max` are accepted or all have been asked about. What
is accepted is given youngest first; the queue keeps the entries at all other places, in their
order. So it is the scan by place that erases as it goes. -/
theorem removeFromBack_exact (q : Queue α) (max : Nat) (accepts : s → α → Bool × s) (state : s) :
    (q.removeFromBack max accepts state = none ↔ 2 ^ 61 ≤ max) ∧
    ∀ removed left last, q.removeFromBack max accepts state = some (removed, left, last) →
      let entries := q.toList
      (removed, left.toList, last) = sweep accepts max entries.length [] entries state ∧
      ∃ answers : List Bool, answers.length ≤ entries.length ∧
        ask accepts state (entries.reverse.take answers.length) = (answers, last) ∧
        (∀ k < answers.length, (answers.take k).count true < max) ∧
        (answers.count true = max ∨ answers.length = entries.length) ∧
        let accepted (place : Nat) := answers.getD (entries.length - 1 - place) false
        removed = (pick accepted entries).reverse ∧
          left.toList = pick (fun place => !accepted place) entries := by
  refine ⟨removeFromBack_eq_none, fun removed left last h => ?_⟩
  have htakes := takeFromBack_of_removed h
  have hsweep := q.takeFromBack_eq_sweep max accepts state
  obtain ⟨answers, walk⟩ := walk_takeUpTo accepts max state q.toList.reverse
  rw [← q.takeFromBack_toList max accepts state] at walk
  rw [htakes] at hsweep walk
  refine ⟨hsweep, answers, ?_, walk.ask_eq, walk.unsated, ?_, ?_, ?_⟩
  · simpa using walk.length_le
  · simpa using walk.stops
  · exact walk.taken_eq.trans (pick_reverse _ _)
  · have hleft := congrArg List.reverse (walk.left_eq.trans (pick_reverse _ _))
    rwa [List.reverse_reverse, List.reverse_reverse] at hleft

/-- As many entries are to be removed as can be named, and only one is queued: the removal fails,
though the scan would have found that entry. -/
theorem removal_fails_unbounded :
    let q := ofList [7]
    let accepts (asked : List Nat) (n : Nat) := (true, asked ++ [n])
    q.removeFromBack (2 ^ 64 - 1) accepts [] = none ∧
      sweep accepts (2 ^ 64 - 1) q.toList.length [] q.toList [] = ([7], [], [7]) :=
  ⟨removeFromBack_eq_none.mpr (by decide), by decide⟩

/-- The youngest two even numbers of six, and what was asked about on the way. -/
example :
    ((ofList [0, 1, 2, 3, 4, 5]).removeFromBack 2 (fun asked n => (n % 2 == 0, asked ++ [n])) []).map
      (fun (removed, left, asked) => (removed, left.toList, asked)) =
        some ([4, 2], [0, 1, 3, 5], [5, 4, 3, 2]) := by
  decide

end SensorHub.Queue
