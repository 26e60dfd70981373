import SensorHub.Reserve
/-!
A first-in first-out queue with removal from its young end. `toList` is its view, oldest entry
first; every operation is described through it.
-/

namespace SensorHub

/-- A queue held as two lists: `front` is oldest first, `back` is youngest first. -/
structure Queue (α : Type) where
  front : List α
  back : List α
  size : Nat
  size_eq : size = front.length + back.length

namespace Queue

variable {α : Type} {s : Type}

def empty : Queue α :=
  ⟨[], [], 0, rfl⟩

/-- The entries, oldest first. -/
def toList (q : Queue α) : List α :=
  q.front ++ q.back.reverse

/-- The queue whose entries are `entries`, oldest first. One half of them goes to each list, so
that neither end of the queue is far from its entries. -/
def ofList (entries : List α) : Queue α :=
  let half := (entries.length + 1) / 2
  ⟨entries.take half, (entries.drop half).reverse, entries.length, by
    simp only [List.length_take, List.length_reverse, List.length_drop]; omega⟩

def isEmpty (q : Queue α) : Bool :=
  q.size == 0

def push (q : Queue α) (a : α) : Queue α :=
  ⟨q.front, a :: q.back, q.size + 1, by simp [q.size_eq]; omega⟩

def pop? (q : Queue α) : Option (α × Queue α) :=
  match q with
  | ⟨a :: front, back, size, h⟩ => some (a, ⟨front, back, size - 1, by simp at h; omega⟩)
  | ⟨[], back, _, _⟩ =>
    match back.reverse with
    | [] => none
    | a :: rest => some (a, ofList rest)

/-- Walks `entries` and takes those that `accepts` accepts, at most `max` of them, without
asking about any entry after that. Gives the entries taken, the entries left and the last state
of `accepts`, which may remember what it was asked. -/
def takeUpTo (accepts : s → α → Bool × s) : Nat → s → List α → List α × List α × s
  | 0, state, entries => ([], entries, state)
  | _ + 1, state, [] => ([], [], state)
  | max + 1, state, a :: entries =>
    match accepts state a with
    | (true, state) =>
      let (taken, left, state) := takeUpTo accepts max state entries
      (a :: taken, left, state)
    | (false, state) =>
      let (taken, left, state) := takeUpTo accepts (max + 1) state entries
      (taken, a :: left, state)

theorem length_takeUpTo (accepts : s → α → Bool × s) (max : Nat) (state : s) (entries : List α) :
    (takeUpTo accepts max state entries).1.length +
      (takeUpTo accepts max state entries).2.1.length = entries.length := by
  fun_induction takeUpTo accepts max state entries with
  | case1 state entries => simp
  | case2 => rfl
  | case3 max state a entries next _ taken left last h ih =>
    simp only [h] at ih
    simp only [List.length_cons]
    omega
  | case4 max state a entries next _ taken left last h ih =>
    simp only [h] at ih
    simp only [List.length_cons]
    omega

/-- The walk over `xs ++ ys` is the walk over `xs`, then the walk over `ys` for what may still be
taken. -/
theorem takeUpTo_append (accepts : s → α → Bool × s) (max : Nat) (state : s) (xs ys : List α) :
    takeUpTo accepts max state (xs ++ ys) =
      let (taken, left, next) := takeUpTo accepts max state xs
      let (taken', left', last) := takeUpTo accepts (max - taken.length) next ys
      (taken ++ taken', left ++ left', last) := by
  fun_induction takeUpTo accepts max state xs with
  | case1 state entries => simp [takeUpTo]
  | case2 => simp
  | case3 max state a entries next h taken left last ht ih =>
    rw [ht] at ih
    simp [takeUpTo, h, ih]
  | case4 max state a entries next h taken left last ht ih =>
    rw [ht] at ih
    simp [takeUpTo, h, ih]

/-- Takes up to `max` entries that `accepts` accepts, asking from the youngest to the oldest.
Gives the entries taken, youngest first. The entries of `front` are asked only when those of
`back` do not suffice. -/
def takeFromBack (q : Queue α) (max : Nat) (accepts : s → α → Bool × s) (state : s) :
    List α × Queue α × s :=
  match h : takeUpTo accepts max state q.back with
  | (taken, left, next) =>
    if taken.length = max then
      (taken,
        ⟨q.front, left, q.size - taken.length, by
          have hlen := length_takeUpTo accepts max state q.back
          have hsize := q.size_eq
          simp only [h] at hlen
          omega⟩,
        next)
    else
      let (older, oldest, last) := takeUpTo accepts (max - taken.length) next q.front.reverse
      (taken ++ older, ofList (oldest.reverse ++ left.reverse), last)

/-- The bytes of an entry for which room is reserved. -/
def entryWidth : Nat := 4

/-- Removes up to `max` entries that `accepts` accepts, as `takeFromBack` takes them. Room for
`max` entries is reserved before the first one is asked about; there is no result if that is more
than can be reserved. -/
def removeFromBack (q : Queue α) (max : Nat) (accepts : s → α → Bool × s) (state : s) :
    Option (List α × Queue α × s) :=
  if canReserve max entryWidth then some (q.takeFromBack max accepts state) else none

/-- `removeFromBack` for a condition that remembers nothing. -/
def removeMatching (q : Queue α) (max : Nat) (matching : α → Bool) : Option (List α × Queue α) :=
  (q.removeFromBack max (fun (_ : Unit) a => (matching a, ())) ()).map fun (taken, left, _) =>
    (taken, left)

theorem length_toList (q : Queue α) : q.toList.length = q.size := by
  simp [toList, q.size_eq]

@[simp] theorem toList_empty : (empty : Queue α).toList = [] := rfl

@[simp] theorem toList_ofList (entries : List α) : (ofList entries).toList = entries := by
  simp [toList, ofList]

@[simp] theorem toList_push (q : Queue α) (a : α) : (q.push a).toList = q.toList ++ [a] := by
  simp [toList, push]

/-- Taking from the back is the walk over the entries, youngest first. -/
theorem takeFromBack_toList (q : Queue α) (max : Nat) (accepts : s → α → Bool × s) (state : s) :
    ((q.takeFromBack max accepts state).1,
      (q.takeFromBack max accepts state).2.1.toList.reverse,
      (q.takeFromBack max accepts state).2.2) =
    takeUpTo accepts max state q.toList.reverse := by
  have hview : q.toList.reverse = q.back ++ q.front.reverse := by simp [toList]
  rw [hview, takeUpTo_append]
  unfold takeFromBack
  split
  next taken left next h =>
    by_cases hfull : taken.length = max
    · simp [h, hfull, takeUpTo, toList]
    · simp [h, hfull]

theorem removeFromBack_eq_none {q : Queue α} {max : Nat} {accepts : s → α → Bool × s} {state : s} :
    q.removeFromBack max accepts state = none ↔ 0x2000000000000000 ≤ max := by
  have hreserve : canReserve max entryWidth = true ↔ max < 0x2000000000000000 := by
    rw [canReserve_iff, entryWidth]
    omega
  by_cases h : canReserve max entryWidth = true
  · simpa [removeFromBack, h] using hreserve.mp h
  · simpa [removeFromBack, h] using mt hreserve.mpr h

theorem takeFromBack_of_removed {q : Queue α} {max : Nat} {accepts : s → α → Bool × s} {state : s}
    {removed : List α × Queue α × s} (h : q.removeFromBack max accepts state = some removed) :
    q.takeFromBack max accepts state = removed := by
  unfold removeFromBack at h
  split at h
  next => exact Option.some.inj h
  next => cases h

theorem removeMatching_eq_none {q : Queue α} {max : Nat} {matching : α → Bool} :
    q.removeMatching max matching = none ↔ 0x2000000000000000 ≤ max := by
  rw [removeMatching, Option.map_eq_none_iff, removeFromBack_eq_none]

/-- What is removed is what the walk over the entries takes. -/
theorem removeMatching_eq_some {q left : Queue α} {max : Nat} {matching : α → Bool}
    {taken : List α} (h : q.removeMatching max matching = some (taken, left)) :
    ∃ state, takeUpTo (fun (_ : Unit) a => (matching a, ())) max () q.toList.reverse =
      (taken, left.toList.reverse, state) := by
  have hwalk := q.takeFromBack_toList max (fun (_ : Unit) a => (matching a, ())) ()
  obtain ⟨result, hresult, heq⟩ := Option.map_eq_some_iff.mp h
  cases heq
  rw [takeFromBack_of_removed hresult] at hwalk
  exact ⟨_, hwalk.symm⟩

theorem pop?_eq_none {q : Queue α} (h : q.pop? = none) : q.toList = [] := by
  obtain ⟨front, back, size, hs⟩ := q
  cases front with
  | cons a front => simp [pop?] at h
  | nil =>
    simp only [pop?] at h
    cases hb : back.reverse with
    | nil => simpa [toList] using hb
    | cons a rest => simp [hb] at h

theorem pop?_eq_some {q r : Queue α} {a : α} (h : q.pop? = some (a, r)) :
    q.toList = a :: r.toList := by
  obtain ⟨front, back, size, hs⟩ := q
  cases front with
  | cons b front =>
    simp only [pop?, Option.some.injEq, Prod.mk.injEq] at h
    obtain ⟨rfl, rfl⟩ := h
    simp [toList]
  | nil =>
    simp only [pop?] at h
    cases hb : back.reverse with
    | nil => simp [hb] at h
    | cons b rest =>
      simp only [hb, Option.some.injEq, Prod.mk.injEq] at h
      obtain ⟨rfl, rfl⟩ := h
      rw [toList_ofList]
      simp [toList, hb]

end Queue

end SensorHub
