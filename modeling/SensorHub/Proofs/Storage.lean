import SensorHub.Proofs.Nesting

namespace SensorHub

namespace Queue

variable {α : Type}

/-- A walk that remembers nothing divides the entries into those it takes, which it accepts, and
those it leaves. -/
theorem takeUpTo_divides (accepts : α → Bool) (max : Nat) (entries : List α) :
    ((takeUpTo (fun (_ : Unit) a => (accepts a, ())) max () entries).1 ++
        (takeUpTo (fun (_ : Unit) a => (accepts a, ())) max () entries).2.1).Perm entries ∧
      ∀ a ∈ (takeUpTo (fun (_ : Unit) a => (accepts a, ())) max () entries).1,
        accepts a = true := by
  induction entries generalizing max with
  | nil => cases max <;> simp [takeUpTo]
  | cons a entries ih =>
    cases max with
    | zero => simp [takeUpTo]
    | succ max =>
      cases ha : accepts a with
      | true =>
        obtain ⟨hperm, htaken⟩ := ih max
        simp only [takeUpTo, ha]
        refine ⟨hperm.cons a, fun b hb => ?_⟩
        rcases List.mem_cons.mp hb with rfl | hb
        · exact ha
        · exact htaken b hb
      | false =>
        obtain ⟨hperm, htaken⟩ := ih (max + 1)
        simp only [takeUpTo, ha]
        exact ⟨List.perm_middle.trans (hperm.cons a), htaken⟩

/-- Where a walk ends it has taken everything that it accepts, and it leaves the rest alone. -/
theorem takeUpTo_left (accepts : α → Bool) (max : Nat) (entries : List α) :
    ∃ walked rest, entries = walked ++ rest ∧
      (takeUpTo (fun (_ : Unit) a => (accepts a, ())) max () entries).2.1 =
        walked.filter (fun a => !accepts a) ++ rest := by
  induction entries generalizing max with
  | nil => cases max <;> exact ⟨[], [], rfl, rfl⟩
  | cons a entries ih =>
    cases max with
    | zero => exact ⟨[], a :: entries, rfl, rfl⟩
    | succ max =>
      cases ha : accepts a with
      | true =>
        obtain ⟨walked, rest, rfl, hleft⟩ := ih max
        exact ⟨a :: walked, rest, rfl, by simp only [takeUpTo, ha, hleft]; simp [ha]⟩
      | false =>
        obtain ⟨walked, rest, rfl, hleft⟩ := ih (max + 1)
        exact ⟨a :: walked, rest, rfl, by simp only [takeUpTo, ha, hleft]; simp [ha]⟩

/-- Removing from the back divides the queue into the entries removed, which match, and those
left, in their order. Behind some place nothing is left that matches, and in front of it everything
is. -/
theorem removeMatching_divides {q left : Queue α} {max : Nat} {matching : α → Bool}
    {taken : List α} (h : q.removeMatching max matching = some (taken, left)) :
    (taken ++ left.toList).Perm q.toList ∧ (∀ a ∈ taken, matching a = true) ∧
      ∃ older younger, q.toList = older ++ younger ∧
        left.toList = older ++ younger.filter fun a => !matching a := by
  obtain ⟨_, hwalk⟩ := removeMatching_eq_some h
  obtain ⟨hperm, htaken⟩ := takeUpTo_divides matching max q.toList.reverse
  obtain ⟨walked, rest, hentries, hleft⟩ := takeUpTo_left matching max q.toList.reverse
  rw [hwalk] at hperm htaken hleft
  refine ⟨?_, htaken, rest.reverse, walked.reverse, ?_, ?_⟩
  · exact ((List.reverse_perm _).symm.append_left taken).trans (hperm.trans (List.reverse_perm _))
  · rw [← List.reverse_append, ← hentries, List.reverse_reverse]
  · rw [List.filter_reverse, ← List.reverse_append, ← hleft, List.reverse_reverse]

end Queue

variable {σ : Type}

/-- The posting with its event stamped at an instant. -/
def Posting.stamped (posting : Posting σ) (now : Nat) : Posting σ :=
  { posting with event := { posting.event with stamp := Clock.stamp now } }

namespace Hub

variable {hub hub' : Hub σ} {posting : Posting σ} {live : List Handle} {frames : List (Frame σ)}

/-- An event is queued in a slot of its own. -/
structure Admits (hub : Hub σ) (posting : Posting σ) (handle : Handle) (hub' : Hub σ) : Prop where
  inspect : ∀ k, hub'.pool.inspect k =
    if handle = k then some (posting.stamped hub.now) else hub.pool.inspect k
  capacity : hub'.pool.capacity = hub.pool.capacity
  queue : hub'.queue.toList = hub.queue.toList ++ [handle]
  postings : hub'.postings = hub.postings
  journal : ∃ news, hub'.journal = .admitted posting.serial hub.now :: (news ++ hub.journal) ∧
    ∀ i ∈ news, i.isQuiet = true

/-- Events leave the queue to make room. -/
structure Evicts (hub : Hub σ) (evicted : List Handle) (hub' : Hub σ) : Prop where
  pool : hub'.pool = hub.pool
  perm : (evicted ++ hub'.queue.toList).Perm hub.queue.toList
  /-- Behind some place nothing stays that may go, and in front of it everything does. -/
  tail : ∃ older younger, hub.queue.toList = older ++ younger ∧
    hub'.queue.toList = older ++ younger.filter fun handle => !hub.evictable handle
  evictable : ∀ handle ∈ evicted, hub.evictable handle = true
  postings : hub'.postings = hub.postings
  journal : hub'.journal = hub.journal

theorem Evicts.order {evicted : List Handle} (h : hub.Evicts evicted hub') :
    hub'.queue.toList.Sublist hub.queue.toList := by
  obtain ⟨older, younger, hbefore, hafter⟩ := h.tail
  rw [hbefore, hafter]
  exact List.filter_sublist.append_left older

theorem logAll_eq (hub : Hub σ) (reports : List LogRecord) :
    hub.logAll reports =
      { hub with journal := (reports.map Incident.logged).reverse ++ hub.journal } := by
  induction reports generalizing hub with
  | nil => rfl
  | cons report reports ih =>
    rw [logAll, List.foldl_cons]
    refine (ih (hub.log report)).trans ?_
    simp [log, record]

/-- With room in the pool an event is queued, in a slot that was not handed out. -/
theorem enqueue_room (hs : hub.pool.Sound live) (hroom : live.length ≠ hub.pool.capacity)
    (posting : Posting σ) :
    ∃ handle hub', hub.enqueue posting = (true, hub') ∧ hub.Admits posting handle hub' ∧
      handle ∉ live ∧ hub'.pool.Sound (handle :: live) := by
  obtain ⟨handle, pool, reports, heq, hnew, hsound, hcap, hinspect, hgrew⟩ :=
    hs.allocate hroom (posting.stamped hub.now)
  have hresult : hub.enqueue posting =
      (true, { ({ hub with pool := pool } : Hub σ).logAll reports with
        queue := hub.queue.push handle }.record (.admitted posting.serial hub.now)) := by
    unfold enqueue
    dsimp only
    rw [Posting.stamped] at heq
    rw [heq, logAll_eq]
  rw [logAll_eq] at hresult
  refine ⟨handle, _, hresult, ⟨hinspect, hcap, Queue.toList_push .., rfl, ?_⟩, hnew, hsound⟩
  refine ⟨(reports.map Incident.logged).reverse, rfl, fun i hi => ?_⟩
  simp only [List.mem_reverse, List.mem_map] at hi
  obtain ⟨report, hr, rfl⟩ := hi
  obtain ⟨blocks, slots, rfl⟩ := hgrew report hr
  rfl

/-- Without room in the pool an event is not queued, and nothing is touched. -/
theorem enqueue_full (hs : hub.pool.Sound live) (hfull : live.length = hub.pool.capacity)
    (posting : Posting σ) : ∃ hub', hub.enqueue posting = (false, hub') ∧ hub.Calm hub' := by
  have heq := hs.allocate_full hfull (posting.stamped hub.now)
  have hresult : hub.enqueue posting =
      (false, ({ hub with pool := { hub.pool with exhausted := hub.pool.exhausted + 1 } } :
        Hub σ).log (.notAllocated posting.event.type posting.event.target)) := by
    unfold enqueue
    dsimp only
    rw [Posting.stamped] at heq
    rw [heq]
    rfl
  refine ⟨_, hresult, ?_⟩
  have exhausted : hub.Calm
      { hub with pool := { hub.pool with exhausted := hub.pool.exhausted + 1 } } := by
    refine ⟨fun _ => rfl, fun live h => ?_, rfl, rfl, rfl, [], rfl, by simp⟩
    exact ⟨h.blockSize_pos, h.capacity_le, h.blocks_le, h.nodup, h.made, h.count, h.allocated⟩
  exact exhausted.log rfl

theorem enqueue_true (hs : hub.pool.Sound live) (h : hub.enqueue posting = (true, hub')) :
    ∃ handle, hub.Admits posting handle hub' ∧ handle ∉ live ∧
      hub'.pool.Sound (handle :: live) := by
  by_cases hroom : live.length = hub.pool.capacity
  · obtain ⟨_, heq, -⟩ := enqueue_full hs hroom posting
    rw [heq] at h
    cases h
  · obtain ⟨handle, _, heq, hadmits, hnew, hsound⟩ := enqueue_room hs hroom posting
    rw [heq] at h
    cases h
    exact ⟨handle, hadmits, hnew, hsound⟩

theorem enqueue_false (hs : hub.pool.Sound live) (h : hub.enqueue posting = (false, hub')) :
    hub.Calm hub' := by
  by_cases hroom : live.length = hub.pool.capacity
  · obtain ⟨_, heq, hcalm⟩ := enqueue_full hs hroom posting
    rw [heq] at h
    cases h
    exact hcalm
  · obtain ⟨_, _, heq, -⟩ := enqueue_room hs hroom posting
    rw [heq] at h
    cases h

theorem makeRoom_evicts {evicted : List Handle} (h : hub.makeRoom = (.found evicted, hub')) :
    hub.Evicts evicted hub' := by
  unfold makeRoom at h
  dsimp only at h
  split at h
  next =>
    cases h
    exact ⟨rfl, .refl _, ⟨_, [], (List.append_nil _).symm, by simp⟩, by simp, rfl, rfl⟩
  next =>
    split at h
    next => cases h
    next => cases h
    next removed queue _ hr =>
      cases h
      obtain ⟨hperm, htaken, htail⟩ := Queue.removeMatching_divides hr
      exact ⟨rfl, hperm, htail, htaken, rfl, rfl⟩

theorem detach_cases (h : hub.detach posting = (hub', frames)) :
    (posting.completion = .nothing ∧ hub' = hub ∧ frames = []) ∨
    (∃ callback, posting.completion = .free callback ∧
      hub' = hub.record (.freed posting.serial posting.event.type posting.event.payload) ∧
      frames = [.code (.handle (.detached posting.serial posting.event.sender))
        (callback posting.event.type posting.event.payload)]) ∨
    ∃ work, posting.completion = .work work ∧
      hub' = (hub.record (.discarded posting.serial)).log (.taskDiscarded posting.event.type) ∧
      frames = [] := by
  unfold detach at h
  split at h
  next hc =>
    cases h
    exact .inl ⟨hc, rfl, rfl⟩
  next callback hc =>
    cases h
    exact .inr (.inl ⟨callback, hc, rfl, rfl⟩)
  next work hc =>
    cases h
    exact .inr (.inr ⟨work, hc, rfl, rfl⟩)

/-- What became of a posted event, on a hub whose slots are in order. -/
theorem posted_cases (hs : hub.pool.Sound live) (h : hub.Posted posting hub' frames) :
    (hub.running = true ∧ frames = [] ∧ ∃ handle, hub.Admits posting handle hub' ∧
      handle ∉ live ∧ hub'.pool.Sound (handle :: live)) ∨
    (hub.running = true ∧ ∃ evicted, hub.Evicts evicted hub' ∧
      frames = [.evict evicted, .enqueue posting]) ∨
    (posting.completion = .nothing ∧ hub.Calm hub' ∧ frames = []) ∨
    (∃ callback hub₁, posting.completion = .free callback ∧ hub.Calm hub₁ ∧
      hub' = hub₁.record (.freed posting.serial posting.event.type posting.event.payload) ∧
      frames = [.code (.handle (.detached posting.serial posting.event.sender))
        (callback posting.event.type posting.event.payload)]) ∨
    ∃ work, posting.completion = .work work ∧ hub.running = false ∧
      hub' = hub.record (.discarded posting.serial) ∧ frames = [] := by
  have turned : ∀ {hub₁}, (∀ work, posting.completion ≠ .work work) → hub.Calm hub₁ →
      hub₁.detach posting = (hub', frames) →
      (posting.completion = .nothing ∧ hub.Calm hub' ∧ frames = []) ∨
      ∃ callback hub₁, posting.completion = .free callback ∧ hub.Calm hub₁ ∧
        hub' = hub₁.record (.freed posting.serial posting.event.type posting.event.payload) ∧
        frames = [.code (.handle (.detached posting.serial posting.event.sender))
          (callback posting.event.type posting.event.payload)] := by
    intro hub₁ plain calm hd
    rcases detach_cases hd with ⟨hc, rfl, rfl⟩ | ⟨callback, hc, rfl, rfl⟩ | ⟨work, hc, -⟩
    · exact .inl ⟨hc, calm, rfl⟩
    · exact .inr ⟨callback, hub₁, hc, calm, rfl, rfl⟩
    · exact absurd hc (plain work)
  cases h with
  | queued running he => exact .inl ⟨running, rfl, enqueue_true hs he⟩
  | reserved running hm => exact .inr (.inl ⟨running, _, makeRoom_evicts hm, rfl⟩)
  | refused plain calm _ hd =>
    rcases turned plain calm hd with h | h
    · exact .inr (.inr (.inl h))
    · exact .inr (.inr (.inr (.inl h)))
  | @dropped hub₁ hub₂ _ _ plain _ he count hd =>
    have counted : hub.Calm { hub₁ with dropped := hub₁.dropped + 1 } :=
      (enqueue_false hs he).same rfl rfl rfl rfl
    have calm : hub.Calm (hub₂.log (.dropped posting.event.type posting.event.target)) := by
      rw [count]
      exact (counted.record rfl).log rfl
    rcases turned plain calm hd with h | h
    · exact .inr (.inr (.inl h))
    · exact .inr (.inr (.inr (.inl h)))
  | discarded hw stopped => exact .inr (.inr (.inr (.inr ⟨_, hw, stopped, rfl, rfl⟩)))

end Hub

end SensorHub
