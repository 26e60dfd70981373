import Mathlib.Algebra.Ring.Nat
import SensorHub.Proofs.Losses

namespace SensorHub

variable {σ : Type}

open Ledger

namespace Frame

variable {hub hub' : Hub σ} {frame : Frame σ} {frames : List (Frame σ)} {below : List (Cargo σ)}

/-- The frame is about to post an event that may be dropped, and the post will pass the checks. -/
def Submits (hub : Hub σ) (frame : Frame σ) : Prop :=
  hub.running = true ∧ ∃ event, frame.droppable? hub = some event ∧ ¬hub.Refuses event

/-- A step settles the event that it posts past the checks, and nothing else. -/
theorem step_settled (placed : ∀ i, frame.index? = some i → i < hub.apps.length)
    (ht : hub.Tidy (frame.cargo ++ below))
    (numbered : ∀ serial ∈ admissions hub.journal, serial < hub.postings)
    (unlisted : hub.postings ∉ lows hub.journal)
    (high : ∀ p, .waiting p ∈ frame.cargo → p.serial ∉ lows hub.journal)
    (h : frame.step hub = .go hub' frames) :
    (frame.Submits hub → settled hub'.journal = settled hub.journal + 1) ∧
      (¬frame.Submits hub → settled hub'.journal = settled hub.journal) := by
  cases hd : frame.droppable? hub with
  | none =>
    have hsame := (step_traffic placed h).settled ht numbered unlisted high hd
    refine ⟨fun ⟨_, event, hsome, _⟩ => ?_, fun _ => hsame⟩
    rw [hd] at hsome
    cases hsome
  | some event =>
    obtain ⟨free, upper, next, low, -, -, posted⟩ := step_droppable hd h
    have still := Hub.Calm.refl (hub.offer .low event (.ofCallback free)).2
    obtain ⟨hoffered, hlisted⟩ := Hub.settled_offer numbered unlisted (.refl hub) still rfl
    have hlow : (hub.offer .low event (.ofCallback free)).1.serial ∈
        lows (hub.offer .low event (.ofCallback free)).2.journal ↔
          (hub.offer .low event (.ofCallback free)).1.event.lowPriority = true :=
      iff_of_true (hlisted.mpr rfl) low
    obtain ⟨hpassed, hrefused⟩ := Hub.settled_posted (ht.offer _ _ _) hlow posted
    refine ⟨fun ⟨running, other, hother, passes⟩ => ?_, fun hno => ?_⟩
    · rw [hd] at hother
      cases hother
      rw [hpassed low running passes, hoffered]
    · have refused : hub.running = false ∨ hub.Refuses event := by
        by_contra hnot
        obtain ⟨hruns, passes⟩ := not_or.mp hnot
        exact hno ⟨by simpa using hruns, event, hd, passes⟩
      rw [hrefused (.inr refused), hoffered]

end Frame

namespace Machine

variable {m m' start : Machine σ}

/-- In every run what is handed over as an event that may be dropped is of low priority, and
nothing else is. -/
theorem Reachable.sorted (hm : m.Reachable) : Ledger.Sorted m.hub.journal := by
  refine hm.keeps (P := fun hub _ => Ledger.Sorted hub.journal) ?_ ?_ ?_
  · intro config collaborators memory now routine _ serial way event hasCallback h
    cases h
  · intro hub hub' frame frames rest hm hs h
    have hmoves := hm.moves hm.balanced h
    have hkept : ∀ {l l' : Ledger σ}, Moves l l' → Ledger.Sorted l.journal →
        Ledger.Sorted l'.journal := by
      intro l l' h hs
      induction h with
      | refl => exact hs
      | tail _ hmove ih => exact hmove.sorted ih
    exact hkept hmoves hs
  · intro hub frames routine hs
    exact hs

/-- An event that waits outside the queue is critical. -/
theorem Reachable.critical (hm : m.Reachable) :
    ∀ p, .waiting p ∈ m.cargo → p.event.lowPriority = false := by
  refine hm.keeps (P := fun _ frames => ∀ p, .waiting p ∈ frames.flatMap Frame.cargo →
    p.event.lowPriority = false) ?_ ?_ ?_
  · intro config collaborators memory now routine _ p hp
    simp [Frame.cargo] at hp
  · intro hub hub' frame frames rest hm hc h p hp
    rw [List.flatMap_append] at hp
    rcases List.mem_append.mp hp with hp | hp
    · refine (hm.traffic h).critical hm.tidy (fun q hq => hc q ?_) p hp
      exact List.mem_append_left _ hq
    · exact hc p (List.mem_append_right _ hp)
  · intro hub frames routine hc p hp
    exact hc p hp

/-- An event that is not done was handed over as one that may be dropped if it is of low
priority. -/
theorem Reachable.low_iff (hm : m.Reachable) {p : Posting σ}
    (hp : p ∈ m.books.pending ++ m.books.out) :
    p.serial ∈ lows m.hub.journal ↔ p.event.lowPriority = true := by
  obtain ⟨way, event, hoffered, kind, hevent⟩ := hm.balanced.vouched p hp
  rw [mem_lows, hevent]
  constructor
  · rintro ⟨other, hasCallback, hlow⟩
    obtain ⟨rfl, rfl, -⟩ :=
      Ledger.offered_unique (hm.balanced.offers_le p.serial) hlow hoffered
    exact (hm.sorted _ _ _ _ hoffered).mp rfl
  · intro hlow
    obtain rfl := (hm.sorted _ _ _ _ hoffered).mpr hlow
    exact ⟨_, _, hoffered⟩

theorem Reachable.unlisted (hm : m.Reachable) : m.hub.postings ∉ lows m.hub.journal := by
  intro h
  obtain ⟨event, hasCallback, hoffered⟩ := mem_lows.mp h
  have hnone := hm.balanced.numbered m.hub.postings
  have hnext : m.books.next = m.hub.postings := rfl
  rw [hnext, if_neg (Nat.lt_irrefl _)] at hnone
  have hpos : 0 < tally Incident.offers? m.hub.postings m.hub.journal :=
    List.count_pos_iff.mpr (List.mem_filterMap.mpr ⟨_, hoffered, rfl⟩)
  exact absurd hnone (Nat.ne_of_gt hpos)

theorem Reachable.counted (hm : m.Reachable) : m.hub.Counted m.cargo := by
  refine hm.keeps (P := fun hub frames => hub.Counted (frames.flatMap Frame.cargo)) ?_ ?_ ?_
  · intro config collaborators memory now routine _
    rfl
  · intro hub hub' frame frames rest hm hc h
    rw [List.flatMap_append]
    exact (hm.traffic h).counted hm.tidy hc
  · intro hub frames routine hc
    exact hc

/-- What has left the queue to make room was handed over by the system, as an event that may be
dropped. -/
theorem Reachable.gone_low (hm : m.Reachable) {serial : Nat} (h : serial ∈ m.row.gone) :
    ∃ event hasCallback, .offered serial .low event hasCallback ∈ m.hub.journal ∧
      event.sender = systemId := by
  have hoffered : ∃ way event hasCallback,
      .offered serial way event hasCallback ∈ m.hub.journal ∧ event.isEvictable = true := by
    rcases List.mem_append.mp h with h | h
    · obtain ⟨incident, hi, hserial⟩ := List.mem_filterMap.mp h
      cases incident with
      | evicted number =>
        cases hserial
        exact hm.evicted_low hi
      | _ => cases hserial
    · obtain ⟨posting, hp, rfl⟩ := List.mem_map.mp h
      exact hm.doomed_low hp
  obtain ⟨way, event, hasCallback, hoffered, hevictable⟩ := hoffered
  simp only [Event.isEvictable, Bool.and_eq_true, beq_iff_eq] at hevictable
  obtain rfl := (hm.sorted _ _ _ _ hoffered).mpr hevictable.1
  exact ⟨event, hasCallback, hoffered, hevictable.2⟩

def lowTaken (m : Machine σ) : Nat :=
  ((pops m.hub.journal).filter (· ∈ lows m.hub.journal)).length

def lowQueued (m : Machine σ) : Nat :=
  m.hub.waiting.countP fun p => p.event.lowPriority

theorem Reachable.settled_eq (hm : m.Reachable) :
    settled m.hub.journal = m.lowTaken + m.lowQueued + m.row.gone.length +
      (drops m.hub.journal).length := by
  have hperm := (hm.inOrder.perm.filter (· ∈ lows m.hub.journal)).length_eq
  have hgone : m.row.gone.filter (· ∈ lows m.hub.journal) = m.row.gone := by
    refine List.filter_eq_self.mpr fun serial hs => decide_eq_true ?_
    obtain ⟨event, hasCallback, hoffered, -⟩ := hm.gone_low hs
    exact mem_lows.mpr ⟨event, hasCallback, hoffered⟩
  have hwaiting : ((m.hub.waiting.map Posting.serial).filter
      (· ∈ lows m.hub.journal)).length = m.lowQueued := by
    rw [← List.countP_eq_length_filter, List.countP_map]
    refine List.countP_congr fun p hp => ?_
    obtain ⟨handle, hh, hheld⟩ := List.mem_filterMap.mp hp
    have hpending : p ∈ m.books.pending ++ m.books.out := Hub.mem_books.mpr (.inl ⟨handle, hh, hheld⟩)
    simpa using hm.low_iff hpending
  have hrow : m.row.journal = m.hub.journal ∧ m.row.waiting = m.hub.waiting := ⟨rfl, rfl⟩
  rw [hrow.1, hrow.2, List.filter_append, List.filter_append, hgone, List.length_append,
    List.length_append, hwaiting] at hperm
  rw [settled, hperm]
  rfl

/-- The count of lost events is what has left to make room and what was dropped. -/
theorem Reachable.dropped_eq (hm : m.Reachable) :
    m.hub.dropped = UInt32.ofNat ((drops m.hub.journal).length + m.row.gone.length) := by
  have hdoomed : m.row.doomed.length = m.cargo.countP Cargo.isDoomed := by
    have hcount : ∀ cargo : List (Cargo σ), (∀ item ∈ cargo, item ∈ m.cargo) →
        (cargo.filterMap m.hub.doomed?).length = cargo.countP Cargo.isDoomed := by
      intro cargo hsub
      induction cargo with
      | nil => rfl
      | cons item cargo ih =>
        have hrest := ih fun other ho => hsub other (List.mem_cons_of_mem _ ho)
        have hitem : (m.hub.doomed? item).isSome = item.isDoomed := by
          cases item with
          | doomed handle =>
            refine hm.tidy.stored handle (List.mem_append_right _ ?_)
            exact List.mem_filterMap.mpr ⟨_, hsub _ (List.mem_cons_self ..), rfl⟩
          | _ => rfl
        rw [List.countP_cons, ← hrest, ← hitem, List.filterMap_cons]
        cases m.hub.doomed? item <;> rfl
    exact hcount m.cargo fun _ h => h
  have hcounted : m.hub.dropped = UInt32.ofNat (m.hub.lost m.cargo) := hm.counted
  rw [hcounted, Row.gone, List.length_append, List.length_map, hdoomed, Hub.lost, Nat.add_assoc]
  rfl

/-- The machine is about to post an event that may be dropped, and the post will pass the checks:
the hub runs, and the sender is not stopping. -/
def Submits (m : Machine σ) : Prop :=
  m.hub.running = true ∧
    ∃ event free next rest, m.PostsLow event free next rest ∧ ¬m.hub.Refuses event

theorem PostsLow.droppable {event : Event} {free : Option (FreeCallback σ)}
    {next : Bool → Frame σ} {rest : List (Frame σ)} (h : m.PostsLow event free next rest) :
    ∃ frame, m.frames = frame :: rest ∧
      frame.droppable? m.hub = some { event with lowPriority := true } := by
  cases h with
  | handle => exact ⟨_, rfl, rfl⟩
  | context ha =>
    refine ⟨_, rfl, ?_⟩
    simp only [Frame.droppable?, Routine.droppable?, ha, Option.map_some]

theorem postsLow_of_droppable {hub : Hub σ} {frame : Frame σ} {event : Event}
    (rest : List (Frame σ)) (h : frame.droppable? hub = some event) :
    ∃ event' free next, PostsLow ⟨hub, frame :: rest⟩ event' free next rest ∧
      event = { event' with lowPriority := true } := by
  cases frame with
  | code actor routine =>
    cases routine with
    | postLow event free next =>
      cases h
      exact ⟨_, _, _, .handle, rfl⟩
    | send event free next =>
      cases ha : hub.apps[actor.index]? with
      | none =>
        simp only [Frame.droppable?, Routine.droppable?, ha] at h
        cases h
      | some app =>
        simp only [Frame.droppable?, Routine.droppable?, ha, Option.map_some] at h
        cases h
        exact ⟨_, _, _, .context ha, rfl⟩
    | _ => cases h
  | _ => cases h

theorem submits_iff {hub : Hub σ} {frame : Frame σ} {rest : List (Frame σ)} :
    Submits ⟨hub, frame :: rest⟩ ↔ frame.Submits hub := by
  constructor
  · rintro ⟨running, event, free, next, _, hposts, passes⟩
    obtain ⟨_, hframes, hd⟩ := hposts.droppable
    cases hframes
    exact ⟨running, _, hd, passes⟩
  · rintro ⟨running, event, hd, passes⟩
    obtain ⟨event', free, next, hposts, rfl⟩ := postsLow_of_droppable rest hd
    exact ⟨running, event', free, next, rest, hposts, passes⟩

/-- A run from one machine to another, in which this many posts of events that may be dropped have
passed the checks. -/
inductive Passing (start : Machine σ) : Nat → Machine σ → Prop
  | refl : Passing start 0 start
  | submit {n m m'} (run : Passing start n m) (h : m.Submits) (hs : m.step = .stepped m') :
      Passing start (n + 1) m'
  | step {n m m'} (run : Passing start n m) (h : ¬m.Submits) (hs : m.step = .stepped m') :
      Passing start n m'
  | interrupt {n m} (run : Passing start n m) (routine : Routine σ .handle .nothing) :
      Passing start n (m.interrupt routine)

variable {n : Nat}

theorem Passing.reaches (h : start.Passing n m) : start.Reaches m := by
  induction h with
  | refl => exact .refl
  | submit _ _ hs ih | step _ _ hs ih => exact ih.tail (.step hs)
  | interrupt _ routine ih => exact ih.tail (.interrupt routine)

/-- Of every run it can be told how many posts passed. -/
theorem Reaches.passing (h : start.Reaches m) : ∃ n, start.Passing n m := by
  induction h with
  | refl => exact ⟨0, .refl⟩
  | @tail m _ _ hmove ih =>
    obtain ⟨n, run⟩ := ih
    cases hmove with
    | step hs =>
      by_cases hsubmits : m.Submits
      · exact ⟨n + 1, run.submit hsubmits hs⟩
      · exact ⟨n, run.step hsubmits hs⟩
    | interrupt routine => exact ⟨n, run.interrupt routine⟩

theorem Reachable.step_settled (hm : m.Reachable) (hs : m.step = .stepped m') :
    (m.Submits → settled m'.hub.journal = settled m.hub.journal + 1) ∧
      (¬m.Submits → settled m'.hub.journal = settled m.hub.journal) := by
  obtain ⟨hub, frame, rest, hub', frames, rfl, hgo, rfl⟩ := step_eq_stepped.mp hs
  have high : ∀ p, .waiting p ∈ frame.cargo → p.serial ∉ lows hub.journal := by
    intro p hp hlow
    have hmem : .waiting p ∈ cargo ⟨hub, frame :: rest⟩ := List.mem_append_left _ hp
    have hcritical := hm.critical p hmem
    rw [(hm.low_iff (Hub.mem_books.mpr (.inr (.inr (.inl hmem))))).mp hlow] at hcritical
    cases hcritical
  rw [submits_iff]
  exact Frame.step_settled hm.nested.1 hm.tidy hm.lined.numbered hm.unlisted high hgo

theorem Passing.settled (hs : start.IsStart) (h : start.Passing n m) :
    SensorHub.settled m.hub.journal = n := by
  induction h with
  | refl =>
    obtain ⟨config, collaborators, memory, now, routine, -, rfl⟩ := isStart_iff.mp hs
    rfl
  | submit run hsubmits hstep ih =>
    rw [(Reachable.step_settled ⟨start, hs, run.reaches⟩ hstep).1 hsubmits, ih]
  | step run hsubmits hstep ih =>
    rw [(Reachable.step_settled ⟨start, hs, run.reaches⟩ hstep).2 hsubmits, ih]
  | interrupt run routine ih => exact ih

theorem lows_kept (hm : m.Reachable) (hr : m.Reaches m') {serial : Nat}
    (h : serial < m.hub.postings) :
    serial ∈ lows m'.hub.journal ↔ serial ∈ lows m.hub.journal := by
  constructor
  · intro hlow
    obtain ⟨event, hasCallback, hoffered⟩ := mem_lows.mp hlow
    have once := hm.balanced.numbered serial
    have hnext : m.books.next = m.hub.postings := rfl
    rw [hnext, if_pos h] at once
    obtain ⟨incident, hi, hserial⟩ := List.mem_filterMap.mp
      (List.count_pos_iff.mp (once ▸ Nat.one_pos : 0 < tally Incident.offers? serial m.hub.journal))
    cases incident with
    | offered number way event' hasCallback' =>
      cases hserial
      obtain ⟨rfl, -, -⟩ := Ledger.offered_unique ((hm.reaches hr).balanced.offers_le serial)
        hoffered (Reaches.remembers hm hr hi)
      exact mem_lows.mpr ⟨event', hasCallback', hi⟩
    | _ => cases hserial
  · intro hlow
    obtain ⟨event, hasCallback, hoffered⟩ := mem_lows.mp hlow
    exact mem_lows.mpr ⟨event, hasCallback, Reaches.remembers hm hr hoffered⟩

theorem lowTaken_eq (hm : m.Reachable) (hr : m.Reaches m')
    (same : pops m'.hub.journal = pops m.hub.journal) : m'.lowTaken = m.lowTaken := by
  have hpopped : ∀ serial ∈ pops m.hub.journal, serial < m.hub.postings := by
    intro serial hs
    exact hm.lined.numbered serial (hm.inOrder.order.subset (List.mem_append_left _ hs))
  have hfilter : (pops m.hub.journal).filter (· ∈ lows m'.hub.journal) =
      (pops m.hub.journal).filter (· ∈ lows m.hub.journal) :=
    List.filter_congr fun serial hs => decide_eq_decide.mpr (lows_kept hm hr (hpopped serial hs))
  rw [lowTaken, same, hfilter, lowTaken]

/-- A post that the checks refuse changes nothing but the journal. -/
theorem refused_kept (hm : m.Reachable) {event : Event} {free : Option (FreeCallback σ)}
    {next : Bool → Frame σ} {rest : List (Frame σ)} (hp : m.PostsLow event free next rest)
    (h : m.hub.running = false ∨ m.hub.Refuses event) :
    ∃ m', m.step = .stepped m' ∧
      m'.hub = { m.hub with journal := m'.hub.journal, postings := m.hub.postings + 1 } ∧
      m'.lowTaken = m.lowTaken := by
  have refused : (m.hub.offer .low { event with lowPriority := true }
        (.ofCallback free)).2.running = false ∨
      (m.hub.offer .low { event with lowPriority := true } (.ofCallback free)).2.Refuses
        (lowPosting m.hub event free).event := h
  obtain ⟨news, hkept, haside⟩ := Hub.postDroppable_kept refused
  rcases hpost : (m.hub.offer .low { event with lowPriority := true }
    (.ofCallback free)).2.postDroppable (lowPosting m.hub event free) with ⟨accepted, hub', upper⟩
  have hstep := hp.stepped hpost
  rw [hpost] at hkept
  obtain rfl : hub' = _ := hkept
  refine ⟨_, hstep, rfl, lowTaken_eq hm (.single (.step hstep)) ?_⟩
  have hpops : pops (news ++ .offered m.hub.postings .low { event with lowPriority := true }
      (Completion.ofCallback free).hasCallback :: m.hub.journal) = pops m.hub.journal := by
    rw [pops, filterMap_aside fun i hi => (Incident.names_of_isAside (haside i hi)).2.1]
    rfl
  exact hpops

/-- The accounts of the events that may be dropped balance at every point of every run. -/
theorem low_posts_accounted (hs : start.IsStart) (hr : start.Passing n m) :
    n = m.lowTaken + m.lowQueued + m.row.gone.length + (drops m.hub.journal).length ∧
    n % 2 ^ 32 = (m.hub.dropped.toNat + m.lowTaken + m.lowQueued) % 2 ^ 32 ∧
    m.hub.dropped = UInt32.ofNat ((drops m.hub.journal).length + m.row.gone.length) ∧
    (∀ event free next rest, m.PostsLow event free next rest →
      m.hub.running = false ∨ m.hub.Refuses event →
        ∃ m', m.step = .stepped m' ∧
          m'.hub = { m.hub with journal := m'.hub.journal, postings := m.hub.postings + 1 } ∧
          m'.lowTaken = m.lowTaken) ∧
    ∀ serial way event hasCallback, .offered serial way event hasCallback ∈ m.hub.journal →
      way ≠ .low ∨ event.sender ≠ systemId → serial ∉ m.row.gone := by
  have hm : m.Reachable := ⟨start, hs, hr.reaches⟩
  have hclasses := (hr.settled hs).symm.trans hm.settled_eq
  refine ⟨hclasses, ?_, hm.dropped_eq, fun event free next rest hp h => refused_kept hm hp h, ?_⟩
  · rw [hclasses, hm.dropped_eq, UInt32.toNat_ofNat']
    omega
  · intro serial way event hasCallback hoffered hnot hgone
    obtain ⟨low, _, hlow, system⟩ := hm.gone_low hgone
    obtain ⟨rfl, rfl, -⟩ :=
      Ledger.offered_unique (hm.balanced.offers_le serial) hlow hoffered
    rcases hnot with hnot | hnot
    · exact hnot rfl
    · exact hnot system

/-- Posts four events that may be dropped to a hub with two slots. The first one is taken from the
queue, the second one stays in it, the third one makes room for a critical event, and the fourth
one is dropped. -/
def fourFates : Machine Unit :=
  launch (.create { Config.default with eventBlocks := 1, eventsPerBlock := 2, evictTarget := 1 }
    .none () 0) <|
  .postLow (Event.new EventType.firstUser) none fun _ =>
  .runUntilIdle fun _ =>
  .postLow (Event.new EventType.firstUser) none fun _ =>
  .postLow (Event.new EventType.firstUser) none fun _ =>
  .postLow (Event.new EventType.firstUser) none fun _ =>
  .post (Event.new EventType.firstUser) none <|
  .done ()

theorem low_posts_accounted_fourFates :
    ∃ n, fourFates.Passing n (fourFates.advance 21).1 ∧ n = 1 + 1 + 1 + 1 ∧
      (fourFates.advance 21).1.hub.dropped = 2 := by
  have hs : fourFates.IsStart := isStart_iff.mpr ⟨_, .none, (), 0, _, rfl, rfl⟩
  have hreaches : fourFates.Reaches (fourFates.advance 21).1 :=
    reaches_unfinished (by decide +kernel)
  obtain ⟨n, hr⟩ := hreaches.passing
  obtain ⟨hclasses, -, hdropped, -⟩ := low_posts_accounted hs hr
  have htaken : (fourFates.advance 21).1.lowTaken = 1 := by decide +kernel
  have hqueued : (fourFates.advance 21).1.lowQueued = 1 := by decide +kernel
  have hgone : (fourFates.advance 21).1.row.gone.length = 1 := by decide +kernel
  have hdrops : (drops (fourFates.advance 21).1.hub.journal).length = 1 := by decide +kernel
  rw [htaken, hqueued, hgone, hdrops] at hclasses
  rw [hgone, hdrops] at hdropped
  exact ⟨n, hr, hclasses, hdropped⟩

end Machine

end SensorHub
