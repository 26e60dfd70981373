import SensorHub.Proofs.Inversion
import SensorHub.Proofs.Slots

namespace SensorHub

variable {σ : Type}

namespace LogRecord

/-- The report of a handle without a slot, or of a slot without its event. -/
def isSlotFault : LogRecord → Bool
  | .emptyHandle _ | .freeListOverflow _ | .freeListOverflowGrowing _ | .unmappedHandle _
  | .unknownHandle _ => true
  | _ => false

end LogRecord

namespace EntryPoint

def serial? : EntryPoint → Option Nat
  | .event serial => serial
  | _ => none

end EntryPoint

namespace Incident

/-- The incident moves no event and reports no fault of a slot. -/
def isQuiet : Incident → Bool
  | .logged report => !report.isSlotFault
  | .entered _ _ point _ | .left _ point => point.serial?.isNone
  | .noted _ | .dropped _ | .stopped | .announced _ _ _ _ | .loaded _ _ | .released _ _ _ | .erased _ _
  | .rolled _ | .blamed _ => true
  | _ => false

end Incident

/-- What a status event tells of the app with this load. -/
structure Status where
  load : Nat
  type : UInt16
  info : Info
  deriving Repr, DecidableEq

namespace Incident

def announces? : Incident → Option (Nat × Status)
  | .announced serial load type info => some (serial, ⟨load, type, info⟩)
  | _ => none

end Incident

namespace Incident

def drops? : Incident → Option Nat
  | .dropped serial => some serial
  | _ => none

end Incident

def drops (journal : List Incident) : List Nat :=
  journal.filterMap Incident.drops?

/-- The status events that were announced, with their numbers, latest first. -/
def announcements (journal : List Incident) : List (Nat × Status) :=
  journal.filterMap Incident.announces?

namespace Hub

theorem announcements_logAll (hub : Hub σ) (reports : List LogRecord) :
    announcements (hub.logAll reports).journal = announcements hub.journal := by
  induction reports generalizing hub with
  | nil => rfl
  | cons report reports ih => exact (ih (hub.log report)).trans rfl

theorem announcements_enqueue (hub : Hub σ) (posting : Posting σ) :
    announcements (hub.enqueue posting).2.journal = announcements hub.journal := by
  unfold enqueue
  dsimp only
  split
  next => exact announcements_logAll ..
  next => exact announcements_logAll ..

theorem announcements_makeRoom (hub : Hub σ) :
    announcements hub.makeRoom.2.journal = announcements hub.journal := by
  unfold makeRoom
  dsimp only
  split
  next => rfl
  next => split <;> rfl

theorem announcements_detach (hub : Hub σ) (posting : Posting σ) :
    announcements (hub.detach posting).1.journal = announcements hub.journal := by
  unfold detach
  split
  next => rfl
  next => rfl
  next => rfl

/-- The count of the events that were lost for want of a slot, and those of them that were dropped
when they were posted. -/
def losses (hub : Hub σ) : UInt32 × List Nat :=
  (hub.dropped, drops hub.journal)

theorem losses_logAll (hub : Hub σ) (reports : List LogRecord) :
    (hub.logAll reports).losses = hub.losses := by
  induction reports generalizing hub with
  | nil => rfl
  | cons report reports ih => exact (ih (hub.log report)).trans rfl

theorem losses_enqueue (hub : Hub σ) (posting : Posting σ) :
    (hub.enqueue posting).2.losses = hub.losses := by
  unfold enqueue
  dsimp only
  split
  next => exact losses_logAll _ _
  next => exact losses_logAll _ _

theorem losses_detach (hub : Hub σ) (posting : Posting σ) :
    (hub.detach posting).1.losses = hub.losses := by
  unfold detach
  split
  next => rfl
  next => rfl
  next => rfl

/-- No slot and no event is touched on the way from one hub to the other. -/
structure Calm (hub hub' : Hub σ) : Prop where
  inspect : ∀ handle, hub'.pool.inspect handle = hub.pool.inspect handle
  sound : ∀ live, hub.pool.Sound live → hub'.pool.Sound live
  capacity : hub'.pool.capacity = hub.pool.capacity
  queue : hub'.queue = hub.queue
  postings : hub'.postings = hub.postings
  journal : ∃ news, hub'.journal = news ++ hub.journal ∧ ∀ i ∈ news, i.isQuiet = true

namespace Calm

variable {hub hub₁ hub₂ : Hub σ}

theorem refl (hub : Hub σ) : hub.Calm hub :=
  ⟨fun _ => rfl, fun _ h => h, rfl, rfl, rfl, [], rfl, by simp⟩

theorem trans (h : hub.Calm hub₁) (h' : hub₁.Calm hub₂) : hub.Calm hub₂ := by
  obtain ⟨news, hj, hq⟩ := h.journal
  obtain ⟨news', hj', hq'⟩ := h'.journal
  refine ⟨fun k => (h'.inspect k).trans (h.inspect k), fun live hs => h'.sound live (h.sound live hs),
    h'.capacity.trans h.capacity, h'.queue.trans h.queue, h'.postings.trans h.postings,
    news' ++ news, by rw [hj', hj, List.append_assoc], ?_⟩
  intro i hi
  rcases List.mem_append.mp hi with hi | hi
  · exact hq' i hi
  · exact hq i hi

/-- Only the pool, the queue, the journal and the count of events matter. -/
theorem same (h : hub.Calm hub₁) (hp : hub₂.pool = hub₁.pool) (hq : hub₂.queue = hub₁.queue)
    (hn : hub₂.postings = hub₁.postings) (hj : hub₂.journal = hub₁.journal) : hub.Calm hub₂ :=
  ⟨by rw [hp]; exact h.inspect, by rw [hp]; exact h.sound, by rw [hp]; exact h.capacity,
    hq.trans h.queue, hn.trans h.postings, by rw [hj]; exact h.journal⟩

theorem record (h : hub.Calm hub₁) {incident : Incident} (hi : incident.isQuiet = true) :
    hub.Calm (hub₁.record incident) := by
  obtain ⟨news, hj, hq⟩ := h.journal
  refine ⟨h.inspect, h.sound, h.capacity, h.queue, h.postings, incident :: news, congrArg (incident :: ·) hj, ?_⟩
  intro i hm
  rcases List.mem_cons.mp hm with rfl | hm
  · exact hi
  · exact hq i hm

theorem log (h : hub.Calm hub₁) {report : LogRecord} (hr : report.isSlotFault = false) :
    hub.Calm (hub₁.log report) :=
  h.record (by simp [Incident.isQuiet, hr])

theorem setCurrent (h : hub.Calm hub₁) (instanceId : Option UInt16) :
    hub.Calm (hub₁.setCurrent instanceId) :=
  h.same rfl rfl rfl rfl

theorem setStopping (h : hub.Calm hub₁) (instanceId : Option UInt16) :
    hub.Calm (hub₁.setStopping instanceId) :=
  h.same rfl rfl rfl rfl

theorem alterApp (h : hub.Calm hub₁) (index : Nat) (change : Nanoapp → Nanoapp) :
    hub.Calm (hub₁.alterApp index change) :=
  h.same rfl rfl rfl rfl

theorem checkLatency (h : hub.Calm hub₁) (event : Event)
    (receiver : UInt16) : hub.Calm (hub₁.checkLatency event receiver) := by
  unfold Hub.checkLatency
  dsimp only
  split
  next =>
    split
    next =>
      apply log _ rfl
      exact h.same rfl rfl rfl rfl
    next => exact h.same rfl rfl rfl rfl
  next => exact h

theorem rollWakeups (h : hub.Calm hub₁) : hub.Calm hub₁.rollWakeups := by
  unfold Hub.rollWakeups
  split
  next =>
    apply record _ rfl
    exact h.same rfl rfl rfl rfl
  next => exact h

end Calm

/-- What can become of an event once it has its number. One that may be dropped is queued at once,
or dropped if there is no slot for it; room is made for a critical one. An event is refused only by
a hub that has stopped or if its sender is stopping, and work is thrown away only by a hub that has
stopped. -/
inductive Posted (hub : Hub σ) (posting : Posting σ) : Hub σ → List (Frame σ) → Prop
  | queued {hub'} (running : hub.running = true) (h : hub.enqueue posting = (true, hub'))
      (passes : posting.event.sender = systemId ∨ hub.shownStopping ≠ posting.event.sender) :
      Posted hub posting hub' []
  | reserved {hub' evicted} (running : hub.running = true)
      (h : hub.makeRoom = (.found evicted, hub')) (system : posting.event.sender = systemId)
      (critical : posting.event.lowPriority = false) :
      Posted hub posting hub' [.evict evicted, .enqueue posting]
  | refused {hub₁ hub' frames} (plain : ∀ work, posting.completion ≠ .work work)
      (calm : hub.Calm hub₁) (side : hub₁.loopSide = hub.loopSide)
      (h : hub₁.detach posting = (hub', frames))
      (mute : announcements hub₁.journal = announcements hub.journal)
      (losses : hub₁.losses = hub.losses)
      (why : hub.running = false ∨
        posting.event.sender ≠ systemId ∧ hub.shownStopping = posting.event.sender) :
      Posted hub posting hub' frames
  | dropped {hub₁ hub₂ hub' frames} (plain : ∀ work, posting.completion ≠ .work work)
      (running : hub.running = true) (h : hub.enqueue posting = (false, hub₁))
      (count : hub₂ = { hub₁ with dropped := hub₁.dropped + 1 }.record (.dropped posting.serial))
      (detached : (hub₂.log (.dropped posting.event.type posting.event.target)).detach posting =
        (hub', frames))
      (passes : posting.event.sender = systemId ∨ hub.shownStopping ≠ posting.event.sender)
      (low : posting.event.lowPriority = true) : Posted hub posting hub' frames
  | discarded {work} (h : posting.completion = .work work) (stopped : hub.running = false) :
      Posted hub posting (hub.record (.discarded posting.serial)) []

variable {hub hub' : Hub σ} {posting : Posting σ} {frames : List (Frame σ)}

theorem loopSide_posted (h : hub.Posted posting hub' frames) : hub'.loopSide = hub.loopSide := by
  cases h with
  | queued _ h => rw [← loopSide_enqueue hub posting, h]
  | reserved _ h => rw [← loopSide_makeRoom hub, h]
  | @refused hub₁ _ _ _ _ side h =>
    have hd := loopSide_detach hub₁ posting
    rw [h] at hd
    exact hd.trans side
  | dropped _ _ h count detached =>
    rw [← loopSide_enqueue hub posting, h, ← congrArg (loopSide ·.1) detached, loopSide_detach,
      loopSide_log, count]
    rfl
  | discarded => rfl

theorem announcements_posted (h : hub.Posted posting hub' frames) :
    announcements hub'.journal = announcements hub.journal := by
  cases h with
  | queued _ h => rw [← announcements_enqueue hub posting, h]
  | reserved _ h => rw [← announcements_makeRoom hub, h]
  | @refused hub₁ _ _ _ _ _ h mute =>
    have hd := announcements_detach hub₁ posting
    rw [h] at hd
    exact hd.trans mute
  | @dropped hub₁ hub₂ _ _ _ _ h count detached =>
    have hd := announcements_detach
      (hub₂.log (.dropped posting.event.type posting.event.target)) posting
    rw [detached, count] at hd
    have henqueue := announcements_enqueue hub posting
    rw [h] at henqueue
    exact hd.trans henqueue
  | discarded => rfl

theorem posted_of_postRunning (running : hub.running = true)
    (system : posting.event.sender = systemId) (critical : posting.event.lowPriority = false)
    (h : hub.postRunning posting = .go hub' frames) : hub.Posted posting hub' frames := by
  obtain ⟨evicted, hm, rfl⟩ := postRunning_go h
  exact .reserved running hm system critical

theorem posted_of_postCritical (plain : ∀ work, posting.completion ≠ .work work)
    (system : posting.event.sender = systemId) (critical : posting.event.lowPriority = false)
    (h : hub.postCritical posting = .go hub' frames) : hub.Posted posting hub' frames := by
  unfold postCritical at h
  split at h
  next hr => exact posted_of_postRunning hr system critical h
  next hr =>
    cases h
    exact .refused plain (.refl hub) rfl rfl rfl rfl (.inl (by simpa using hr))

theorem posted_of_postDroppable (plain : ∀ work, posting.completion ≠ .work work)
    (low : posting.event.lowPriority = true) :
    hub.Posted posting (hub.postDroppable posting).2.1 (hub.postDroppable posting).2.2 := by
  unfold postDroppable
  dsimp only
  split
  next hr => exact .refused plain (.refl hub) rfl rfl rfl rfl (.inl (by simpa using hr))
  next hr =>
    have running : hub.running = true := by simpa using hr
    split
    next hstopping =>
      exact .refused plain ((Calm.refl hub).log rfl) rfl rfl rfl rfl
        (.inr (by simpa using hstopping))
    next hpasses =>
      have passes : posting.event.sender = systemId ∨
          hub.shownStopping ≠ posting.event.sender := by
        by_contra hno
        obtain ⟨named, stopping⟩ := not_or.mp hno
        exact hpasses (by simpa [named] using stopping)
      rcases he : hub.enqueue posting with ⟨_ | _, hub₁⟩
      · exact .dropped plain running he rfl rfl passes low
      · exact .queued running he passes

theorem posted_of_request {work : SystemWork σ}
    (h : (hub.request work).2 = .go hub' frames) :
    (hub.offer (wayOf work) (.system work.kind) (.work work)).2.Posted
      (hub.offer (wayOf work) (.system work.kind) (.work work)).1 hub' frames := by
  unfold request at h
  dsimp only at h
  split at h
  next hr => exact posted_of_postRunning hr rfl rfl h
  next hr =>
    cases h
    exact .discarded rfl (by simpa using hr)

theorem ofCallback_ne_work (free : Option (FreeCallback σ)) (work : SystemWork σ) :
    Completion.ofCallback free ≠ .work work := by
  cases free <;> simp [Completion.ofCallback]

/-- How an event is posted decides its priority and what completes it. -/
inductive Matches : Way → Event → Completion σ → Prop
  | critical (event : Event) (free : Option (FreeCallback σ)) :
      Matches .critical (critical event) (.ofCallback free)
  | low {event : Event} (free : Option (FreeCallback σ)) (h : event.lowPriority = true) :
      Matches .low event (.ofCallback free)
  | work (work : SystemWork σ) : Matches (wayOf work) (.system work.kind) (.work work)

/-- The announcement of a load or an unload is a post of its own. -/
theorem announce_cases {type : UInt16} {load : Nat} {info : Info}
    (h : hub.announce type load info = .go hub' frames) :
    ∃ hub₁, (hub.offer .critical (.status type info) .nothing).2.Calm hub₁ ∧
      hub₁.loopSide = hub.loopSide ∧ hub₁.losses = hub.losses ∧
      hub₁.Posted (hub.offer .critical (.status type info) .nothing).1 hub' frames :=
  ⟨_, (Calm.refl _).record rfl, rfl, rfl, posted_of_postCritical (fun _ h => nomatch h) rfl rfl h⟩

end Hub

end SensorHub
