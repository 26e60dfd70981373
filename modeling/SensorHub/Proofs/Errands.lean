import SensorHub.Proofs.Crew

namespace SensorHub

/-- Queueing an event touches the pool, the queue and the journal. -/
theorem Hub.enqueue_eq {σ : Type} (hub : Hub σ) (posting : Posting σ) :
    ∃ pool queue journal, (hub.enqueue posting).2 =
      { hub with pool := pool, queue := queue, journal := journal } := by
  unfold enqueue
  dsimp only
  split
  · rw [logAll_eq]
    exact ⟨_, _, _, rfl⟩
  · rw [logAll_eq]
    exact ⟨_, _, _, rfl⟩

end SensorHub

namespace SensorHub.Demo.Simulation

open SensorHub.Hub

/-- The events of a simulation that are under way, and what came of the others. -/
structure Line where
  /-- The event that is dealt with, as long as its receiver has not answered or counted it. -/
  hand : Option Role
  waiting : List Role
  tally : Tally
  dropped : UInt32

/-- What becomes of the event that is dealt with, in a pool of so many slots. -/
inductive Line.Shift (capacity : Nat) : Line → Line → Prop
  | stay {line} : Shift capacity line line
  | count {role waiting tally dropped} (last : role.reply? = none) :
      Shift capacity ⟨some role, waiting, tally, dropped⟩
        ⟨none, waiting, counted role tally, dropped⟩
  | reply {role reply waiting tally dropped} (asks : role.reply? = some reply) :
      Shift capacity ⟨some role, waiting, tally, dropped⟩
        ⟨none, waiting ++ [reply], tally, dropped⟩
  /-- Every slot is taken: the event that is dealt with has one, the events that wait have the
  others. -/
  | lose {role reply waiting tally dropped} (asks : role.reply? = some reply)
      (full : waiting.length + 1 = capacity) :
      Shift capacity ⟨some role, waiting, tally, dropped⟩ ⟨none, waiting, tally, dropped + 1⟩

theorem Line.Shift.eq_of_free {capacity : Nat} {line line' : Line} (h : line.Shift capacity line')
    (free : line.hand = none) : line' = line := by
  cases h with
  | stay => rfl
  | count | reply | lose => cases free

/-- What the code of a simulation finds as long as the loop runs. -/
structure Ready (hub : Hub Memory) : Prop where
  running : hub.running = true
  collaborators : hub.collaborators = Simulation.collaborators
  stopping : hub.shownStopping = systemId
  crew : Crew hub.apps
  replyTo : hub.memory.replyTo = 2
  echo : hub.memory.echo = 3

/-- Apart from the events the code of a simulation finds the same as before, and so does its
report. -/
structure Steady (hub hub' : Hub Memory) : Prop where
  running : hub'.running = hub.running
  collaborators : hub'.collaborators = hub.collaborators
  stopping : hub'.shownStopping = hub.shownStopping
  crew : Crew hub.apps → Crew hub'.apps
  memory : SameReport hub.memory hub'.memory
  dropped : hub'.dropped = hub.dropped

/-- The events are the same as before, too. -/
structure Undisturbed (hub hub' : Hub Memory) : Prop extends Steady hub hub' where
  pool : hub'.pool = hub.pool
  queue : hub'.queue = hub.queue

variable {hub hub₁ hub' : Hub Memory} {line line' : Line} {cargo : List (Cargo Memory)}

namespace Steady

theorem refl (hub : Hub Memory) : Steady hub hub :=
  ⟨rfl, rfl, rfl, id, ⟨rfl, rfl, rfl⟩, rfl⟩

theorem trans (h : Steady hub hub₁) (h' : Steady hub₁ hub') : Steady hub hub' :=
  ⟨h'.running.trans h.running, h'.collaborators.trans h.collaborators,
    h'.stopping.trans h.stopping, fun crew => h'.crew (h.crew crew),
    ⟨h'.memory.tally.trans h.memory.tally, h'.memory.replyTo.trans h.memory.replyTo,
      h'.memory.echo.trans h.memory.echo⟩, h'.dropped.trans h.dropped⟩

theorem ready (h : Steady hub hub') (ready : Ready hub) : Ready hub' :=
  ⟨h.running.trans ready.running, h.collaborators.trans ready.collaborators,
    h.stopping.trans ready.stopping, h.crew ready.crew, h.memory.replyTo.trans ready.replyTo,
    h.memory.echo.trans ready.echo⟩

theorem enqueue (hub : Hub Memory) (posting : Posting Memory) :
    Steady hub (hub.enqueue posting).2 ∧ (hub.enqueue posting).2.memory = hub.memory := by
  obtain ⟨pool, queue, journal, heq⟩ := hub.enqueue_eq posting
  rw [heq]
  exact ⟨⟨rfl, rfl, rfl, id, ⟨rfl, rfl, rfl⟩, rfl⟩, rfl⟩

theorem pop {handle : Handle} (h : hub.pop? = some (handle, hub')) : Steady hub hub' := by
  obtain ⟨queue, -, rfl⟩ := pop?_eq_some h
  exact ⟨rfl, rfl, rfl, id, ⟨rfl, rfl, rfl⟩, rfl⟩

theorem vacate (hub : Hub Memory) (handle : Handle) : Steady hub (hub.vacate handle) := by
  unfold Hub.vacate
  dsimp only
  rw [logAll_eq]
  exact ⟨rfl, rfl, rfl, id, ⟨rfl, rfl, rfl⟩, rfl⟩

end Steady

namespace Undisturbed

theorem refl (hub : Hub Memory) : Undisturbed hub hub :=
  ⟨.refl hub, rfl, rfl⟩

theorem same (running : hub'.running = hub.running)
    (collaborators : hub'.collaborators = hub.collaborators)
    (stopping : hub'.shownStopping = hub.shownStopping) (apps : hub'.apps = hub.apps)
    (memory : hub'.memory = hub.memory) (dropped : hub'.dropped = hub.dropped)
    (pool : hub'.pool = hub.pool) (queue : hub'.queue = hub.queue) : Undisturbed hub hub' :=
  ⟨⟨running, collaborators, stopping, fun crew => apps ▸ crew, by rw [memory]; exact ⟨rfl, rfl, rfl⟩,
    dropped⟩, pool, queue⟩

theorem trans (h : Undisturbed hub hub₁) (h' : Undisturbed hub₁ hub') : Undisturbed hub hub' :=
  ⟨h.toSteady.trans h'.toSteady, h'.pool.trans h.pool, h'.queue.trans h.queue⟩

theorem waiting (h : Undisturbed hub hub') : hub'.waiting = hub.waiting := by
  rw [Hub.waiting, Hub.waiting, h.pool, h.queue]

theorem rollWakeups (hub : Hub Memory) : Undisturbed hub hub.rollWakeups := by
  unfold Hub.rollWakeups
  split
  · exact ⟨⟨rfl, rfl, rfl, fun crew => crew.map fun _ => ⟨rfl, rfl⟩, ⟨rfl, rfl, rfl⟩, rfl⟩, rfl, rfl⟩
  · exact refl hub

theorem sampleUsage (hub : Hub Memory) : Undisturbed hub hub.sampleUsage :=
  same rfl rfl rfl rfl rfl rfl rfl rfl

theorem store {memory : Memory} (report : SameReport hub.memory memory) :
    Undisturbed hub { hub with memory := memory } :=
  ⟨⟨rfl, rfl, rfl, id, report, rfl⟩, rfl, rfl⟩

theorem alterApp (hub : Hub Memory) (index : Nat) {change : Nanoapp → Nanoapp}
    (keeps : ∀ n : Nanoapp, (change n).info = n.info ∧ (change n).registrations = n.registrations) :
    Undisturbed hub (hub.alterApp index change) :=
  ⟨⟨rfl, rfl, rfl, fun crew => crew.modify index keeps, ⟨rfl, rfl, rfl⟩, rfl⟩, rfl, rfl⟩

theorem deliverTo (hub : Hub Memory) (index : Nat) (app : App Memory) (serial : Option Nat)
    (event : Event) (hasCallback : Bool) :
    Undisturbed hub (hub.deliverTo index app serial event hasCallback).1 := by
  have latency : Undisturbed hub (hub.checkLatency event app.nanoapp.info.instanceId) := by
    unfold Hub.checkLatency
    dsimp only
    split
    next => split <;> exact same rfl rfl rfl rfl rfl rfl rfl rfl
    next => exact refl hub
  exact latency.trans (same rfl rfl rfl rfl rfl rfl rfl rfl)

end Undisturbed

/-- The hub shows the line, apart from the event that is dealt with. -/
structure Shows (hub : Hub Memory) (line : Line) : Prop where
  ready : Ready hub
  waiting : List.Forall₂ Role.Plays line.waiting hub.waiting
  tally : hub.memory.tally = line.tally
  dropped : hub.dropped = line.dropped

namespace Shows

theorem steady (shows : Shows hub line) (steady : Steady hub hub')
    (waiting : hub'.waiting = hub.waiting) : Shows hub' line :=
  ⟨steady.ready shows.ready, waiting ▸ shows.waiting, steady.memory.tally.trans shows.tally,
    steady.dropped.trans shows.dropped⟩

theorem undisturbed (shows : Shows hub line) (still : Undisturbed hub hub') : Shows hub' line :=
  shows.steady still.toSteady still.waiting

/-- An event that may be dropped waits behind the others, or every slot is taken and it is counted
as dropped. -/
theorem post {role : Role} {event : Event} (shows : Shows hub line) (tidy : hub.Tidy cargo)
    (fits : role.Fits event) :
    ∃ queued hub', (hub.offer .low event .nothing).2.postDroppable
        (hub.offer .low event .nothing).1 = (queued, hub', []) ∧ hub'.memory = hub.memory ∧
      (∀ k ∈ cargo.filterMap Cargo.stored?, hub'.pool.inspect k = hub.pool.inspect k) ∧
      if queued then Shows hub' { line with waiting := line.waiting ++ [role] }
      else line.waiting.length + (cargo.filterMap Cargo.handle?).length = hub.pool.capacity ∧
        Shows hub' { line with dropped := line.dropped + 1 } := by
  have tidy₁ := tidy.offer .low event .nothing
  have offered : Undisturbed hub (hub.offer .low event .nothing).2 :=
    .same rfl rfl rfl rfl rfl rfl rfl rfl
  have shows₁ := shows.undisturbed offered
  have sent : (event.sender != systemId &&
      (hub.offer .low event .nothing).2.shownStopping == event.sender) = false := by
    rw [shows₁.ready.stopping]
    cases h : event.sender == systemId with
    | true => simp [bne, h]
    | false =>
      have hne : systemId ≠ event.sender := fun he => by
        rw [← he, BEq.rfl] at h
        cases h
      simp [hne]
  have hlength : (hub.queue.toList ++ cargo.filterMap Cargo.handle?).length =
      line.waiting.length + (cargo.filterMap Cargo.handle?).length := by
    rw [List.length_append, tidy.forall₂_waiting.length_eq, shows.waiting.length_eq]
  obtain ⟨steady, hmemory⟩ := Steady.enqueue (hub.offer .low event .nothing).2
    (hub.offer .low event .nothing).1
  by_cases full : (hub.queue.toList ++ cargo.filterMap Cargo.handle?).length = hub.pool.capacity
  · obtain ⟨hub₂, he, calm⟩ := enqueue_full tidy₁.sound full (hub.offer .low event .nothing).1
    rw [he] at steady hmemory
    have shows₂ := shows₁.steady steady
      (waiting_congr (by rw [calm.queue]) fun k _ => calm.inspect k)
    refine ⟨false, (({ hub₂ with dropped := hub₂.dropped + 1 } : Hub Memory).record
        (.dropped hub.postings)).log (.dropped event.type event.target), ?_, hmemory,
      fun k _ => calm.inspect k, hlength.symm.trans full, ?_⟩
    · simp only [Hub.postDroppable, shows₁.ready.running, he, Bool.not_true, Bool.false_eq_true,
        if_false]
      exact if_neg (Bool.eq_false_iff.mp sent)
    · exact ⟨⟨shows₂.ready.running, shows₂.ready.collaborators, shows₂.ready.stopping,
        shows₂.ready.crew, shows₂.ready.replyTo, shows₂.ready.echo⟩, shows₂.waiting, shows₂.tally,
        congrArg (· + 1) shows₂.dropped⟩
  · obtain ⟨handle, hub', he, admits, hnew, -⟩ :=
      enqueue_room tidy₁.sound full (hub.offer .low event .nothing).1
    rw [he] at steady hmemory
    have hwaiting := admits.waiting fun hk => hnew (List.mem_append_left _ hk)
    refine ⟨true, hub', ?_, hmemory, fun k hk => ?_, ?_⟩
    · simp only [Hub.postDroppable, shows₁.ready.running, he, Bool.not_true, Bool.false_eq_true,
        if_false]
      exact if_neg (Bool.eq_false_iff.mp sent)
    · have hne : handle ≠ k := by
        rintro rfl
        exact hnew (List.mem_append_right _ (Tidy.handle_of_stored hk))
      rw [admits.inspect, if_neg hne]
      rfl
    · refine ⟨steady.ready shows₁.ready, ?_, steady.memory.tally.trans shows₁.tally,
        steady.dropped.trans shows₁.dropped⟩
      rw [hwaiting]
      exact List.rel_append shows₁.waiting (.cons ⟨Role.fits_sent _ fits, rfl⟩ .nil)

end Shows

theorem Does.pos {r : Reach} {memory : Memory} {routine : Routine Memory r .nothing}
    {hand : Option Role} {n : Nat} (does : Does memory routine hand n) : 0 < n := by
  cases does <;> omega

/-- One step of code: it comes to its end, and has dealt with its event, or something has become of
the event. No other event that a frame is in charge of is touched. -/
theorem Does.step {r : Reach} {actor : Actor Memory r .nothing}
    {routine : Routine Memory r .nothing} {n : Nat} (does : Does hub.memory routine line.hand n)
    (shows : Shows hub line) (tidy : hub.Tidy cargo)
    (held : (cargo.filterMap Cargo.handle?).length = 1)
    (placed : ∀ i, actor.place? = some i → i < 3) :
    (∃ hub', (Frame.code actor routine).step hub = .go hub' [] ∧ line.hand = none ∧
      Undisturbed hub hub') ∨
    ∃ hub' next line' k, (Frame.code actor routine).step hub = .go hub' [.code actor next] ∧
      n = k + 1 ∧ Does hub'.memory next line'.hand k ∧ Shows hub' line' ∧
      line.Shift hub.pool.capacity line' ∧
      ∀ k ∈ cargo.filterMap Cargo.stored?, hub'.pool.inspect k = hub.pool.inspect k := by
  obtain ⟨hand, waiting, tally, dropped⟩ := line
  cases does with
  | done =>
    cases actor with
    | loop | handle => exact .inl ⟨hub, rfl, rfl, .refl hub⟩
    | entry => exact .inl ⟨_, rfl, rfl, .same rfl rfl rfl rfl rfl rfl rfl rfl⟩
  | @«recall» _ _ _ k next h =>
    refine .inr ⟨hub, _, ⟨hand, waiting, tally, dropped⟩, k, ?_, rfl, h, shows, .stay, fun _ _ => rfl⟩
    simp only [Frame.step, Routine.step]
  | @store _ _ memory' _ k next same h =>
    refine .inr ⟨{ hub with memory := memory' }, _, ⟨hand, waiting, tally, dropped⟩, k, ?_, rfl, h,
      shows.undisturbed (.store same), .stay, fun _ _ => rfl⟩
    simp only [Frame.step, Routine.step]
  | @count _ _ role k next last h =>
    obtain rfl : hub.memory.tally = tally := shows.tally
    refine .inr ⟨{ hub with memory := { hub.memory with
      tally := counted role hub.memory.tally } }, _, _, k, ?_, rfl, h, ?_, .count last, fun _ _ => rfl⟩
    · simp only [Frame.step, Routine.step]
    · exact ⟨⟨shows.ready.running, shows.ready.collaborators, shows.ready.stopping,
        shows.ready.crew, shows.ready.replyTo, shows.ready.echo⟩, shows.waiting, rfl, shows.dropped⟩
  | @blame _ _ k next h =>
    have altered : Undisturbed hub (hub.alterApp actor.index Nanoapp.blame) :=
      .alterApp hub actor.index fun _ => ⟨rfl, rfl⟩
    have still : Undisturbed hub ((hub.alterApp actor.index Nanoapp.blame).record
        (.blamed (hub.loadAt actor.index))) :=
      altered.trans (.same rfl rfl rfl rfl rfl rfl rfl rfl)
    have hstep : (Frame.code actor (.blame next)).step hub =
        .go ((hub.alterApp actor.index Nanoapp.blame).record (.blamed (hub.loadAt actor.index)))
          [.code actor next] := by
      simp only [Frame.step, Routine.step]
    exact .inr ⟨_, _, ⟨hand, waiting, tally, dropped⟩, k, hstep, rfl, h, shows.undisturbed still,
      .stay, fun _ _ => rfl⟩
  | @send _ role reply event k next asks fits h =>
    obtain ⟨index, hactor⟩ : ∃ index, actor.place? = some index ∧ actor.index = index := by
      cases actor with
      | entry index => exact ⟨index, rfl, rfl⟩
    have hlt : actor.index < hub.apps.length := by
      rw [shows.ready.crew.length_eq, hactor.2]
      exact placed index hactor.1
    have ha : hub.apps[actor.index]? = some hub.apps[actor.index] := List.getElem?_eq_getElem hlt
    have hfits : reply.Fits { event with
        sender := hub.apps[actor.index].nanoapp.info.instanceId, lowPriority := true } :=
      Role.fits_sent event.stamp fits
    obtain ⟨queued, hub', hpost, hmemory, same, h'⟩ := shows.post tidy hfits
    have hstep : (Frame.code actor (.send event none next)).step hub =
        .go hub' [.code actor (next queued)] := by
      simp only [Frame.step, Routine.step, ha, Completion.ofCallback]
      simp only [hpost, List.nil_append]
    have hdoes : Does hub'.memory (next queued) none k := hmemory ▸ h queued
    cases queued with
    | true =>
      exact .inr ⟨hub', next true, ⟨none, waiting ++ [reply], tally, dropped⟩, k, hstep, rfl, hdoes,
        ⟨h'.ready, h'.waiting, h'.tally, h'.dropped⟩, .reply asks, same⟩
    | false =>
      obtain ⟨full, h'⟩ := h'
      rw [held] at full
      exact .inr ⟨hub', next false, ⟨none, waiting, tally, dropped + 1⟩, k, hstep, rfl, hdoes,
        ⟨h'.ready, h'.waiting, h'.tally, h'.dropped⟩, .lose asks full, same⟩

end SensorHub.Demo.Simulation
