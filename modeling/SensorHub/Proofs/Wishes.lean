import SensorHub.Proofs.Startup

namespace SensorHub.Demo.Simulation

open SensorHub.Hub

inductive Wish
  | dump
  | stop
  deriving DecidableEq

namespace Wish

def work : Wish → SystemWork Memory
  | .dump =>
    .call .deferred
      (.inspect fun view => alter (fun memory => { memory with dump := view.dump }) (.done ()))
  | .stop => .shutdown

/-- The event carries the wish. -/
structure Plays (wish : Wish) (posting : Posting Memory) : Prop where
  target : posting.event.target = systemId
  work : posting.completion = .work wish.work

/-- What becomes of the wish that is dealt with and of those that wait. -/
inductive Step : Option Wish → List Wish → Option Wish → List Wish → Prop
  | stay {hand later} : Step hand later hand later
  | take {wish later} : Step none (wish :: later) (some wish) later
  | dumped {later} : Step (some .dump) later none later

variable {hand hand' : Option Wish} {later later' : List Wish}

theorem Step.suffix (step : Step hand later hand' later') :
    hand'.toList ++ later' <:+ hand.toList ++ later := by
  cases step with
  | stay | take => exact List.suffix_refl _
  | dumped => exact List.suffix_cons _ _

/-- The loop does not forget that it has been asked to stop. -/
theorem Step.keeps (step : Step hand later hand' later') (asked : .stop ∈ hand.toList ++ later) :
    .stop ∈ hand'.toList ++ later' := by
  cases step with
  | stay | take => exact asked
  | dumped => simpa using asked

end Wish

/-- The frames of a loop that deals with nothing but wishes, the wish that is dealt with, and how many
steps are left at most until the loop waits. -/
inductive Duty (hub : Hub Memory) : List (Frame Memory) → Option Wish → Nat → Prop
  | run : Duty hub [.code (.loop .outside) (.run (.done ()))] none 2
  | serve : Duty hub [.serve, ending] none 1
  | await : Duty hub [.await, ending] none 0
  | cycle {handle posting} {wish : Wish} (held : hub.pool.inspect handle = some posting)
      (plays : wish.Plays posting) : Duty hub [.cycle handle, .serve, ending] (some wish) 19
  | before {handle posting routine n} {wish : Wish} (held : hub.pool.inspect handle = some posting)
      (plays : wish.Plays posting) (does : Does hub.memory routine none n) :
      Duty hub [.code (.handle .beforeCycle) routine, .turn handle, .serve, ending] (some wish)
        (15 + n)
  | turn {handle posting} {wish : Wish} (held : hub.pool.inspect handle = some posting)
      (plays : wish.Plays posting) : Duty hub [.turn handle, .serve, ending] (some wish) 15
  | dispatch {handle posting} {wish : Wish} (held : hub.pool.inspect handle = some posting)
      (plays : wish.Plays posting) :
      Duty hub [.dispatch handle, .endCycle, .serve, ending] (some wish) 14
  | offer {handle posting index reached} {wish : Wish} (plays : wish.Plays posting) (le : index ≤ 3) :
      Duty hub [.distribute posting index reached, .vacate handle, .endCycle, .serve, ending]
        (some wish) (10 + (3 - index))
  | complete {handle posting} {wish : Wish} (plays : wish.Plays posting) :
      Duty hub [.complete posting, .vacate handle, .endCycle, .serve, ending] (some wish) 9
  | inspect {handle serial} :
      Duty hub [.code (.loop (.callback serial)) (.inspect fun view =>
        alter (fun memory => { memory with dump := view.dump }) (.done ())), .vacate handle,
        .endCycle, .serve, ending] none 8
  | dump {handle serial routine n} (does : Does hub.memory routine none n) :
      Duty hub [.code (.loop (.callback serial)) routine, .vacate handle, .endCycle, .serve, ending]
        none (4 + n)
  | vacate {handle} : Duty hub [.vacate handle, .endCycle, .serve, ending] none 4
  | endCycle : Duty hub [.endCycle, .serve, ending] none 3
  | after : Duty hub [.code (.handle .afterCycle) (.done ()), .serve, ending] none 2

/-- A wish that is queued leaves the loop where it is. -/
theorem Duty.posted {hub hub' : Hub Memory} {frames : List (Frame Memory)} {hand : Option Wish}
    {n : Nat} (duty : Duty hub frames hand n) (memory : hub'.memory = hub.memory)
    (same : ∀ k ∈ (Machine.cargo ⟨hub, frames⟩).filterMap Cargo.stored?,
      hub'.pool.inspect k = hub.pool.inspect k) : Duty hub' frames hand n := by
  have kept : ∀ {handle posting}, hub.pool.inspect handle = some posting →
      handle ∈ (Machine.cargo ⟨hub, frames⟩).filterMap Cargo.stored? →
        hub'.pool.inspect handle = some posting := by
    intro handle posting held mem
    exact (same handle mem).trans held
  cases duty with
  | run => exact .run
  | serve => exact .serve
  | await => exact .await
  | cycle held plays => exact .cycle (kept held (List.mem_cons_self ..)) plays
  | before held plays does =>
    exact .before (kept held (List.mem_cons_self ..)) plays (memory.symm ▸ does)
  | turn held plays => exact .turn (kept held (List.mem_cons_self ..)) plays
  | dispatch held plays => exact .dispatch (kept held (List.mem_cons_self ..)) plays
  | offer plays le => exact .offer plays le
  | complete plays => exact .complete plays
  | inspect => exact .inspect
  | dump does => exact .dump (memory.symm ▸ does)
  | vacate => exact .vacate
  | endCycle => exact .endCycle
  | after => exact .after

/-- Apart from the wishes that wait at most one slot is taken. -/
theorem Duty.handles_le {hub : Hub Memory} {frames : List (Frame Memory)} {hand : Option Wish}
    {n : Nat} (duty : Duty hub frames hand n) :
    ((Machine.cargo ⟨hub, frames⟩).filterMap Cargo.handle?).length ≤ 1 := by
  cases duty <;> exact Nat.le_of_ble_eq_true rfl

theorem Duty.frames_ne {hub : Hub Memory} {frames : List (Frame Memory)} {hand : Option Wish} {n : Nat}
    (duty : Duty hub frames hand n) : frames ≠ [] := by
  cases duty <;> exact List.cons_ne_nil _ _

/-- The loop runs and deals with wishes: with one of them now, with the others later. -/
structure Serves (m : Machine Memory) (hand : Option Wish) (later : List Wish) (n : Nat) : Prop where
  reachable : m.Reachable
  ready : Ready m.hub
  waiting : List.Forall₂ Wish.Plays later m.hub.waiting
  duty : Duty m.hub m.frames hand n

variable {hub hub' : Hub Memory} {frame : Frame Memory} {frames rest : List (Frame Memory)}
  {hand : Option Wish} {later : List Wish} {n n' : Nat} {m : Machine Memory}

/-- Code that neither answers nor counts an event: its next step leaves all events as they are. -/
theorem Does.spares {r : Reach} {routine : Routine Memory r .nothing}
    (does : Does hub.memory routine none n) (actor : Actor Memory r .nothing) :
    (∃ hub', (Frame.code actor routine).step hub = .go hub' [] ∧ Undisturbed hub hub') ∨
      ∃ hub' next k, (Frame.code actor routine).step hub = .go hub' [.code actor next] ∧
        n = k + 1 ∧ Does hub'.memory next none k ∧ Undisturbed hub hub' := by
  cases does with
  | done =>
    cases actor with
    | loop | handle => exact .inl ⟨hub, rfl, .refl hub⟩
    | entry => exact .inl ⟨_, rfl, .same rfl rfl rfl rfl rfl rfl rfl rfl⟩
  | @«recall» _ _ _ k next h =>
    refine .inr ⟨hub, _, k, ?_, rfl, h, .refl hub⟩
    simp only [Frame.step, Routine.step]
  | @store _ _ memory' _ k next same h =>
    refine .inr ⟨{ hub with memory := memory' }, _, k, ?_, rfl, h, .store same⟩
    simp only [Frame.step, Routine.step]
  | @blame _ _ k next h =>
    have altered : Undisturbed hub (hub.alterApp actor.index Nanoapp.blame) :=
      .alterApp hub actor.index fun _ => ⟨rfl, rfl⟩
    refine .inr ⟨(hub.alterApp actor.index Nanoapp.blame).record
      (.blamed (hub.loadAt actor.index)), _, k, ?_, rfl, h,
      altered.trans (.same rfl rfl rfl rfl rfl rfl rfl rfl)⟩
    simp only [Frame.step, Routine.step]

/-- The next step of the loop brings it closer to its next wait. -/
def Proceeds (m : Machine Memory) (hand : Option Wish) (later : List Wish) (n : Nat) : Prop :=
  ∃ m' hand' later' n', m.step = .stepped m' ∧ Serves m' hand' later' n' ∧ Steady m.hub m'.hub ∧
    Wish.Step hand later hand' later' ∧ n' + 20 * later'.length < n + 20 * later.length

theorem Proceeds.goes {hand' : Option Wish} (serves : Serves ⟨hub, frame :: rest⟩ hand later n)
    (h : frame.step hub = .go hub' frames) (steady : Steady hub hub')
    (waiting : hub'.waiting = hub.waiting) (duty : Duty hub' (frames ++ rest) hand' n')
    (step : Wish.Step hand later hand' later) (less : n' < n) :
    Proceeds ⟨hub, frame :: rest⟩ hand later n := by
  have hstep := @stepped_of_go _ _ _ _ rest h
  refine ⟨⟨hub', frames ++ rest⟩, hand', later, n', hstep, ⟨?_, steady.ready serves.ready, ?_, duty⟩,
    steady, step, Nat.add_lt_add_right less _⟩
  · exact serves.reachable.reaches (.single (.step hstep))
  · rw [waiting]
    exact serves.waiting

theorem Proceeds.still {hand' : Option Wish} (serves : Serves ⟨hub, frame :: rest⟩ hand later n)
    (h : frame.step hub = .go hub' frames) (still : Undisturbed hub hub')
    (duty : Duty hub' (frames ++ rest) hand' n') (step : Wish.Step hand later hand' later)
    (less : n' < n) : Proceeds ⟨hub, frame :: rest⟩ hand later n :=
  .goes serves h still.toSteady still.waiting duty step less

theorem proceeds_await (serves : Serves ⟨hub, [.await, ending]⟩ none later 0) :
    (later = [] ∧ Machine.step ⟨hub, [.await, ending]⟩ = .waiting) ∨
      Proceeds ⟨hub, [.await, ending]⟩ none later 0 := by
  have tidy : hub.Tidy [] := serves.reachable.tidy
  have waiting : List.Forall₂ Wish.Plays later hub.waiting := serves.waiting
  cases later with
  | nil =>
    have hnone : hub.waiting = [] := List.forall₂_nil_left_iff.mp waiting
    refine .inl ⟨rfl, ?_⟩
    simp only [Machine.step, Frame.step, tidy.pop_none hnone]
  | cons wish wishes =>
    obtain ⟨posting, others, plays, rest, hfront⟩ := List.forall₂_cons_left_iff.mp waiting
    obtain ⟨handle, hub', hpop, held, hothers, -⟩ := tidy.pop_front hfront
    have hgo : (Frame.await : Frame Memory).step hub = .go hub' [.cycle handle, .serve] := by
      simp only [Frame.step, hpop]
    have hstep := @stepped_of_go _ _ _ _ [ending] hgo
    have steady := Steady.pop hpop
    refine .inr ⟨_, some wish, wishes, 19, hstep,
      ⟨serves.reachable.reaches (.single (.step hstep)), steady.ready serves.ready, ?_,
        .cycle held plays⟩, steady, .take, ?_⟩
    · rw [← hothers] at rest
      exact rest
    · simp only [List.length_cons]
      omega

theorem proceeds_offer {handle : Handle} {posting : Posting Memory} {wish : Wish} {index : Nat}
    {reached : Bool} (plays : wish.Plays posting) (le : index ≤ 3)
    (serves : Serves ⟨hub, [.distribute posting index reached, .vacate handle, .endCycle, .serve,
      ending]⟩ (some wish) later (10 + (3 - index))) :
    Proceeds ⟨hub, [.distribute posting index reached, .vacate handle, .endCycle, .serve, ending]⟩
      (some wish) later (10 + (3 - index)) := by
  have crew : Crew hub.apps := serves.ready.crew
  have hlength := crew.length_eq
  by_cases lt : index < 3
  · have hlt : index < hub.apps.length := by omega
    have ha : hub.apps[index]? = some hub.apps[index] := List.getElem?_eq_getElem hlt
    have hunwanted := crew.unwanted plays.target (List.getElem_mem hlt)
    have hstep : (Frame.distribute posting index reached).step hub =
        .go hub [.distribute posting (index + 1) reached] := by
      simp only [Frame.step, offerTo, ha, hunwanted, Bool.false_eq_true, if_false]
    exact .still serves hstep (.refl hub) (.offer plays lt) .stay (by omega)
  · have ha : hub.apps[index]? = none := List.getElem?_eq_none (by omega)
    have hstep : (Frame.distribute posting index reached).step hub = .go hub [.complete posting] := by
      simp [Frame.step, offerTo, ha, plays.target]
    exact .still serves hstep (.refl hub) (.complete plays) .stay (by omega)

theorem proceeds_dump {handle : Handle} {posting : Posting Memory}
    (plays : Wish.dump.Plays posting)
    (serves : Serves ⟨hub, [.complete posting, .vacate handle, .endCycle, .serve, ending]⟩
      (some .dump) later 9) :
    Proceeds ⟨hub, [.complete posting, .vacate handle, .endCycle, .serve, ending]⟩ (some .dump)
      later 9 := by
  have hstep : (Frame.complete posting).step hub = .go (hub.record (.worked posting.serial))
      [.code (.loop (.callback posting.serial)) (.inspect fun view =>
        alter (fun memory => { memory with dump := view.dump }) (.done ()))] := by
    simp only [Frame.step, Hub.complete, plays.work]
    rfl
  have still : Undisturbed hub (hub.record (.worked posting.serial)) :=
    .same rfl rfl rfl rfl rfl rfl rfl rfl
  exact .still serves hstep still .inspect .dumped (by decide)

/-- The hub that has been asked to stop does so. -/
structure Stops (hub hub' : Hub Memory) : Prop where
  stopped : hub'.running = false
  collaborators : hub'.collaborators = hub.collaborators
  apps : hub'.apps = hub.apps
  tally : hub'.memory.tally = hub.memory.tally
  dropped : hub'.dropped = hub.dropped
  waiting : hub'.waiting = hub.waiting

theorem stops {posting : Posting Memory} (plays : Wish.stop.Plays posting) (hub : Hub Memory) :
    ∃ hub', (Frame.complete posting).step hub = .go hub' [] ∧ Stops hub hub' := by
  simp only [Frame.step, Hub.complete, plays.work, Wish.work, perform]
  exact ⟨_, rfl, rfl, rfl, rfl, rfl, rfl, rfl⟩

/-- The loop waits, or its next step brings it closer to that, or it has stopped. -/
theorem Serves.step (serves : Serves m hand later n) :
    (m.frames = [.await, ending] ∧ hand = none ∧ later = [] ∧ m.step = .waiting) ∨
      Proceeds m hand later n ∨
      (hand = some .stop ∧ ∃ hub' handle, Stops m.hub hub' ∧
        m.step = .stepped ⟨hub', [.vacate handle, .endCycle, .serve, ending]⟩) := by
  obtain ⟨hub, frames⟩ := m
  have ready : Ready hub := serves.ready
  have duty : Duty hub frames hand n := serves.duty
  have tidy : hub.Tidy (Machine.cargo ⟨hub, frames⟩) := serves.reachable.tidy
  cases duty with
  | run =>
    have hstep : (Frame.code (.loop .outside) (.run (.done ())) : Frame Memory).step hub =
        .go (hub.log (.running hub.pool.capacity)) [.serve, ending] := rfl
    have logged : Undisturbed hub (hub.log (.running hub.pool.capacity)) :=
      .same rfl rfl rfl rfl rfl rfl rfl rfl
    exact .inr (.inl (.still serves hstep logged .serve .stay (by decide)))
  | serve =>
    exact .inr (.inl (.still serves (serve_step ready) (.sampleUsage hub) .await .stay (by decide)))
  | await =>
    rcases proceeds_await serves with ⟨empty, waits⟩ | proceeds
    · exact .inl ⟨rfl, rfl, empty, waits⟩
    · exact .inr (.inl proceeds)
  | @cycle handle posting wish held plays =>
    have does : Does hub.memory (depthMonitor Memory.depthCell (hub.queue.size + 1)) none 3 :=
      .recall (.store ⟨rfl, rfl, rfl⟩ .done)
    exact .inr (.inl (.still serves (cycle_step ready handle) (.refl hub) (.before held plays does)
      .stay (by decide)))
  | @before handle posting routine k wish held plays does =>
    have kept : ∀ {hub' : Hub Memory}, Undisturbed hub hub' →
        hub'.pool.inspect handle = some posting := by
      intro hub' still
      rw [still.pool]
      exact held
    rcases does.spares (.handle .beforeCycle) with
      ⟨hub', hstep, still⟩ | ⟨hub', next, k, hstep, rfl, does', still⟩
    · have hpos := does.pos
      exact .inr (.inl (.still serves hstep still (.turn (kept still) plays) .stay (by omega)))
    · exact .inr (.inl (.still serves hstep still (.before (kept still) plays does') .stay
        (by omega)))
  | @turn handle posting wish held plays =>
    have hstep : (Frame.turn handle : Frame Memory).step hub =
        .go hub.rollWakeups [.dispatch handle, .endCycle] := rfl
    have still := Undisturbed.rollWakeups hub
    have held' : hub.rollWakeups.pool.inspect handle = some posting := by
      rw [still.pool]
      exact held
    exact .inr (.inl (.still serves hstep still (.dispatch held' plays) .stay (by decide)))
  | @dispatch handle posting wish held plays =>
    have hwaiting := (Queues.take tidy rfl).waiting_eq
    exact .inr (.inl (.goes serves (dispatch_step held) ⟨rfl, rfl, rfl, id, ⟨rfl, rfl, rfl⟩, rfl⟩
      hwaiting (.offer plays (Nat.zero_le 3)) .stay (by decide)))
  | offer plays le => exact .inr (.inl (proceeds_offer plays le serves))
  | @complete handle posting wish plays =>
    cases wish with
    | dump => exact .inr (.inl (proceeds_dump plays serves))
    | stop =>
      obtain ⟨hub', hstep, stopped⟩ := stops plays hub
      exact .inr (.inr ⟨rfl, hub', handle, stopped, stepped_of_go hstep⟩)
  | @inspect handle serial =>
    have hstep : (Frame.code (.loop (.callback serial)) (.inspect fun view =>
        alter (fun memory : Memory => { memory with dump := view.dump }) (.done ()))).step hub =
        .go hub [.code (.loop (.callback serial))
          (alter (fun memory => { memory with dump := hub.view.dump }) (.done ()))] := rfl
    have does : Does hub.memory
        (alter (fun memory => { memory with dump := hub.view.dump }) (.done ())) none 3 :=
      .recall (.store ⟨rfl, rfl, rfl⟩ .done)
    exact .inr (.inl (.still serves hstep (.refl hub) (.dump does) .stay (by decide)))
  | @dump handle serial routine k does =>
    rcases does.spares (.loop (.callback serial)) with
      ⟨hub', hstep, still⟩ | ⟨hub', next, k, hstep, rfl, does', still⟩
    · have hpos := does.pos
      exact .inr (.inl (.still serves hstep still .vacate .stay (by omega)))
    · exact .inr (.inl (.still serves hstep still (.dump does') .stay (by omega)))
  | @vacate handle =>
    have hstep : (Frame.vacate handle : Frame Memory).step hub = .go (hub.vacate handle) [] := rfl
    have hwaiting := (Queues.vacate tidy).waiting_eq
    exact .inr (.inl (.goes serves hstep (.vacate hub handle) hwaiting .endCycle .stay (by decide)))
  | endCycle =>
    exact .inr (.inl (.still serves (endCycle_step ready) (.refl hub) .after .stay (by decide)))
  | after =>
    have hstep : (Frame.code (.handle .afterCycle) (.done ()) : Frame Memory).step hub =
        .go hub [] := rfl
    exact .inr (.inl (.still serves hstep (.refl hub) .serve .stay (by decide)))

end SensorHub.Demo.Simulation
