import SensorHub.Proofs.Errands

namespace SensorHub.Demo.Simulation

open SensorHub.Hub

/-- The steps of the loop that an event of that role costs at most, with its answer. -/
def Role.cost (role : Role) : Nat :=
  if role.reply?.isSome then 74 else 37

namespace Line

/-- The steps of the loop that are due for the events of the line, the cycle that has begun apart. -/
def cost (line : Line) : Nat :=
  (line.waiting.map Role.cost).sum + if line.hand.any (·.reply?.isSome) then 37 else 0

/-- The line goes a step further: something becomes of the event that is dealt with, or the next
event is taken. -/
inductive Step (capacity : Nat) : Line → Line → Prop
  | shift {line line'} (h : line.Shift capacity line') : Step capacity line line'
  | take {role waiting tally dropped} :
      Step capacity ⟨none, role :: waiting, tally, dropped⟩
        ⟨role.owed 0, waiting, tally, dropped⟩

variable {capacity : Nat} {line line' : Line}

theorem Shift.cost_le (h : line.Shift capacity line') : line'.cost ≤ line.cost := by
  cases h with
  | stay => exact Nat.le_refl _
  | count => simp [cost]
  | @reply role reply _ _ _ asks =>
    have hlast : reply.cost = 37 := by
      cases role <;> cases asks <;> rfl
    simp [cost, asks, hlast]
  | lose => simp [cost]

theorem cost_take (role : Role) (waiting : List Role) (tally : Tally) (dropped : UInt32) :
    cost ⟨role.owed 0, waiting, tally, dropped⟩ + 36 <
      cost ⟨none, role :: waiting, tally, dropped⟩ := by
  have hcost : (if (role.owed 0).any (·.reply?.isSome) then 37 else 0) + 36 < role.cost := by
    cases role <;> decide
  simp only [cost, List.map_cons, List.sum_cons, Option.any_none, Bool.false_eq_true, if_false]
  omega

end Line

/-- The code that goes on when the loop has ended. -/
def ending : Frame Memory :=
  .code (.loop .outside) (.done ())

/-- The frames of a loop that runs, the event that is dealt with, and how many steps are left at most
until the loop waits. -/
inductive Stage (hub : Hub Memory) : List (Frame Memory) → Option Role → Nat → Prop
  | run : Stage hub [.code (.loop .outside) (.run (.done ()))] none 2
  | serve : Stage hub [.serve, ending] none 1
  | await : Stage hub [.await, ending] none 0
  | cycle {handle posting} {role : Role} (held : hub.pool.inspect handle = some posting)
      (plays : role.Plays posting) : Stage hub [.cycle handle, .serve, ending] (role.owed 0) 36
  | before {handle posting routine n} {role : Role} (held : hub.pool.inspect handle = some posting)
      (plays : role.Plays posting) (does : Does hub.memory routine none n) :
      Stage hub [.code (.handle .beforeCycle) routine, .turn handle, .serve, ending] (role.owed 0)
        (32 + n)
  | turn {handle posting} {role : Role} (held : hub.pool.inspect handle = some posting)
      (plays : role.Plays posting) : Stage hub [.turn handle, .serve, ending] (role.owed 0) 32
  | dispatch {handle posting} {role : Role} (held : hub.pool.inspect handle = some posting)
      (plays : role.Plays posting) :
      Stage hub [.dispatch handle, .endCycle, .serve, ending] (role.owed 0) 31
  | offer {handle posting index reached} {role : Role} (plays : role.Plays posting) (le : index ≤ 3) :
      Stage hub [.distribute posting index reached, .vacate handle, .endCycle, .serve, ending]
        (role.owed index) (6 + 8 * (3 - index))
  | handle {handle posting index stopping routine hand n} {role : Role} (plays : role.Plays posting)
      (receives : role.receiver? = some index) (does : Does hub.memory routine hand n) :
      Stage hub [.code (.entry index stopping (.event (some posting.serial))) routine,
        .delivered index, .distribute posting (index + 1) true, .vacate handle, .endCycle, .serve,
        ending] hand (n + (7 + 8 * (2 - index)))
  | delivered {handle posting index} {role : Role} (plays : role.Plays posting)
      (receives : role.receiver? = some index) :
      Stage hub [.delivered index, .distribute posting (index + 1) true, .vacate handle, .endCycle,
        .serve, ending] none (7 + 8 * (2 - index))
  | complete {handle posting} (plain : posting.completion = .nothing) :
      Stage hub [.complete posting, .vacate handle, .endCycle, .serve, ending] none 5
  | vacate {handle} : Stage hub [.vacate handle, .endCycle, .serve, ending] none 4
  | endCycle : Stage hub [.endCycle, .serve, ending] none 3
  | after : Stage hub [.code (.handle .afterCycle) (.done ()), .serve, ending] none 2

variable {hub hub' : Hub Memory} {line : Line} {frame : Frame Memory}
  {frames rest : List (Frame Memory)} {n n' : Nat}

theorem Role.receiver_lt {role : Role} {index : Nat} (h : role.receiver? = some index) :
    index < 3 := by
  cases role <;> cases h <;> decide

theorem serve_step (ready : Ready hub) :
    (Frame.serve : Frame Memory).step hub = .go hub.sampleUsage [.await] := by
  simp only [Frame.step, ready.running, if_true]

/-- A cycle begins with the hook that notes how many events wait. -/
theorem cycle_step (ready : Ready hub) (handle : Handle) :
    (Frame.cycle handle : Frame Memory).step hub = .go hub
      [.code (.handle .beforeCycle) (depthMonitor Memory.depthCell (hub.queue.size + 1)),
        .turn handle] := by
  simp only [Frame.step, ready.collaborators]
  rfl

theorem dispatch_step {handle : Handle} {posting : Posting Memory}
    (held : hub.pool.inspect handle = some posting) : (Frame.dispatch handle : Frame Memory).step hub =
      .go ((hub.take handle).2.record (.distributing posting.serial))
        [.distribute posting 0 false, .vacate handle] := by
  simp only [Frame.step, Hub.dispatch, Hub.take, Pool.take, held]

theorem endCycle_step (ready : Ready hub) : (Frame.endCycle : Frame Memory).step hub =
    .go hub [.code (.handle .afterCycle) (.done ())] := by
  simp only [Frame.step, ready.collaborators]
  rfl

/-- A step takes the line a step further, and brings the loop closer to its next wait. -/
def Advances (hub : Hub Memory) (frames : List (Frame Memory)) (line : Line) (n : Nat) : Prop :=
  ∃ hub' frames' line' n', Machine.step ⟨hub, frames⟩ = .stepped ⟨hub', frames'⟩ ∧
    Shows hub' line' ∧ Stage hub' frames' line'.hand n' ∧ line.Step hub.pool.capacity line' ∧
    n' + line'.cost < n + line.cost

theorem stepped_of_go (h : frame.step hub = .go hub' frames) :
    Machine.step ⟨hub, frame :: rest⟩ = .stepped ⟨hub', frames ++ rest⟩ :=
  Machine.step_eq_stepped.mpr ⟨hub, frame, rest, hub', frames, rfl, h, rfl⟩

theorem Advances.stay {hand : Option Role} (shows : Shows hub line) (hhand : line.hand = hand)
    (h : frame.step hub = .go hub' frames) (steady : Steady hub hub')
    (waiting : hub'.waiting = hub.waiting) (stage : Stage hub' (frames ++ rest) hand n')
    (less : n' < n) : Advances hub (frame :: rest) line n :=
  ⟨hub', frames ++ rest, line, n', stepped_of_go h, shows.steady steady waiting, hhand ▸ stage,
    .shift .stay, Nat.add_lt_add_right less _⟩

theorem Advances.still {hand : Option Role} (shows : Shows hub line) (hhand : line.hand = hand)
    (h : frame.step hub = .go hub' frames) (still : Undisturbed hub hub')
    (stage : Stage hub' (frames ++ rest) hand n') (less : n' < n) :
    Advances hub (frame :: rest) line n :=
  .stay shows hhand h still.toSteady still.waiting stage less

theorem advances_await (tidy : hub.Tidy []) (free : line.hand = none) (shows : Shows hub line) :
    (line.waiting = [] ∧ Machine.step ⟨hub, [.await, ending]⟩ = .waiting) ∨
      Advances hub [.await, ending] line 0 := by
  obtain ⟨hand, waiting, tally, dropped⟩ := line
  obtain rfl : hand = none := free
  cases waiting with
  | nil =>
    have hnone : hub.waiting = [] := List.forall₂_nil_left_iff.mp shows.waiting
    refine .inl ⟨rfl, ?_⟩
    simp only [Machine.step, Frame.step, tidy.pop_none hnone]
  | cons role roles =>
    obtain ⟨posting, later, plays, rest, hfront⟩ := List.forall₂_cons_left_iff.mp shows.waiting
    obtain ⟨handle, hub', hpop, held, hlater, -⟩ := tidy.pop_front hfront
    have hstep : (Frame.await : Frame Memory).step hub = .go hub' [.cycle handle, .serve] := by
      simp only [Frame.step, hpop]
    have steady := Steady.pop hpop
    have hcost := Line.cost_take role roles tally dropped
    exact .inr ⟨_, _, ⟨role.owed 0, roles, tally, dropped⟩, 36, stepped_of_go hstep,
      ⟨steady.ready shows.ready, hlater ▸ rest, steady.memory.tally.trans shows.tally,
        steady.dropped.trans shows.dropped⟩, .cycle held plays, .take, by omega⟩

/-- The event is offered to the app at a place, or to none any more. -/
theorem advances_offer {handle : Handle} {posting : Posting Memory} {role : Role} {index : Nat}
    {reached : Bool} (plays : role.Plays posting) (le : index ≤ 3) (shows : Shows hub line)
    (owed : line.hand = role.owed index) :
    Advances hub [.distribute posting index reached, .vacate handle, .endCycle, .serve, ending] line
      (6 + 8 * (3 - index)) := by
  have hlength := shows.ready.crew.length_eq
  by_cases lt : index < 3
  · have ha : hub.apps[index]? = some hub.apps[index] := List.getElem?_eq_getElem (by omega)
    have hwanted := shows.ready.crew.wanted plays.1 ha
    cases hw : wanted posting.event hub.apps[index].nanoapp with
    | true =>
      have receives := hwanted.mp hw
      obtain ⟨hub', stopping, hstep, still⟩ : ∃ hub' stopping,
          (Frame.distribute posting index reached).step hub = .go hub'
            [.code (.entry index stopping (.event (some posting.serial)))
                (hub.apps[index].onEvent posting.event posting.completion.hasCallback),
              .delivered index, .distribute posting (index + 1) true] ∧ Undisturbed hub hub' := by
        simp only [Frame.step, offerTo, ha, hw, if_true]
        exact ⟨_, _, rfl, .deliverTo hub index _ _ _ _⟩
      obtain ⟨n, hn, does⟩ := shows.ready.crew.does plays.1 ha receives hub'.memory
        posting.completion.hasCallback
      rw [← Role.owed_self receives] at does
      exact .still shows owed hstep still (.handle plays receives does) (by omega)
    | false =>
      have passes : role.receiver? ≠ some index := fun hr => by
        rw [hwanted.mpr hr] at hw
        cases hw
      have hstep : (Frame.distribute posting index reached).step hub =
          .go hub [.distribute posting (index + 1) reached] := by
        simp only [Frame.step, offerTo, ha, hw, Bool.false_eq_true, if_false]
      exact .still shows (owed.trans (Role.owed_succ passes).symm) hstep (.refl hub)
        (.offer plays lt) (by omega)
  · have ha : hub.apps[index]? = none := List.getElem?_eq_none (by omega)
    obtain ⟨hub', hstep, still⟩ : ∃ hub', (Frame.distribute posting index reached).step hub =
        .go hub' [.complete posting] ∧ Undisturbed hub hub' := by
      simp only [Frame.step, offerTo, ha]
      refine ⟨_, rfl, ?_⟩
      split
      · exact .same rfl rfl rfl rfl rfl rfl rfl rfl
      · exact .refl hub
    exact .still shows (owed.trans (Role.owed_end (by omega))) hstep still (.complete plays.2)
      (by omega)

/-- The code of the app that has received the event goes on, or it is done. -/
theorem advances_handle {handle : Handle} {posting : Posting Memory} {role : Role} {index : Nat}
    {stopping : Bool} {routine : Routine Memory .app .nothing}
    (tidy : hub.Tidy [.handler posting.serial, .posting posting, .spent handle])
    (plays : role.Plays posting) (receives : role.receiver? = some index)
    (does : Does hub.memory routine line.hand n) (shows : Shows hub line) :
    Advances hub [.code (.entry index stopping (.event (some posting.serial))) routine,
      .delivered index, .distribute posting (index + 1) true, .vacate handle, .endCycle, .serve,
      ending] line (n + (7 + 8 * (2 - index))) := by
  have placed : ∀ i, (Actor.entry index stopping (.event (some posting.serial)) :
      Actor Memory .app .nothing).place? = some i → i < 3 := by
    intro i hi
    cases hi
    exact Role.receiver_lt receives
  rcases does.step shows tidy rfl placed with
    ⟨hub', hstep, free, still⟩ | ⟨hub', next, line', k, hstep, rfl, does', shows', shift, -⟩
  · have hpos := does.pos
    exact .still shows free hstep still (.delivered plays receives) (by omega)
  · have hcost := shift.cost_le
    exact ⟨hub', _, line', _, stepped_of_go hstep, shows', .handle plays receives does', .shift shift,
      by omega⟩

/-- The hook that runs before a cycle goes on, or it is done. -/
theorem advances_before {handle : Handle} {posting : Posting Memory} {role : Role}
    {routine : Routine Memory .handle .nothing} (tidy : hub.Tidy [.slot handle])
    (held : hub.pool.inspect handle = some posting) (plays : role.Plays posting)
    (does : Does hub.memory routine none n) (shows : Shows hub line)
    (owed : line.hand = role.owed 0) :
    Advances hub [.code (.handle .beforeCycle) routine, .turn handle, .serve, ending] line
      (32 + n) := by
  have free : Shows hub { line with hand := none } :=
    ⟨shows.ready, shows.waiting, shows.tally, shows.dropped⟩
  have does' : Does hub.memory routine ({ line with hand := none } : Line).hand n := does
  have placed : ∀ i, (Actor.handle .beforeCycle : Actor Memory .handle .nothing).place? = some i →
      i < 3 := nofun
  rcases does'.step free tidy rfl placed with
    ⟨hub', hstep, -, still⟩ | ⟨hub', next, line', k, hstep, rfl, does', shows', shift, same⟩
  · have hpos := does.pos
    have held' : hub'.pool.inspect handle = some posting := by
      rw [still.pool]
      exact held
    exact .still shows owed hstep still (.turn held' plays) (by omega)
  · obtain rfl := shift.eq_of_free rfl
    have held' := (same handle (List.mem_cons_self ..)).trans held
    refine ⟨hub', _, line, 32 + k, stepped_of_go hstep,
      ⟨shows'.ready, shows'.waiting, shows'.tally, shows'.dropped⟩, ?_, .shift .stay, by omega⟩
    rw [owed]
    exact .before held' plays does'

/-- The loop waits, or its next step takes the line a step further. -/
theorem Stage.step (hm : Machine.Reachable ⟨hub, frames⟩) (stage : Stage hub frames line.hand n)
    (shows : Shows hub line) :
    (frames = [.await, ending] ∧ line.waiting = [] ∧ Machine.step ⟨hub, frames⟩ = .waiting) ∨
      Advances hub frames line n := by
  have tidy : hub.Tidy (Machine.cargo ⟨hub, frames⟩) := hm.tidy
  generalize hhand : line.hand = hand at stage
  cases stage with
  | run =>
    have hstep : (Frame.code (.loop .outside) (.run (.done ())) : Frame Memory).step hub =
        .go (hub.log (.running hub.pool.capacity)) [.serve, ending] := rfl
    exact .inr (.still shows hhand hstep (.same rfl rfl rfl rfl rfl rfl rfl rfl) .serve (by decide))
  | serve =>
    exact .inr (.still shows hhand (serve_step shows.ready) (.sampleUsage hub) .await (by decide))
  | await =>
    rcases advances_await tidy hhand shows with ⟨empty, waits⟩ | advances
    · exact .inl ⟨rfl, empty, waits⟩
    · exact .inr advances
  | @cycle handle posting role held plays =>
    have does : Does hub.memory (depthMonitor Memory.depthCell (hub.queue.size + 1)) none 3 :=
      .recall (.store ⟨rfl, rfl, rfl⟩ .done)
    exact .inr (.still shows hhand (cycle_step shows.ready handle) (.refl hub)
      (.before held plays does) (by decide))
  | before held plays does => exact .inr (advances_before tidy held plays does shows hhand)
  | @turn handle posting role held plays =>
    have hstep : (Frame.turn handle : Frame Memory).step hub =
        .go hub.rollWakeups [.dispatch handle, .endCycle] := rfl
    have still := Undisturbed.rollWakeups hub
    have held' : hub.rollWakeups.pool.inspect handle = some posting := by
      rw [still.pool]
      exact held
    exact .inr (.still shows hhand hstep still (.dispatch held' plays) (by decide))
  | @dispatch handle posting role held plays =>
    have hwaiting := (Queues.take tidy rfl).waiting_eq
    exact .inr (.stay shows hhand (dispatch_step held) ⟨rfl, rfl, rfl, id, ⟨rfl, rfl, rfl⟩, rfl⟩ hwaiting
      (.offer plays (Nat.zero_le 3)) (by decide))
  | offer plays le => exact .inr (advances_offer plays le shows hhand)
  | handle plays receives does =>
    subst hhand
    exact .inr (advances_handle tidy plays receives does shows)
  | @delivered handle posting index role plays receives =>
    have hstep : (Frame.delivered index : Frame Memory).step hub =
        .go (hub.finishDelivery index) [] := rfl
    have counted : Undisturbed hub (hub.alterApp index Nanoapp.countEvent) :=
      .alterApp hub index fun _ => ⟨rfl, rfl⟩
    have still : Undisturbed hub (hub.finishDelivery index) :=
      counted.trans (.same rfl rfl rfl rfl rfl rfl rfl rfl)
    have hlt := Role.receiver_lt receives
    exact .inr (.still shows (hhand.trans (Role.owed_past receives).symm) hstep still
      (.offer plays hlt) (by omega))
  | @complete handle posting plain =>
    have hstep : (Frame.complete posting).step hub = .go hub [] := by
      simp only [Frame.step, Hub.complete, plain]
    exact .inr (.still shows hhand hstep (.refl hub) .vacate (by decide))
  | @vacate handle =>
    have hstep : (Frame.vacate handle : Frame Memory).step hub = .go (hub.vacate handle) [] := rfl
    have hwaiting := (Queues.vacate tidy).waiting_eq
    exact .inr (.stay shows hhand hstep (.vacate hub handle) hwaiting .endCycle (by decide))
  | endCycle =>
    exact .inr (.still shows hhand (endCycle_step shows.ready) (.refl hub) .after (by decide))
  | after =>
    have hstep : (Frame.code (.handle .afterCycle) (.done ()) : Frame Memory).step hub =
        .go hub [] := rfl
    exact .inr (.still shows hhand hstep (.refl hub) .serve (by decide))

theorem Stage.posted {hand : Option Role} (stage : Stage hub frames hand n)
    (memory : hub'.memory = hub.memory)
    (same : ∀ k ∈ (Machine.cargo ⟨hub, frames⟩).filterMap Cargo.stored?,
      hub'.pool.inspect k = hub.pool.inspect k) : Stage hub' frames hand n := by
  have kept : ∀ {handle posting}, hub.pool.inspect handle = some posting →
      handle ∈ (Machine.cargo ⟨hub, frames⟩).filterMap Cargo.stored? →
        hub'.pool.inspect handle = some posting := fun held mem => (same _ mem).trans held
  cases stage with
  | run => exact .run
  | serve => exact .serve
  | await => exact .await
  | cycle held plays => exact .cycle (kept held (List.mem_cons_self ..)) plays
  | before held plays does =>
    exact .before (kept held (List.mem_cons_self ..)) plays (memory.symm ▸ does)
  | turn held plays => exact .turn (kept held (List.mem_cons_self ..)) plays
  | dispatch held plays => exact .dispatch (kept held (List.mem_cons_self ..)) plays
  | offer plays le => exact .offer plays le
  | handle plays receives does => exact .handle plays receives (memory.symm ▸ does)
  | delivered plays receives => exact .delivered plays receives
  | complete plain => exact .complete plain
  | vacate => exact .vacate
  | endCycle => exact .endCycle
  | after => exact .after

/-- Apart from the events that wait at most one slot is taken. -/
theorem Stage.handles_le {hand : Option Role} (stage : Stage hub frames hand n) :
    ((Machine.cargo ⟨hub, frames⟩).filterMap Cargo.handle?).length ≤ 1 := by
  cases stage <;> exact Nat.le_of_ble_eq_true rfl

end SensorHub.Demo.Simulation
