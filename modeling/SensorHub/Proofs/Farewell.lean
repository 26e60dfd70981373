import SensorHub.Proofs.Wishes

namespace SensorHub.Demo.Simulation

open SensorHub.Hub

variable {hub hub₁ hub' : Hub Memory} {frames : List (Frame Memory)} {handle : Handle}
  {cargo : List (Cargo Memory)} {m : Machine Memory} {hand : Option Wish} {later : List Wish}
  {n : Nat}

/-- The frames of a loop that deals with no event. -/
inductive Idle : List (Frame Memory) → Prop
  | run : Idle [.code (.loop .outside) (.run (.done ()))]
  | serve : Idle [.serve, ending]
  | await : Idle [.await, ending]
  | endCycle : Idle [.endCycle, .serve, ending]
  | after : Idle [.code (.handle .afterCycle) (.done ()), .serve, ending]

/-- While no slot is taken, the loop deals with no event, and no answer is on its way. -/
theorem Stage.idle {hand : Option Role} (stage : Stage hub frames hand n)
    (free : (Machine.cargo ⟨hub, frames⟩).filterMap Cargo.handle? = []) :
    Idle frames ∧ hand = none := by
  cases stage with
  | run => exact ⟨.run, rfl⟩
  | serve => exact ⟨.serve, rfl⟩
  | await => exact ⟨.await, rfl⟩
  | endCycle => exact ⟨.endCycle, rfl⟩
  | after => exact ⟨.after, rfl⟩
  | cycle | before | turn | dispatch | offer | handle | delivered | complete | vacate => cases free

theorem Idle.duty (idle : Idle frames) (hub : Hub Memory) : ∃ n ≤ 3, Duty hub frames none n := by
  cases idle with
  | run => exact ⟨2, by decide, .run⟩
  | serve => exact ⟨1, by decide, .serve⟩
  | await => exact ⟨0, by decide, .await⟩
  | endCycle => exact ⟨3, by decide, .endCycle⟩
  | after => exact ⟨2, by decide, .after⟩

theorem asks (tidy : hub.Tidy cargo) (ready : Ready hub) (room : 0 < hub.room) (wish : Wish) :
    ∃ hub' posting, (∀ next rest, Machine.Steps 3
        ⟨hub, .code (.handle .foreign) (.request wish.work next) :: rest⟩
        ⟨hub', .code (.handle .foreign) (next true) :: rest⟩) ∧
      Steady hub hub' ∧ hub'.memory = hub.memory ∧ hub'.room + 1 = hub.room ∧
      hub'.waiting = hub.waiting ++ [posting] ∧ wish.Plays posting ∧
      ∀ k ∈ cargo.filterMap Cargo.stored?, hub'.pool.inspect k = hub.pool.inspect k := by
  generalize hwork : wish.work = work
  have tidy₁ := tidy.offer (wayOf work) (.system work.kind) (.work work)
  obtain ⟨hub', he, -, room', -, hwaiting, same⟩ := queued tidy₁ room
    (hub.offer (wayOf work) (.system work.kind) (.work work)).1
  have requested : ∀ next, (Frame.code (.handle .foreign) (.request work next)).step hub =
      .go (hub.offer (wayOf work) (.system work.kind) (.work work)).2
        [.evict [], .enqueue (hub.offer (wayOf work) (.system work.kind) (.work work)).1,
          .code (.handle .foreign) (next true)] := by
    intro next
    have hrunning : (hub.offer (wayOf work) (.system work.kind) (.work work)).2.running = true :=
      ready.running
    have hroom : 0 < (hub.offer (wayOf work) (.system work.kind) (.work work)).2.room := room
    simp only [Frame.step, Routine.step, request, hrunning, if_true, postRunning_room hroom]
    rfl
  have evicted : (Frame.evict [] : Frame Memory).step
      (hub.offer (wayOf work) (.system work.kind) (.work work)).2 =
        .go (hub.offer (wayOf work) (.system work.kind) (.work work)).2 [] := rfl
  have enqueued : (Frame.enqueue (hub.offer (wayOf work) (.system work.kind) (.work work)).1).step
      (hub.offer (wayOf work) (.system work.kind) (.work work)).2 = .go hub' [] := by
    simp only [Frame.step, he]
  obtain ⟨steady, hmemory⟩ := Steady.enqueue
    (hub.offer (wayOf work) (.system work.kind) (.work work)).2
    (hub.offer (wayOf work) (.system work.kind) (.work work)).1
  rw [he] at steady hmemory
  have offered : Steady hub (hub.offer (wayOf work) (.system work.kind) (.work work)).2 :=
    ⟨rfl, rfl, rfl, id, ⟨rfl, rfl, rfl⟩, rfl⟩
  exact ⟨hub', _, fun next rest => (Machine.Steps.go (requested next)).trans
    ((Machine.Steps.go evicted).trans (Machine.Steps.go enqueued)), offered.trans steady, hmemory,
    room', hwaiting, ⟨rfl, by rw [hwork]; rfl⟩, same⟩

/-- Wherever the loop is, a wish waits behind the others. -/
theorem Serves.ask (serves : Serves m hand later n) (room : 0 < m.hub.room) (wish : Wish) :
    ∃ hub', (∀ next rest, Machine.Steps 3
        ⟨m.hub, .code (.handle .foreign) (.request wish.work next) :: rest⟩
        ⟨hub', .code (.handle .foreign) (next true) :: rest⟩) ∧
      m.Reaches ⟨hub', m.frames⟩ ∧ Serves ⟨hub', m.frames⟩ hand (later ++ [wish]) n ∧
      Steady m.hub hub' ∧ hub'.room + 1 = m.hub.room := by
  obtain ⟨hub', posting, asked, steady, memory, hroom, hwaiting, plays, same⟩ :=
    asks serves.reachable.tidy serves.ready room wish
  have reaches : m.Reaches ⟨hub', m.frames⟩ :=
    .head (.interrupt (.request wish.work fun _ => .done ()))
      ((asked _ m.frames).trans (Machine.Steps.handled ..)).reaches
  refine ⟨hub', asked, reaches, ⟨serves.reachable.reaches reaches, steady.ready serves.ready, ?_,
    serves.duty.posted memory same⟩, steady, hroom⟩
  rw [hwaiting]
  exact List.rel_append serves.waiting (.cons plays .nil)

/-- A hub that has stopped winds down: the events and what is reported stay as they are. -/
structure Winds (hub hub' : Hub Memory) : Prop where
  collaborators : hub'.collaborators = hub.collaborators
  running : hub'.running = hub.running
  tally : hub'.memory.tally = hub.memory.tally
  dropped : hub'.dropped = hub.dropped
  waiting : hub'.waiting = hub.waiting

theorem Winds.refl (hub : Hub Memory) : Winds hub hub :=
  ⟨rfl, rfl, rfl, rfl, rfl⟩

theorem Winds.trans (h : Winds hub hub₁) (h' : Winds hub₁ hub') : Winds hub hub' :=
  ⟨h'.collaborators.trans h.collaborators, h'.running.trans h.running, h'.tally.trans h.tally,
    h'.dropped.trans h.dropped, h'.waiting.trans h.waiting⟩

/-- The latest app ends, a timer that it has left behind is released, and it leaves the registry. -/
theorem removes (timers : hub.collaborators = Simulation.collaborators)
    (silent : ∀ app ∈ hub.apps, app.onEnd = .done ()) {index : Nat}
    (last : hub.apps.length = index + 1) :
    ∃ hub', (∀ rest, Machine.Steps 6 ⟨hub, .remove index true :: rest⟩ ⟨hub', rest⟩) ∧
      Winds hub hub' ∧ hub'.apps = hub.apps.eraseIdx index := by
  have hlt : index < hub.apps.length := by omega
  have ha : hub.apps[index]? = some hub.apps[index] := List.getElem?_eq_getElem hlt
  have hend : hub.apps[index].onEnd = .done () := silent _ (List.getElem_mem hlt)
  have order : hub.collaborators.inReleaseOrder = [(0, Demo.timers)] := by
    rw [timers]
    rfl
  obtain ⟨hub₁, load, info, entered, winds₁, apps₁⟩ : ∃ hub₁ load info,
      (Frame.remove index true).step hub = .go hub₁ [.code (.entry index true .finish) (.done ()),
        .release load info [(0, Demo.timers)], .erase index load info] ∧
      Winds hub hub₁ ∧ hub₁.apps = hub.apps := by
    simp only [Frame.step, removeAt, ha, if_true, hend, setCurrent, order]
    exact ⟨_, _, _, rfl, ⟨rfl, rfl, rfl, rfl, rfl⟩, rfl⟩
  have ended : (Frame.code (.entry index true .finish) (.done ()) : Frame Memory).step hub₁ =
      .go (hub₁.record (.left (hub₁.loadAt index) .finish)) [] := rfl
  have asked : (Frame.release load info [(0, Demo.timers)] : Frame Memory).step
      (hub₁.record (.left (hub₁.loadAt index) .finish)) =
        .go ((hub₁.record (.left (hub₁.loadAt index) .finish)).record (.released load .timer 0))
          [.code (.release .timer info) (Demo.timers.release info), .release load info []] := rfl
  obtain ⟨hub₂, reported, winds₂, apps₂⟩ : ∃ hub₂,
      (Frame.code (.release .timer info) (Demo.timers.release info) : Frame Memory).step
        ((hub₁.record (.left (hub₁.loadAt index) .finish)).record (.released load .timer 0)) =
          .go hub₂ [] ∧ Winds hub₁ hub₂ ∧ hub₂.apps = hub₁.apps := by
    simp only [Frame.step, Routine.step, Demo.timers]
    refine ⟨_, rfl, ?_⟩
    split
    · exact ⟨⟨rfl, rfl, rfl, rfl, rfl⟩, rfl⟩
    · exact ⟨⟨rfl, rfl, rfl, rfl, rfl⟩, rfl⟩
  have released : (Frame.release load info [] : Frame Memory).step hub₂ = .go hub₂ [] := rfl
  have erased : (Frame.erase index load info : Frame Memory).step hub₂ =
      .go ((hub₂.erase index load info.instanceId).setCurrent none) [] := rfl
  have winds₃ : Winds hub₂ ((hub₂.erase index load info.instanceId).setCurrent none) :=
    ⟨rfl, rfl, rfl, rfl, rfl⟩
  refine ⟨_, fun rest => (Machine.Steps.go entered).trans ((Machine.Steps.go ended).trans
    ((Machine.Steps.go asked).trans ((Machine.Steps.go reported).trans
      ((Machine.Steps.go released).trans (Machine.Steps.go erased))))),
    winds₁.trans (winds₂.trans winds₃), ?_⟩
  rw [← apps₁, ← apps₂]
  rfl

theorem clears {count : Nat} (timers : hub.collaborators = Simulation.collaborators)
    (silent : ∀ app ∈ hub.apps, app.onEnd = .done ()) (length : hub.apps.length = count) :
    ∃ hub', (∀ rest, Machine.Steps (7 * count + 1) ⟨hub, .clear :: rest⟩ ⟨hub', rest⟩) ∧
      Winds hub hub' := by
  induction count generalizing hub with
  | zero =>
    have hempty : hub.apps.isEmpty = true := by simpa using length
    have cleared : (Frame.clear : Frame Memory).step hub = .go hub [] := by
      simp only [Frame.step, hempty, if_true]
    exact ⟨hub, fun rest => .go cleared, .refl hub⟩
  | succ count ih =>
    have hempty : hub.apps.isEmpty = false := by
      rw [List.isEmpty_eq_false_iff, ne_eq, ← List.length_eq_zero_iff]
      omega
    have begun : (Frame.clear : Frame Memory).step hub = .go hub [.remove count true, .clear] := by
      simp only [Frame.step, hempty, Bool.false_eq_true, if_false, length, Nat.add_sub_cancel]
    obtain ⟨hub₁, hremoves, winds, happs⟩ := removes timers silent length
    have hlength : hub₁.apps.length = count := by
      rw [happs, List.length_eraseIdx_of_lt (by omega)]
      omega
    obtain ⟨hub', hclears, winds'⟩ := ih (winds.collaborators.trans timers)
      (fun app ha => silent app (List.mem_of_mem_eraseIdx (happs ▸ ha))) hlength
    refine ⟨hub', fun rest => ?_, winds.trans winds'⟩
    have hsteps := (Machine.Steps.go begun).trans ((hremoves _).trans (hclears rest))
    rwa [show 1 + (6 + (7 * count + 1)) = 7 * (count + 1) + 1 by omega] at hsteps

/-- With no event left a hub that has stopped removes its apps, and the loop ends. -/
theorem ends (hm : Machine.Reachable ⟨hub, [.vacate handle, .endCycle, .serve, ending]⟩)
    (timers : hub.collaborators = Simulation.collaborators) (crew : Crew hub.apps)
    (stopped : hub.running = false) (empty : hub.waiting = []) :
    ∃ hub', Machine.Steps 30 ⟨hub, [.vacate handle, .endCycle, .serve, ending]⟩ ⟨hub', []⟩ ∧
      hub'.memory.tally = hub.memory.tally ∧ hub'.dropped = hub.dropped := by
  have drained : ∀ {hub : Hub Memory}, hub.Tidy [] → hub.waiting = [] →
      (Frame.drain : Frame Memory).step hub = .go hub [] := by
    intro hub tidy empty
    simp only [Frame.step, tidy.pop_none empty]
  have vacated : (Frame.vacate handle : Frame Memory).step hub = .go (hub.vacate handle) [] := rfl
  have hwaiting := (Queues.vacate hm.tidy).waiting_eq
  have steady := Steady.vacate hub handle
  have timers₁ := steady.collaborators.trans timers
  have hooked : (Frame.endCycle : Frame Memory).step (hub.vacate handle) =
      .go (hub.vacate handle) [.code (.handle .afterCycle) (.done ())] := by
    simp only [Frame.step, timers₁]
    rfl
  have served : (Frame.serve : Frame Memory).step (hub.vacate handle) =
      .go (hub.vacate handle) [.drain, .clear, .drain, .exit] := by
    simp only [Frame.step, steady.running.trans stopped, Bool.false_eq_true, if_false]
  have h₁ : Machine.Steps 4 ⟨hub, [.vacate handle, .endCycle, .serve, ending]⟩
      ⟨hub.vacate handle, [.drain, .clear, .drain, .exit, ending]⟩ :=
    (Machine.Steps.go vacated).trans ((Machine.Steps.go hooked).trans
      ((Machine.Steps.handled ..).trans (.go served)))
  have hm₁ := hm.reaches h₁.reaches
  have empty₁ := hwaiting.trans empty
  have crew₁ := steady.crew crew
  obtain ⟨hub₂, hclears, winds⟩ := clears timers₁ (fun _ => crew₁.onEnd) crew₁.length_eq
  have h₂ : Machine.Steps (1 + 22) ⟨hub.vacate handle, [.drain, .clear, .drain, .exit, ending]⟩
      ⟨hub₂, [.drain, .exit, ending]⟩ :=
    (Machine.Steps.go (drained hm₁.tidy empty₁)).trans (hclears _)
  have drained₂ := drained (hm₁.reaches h₂.reaches).tidy (winds.waiting.trans empty₁)
  have exited : (Frame.exit : Frame Memory).step hub₂ = .go (hub₂.log .exiting) [] := rfl
  exact ⟨hub₂.log .exiting, h₁.trans (h₂.trans ((Machine.Steps.go drained₂).trans
    ((Machine.Steps.go exited).trans (.ended ..)))), winds.tally.trans steady.memory.tally,
    winds.dropped.trans steady.dropped⟩

/-- A loop that is asked to stop, and for a dump at most before that, ends after so many steps. -/
theorem Serves.ends (serves : Serves m hand later n)
    (last : hand.toList ++ later <:+ [.dump, .stop]) (asked : .stop ∈ hand.toList ++ later) :
    ∃ k ≤ n + 20 * later.length + 31, ∃ hub, Machine.Steps k m ⟨hub, []⟩ ∧
      hub.memory.tally = m.hub.memory.tally ∧ hub.dropped = m.hub.dropped := by
  generalize hcost : n + 20 * later.length = cost
  induction cost using Nat.strong_induction_on generalizing m hand later n with
  | _ cost ih =>
    rcases serves.step with ⟨-, rfl, rfl, -⟩ | ⟨m', hand', later', n', hstep, serves', steady, step,
      less⟩ | ⟨rfl, hub, handle, stops, hstep⟩
    · cases asked
    · obtain ⟨k, hk, hub, ends, tally, dropped⟩ := ih (n' + 20 * later'.length) (by omega) serves'
        (step.suffix.trans last) (step.keeps asked) rfl
      exact ⟨k + 1, by omega, hub, .head hstep ends, tally.trans steady.memory.tally,
        dropped.trans steady.dropped⟩
    · -- To stop is the last wish.
      obtain rfl : later = [] := by
        rcases List.suffix_cons_iff.mp last with heq | tail
        · cases heq
        · simpa using tail.length_le
      have hm := serves.reachable.reaches (.single (.step hstep))
      have empty := List.forall₂_nil_left_iff.mp serves.waiting
      obtain ⟨hub', ends, tally, dropped⟩ :=
        Simulation.ends hm (stops.collaborators.trans serves.ready.collaborators)
          (stops.apps ▸ serves.ready.crew) stops.stopped (stops.waiting.trans empty)
      exact ⟨31, by omega, hub', .head hstep ends, tally.trans stops.tally,
        dropped.trans stops.dropped⟩

theorem Idle.serves (idle : Idle frames) (hm : Machine.Reachable ⟨hub, frames⟩) (ready : Ready hub)
    (empty : hub.waiting = []) : ∃ n ≤ 3, Serves ⟨hub, frames⟩ none [] n := by
  obtain ⟨n, hn, duty⟩ := idle.duty hub
  have waiting : List.Forall₂ Wish.Plays [] hub.waiting := by
    rw [empty]
    exact .nil
  exact ⟨n, hn, hm, ready, waiting, duty⟩

/-- Asked for a dump and then to stop, a loop with nothing to do ends after a hundred steps at most,
and its report stays as it is. -/
theorem closer_ends (hm : Machine.Reachable ⟨hub, frames⟩) (idle : Idle frames) (ready : Ready hub)
    (empty : hub.waiting = []) (room : 2 ≤ hub.room) :
    ∃ k ≤ 100, ∃ hub', Machine.Steps k (Machine.interrupt ⟨hub, frames⟩ State.close) ⟨hub', []⟩ ∧
      hub'.memory.tally = hub.memory.tally ∧ hub'.dropped = hub.dropped := by
  obtain ⟨n, hn, serves⟩ := idle.serves hm ready empty
  have free : 0 < (Machine.mk hub frames).hub.room := Nat.lt_of_lt_of_le (by decide) room
  obtain ⟨hub₁, asked₁, -, serves₁, steady₁, left⟩ := serves.ask free .dump
  have free₁ : 0 < (Machine.mk hub₁ frames).hub.room := by
    dsimp only at left ⊢
    omega
  obtain ⟨hub₂, asked₂, -, serves₂, steady₂, -⟩ := serves₁.ask free₁ .stop
  have asked := (asked₁ (fun _ => .request .shutdown fun _ => .done ()) frames).trans
    ((asked₂ (fun _ => .done ()) frames).trans (Machine.Steps.handled ..))
  have steady := steady₁.trans steady₂
  obtain ⟨k, hk, hub', ends, tally, dropped⟩ := serves₂.ends (List.suffix_refl _) (by decide)
  have le : n + 20 * ([] ++ [Wish.dump] ++ [Wish.stop]).length + 31 ≤ 74 := by
    simp only [List.nil_append, List.length_append, List.length_singleton]
    omega
  exact ⟨_, by omega, hub', asked.trans ends, tally.trans steady.memory.tally,
    dropped.trans steady.dropped⟩

end SensorHub.Demo.Simulation
