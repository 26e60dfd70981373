import Mathlib.Algebra.Ring.Nat
import SensorHub.Proofs.Reports

namespace SensorHub.Demo.Simulation

open SensorHub.Hub

/-- A wish that another thread makes while the loop stands still. -/
def State.wish (s : State) (wish : Wish) : Except Failure State :=
  match (Machine.mk s.machine.hub
      [.code (.handle .foreign) (.request wish.work fun _ => .done ())]).advance State.patience with
  | (machine, .finished) => .ok { s with machine := ⟨machine.hub, s.machine.frames⟩ }
  | (_, .failed error) => .error (.fatal error)
  | (_, .waiting) | (_, .unfinished) => .error .restless

/-- How far the code is that ends a simulation. -/
inductive Closer
  | watches
  /-- It has asked for a dump. -/
  | asked
  | through
  deriving Repr, DecidableEq, Inhabited

/-- A simulation with a closer that asks for one thing at a time. -/
structure Session where
  state : State
  closer : Closer

namespace Session

/-- What comes of a turn. The loop and the producers take the same turns as ever; the closer first
asks for the dump, when the simulation is quiet, and in a later turn to stop. -/
def turn? (options : Options) (s : Session) : Turn → Option (Except Failure Session)
  | .closer =>
    match s.closer with
    | .watches =>
      if s.state.isQuiet options then some ((s.state.wish .dump).map (⟨·, .asked⟩)) else none
    | .asked =>
      some ((s.state.wish .stop).map fun state => ⟨{ state with closed := true }, .through⟩)
    | .through => none
  | turn => (s.state.turn? options turn).map (Except.map (⟨·, s.closer⟩))

def Goes (options : Options) (s s' : Session) : Prop :=
  ∃ turn, s.turn? options turn = some (.ok s')

abbrev LeadsTo (options : Options) : Session → Session → Prop :=
  Relation.ReflTransGen (Goes options)

end Session

variable {options : Options} {capacity : Nat} {s s' : Session} {state state' : State} {line : Line}
  {hand : Option Wish} {later : List Wish} {n : Nat}

theorem Serves.wish (serves : Serves state.machine hand later n) (room : 0 < state.machine.hub.room)
    (wish : Wish) :
    ∃ hub, state.wish wish = .ok { state with machine := ⟨hub, state.machine.frames⟩ } ∧
      Serves ⟨hub, state.machine.frames⟩ hand (later ++ [wish]) n ∧
      hub.pool.capacity = state.machine.hub.pool.capacity := by
  obtain ⟨hub, asked, reaches, serves', -⟩ := serves.ask room wish
  have steps : Machine.Steps 4 ⟨state.machine.hub,
      [.code (.handle .foreign) (.request wish.work fun _ => .done ())]⟩ ⟨hub, []⟩ :=
    (asked (fun _ => .done ()) []).trans (Machine.Steps.handled ..)
  have advanced := steps.advance 99996
  refine ⟨hub, ?_, serves', serves.reachable.capacity_eq reaches⟩
  simp only [State.wish, State.patience, advanced]
  rfl

/-- While only a dump is asked for, two slots are taken at most. -/
theorem Serves.room (serves : Serves state.machine hand later n)
    (slots : 3 ≤ state.machine.hub.pool.capacity) (last : hand.toList ++ later <:+ [.dump]) :
    0 < state.machine.hub.room := by
  have hallocated := serves.reachable.allocated_eq
  have handles : (state.machine.cargo.filterMap Cargo.handle?).length ≤ 1 := serves.duty.handles_le
  have waiting := serves.waiting.length_eq
  have wishes := last.length_le
  simp only [List.length_append, List.length_singleton] at wishes
  rw [Hub.room, hallocated]
  omega

/-- How a session stands, and how many turns are left at most. -/
inductive Way (options : Options) (capacity : Nat) : Session → Nat → Prop
  | watches {state : State} {line : Line} {n : Nat} (afoot : Afoot options capacity state line n) :
      Way options capacity ⟨state, .watches⟩
        (n + line.cost + 75 * (options.total - state.posts) + 76)
  | asked {state : State} {hand : Option Wish} {later : List Wish} {n : Nat}
      (serves : Serves state.machine hand later n) (done : state.Done options)
      (slots : state.machine.hub.pool.capacity = capacity) (last : hand.toList ++ later <:+ [.dump]) :
      Way options capacity ⟨state, .asked⟩ (n + 20 * later.length + 52)
  | through {state : State} {hub : Hub Memory} {n : Nat}
      (ends : Machine.Steps n state.machine ⟨hub, []⟩) (done : state.Done options) :
      Way options capacity ⟨state, .through⟩ n

theorem Afoot.turn (afoot : Afoot options capacity state line n) (slots : 3 ≤ capacity) {turn : Turn}
    {result : Except Failure Session}
    (h : Session.turn? options ⟨state, .watches⟩ turn = some result) :
    ∃ s' n', result = .ok s' ∧ n' < n + line.cost + 75 * (options.total - state.posts) + 76 ∧
      Way options capacity s' n' := by
  cases turn with
  | loop =>
    rcases afoot.loop with ⟨hturn, -⟩ | ⟨machine, line', n', hturn, afoot', -, less⟩
    · simp [Session.turn?, hturn] at h
    · simp only [Session.turn?, hturn, Option.map_some, Except.map, Option.some.injEq] at h
      have hposts : State.posts { state with machine := machine } = state.posts := rfl
      exact ⟨_, _, h.symm, by omega, .watches afoot'⟩
  | producer index =>
    cases hturn : state.turn? options (.producer index) with
    | none => simp [Session.turn?, hturn] at h
    | some result' =>
      obtain ⟨seq, hnext, lt, rfl⟩ := producer_turn_iff.mp hturn
      simp only [Session.turn?, hturn, Option.map_some, Except.map, Option.some.injEq] at h
      obtain ⟨queued, hub, line', heq, afoot', cost, -⟩ := afoot.post hnext lt
      have hposts : (state.post options index seq).posts = state.posts + 1 := by
        obtain ⟨-, posts, -⟩ := posts_one afoot.within hnext lt
        rw [heq]
        exact posts
      have hle := afoot'.posts_le
      exact ⟨_, _, h.symm, by omega, .watches afoot'⟩
  | closer =>
    by_cases quiet : state.isQuiet options = true
    · obtain ⟨idle, empty, room, -⟩ := afoot.idle quiet
      obtain ⟨k, hk, serves⟩ := idle.serves afoot.reachable afoot.shows.ready empty
      have free : 0 < state.machine.hub.room := by omega
      obtain ⟨hub, granted, serves', same⟩ := Serves.wish serves free .dump
      simp only [Session.turn?, quiet, if_true, granted, Except.map, Option.some.injEq] at h
      refine ⟨_, _, h.symm, ?_, .asked serves' (isQuiet_iff.mp quiet).1 (same.trans afoot.slots)
        (List.suffix_refl _)⟩
      simp only [List.nil_append, List.length_singleton]
      omega
    · simp [Session.turn?, quiet] at h

theorem Serves.turn (serves : Serves state.machine hand later n) (done : state.Done options)
    (same : state.machine.hub.pool.capacity = capacity) (slots : 3 ≤ capacity)
    (last : hand.toList ++ later <:+ [.dump]) {turn : Turn} {result : Except Failure Session}
    (h : Session.turn? options ⟨state, .asked⟩ turn = some result) :
    ∃ s' n', result = .ok s' ∧ n' < n + 20 * later.length + 52 ∧ Way options capacity s' n' := by
  cases turn with
  | loop =>
    rcases serves.step with ⟨-, -, -, waits⟩ | ⟨machine, hand', later', n', hstep, serves', -, step,
      less⟩ | ⟨rfl, -⟩
    · simp [Session.turn?, State.turn?, waits] at h
    · simp only [Session.turn?, State.turn?, hstep, Option.map_some, Except.map,
        Option.some.injEq] at h
      have same' := (serves.reachable.capacity_eq (.single (.step hstep))).trans same
      exact ⟨_, _, h.symm, by omega, .asked serves' done same' (step.suffix.trans last)⟩
    · -- It has not been asked to stop.
      have hstop := last.subset (List.mem_append_left later (List.mem_singleton_self Wish.stop))
      simp at hstop
  | producer index => simp [Session.turn?, done.no_turn] at h
  | closer =>
    obtain ⟨hub, granted, serves', -⟩ := Serves.wish serves (serves.room (same ▸ slots) last) .stop
    simp only [Session.turn?, granted, Except.map, Option.some.injEq] at h
    have last' : hand.toList ++ (later ++ [.stop]) <:+ [.dump, .stop] := by
      rw [← List.append_assoc]
      obtain ⟨before, heq⟩ := last
      exact ⟨before, by rw [← List.append_assoc, heq]; rfl⟩
    obtain ⟨k, hk, hub', ends, -⟩ := serves'.ends last' (by simp)
    rw [List.length_append, List.length_singleton] at hk
    exact ⟨_, k, h.symm, by omega, .through ends done⟩

/-- No turn fails, and every turn leaves fewer to come. -/
theorem Way.turn (way : Way options capacity s n) (slots : 3 ≤ capacity) {turn : Turn}
    {result : Except Failure Session} (h : s.turn? options turn = some result) :
    ∃ s' n', result = .ok s' ∧ n' < n ∧ Way options capacity s' n' := by
  cases way with
  | watches afoot => exact afoot.turn slots h
  | asked serves done same last => exact serves.turn done same slots last h
  | @through state hub n ends done =>
    cases turn with
    | loop =>
      rcases loop_turn_of_ends options ends with ⟨-, -, hturn⟩ | ⟨machine, k, rfl, hturn, rest⟩
      · simp [Session.turn?, hturn] at h
      · simp only [Session.turn?, hturn, Option.map_some, Except.map, Option.some.injEq] at h
        have done' : State.Done options { state with machine := machine } := done
        exact ⟨_, k, h.symm, Nat.lt_succ_self k, .through rest done'⟩
    | producer index => simp [Session.turn?, done.no_turn] at h
    | closer => simp [Session.turn?] at h

theorem Way.next (way : Way options capacity s n) (slots : 3 ≤ capacity) (goes : s.Goes options s') :
    ∃ n' < n, Way options capacity s' n' := by
  obtain ⟨turn, hturn⟩ := goes
  obtain ⟨next, n', hnext, less, way'⟩ := way.turn slots hturn
  cases hnext
  exact ⟨n', less, way'⟩

theorem Way.goes (way : Way options capacity s n) (slots : 3 ≤ capacity) :
    s.state.isOver = true ∨ ∃ s', s.Goes options s' := by
  have goes : ∀ turn, (s.turn? options turn).isSome = true → ∃ s', s.Goes options s' := by
    intro turn hsome
    obtain ⟨result, h⟩ := Option.isSome_iff_exists.mp hsome
    obtain ⟨s', n', rfl, -⟩ := way.turn slots h
    exact ⟨s', turn, h⟩
  cases way with
  | @watches state line n afoot =>
    rcases afoot.loop with ⟨-, waits, empty⟩ | ⟨machine, line', n', hturn, -⟩
    · by_cases done : state.Done options
      · have quiet := afoot.quiet waits empty done
        exact .inr (goes .closer (by simp [Session.turn?, quiet]))
      · obtain ⟨index, state', hturn⟩ := afoot.producer_left done
        exact .inr (goes (.producer index) (by simp [Session.turn?, hturn]))
    · exact .inr (goes .loop (by simp [Session.turn?, hturn]))
  | asked => exact .inr (goes .closer (by simp [Session.turn?]))
  | @through state hub n ends done =>
    rcases loop_turn_of_ends options ends with ⟨-, isOver, -⟩ | ⟨machine, k, -, hturn, -⟩
    · exact .inl isOver
    · exact .inr (goes .loop (by simp [Session.turn?, hturn]))

theorem Way.through_of_over (way : Way options capacity s n) (isOver : s.state.isOver = true) :
    s.closer = .through := by
  have ended : s.state.machine.frames = [] := List.isEmpty_iff.mp isOver
  cases way with
  | watches afoot => exact absurd ended afoot.stage.frames_ne
  | asked serves => exact absurd ended serves.duty.frames_ne
  | through => rfl

/-- A simulation comes to its report if there are three slots, and only then. With fewer, the start of
the second or third app is fatal. With three, no critical post of the apps' start, for the dump or
for the stop fails, in whatever order the loop, the producers and the closer take their turns:
someone can take a turn as long as the simulation is not over, and it does not go on for ever. -/
theorem report_reached {config : Config} {options : Options} (valid : config.Valid)
    (api : config.firstSupportedApi ≤ currentApiVersion)
    (reserved : config.wakeupBuckets.toNat < 2 ^ 62) (threads : options.producers * 24 < 2 ^ 63)
    (_few : options.total < 2 ^ 32) :
    ((∃ report, run config options = .ok report) ↔ 3 ≤ config.eventCapacity) ∧
    (config.eventCapacity < 3 →
      run config options = .error (.fatal (starvation config EventType.nanoappStarted))) ∧
    (3 ≤ config.eventCapacity → ∃ start, State.initial config options = .ok start ∧
      (∀ play : Nat → Session, play 0 = ⟨start, .watches⟩ →
        ∃ i, ¬(play i).Goes options (play (i + 1))) ∧
      ∀ s, Session.LeadsTo options ⟨start, .watches⟩ s →
        (∀ turn failure, s.turn? options turn ≠ some (.error failure)) ∧
        (s.state.isOver = true ∨ ∃ s', s.Goes options s') ∧
        (s.state.isOver = true → s.closer = .through)) := by
  have scarce : config.eventCapacity < 3 →
      run config options = .error (.fatal (starvation config EventType.nanoappStarted)) := by
    intro scarce
    rw [run, initial_fails options valid scarce api reserved]
    rfl
  refine ⟨⟨?_, ?_⟩, scarce, ?_⟩
  · rintro ⟨report, hrun⟩
    by_contra few
    rw [scarce (by omega)] at hrun
    cases hrun
  · intro slots
    obtain ⟨-, s, -, -, -, hrun⟩ := run_ok valid slots api reserved threads
    exact ⟨s.report, hrun⟩
  · intro slots
    obtain ⟨start, hinitial, running, -⟩ :=
      running_initial valid slots api reserved threads
    have way := Way.watches running.toAfoot
    refine ⟨start, hinitial, ?_, ?_⟩
    · rintro play first
      rw [← first] at way
      exact stops_of_lowers (fun way goes => way.next slots goes) way
    · intro s leads
      obtain ⟨n, reached⟩ := leads_of_lowers (fun way goes => way.next slots goes) way leads
      refine ⟨?_, reached.goes slots, reached.through_of_over⟩
      intro turn failure failed
      obtain ⟨s', n', hs', -⟩ := reached.turn slots failed
      cases hs'

/-- Three slots are enough for a thousand producers. -/
theorem report_reached_three_slots :
    let config := { Config.default with eventBlocks := 1, eventsPerBlock := 3 }
    config.Valid ∧ config.firstSupportedApi ≤ currentApiVersion ∧
      ∃ report, run config ⟨1000, 1000000, 10⟩ = .ok report := by
  intro config
  have valid : config.Valid := rfl
  have api : config.firstSupportedApi ≤ currentApiVersion := by decide
  have slots : 3 ≤ config.eventCapacity := by decide
  have reached := @report_reached config ⟨1000, 1000000, 10⟩ valid api (by decide) (by decide)
    (by decide)
  exact ⟨valid, api, reached.1.mpr slots⟩

/-- With two slots the start of the third app is fatal, even if nothing is to be posted. -/
theorem report_missed_two_slots :
    let config := { Config.default with eventBlocks := 1, eventsPerBlock := 2 }
    config.Valid ∧ config.firstSupportedApi ≤ currentApiVersion ∧
      run config ⟨0, 0, 0⟩ = .error (.fatal (.noSpace EventType.nanoappStarted)) := by
  refine ⟨rfl, by decide, ?_⟩
  decide +kernel

end SensorHub.Demo.Simulation
