import Mathlib.Algebra.Order.BigOperators.Group.List
import SensorHub.Proofs.Balance

namespace SensorHub.Demo.Simulation

open SensorHub.Hub

section

variable {S : Type} {goes : S → S → Prop} {course : S → Nat → Prop}
  (lowers : ∀ {s s' n}, course s n → goes s s' → ∃ n' < n, course s' n')

include lowers

theorem leads_of_lowers {s s' : S} {n : Nat} (h : course s n)
    (leads : Relation.ReflTransGen goes s s') : ∃ n', course s' n' := by
  induction leads with
  | refl => exact ⟨n, h⟩
  | tail _ hgoes ih =>
    obtain ⟨k, later⟩ := ih
    obtain ⟨n', -, h'⟩ := lowers later hgoes
    exact ⟨n', h'⟩

/-- Turns of which each leaves fewer to come do not go on for ever. -/
theorem stops_of_lowers {play : Nat → S} {n : Nat} (h : course (play 0) n) :
    ∃ i, ¬goes (play i) (play (i + 1)) := by
  induction n using Nat.strong_induction_on generalizing play with
  | _ n ih =>
    by_cases hgoes : goes (play 0) (play 1)
    · obtain ⟨n', less, h'⟩ := lowers h hgoes
      obtain ⟨i, stops⟩ := @ih n' less (fun i => play (i + 1)) h'
      exact ⟨i + 1, stops⟩
    · exact ⟨0, hgoes⟩

end

namespace State

def Goes (options : Options) (s s' : State) : Prop :=
  ∃ turn, s.turn? options turn = some (.ok s')

abbrev LeadsTo (options : Options) : State → State → Prop :=
  Relation.ReflTransGen (Goes options)

def posts (s : State) : Nat :=
  (s.next.map UInt32.toNat).sum

def pings (options : Options) (s : State) : Nat :=
  (s.next.map fun seq => options.pingsAmong seq.toNat).sum

end State

/-- The report accounts for every event that the producers have posted. -/
structure Report.Accounts (options : Options) (capacity : Nat) (report : Report) : Prop where
  posts : report.posted + report.rejected = options.total
  events : report.readings.toNat + report.pongs.toNat + report.dropped.toNat = options.total
  /-- With a slot for each event and one to spare nothing is dropped. -/
  ample : options.total + 4 ≤ capacity → report.rejected = 0 ∧ report.dropped = 0 ∧
    report.pongs.toNat = options.producers * options.pingsAmong options.eventsPerProducer.toNat ∧
    report.readings.toNat = options.total - report.pongs.toNat

/-- The loop runs, so many steps at most from its next wait, and no producer has posted more than it
should. -/
structure Afoot (options : Options) (capacity : Nat) (s : State) (line : Line) (n : Nat) : Prop where
  reachable : s.machine.Reachable
  shows : Shows s.machine.hub line
  stage : Stage s.machine.hub s.machine.frames line.hand n
  slots : s.machine.hub.pool.capacity = capacity
  producers : s.next.length = options.producers
  within : ∀ seq ∈ s.next, seq ≤ options.eventsPerProducer

/-- The loop runs, so many steps at most from its next wait, and the books are kept. -/
structure Running (options : Options) (capacity : Nat) (s : State) (line : Line) (n : Nat) : Prop
    extends Afoot options capacity s line n where
  unclosed : s.closed = false
  balanced : line.Balanced capacity options.total s.posts (s.pings options)
  attempts : s.posted + s.rejected = s.posts
  accepted : options.total + 4 ≤ capacity → s.rejected = 0

variable {options : Options} {capacity : Nat} {s s' : State} {line : Line} {n : Nat}

theorem sum_le_total {next : List UInt32} (producers : next.length = options.producers)
    (within : ∀ seq ∈ next, seq ≤ options.eventsPerProducer) :
    (next.map UInt32.toNat).sum ≤ options.total := by
  have hle : ∀ x ∈ next.map UInt32.toNat, x ≤ options.eventsPerProducer.toNat := by
    simpa using fun seq hs => UInt32.le_iff_toNat_le.mp (within seq hs)
  have hsum := List.sum_le_card_nsmul _ _ hle
  rw [List.length_map, producers, smul_eq_mul] at hsum
  exact hsum

/-- What a producer has done goes up with its next event. -/
theorem sum_set (count : UInt32 → Nat) {next : List UInt32} {index : Nat} {seq : UInt32}
    (h : next[index]? = some seq) (seq' : UInt32) :
    ((next.set index seq').map count).sum + count seq = (next.map count).sum + count seq' := by
  induction next generalizing index with
  | nil => cases h
  | cons head next ih =>
    cases index with
    | zero =>
      cases h
      simp only [List.set_cons_zero, List.map_cons, List.sum_cons]
      omega
    | succ index =>
      have hrest := @ih index h
      simp only [List.set_cons_succ, List.map_cons, List.sum_cons]
      omega

theorem Afoot.posts_le (afoot : Afoot options capacity s line n) : s.posts ≤ options.total :=
  sum_le_total afoot.producers afoot.within

/-- A turn of the loop: it waits, or it gets closer to its next wait. -/
theorem Afoot.loop (afoot : Afoot options capacity s line n) :
    (s.turn? options .loop = none ∧ s.machine.frames = [.await, ending] ∧ line.waiting = []) ∨
      ∃ machine line' n', s.turn? options .loop = some (.ok { s with machine := machine }) ∧
        Afoot options capacity { s with machine := machine } line' n' ∧ line.Step capacity line' ∧
        n' + line'.cost < n + line.cost := by
  obtain ⟨⟨hub, frames⟩, next, closed, posted, rejected⟩ := s
  rcases afoot.stage.step afoot.reachable afoot.shows with
    ⟨hframes, empty, waits⟩ | ⟨hub', frames', line', n', hstep, shows, stage, step, less⟩
  · refine .inl ⟨?_, hframes, empty⟩
    simp only [State.turn?, waits]
  · have reaches : Machine.Reaches ⟨hub, frames⟩ ⟨hub', frames'⟩ := .single (.step hstep)
    have slots := (afoot.reachable.capacity_eq reaches).trans afoot.slots
    refine .inr ⟨⟨hub', frames'⟩, line', n', ?_, ⟨afoot.reachable.reaches reaches, shows, stage, slots,
      afoot.producers, afoot.within⟩, afoot.slots ▸ step, less⟩
    simp only [State.turn?, hstep]

theorem Running.loop (running : Running options capacity s line n) (few : options.total < 2 ^ 32) :
    (s.turn? options .loop = none ∧ s.machine.frames = [.await, ending] ∧ line.waiting = []) ∨
      ∃ s' line' n', s.turn? options .loop = some (.ok s') ∧ s'.next = s.next ∧
        Running options capacity s' line' n' ∧ n' + line'.cost < n + line.cost := by
  rcases running.toAfoot.loop with waits | ⟨machine, line', n', hturn, afoot, step, less⟩
  · exact .inl waits
  · have balanced := step.balanced running.balanced running.posts_le few
    exact .inr ⟨_, line', n', hturn, rfl,
      ⟨afoot, running.unclosed, balanced, running.attempts, running.accepted⟩, less⟩

theorem Role.cost_le (role : Role) : role.cost ≤ 74 := by
  cases role <;> decide

theorem posts_reaches {hub hub' : Hub Memory} {frames : List (Frame Memory)} {event : Event}
    {queued : Bool}
    (hpost : (hub.offer .low { event with lowPriority := true } .nothing).2.postDroppable
      (hub.offer .low { event with lowPriority := true } .nothing).1 = (queued, hub', [])) :
    Machine.Reaches ⟨hub, frames⟩ ⟨hub', frames⟩ := by
  have posted : (Frame.code (.handle .foreign) (.postLow event none fun _ => .done ())).step hub =
      .go hub' [.code (.handle .foreign) (.done ())] := by
    simp only [Frame.step, Routine.step, Completion.ofCallback]
    simp only [hpost, List.nil_append]
  exact .head (.interrupt _) ((Machine.Steps.go posted).trans (.handled ..)).reaches

theorem posts_one {next : List UInt32} {index : Nat} {seq : UInt32}
    (within : ∀ seq ∈ next, seq ≤ options.eventsPerProducer) (h : next[index]? = some seq)
    (lt : seq < options.eventsPerProducer) :
    (∀ later ∈ next.set index (seq + 1), later ≤ options.eventsPerProducer) ∧
      ((next.set index (seq + 1)).map UInt32.toNat).sum = (next.map UInt32.toNat).sum + 1 ∧
      ((next.set index (seq + 1)).map fun seq => options.pingsAmong seq.toNat).sum =
        (next.map fun seq => options.pingsAmong seq.toNat).sum +
          if (options.role seq).isPing then 1 else 0 := by
  have hlt := UInt32.lt_iff_toNat_lt.mp lt
  have hseq : (seq + 1).toNat = seq.toNat + 1 := by
    have hmax := options.eventsPerProducer.toNat_lt
    rw [UInt32.toNat_add]
    exact Nat.mod_eq_of_lt (by simp; omega)
  refine ⟨fun later hlater => ?_, ?_, ?_⟩
  · rcases List.mem_or_eq_of_mem_set hlater with hmem | rfl
    · exact within later hmem
    · rw [UInt32.le_iff_toNat_le, hseq]
      exact hlt
  · have hsum := sum_set UInt32.toNat h (seq + 1)
    omega
  · have hsum := sum_set (fun seq => options.pingsAmong seq.toNat) h (seq + 1)
    have hpings := @Options.pingsAmong_succ options seq
    simp only [hseq] at hsum
    omega

/-- A turn of a producer: its event waits behind the others, or every slot is taken. -/
theorem Afoot.post (afoot : Afoot options capacity s line n) {index : Nat} {seq : UInt32}
    (h : s.next[index]? = some seq) (lt : seq < options.eventsPerProducer) :
    ∃ (queued : Bool) (hub : Hub Memory) (line' : Line), s.post options index seq =
        ⟨⟨hub, s.machine.frames⟩, s.next.set index (seq + 1), s.closed,
          if queued then s.posted + 1 else s.posted,
          if queued then s.rejected else s.rejected + 1⟩ ∧
      Afoot options capacity (s.post options index seq) line' n ∧ line'.cost ≤ line.cost + 74 ∧
      if queued then line' = { line with waiting := line.waiting ++ [options.role seq] }
      else line' = { line with dropped := line.dropped + 1 } ∧
        line.waiting.length + (s.machine.cargo.filterMap Cargo.handle?).length = capacity := by
  have ready := afoot.shows.ready
  obtain ⟨within, -⟩ := posts_one afoot.within h lt
  have producers : (s.next.set index (seq + 1)).length = options.producers :=
    List.length_set.trans afoot.producers
  have fits : (options.role seq).Fits { event options s.machine.hub.memory.replyTo
      s.machine.hub.memory.echo seq with lowPriority := true } := by
    rw [ready.replyTo, ready.echo]
    exact Role.fits_sent _ Options.fits_event
  obtain ⟨queued, hub, hpost, hmemory, same, shows⟩ := afoot.shows.post afoot.reachable.tidy fits
  have reaches : s.machine.Reaches ⟨hub, s.machine.frames⟩ := posts_reaches hpost
  have reachable := afoot.reachable.reaches reaches
  have slots := (afoot.reachable.capacity_eq reaches).trans afoot.slots
  have stage := afoot.stage.posted hmemory same
  have heq : s.post options index seq =
      ⟨⟨hub, s.machine.frames⟩, s.next.set index (seq + 1), s.closed,
        if queued then s.posted + 1 else s.posted,
        if queued then s.rejected else s.rejected + 1⟩ := by
    simp only [State.post, hpost, List.nil_append]
  cases queued with
  | true =>
    have hcost := (options.role seq).cost_le
    refine ⟨true, hub, _, heq, ?_, ?_, rfl⟩
    · rw [heq]
      exact ⟨reachable, shows, stage, slots, producers, within⟩
    · simp only [Line.cost, List.map_append, List.map_singleton, List.sum_append, List.sum_singleton]
      omega
  | false =>
    obtain ⟨full, shows⟩ := shows
    refine ⟨false, hub, { line with dropped := line.dropped + 1 }, heq, ?_, Nat.le_add_right _ 74, rfl,
      full.trans afoot.slots⟩
    rw [heq]
    exact ⟨reachable, shows, stage, slots, producers, within⟩

theorem Running.post (running : Running options capacity s line n) (few : options.total < 2 ^ 32)
    {index : Nat} {seq : UInt32} (h : s.next[index]? = some seq)
    (lt : seq < options.eventsPerProducer) :
    (s.post options index seq).next = s.next.set index (seq + 1) ∧
      (s.post options index seq).posts = s.posts + 1 ∧
      ∃ line', Running options capacity (s.post options index seq) line' n ∧
        line'.cost ≤ line.cost + 74 := by
  obtain ⟨-, posts, pings⟩ := posts_one running.within h lt
  obtain ⟨queued, hub, line', heq, afoot, cost, becomes⟩ := running.toAfoot.post h lt
  have posts_le := afoot.posts_le
  have attempts := running.attempts
  have unclosed := running.unclosed
  rw [heq] at afoot posts_le ⊢
  rw [State.posts] at attempts posts_le
  rw [posts] at posts_le
  refine ⟨rfl, posts, line', ?_, cost⟩
  cases queued with
  | true =>
    obtain rfl : line' = { line with waiting := line.waiting ++ [options.role seq] } := becomes
    refine ⟨afoot, unclosed, ?_, ?_, running.accepted⟩
    · rw [State.posts, State.pings, posts, pings]
      exact running.balanced.queue (@Options.isPosted_role options seq)
    · rw [State.posts, posts]
      simp only [if_true]
      omega
  | false =>
    obtain ⟨rfl, full⟩ : line' = { line with dropped := line.dropped + 1 } ∧ _ := becomes
    have scarce := running.balanced.scarce full running.stage.handles_le posts_le
    refine ⟨afoot, unclosed, ?_, ?_, fun ample => absurd ample (by omega)⟩
    · rw [State.posts, posts]
      exact running.balanced.drop scarce posts_le few _
    · rw [State.posts, posts]
      simp only [Bool.false_eq_true, if_false]
      omega

/-- The producers have posted all their events. -/
def State.Done (options : Options) (s : State) : Prop :=
  ∀ seq ∈ s.next, seq = options.eventsPerProducer

theorem isQuiet_iff :
    s.isQuiet options = true ↔ s.Done options ∧ s.machine.hub.pool.allocated = 0 := by
  simp [State.isQuiet, State.Done]

theorem Running.done (running : Running options capacity s line n) (done : s.Done options) :
    s.posts = options.total ∧ s.pings options =
      options.producers * options.pingsAmong options.eventsPerProducer.toNat := by
  have hnext : s.next = List.replicate options.producers options.eventsPerProducer :=
    List.eq_replicate_iff.mpr ⟨running.producers, done⟩
  constructor
  · rw [State.posts, hnext, List.map_replicate, List.sum_replicate, smul_eq_mul, Options.total]
  · rw [State.pings, hnext, List.map_replicate, List.sum_replicate, smul_eq_mul]

/-- The loop has been asked to stop, ends after so many steps of its own, and accounts for every
event then. -/
structure Closing (options : Options) (capacity : Nat) (s : State) (n : Nat) : Prop where
  ends : ∃ hub, Machine.Steps n s.machine ⟨hub, []⟩ ∧
    ({ s with machine := ⟨hub, []⟩ } : State).report.Accounts options capacity
  closed : s.closed = true
  done : s.Done options

/-- While the simulation is quiet, no slot is taken, so no answer is on its way any more. -/
theorem Afoot.idle (afoot : Afoot options capacity s line n) (quiet : s.isQuiet options = true) :
    Idle s.machine.frames ∧ s.machine.hub.waiting = [] ∧ s.machine.hub.room = capacity ∧
      line.underWay = [] := by
  obtain ⟨-, hfree⟩ := isQuiet_iff.mp quiet
  have hallocated := afoot.reachable.allocated_eq
  rw [hfree] at hallocated
  have hzero : (0 : UInt64).toNat = 0 := rfl
  have free : s.machine.cargo.filterMap Cargo.handle? = [] :=
    List.eq_nil_of_length_eq_zero (by omega)
  have empty : s.machine.hub.waiting = [] := List.eq_nil_of_length_eq_zero (by omega)
  obtain ⟨idle, hand⟩ := afoot.stage.idle free
  have waiting : line.waiting = [] := by
    have h := afoot.shows.waiting
    rw [empty] at h
    exact List.forall₂_nil_right_iff.mp h
  refine ⟨idle, empty, ?_, ?_⟩
  · rw [room, hfree, afoot.slots]
    rfl
  · rw [Line.underWay, hand, waiting]
    rfl

/-- After the closer's turn the loop ends, and the report stays as it is. -/
theorem Afoot.close (afoot : Afoot options capacity s line n) (slots : 3 ≤ capacity)
    (quiet : s.isQuiet options = true) :
    ∃ k ≤ 100, ∃ hub, Machine.Steps k (s.machine.interrupt State.close) ⟨hub, []⟩ ∧
      hub.memory.tally = line.tally ∧ hub.dropped = line.dropped := by
  obtain ⟨idle, empty, room, -⟩ := afoot.idle quiet
  have free : 2 ≤ s.machine.hub.room := by omega
  obtain ⟨k, hk, hub, steps, tally, dropped⟩ :=
    closer_ends afoot.reachable idle afoot.shows.ready empty free
  exact ⟨k, hk, hub, steps, tally.trans afoot.shows.tally, dropped.trans afoot.shows.dropped⟩

theorem Running.close (running : Running options capacity s line n) (slots : 3 ≤ capacity)
    (quiet : s.isQuiet options = true) :
    ∃ k ≤ 100, Closing options capacity
      { s with machine := s.machine.interrupt State.close, closed := true } k := by
  obtain ⟨-, -, -, under⟩ := running.toAfoot.idle quiet
  have done := (isQuiet_iff.mp quiet).1
  obtain ⟨k, hk, hub, steps, tally, dropped⟩ := running.toAfoot.close slots quiet
  refine ⟨k, hk, ⟨hub, steps, ?_⟩, rfl, done⟩
  -- Every event has been posted, and none of them is under way.
  obtain ⟨posts, pings⟩ := running.done done
  obtain ⟨all, ample⟩ := running.balanced.settled under
  rw [posts, ← tally, ← dropped] at all
  rw [pings, ← tally, ← dropped] at ample
  refine ⟨running.attempts.trans posts, all, fun enough => ?_⟩
  obtain ⟨none, pongs⟩ := ample enough
  have hdropped : hub.dropped.toNat = 0 := congrArg UInt32.toNat none
  rw [hdropped, Nat.add_zero] at all
  exact ⟨running.accepted enough, none, pongs, Nat.eq_sub_of_add_eq all⟩

theorem loop_turn_of_ends (options : Options) {hub : Hub Memory}
    (ends : Machine.Steps n s.machine ⟨hub, []⟩) :
    (n = 0 ∧ s.isOver = true ∧ s.turn? options .loop = none) ∨
      ∃ machine k, n = k + 1 ∧ s.turn? options .loop = some (.ok { s with machine := machine }) ∧
        Machine.Steps k machine ⟨hub, []⟩ := by
  obtain ⟨machine, next, closed, posted, rejected⟩ := s
  cases ends with
  | refl => exact .inl ⟨rfl, rfl, rfl⟩
  | @head k _ machine' _ hstep rest =>
    refine .inr ⟨machine', k, rfl, ?_, rest⟩
    simp only [State.turn?, hstep]

/-- A turn of the loop after it has been asked to stop. -/
theorem Closing.loop (closing : Closing options capacity s n) :
    (n = 0 ∧ s.isOver = true ∧ s.turn? options .loop = none ∧
        s.report.Accounts options capacity) ∨
      ∃ s' k, n = k + 1 ∧ s.turn? options .loop = some (.ok s') ∧
        Closing options capacity s' k := by
  obtain ⟨⟨hub, ends, accounts⟩, closed, done⟩ := closing
  rcases loop_turn_of_ends options ends with ⟨rfl, isOver, hturn⟩ | ⟨machine, k, rfl, hturn, rest⟩
  · obtain ⟨machine, next, asked, posted, rejected⟩ := s
    cases ends
    exact .inl ⟨rfl, isOver, hturn, accounts⟩
  · exact .inr ⟨_, k, rfl, hturn, ⟨hub, rest, accounts⟩, closed, done⟩

/-- How a simulation stands, and how many turns are left at most. -/
inductive Course (options : Options) (capacity : Nat) : State → Nat → Prop
  | running {s : State} {line : Line} {n : Nat} (running : Running options capacity s line n) :
      Course options capacity s (n + line.cost + 75 * (options.total - s.posts) + 101)
  | closing {s : State} {n : Nat} (closing : Closing options capacity s n) :
      Course options capacity s n

theorem Stage.frames_ne {hub : Hub Memory} {frames : List (Frame Memory)} {hand : Option Role}
    (stage : Stage hub frames hand n) : frames ≠ [] := by
  cases stage <;> exact List.cons_ne_nil _ _

/-- A producer can take a turn as long as it has something to post. -/
theorem producer_turn_iff {index : Nat} {result : Except Failure State} :
    s.turn? options (.producer index) = some result ↔
      ∃ seq, s.next[index]? = some seq ∧ seq < options.eventsPerProducer ∧
        result = .ok (s.post options index seq) := by
  cases hnext : s.next[index]? with
  | none => simp [State.turn?, hnext]
  | some seq =>
    by_cases lt : seq < options.eventsPerProducer <;>
      simp [State.turn?, hnext, lt, eq_comm]

/-- The producers have no turn any more when they have posted all their events. -/
theorem State.Done.no_turn (done : s.Done options) {index : Nat} :
    s.turn? options (.producer index) = none := by
  rw [Option.eq_none_iff_forall_ne_some]
  intro result hturn
  obtain ⟨seq, hnext, lt, -⟩ := producer_turn_iff.mp hturn
  rw [done seq (List.mem_of_getElem? hnext)] at lt
  exact UInt32.lt_irrefl _ lt

/-- The closer can take a turn once, when the simulation is quiet. -/
theorem closer_turn_iff {result : Except Failure State} :
    s.turn? options .closer = some result ↔
      s.isQuiet options = true ∧ s.closed = false ∧
        result = .ok { s with machine := s.machine.interrupt State.close, closed := true } := by
  cases quiet : s.isQuiet options <;> cases closed : s.closed <;>
    simp [State.turn?, quiet, closed, eq_comm]

/-- No turn fails, and every turn leaves fewer to come. -/
theorem Course.turn (course : Course options capacity s n) (few : options.total < 2 ^ 32)
    (slots : 3 ≤ capacity) {turn : Turn} {result : Except Failure State}
    (h : s.turn? options turn = some result) :
    ∃ s' n', result = .ok s' ∧ n' < n ∧ Course options capacity s' n' := by
  cases course with
  | @running line n running =>
    cases turn with
    | loop =>
      rcases running.loop few with ⟨waits, -⟩ | ⟨s', line', n', hturn, same, running', less⟩
      · rw [waits] at h
        cases h
      · rw [hturn] at h
        cases h
        have hposts : s'.posts = s.posts := by rw [State.posts, State.posts, same]
        exact ⟨s', _, rfl, by omega, .running running'⟩
    | producer index =>
      obtain ⟨seq, hnext, lt, rfl⟩ := producer_turn_iff.mp h
      obtain ⟨-, hposts, line', running', less⟩ := running.post few hnext lt
      have hle := running.posts_le
      have hle' := running'.posts_le
      exact ⟨_, _, rfl, by omega, .running running'⟩
    | closer =>
      obtain ⟨quiet, -, rfl⟩ := closer_turn_iff.mp h
      obtain ⟨k, hk, closing⟩ := running.close slots quiet
      exact ⟨_, k, rfl, by omega, .closing closing⟩
  | closing closing =>
    cases turn with
    | loop =>
      rcases closing.loop with ⟨-, -, hturn, -⟩ | ⟨s', k, rfl, hturn, closing'⟩
      · rw [hturn] at h
        cases h
      · rw [hturn] at h
        cases h
        exact ⟨s', k, rfl, Nat.lt_succ_self k, .closing closing'⟩
    | producer index =>
      rw [closing.done.no_turn] at h
      cases h
    | closer =>
      obtain ⟨-, unclosed, -⟩ := closer_turn_iff.mp h
      rw [closing.closed] at unclosed
      cases unclosed

theorem Course.next (course : Course options capacity s n) (few : options.total < 2 ^ 32)
    (slots : 3 ≤ capacity) (goes : s.Goes options s') :
    ∃ n' < n, Course options capacity s' n' := by
  obtain ⟨turn, hturn⟩ := goes
  obtain ⟨next, n', hnext, less, course'⟩ := course.turn few slots hturn
  cases hnext
  exact ⟨n', less, course'⟩

theorem Course.leads (course : Course options capacity s n) (few : options.total < 2 ^ 32)
    (slots : 3 ≤ capacity) (leads : s.LeadsTo options s') : ∃ n', Course options capacity s' n' :=
  leads_of_lowers (fun course goes => course.next few slots goes) course leads

theorem Course.stops {play : Nat → State} (course : Course options capacity (play 0) n)
    (few : options.total < 2 ^ 32) (slots : 3 ≤ capacity) :
    ∃ i, ¬(play i).Goes options (play (i + 1)) :=
  stops_of_lowers (fun course goes => course.next few slots goes) course

/-- When all is posted and the loop waits, the closer finds the simulation quiet. -/
theorem Afoot.quiet (afoot : Afoot options capacity s line n)
    (waits : s.machine.frames = [.await, ending]) (empty : line.waiting = [])
    (done : s.Done options) : s.isQuiet options = true := by
  have hallocated := afoot.reachable.allocated_eq
  have hcargo : s.machine.cargo = [] := by
    rw [Machine.cargo, waits]
    rfl
  have hwaiting : s.machine.hub.waiting = [] := by
    have h := afoot.shows.waiting
    rw [empty] at h
    exact List.forall₂_nil_left_iff.mp h
  rw [hcargo, hwaiting] at hallocated
  have hfree : s.machine.hub.pool.allocated = 0 := UInt64.toNat_inj.mp hallocated
  exact isQuiet_iff.mpr ⟨done, hfree⟩

/-- As long as not all events are posted, a producer can take a turn. -/
theorem Afoot.producer_left (afoot : Afoot options capacity s line n) (undone : ¬s.Done options) :
    ∃ index s', s.turn? options (.producer index) = some (.ok s') := by
  simp only [State.Done, not_forall] at undone
  obtain ⟨seq, hmem, hne⟩ := undone
  obtain ⟨index, hindex⟩ := List.mem_iff_getElem?.mp hmem
  have lt : seq < options.eventsPerProducer := UInt32.lt_of_le_of_ne (afoot.within seq hmem) hne
  exact ⟨index, _, producer_turn_iff.mpr ⟨seq, hindex, lt, rfl⟩⟩

/-- Until the simulation is over, someone can take a turn. -/
theorem Course.goes (course : Course options capacity s n) (few : options.total < 2 ^ 32) :
    s.isOver = true ∨ ∃ s', s.Goes options s' := by
  cases course with
  | @running line n running =>
    rcases running.loop few with ⟨-, waits, empty⟩ | ⟨s', line', n', hturn, -⟩
    · by_cases done : s.Done options
      · have quiet := running.toAfoot.quiet waits empty done
        exact .inr ⟨_, .closer, closer_turn_iff.mpr ⟨quiet, running.unclosed, rfl⟩⟩
      · obtain ⟨index, s', hturn⟩ := running.toAfoot.producer_left done
        exact .inr ⟨s', .producer index, hturn⟩
    · exact .inr ⟨s', .loop, hturn⟩
  | closing closing =>
    rcases closing.loop with ⟨-, isOver, -⟩ | ⟨s', k, -, hturn, -⟩
    · exact .inl isOver
    · exact .inr ⟨s', .loop, hturn⟩

/-- When the simulation is over, every event is accounted for. -/
theorem Course.accounts (course : Course options capacity s n) (isOver : s.isOver = true) :
    s.report.Accounts options capacity := by
  have ended : s.machine.frames = [] := List.isEmpty_iff.mp isOver
  cases course with
  | running running => exact absurd ended running.stage.frames_ne
  | closing closing =>
    rcases closing.loop with ⟨-, -, -, accounts⟩ | ⟨s', k, -, hturn, -⟩
    · exact accounts
    · have hstep : s.machine.step = .finished := by simp only [Machine.step, ended]
      simp only [State.turn?, hstep] at hturn
      cases hturn

end SensorHub.Demo.Simulation
