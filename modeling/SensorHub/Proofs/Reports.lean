import Mathlib.Algebra.Ring.Nat
import SensorHub.Proofs.Scarcity
import SensorHub.Proofs.Turns

namespace SensorHub.Demo.Simulation

open SensorHub.Hub

variable {options : Options} {capacity : Nat} {s s' : State} {line : Line} {n : Nat}

/-- The loop runs and waits for an event. -/
def Settled (options : Options) (capacity : Nat) (s : State) : Prop :=
  ∃ line n, Afoot options capacity s line n ∧ n + line.cost = 0

theorem take_eq {turn : Turn} {result : Except Failure State}
    (h : s.turn? options turn = some result) : s.take options turn = result := by
  rw [State.take, h]
  rfl

theorem Afoot.settle (afoot : Afoot options capacity s line n) {budget : Nat}
    (enough : n + line.cost < budget) :
    ∃ s', s.settleWithin options budget = .ok s' ∧ s.LeadsTo options s' ∧
      Settled options capacity s' ∧ s'.next = s.next ∧ s'.closed = s.closed := by
  induction budget generalizing s line n with
  | zero => exact absurd enough (Nat.not_lt_zero _)
  | succ budget ih =>
    rcases afoot.loop with ⟨hturn, waits, empty⟩ | ⟨machine, line₁, n₁, hturn, afoot₁, -, less⟩
    · have hstage := afoot.stage
      rw [waits] at hstage
      obtain ⟨rfl, hand⟩ : n = 0 ∧ line.hand = none := by
        generalize line.hand = hand at hstage
        cases hstage
        exact ⟨rfl, rfl⟩
      refine ⟨s, ?_, .refl, ⟨line, 0, afoot, ?_⟩, rfl, rfl⟩
      · simp only [State.settleWithin, hturn]
      · simp [Line.cost, hand, empty]
    · obtain ⟨s', hsettle, leads, settled, hnext⟩ := ih afoot₁ (by omega)
      refine ⟨s', ?_, .head ⟨.loop, hturn⟩ leads, settled, hnext⟩
      simp only [State.settleWithin, hturn, hsettle]

theorem settle_of_ends (options : Options) {hub : Hub Memory}
    (ends : Machine.Steps n s.machine ⟨hub, []⟩) {budget : Nat} (enough : n < budget) :
    ∃ s', s.settleWithin options budget = .ok s' ∧ s.LeadsTo options s' ∧ s'.isOver = true := by
  induction budget generalizing s n with
  | zero => exact absurd enough (Nat.not_lt_zero _)
  | succ budget ih =>
    rcases loop_turn_of_ends options ends with ⟨-, isOver, hturn⟩ | ⟨machine, k, rfl, hturn, rest⟩
    · refine ⟨s, ?_, .refl, isOver⟩
      simp only [State.settleWithin, hturn]
    · obtain ⟨s', hsettle, leads, isOver⟩ :=
        @ih { s with machine := machine } k rest (by omega)
      refine ⟨s', ?_, .head ⟨.loop, hturn⟩ leads, isOver⟩
      simp only [State.settleWithin, hturn, hsettle]

theorem Settled.produce (settled : Settled options capacity s) {index count : Nat} {seq : UInt32}
    (h : s.next[index]? = some seq)
    (left : seq.toNat + count = options.eventsPerProducer.toNat) :
    ∃ s', s.produce options index count = .ok s' ∧ s.LeadsTo options s' ∧
      Settled options capacity s' ∧ s'.next = s.next.set index options.eventsPerProducer ∧
      s'.closed = s.closed := by
  induction count generalizing s seq with
  | zero =>
    obtain rfl : seq = options.eventsPerProducer := UInt32.toNat_inj.mp left
    obtain ⟨hlt, hget⟩ := List.getElem?_eq_some_iff.mp h
    refine ⟨s, rfl, .refl, settled, ?_, rfl⟩
    rw [← hget, List.set_getElem_self]
  | succ count ih =>
    obtain ⟨line, n, afoot, cost⟩ := settled
    have lt : seq < options.eventsPerProducer := by
      rw [UInt32.lt_iff_toNat_lt]
      omega
    have hturn := producer_turn_iff.mpr ⟨seq, h, lt, rfl⟩
    obtain ⟨queued, hub, line₁, heq, afoot₁, hcost, -⟩ := afoot.post h lt
    have hnext : (s.post options index seq).next = s.next.set index (seq + 1) := by rw [heq]
    have hclosed : (s.post options index seq).closed = s.closed := by rw [heq]
    have enough : n + line₁.cost < State.patience := by
      rw [State.patience]
      omega
    obtain ⟨s₂, hsettle, leads₂, settled₂, hnext₂, hclosed₂⟩ := afoot₁.settle enough
    rw [hnext] at hnext₂
    have hlt := (List.getElem?_eq_some_iff.mp h).1
    have h₂ : s₂.next[index]? = some (seq + 1) := by
      rw [hnext₂, List.getElem?_set_self hlt]
    have left₂ : (seq + 1).toNat + count = options.eventsPerProducer.toNat := by
      have hmax := options.eventsPerProducer.toNat_lt
      rw [UInt32.toNat_add]
      simp
      omega
    obtain ⟨s', hproduce, leads, settled', hnext', hclosed'⟩ := ih settled₂ h₂ left₂
    refine ⟨s', ?_, .head ⟨.producer index, hturn⟩ (leads₂.trans leads), settled', ?_,
      hclosed'.trans (hclosed₂.trans hclosed)⟩
    · have hsettled : (s.post options index seq).settle options = .ok s₂ := hsettle
      simp only [State.produce, take_eq hturn, bind, Except.bind, hsettled, hproduce]
    · rw [hnext', hnext₂, List.set_set]

theorem Settled.produceFrom (settled : Settled options capacity s) {index count : Nat}
    (h : s.next = List.replicate index options.eventsPerProducer ++ List.replicate count 0) :
    ∃ s', s.produceFrom options index count = .ok s' ∧ s.LeadsTo options s' ∧
      Settled options capacity s' ∧
      s'.next = List.replicate (index + count) options.eventsPerProducer ∧ s'.closed = s.closed := by
  induction count generalizing s index with
  | zero =>
    refine ⟨s, rfl, .refl, settled, ?_, rfl⟩
    rw [h, List.replicate_zero, List.append_nil, Nat.add_zero]
  | succ count ih =>
    have hlength : (List.replicate index options.eventsPerProducer).length = index :=
      List.length_replicate
    have hfirst : s.next[index]? = some 0 := by
      rw [h, List.getElem?_append_right (by omega), hlength, Nat.sub_self]
      rfl
    obtain ⟨s₁, hproduce, leads₁, settled₁, hnext₁, hclosed₁⟩ :=
      settled.produce hfirst (Nat.zero_add _)
    have hnext : s₁.next = List.replicate (index + 1) options.eventsPerProducer ++
        List.replicate count 0 := by
      rw [hnext₁, h, List.set_append_right _ _ (by omega), hlength, Nat.sub_self,
        List.replicate_succ, List.set_cons_zero, List.replicate_succ', List.append_assoc]
      rfl
    obtain ⟨s', hrest, leads, settled', hnext', hclosed'⟩ := ih settled₁ hnext
    refine ⟨s', ?_, leads₁.trans leads, settled', ?_, hclosed'.trans hclosed₁⟩
    · rw [State.produceFrom, hproduce]
      exact hrest
    · rw [hnext']
      congr 1
      omega

theorem Settled.waits (settled : Settled options capacity s) :
    ∃ line, Afoot options capacity s line 0 ∧ s.machine.frames = [.await, ending] ∧
      line.waiting = [] := by
  obtain ⟨line, n, afoot, cost⟩ := settled
  obtain rfl : n = 0 := by omega
  rcases afoot.loop with ⟨-, waits, empty⟩ | ⟨machine, line', n', -, -, -, less⟩
  · exact ⟨line, afoot, waits, empty⟩
  · omega

section

variable {config : Config} (valid : config.Valid) (slots : 3 ≤ config.eventCapacity)
  (api : config.firstSupportedApi ≤ currentApiVersion)
  (reserved : config.wakeupBuckets.toNat < 2 ^ 62) (threads : options.producers * 24 < 2 ^ 63)
include valid slots api reserved threads

theorem running_initial :
    ∃ s, State.initial config options = .ok s ∧
      Running options config.eventCapacity s .first 2 ∧
      s.next = List.replicate options.producers 0 := by
  obtain ⟨hub, hinitial, reachable, shows, capacity⟩ :=
    initial_ok valid slots api reserved options threads
  have posts : ((List.replicate options.producers 0).map UInt32.toNat).sum = 0 := by simp
  have pings : ((List.replicate options.producers (0 : UInt32)).map
      fun seq => options.pingsAmong seq.toNat).sum = 0 := by
    simp [Options.pingsAmong]
  have within : ∀ seq ∈ List.replicate options.producers 0, seq ≤ options.eventsPerProducer := by
    intro seq hseq
    rw [List.eq_of_mem_replicate hseq, UInt32.le_iff_toNat_le]
    exact Nat.zero_le _
  refine ⟨_, hinitial, ⟨⟨reachable, shows, .run, capacity, List.length_replicate, within⟩, rfl, ?_,
    posts.symm, fun _ => rfl⟩, rfl⟩
  rw [State.posts, State.pings, posts, pings]
  exact Line.balanced_first

/-- The run of a simulation is an order of turns that leads to its end. -/
theorem run_ok :
    ∃ start s, State.initial config options = .ok start ∧ start.LeadsTo options s ∧
      s.isOver = true ∧ run config options = .ok s.report := by
  obtain ⟨start, hinitial, running, hstart⟩ :=
    running_initial valid slots api reserved threads
  have enough : 2 + Line.first.cost < State.patience := by decide
  obtain ⟨s₁, hsettle₁, leads₁, settled₁, hnext₁, hclosed₁⟩ := running.toAfoot.settle enough
  obtain ⟨s₂, hproduce, leads₂, settled₂, hnext₂, hclosed₂⟩ :=
    @Settled.produceFrom _ _ _ settled₁ 0 _ (hnext₁.trans hstart)
  obtain ⟨line, afoot₂, waits, empty⟩ := settled₂.waits
  have done : s₂.Done options := by
    rw [State.Done, hnext₂]
    exact fun seq hseq => List.eq_of_mem_replicate hseq
  have quiet := afoot₂.quiet waits empty done
  have unclosed : s₂.closed = false := hclosed₂.trans (hclosed₁.trans running.unclosed)
  have hclose := closer_turn_iff.mpr ⟨quiet, unclosed, rfl⟩
  obtain ⟨k, hk, hub, ends, -⟩ := afoot₂.close slots quiet
  have enough' : k < State.patience := Nat.lt_of_le_of_lt hk (by decide)
  obtain ⟨s, hsettle, leads, isOver⟩ := @settle_of_ends
    { s₂ with machine := s₂.machine.interrupt State.close, closed := true } _ options _ ends _ enough'
  refine ⟨start, s, hinitial, leads₁.trans (leads₂.trans (.head ⟨.closer, hclose⟩ leads)), isOver, ?_⟩
  have hsettled₁ : start.settle options = .ok s₁ := hsettle₁
  have hsettled : ({ s₂ with machine := s₂.machine.interrupt State.close, closed := true } :
      State).settle options = .ok s := hsettle
  simp only [run, bind, Except.bind, hinitial, hsettled₁, hproduce, take_eq hclose, hsettled, pure,
    Except.pure]

end

/-- The simulator accounts for every event, if the memory that is reserved for the wakeup counters of
an app and for the producers can be. Then its run comes to an end with a report of that, and so does
a simulation in which the loop, the producers and the closer take their turns in any other order: no
turn fails, someone can take a turn as long as the simulation is not over, and it does not go on
for ever. Otherwise there is no report. -/
theorem every_event_accounted {config : Config} (valid : config.Valid)
    (slots : 3 ≤ config.eventCapacity) (api : config.firstSupportedApi ≤ currentApiVersion)
    (few : options.total < 2 ^ 32) :
    (config.wakeupBuckets.toNat < 2 ^ 62 → options.producers * 24 < 2 ^ 63 →
      (∃ report, run config options = .ok report ∧
        report.Accounts options config.eventCapacity) ∧
      ∃ start, State.initial config options = .ok start ∧
        (∀ play : Nat → State, play 0 = start → ∃ i, ¬(play i).Goes options (play (i + 1))) ∧
        ∀ s, start.LeadsTo options s →
          (∀ turn failure, s.turn? options turn ≠ some (.error failure)) ∧
          (s.isOver = true ∨ ∃ s', s.Goes options s') ∧
          (s.isOver = true → s.report.Accounts options config.eventCapacity)) ∧
    (2 ^ 62 ≤ config.wakeupBuckets.toNat ∨ 2 ^ 63 ≤ options.producers * 24 →
      run config options = .error (.fatal .capacityOverflow)) := by
  refine ⟨fun reserved threads => ?_, fun vast => ?_⟩
  · obtain ⟨start, last, hinitial, leads, isOver, hrun⟩ :=
      run_ok valid slots api reserved threads
    obtain ⟨first, hfirst, running, -⟩ :=
      running_initial valid slots api reserved threads
    obtain rfl : first = start := Except.ok.inj (hfirst.symm.trans hinitial)
    have course := Course.running running
    obtain ⟨n, ended⟩ := course.leads few slots leads
    refine ⟨⟨_, hrun, ended.accounts isOver⟩, first, hinitial, ?_, fun s leads => ?_⟩
    · rintro play rfl
      exact course.stops few slots
    · obtain ⟨n, reached⟩ := course.leads few slots leads
      refine ⟨fun turn failure failed => ?_, reached.goes few, reached.accounts⟩
      obtain ⟨s', n', hs', -⟩ := reached.turn few slots failed
      cases hs'
  · rw [run, initial_overflows options valid slots api vast]
    rfl

/-- Four producers that post twenty-three events each, the most for which a pool of ninety-six slots
is sure to be enough. Every tenth event is a ping, the first one included. -/
theorem every_event_accounted_ample : Config.default.Valid ∧ 3 ≤ Config.default.eventCapacity ∧
    Config.default.firstSupportedApi ≤ currentApiVersion ∧
    (⟨4, 23, 10⟩ : Options).total < 2 ^ 32 ∧
    ∃ report, run .default ⟨4, 23, 10⟩ = .ok report ∧ report.posted = 92 ∧ report.rejected = 0 ∧
      report.readings.toNat = 80 ∧ report.pongs.toNat = 12 ∧ report.dropped = 0 := by
  have valid : Config.default.Valid := rfl
  have slots : 3 ≤ Config.default.eventCapacity := by decide
  have api : Config.default.firstSupportedApi ≤ currentApiVersion := by decide
  have few : (⟨4, 23, 10⟩ : Options).total < 2 ^ 32 := by decide
  obtain ⟨accounted, -⟩ := every_event_accounted valid slots api few
  obtain ⟨⟨report, hrun, posts, -, ample⟩, -⟩ := accounted (by decide) (by decide)
  have total : (⟨4, 23, 10⟩ : Options).total = 92 := rfl
  have pings : (⟨4, 23, 10⟩ : Options).producers * (⟨4, 23, 10⟩ : Options).pingsAmong
      (⟨4, 23, 10⟩ : Options).eventsPerProducer.toNat = 12 := by decide
  obtain ⟨rejected, dropped, pongs, readings⟩ := ample (by decide)
  rw [pings] at pongs
  rw [total, pongs] at readings
  exact ⟨valid, slots, api, few, report, hrun, by omega, rejected, readings, pongs, dropped⟩

/-- With so many wakeup counters per app there is no report, even if nothing is to be posted. -/
theorem report_missed_many_counters :
    let config := { Config.default with wakeupBuckets := 0x4000000000000000 }
    config.Valid ∧ 3 ≤ config.eventCapacity ∧ config.firstSupportedApi ≤ currentApiVersion ∧
      (⟨0, 0, 0⟩ : Options).total < 2 ^ 32 ∧
      run config ⟨0, 0, 0⟩ = .error (.fatal .capacityOverflow) := by
  refine ⟨rfl, by decide, by decide, by decide, ?_⟩
  decide +kernel

end SensorHub.Demo.Simulation
