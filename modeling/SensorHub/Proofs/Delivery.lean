import SensorHub.Proofs.Barrier

namespace SensorHub

variable {σ : Type}

/-- The app is to receive the event: what `Hub.wanted` asks, which looks at nothing else of it. -/
def Member.wants (event : Event) (member : Member) : Bool :=
  if event.isBroadcast then member.registrations.accepts event
  else event.target == member.info.instanceId

theorem Hub.getElem?_members (hub : Hub σ) (place : Nat) :
    hub.members[place]? = hub.apps[place]?.map fun app => app.nanoapp.member :=
  List.getElem?_map ..

theorem Hub.members_of_loopSide {hub hub' : Hub σ} (h : hub'.loopSide = hub.loopSide) :
    hub'.members = hub.members :=
  congrArg LoopSide.members h

theorem Hub.members_alterApp_other (hub : Hub σ) {index place : Nat} (change : Nanoapp → Nanoapp)
    (h : index ≠ place) : (hub.alterApp index change).members[place]? = hub.members[place]? := by
  have happ : (hub.alterApp index change).apps[place]? = hub.apps[place]? := by
    simp only [alterApp, List.getElem?_modify, if_neg h]
    cases hub.apps[place]? <;> rfl
  rw [getElem?_members, happ, getElem?_members]

namespace Frame

/-- The event that the frame has yet to offer to the apps, and the place from which on it has to. -/
def offering? (hub : Hub σ) : Frame σ → Option (Posting σ × Nat)
  | .cycle handle | .turn handle | .dispatch handle =>
    (hub.pool.inspect handle).map fun posting => (posting, 0)
  | .distribute posting index _ => some (posting, index)
  | _ => none

def seat? : Frame σ → Option Nat
  | .cycle _ | .turn _ | .dispatch _ => some 0
  | .distribute _ index _ => some index
  | _ => none

/-- An app whose code runs above a frame that brings an event has been offered the event. -/
def Seated (frames : List (Frame σ)) : Prop :=
  frames.Pairwise fun upper lower => ∀ place, upper.index? = some place →
    ∀ seat, lower.seat? = some seat → place < seat

variable {hub hub' : Hub σ} {frame : Frame σ} {frames rest : List (Frame σ)}
  {below : List (Cargo σ)}

theorem seat?_eq_none (h : frame.isUrgent = false) : frame.seat? = none := by
  cases frame with
  | cycle | turn | dispatch | distribute => cases h
  | _ => rfl

theorem offering_slot {slot : Option (Posting σ)} {posting : Posting σ} {seat : Nat}
    (h : slot.map (fun posting => (posting, 0)) = some (posting, seat)) :
    slot = some posting ∧ seat = 0 := by
  obtain ⟨held, hslot, he⟩ := Option.map_eq_some_iff.mp h
  cases he
  exact ⟨hslot, rfl⟩

theorem seat?_of_offering {posting : Posting σ} {seat : Nat}
    (h : frame.offering? hub = some (posting, seat)) : frame.seat? = some seat := by
  cases frame with
  | cycle handle | turn handle | dispatch handle =>
    obtain ⟨-, rfl⟩ := offering_slot h
    rfl
  | distribute =>
    cases h
    rfl
  | _ => cases h

theorem offering?_eq_none (hub : Hub σ) (h : frame.isUrgent = false) :
    frame.offering? hub = none := by
  cases frame with
  | cycle | turn | dispatch | distribute => cases h
  | _ => rfl

theorem isUrgent_of_isGuest (h : frame.isGuest = true) : frame.isUrgent = false := by
  cases frame with
  | cycle | turn | dispatch | discard | distribute | complete | await => cases h
  | _ => rfl

/-- Code with which an app handles an event goes on as code of that app, and changes no other. -/
private theorem step_entry {index : Nat} {stopping : Bool} {point : EntryPoint}
    {routine : Routine σ .app .nothing} (placed : index < hub.apps.length)
    (h : (Frame.code (.entry index stopping point) routine).step hub = .go hub' frames) :
    (∀ f ∈ frames, ∀ place, f.index? = some place → index = place) ∧
      ∀ place, index ≠ place → hub'.members[place]? = hub.members[place]? := by
  have apart : hub'.loopSide = hub.loopSide →
      ∀ place, index ≠ place → hub'.members[place]? = hub.members[place]? := by
    intro side place _
    rw [Hub.members_of_loopSide side]
  have placed' : ∀ i, (Actor.entry index stopping point : Actor σ _ _).place? = some i →
      i < hub.apps.length := by
    intro i hi
    cases hi
    exact placed
  have own : ∀ {next : Routine σ .app .nothing}, ∀ place,
      (Frame.code (.entry index stopping point) next).index? = some place → index = place := by
    intro next place hplace
    exact Option.some.inj hplace
  generalize ha : (Actor.entry index stopping point : Actor σ _ _) = actor at *
  cases Routine.step_outcome placed' h with
  | quiet calm side =>
    refine ⟨fun f hf place hplace => ?_, apart side⟩
    rw [List.mem_singleton.mp hf] at hplace
    exact own place hplace
  | tuned =>
    subst ha
    refine ⟨fun f hf place hplace => ?_, fun place hne => Hub.members_alterApp_other _ _ hne⟩
    rw [List.mem_singleton.mp hf] at hplace
    exact own place hplace
  | post kind posted =>
    refine ⟨fun f hf place hplace => ?_,
      apart ((Hub.loopSide_posted posted).trans (Hub.loopSide_offer ..))⟩
    rcases List.mem_append.mp hf with hf | hf
    · rw [index?_of_isLight (Hub.isLight_posted posted f hf)] at hplace
      cases hplace
    · rw [List.mem_singleton.mp hf] at hplace
      exact own place hplace
  | ended place calm side => exact ⟨by simp, apart side⟩
  | left =>
    have hmembers : ∀ incident, (hub.record incident).members = hub.members := fun _ => rfl
    refine ⟨by simp, fun place _ => ?_⟩
    rw [hmembers]

theorem step_guest (placed : ∀ i, frame.index? = some i → i < hub.apps.length)
    (guest : frame.isGuest = true) (h : frame.step hub = .go hub' frames) :
    (∀ f ∈ frames, ∀ place, f.index? = some place → frame.index? = some place) ∧
      ∀ place, frame.index? ≠ some place → hub'.members[place]? = hub.members[place]? := by
  have apart : hub'.loopSide = hub.loopSide →
      ∀ place, frame.index? ≠ some place → hub'.members[place]? = hub.members[place]? := by
    intro side place _
    rw [Hub.members_of_loopSide side]
  have light : frame.isLight = true →
      (∀ f ∈ frames, ∀ place, f.index? = some place → frame.index? = some place) ∧
        ∀ place, frame.index? ≠ some place → hub'.members[place]? = hub.members[place]? := by
    intro hlight
    obtain ⟨side, lights⟩ := step_light hlight h
    refine ⟨fun f hf place hplace => ?_, apart side⟩
    rw [index?_of_isLight (lights f hf)] at hplace
    cases hplace
  cases frame with
  | code actor routine =>
    cases actor with
    | handle | release => exact light rfl
    | loop | start => cases guest
    | entry index stopping point =>
      obtain ⟨hframes, hmembers⟩ := step_entry (placed index rfl) h
      refine ⟨fun f hf place hplace => ?_, fun place hne => ?_⟩
      · exact congrArg some (hframes f hf place hplace)
      · exact hmembers place fun he => hne (congrArg some he)
  | evict | vacate | enqueue => exact light rfl
  | delivered index =>
    cases h
    have hmembers : (hub.alterApp index Nanoapp.countEvent).members = hub.members :=
      Hub.members_alterApp hub index fun _ => rfl
    refine ⟨by simp, fun place _ => ?_⟩
    show (hub.alterApp index Nanoapp.countEvent).members[place]? = hub.members[place]?
    rw [hmembers]
  | _ => cases guest

/-- How an event comes to be offered to the apps from a place on. -/
theorem Advance.offering (h : frame.Advance hub hub' frames) {f : Frame σ} (hf : f ∈ frames)
    {posting : Posting σ} {seat : Nat} (ho : f.offering? hub' = some (posting, seat)) :
    (seat = 0 ∧ frame.offering? hub = some (posting, 0)) ∨
    (∃ index reached, frame = .distribute posting index reached ∧ seat = index + 1) ∨
    (seat = 0 ∧ ∃ handle, hub.queue.toList.head? = some handle ∧
      hub.pool.inspect handle = some posting ∧ frame.Pops hub handle frames ∧
      frame.isClosing = false) := by
  cases h with
  | guest _ guests =>
    rw [offering?_eq_none hub' (isUrgent_of_isGuest (guests f hf))] at ho
    cases ho
  | apart _ idle =>
    rw [offering?_eq_none hub' (idle f hf).1] at ho
    cases ho
  | await =>
    rw [List.mem_singleton.mp hf] at ho
    cases ho
  | @pop _ handle _ _ front inspect how =>
    have taken : (hub'.pool.inspect handle).map (fun posting => (posting, 0)) =
        some (posting, seat) → hub.pool.inspect handle = some posting ∧ seat = 0 := by
      intro hslot
      rw [inspect handle] at hslot
      exact offering_slot hslot
    have first : ∀ {first second : Frame σ}, frames = [first, second] →
        second.offering? hub' = none → f = first := by
      intro first second hframes hnone
      rw [hframes] at hf
      rcases List.mem_cons.mp hf with hf | hf
      · exact hf
      · rw [List.mem_singleton.mp hf, hnone] at ho
        cases ho
    have pops := how
    cases how with
    | flush | idle | await =>
      obtain rfl := first rfl rfl
      obtain ⟨held, rfl⟩ := taken ho
      exact .inr (.inr ⟨rfl, handle, front, held, pops, rfl⟩)
    | drain =>
      obtain rfl := first rfl rfl
      cases ho
  | @cycle handle routine =>
    rcases List.mem_cons.mp hf with rfl | hf
    · cases ho
    · rw [List.mem_singleton.mp hf] at ho
      obtain ⟨held, rfl⟩ := offering_slot ho
      exact .inl ⟨rfl, congrArg (Option.map fun p => (p, 0)) held⟩
  | @turn handle _ inspect =>
    rcases List.mem_cons.mp hf with rfl | hf
    · obtain ⟨held, rfl⟩ := offering_slot ho
      rw [inspect handle] at held
      exact .inl ⟨rfl, congrArg (Option.map fun p => (p, 0)) held⟩
    · rw [List.mem_singleton.mp hf] at ho
      cases ho
  | @dispatch handle p _ held =>
    rcases List.mem_cons.mp hf with rfl | hf
    · cases ho
      exact .inl ⟨rfl, congrArg (Option.map fun p => (p, 0)) held⟩
    · rw [List.mem_singleton.mp hf] at ho
      cases ho
  | discard =>
    simp only [List.mem_cons, List.not_mem_nil, or_false] at hf
    rcases hf with rfl | rfl
    · cases ho
    · cases ho
  | deliver =>
    simp only [List.mem_cons, List.not_mem_nil, or_false] at hf
    rcases hf with rfl | rfl | rfl
    · cases ho
    · cases ho
    · cases ho
      exact .inr (.inl ⟨_, _, rfl, rfl⟩)
  | skip =>
    rw [List.mem_singleton.mp hf] at ho
    cases ho
    exact .inr (.inl ⟨_, _, rfl, rfl⟩)
  | last =>
    rw [List.mem_singleton.mp hf] at ho
    cases ho

/-- An event is offered to the app at one place and goes on to the next, or there is none left. -/
theorem step_distribute {posting : Posting σ} {index : Nat} {reached : Bool}
    (h : (Frame.distribute posting index reached).step hub = .go hub' frames) :
    hub'.members = hub.members ∧
      ((∃ app, hub.apps[index]? = some app ∧
        (∃ reached', .distribute posting (index + 1) reached' ∈ frames) ∧
        (Hub.wanted posting.event app.nanoapp = true → ∃ stopping,
          .entered app.nanoapp.load app.nanoapp.info.instanceId (.event (some posting.serial))
            stopping ∈ hub'.journal)) ∨
      hub.apps[index]? = none) := by
  rcases Hub.offerTo_cases h with
    ⟨app, ha, -, rfl, rfl⟩ | ⟨app, ha, hw, rfl, rfl⟩ | ⟨hnone, hcount, -⟩
  · have hmembers : (hub.checkLatency posting.event app.nanoapp.info.instanceId).members =
        hub.members := Hub.members_of_loopSide (Hub.loopSide_checkLatency ..)
    refine ⟨hmembers, .inl ⟨app, ha, ⟨true, by simp⟩, fun _ => ?_⟩⟩
    exact ⟨_, List.mem_cons_self ..⟩
  · refine ⟨rfl, .inl ⟨app, ha, ⟨reached, List.mem_singleton_self _⟩, fun hwanted => ?_⟩⟩
    rw [hw] at hwanted
    cases hwanted
  · refine ⟨?_, .inr hnone⟩
    rcases hcount with rfl | rfl
    · rfl
    · rfl

/-- A step of a frame that brings an event to the apps leaves the apps as they are, and hands the
event on, unless there is no app left to offer it to. -/
theorem step_offering {posting : Posting σ} {seat : Nat}
    (ht : hub.Tidy (frame.cargo ++ below)) (ho : frame.offering? hub = some (posting, seat))
    (h : frame.step hub = .go hub' frames) :
    hub'.members = hub.members ∧
      ((∃ f ∈ frames, ∃ seat', f.offering? hub' = some (posting, seat')) ∨
        hub.apps[seat]? = none) := by
  cases frame with
  | cycle handle =>
    cases h
    exact ⟨rfl, .inl ⟨.turn handle, by simp, seat, ho⟩⟩
  | turn handle =>
    cases h
    have calm : hub.Calm hub.rollWakeups := (Hub.Calm.refl hub).rollWakeups
    have hmembers : hub.rollWakeups.members = hub.members :=
      Hub.members_of_loopSide (Hub.loopSide_rollWakeups hub)
    refine ⟨hmembers, .inl ⟨.dispatch handle, by simp, seat, ?_⟩⟩
    show (hub.rollWakeups.pool.inspect handle).map (fun p => (p, 0)) = _
    rw [calm.inspect]
    exact ho
  | dispatch handle =>
    obtain ⟨held, rfl⟩ := offering_slot ho
    rcases Hub.dispatch_cases h with ⟨other, hother, rfl, rfl⟩ | ⟨hnone, -⟩
    · cases held.symm.trans hother
      exact ⟨rfl, .inl ⟨.distribute posting 0 false, by simp, 0, rfl⟩⟩
    · cases held.symm.trans hnone
  | distribute p index reached =>
    cases ho
    obtain ⟨hmembers, ⟨app, -, ⟨reached', hf⟩, -⟩ | hnone⟩ := step_distribute h
    · exact ⟨hmembers, .inl ⟨_, hf, seat + 1, rfl⟩⟩
    · exact ⟨hmembers, .inr hnone⟩
  | _ => cases ho

/-- A step that takes an event from the queue records that, and leaves the slots as they are. -/
theorem Pops.popped {handle : Handle} (how : frame.Pops hub handle frames)
    (h : frame.step hub = .go hub' frames) :
    hub.queue.toList.head? = some handle ∧ hub'.pool = hub.pool ∧ hub'.members = hub.members ∧
      hub'.journal =
        .popped handle ((hub.pool.inspect handle).map Posting.serial) :: hub.journal := by
  have htakes : frame.takes = true := by
    cases how with
    | flush | idle | await | drain => rfl
  have hmembers : hub'.members = hub.members := Hub.members_of_loopSide (loopSide_takes htakes h)
  obtain ⟨hub₁, hsample, ⟨-, rests⟩ | ⟨other, hp, pops⟩⟩ := takes_cases htakes h
  · cases how with
    | flush | idle | await | drain => cases rests
  · obtain rfl : other = handle := by
      cases how with
      | flush | idle | await | drain =>
        cases pops
        rfl
    obtain ⟨queue, hlist, rfl⟩ := Hub.pop?_eq_some hp
    rcases hsample with rfl | rfl
    · exact ⟨by rw [hlist]; rfl, rfl, hmembers, rfl⟩
    · have hfront : hub.queue.toList = other :: queue.toList := hlist
      exact ⟨by rw [hfront]; rfl, rfl, hmembers, rfl⟩

theorem Pops.offering {handle : Handle} {posting : Posting σ} (h : frame.Pops hub handle frames)
    (held : hub'.pool.inspect handle = some posting) (opened : frame.isClosing = false) :
    ∃ first lower, frames = first :: lower ∧ (first = .cycle handle ∨ first = .dispatch handle) ∧
      first.offering? hub' = some (posting, 0) := by
  have offers : (hub'.pool.inspect handle).map (fun p => (p, 0)) = some (posting, 0) :=
    congrArg (Option.map fun p => (p, 0)) held
  cases h with
  | flush => exact ⟨.dispatch handle, [.flush], rfl, .inr rfl, offers⟩
  | idle | await => exact ⟨.cycle handle, [_], rfl, .inl rfl, offers⟩
  | drain => cases opened

theorem Traffic.offering_below (h : frame.Traffic hub hub' frames)
    (ht : hub.Tidy (frame.cargo ++ rest.flatMap Frame.cargo)) {f : Frame σ} (hf : f ∈ rest) :
    f.offering? hub' = f.offering? hub := by
  cases f with
  | cycle handle | turn handle | dispatch handle =>
    have hslot := h.inspect_slot ht hf (List.mem_singleton_self _)
    exact congrArg (Option.map fun posting => (posting, 0)) hslot
  | _ => rfl

theorem step_seated (placed : ∀ i, frame.index? = some i → i < hub.apps.length)
    (hp : Prompt hub (frame :: rest)) (ha : frame.Advance hub hub' frames)
    (hs : Seated (frame :: rest)) (h : frame.step hub = .go hub' frames) :
    Seated (frames ++ rest) := by
  obtain ⟨hframe, hrest⟩ := List.pairwise_cons.mp hs
  have heavy : frame.isGuest = false → Seated frames → Seated (frames ++ rest) := by
    intro hheavy hnew
    refine List.pairwise_append.mpr ⟨hnew, hrest, fun _ _ lower hl _ _ seat hseat => ?_⟩
    have hurgent := (List.pairwise_cons.mp hp.alone).1 lower hl hheavy
    rw [seat?_eq_none hurgent] at hseat
    cases hseat
  have unseated : (∀ f ∈ frames, f.isUrgent = false) → Seated frames := by
    intro hcalm
    refine List.pairwise_of_forall_mem_list fun _ _ lower hl _ _ seat hseat => ?_
    rw [seat?_eq_none (hcalm lower hl)] at hseat
    cases hseat
  have plain : ∀ {fs : List (Frame σ)}, (∀ f ∈ fs, f.index? = none) → Seated fs := by
    intro fs hplain
    refine List.pairwise_of_forall_mem_list fun upper hu _ _ place hplace => ?_
    rw [hplain upper hu] at hplace
    cases hplace
  cases ha with
  | guest guest guests =>
    obtain ⟨hsame, -⟩ := step_guest placed guest h
    have hnew := unseated fun f hf => isUrgent_of_isGuest (guests f hf)
    refine List.pairwise_append.mpr ⟨hnew, hrest, fun upper hu lower hl place hplace => ?_⟩
    exact hframe lower hl place (hsame upper hu place hplace)
  | apart hheavy idle => exact heavy hheavy (unseated fun f hf => (idle f hf).1)
  | await => exact heavy rfl (plain (plain_of_all rfl))
  | pop front inspect how =>
    have hheavy : frame.isGuest = false := by
      cases how with
      | flush | idle | await | drain => rfl
    exact heavy hheavy (plain how.plain)
  | cycle | turn | dispatch | discard | skip | last => exact heavy rfl (plain (plain_of_all rfl))
  | @deliver posting index =>
    refine heavy rfl (List.pairwise_cons.mpr ⟨fun lower hl place hplace seat hseat => ?_,
      plain (plain_of_all rfl)⟩)
    cases hplace
    rcases List.mem_cons.mp hl with rfl | hl
    · cases hseat
    · rw [List.mem_singleton.mp hl] at hseat
      cases hseat
      exact Nat.lt_succ_self _

end Frame

namespace Machine

variable {m : Machine σ}

/-- In every run the apps whose code runs have been offered the events below. -/
theorem Reachable.seated (hm : m.Reachable) : Frame.Seated m.frames := by
  refine hm.keeps (P := fun _ frames => Frame.Seated frames) ?_ ?_ ?_
  · intro config collaborators memory now routine _
    exact List.pairwise_singleton ..
  · intro hub hub' frame frames rest hm hs h
    exact Frame.step_seated hm.nested.1 hm.prompt (hm.advance h) hs h
  · intro hub frames routine hs
    refine List.pairwise_cons.mpr ⟨fun _ _ place hplace => ?_, hs⟩
    cases hplace

end Machine

end SensorHub
