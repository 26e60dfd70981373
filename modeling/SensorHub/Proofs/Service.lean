import SensorHub.Proofs.Delivery
import SensorHub.Proofs.Waiting

namespace SensorHub

variable {σ : Type}

open Ledger

namespace Hub

variable {hub hub' : Hub σ} {frames : List (Frame σ)}

theorem running_of_loopSide (h : hub'.loopSide = hub.loopSide) : hub'.running = hub.running :=
  congrArg LoopSide.running h

theorem running_load {app : App σ} {client : LoadClient σ}
    (h : hub.load app client = .go hub' frames) : hub'.running = hub.running := by
  rcases load_cases h with ⟨reason, rfl, -⟩ | ⟨id, hub₁, -, -, rfl, rfl, -⟩
  · rfl
  · rfl

theorem running_deliverTo (hub : Hub σ) (index : Nat) (app : App σ) (serial : Option Nat)
    (event : Event) (hasCallback : Bool) :
    (hub.deliverTo index app serial event hasCallback).1.running = hub.running := by
  have hrunning : (hub.checkLatency event app.nanoapp.info.instanceId).running = hub.running :=
    running_of_loopSide (loopSide_checkLatency ..)
  exact hrunning

theorem Matches.of_shutdown {way : Way} {event : Event}
    (h : Matches way event (.work .shutdown : Completion σ)) : way = .stop := by
  generalize hc : (Completion.work .shutdown : Completion σ) = completion at h
  cases h with
  | critical _ free | low free => exact absurd hc.symm (ofCallback_ne_work free .shutdown)
  | work work =>
    cases hc
    rfl

end Hub

namespace Frame

variable {hub hub' : Hub σ} {frame : Frame σ} {frames : List (Frame σ)}

private theorem running_code {r : Reach} {a : Answer} {actor : Actor σ r a}
    {routine : Routine σ r a} (placed : ∀ i, actor.place? = some i → i < hub.apps.length)
    (ho : Routine.Outcome hub actor routine hub' frames) : hub'.running = hub.running := by
  cases ho with
  | quiet calm side | ended place calm side => exact Hub.running_of_loopSide side
  | post kind posted =>
    exact Hub.running_of_loopSide ((Hub.loopSide_posted posted).trans (Hub.loopSide_offer ..))
  | load hl => exact Hub.running_load hl
  | deliver ha => exact Hub.running_deliverTo ..
  | started hs =>
    have ha := List.getElem?_eq_getElem (placed _ rfl)
    rcases Hub.finishStart_cases ha hs with ⟨-, upper, hgo, -⟩ | ⟨-, other, -, -, rfl, -⟩
    · have hrunning := Hub.running_of_loopSide (Hub.light_announce hgo).1
      exact hrunning
    · rfl
  | tuned | unload | idle | run | message | left => rfl

theorem step_stops (placed : ∀ i, frame.index? = some i → i < hub.apps.length)
    (h : frame.step hub = .go hub' frames) (running : hub.running = true)
    (stopped : hub'.running = false) :
    ∃ posting, frame = .complete posting ∧ posting.completion = .work .shutdown := by
  have keeps : hub'.running = hub.running →
      ∃ posting, frame = .complete posting ∧ posting.completion = .work .shutdown := by
    intro hsame
    rw [hsame, running] at stopped
    cases stopped
  cases frame with
  | complete posting =>
    rcases Hub.complete_cases h with
      ⟨-, rfl, -⟩ | ⟨callback, instanceId, -, rfl, -⟩ | ⟨work, hc, hw⟩
    · exact keeps rfl
    · exact keeps rfl
    · rcases Hub.perform_cases hw with
        ⟨rfl, -, -⟩ | ⟨app, -, -, hl⟩ | ⟨app, -, -, rfl, -⟩ |
        ⟨instanceId, force, app, -, -, -, rfl, -⟩ |
        ⟨instanceId, force, report, reason, -, -, rfl, -⟩ | ⟨kind, routine, -, rfl, -⟩
      · exact ⟨posting, rfl, hc⟩
      · have hrunning := Hub.running_load hl
        exact keeps hrunning
      · exact keeps rfl
      · exact keeps rfl
      · exact keeps rfl
      · exact keeps rfl
  | code actor routine => exact keeps (running_code placed (Routine.step_outcome placed h))
  | evict | vacate | enqueue =>
    exact keeps (Hub.running_of_loopSide (step_light rfl h).1)
  | flush | drain | await | idle => exact keeps (Hub.running_of_loopSide (loopSide_takes rfl h))
  | dispatch handle =>
    rcases Hub.dispatch_cases h with ⟨posting, -, rfl, -⟩ | ⟨-, rfl, -⟩
    · exact keeps rfl
    · exact keeps rfl
  | discard handle =>
    obtain ⟨rfl, -⟩ := Hub.discard_cases h
    exact keeps rfl
  | distribute posting index reached =>
    rcases Hub.offerTo_cases h with
      ⟨app, -, -, rfl, -⟩ | ⟨app, -, -, rfl, -⟩ | ⟨-, hcount, -⟩
    · exact keeps (Hub.running_deliverTo ..)
    · exact keeps rfl
    · rcases hcount with rfl | rfl
      · exact keeps rfl
      · exact keeps rfl
  | answer client result =>
    cases client with
    | routine actor next =>
      cases h
      exact keeps rfl
    | request appId =>
      cases result with
      | ok | error =>
        cases h
        exact keeps rfl
  | settle info started previous =>
    rcases Hub.settleUnload_cases h with
      ⟨-, rfl, -⟩ | ⟨index, -, ⟨-, upper, hgo, -⟩ | ⟨-, rfl, -⟩⟩
    · exact keeps rfl
    · exact keeps (Hub.running_of_loopSide (Hub.light_announce hgo).1)
    · exact keeps rfl
  | remove index started =>
    rcases Hub.removeAt_cases h with ⟨-, rfl, -⟩ | ⟨app, -, ⟨-, rfl, -⟩ | ⟨-, rfl, -⟩⟩
    · exact keeps rfl
    · exact keeps rfl
    · exact keeps rfl
  | release load info managers =>
    cases managers with
    | nil | cons =>
      cases h
      exact keeps rfl
  | turn handle =>
    cases h
    exact keeps (Hub.running_of_loopSide (Hub.loopSide_rollWakeups hub))
  | serve | clear =>
    simp only [step] at h
    split at h
    all_goals
      cases h
      exact keeps rfl
  | mark info started =>
    cases started with
    | true | false =>
      cases h
      exact keeps rfl
  | delivered | restore | erase | unmark | cycle | endCycle | exit =>
    cases h
    exact keeps rfl

end Frame

namespace Incident

def stops? : Incident → Option Nat
  | .offered serial .stop _ _ => some serial
  | _ => none

end Incident

def stops (journal : List Incident) : List Nat :=
  journal.filterMap Incident.stops?

/-- The app has begun to handle the queued event with this number. -/
def Member.Received (member : Member) (serial : Nat) (journal : List Incident) : Prop :=
  ∃ stopping, .entered member.load member.info.instanceId (.event (some serial)) stopping ∈ journal

namespace Machine

variable {start m m' : Machine σ} {posting : Posting σ} {seat serial : Nat}

/-- A step takes the event from the front of the queue, to offer it to the apps. -/
def Sends (m : Machine σ) (posting : Posting σ) (next : Machine σ) : Prop :=
  m.step = .stepped next ∧ ∃ handle rest, m.hub.queue.toList.head? = some handle ∧
    m.hub.pool.inspect handle = some posting ∧
    next.hub.journal.head? = some (.popped handle (some posting.serial)) ∧
    (next.frames = .cycle handle :: rest ∨ next.frames = .dispatch handle :: rest)

/-- Of the apps that were loaded first, those in front of the seat have received the event if they
wanted it; those from the seat on are still the same. -/
structure Offered (first m : Machine σ) (posting : Posting σ) (seat : Nat) : Prop where
  same : ∀ place, seat ≤ place → m.hub.members[place]? = first.hub.members[place]?
  received : ∀ place, place < seat → ∀ member, first.hub.members[place]? = some member →
    member.wants posting.event = true → member.Received posting.serial m.hub.journal

/-- The event was taken from the queue, and was offered to the apps in front of the seat. -/
def Underway (start m : Machine σ) (posting : Posting σ) (seat : Nat) : Prop :=
  ∃ first second, start.Reaches first ∧ first.Sends posting second ∧ second.Reaches m ∧
    Offered first m posting seat

/-- The event was taken from the queue, and every app that was loaded then and wanted it has
received it. -/
def Delivered (start m : Machine σ) (serial : Nat) : Prop :=
  ∃ first second posting, start.Reaches first ∧ first.Sends posting second ∧ second.Reaches m ∧
    posting.serial = serial ∧ ∀ app ∈ first.hub.apps, Hub.wanted posting.event app.nanoapp = true →
      app.nanoapp.member.Received serial m.hub.journal

theorem Move.received (hm : m.Reachable) (hmove : Move m m') {member : Member}
    (h : member.Received serial m.hub.journal) : member.Received serial m'.hub.journal := by
  obtain ⟨stopping, hentered⟩ := h
  exact ⟨stopping, (Move.books hm hmove).remembers hentered⟩

theorem Delivered.move (hm : m.Reachable) (h : start.Delivered m serial) (hmove : Move m m') :
    start.Delivered m' serial := by
  obtain ⟨first, second, posting, hr, hsends, hr', hserial, hall⟩ := h
  refine ⟨first, second, posting, hr, hsends, hr'.tail hmove, hserial, fun app ha hw => ?_⟩
  exact hmove.received hm (hall app ha hw)

/-- Above a frame that brings an event only apps in front of its seat run. -/
theorem Reachable.members_below {hub hub' : Hub σ} {frame f : Frame σ}
    {frames rest : List (Frame σ)} (hm : Reachable ⟨hub, frame :: rest⟩)
    (h : frame.step hub = .go hub' frames) (hf : f ∈ rest)
    (ho : f.offering? hub = some (posting, seat)) : frame.isGuest = true ∧
      ∀ place, seat ≤ place → hub'.members[place]? = hub.members[place]? := by
  have guest : frame.isGuest = true := by
    by_contra heavy
    have hcalm := (List.pairwise_cons.mp hm.prompt.alone).1 f hf (Bool.eq_false_iff.mpr heavy)
    rw [Frame.offering?_eq_none hub hcalm] at ho
    cases ho
  refine ⟨guest, fun place hle => (Frame.step_guest hm.nested.1 guest h).2 place fun hplace => ?_⟩
  -- the app whose code runs has been offered the event
  have hseat := Frame.seat?_of_offering ho
  have hlt := (List.pairwise_cons.mp hm.seated).1 f hf place hplace seat hseat
  omega

namespace Offered

variable {first : Machine σ}

/-- While only apps in front of the seat change, the event is still to be offered from there on. -/
theorem move (hm : m.Reachable) (h : Offered first m posting seat) (hmove : Move m m')
    (same : ∀ place, seat ≤ place → m'.hub.members[place]? = m.hub.members[place]?) :
    Offered first m' posting seat := by
  refine ⟨fun place hle => ?_, fun place hlt member hf hw => ?_⟩
  · exact (same place hle).trans (h.same place hle)
  · exact hmove.received hm (h.received place hlt member hf hw)

theorem next (hm : m.Reachable) (h : Offered first m posting seat) (hmove : Move m m')
    (same : m'.hub.members = m.hub.members)
    (received : ∀ member, m.hub.members[seat]? = some member → member.wants posting.event = true →
      member.Received posting.serial m'.hub.journal) : Offered first m' posting (seat + 1) := by
  refine ⟨fun place hle => ?_, fun place hlt member hf hw => ?_⟩
  · rw [same]
    exact h.same place (Nat.le_of_succ_le hle)
  · rcases Nat.lt_succ_iff_lt_or_eq.mp hlt with hlt | rfl
    · exact hmove.received hm (h.received place hlt member hf hw)
    · rw [← h.same place (Nat.le_refl _)] at hf
      exact received member hf hw

theorem delivered (h : Offered first m posting seat) (none : m.hub.apps[seat]? = none) :
    ∀ app ∈ first.hub.apps, Hub.wanted posting.event app.nanoapp = true →
      app.nanoapp.member.Received posting.serial m.hub.journal := by
  intro app ha hw
  obtain ⟨place, hplace⟩ := List.getElem?_of_mem ha
  have hmember : first.hub.members[place]? = some app.nanoapp.member := by
    rw [Hub.getElem?_members, hplace]
    rfl
  have hend : first.hub.members[seat]? = Option.none := by
    rw [← h.same seat (Nat.le_refl _), Hub.getElem?_members, none]
    rfl
  have hlt : place < seat := by
    have hlength := List.getElem?_eq_none_iff.mp hend
    have hbound := (List.getElem?_eq_some_iff.mp hmember).1
    omega
  exact h.received place hlt _ hmember hw

section Step

variable {hub hub' : Hub σ} {frame f : Frame σ} {frames rest : List (Frame σ)}

/-- A step of the frame that brings the event leads from its seat to the next one. -/
theorem step {seat' : Nat} (hm : Reachable ⟨hub, frame :: rest⟩)
    (h : frame.step hub = .go hub' frames)
    (hoffered : Offered first ⟨hub, frame :: rest⟩ posting seat)
    (before : frame.offering? hub = some (posting, seat)) (hf : f ∈ frames)
    (after : f.offering? hub' = some (posting, seat')) :
    Offered first ⟨hub', frames ++ rest⟩ posting seat' := by
  have hmove : Move ⟨hub, frame :: rest⟩ ⟨hub', frames ++ rest⟩ := .of_go h
  rcases (hm.advance h).offering hf after with
    ⟨rfl, hbefore⟩ | ⟨index, reached, rfl, rfl⟩ | ⟨-, handle, -, -, how, -⟩
  · cases before.symm.trans hbefore
    obtain ⟨hmembers, -⟩ := Frame.step_offering hm.tidy hbefore h
    refine hoffered.move hm hmove fun place _ => ?_
    show hub'.members[place]? = hub.members[place]?
    rw [hmembers]
  · cases before
    obtain ⟨hmembers, hoffers⟩ := Frame.step_distribute h
    refine hoffered.next hm hmove hmembers fun member hmember hwants => ?_
    have hplace : hub.apps[seat]?.map (fun app => app.nanoapp.member) = some member :=
      (Hub.getElem?_members hub seat).symm.trans hmember
    rcases hoffers with ⟨app, ha, -, hreceived⟩ | hnone
    · rw [ha] at hplace
      cases hplace
      exact hreceived hwants
    · rw [hnone] at hplace
      cases hplace
  · cases how with
    | flush | idle | await | drain => cases before

theorem below (hm : Reachable ⟨hub, frame :: rest⟩) (h : frame.step hub = .go hub' frames)
    (hoffered : Offered first ⟨hub, frame :: rest⟩ posting seat) (hf : f ∈ rest)
    (ho : f.offering? hub = some (posting, seat)) :
    Offered first ⟨hub', frames ++ rest⟩ posting seat :=
  hoffered.move hm (.of_go h) (hm.members_below h hf ho).2

end Step

end Offered

theorem Underway.move (hm : m.Reachable) (h : start.Underway m posting seat) (hmove : Move m m')
    (same : ∀ place, seat ≤ place → m'.hub.members[place]? = m.hub.members[place]?) :
    start.Underway m' posting seat := by
  obtain ⟨first, second, hr, hsends, hr', hoffered⟩ := h
  exact ⟨first, second, hr, hsends, hr'.tail hmove, hoffered.move hm hmove same⟩

theorem Underway.delivered (h : start.Underway m posting seat)
    (none : m.hub.apps[seat]? = none) : start.Delivered m posting.serial := by
  obtain ⟨first, second, hr, hsends, hr', hoffered⟩ := h
  exact ⟨first, second, posting, hr, hsends, hr', rfl, hoffered.delivered none⟩

theorem Underway.of_pop {hub hub' : Hub σ} {frame : Frame σ} {frames rest : List (Frame σ)}
    {handle : Handle} (hr : start.Reaches ⟨hub, frame :: rest⟩)
    (h : frame.step hub = .go hub' frames) (how : frame.Pops hub handle frames)
    (held : hub.pool.inspect handle = some posting) (opened : frame.isClosing = false) :
    start.Underway ⟨hub', frames ++ rest⟩ posting 0 := by
  obtain ⟨hfront, hpool, hmembers, hjournal⟩ := how.popped h
  have hheld : hub'.pool.inspect handle = some posting := by
    rw [hpool]
    exact held
  obtain ⟨top, lower, hframes, hsent, -⟩ := how.offering hheld opened
  have hstep : step ⟨hub, frame :: rest⟩ = .stepped ⟨hub', frames ++ rest⟩ :=
    step_eq_stepped.mpr ⟨hub, frame, rest, hub', frames, rfl, h, rfl⟩
  have hhead : hub'.journal.head? = some (.popped handle (some posting.serial)) := by
    rw [hjournal, held]
    rfl
  have hstack : frames ++ rest = .cycle handle :: (lower ++ rest) ∨
      frames ++ rest = .dispatch handle :: (lower ++ rest) := by
    rw [hframes]
    rcases hsent with rfl | rfl
    · exact .inl rfl
    · exact .inr rfl
  refine ⟨_, _, hr, ⟨hstep, handle, _, hfront, held, hhead, hstack⟩, .refl, fun place _ => ?_,
    fun place hlt => absurd hlt (Nat.not_lt_zero place)⟩
  show hub'.members[place]? = hub.members[place]?
  rw [hmembers]

theorem Reachable.pops {hub hub' : Hub σ} {frame : Frame σ} {frames rest : List (Frame σ)}
    (hm : Reachable ⟨hub, frame :: rest⟩) (h : frame.step hub = .go hub' frames) :
    pops hub'.journal = pops hub.journal ∨
      ∃ handle posting, frame.Pops hub handle frames ∧ hub.pool.inspect handle = some posting ∧
        pops hub'.journal = pops hub.journal ++ [posting.serial] := by
  cases htakes : frame.takes with
  | false => exact .inl ((hm.shift h).changes.2 htakes)
  | true =>
    obtain ⟨hub₁, hsample, ⟨rfl, -⟩ | ⟨handle, -, how⟩⟩ := Frame.takes_cases htakes h
    · refine .inl ?_
      rcases hsample with rfl | rfl
      · rfl
      · rfl
    · obtain ⟨hfront, -, -, hjournal⟩ := how.popped h
      have hqueued : handle ∈ hub.queue.toList := List.mem_of_head? hfront
      have hstored := hm.tidy.stored handle (List.mem_append_left _ hqueued)
      obtain ⟨posting, held⟩ := Option.isSome_iff_exists.mp hstored
      have hpops : SensorHub.pops hub'.journal =
          SensorHub.pops hub.journal ++ [posting.serial] := by
        rw [hjournal, held]
        exact List.reverse_cons
      exact .inr ⟨handle, posting, how, held, hpops⟩

/-- A frame has yet to offer the event to apps. -/
def Offering (m : Machine σ) (serial : Nat) : Prop :=
  ∃ f ∈ m.frames, ∃ posting seat, f.offering? m.hub = some (posting, seat) ∧
    posting.serial = serial

/-- What the frames have yet to offer was taken from the queue. While the hub runs, everything that
was taken is still being offered, or has been delivered. -/
structure Served (start m : Machine σ) : Prop where
  underway : ∀ f ∈ m.frames, ∀ posting seat, f.offering? m.hub = some (posting, seat) →
    start.Underway m posting seat
  done : m.hub.running = true → ∀ serial ∈ SensorHub.pops m.hub.journal,
    m.Offering serial ∨ start.Delivered m serial

section Step

variable {hub hub' : Hub σ} {frame : Frame σ} {frames rest : List (Frame σ)}

/-- What is offered after a step was offered before, or it has just been taken from the queue. -/
private theorem underway_step (hs : start.IsStart) (hr : start.Reaches ⟨hub, frame :: rest⟩)
    (hserved : start.Served ⟨hub, frame :: rest⟩) (h : frame.step hub = .go hub' frames) :
    ∀ f ∈ frames ++ rest, ∀ posting seat, f.offering? hub' = some (posting, seat) →
      start.Underway ⟨hub', frames ++ rest⟩ posting seat := by
  have hm : Reachable ⟨hub, frame :: rest⟩ := ⟨start, hs, hr⟩
  have hmove : Move ⟨hub, frame :: rest⟩ ⟨hub', frames ++ rest⟩ := .of_go h
  intro f hf posting seat ho
  rcases List.mem_append.mp hf with hf | hf
  · have goes_on : ∀ seat', frame.offering? hub = some (posting, seat') →
        start.Underway ⟨hub', frames ++ rest⟩ posting seat := by
      intro seat' hbefore
      obtain ⟨first, second, hfirst, hsends, hlater, hoffered⟩ :=
        hserved.underway frame (List.mem_cons_self ..) posting seat' hbefore
      exact ⟨first, second, hfirst, hsends, hlater.tail hmove, hoffered.step hm h hbefore hf ho⟩
    rcases (hm.advance h).offering hf ho with
      ⟨-, hbefore⟩ | ⟨index, reached, rfl, -⟩ | ⟨rfl, handle, -, held, how, opened⟩
    · exact goes_on 0 hbefore
    · exact goes_on index rfl
    · exact .of_pop hr h how held opened
  · rw [(hm.traffic h).offering_below hm.tidy hf] at ho
    obtain ⟨first, second, hfirst, hsends, hlater, hoffered⟩ :=
      hserved.underway f (List.mem_cons_of_mem _ hf) posting seat ho
    exact ⟨first, second, hfirst, hsends, hlater.tail hmove, hoffered.below hm h hf ho⟩

/-- What was taken from the queue is offered on, or it has been offered to all. -/
private theorem done_step (hs : start.IsStart) (hr : start.Reaches ⟨hub, frame :: rest⟩)
    (hserved : start.Served ⟨hub, frame :: rest⟩) (h : frame.step hub = .go hub' frames)
    (running : hub'.running = true) : ∀ serial ∈ SensorHub.pops hub'.journal,
      Offering ⟨hub', frames ++ rest⟩ serial ∨ start.Delivered ⟨hub', frames ++ rest⟩ serial := by
  have hm : Reachable ⟨hub, frame :: rest⟩ := ⟨start, hs, hr⟩
  have hmove : Move ⟨hub, frame :: rest⟩ ⟨hub', frames ++ rest⟩ := .of_go h
  have hran : hub.running = true := (Frame.step_closing hm.nested.1 h).1 running
  have before : ∀ serial ∈ SensorHub.pops hub.journal,
      Offering ⟨hub', frames ++ rest⟩ serial ∨ start.Delivered ⟨hub', frames ++ rest⟩ serial := by
    intro serial hserial
    rcases hserved.done hran serial hserial with ⟨f, hf, posting, seat, ho, rfl⟩ | hdelivered
    · rcases List.mem_cons.mp hf with rfl | hf
      · obtain ⟨-, ⟨next, hnext, seat', ho'⟩ | hnone⟩ := Frame.step_offering hm.tidy ho h
        · exact .inl ⟨next, List.mem_append_left _ hnext, posting, seat', ho', rfl⟩
        · have hunder := hserved.underway f (List.mem_cons_self ..) posting seat ho
          exact .inr ((hunder.delivered hnone).move hm hmove)
      · rw [← (hm.traffic h).offering_below hm.tidy hf] at ho
        exact .inl ⟨f, List.mem_append_right _ hf, posting, seat, ho, rfl⟩
    · exact .inr (hdelivered.move hm hmove)
  intro serial hserial
  rcases hm.pops h with hsame | ⟨handle, posting, how, held, hpops⟩
  · rw [hsame] at hserial
    exact before serial hserial
  · rw [hpops] at hserial
    rcases List.mem_append.mp hserial with hold | hnew
    · exact before serial hold
    · -- a hub that runs does not shut down
      have opened : frame.isClosing = false := by
        cases hclosing : frame.isClosing with
        | false => rfl
        | true =>
          have hstopped := hm.shutting.stopped frame (List.mem_cons_self ..) hclosing
          rw [hran] at hstopped
          cases hstopped
      have hheld : hub'.pool.inspect handle = some posting := by
        rw [(how.popped h).2.1]
        exact held
      obtain ⟨top, lower, hframes, -, ho⟩ := how.offering hheld opened
      have htop : top ∈ frames ++ rest := by
        rw [hframes]
        exact List.mem_cons_self ..
      exact .inl ⟨top, htop, posting, 0, ho, (List.mem_singleton.mp hnew).symm⟩

end Step

/-- In every run, while the hub runs, what was taken from the queue is being delivered or has
been. -/
theorem Reaches.served (hs : start.IsStart) (hr : start.Reaches m) : start.Served m := by
  refine hr.keeps (P := fun hub frames => start.Served ⟨hub, frames⟩) ?_ ?_ ?_
  · obtain ⟨config, collaborators, memory, now, routine, -, rfl⟩ := isStart_iff.mp hs
    refine ⟨fun f hf posting seat ho => ?_, fun _ serial hserial => ?_⟩
    · rw [List.mem_singleton.mp hf] at ho
      cases ho
    · cases hserial
  · intro hub hub' frame frames rest hr hserved h
    exact ⟨underway_step hs hr hserved h, done_step hs hr hserved h⟩
  · intro hub frames routine hr hserved
    have hm : Reachable ⟨hub, frames⟩ := ⟨start, hs, hr⟩
    have hmove : Move ⟨hub, frames⟩ (interrupt ⟨hub, frames⟩ routine) := .interrupt routine
    refine ⟨fun f hf posting seat ho => ?_, fun running serial hserial => ?_⟩
    · rcases List.mem_cons.mp hf with rfl | hf
      · cases ho
      · exact (hserved.underway f hf posting seat ho).move hm hmove fun _ _ => rfl
    · rcases hserved.done running serial hserial with ⟨f, hf, hoffering⟩ | hdelivered
      · exact .inl ⟨f, List.mem_cons_of_mem _ hf, hoffering⟩
      · exact .inr (hdelivered.move hm hmove)

/-- A hub that ran and has stopped did so where a stop was done. -/
theorem Reaches.stops (hm : m.Reachable) (hr : m.Reaches m') (running : m.hub.running = true)
    (stopped : m'.hub.running = false) :
    ∃ last stop rest, m.Reaches last ∧ last.Reaches m' ∧ last.hub.running = true ∧
      last.frames = .complete stop :: rest ∧ stop.completion = .work .shutdown := by
  revert stopped
  refine hr.keeps (P := fun hub frames => hub.running = false →
    ∃ last stop rest, m.Reaches last ∧ last.Reaches ⟨hub, frames⟩ ∧
      last.hub.running = true ∧ last.frames = .complete stop :: rest ∧
      stop.completion = .work .shutdown) ?_ ?_ ?_
  · intro stopped
    rw [running] at stopped
    cases stopped
  · intro hub hub' frame frames rest hr ih h stopped
    have hx : Reachable ⟨hub, frame :: rest⟩ := hm.reaches hr
    have hmove : Move ⟨hub, frame :: rest⟩ ⟨hub', frames ++ rest⟩ := .of_go h
    cases runs : hub.running with
    | true =>
      obtain ⟨stop, rfl, hwork⟩ := Frame.step_stops hx.nested.1 h runs stopped
      exact ⟨_, stop, rest, hr, .single hmove, runs, rfl, hwork⟩
    | false =>
      obtain ⟨last, stop, rest', hlast, hlater, hrest⟩ := ih runs
      exact ⟨last, stop, rest', hlast, hlater.tail hmove, hrest⟩
  · intro hub frames routine hr ih stopped
    obtain ⟨last, stop, rest, hlast, hlater, hrest⟩ := ih stopped
    exact ⟨last, stop, rest, hlast, hlater.tail (.interrupt routine), hrest⟩

theorem Reaches.stop_done (hs : start.IsStart) (hr : start.Reaches m)
    (stopped : m.hub.running = false) :
    ∃ last posting rest, start.Reaches last ∧ last.Reaches m ∧ last.hub.running = true ∧
      last.frames = .complete posting :: rest ∧ posting.completion = .work .shutdown := by
  have running : start.hub.running = true := by
    obtain ⟨config, collaborators, memory, now, routine, -, rfl⟩ := isStart_iff.mp hs
    rfl
  exact Reaches.stops ⟨start, hs, .refl⟩ hr running stopped

/-- An event that is completed was taken from the queue. -/
theorem Reachable.popped_of_complete (hm : m.Reachable)
    (hf : m.frames = .complete posting :: rest) :
    posting.serial ∈ SensorHub.pops m.hub.journal := by
  have htransit : posting.serial ∈ m.row.transit := by
    show posting.serial ∈ m.cargo.filterMap m.hub.transit?
    rw [cargo, hf]
    exact List.mem_cons_self ..
  exact List.mem_of_getLast? (hm.inOrder.current _ htransit)

/-- While the loop does something that is not in the hands of an app, no app handles an event. -/
theorem Reachable.unhandled (hm : m.Reachable) (hf : m.frames = frame :: rest)
    (heavy : frame.isLight = false) (own : frame.cargo.filterMap Cargo.handler? = [])
    (serial : Nat) : tally Incident.enters? serial m.hub.journal =
      tally Incident.leaves? serial m.hub.journal := by
  have hnested := hm.nested
  rw [hf] at hnested
  have hactive : m.books.active = [] := by
    show m.cargo.filterMap Cargo.handler? = []
    rw [cargo, hf, List.flatMap_cons, List.filterMap_append, own, List.nil_append]
    exact handlers_eq_nil (hnested.2.1 heavy)
  have hhandled := hm.balanced.handled serial
  rw [hactive] at hhandled
  exact hhandled

/-- While an event is completed, everything that was taken from the queue has been delivered, and no
app handles an event any more. -/
theorem Reaches.complete_done (hs : start.IsStart) (hr : start.Reaches m)
    {rest : List (Frame σ)} (hf : m.frames = .complete posting :: rest)
    (running : m.hub.running = true) :
    posting.serial ∈ SensorHub.pops m.hub.journal ∧
      (∀ serial ∈ SensorHub.pops m.hub.journal, start.Delivered m serial) ∧
      ∀ serial, tally Incident.enters? serial m.hub.journal =
        tally Incident.leaves? serial m.hub.journal := by
  have hm : m.Reachable := ⟨start, hs, hr⟩
  refine ⟨hm.popped_of_complete hf, fun serial hserial => ?_, hm.unhandled hf rfl rfl⟩
  rcases (hr.served hs).done running serial hserial with ⟨f, hmem, p, seat, ho, -⟩ | hdelivered
  · rw [hf] at hmem
    have hcalm : f = .complete posting ∨ f.isUrgent = false := by
      rcases List.mem_cons.mp hmem with he | hmem
      · exact .inl he
      · have halone := hm.prompt.alone
        rw [hf] at halone
        exact .inr ((List.pairwise_cons.mp halone).1 f hmem rfl)
    rcases hcalm with rfl | hcalm
    · cases ho
    · rw [Frame.offering?_eq_none m.hub hcalm] at ho
      cases ho
  · exact hdelivered

/-- Once an app has begun to handle an event, all handling of those that were queued earlier is
over. -/
theorem Reachable.handled_before (hm : m.Reachable) {earliest latest : Nat}
    (hbefore : [earliest, latest].Sublist (admissions m.hub.journal))
    {later earlier : List Incident} {incident : Incident}
    (split : m.hub.journal = later ++ incident :: earlier)
    (henters : incident.enters? = some latest) :
    tally Incident.enters? earliest later = 0 ∧ tally Incident.leaves? earliest later = 0 ∧
      tally Incident.enters? earliest earlier = tally Incident.leaves? earliest earlier := by
  have honce := hm.lined.once
  have hdistinct : earliest ≠ latest := List.pairwise_iff_forall_sublist.mp honce hbefore
  have hnone : tally Incident.enters? earliest later = 0 :=
    hm.inOrder.none_later honce split henters hbefore
  have hturn : InTurn (later ++ incident :: earlier) := by
    rw [← split]
    exact hm.inOrder.inTurn
  have hended := (hturn.began henters).2 earliest
  have hhandled := hm.balanced.handled earliest
  have hjournal : m.books.journal = later ++ incident :: earlier := split
  have hleaves : incident.leaves? = none := by
    cases incident with
    | entered => rfl
    | _ => cases henters
  have hother : ¬incident.enters? = some earliest := by
    rw [henters]
    intro he
    exact hdistinct (Option.some.inj he).symm
  rw [hjournal, tally_append, tally_append, tally_cons, tally_skip hleaves,
    if_neg hother] at hhandled
  refine ⟨hnone, ?_, hended⟩
  omega

theorem Reaches.pops {last : Machine σ} (hlast : last.Reachable) (hr : last.Reaches m) :
    ∃ news, SensorHub.pops m.hub.journal = SensorHub.pops last.hub.journal ++ news := by
  obtain ⟨-, later, hj⟩ := (Reaches.books hlast hr).journal
  have hjournal : m.hub.journal = later ++ last.hub.journal := hj
  exact ⟨SensorHub.pops later, by rw [hjournal, pops_append]⟩

/-- What was queued before a stop that was taken from the queue was taken before. -/
theorem Reachable.popped_before {last : Machine σ} (hlast : last.Reachable)
    (hr : last.Reaches m) {serial stop : Nat} (hkept : serial ∉ m.row.gone)
    (hbefore : [serial, stop].Sublist (admissions m.hub.journal))
    (hpopped : stop ∈ SensorHub.pops last.hub.journal) :
    serial ∈ SensorHub.pops last.hub.journal := by
  have hm := hlast.reaches hr
  have hfilter := hm.inOrder.eq_filter hm.lined.once
  obtain ⟨news, hnews⟩ := Reaches.pops hlast hr
  have hrow : SensorHub.pops m.row.journal = SensorHub.pops last.hub.journal ++ news := hnews
  rw [hrow, List.append_assoc] at hfilter
  have hnodup : ((admissions m.hub.journal).filter (· ∉ m.row.gone)).Nodup :=
    hm.lined.once.filter _
  have hstop : stop ∉ m.row.gone := by
    have hmem : stop ∈ (admissions m.row.journal).filter (· ∉ m.row.gone) := by
      rw [← hfilter]
      exact List.mem_append_left _ hpopped
    simpa using (List.mem_filter.mp hmem).2
  have hpair : [serial, stop].Sublist ((admissions m.hub.journal).filter (· ∉ m.row.gone)) := by
    have hsub := hbefore.filter (· ∉ m.row.gone)
    simpa [hkept, hstop] using hsub
  have hjournal : m.row.journal = m.hub.journal := rfl
  rw [hjournal] at hfilter
  rw [← hfilter] at hpair hnodup
  have hfirst : [serial, stop].Sublist (SensorHub.pops last.hub.journal) := by
    refine sublist_pair_of_append hpair fun hmem => ?_
    exact (List.nodup_append.mp hnodup).2.2 stop hpopped stop hmem rfl
  exact hfirst.subset (List.mem_cons_self ..)

/-- The queue is served in order. What was taken from it is what was queued, in the same order,
without what was evicted, and what is evicted leaves from the tail. Apps handle an event only when
they are through with those that were queued before it. And when the hub has stopped, every event
that was queued before the first stop and was not evicted was taken from the queue to be offered to
the apps, and all apps that were loaded then and wanted it had received it, while the hub still
ran. -/
theorem served_in_order (hs : start.IsStart) (hr : start.Reaches m) :
    (∀ handle, .popped handle none ∉ m.hub.journal) ∧
    SensorHub.pops m.hub.journal ++ m.hub.line =
      (admissions m.hub.journal).filter (· ∉ m.row.gone) ∧
    (∀ next, Move m next → m.row.Changes next.row) ∧
    (∀ earliest latest later incident earlier,
      [earliest, latest].Sublist (admissions m.hub.journal) →
      m.hub.journal = later ++ incident :: earlier → incident.enters? = some latest →
        tally Incident.enters? earliest later = 0 ∧ tally Incident.leaves? earliest later = 0 ∧
        tally Incident.enters? earliest earlier = tally Incident.leaves? earliest earlier) ∧
    (m.hub.running = false → ∀ serial ∈ admissions m.hub.journal, serial ∉ m.row.gone →
      (∀ stop ∈ stops m.hub.journal, stop ∈ admissions m.hub.journal →
        [serial, stop].Sublist (admissions m.hub.journal)) →
        ∃ last, start.Reaches last ∧ last.Reaches m ∧ last.hub.running = true ∧
          start.Delivered last serial ∧ tally Incident.enters? serial last.hub.journal =
            tally Incident.leaves? serial last.hub.journal) := by
  have hm : m.Reachable := ⟨start, hs, hr⟩
  refine ⟨hm.inOrder.found, ?_, fun next hmove => ?_, ?_, ?_⟩
  · have hfilter := hm.inOrder.eq_filter hm.lined.once
    rw [← Hub.line_eq]
    exact hfilter
  · cases hmove with
    | step hstep =>
      obtain ⟨hub, frame, rest, hub', frames, rfl, h, rfl⟩ := step_eq_stepped.mp hstep
      exact (hm.shift h).changes.1
    | interrupt routine => exact .stays rfl rfl
  · intro earliest latest later incident earlier hbefore split henters
    exact hm.handled_before hbefore split henters
  · intro stopped serial hserial hkept hbefore
    obtain ⟨last, posting, rest, hlast, hlater, running, hf, hwork⟩ := hr.stop_done hs stopped
    obtain ⟨hpopped, hdelivered, hended⟩ := hlast.complete_done hs hf running
    have hmlast : last.Reachable := ⟨start, hs, hlast⟩
    -- what stops the hub is a stop that was queued
    have hstop : posting.serial ∈ stops m.hub.journal := by
      have hout : posting ∈ last.books.pending ++ last.books.out := by
        refine Hub.mem_books.mpr (.inr (.inr (.inr ?_)))
        have hframe : .complete posting ∈ last.frames := by
          rw [hf]
          exact List.mem_cons_self ..
        exact List.mem_flatMap.mpr ⟨_, hframe, List.mem_singleton_self _⟩
      obtain ⟨way, event, hoffered, kind, -⟩ := hmlast.balanced.vouched posting hout
      obtain rfl : way = .stop := by
        rw [hwork] at kind
        exact kind.of_shutdown
      have hthere : .offered posting.serial .stop event posting.completion.hasCallback ∈
          m.hub.journal := Reaches.remembers hmlast hlater hoffered
      exact List.mem_filterMap.mpr ⟨_, hthere, rfl⟩
    have hadmitted : posting.serial ∈ admissions m.hub.journal := by
      obtain ⟨news, hnews⟩ := hlater.pops hmlast
      apply hm.inOrder.order.subset
      have htaken : posting.serial ∈ SensorHub.pops m.hub.journal := by
        rw [hnews]
        exact List.mem_append_left _ hpopped
      exact List.mem_append_left _ htaken
    have hfirst : serial ∈ SensorHub.pops last.hub.journal :=
      hmlast.popped_before hlater hkept (hbefore _ hstop hadmitted) hpopped
    exact ⟨last, hlast, hlater, running, hdelivered serial hfirst, hended serial⟩

/-- Posts an event that is wanted and one that is evicted for the stop behind it. -/
def stopWhenFull : Routine Unit .loop .nothing :=
  .start listener fun _ =>
  .post (Event.new EventType.firstUser) none <|
  .postLow (Event.new EventType.firstUser) none fun _ =>
  .request .shutdown fun _ =>
  .run <|
  .done ()

def crowded : Machine Unit :=
  launch (.create { Config.default with eventBlocks := 1, eventsPerBlock := 3 } .none () 0)
    stopWhenFull

theorem served_in_order_crowded :
    SensorHub.pops (crowded.advance 60).1.hub.journal = [0, 1, 3] ∧
      ∃ last, last.Reaches (crowded.advance 60).1 ∧ last.hub.running = true ∧
        crowded.Delivered last 1 := by
  have hs : crowded.IsStart :=
    ⟨{ Config.default with eventBlocks := 1, eventsPerBlock := 3 }, .none, (), 0, _, stopWhenFull,
      rfl, rfl⟩
  have hr : crowded.Reaches (crowded.advance 60).1 := reaches_unfinished (by decide +kernel)
  have hadmissions : admissions (crowded.advance 60).1.hub.journal = [0, 1, 2, 3] := by
    decide +kernel
  have hgone : (crowded.advance 60).1.row.gone = [2] := by decide +kernel
  have hline : (crowded.advance 60).1.hub.line = [] := by decide +kernel
  have hstops : stops (crowded.advance 60).1.hub.journal = [3] := by decide +kernel
  have hstopped : (crowded.advance 60).1.hub.running = false := by decide +kernel
  obtain ⟨-, horder, -, -, hserved⟩ := served_in_order hs hr
  rw [hadmissions, hgone, hline, List.append_nil] at horder
  rw [hadmissions, hgone, hstops] at hserved
  have hbefore : ∀ stop ∈ [3], stop ∈ [0, 1, 2, 3] → [1, stop].Sublist [0, 1, 2, 3] := by decide
  obtain ⟨last, -, hlater, running, hdelivered, -⟩ :=
    hserved hstopped 1 (by decide) (by decide) hbefore
  exact ⟨horder, last, hlater, running, hdelivered⟩

end Machine

end SensorHub
