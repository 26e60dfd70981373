import SensorHub.Proofs.Outcome

namespace SensorHub

variable {σ : Type}

/-- What a frame is in charge of. -/
inductive Cargo (σ : Type)
  /-- A slot with its event. -/
  | slot (handle : Handle)
  /-- A slot with an event that is evicted. -/
  | doomed (handle : Handle)
  /-- A slot to give back. -/
  | spent (handle : Handle)
  /-- An event that has yet to get a slot. -/
  | waiting (posting : Posting σ)
  /-- An event out of its slot. -/
  | posting (posting : Posting σ)
  /-- The handling of the queued event with this number by an app. -/
  | handler (serial : Nat)

namespace Cargo

def handle? : Cargo σ → Option Handle
  | .slot handle | .doomed handle | .spent handle => some handle
  | _ => none

def stored? : Cargo σ → Option Handle
  | .slot handle | .doomed handle => some handle
  | _ => none

def waiting? : Cargo σ → Option (Posting σ)
  | .waiting p => some p
  | _ => none

def posting? : Cargo σ → Option (Posting σ)
  | .posting p => some p
  | _ => none

def handler? : Cargo σ → Option Nat
  | .handler serial => some serial
  | _ => none

def isSlot (item : Cargo σ) : Bool :=
  item.handle?.isSome

end Cargo

namespace Frame

def cargo : Frame σ → List (Cargo σ)
  | .evict handles => handles.map .doomed
  | .vacate handle => [.spent handle]
  | .dispatch handle | .discard handle | .cycle handle | .turn handle => [.slot handle]
  | .enqueue posting => [.waiting posting]
  | .distribute posting _ _ | .complete posting => [.posting posting]
  | .code (.entry _ _ point) _ => point.serial?.toList.map .handler
  | _ => []

theorem Rests.cargo {hub : Hub σ} {frame : Frame σ} {frames : List (Frame σ)}
    (h : frame.Rests hub frames) : frames.flatMap Frame.cargo = frame.cargo := by
  cases h with
  | flush | idle | drain => rfl

theorem Pops.cargo {hub : Hub σ} {handle : Handle} {frame : Frame σ} {frames : List (Frame σ)}
    (h : frame.Pops hub handle frames) :
    frame.cargo = [] ∧ frames.flatMap Frame.cargo = [.slot handle] := by
  cases h with
  | flush | idle | await | drain => exact ⟨rfl, rfl⟩

def index? : Frame σ → Option Nat
  | .code actor _ => actor.place?
  | _ => none

/-- The event that the frame is about to post as one that may be dropped, as it is handed over. -/
def droppable? (hub : Hub σ) : Frame σ → Option Event
  | .code actor routine => routine.droppable? hub actor
  | _ => none

/-- What a step does to slots and events. -/
inductive Traffic (hub : Hub σ) : Frame σ → Hub σ → List (Frame σ) → Prop
  /-- What the frame is in charge of is handed on to the new frames. -/
  | pass {frame hub' frames} (calm : hub.Calm hub')
      (cargo : frames.flatMap Frame.cargo = frame.cargo)
      (losses : hub'.losses = hub.losses := by rfl) : Traffic hub frame hub' frames
  /-- A new event is numbered and posted. -/
  | post {frame hub₀ way event completion hub₁ hub' upper lower} (calm : hub.Calm hub₀)
      (kind : Hub.Matches way event completion)
      (calm' : (hub₀.offer way event completion).2.Calm hub₁)
      (direct : (∀ work, completion ≠ .work work) ∨ hub₁ = (hub₀.offer way event completion).2)
      (shown : hub₁.shownStopping = hub.shownStopping)
      (posted : hub₁.Posted (hub₀.offer way event completion).1 hub' upper)
      (cargo : lower.flatMap Frame.cargo = frame.cargo)
      (running : hub₁.running = hub.running) (losses : hub₁.losses = hub.losses)
      (low : way = .low → frame.droppable? hub = some event) :
      Traffic hub frame hub' (upper ++ lower)
  | enqueue {posting hub'} (h : hub.enqueue posting = (true, hub')) :
      Traffic hub (.enqueue posting) hub' []
  | evict {handle rest posting hub' frames} (held : hub.pool.inspect handle = some posting)
      (h : ((hub.take handle).2.record (.evicted posting.serial)).detach posting =
        (hub', frames)) :
      Traffic hub (.evict (handle :: rest)) hub' (frames ++ [.vacate handle, .evict rest])
  | vacate {handle} : Traffic hub (.vacate handle) (hub.vacate handle) []
  | pop {frame hub₁ handle hub' frames} (calm : hub.Calm hub₁)
      (h : hub₁.pop? = some (handle, hub')) (how : frame.Pops hub handle frames)
      (losses : hub₁.losses = hub.losses) :
      Traffic hub frame hub' frames
  | dispatch {handle posting} (held : hub.pool.inspect handle = some posting) :
      Traffic hub (.dispatch handle)
        ((hub.take handle).2.record (.distributing posting.serial))
        [.distribute posting 0 false, .vacate handle]
  | discard {handle posting} (held : hub.pool.inspect handle = some posting) :
      Traffic hub (.discard handle) (hub.take handle).2 [.complete posting, .vacate handle]
  /-- The slot that the frame looks into holds no event. -/
  | hollow {frame handle hub' frames} (mem : handle ∈ frame.cargo.filterMap Cargo.stored?)
      (held : hub.pool.inspect handle = none) : Traffic hub frame hub' frames
  | deliver {posting index reached hub₁ load instanceId stopping routine} (calm : hub.Calm hub₁)
      (losses : hub₁.losses = hub.losses) :
      Traffic hub (.distribute posting index reached)
        (hub₁.record (.entered load instanceId (.event (some posting.serial)) stopping))
        [.code (.entry index stopping (.event (some posting.serial))) routine, .delivered index,
          .distribute posting (index + 1) true]
  | leave {index stopping serial routine load} :
      Traffic hub (.code (.entry index stopping (.event (some serial))) routine)
        (hub.record (.left load (.event (some serial)))) []
  | forget {posting} (h : posting.completion = .nothing) : Traffic hub (.complete posting) hub []
  | free {posting callback hub₁ previous} (h : posting.completion = .free callback)
      (calm : hub.Calm hub₁) (losses : hub₁.losses = hub.losses) :
      Traffic hub (.complete posting)
        (hub₁.record (.freed posting.serial posting.event.type posting.event.payload))
        [.code (.handle (.freed posting.serial posting.event.sender))
            (callback posting.event.type posting.event.payload), .restore previous]
  | work {posting work hub' frames} (h : posting.completion = .work work)
      (calm : (hub.record (.worked posting.serial)).Calm hub')
      (cargo : frames.flatMap Frame.cargo = [])
      (called : ∀ kind routine, work = .call kind routine →
        frames = [.code (.loop (.callback posting.serial)) routine])
      (losses : hub'.losses = hub.losses) :
      Traffic hub (.complete posting) hub' frames

end Frame

namespace Hub

variable {hub hub' : Hub σ} {frames : List (Frame σ)}

theorem calm_load {app : App σ} {client : LoadClient σ}
    (h : hub.load app client = .go hub' frames) :
    hub.Calm hub' ∧ frames.flatMap Frame.cargo = [] ∧ hub'.losses = hub.losses := by
  rcases load_cases h with ⟨reason, rfl, rfl⟩ | ⟨id, hub₁, -, -, rfl, rfl, rfl⟩
  · exact ⟨(Calm.refl hub).log rfl, rfl, rfl⟩
  · have calm : hub.Calm ({ hub with nextId := id + 1 }.enroll app id
        (.new hub.config.wakeupBuckets.toNat)).2 := by
      refine Calm.record (Calm.same (.refl hub) ?_ ?_ ?_ ?_) ?_ <;> rfl
    exact ⟨(calm.setCurrent _).record rfl, rfl, rfl⟩

theorem calm_perform {serial : Nat} {work : SystemWork σ}
    (h : hub.perform serial work = .go hub' frames) :
    hub.Calm hub' ∧ frames.flatMap Frame.cargo = [] ∧ hub'.losses = hub.losses := by
  rcases perform_cases h with
    ⟨-, rfl, rfl⟩ | ⟨app, -, -, hl⟩ | ⟨app, -, -, rfl, rfl⟩ |
    ⟨instanceId, force, app, -, -, -, rfl, rfl⟩ |
    ⟨instanceId, force, report, reason, -, hreport, rfl, rfl⟩ | ⟨kind, routine, -, rfl, rfl⟩
  · have stop : (hub.log .stopRequested).Calm
        ({ hub.log .stopRequested with running := false } : Hub σ) :=
      (Calm.refl _).same rfl rfl rfl rfl
    exact ⟨(((Calm.refl hub).log rfl).trans stop).record rfl, rfl, rfl⟩
  · exact calm_load hl
  · exact ⟨(Calm.refl hub).log rfl, rfl, rfl⟩
  · exact ⟨.refl _, rfl, rfl⟩
  · have hquiet : report.isSlotFault = false := by
      rcases hreport with rfl | rfl <;> rfl
    exact ⟨((Calm.refl hub).log hquiet).log rfl, rfl, rfl⟩
  · exact ⟨.refl _, rfl, rfl⟩

theorem traffic_announce {frame : Frame σ} {hub₀ : Hub σ} {type : UInt16} {load : Nat}
    {info : Info} {upper lower : List (Frame σ)} (calm : hub.Calm hub₀)
    (shown : hub₀.shownStopping = hub.shownStopping) (running : hub₀.running = hub.running)
    (losses : hub₀.losses = hub.losses) (cargo : lower.flatMap Frame.cargo = frame.cargo)
    (h : hub₀.announce type load info = .go hub' upper) :
    frame.Traffic hub hub' (upper ++ lower) := by
  obtain ⟨hub₁, calm', side, kept, posted⟩ := announce_cases h
  have shown' : hub₁.shownStopping = hub.shownStopping :=
    (congrArg LoopSide.shownStopping side).trans shown
  exact .post calm (.critical (.status type info) none) calm' (.inl fun _ h => nomatch h) shown'
    posted cargo ((congrArg LoopSide.running side).trans running) (kept.trans losses) nofun

theorem calm_deliverTo (hub : Hub σ) (index : Nat) (app : App σ) (event : Event)
    (hasCallback : Bool) (serial : Option Nat) :
    ∃ hub₁ stopping, hub.Calm hub₁ ∧ hub₁.losses = hub.losses ∧
      hub.deliverTo index app serial event hasCallback =
        (hub₁.record (.entered app.nanoapp.load app.nanoapp.info.instanceId (.event serial)
            stopping),
          [.code (.entry index stopping (.event serial)) (app.onEvent event hasCallback),
            .delivered index]) :=
  ⟨_, _, ((Calm.refl hub).checkLatency _ _).setCurrent _,
    losses_checkLatency hub event app.nanoapp.info.instanceId, rfl⟩

theorem traffic_finishStart {index : Nat} {stopping : Bool} {client : LoadClient σ} {ok : Bool}
    {routine : Routine σ .app .flag} (placed : index < hub.apps.length)
    (h : hub.finishStart index client ok = .go hub' frames) :
    (Frame.code (.start index stopping client) routine).Traffic hub hub' frames := by
  have ha := List.getElem?_eq_getElem placed
  have left : hub.Calm ((hub.setCurrent none).record
      (.left hub.apps[index].nanoapp.load .start)) :=
    ((Calm.refl hub).setCurrent none).record rfl
  rcases finishStart_cases ha h with
    ⟨-, upper, hgo, rfl⟩ | ⟨-, other, -, -, rfl, rfl⟩
  · exact traffic_announce (left.log rfl) rfl rfl rfl rfl hgo
  · exact .pass (left.log rfl) rfl

theorem traffic_settleUnload {info : Info} {started : Bool} {previous : Option UInt16}
    (h : hub.settleUnload info started previous = .go hub' frames) :
    (Frame.settle info started previous).Traffic hub hub' frames := by
  rcases settleUnload_cases h with
    ⟨-, rfl, rfl⟩ | ⟨index, -, ⟨-, upper, hgo, rfl⟩ | ⟨-, rfl, rfl⟩⟩
  · exact .pass (((Calm.refl hub).log rfl).setStopping previous) rfl
  · exact traffic_announce (.refl hub) rfl rfl rfl rfl hgo
  · exact .pass (.refl _) rfl

theorem traffic_removeAt {index : Nat} {started : Bool}
    (h : hub.removeAt index started = .go hub' frames) :
    (Frame.remove index started).Traffic hub hub' frames := by
  rcases removeAt_cases h with
    ⟨-, rfl, rfl⟩ | ⟨app, -, ⟨-, rfl, rfl⟩ | ⟨-, rfl, rfl⟩⟩
  · exact .pass (.refl _) rfl
  · exact .pass (((Calm.refl hub).setCurrent _).record rfl) rfl
  · exact .pass ((Calm.refl hub).setCurrent _) rfl

theorem traffic_offerTo {posting : Posting σ} {index : Nat} {reached : Bool}
    (h : hub.offerTo posting index reached = .go hub' frames) :
    (Frame.distribute posting index reached).Traffic hub hub' frames := by
  rcases offerTo_cases h with
    ⟨app, -, -, rfl, rfl⟩ | ⟨app, -, -, rfl, rfl⟩ | ⟨-, hcount, rfl⟩
  · obtain ⟨hub₁, stopping, calm, losses, hd⟩ := calm_deliverTo hub index app posting.event
      posting.completion.hasCallback (some posting.serial)
    rw [hd]
    exact .deliver calm losses
  · exact .pass (.refl _) rfl
  · rcases hcount with rfl | rfl
    · exact .pass (.refl _) rfl
    · refine .pass ((Calm.same (.refl hub) ?_ ?_ ?_ ?_).log ?_) ?_ ?_ <;> rfl

theorem traffic_complete {posting : Posting σ} (h : hub.complete posting = .go hub' frames) :
    (Frame.complete posting).Traffic hub hub' frames := by
  rcases complete_cases h with ⟨hc, rfl, rfl⟩ | ⟨callback, instanceId, hc, rfl, rfl⟩ | ⟨work, hc, hw⟩
  · exact .forget hc
  · exact .free hc ((Calm.refl hub).setCurrent _) rfl
  · obtain ⟨calm, cargo, losses⟩ := calm_perform hw
    refine .work hc calm cargo (fun kind routine he => ?_) losses
    subst he
    cases hw
    rfl

end Hub

namespace Frame

variable {hub hub' : Hub σ} {frames : List (Frame σ)}

private theorem traffic_code {r : Reach} {a : Answer} {actor : Actor σ r a}
    {routine : Routine σ r a} (placed : ∀ i, actor.place? = some i → i < hub.apps.length)
    (h : routine.step hub actor = .go hub' frames) :
    (Frame.code actor routine).Traffic hub hub' frames := by
  have same : ∀ next, Frame.cargo (.code actor next) = Frame.cargo (.code actor routine) := by
    intro next
    cases actor <;> rfl
  cases Routine.step_outcome placed h with
  | quiet calm side mute losses => exact .pass calm (by simp [same]) losses
  | tuned => exact .pass ((Hub.Calm.refl hub).alterApp _ _) (by simp [same])
  | post kind posted low =>
    exact .post (.refl hub) kind (.refl _) (.inr rfl) rfl posted (by simp [same]) rfl rfl low
  | load hl =>
    obtain ⟨calm, cargo, losses⟩ := Hub.calm_load hl
    exact .pass calm cargo losses
  | unload mem => exact .pass (.refl _) rfl
  | idle => exact .pass (.refl _) rfl
  | run => exact .pass ((Hub.Calm.refl hub).log rfl) rfl
  | @deliver _ _ index app event next ha =>
    obtain ⟨hub₁, stopping, calm, losses, hd⟩ := Hub.calm_deliverTo hub index app event false none
    rw [hd]
    exact .pass (calm.record rfl) rfl losses
  | message => exact .pass ((Hub.Calm.refl hub).setCurrent _) rfl
  | ended place calm side mute losses =>
    refine .pass calm ?_ losses
    cases actor with
    | loop | handle | release => rfl
    | start | entry => cases place
  | started hs => exact Hub.traffic_finishStart (placed _ rfl) hs
  | @left index stopping point =>
    cases hp : point with
    | event serial =>
      cases serial with
      | none => exact .pass ((Hub.Calm.refl hub).record rfl) rfl
      | some serial => exact .leave
    | start => exact .pass ((Hub.Calm.refl hub).record rfl) rfl
    | finish => exact .pass ((Hub.Calm.refl hub).record rfl) rfl

theorem step_traffic {frame : Frame σ} (placed : ∀ i, frame.index? = some i → i < hub.apps.length)
    (h : frame.step hub = .go hub' frames) : frame.Traffic hub hub' frames := by
  cases frame with
  | code actor routine => exact traffic_code placed h
  | evict handles =>
    cases handles with
    | nil =>
      cases h
      exact .pass (.refl _) rfl
    | cons handle rest =>
      rcases Hub.releaseEvicted_cases hub handle with ⟨posting, held, hr⟩ | ⟨held, -⟩
      · simp only [step, hr] at h
        cases h
        rw [List.append_assoc]
        exact .evict held rfl
      · exact .hollow (List.mem_cons_self ..) held
  | vacate handle =>
    cases h
    exact .vacate
  | enqueue posting =>
    simp only [step] at h
    split at h
    next hub₁ he =>
      cases h
      exact .enqueue he
    next => cases h
  | dispatch handle =>
    rcases Hub.dispatch_cases h with ⟨posting, held, rfl, rfl⟩ | ⟨held, -⟩
    · exact .dispatch held
    · exact .hollow (List.mem_singleton_self _) held
  | discard handle =>
    rcases Hub.discard_cases h with ⟨rfl, ⟨posting, held, rfl⟩ | ⟨held, -⟩⟩
    · exact .discard held
    · exact .hollow (List.mem_singleton_self _) held
  | distribute posting index reached => exact Hub.traffic_offerTo h
  | delivered index =>
    cases h
    exact .pass (((Hub.Calm.refl hub).alterApp _ _).setCurrent _) rfl
  | complete posting => exact Hub.traffic_complete h
  | restore previous =>
    cases h
    exact .pass ((Hub.Calm.refl hub).setCurrent _) rfl
  | answer client result =>
    cases client with
    | routine actor next =>
      cases h
      exact .pass (.refl _) rfl
    | request appId =>
      cases result with
      | ok instanceId =>
        cases h
        exact .pass (.refl _) rfl
      | error reason =>
        cases h
        exact .pass ((Hub.Calm.refl hub).log rfl) rfl
  | mark info started =>
    cases started with
    | true =>
      cases h
      exact .pass ((Hub.Calm.refl hub).setStopping _) rfl
    | false =>
      cases h
      exact .pass ((Hub.Calm.refl hub).setStopping _) rfl
  | flush | drain | idle | await =>
    obtain ⟨hub₁, hsample, hcases⟩ := takes_cases rfl h
    have calm : hub.Calm hub₁ ∧ hub₁.losses = hub.losses := by
      rcases hsample with rfl | rfl
      · exact ⟨.refl _, rfl⟩
      · exact ⟨(Hub.Calm.refl hub).same rfl rfl rfl rfl, rfl⟩
    rcases hcases with ⟨rfl, rests⟩ | ⟨handle, hp, pops⟩
    · exact .pass calm.1 rests.cargo calm.2
    · exact .pop calm.1 hp pops calm.2
  | settle info started previous => exact Hub.traffic_settleUnload h
  | remove index started => exact Hub.traffic_removeAt h
  | release load info managers =>
    cases managers with
    | nil =>
      cases h
      exact .pass (.refl _) rfl
    | cons manager rest =>
      cases h
      exact .pass ((Hub.Calm.refl hub).record rfl) rfl
  | erase index load info =>
    cases h
    refine .pass ((Hub.Calm.record (Hub.Calm.same (.refl hub) ?_ ?_ ?_ ?_) ?_).setCurrent none) ?_ ?_
      <;> rfl
  | unmark info previous =>
    cases h
    exact .pass (((Hub.Calm.refl hub).setStopping _).log rfl) rfl
  | cycle handle =>
    cases h
    exact .pass (.refl _) rfl
  | turn handle =>
    cases h
    exact .pass (.rollWakeups (.refl hub)) rfl (Hub.losses_rollWakeups hub)
  | endCycle =>
    cases h
    exact .pass (.refl _) rfl
  | serve =>
    simp only [step] at h
    split at h
    next =>
      cases h
      exact .pass ((Hub.Calm.refl hub).same rfl rfl rfl rfl) rfl
    next =>
      cases h
      exact .pass (.refl _) rfl
  | clear =>
    simp only [step] at h
    split at h
    next =>
      cases h
      exact .pass (.refl _) rfl
    next =>
      cases h
      exact .pass (.refl _) rfl
  | exit =>
    cases h
    exact .pass ((Hub.Calm.refl hub).log rfl) rfl

end Frame

end SensorHub
