import SensorHub.Proofs.Posted

namespace SensorHub

variable {σ : Type}

namespace Hub

theorem infos_alterApp (hub : Hub σ) (index : Nat) {change : Nanoapp → Nanoapp}
    (keeps : ∀ n : Nanoapp, (change n).info = n.info) :
    (hub.alterApp index change).infos = hub.infos := by
  apply List.ext_getElem?
  intro k
  simp only [infos, alterApp, List.getElem?_map, List.getElem?_modify]
  cases hub.apps[k]? with
  | none => rfl
  | some app =>
    by_cases hk : index = k
    · simp [hk, App.alter, keeps]
    · simp [hk]

theorem members_alterApp (hub : Hub σ) (index : Nat) {change : Nanoapp → Nanoapp}
    (keeps : ∀ n : Nanoapp, (change n).member = n.member) :
    (hub.alterApp index change).members = hub.members := by
  apply List.ext_getElem?
  intro k
  simp only [members, alterApp, List.getElem?_map, List.getElem?_modify]
  cases hub.apps[k]? with
  | none => rfl
  | some app =>
    by_cases hk : index = k
    · simp [hk, App.alter, keeps]
    · simp [hk]

theorem loopSide_alterApp (hub : Hub σ) (index : Nat) {change : Nanoapp → Nanoapp}
    (keeps : ∀ n : Nanoapp, (change n).member = n.member) :
    (hub.alterApp index change).loopSide = hub.loopSide := by
  have hmembers := members_alterApp hub index keeps
  simp only [loopSide, hmembers]
  rfl

theorem losses_rollWakeups (hub : Hub σ) : hub.rollWakeups.losses = hub.losses := by
  unfold rollWakeups
  split
  next => rfl
  next => rfl

theorem losses_checkLatency (hub : Hub σ) (event : Event) (receiver : UInt16) :
    (hub.checkLatency event receiver).losses = hub.losses := by
  unfold checkLatency
  dsimp only
  split
  next => split <;> rfl
  next => rfl

@[simp] theorem loopSide_rollWakeups (hub : Hub σ) : hub.rollWakeups.loopSide = hub.loopSide := by
  unfold rollWakeups
  split
  next =>
    have hmembers : ({ hub with
        lastRoll := hub.now
        apps := hub.apps.map (App.alter Nanoapp.rollWakeups) } : Hub σ).members = hub.members := by
      rw [members, List.map_map]
      rfl
    rw [loopSide_record _ rfl]
    simp only [loopSide, hmembers]
    rfl
  next => rfl

@[simp] theorem loopSide_checkLatency (hub : Hub σ) (event : Event) (receiver : UInt16) :
    (hub.checkLatency event receiver).loopSide = hub.loopSide := by
  unfold checkLatency
  dsimp only
  split
  next => split <;> rfl
  next => rfl

theorem announcements_rollWakeups (hub : Hub σ) :
    announcements hub.rollWakeups.journal = announcements hub.journal := by
  unfold rollWakeups
  split
  next => rfl
  next => rfl

theorem announcements_checkLatency (hub : Hub σ) (event : Event) (receiver : UInt16) :
    announcements (hub.checkLatency event receiver).journal = announcements hub.journal := by
  unfold checkLatency
  dsimp only
  split
  next => split <;> rfl
  next => rfl

theorem length_members (hub : Hub σ) : hub.members.length = hub.apps.length :=
  List.length_map _

end Hub

def Actor.place? {r : Reach} {a : Answer} : Actor σ r a → Option Nat
  | .start index _ _ | .entry index _ _ => some index
  | _ => none

namespace Routine

/-- The event that the code is about to post as one that may be dropped, as it is handed over. -/
def droppable? (hub : Hub σ) {r : Reach} {a : Answer} (actor : Actor σ r a)
    (routine : Routine σ r a) : Option Event :=
  match r, a, actor, routine with
  | _, _, _, .postLow event _ _ => some { event with lowPriority := true }
  | _, _, actor, .send event _ _ =>
    (hub.apps[actor.index]?).map fun app =>
      { event with sender := app.nanoapp.info.instanceId, lowPriority := true }
  | _, _, _, _ => none

/-- The outcomes of a step of code. -/
inductive Outcome (hub : Hub σ) :
    {r : Reach} → {a : Answer} → Actor σ r a → Routine σ r a → Hub σ → List (Frame σ) → Prop
  /-- The code goes on, and nothing has changed for the loop or for events. -/
  | quiet {r a hub'} {actor : Actor σ r a} {routine next} (calm : hub.Calm hub')
      (side : hub'.loopSide = hub.loopSide)
      (mute : announcements hub'.journal = announcements hub.journal)
      (losses : hub'.losses = hub.losses := by rfl) :
      Outcome hub actor routine hub' [.code actor next]
  /-- An app changes what it is registered for. -/
  | tuned {a} {actor : Actor σ .app a} {routine next registrations} :
      Outcome hub actor routine
        (hub.alterApp actor.index fun n => { n with registrations := registrations })
        [.code actor next]
  | post {r a way event completion hub' upper} {actor : Actor σ r a} {routine next}
      (kind : Hub.Matches way event completion)
      (posted : (hub.offer way event completion).2.Posted (hub.offer way event completion).1
        hub' upper)
      (low : way = .low → routine.droppable? hub actor = some event) :
      Outcome hub actor routine hub' (upper ++ [.code actor next])
  | load {actor : LoopActor} {routine app client hub' frames}
      (h : hub.load app client = .go hub' frames) : Outcome hub (.loop actor) routine hub' frames
  | unload {actor : LoopActor} {routine app next} (mem : app ∈ hub.apps) :
      Outcome hub (.loop actor) routine hub
        [.code (.handle (.flushMessages app.nanoapp.info))
          (hub.collaborators.flushMessages app.nanoapp.info),
          .mark app.nanoapp.info true, .code (.loop actor) next]
  | idle {actor : LoopActor} {routine next} :
      Outcome hub (.loop actor) routine hub [.idle 0 actor next]
  | run {actor : LoopActor} {routine next} :
      Outcome hub (.loop actor) routine (hub.log (.running hub.pool.capacity))
        [.serve, .code (.loop actor) next]
  | deliver {actor : LoopActor} {routine index app event next} (ha : hub.apps[index]? = some app) :
      Outcome hub (.loop actor) routine (hub.deliverTo index app none event false).1
        ((hub.deliverTo index app none event false).2 ++ [.code (.loop actor) next])
  | message {actor : LoopActor} {routine appId instanceId closure next}
      (owner : hub.instanceOfApp? appId = some instanceId) :
      Outcome hub (.loop actor) routine (hub.setCurrent (some instanceId))
        [.code (.handle (.message instanceId)) closure, .restore hub.current,
          .code (.loop actor) next]
  /-- Code that is not an app's ends. -/
  | ended {r a hub'} {actor : Actor σ r a} {routine} (place : actor.place? = none)
      (calm : hub.Calm hub') (side : hub'.loopSide = hub.loopSide)
      (mute : announcements hub'.journal = announcements hub.journal)
      (losses : hub'.losses = hub.losses := by rfl) :
      Outcome hub actor routine hub' []
  | started {index stopping client ok hub' frames}
      (h : hub.finishStart index client ok = .go hub' frames) :
      Outcome hub (.start index stopping client) (.done ok) hub' frames
  | left {index stopping point} :
      Outcome hub (.entry index stopping point) (.done ())
        (hub.record (.left (hub.loadAt index) point)) []

variable {hub hub' : Hub σ} {frames : List (Frame σ)}

private theorem outcome_droppable {r : Reach} {a : Answer} {actor : Actor σ r a} {event : Event}
    {routine : Routine σ r a} (free : Option (FreeCallback σ)) (next : Bool → Routine σ r a)
    (low : event.lowPriority = true) (posts : routine.droppable? hub actor = some event) :
    Outcome hub actor routine
      ((hub.offer .low event (.ofCallback free)).2.postDroppable
        (hub.offer .low event (.ofCallback free)).1).2.1
      (((hub.offer .low event (.ofCallback free)).2.postDroppable
        (hub.offer .low event (.ofCallback free)).1).2.2 ++
      [.code actor (next ((hub.offer .low event (.ofCallback free)).2.postDroppable
        (hub.offer .low event (.ofCallback free)).1).1)]) :=
  .post (.low free low) (Hub.posted_of_postDroppable (Hub.ofCallback_ne_work free) low)
    fun _ => posts

/-- Every step of code has one of the outcomes, where an app whose code runs is loaded. -/
theorem step_outcome {r : Reach} {a : Answer} {actor : Actor σ r a} {routine : Routine σ r a}
    (placed : ∀ i, actor.place? = some i → i < hub.apps.length)
    (h : routine.step hub actor = .go hub' frames) :
    Outcome hub actor routine hub' frames := by
  have app? : ∀ {a} {actor : Actor σ .app a}, (∀ i, actor.place? = some i → i < hub.apps.length) →
      ∃ app, hub.apps[actor.index]? = some app := by
    intro a actor hp
    cases actor with
    | start index => exact ⟨_, List.getElem?_eq_getElem (hp index rfl)⟩
    | entry index => exact ⟨_, List.getElem?_eq_getElem (hp index rfl)⟩
  cases routine with
  | «recall» next =>
    cases h
    exact .quiet (.refl hub) rfl rfl
  | store memory next =>
    simp only [step] at h
    cases h
    exact .quiet ((Hub.Calm.refl hub).same rfl rfl rfl rfl) rfl rfl
  | note line next =>
    cases h
    exact .quiet ((Hub.Calm.refl hub).record rfl) rfl rfl
  | pause nanoseconds next =>
    cases h
    exact .quiet ((Hub.Calm.refl hub).same rfl rfl rfl rfl) rfl rfl
  | observe next =>
    cases h
    exact .quiet (.refl hub) rfl rfl
  | post event free next =>
    simp only [step] at h
    obtain ⟨upper, hgo, rfl⟩ := Effect.above_eq_go.mp h
    exact .post (.critical event free)
      (Hub.posted_of_postCritical (Hub.ofCallback_ne_work free) rfl rfl hgo) nofun
  | postLow event free next =>
    simp only [step] at h
    cases h
    exact outcome_droppable free next rfl rfl
  | request work next =>
    simp only [step] at h
    obtain ⟨upper, hgo, rfl⟩ := Effect.above_eq_go.mp h
    exact .post (.work work) (Hub.posted_of_request hgo) (by cases work <;> nofun)
  | lookInward next =>
    obtain ⟨app, ha⟩ := app? placed
    simp only [step, ha] at h
    cases h
    exact .quiet (.refl hub) rfl rfl
  | send event free next =>
    obtain ⟨app, ha⟩ := app? placed
    simp only [step, ha] at h
    cases h
    exact outcome_droppable free next rfl (by simp only [droppable?, ha, Option.map_some])
  | register type mask next =>
    obtain ⟨app, ha⟩ := app? placed
    simp only [step, ha] at h
    cases h
    exact .tuned
  | unregister type mask next =>
    obtain ⟨app, ha⟩ := app? placed
    simp only [step, ha] at h
    cases h
    exact .tuned
  | blame next =>
    cases h
    refine .quiet (((Hub.Calm.refl hub).alterApp _ _).record rfl) ?_ rfl
    rw [Hub.loopSide_record _ rfl]
    exact Hub.loopSide_alterApp _ _ fun _ => rfl
  | inspect next =>
    cases h
    exact .quiet (.refl hub) rfl rfl
  | start app next =>
    cases actor with
    | loop actor => exact .load h
  | unload instanceId force next =>
    cases actor with
    | loop actor =>
      simp only [step] at h
      rcases Hub.unload_cases hub instanceId force true with
        ⟨-, hu⟩ | ⟨-, hu⟩ | ⟨app, mem, -, hu⟩
      · rw [hu] at h
        cases h
        exact .quiet ((Hub.Calm.refl hub).log rfl) rfl rfl
      · rw [hu] at h
        cases h
        exact .quiet ((Hub.Calm.refl hub).log rfl) rfl rfl
      · rw [hu] at h
        cases h
        exact .unload mem
  | runUntilIdle next =>
    cases actor with
    | loop actor =>
      cases h
      exact .idle
  | run next =>
    cases actor with
    | loop actor =>
      cases h
      exact .run
  | deliver instanceId type payload next =>
    cases actor with
    | loop actor =>
      simp only [step] at h
      rcases Hub.deliverDirect_cases hub instanceId type payload with
        hd | ⟨index, app, event, -, ha, -, hd⟩
      · rw [hd] at h
        cases h
        exact .quiet (.refl hub) rfl rfl
      · rw [hd] at h
        cases h
        exact .deliver ha
  | rollWakeups next =>
    cases h
    exact .quiet (.rollWakeups (.refl hub)) (Hub.loopSide_rollWakeups hub)
      (Hub.announcements_rollWakeups hub) (Hub.losses_rollWakeups hub)
  | freeMessage appId closure next =>
    cases actor with
    | loop actor =>
      simp only [step] at h
      rcases Hub.freeMessage_cases hub appId closure with hm | ⟨instanceId, owner, hm⟩
      · rw [hm] at h
        cases h
        exact .quiet ((Hub.Calm.refl hub).log rfl) rfl rfl
      · rw [hm] at h
        cases h
        exact .message owner
  | done value =>
    cases actor with
    | loop actor =>
      cases h
      exact .ended rfl (.refl hub) rfl rfl
    | handle purpose =>
      cases h
      exact .ended rfl (.refl hub) rfl rfl
    | release kind info =>
      simp only [step] at h
      split at h
      next =>
        cases h
        exact .ended rfl (.refl hub) rfl rfl
      next =>
        cases h
        exact .ended rfl ((Hub.Calm.refl hub).log rfl) rfl rfl
    | start index stopping client => exact .started h
    | entry index stopping point =>
      cases h
      exact .left

end Routine

end SensorHub
