import SensorHub.Proofs.Estate
import SensorHub.Proofs.Receipts
import SensorHub.Proofs.Stopping

namespace SensorHub

variable {σ : Type}

/-- The entry point of an app that begins to run, with the load of the app. -/
def Incident.call? : Incident → Option (Nat × EntryPoint)
  | .entered load _ point _ => some (load, point)
  | _ => none

/-- The calls of entry points of apps, in the order in which they began. -/
def calls (journal : List Incident) : List (Nat × EntryPoint) :=
  (journal.filterMap Incident.call?).reverse

theorem calls_cons (incident : Incident) (journal : List Incident) :
    calls (incident :: journal) = calls journal ++ incident.call?.toList := by
  cases h : incident.call? with
  | none =>
    rw [calls, List.filterMap_cons_none h, calls]
    simp
  | some call =>
    rw [calls, List.filterMap_cons_some h, List.reverse_cons, calls]
    rfl

theorem Effect.above_ne_wait {effect : Effect σ} {frames : List (Frame σ)} (h : effect ≠ .wait) :
    effect.above frames ≠ .wait := by
  intro hwait
  cases effect with
  | go | fail => cases hwait
  | wait => exact h rfl

/-- What there is of an app besides what it is registered for: its load, its code for events, and
how many events it has processed. -/
structure Standing (σ : Type) where
  load : Nat
  onEvent : Event → Bool → Routine σ .app .nothing
  processed : UInt64

def App.standing (app : App σ) : Standing σ :=
  ⟨app.nanoapp.load, app.onEvent, app.nanoapp.eventsProcessed⟩

def Standing.counted (standing : Standing σ) : Standing σ :=
  { standing with processed := standing.processed + 1 }

namespace Hub

variable {hub hub' : Hub σ} {posting : Posting σ} {frames : List (Frame σ)}

/-- How the loaded apps stand, oldest load first, and how many events found no app. -/
def standings (hub : Hub σ) : List (Standing σ) × UInt32 :=
  (hub.apps.map App.standing, hub.undelivered)

theorem calls_deeds (hub : Hub σ) : calls hub.deeds = calls hub.journal := by
  rw [calls, deeds, List.filterMap_filter, calls]
  congr 1
  refine List.filterMap_congr fun i _ => ?_
  cases i <;> rfl

theorem calls_of_loopSide (h : hub'.loopSide = hub.loopSide) :
    calls hub'.journal = calls hub.journal := by
  have hdeeds : hub'.deeds = hub.deeds := congrArg LoopSide.deeds h
  rw [← calls_deeds, hdeeds, calls_deeds]

theorem standings_of_estate (h : hub'.estate = hub.estate) : hub'.standings = hub.standings := by
  have happs : hub'.apps = hub.apps := congrArg Estate.apps h
  have hundelivered : hub'.undelivered = hub.undelivered := congrArg Estate.undelivered h
  rw [standings, standings, happs, hundelivered]

theorem standings_checkLatency (hub : Hub σ) (event : Event) (receiver : UInt16) :
    (hub.checkLatency event receiver).standings = hub.standings := by
  unfold checkLatency
  dsimp only
  split
  next => split <;> rfl
  next => rfl

theorem postRunning_ne_wait (hub : Hub σ) (posting : Posting σ) :
    hub.postRunning posting ≠ .wait := by
  intro hwait
  unfold postRunning at hwait
  split at hwait <;> cases hwait

theorem postCritical_ne_wait (hub : Hub σ) (posting : Posting σ) :
    hub.postCritical posting ≠ .wait := by
  intro hwait
  unfold postCritical at hwait
  split at hwait
  next => exact postRunning_ne_wait _ _ hwait
  next => cases hwait

theorem request_ne_wait (hub : Hub σ) (work : SystemWork σ) : (hub.request work).2 ≠ .wait := by
  intro hwait
  simp only [request] at hwait
  split at hwait
  next => exact postRunning_ne_wait _ _ hwait
  next => cases hwait

theorem standings_alterApp (hub : Hub σ) (index : Nat) {change : Nanoapp → Nanoapp}
    (keeps : ∀ n : Nanoapp, (change n).load = n.load ∧
      (change n).eventsProcessed = n.eventsProcessed) :
    (hub.alterApp index change).standings = hub.standings := by
  have happs : (hub.alterApp index change).apps.map App.standing = hub.apps.map App.standing := by
    apply List.ext_getElem?
    intro place
    simp only [alterApp, List.getElem?_map, List.getElem?_modify]
    cases hub.apps[place]? with
    | none => rfl
    | some app =>
      by_cases hplace : index = place
      · simp [hplace, App.alter, App.standing, keeps]
      · simp [hplace]
  exact congrArg (·, hub.undelivered) happs

/-- An event that is counted as processed is counted at one place. -/
theorem standings_finishDelivery (hub : Hub σ) (index place : Nat) :
    (hub.finishDelivery index).standings.1[place]? =
      hub.standings.1[place]?.map fun standing =>
        if place = index then standing.counted else standing := by
  simp only [standings, finishDelivery, setCurrent, alterApp, List.getElem?_map,
    List.getElem?_modify, Option.map_map]
  cases hub.apps[place]? with
  | none => rfl
  | some app =>
    by_cases hplace : index = place
    · simp [hplace, App.alter, App.standing, Standing.counted, Nanoapp.countEvent]
    · simp [hplace, Ne.symm hplace]

end Hub

namespace Frame

variable {hub hub' : Hub σ} {frame : Frame σ} {frames : List (Frame σ)}

/-- The frame runs code with which an app handles an event, or what such code sets off. -/
def isHandling : Frame σ → Bool
  | .code (.entry _ _ _) _ => true
  | frame => frame.isLight

theorem isHandling_of_isLight (h : frame.isLight = true) : frame.isHandling = true := by
  cases frame with
  | code actor routine =>
    cases actor with
    | handle | release => rfl
    | _ => cases h
  | evict | vacate | enqueue => rfl
  | _ => cases h

theorem isGuest_of_isHandling (h : frame.isHandling = true) : frame.isGuest = true := by
  cases frame with
  | code actor routine =>
    cases actor with
    | handle | release | entry => rfl
    | _ => cases h
  | evict | vacate | enqueue => rfl
  | _ => cases h

/-- Code with which an app handles an event leaves alone how apps stand. -/
private theorem standings_entry {index : Nat} {stopping : Bool} {point : EntryPoint}
    {routine : Routine σ .app .nothing}
    (h : (Frame.code (.entry index stopping point) routine).step hub = .go hub' frames) :
    hub'.standings = hub.standings := by
  rcases code_tunes rfl (by simp) h with hsame | ⟨place, change, -, hsame, keeps⟩
  · exact Hub.standings_of_estate hsame
  · rw [Hub.standings_of_estate hsame]
    exact Hub.standings_alterApp hub place fun n => ⟨(keeps n).1, (keeps n).2.2⟩

/-- Code that does not hold the loop goes on below what it sets off, or is over. It calls no entry
point and announces nothing, unless an app's first entry point has ended. -/
theorem code_works {r : Reach} {a : Answer} {actor : Actor σ r a} {routine : Routine σ r a}
    (apart : actor.isLoop = false) (placed : ∀ i, actor.place? = some i → i < hub.apps.length)
    (unended : ∀ index stopping client ok,
      Frame.code actor routine ≠ .code (.start index stopping client) (.done ok))
    (h : routine.step hub actor = .go hub' frames) :
    calls hub'.journal = calls hub.journal ∧
      announcements hub'.journal = announcements hub.journal ∧
      (frames = [] ∧ (∀ index stopping client other,
          Frame.code actor routine ≠ .code (.start index stopping client) other) ∨
        ∃ upper next, frames = upper ++ [.code actor next] ∧
          (upper = [] ∨ ∃ (hub₁ : Hub σ) (posting : Posting σ), hub₁.Posted posting hub' upper)) := by
  cases Routine.step_outcome placed h with
  | @quiet _ _ _ _ _ next calm side mute =>
    exact ⟨Hub.calls_of_loopSide side, mute, .inr ⟨[], next, rfl, .inl rfl⟩⟩
  | @tuned _ _ _ next => exact ⟨rfl, rfl, .inr ⟨[], next, rfl, .inl rfl⟩⟩
  | @post _ _ _ _ _ _ upper _ _ next kind posted =>
    have side := (Hub.loopSide_posted posted).trans (Hub.loopSide_offer ..)
    have mute := Hub.announcements_posted posted
    exact ⟨Hub.calls_of_loopSide side, mute, .inr ⟨upper, next, rfl, .inr ⟨_, _, posted⟩⟩⟩
  | ended place calm side mute =>
    refine ⟨Hub.calls_of_loopSide side, mute, .inl ⟨rfl, fun index stopping client other he => ?_⟩⟩
    cases he
    cases place
  | @started index stopping client ok => exact absurd rfl (unended index stopping client ok)
  | left => exact ⟨(calls_cons ..).trans (List.append_nil _), rfl, .inl ⟨rfl, by simp⟩⟩
  | load | unload | idle | run | deliver | message => cases apart

/-- Code with which an app handles an event, and what such code sets off, calls no entry point. -/
private theorem calls_entry {index : Nat} {stopping : Bool} {point : EntryPoint}
    {routine : Routine σ .app .nothing} (placed : index < hub.apps.length)
    (h : (Frame.code (.entry index stopping point) routine).step hub = .go hub' frames) :
    calls hub'.journal = calls hub.journal ∧ ∀ f ∈ frames, f.isHandling = true := by
  have placed' : ∀ i, (Actor.entry index stopping point : Actor σ _ _).place? = some i →
      i < hub.apps.length := by
    intro i hi
    cases hi
    exact placed
  obtain ⟨hcalls, -, ⟨rfl, -⟩ | ⟨upper, next, rfl, hupper⟩⟩ := code_works rfl placed' (by simp) h
  · exact ⟨hcalls, by simp⟩
  · refine ⟨hcalls, fun f hf => ?_⟩
    rcases List.mem_append.mp hf with hf | hf
    · rcases hupper with rfl | ⟨hub₁, posting, posted⟩
      · cases hf
      · exact isHandling_of_isLight (Hub.isLight_posted posted f hf)
    · rw [List.mem_singleton.mp hf]
      rfl

/-- While an app handles an event, no entry point is called and no app stands differently. -/
theorem step_handling (placed : ∀ i, frame.index? = some i → i < hub.apps.length)
    (handling : frame.isHandling = true) (h : frame.step hub = .go hub' frames) :
    calls hub'.journal = calls hub.journal ∧ hub'.standings = hub.standings ∧
      ∀ f ∈ frames, f.isHandling = true := by
  have light : frame.isLight = true → calls hub'.journal = calls hub.journal ∧
      hub'.standings = hub.standings ∧ ∀ f ∈ frames, f.isHandling = true := by
    intro hlight
    obtain ⟨side, lights⟩ := step_light hlight h
    exact ⟨Hub.calls_of_loopSide side, Hub.standings_of_estate (estate_light hlight h),
      fun f hf => isHandling_of_isLight (lights f hf)⟩
  cases frame with
  | code actor routine =>
    cases actor with
    | handle | release => exact light rfl
    | entry index =>
      obtain ⟨hcalls, hframes⟩ := calls_entry (placed index rfl) h
      exact ⟨hcalls, standings_entry h, hframes⟩
    | loop | start => cases handling
  | evict | vacate | enqueue => exact light rfl
  | _ => cases handling

end Frame

namespace Hub

def receivers (hub : Hub σ) (event : Event) (seat : Nat) : List (App σ) :=
  (hub.apps.take seat).filter fun app => wanted event app.nanoapp

def callOf (posting : Posting σ) (app : App σ) : Nat × EntryPoint :=
  (app.nanoapp.load, .event (some posting.serial))

/-- An app as it stands when the event has been distributed to it, if it was to receive it. -/
def afterwards (event : Event) (app : App σ) : Standing σ :=
  if wanted event app.nanoapp then app.standing.counted else app.standing

variable {hub hub' first : Hub σ} {posting : Posting σ} {seat served place : Nat} {app : App σ}

theorem receivers_succ (event : Event) (h : hub.apps[seat]? = some app) :
    hub.receivers event (seat + 1) =
      hub.receivers event seat ++ if wanted event app.nanoapp then [app] else [] := by
  rw [receivers, List.take_add_one, h, Option.toList_some, List.filter_append, receivers]
  congr 1
  simp only [List.filter_cons, List.filter_nil]

/-- The event has been brought to the apps in front of a seat. Those of them that were to receive it
were called, and the first `served` of them have returned; the others are as they were at first. -/
structure Visited (first hub : Hub σ) (posting : Posting σ) (seat served : Nat) : Prop where
  same : ∀ place, seat ≤ place → hub.members[place]? = first.members[place]?
  calls : calls hub.journal = SensorHub.calls first.journal ++
    (first.receivers posting.event seat).map (callOf posting)
  standings : ∀ place, hub.standings.1[place]? = first.apps[place]?.map fun app =>
    if place < served then afterwards posting.event app else app.standing
  undelivered : hub.standings.2 = first.standings.2

namespace Visited

theorem refl (first : Hub σ) (posting : Posting σ) : first.Visited first posting 0 0 where
  same _ _ := rfl
  calls := (List.append_nil _).symm
  standings _ := List.getElem?_map ..
  undelivered := rfl

/-- Neither a call nor a delivery, and the apps from the seat on are left alone. -/
theorem unchanged (v : first.Visited hub posting seat served)
    (same : ∀ place, seat ≤ place → hub'.members[place]? = hub.members[place]?)
    (calls : SensorHub.calls hub'.journal = SensorHub.calls hub.journal)
    (standings : hub'.standings = hub.standings) :
    first.Visited hub' posting seat served where
  same place hle := (same place hle).trans (v.same place hle)
  calls := calls.trans v.calls
  standings place := by
    rw [standings]
    exact v.standings place
  undelivered := by
    rw [standings]
    exact v.undelivered

/-- The app at the seat is the one that was there at first, and it wants what it wanted then. -/
theorem app_at (v : first.Visited hub posting seat seat) (h : hub.apps[seat]? = some app) :
    ∃ old, first.apps[seat]? = some old ∧ old.standing = app.standing ∧
      wanted posting.event old.nanoapp = wanted posting.event app.nanoapp := by
  have hmember := v.same seat (Nat.le_refl _)
  have hstanding := v.standings seat
  have hhere : hub.standings.1[seat]? = some app.standing :=
    (List.getElem?_map ..).trans (congrArg (Option.map App.standing) h)
  rw [getElem?_members, getElem?_members, h] at hmember
  rw [hhere] at hstanding
  cases hold : first.apps[seat]? with
  | none =>
    rw [hold] at hmember
    cases hmember
  | some old =>
    rw [hold] at hmember hstanding
    have hmember' : app.nanoapp.member = old.nanoapp.member := Option.some.inj hmember
    have hstanding' : app.standing = old.standing := by
      simpa using hstanding
    have hwanted : old.nanoapp.member.wants posting.event =
        app.nanoapp.member.wants posting.event :=
      congrArg (Member.wants posting.event) hmember'.symm
    exact ⟨old, rfl, hstanding'.symm, hwanted⟩

theorem skip (v : first.Visited hub posting seat seat) (h : first.apps[seat]? = some app)
    (unwanted : wanted posting.event app.nanoapp = false) :
    first.Visited hub posting (seat + 1) (seat + 1) where
  same place hle := v.same place (Nat.le_of_succ_le hle)
  calls := by
    rw [receivers_succ _ h, unwanted]
    simpa using v.calls
  standings place := by
    rw [v.standings place]
    rcases Nat.lt_trichotomy place seat with hlt | rfl | hgt
    · simp [hlt, Nat.lt_succ_of_lt hlt]
    · simp [h, afterwards, unwanted]
    · have hnot : ¬place < seat + 1 := by omega
      simp [Nat.not_lt_of_gt hgt, hnot]
  undelivered := v.undelivered

theorem call (v : first.Visited hub posting seat seat) (h : first.apps[seat]? = some app)
    (hwanted : wanted posting.event app.nanoapp = true)
    (members : hub'.members = hub.members) (standings : hub'.standings = hub.standings)
    (called : SensorHub.calls hub'.journal = SensorHub.calls hub.journal ++ [callOf posting app]) :
    first.Visited hub' posting (seat + 1) seat where
  same place hle := by
    rw [members]
    exact v.same place (Nat.le_of_succ_le hle)
  calls := by
    rw [called, v.calls, receivers_succ _ h, hwanted, if_pos rfl, List.map_append,
      List.append_assoc]
    rfl
  standings place := by
    rw [standings]
    exact v.standings place
  undelivered := by
    rw [standings]
    exact v.undelivered

theorem finish (v : first.Visited hub posting (seat + 1) seat) (h : first.apps[seat]? = some app)
    (hwanted : wanted posting.event app.nanoapp = true) :
    first.Visited (hub.finishDelivery seat) posting (seat + 1) (seat + 1) where
  same place hle := by
    have hmembers : (hub.alterApp seat Nanoapp.countEvent).members = hub.members :=
      members_alterApp hub seat fun _ => rfl
    show (hub.alterApp seat Nanoapp.countEvent).members[place]? = _
    rw [hmembers]
    exact v.same place hle
  calls := v.calls
  standings place := by
    rw [standings_finishDelivery, v.standings place, Option.map_map]
    rcases Nat.lt_trichotomy place seat with hlt | rfl | hgt
    · have hne : place ≠ seat := by omega
      simp [Function.comp_def, hlt, hne, Nat.lt_succ_of_lt hlt]
    · simp [h, afterwards, hwanted]
    · have hne : place ≠ seat := by omega
      have hnot : ¬place < seat + 1 := by omega
      simp [Function.comp_def, Nat.not_lt_of_gt hgt, hne, hnot]
  undelivered := v.undelivered

end Visited

/-- A counter with one more. A full one stays full. -/
def oneMore (count : UInt32) : UInt32 :=
  if count == 4294967295 then count else count + 1

/-- The event has been brought to all apps. -/
structure Distributed (first hub : Hub σ) (posting : Posting σ) : Prop where
  calls : calls hub.journal = SensorHub.calls first.journal ++
    (first.apps.filter fun app => wanted posting.event app.nanoapp).map (callOf posting)
  standings : hub.standings.1 = first.apps.map (afterwards posting.event)
  undelivered : hub.undelivered =
    if posting.event.target ≠ broadcastId ∧ posting.event.target ≠ systemId ∧
        ∀ app ∈ first.apps, app.nanoapp.info.instanceId ≠ posting.event.target then
      oneMore first.undelivered
    else first.undelivered

/-- Nobody is there to receive an event for one app if no app has its instance id. -/
theorem receivers_eq_nil (first : Hub σ) {event : Event} (h : event.target ≠ broadcastId) :
    (first.apps.filter fun app => wanted event app.nanoapp) = [] ↔
      ∀ app ∈ first.apps, app.nanoapp.info.instanceId ≠ event.target := by
  have hsingle : event.isBroadcast = false := by
    rw [Event.isBroadcast, beq_eq_false_iff_ne]
    exact h
  rw [List.filter_eq_nil_iff]
  refine forall₂_congr fun app _ => ?_
  simp only [wanted, hsingle, Bool.false_eq_true, if_false, beq_iff_eq]
  exact ne_comm

/-- When there is no app at the seat, all have been visited. -/
theorem Visited.distributed (v : first.Visited hub posting seat seat)
    (none : hub.apps[seat]? = none) {reached : Bool} {frames : List (Frame σ)}
    (hreached : reached = !(first.receivers posting.event seat).isEmpty)
    (h : hub.offerTo posting seat reached = .go hub' frames) :
    frames = [.complete posting] ∧ SensorHub.calls hub'.journal = SensorHub.calls hub.journal ∧
      first.Distributed hub' posting := by
  have hend : first.members[seat]? = Option.none := by
    rw [← v.same seat (Nat.le_refl _), getElem?_members, none]
    rfl
  have hlength : first.apps.length ≤ seat := by
    rw [← length_members]
    exact List.getElem?_eq_none_iff.mp hend
  have hall : first.receivers posting.event seat =
      first.apps.filter fun app => wanted posting.event app.nanoapp := by
    rw [receivers, List.take_of_length_le hlength]
  have hcalls := v.calls
  rw [hall] at hcalls hreached
  have hstandings : hub.standings.1 = first.apps.map (afterwards posting.event) := by
    refine List.ext_getElem? fun place => ?_
    rw [v.standings place, List.getElem?_map]
    cases happ : first.apps[place]? with
    | none => rfl
    | some app =>
      have hlt : place < seat :=
        Nat.lt_of_lt_of_le (List.getElem?_eq_some_iff.mp happ).1 hlength
      simp [hlt]
  have hundelivered : hub.undelivered = first.undelivered := v.undelivered
  simp only [offerTo, none] at h
  split at h
  next hmissed =>
    cases h
    simp only [Bool.and_eq_true, Bool.not_eq_true', bne_iff_ne] at hmissed
    obtain ⟨⟨hnobody, hbroadcast⟩, hsystem⟩ := hmissed
    have habsent : ∀ app ∈ first.apps, app.nanoapp.info.instanceId ≠ posting.event.target := by
      rw [← receivers_eq_nil first hbroadcast]
      simpa [hreached] using hnobody
    refine ⟨rfl, rfl, hcalls, hstandings, ?_⟩
    have hcount : (hub.countUndelivered posting.event).undelivered = oneMore hub.undelivered := rfl
    rw [hcount, hundelivered, if_pos ⟨hbroadcast, hsystem, habsent⟩]
  next hmissed =>
    cases h
    refine ⟨rfl, rfl, hcalls, hstandings, ?_⟩
    rw [hundelivered, if_neg]
    rintro ⟨hbroadcast, hsystem, habsent⟩
    rw [← receivers_eq_nil first hbroadcast] at habsent
    rw [habsent] at hreached
    exact hmissed (by simp [hreached, hbroadcast, hsystem])

end Hub

namespace Frame

open Hub

variable {first hub hub' : Hub σ} {frame : Frame σ} {frames above : List (Frame σ)}
  {posting : Posting σ}

/-- How far the distribution of an event has come, by the frames above what goes on after it. -/
inductive Distributing (first : Hub σ) (posting : Posting σ) (hub : Hub σ) :
    List (Frame σ) → Prop
  | offering {upper seat reached} (light : ∀ f ∈ upper, f.isLight = true)
      (visited : first.Visited hub posting seat seat)
      (known : reached = !(first.receivers posting.event seat).isEmpty) :
      Distributing first posting hub (upper ++ [.distribute posting seat reached])
  | handling {upper seat app} (handling : ∀ f ∈ upper, f.isHandling = true)
      (own : ∀ f ∈ upper, ∀ place, f.index? = some place → place = seat)
      (here : first.apps[seat]? = some app) (wanted : wanted posting.event app.nanoapp = true)
      (visited : first.Visited hub posting (seat + 1) seat) :
      Distributing first posting hub
        (upper ++ [.delivered seat, .distribute posting (seat + 1) true])
  | finished (done : first.Distributed hub posting) :
      Distributing first posting hub [.complete posting]

/-- An app that was to receive the event begins to handle it, with the code for events that it had
at first. -/
def Calls (first hub : Hub σ) (posting : Posting σ) (hub' : Hub σ) (frames : List (Frame σ)) :
    Prop :=
  ∃ seat app stopping, first.apps[seat]? = some app ∧ wanted posting.event app.nanoapp = true ∧
    calls hub'.journal = calls hub.journal ++ [callOf posting app] ∧
    frames.head? = some (.code (.entry seat stopping (.event (some posting.serial)))
      (app.onEvent posting.event posting.completion.hasCallback))

/-- An event is offered to the app at the seat, or all apps have been visited. -/
private theorem step_offer {seat : Nat} {reached : Bool}
    (visited : first.Visited hub posting seat seat)
    (hreached : reached = !(first.receivers posting.event seat).isEmpty)
    (h : (Frame.distribute posting seat reached).step hub = .go hub' frames) :
    Distributing first posting hub' frames ∧
      (calls hub'.journal = calls hub.journal ∨ Calls first hub posting hub' frames) := by
  rcases Hub.offerTo_cases h with
    ⟨app, ha, hwanted, rfl, rfl⟩ | ⟨app, ha, hunwanted, rfl, rfl⟩ | ⟨hnone, -, -⟩
  · obtain ⟨old, hold, hstanding, hsame⟩ := visited.app_at ha
    rw [hwanted] at hsame
    have hload : old.nanoapp.load = app.nanoapp.load := congrArg Standing.load hstanding
    have hcode : old.onEvent = app.onEvent := congrArg Standing.onEvent hstanding
    have side := Hub.loopSide_checkLatency hub posting.event app.nanoapp.info.instanceId
    have hcalls : calls (hub.deliverTo seat app (some posting.serial) posting.event
        posting.completion.hasCallback).1.journal = calls hub.journal ++ [callOf posting old] := by
      refine (calls_cons ..).trans ?_
      have hbefore := Hub.calls_of_loopSide side
      rw [callOf, hload]
      exact congrArg (· ++ _) hbefore
    have hmembers : (hub.deliverTo seat app (some posting.serial) posting.event
        posting.completion.hasCallback).1.members = hub.members := by
      have hlatency := Hub.members_of_loopSide side
      exact hlatency
    have hstandings : (hub.deliverTo seat app (some posting.serial) posting.event
        posting.completion.hasCallback).1.standings = hub.standings := by
      have hlatency := Hub.standings_checkLatency hub posting.event app.nanoapp.info.instanceId
      exact hlatency
    have hnext := visited.call hold hsame hmembers hstandings hcalls
    refine ⟨@Distributing.handling _ _ _ _ [_] seat old ?_ ?_ hold hsame hnext,
      .inr ⟨seat, old, (hub.checkLatency posting.event app.nanoapp.info.instanceId).isStopping
        app.nanoapp.info.instanceId, hold, hsame, hcalls, ?_⟩⟩
    · intro f hf
      rw [List.mem_singleton.mp hf]
      rfl
    · intro f hf place hplace
      rw [List.mem_singleton.mp hf] at hplace
      exact (Option.some.inj hplace).symm
    · rw [hcode]
      rfl
  · obtain ⟨old, hold, -, hsame⟩ := visited.app_at ha
    rw [hunwanted] at hsame
    refine ⟨@Distributing.offering _ _ _ _ [] _ _ (by simp) (visited.skip hold hsame) ?_, .inl rfl⟩
    rw [hreached, receivers_succ _ hold, hsame]
    simp
  · obtain ⟨rfl, hcalls, hdone⟩ := visited.distributed hnone hreached h
    exact ⟨.finished hdone, .inl hcalls⟩

/-- A step of code with which an app handles an event leads to such code of the same app, and leaves
the apps behind it alone. -/
private theorem visited_handling {seat served : Nat}
    (placed : ∀ i, frame.index? = some i → i < hub.apps.length)
    (handling : frame.isHandling = true) (own : ∀ place, frame.index? = some place → place < seat)
    (visited : first.Visited hub posting seat served) (h : frame.step hub = .go hub' frames) :
    first.Visited hub' posting seat served ∧ calls hub'.journal = calls hub.journal ∧
      ∀ f ∈ frames, f.isHandling = true ∧
        ∀ place, f.index? = some place → frame.index? = some place := by
  obtain ⟨hcalls, hstandings, hframes⟩ := step_handling placed handling h
  obtain ⟨hindex, hmembers⟩ := step_guest placed (isGuest_of_isHandling handling) h
  refine ⟨visited.unchanged (fun place hle => hmembers place fun hplace => ?_) hcalls hstandings,
    hcalls, fun f hf => ⟨hframes f hf, hindex f hf⟩⟩
  exact absurd (own place hplace) (Nat.not_lt_of_le hle)

/-- Until the event is to be completed, every step brings its distribution forward. If a step calls
an entry point, it lets an app that was to receive the event handle it. -/
theorem Distributing.step (placed : ∀ i, frame.index? = some i → i < hub.apps.length)
    (hd : Distributing first posting hub (frame :: above))
    (going : frame :: above ≠ [.complete posting]) (h : frame.step hub = .go hub' frames) :
    Distributing first posting hub' (frames ++ above) ∧
      (calls hub'.journal = calls hub.journal ∨ Calls first hub posting hub' frames) := by
  generalize hupper : frame :: above = upper at hd
  cases hd with
  | offering light visited known =>
    rcases List.cons_eq_append_iff.mp hupper with ⟨-, hfirst⟩ | ⟨x, rfl, rfl⟩
    · cases hfirst
      rw [List.append_nil]
      exact step_offer visited known h
    · have hlight := light frame (List.mem_cons_self ..)
      obtain ⟨-, lights⟩ := step_light hlight h
      obtain ⟨visited', hcalls, -⟩ := visited_handling placed (isHandling_of_isLight hlight)
        (fun place hplace => by rw [index?_of_isLight hlight] at hplace; cases hplace) visited h
      rw [← List.append_assoc frames x]
      refine ⟨.offering (fun f hf => ?_) visited' known, .inl hcalls⟩
      rcases List.mem_append.mp hf with hf | hf
      · exact lights f hf
      · exact light f (List.mem_cons_of_mem _ hf)
  | @handling _ seat app handling own here wanted visited =>
    rcases List.cons_eq_append_iff.mp hupper with ⟨-, hfirst⟩ | ⟨x, rfl, rfl⟩
    · cases hfirst
      cases h
      refine ⟨@Distributing.offering _ _ _ _ [] _ _ (by simp) (visited.finish here wanted) ?_,
        .inl rfl⟩
      rw [receivers_succ _ here, wanted]
      simp
    · have hown : ∀ place, frame.index? = some place → place < seat + 1 := by
        intro place hplace
        rw [own frame (List.mem_cons_self ..) place hplace]
        exact Nat.lt_succ_self seat
      obtain ⟨visited', hcalls, hframes⟩ := visited_handling placed
        (handling frame (List.mem_cons_self ..)) hown visited h
      rw [← List.append_assoc frames x]
      refine ⟨.handling (fun f hf => ?_) (fun f hf place hplace => ?_) here wanted visited',
        .inl hcalls⟩
      · rcases List.mem_append.mp hf with hf | hf
        · exact (hframes f hf).1
        · exact handling f (List.mem_cons_of_mem _ hf)
      · rcases List.mem_append.mp hf with hf | hf
        · exact own frame (List.mem_cons_self ..) place ((hframes f hf).2 place hplace)
        · exact own f (List.mem_cons_of_mem _ hf) place hplace
  | finished => exact absurd hupper going

theorem Distributing.interrupt {upper : List (Frame σ)} (hd : Distributing first posting hub upper)
    (going : upper ≠ [.complete posting]) (routine : Routine σ .handle .nothing) :
    Distributing first posting hub (.code (.handle .foreign) routine :: upper) := by
  cases hd with
  | @offering x _ _ light visited known =>
    refine @Distributing.offering _ _ _ _ (.code (.handle .foreign) routine :: x) _ _
      (fun f hf => ?_) visited known
    rcases List.mem_cons.mp hf with rfl | hf
    · rfl
    · exact light f hf
  | @handling x _ _ handling own here wanted visited =>
    refine @Distributing.handling _ _ _ _ (.code (.handle .foreign) routine :: x) _ _
      (fun f hf => ?_) (fun f hf place hplace => ?_) here wanted visited
    · rcases List.mem_cons.mp hf with rfl | hf
      · rfl
      · exact handling f hf
    · rcases List.mem_cons.mp hf with rfl | hf
      · cases hplace
      · exact own f hf place hplace
  | finished => exact absurd rfl going

/-- Code with which an app handles an event, and what such code sets off, waits for nothing. -/
theorem handling_goes_on (handling : frame.isHandling = true) : frame.step hub ≠ .wait := by
  intro hwait
  cases frame with
  | code actor routine =>
    cases routine with
    | post => exact Effect.above_ne_wait (Hub.postCritical_ne_wait _ _) hwait
    | request => exact Effect.above_ne_wait (Hub.request_ne_wait _ _) hwait
    | lookInward | send | register | unregister =>
      simp only [Frame.step, Routine.step] at hwait
      split at hwait <;> cases hwait
    | inspect | start | unload | runUntilIdle | run | deliver | rollWakeups | freeMessage =>
      cases actor
      cases handling
    | done value =>
      cases actor with
      | loop | start => cases handling
      | handle | release | entry => cases hwait
    | «recall» | store | note | pause | observe | postLow | blame => cases hwait
  | evict handles => cases handles <;> cases hwait
  | vacate => cases hwait
  | enqueue posting =>
    simp only [Frame.step] at hwait
    split at hwait <;> cases hwait
  | _ => cases handling

theorem distributing_nonempty : ¬Distributing first posting hub [] := by
  intro hd
  generalize hnil : ([] : List (Frame σ)) = upper at hd
  cases hd with
  | offering | handling => simp at hnil
  | finished => cases hnil

theorem Distributing.completes (hd : Distributing first posting hub [.complete posting]) :
    first.Distributed hub posting := by
  generalize hupper : [(.complete posting : Frame σ)] = upper at hd
  cases hd with
  | offering light =>
    rcases List.cons_eq_append_iff.mp hupper with ⟨-, hfirst⟩ | ⟨x, rfl, -⟩
    · cases hfirst
    · cases light _ (List.mem_cons_self ..)
  | handling handling =>
    rcases List.cons_eq_append_iff.mp hupper with ⟨-, hfirst⟩ | ⟨x, rfl, -⟩
    · cases hfirst
    · cases handling _ (List.mem_cons_self ..)
  | finished done => exact done

/-- A distribution goes on until it comes to the completion of the event or the hub fails. -/
theorem Distributing.goes_on (hd : Distributing first posting hub (frame :: above))
    (going : frame :: above ≠ [.complete posting]) : frame.step hub ≠ .wait := by
  intro hwait
  generalize hupper : frame :: above = upper at hd
  cases hd with
  | offering light =>
    rcases List.cons_eq_append_iff.mp hupper with ⟨-, hfirst⟩ | ⟨x, rfl, rfl⟩
    · cases hfirst
      simp only [Frame.step, Hub.offerTo] at hwait
      split at hwait
      · split at hwait <;> cases hwait
      · cases hwait
    · have hlight := light frame (List.mem_cons_self ..)
      exact handling_goes_on (isHandling_of_isLight hlight) hwait
  | handling handling =>
    rcases List.cons_eq_append_iff.mp hupper with ⟨-, hfirst⟩ | ⟨x, rfl, rfl⟩
    · cases hfirst
      cases hwait
    · exact handling_goes_on (handling frame (List.mem_cons_self ..)) hwait
  | finished => exact absurd hupper going

end Frame

namespace Hub

variable {hub hub₁ hub' : Hub σ} {posting : Posting σ} {handle : Handle}

/-- What a slot holds afterwards it held before, or it has been admitted since. -/
def Restocks (hub hub' : Hub σ) : Prop :=
  ∀ k p, hub'.pool.inspect k = some p → hub.pool.inspect k = some p ∨
    ∃ q now, p = Posting.stamped q now ∧ .admitted q.serial now ∈ hub'.journal

theorem Restocks.of_inspect (h : ∀ k p, hub'.pool.inspect k = some p →
    hub.pool.inspect k = some p) : hub.Restocks hub' :=
  fun k p hp => .inl (h k p hp)

theorem Restocks.of_pool (h : hub'.pool = hub.pool) : hub.Restocks hub' :=
  .of_inspect fun k p hp => by rwa [← h]

theorem Restocks.of_calm (h : hub.Calm hub') : hub.Restocks hub' :=
  .of_inspect fun k p hp => by rwa [← h.inspect k]

theorem Restocks.calm_left (calm : hub.Calm hub₁) (h : hub₁.Restocks hub') : hub.Restocks hub' := by
  intro k p hp
  rw [← calm.inspect k]
  exact h k p hp

theorem Restocks.of_admits (h : hub.Admits posting handle hub') : hub.Restocks hub' := by
  intro k p hp
  rw [h.inspect] at hp
  split at hp
  next =>
    obtain ⟨news, hj, -⟩ := h.journal
    refine .inr ⟨posting, hub.now, (Option.some.inj hp).symm, ?_⟩
    rw [hj]
    exact List.mem_cons_self ..
  next => exact .inl hp

/-- An event that leaves its slot leaves the others as they are. -/
theorem inspect_of_take {k : Handle} {p : Posting σ}
    (h : (hub.take handle).2.pool.inspect k = some p) : hub.pool.inspect k = some p := by
  have hclear : (hub.pool.clear handle).inspect k = some p := h
  rw [Pool.inspect_clear] at hclear
  split at hclear
  next => cases hclear
  next => exact hclear

theorem restocks_posted {live : List Handle} (hs : hub.pool.Sound live) {frames : List (Frame σ)}
    (h : hub.Posted posting hub' frames) : hub.Restocks hub' := by
  cases h with
  | queued _ he =>
    obtain ⟨handle, admits, -⟩ := enqueue_true hs he
    exact .of_admits admits
  | reserved _ hroom => exact .of_pool (makeRoom_evicts hroom).pool
  | refused _ calm _ hd =>
    obtain ⟨news, rfl, -⟩ := detach_eq hd
    exact .calm_left calm (.of_pool rfl)
  | dropped _ _ he count hd =>
    obtain ⟨news, rfl, -⟩ := detach_eq hd
    refine .calm_left (enqueue_false hs he) (.of_pool ?_)
    rw [count]
    rfl
  | discarded => exact .of_pool rfl

end Hub

namespace Frame

variable {hub hub' : Hub σ} {frame : Frame σ} {frames : List (Frame σ)} {below : List (Cargo σ)}

theorem Traffic.restocks (h : frame.Traffic hub hub' frames)
    (ht : hub.Tidy (frame.cargo ++ below)) : hub.Restocks hub' := by
  cases h with
  | pass calm => exact .of_calm calm
  | post calm kind calm' _ _ posted =>
    have hs := (((ht.calm calm).offer _ _ _).calm calm').sound
    have hposted := (Hub.restocks_posted hs posted).calm_left calm'
    exact .calm_left calm hposted
  | enqueue he =>
    obtain ⟨handle, admits, -⟩ := Hub.enqueue_true ht.sound he
    exact .of_admits admits
  | evict held hd =>
    obtain ⟨news, rfl, -⟩ := Hub.detach_eq hd
    exact .of_inspect fun _ _ hp => Hub.inspect_of_take hp
  | @vacate handle =>
    have hs : hub.pool.Sound (handle :: (hub.queue.toList ++ below.filterMap Cargo.handle?)) :=
      ht.sound.perm List.perm_middle
    obtain ⟨pool, heq, -, -, hinspect⟩ := hs.release (List.mem_cons_self ..)
    have hpool : (hub.vacate handle).pool = pool := by
      unfold Hub.vacate
      rw [heq]
      rfl
    refine .of_inspect fun k p hp => ?_
    rw [hpool, hinspect] at hp
    split at hp
    next => cases hp
    next => exact hp
  | pop calm hp =>
    obtain ⟨queue, -, rfl⟩ := Hub.pop?_eq_some hp
    exact .calm_left calm (.of_pool rfl)
  | dispatch | discard => exact .of_inspect fun _ _ hp => Hub.inspect_of_take hp
  | hollow mem held => exact absurd held (ht.not_hollow mem)
  | deliver calm | free _ calm => exact .calm_left calm (.of_pool rfl)
  | leave | forget => exact .of_pool rfl
  | work _ calm =>
    exact .of_inspect fun k p hp => by rwa [calm.inspect k] at hp

/-- An event that is out of its slot was so before, or it has just left its slot. -/
theorem Traffic.fetched (h : frame.Traffic hub hub' frames) (ht : hub.Tidy (frame.cargo ++ below))
    {posting : Posting σ} (hp : .posting posting ∈ frames.flatMap Frame.cargo) :
    .posting posting ∈ frame.cargo ∨ ∃ handle, hub.pool.inspect handle = some posting := by
  have lights : ∀ {upper : List (Frame σ)}, (∀ f ∈ upper, f.isLight = true) →
      .posting posting ∉ upper.flatMap Frame.cargo := by
    intro upper light hmem
    obtain ⟨f, hf, hi⟩ := List.mem_flatMap.mp hmem
    cases cargo_of_isLight (light f hf) _ hi
  cases h with
  | pass _ cargo =>
    rw [cargo] at hp
    exact .inl hp
  | post _ _ _ _ _ posted cargo =>
    rw [List.flatMap_append, cargo] at hp
    exact .inl ((List.mem_append.mp hp).resolve_left (lights (Hub.isLight_posted posted)))
  | evict _ hd =>
    rw [List.flatMap_append] at hp
    rcases List.mem_append.mp hp with hp | hp
    · exact absurd hp (lights (Hub.isLight_detach hd))
    · simp [Frame.cargo] at hp
  | pop _ _ how =>
    rw [how.cargo.2] at hp
    cases List.mem_singleton.mp hp
  | dispatch held | discard held =>
    obtain rfl : posting = _ := by simpa [Frame.cargo] using hp
    exact .inr ⟨_, held⟩
  | hollow mem held => exact absurd held (ht.not_hollow mem)
  | deliver =>
    obtain rfl : posting = _ := by simpa [Frame.cargo] using hp
    exact .inl (List.mem_singleton_self _)
  | free => simp [Frame.cargo] at hp
  | work _ _ cargo =>
    rw [cargo] at hp
    cases hp
  | enqueue | vacate | leave | forget => cases hp

end Frame

namespace Machine

variable {m p next : Machine σ} {posting : Posting σ} {handle : Handle}
  {lower rest : List (Frame σ)}

/-- The event bears the stamp of an instant at which it was admitted. -/
def Admitted (journal : List Incident) (posting : Posting σ) : Prop :=
  ∃ now, .admitted posting.serial now ∈ journal ∧ posting.event.stamp = Clock.stamp now

/-- In every run the events that are in a slot, or have left theirs, were admitted. -/
theorem Reachable.admitted (hm : m.Reachable) :
    (∀ handle posting, m.hub.pool.inspect handle = some posting →
      Admitted m.hub.journal posting) ∧
    ∀ posting, .posting posting ∈ m.cargo → Admitted m.hub.journal posting := by
  refine hm.keeps (P := fun hub frames => (∀ handle posting,
    hub.pool.inspect handle = some posting → Admitted hub.journal posting) ∧
    ∀ posting, .posting posting ∈ frames.flatMap Frame.cargo → Admitted hub.journal posting)
    ?_ ?_ ?_
  · intro config collaborators memory now routine _
    exact ⟨fun handle posting held => by simp [Hub.create] at held, fun posting hp => by cases hp⟩
  · intro hub hub' frame frames rest hm hadmits h
    obtain ⟨stored, out⟩ := hadmits
    have remembers : ∀ {posting : Posting σ}, Admitted hub.journal posting →
        Admitted hub'.journal posting := by
      intro posting hposting
      obtain ⟨now, hadmitted, hstamp⟩ := hposting
      exact ⟨now, (Move.books hm (.of_go h)).remembers hadmitted, hstamp⟩
    refine ⟨fun handle posting held => ?_, fun posting hp => ?_⟩
    · rcases (hm.traffic h).restocks hm.tidy handle posting held with
        hbefore | ⟨other, now, rfl, hadmitted⟩
      · exact remembers (stored handle posting hbefore)
      · exact ⟨now, hadmitted, rfl⟩
    · rw [List.flatMap_append] at hp
      rcases List.mem_append.mp hp with hp | hp
      · rcases (hm.traffic h).fetched hm.tidy hp with hbefore | ⟨handle, held⟩
        · exact remembers (out posting (List.mem_append_left _ hbefore))
        · exact remembers (stored handle posting held)
      · exact remembers (out posting (List.mem_append_right _ hp))
  · intro hub frames routine hadmitted
    exact hadmitted

/-- The event that the loop brings to the apps is what was handed over for posting, with the stamp
of its admission. -/
theorem Reachable.as_admitted (hm : m.Reachable) {seat : Nat} {reached : Bool}
    (hf : m.frames = .distribute posting seat reached :: lower) :
    ∃ way event now,
      .offered posting.serial way event posting.completion.hasCallback ∈ m.hub.journal ∧
      .admitted posting.serial now ∈ m.hub.journal ∧
      posting.event = { event with stamp := Clock.stamp now } := by
  have hcargo : .posting posting ∈ m.cargo := by
    rw [cargo, hf]
    exact List.mem_cons_self ..
  have hout : posting ∈ m.books.pending ++ m.books.out :=
    Hub.mem_books.mpr (.inr (.inr (.inr hcargo)))
  obtain ⟨way, event, hoffered, -, hevent⟩ := hm.balanced.vouched posting hout
  obtain ⟨now, hadmitted, hstamp⟩ := hm.admitted.2 posting hcargo
  rw [hstamp] at hevent
  exact ⟨way, event, now, hoffered, hadmitted, hevent⟩

/-- The machine gets to `p`, and at no point before it had these frames. -/
def Until (m : Machine σ) (frames : List (Frame σ)) (p : Machine σ) : Prop :=
  Relation.ReflTransGen (fun m next => Move m next ∧ m.frames ≠ frames) m p

/-- Until the event is to be completed, its distribution goes on above what comes after it. -/
theorem Until.distributing (hm : m.Reachable)
    (hf : m.frames = .distribute posting 0 false :: lower)
    (hu : m.Until (.complete posting :: lower) p) : p.Reachable ∧
      ∃ upper, p.frames = upper ++ lower ∧ Frame.Distributing m.hub posting p.hub upper := by
  have hvisited : m.hub.Visited m.hub posting 0 0 := .refl m.hub posting
  have hbegins : Frame.Distributing m.hub posting m.hub [.distribute posting 0 false] :=
    @Frame.Distributing.offering _ _ _ _ [] _ _ (by simp) hvisited rfl
  have going : ∀ {upper}, upper ++ lower ≠ .complete posting :: lower →
      upper ≠ [.complete posting] :=
    fun before he => before (congrArg (· ++ lower) he)
  obtain ⟨hreached, hupper⟩ :=
    keeps_above (P := fun p upper => Frame.Distributing m.hub posting p.hub upper) hu hf hbegins
      Frame.distributing_nonempty
      (fun hr hd before h => (hd.step (hm.reaches hr).nested.1 (going before) h).1)
      fun routine he hd before => hd.interrupt (going (he ▸ before)) routine
  exact ⟨hm.reaches hreached, hupper⟩

/-- A run that steps on its own gets on until it has the frames. -/
theorem until_advance {budget : Nat} (unfinished : (m.advance budget).2 = .unfinished)
    (before : ∀ k < budget, (m.advance k).1.frames ≠ lower) :
    m.Until lower (m.advance budget).1 :=
  reaches_while unfinished before

/-- The distribution of an event brings to the apps what was handed over for posting, with the stamp
of its admission. Before the completion of the event it calls the code for events of the apps that
were to receive the event when it began, once each and in registry order, and no other entry point
of an app, whatever their code does. Each of them has processed one event more, and the others as
many as before. The event counts as undelivered if it is for one app and no loaded app has that id.
Until then it goes on, unless the hub fails. -/
theorem distribution_exact (hm : m.Reachable)
    (hf : m.frames = .distribute posting 0 false :: lower) :
    (∃ way event now,
      .offered posting.serial way event posting.completion.hasCallback ∈ m.hub.journal ∧
      .admitted posting.serial now ∈ m.hub.journal ∧
      posting.event = { event with stamp := Clock.stamp now }) ∧
    (m.hub.apps.map fun app => app.nanoapp.load).Nodup ∧
    ∀ p, m.Until (.complete posting :: lower) p →
      (p.frames ≠ .complete posting :: lower →
        (∃ hub error, p.step = .failed hub error) ∨
        ∃ next, p.step = .stepped next ∧
          (calls next.hub.journal = calls p.hub.journal ∨
            Frame.Calls m.hub p.hub posting next.hub next.frames)) ∧
      (p.frames = .complete posting :: lower →
        calls p.hub.journal = calls m.hub.journal ++
          (m.hub.apps.filter fun app => Hub.wanted posting.event app.nanoapp).map
            (Hub.callOf posting) ∧
        p.hub.apps.map App.standing = m.hub.apps.map (Hub.afterwards posting.event) ∧
        p.hub.undelivered =
          if posting.event.target ≠ broadcastId ∧ posting.event.target ≠ systemId ∧
              ∀ app ∈ m.hub.apps, app.nanoapp.info.instanceId ≠ posting.event.target then
            Hub.oneMore m.hub.undelivered
          else m.hub.undelivered) := by
  refine ⟨hm.as_admitted hf, ?_, fun p hu => ?_⟩
  · have hnumbers := hm.enrolled.numbers
    rwa [Hub.roster_eq, List.map_map] at hnumbers
  · obtain ⟨hp, upper, he, hd⟩ := hu.distributing hm hf
    refine ⟨fun hbefore => ?_, fun hcomplete => ?_⟩
    · obtain ⟨hub, stack⟩ := p
      cases upper with
      | nil => exact absurd hd Frame.distributing_nonempty
      | cons frame above =>
        cases he
        have going : frame :: above ≠ [.complete posting] := by
          intro hlast
          exact hbefore (congrArg (· ++ lower) hlast)
        cases hstep : frame.step hub with
        | go hub' frames =>
          have hnext : step ⟨hub, frame :: (above ++ lower)⟩ =
              .stepped ⟨hub', frames ++ (above ++ lower)⟩ :=
            step_eq_stepped.mpr ⟨hub, frame, _, hub', frames, rfl, hstep, rfl⟩
          refine .inr ⟨_, hnext, ?_⟩
          rcases (hd.step hp.nested.1 going hstep).2 with hsame | hcalls
          · exact .inl hsame
          · obtain ⟨seat, app, stopping, here, wanted, hcall, hhead⟩ := hcalls
            refine .inr ⟨seat, app, stopping, here, wanted, hcall, ?_⟩
            show (frames ++ (above ++ lower)).head? = _
            rw [List.head?_append, hhead]
            rfl
        | wait => exact absurd hstep (hd.goes_on going)
        | fail hub' error =>
          refine .inl ⟨hub', error, ?_⟩
          simp only [step, hstep]
    · have hupper : upper = [.complete posting] := by
        have happend : [.complete posting] ++ lower = upper ++ lower := hcomplete.symm.trans he
        exact (List.append_cancel_right happend).symm
      rw [hupper] at hd
      obtain ⟨hcalls, hstandings, hundelivered⟩ := hd.completes
      exact ⟨hcalls, hstandings, hundelivered⟩

def fickle (appId : UInt64) : App Unit where
  nanoapp := .new appId 1
  onStart := .register EventType.firstUser allGroups fun _ => .done true
  onEvent := fun _ _ => .unregister EventType.firstUser allGroups fun _ => .done ()
  onEnd := .done ()

/-- Loads two such apps and one between them that is not registered, and posts an event. -/
def fickleApps : Routine Unit .loop .nothing :=
  .start (fickle 1) fun _ =>
  .start (inertApp 2) fun _ =>
  .start (fickle 3) fun _ =>
  .post (Event.new EventType.firstUser) none <|
  .runUntilIdle fun _ =>
  .done ()

def fickleOffer : Machine Unit :=
  ((plain fickleApps).advance 65).1

theorem distribution_exact_fickleApps :
    (∃ posting lower, fickleOffer.frames = .distribute posting 0 false :: lower) ∧
      calls (fickleOffer.advance 10).1.hub.journal =
        calls fickleOffer.hub.journal ++ [(1, .event (some 3)), (3, .event (some 3))] ∧
      ((fickleOffer.advance 10).1.hub.apps.map App.standing).map Standing.processed =
        [1, 0, 1] := by
  have hm : fickleOffer.Reachable :=
    ⟨_, isStart_plain fickleApps, reaches_unfinished (by decide +kernel)⟩
  have hunfinished : (fickleOffer.advance 10).2 = .unfinished := by decide +kernel
  have hbefore : ∀ k < 10, (fickleOffer.advance k).1.frames.head?.any
      (fun f => f.isUrgent && f.seat?.isNone) = false := by decide +kernel
  obtain ⟨-, -, hruns⟩ := @distribution_exact Unit fickleOffer _ _ hm rfl
  obtain ⟨-, hends⟩ := hruns _ <| until_advance hunfinished fun k hk he => by
    have hhead := hbefore k hk
    rw [he] at hhead
    cases hhead
  obtain ⟨hcalls, hstandings, -⟩ := hends rfl
  refine ⟨⟨_, _, rfl⟩, ?_, ?_⟩
  · rw [hcalls]
    rfl
  · rw [hstandings]
    rfl

end Machine

end SensorHub
