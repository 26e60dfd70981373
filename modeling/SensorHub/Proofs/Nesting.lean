import SensorHub.Proofs.Traffic

namespace SensorHub

variable {σ : Type}

def Actor.isLight {r : Reach} {a : Answer} : Actor σ r a → Bool
  | .handle _ | .release _ _ => true
  | _ => false

namespace Frame

/-- The frame posts, releases or gives back, and does not hold the loop. -/
def isLight : Frame σ → Bool
  | .code actor _ => actor.isLight
  | .evict _ | .vacate _ | .enqueue _ => true
  | _ => false

/-- Code of an app has only light frames above it, and its app is loaded. -/
def Nested (places : Nat) : List (Frame σ) → Prop
  | [] => True
  | frame :: rest =>
    (∀ i, frame.index? = some i → i < places) ∧
      (frame.isLight = false → ∀ f ∈ rest, f.index? = none) ∧ Nested places rest

theorem index?_of_isLight {frame : Frame σ} (h : frame.isLight = true) : frame.index? = none := by
  cases frame with
  | code actor routine =>
    cases actor with
    | handle | release => rfl
    | _ => cases h
  | _ => rfl

theorem plain_of_all {frames : List (Frame σ)}
    (h : frames.all (fun f => f.index?.isNone) = true) : ∀ f ∈ frames, f.index? = none :=
  fun f hf => Option.isNone_iff_eq_none.mp (List.all_eq_true.mp h f hf)

theorem Rests.plain {hub : Hub σ} {frame : Frame σ} {frames : List (Frame σ)}
    (h : frame.Rests hub frames) : ∀ f ∈ frames, f.index? = none := by
  cases h with
  | flush | idle | drain => exact plain_of_all rfl

theorem Pops.plain {hub : Hub σ} {handle : Handle} {frame : Frame σ} {frames : List (Frame σ)}
    (h : frame.Pops hub handle frames) : ∀ f ∈ frames, f.index? = none := by
  cases h with
  | flush | idle | await | drain => exact plain_of_all rfl

theorem nested_of_plain {frames : List (Frame σ)} (places : Nat)
    (h : ∀ f ∈ frames, f.index? = none) : Nested places frames := by
  induction frames with
  | nil => trivial
  | cons frame rest ih =>
    have hrest : ∀ f ∈ rest, f.index? = none := fun f hf => h f (List.mem_cons_of_mem _ hf)
    refine ⟨fun i hi => ?_, fun _ => hrest, ih hrest⟩
    rw [h frame (List.mem_cons_self ..)] at hi
    cases hi

theorem nested_light {upper lower : List (Frame σ)} {places : Nat}
    (hu : ∀ f ∈ upper, f.isLight = true) (hl : Nested places lower) :
    Nested places (upper ++ lower) := by
  induction upper with
  | nil => exact hl
  | cons frame upper ih =>
    have hf := hu frame (List.mem_cons_self ..)
    refine ⟨fun i hi => ?_, fun h => ?_, ih fun f hm => hu f (List.mem_cons_of_mem _ hm)⟩
    · rw [index?_of_isLight hf] at hi
      cases hi
    · rw [hf] at h
      cases h

/-- Below frames that nest there may be anything but code of an app. -/
theorem nested_append_plain {upper lower : List (Frame σ)} {places : Nat}
    (hu : Nested places upper) (hl : ∀ f ∈ lower, f.index? = none) :
    Nested places (upper ++ lower) := by
  induction upper with
  | nil => exact nested_of_plain places hl
  | cons frame upper ih =>
    obtain ⟨hplace, hplain, hrest⟩ := hu
    refine ⟨hplace, fun h f hf => ?_, ih hrest⟩
    rcases List.mem_append.mp hf with hf | hf
    · exact hplain h f hf
    · exact hl f hf

private theorem nested_head {frame : Frame σ} {rest : List (Frame σ)} {places : Nat}
    (hplace : ∀ i, frame.index? = some i → i < places) (hrest : ∀ f ∈ rest, f.index? = none) :
    Nested places (frame :: rest) :=
  ⟨hplace, fun _ => hrest, nested_of_plain places hrest⟩

end Frame

namespace Hub

variable {hub hub' : Hub σ} {posting : Posting σ} {frames : List (Frame σ)}

theorem isLight_detach (h : hub.detach posting = (hub', frames)) :
    ∀ f ∈ frames, f.isLight = true := by
  unfold detach at h
  split at h
  all_goals
    cases h
    simp [Frame.isLight, Actor.isLight]

theorem isLight_posted (h : hub.Posted posting hub' frames) : ∀ f ∈ frames, f.isLight = true := by
  cases h with
  | queued => simp
  | reserved => simp [Frame.isLight]
  | refused _ _ _ h => exact isLight_detach h
  | dropped _ _ _ _ h => exact isLight_detach h
  | discarded => simp

theorem light_announce {type : UInt16} {load : Nat} {info : Info}
    (h : hub.announce type load info = .go hub' frames) :
    hub'.loopSide = hub.loopSide ∧ ∀ f ∈ frames, f.isLight = true := by
  obtain ⟨hub₁, -, side, -, posted⟩ := announce_cases h
  exact ⟨(loopSide_posted posted).trans side, isLight_posted posted⟩

theorem length_apps_eq (h : hub'.loopSide = hub.loopSide) :
    hub'.apps.length = hub.apps.length := by
  rw [← length_members, ← length_members]
  exact congrArg (fun side => side.members.length) h

end Hub

namespace Frame

variable {hub hub' : Hub σ} {frame : Frame σ} {frames rest : List (Frame σ)}

private theorem light_outcome {r : Reach} {a : Answer} {actor : Actor σ r a}
    {routine : Routine σ r a} (light : actor.isLight = true)
    (ho : Routine.Outcome hub actor routine hub' frames) :
    hub'.loopSide = hub.loopSide ∧ ∀ f ∈ frames, f.isLight = true := by
  cases ho with
  | quiet calm side => exact ⟨side, by simp [isLight, light]⟩
  | tuned =>
    cases actor with
    | start | entry => cases light
  | post kind posted =>
    refine ⟨(Hub.loopSide_posted posted).trans (Hub.loopSide_offer ..), fun f hf => ?_⟩
    rcases List.mem_append.mp hf with hf | hf
    · exact Hub.isLight_posted posted f hf
    · rw [List.mem_singleton.mp hf]
      exact light
  | ended place calm side => exact ⟨side, by simp⟩
  | _ => cases light

/-- A light frame leaves the loop's side as it is, and only light frames take its place. -/
theorem step_light (light : frame.isLight = true) (h : frame.step hub = .go hub' frames) :
    hub'.loopSide = hub.loopSide ∧ ∀ f ∈ frames, f.isLight = true := by
  have placed : ∀ i, frame.index? = some i → i < hub.apps.length := by
    intro i hi
    rw [index?_of_isLight light] at hi
    cases hi
  cases frame with
  | code actor routine => exact light_outcome light (Routine.step_outcome placed h)
  | evict handles =>
    cases handles with
    | nil =>
      cases h
      exact ⟨rfl, by simp⟩
    | cons handle rest =>
      rcases Hub.releaseEvicted_cases hub handle with ⟨posting, -, hr⟩ | ⟨-, hr⟩
      · simp only [step, hr] at h
        cases h
        refine ⟨Hub.loopSide_detach _ posting, fun f hf => ?_⟩
        simp only [List.append_assoc, List.mem_append, List.mem_cons, List.not_mem_nil,
          or_false] at hf
        rcases hf with hf | rfl | rfl
        · exact Hub.isLight_detach rfl f hf
        · rfl
        · rfl
      · simp only [step, hr] at h
        cases h
        exact ⟨rfl, by simp [isLight]⟩
  | vacate handle =>
    cases h
    exact ⟨Hub.loopSide_vacate hub handle, by simp⟩
  | enqueue posting =>
    simp only [step] at h
    split at h
    next hub₁ he =>
      cases h
      have hs := Hub.loopSide_enqueue hub posting
      rw [he] at hs
      exact ⟨hs, by simp⟩
    next => cases h
  | _ => cases light

private theorem nested_load {app : App σ} {client : LoadClient σ}
    (h : hub.load app client = .go hub' frames) : Nested hub'.apps.length frames := by
  rcases Hub.load_cases h with ⟨reason, rfl, rfl⟩ | ⟨id, hub₁, -, -, rfl, rfl, rfl⟩
  · exact nested_of_plain _ (plain_of_all rfl)
  · refine nested_head (fun i hi => ?_) (by simp)
    cases hi
    simp [Hub.enroll, Hub.record, Hub.setCurrent]

private theorem nested_deliverTo {index : Nat} {app : App σ} {serial : Option Nat} {event : Event}
    {hasCallback : Bool} (ha : hub.apps[index]? = some app) {lower : List (Frame σ)}
    (hl : ∀ f ∈ lower, f.index? = none) :
    Nested (hub.deliverTo index app serial event hasCallback).1.apps.length
      ((hub.deliverTo index app serial event hasCallback).2 ++ lower) := by
  have hlen : (hub.deliverTo index app serial event hasCallback).1.apps.length =
      hub.apps.length := by
    have h := Hub.length_apps_eq
      (Hub.loopSide_checkLatency hub event app.nanoapp.info.instanceId)
    exact h
  rw [hlen]
  refine nested_head (fun i hi => ?_) (by simpa [index?] using hl)
  cases hi
  exact (List.getElem?_eq_some_iff.mp ha).1

private theorem nested_announce {type : UInt16} {load : Nat} {info : Info}
    {upper lower : List (Frame σ)} {places : Nat}
    (h : hub.announce type load info = .go hub' upper) (hl : Nested places lower) :
    Nested places (upper ++ lower) :=
  nested_light (Hub.light_announce h).2 hl

private theorem nested_perform {serial : Nat} {work : SystemWork σ}
    (h : hub.perform serial work = .go hub' frames) : Nested hub'.apps.length frames := by
  rcases Hub.perform_cases h with
    ⟨-, rfl, rfl⟩ | ⟨app, -, -, hl⟩ | ⟨app, -, -, rfl, rfl⟩ |
    ⟨instanceId, force, app, -, -, -, rfl, rfl⟩ |
    ⟨instanceId, force, report, reason, -, hreport, rfl, rfl⟩ | ⟨kind, routine, -, rfl, rfl⟩
  · trivial
  · exact nested_load hl
  · trivial
  · exact nested_of_plain _ (plain_of_all rfl)
  · trivial
  · exact nested_of_plain _ (plain_of_all rfl)

private theorem nested_code {r : Reach} {a : Answer} {actor : Actor σ r a}
    {routine : Routine σ r a} (placed : ∀ i, actor.place? = some i → i < hub.apps.length)
    (ho : Routine.Outcome hub actor routine hub' frames) : Nested hub'.apps.length frames := by
  have self : ∀ {next : Routine σ r a}, hub'.loopSide = hub.loopSide →
      Nested hub'.apps.length [.code actor next] := by
    intro next side
    rw [Hub.length_apps_eq side]
    exact nested_head placed (by simp)
  cases ho with
  | quiet calm side => exact self side
  | tuned =>
    refine nested_head (fun i hi => ?_) (by simp)
    have hlen : ∀ index change, (hub.alterApp index change).apps.length = hub.apps.length :=
      fun index change => List.length_modify ..
    rw [hlen]
    exact placed i hi
  | post kind posted =>
    exact nested_light (Hub.isLight_posted posted)
      (self ((Hub.loopSide_posted posted).trans (Hub.loopSide_offer ..)))
  | load hl => exact nested_load hl
  | unload | idle | run | message => exact nested_of_plain _ (plain_of_all rfl)
  | deliver ha => exact nested_deliverTo ha (plain_of_all rfl)
  | ended | left => trivial
  | started hs =>
    have ha := List.getElem?_eq_getElem (placed _ rfl)
    rcases Hub.finishStart_cases ha hs with ⟨-, upper, hgo, rfl⟩ | ⟨-, other, -, -, rfl, rfl⟩
    · exact nested_announce hgo (nested_of_plain _ (plain_of_all rfl))
    · exact nested_of_plain _ (plain_of_all rfl)

theorem step_nested (placed : ∀ i, frame.index? = some i → i < hub.apps.length)
    (h : frame.step hub = .go hub' frames) : Nested hub'.apps.length frames := by
  cases frame with
  | code actor routine => exact nested_code placed (Routine.step_outcome placed h)
  | evict handles =>
    exact nested_of_plain _ fun f hf => index?_of_isLight ((step_light rfl h).2 f hf)
  | vacate handle | enqueue posting =>
    exact nested_of_plain _ fun f hf => index?_of_isLight ((step_light rfl h).2 f hf)
  | dispatch handle =>
    rcases Hub.dispatch_cases h with ⟨posting, -, -, rfl⟩ | ⟨-, -, rfl⟩
    · exact nested_of_plain _ (plain_of_all rfl)
    · exact nested_of_plain _ (plain_of_all rfl)
  | discard handle =>
    rcases Hub.discard_cases h with ⟨-, ⟨posting, -, rfl⟩ | ⟨-, rfl⟩⟩
    · exact nested_of_plain _ (plain_of_all rfl)
    · exact nested_of_plain _ (plain_of_all rfl)
  | distribute posting index reached =>
    rcases Hub.offerTo_cases h with
      ⟨app, ha, -, rfl, rfl⟩ | ⟨app, -, -, rfl, rfl⟩ | ⟨-, -, rfl⟩
    · exact nested_deliverTo ha (plain_of_all rfl)
    · exact nested_of_plain _ (plain_of_all rfl)
    · exact nested_of_plain _ (plain_of_all rfl)
  | complete posting =>
    rcases Hub.complete_cases h with ⟨-, -, rfl⟩ | ⟨callback, instanceId, -, -, rfl⟩ | ⟨work, -, hw⟩
    · trivial
    · exact nested_of_plain _ (plain_of_all rfl)
    · exact nested_perform hw
  | answer client result =>
    cases client with
    | routine actor next =>
      cases h
      exact nested_of_plain _ (plain_of_all rfl)
    | request appId =>
      cases result with
      | ok | error =>
        cases h
        trivial
  | mark info started =>
    cases started with
    | true | false =>
      cases h
      exact nested_of_plain _ (plain_of_all rfl)
  | settle info started previous =>
    rcases Hub.settleUnload_cases h with
      ⟨-, rfl, rfl⟩ | ⟨index, -, ⟨-, upper, hgo, rfl⟩ | ⟨-, rfl, rfl⟩⟩
    · trivial
    · exact nested_announce hgo (nested_of_plain _ (plain_of_all rfl))
    · exact nested_of_plain _ (plain_of_all rfl)
  | remove index started =>
    rcases Hub.removeAt_cases h with
      ⟨-, rfl, rfl⟩ | ⟨app, ha, ⟨-, rfl, rfl⟩ | ⟨-, rfl, rfl⟩⟩
    · trivial
    · refine nested_head (fun i hi => ?_) (plain_of_all rfl)
      cases hi
      exact (List.getElem?_eq_some_iff.mp ha).1
    · exact nested_of_plain _ (plain_of_all rfl)
  | release load info managers =>
    cases managers with
    | nil =>
      cases h
      trivial
    | cons manager rest =>
      cases h
      exact nested_of_plain _ (plain_of_all rfl)
  | flush | drain | await | idle =>
    obtain ⟨hub₁, -, ⟨-, rests⟩ | ⟨handle, -, pops⟩⟩ := takes_cases rfl h
    · exact nested_of_plain _ rests.plain
    · exact nested_of_plain _ pops.plain
  | serve | clear =>
    simp only [step] at h
    split at h
    all_goals
      cases h
      exact nested_of_plain _ (plain_of_all rfl)
  | delivered | restore | erase | unmark | cycle | turn | endCycle | exit =>
    cases h
    exact nested_of_plain _ (plain_of_all rfl)

theorem Nested.step {rest : List (Frame σ)} (hn : Nested hub.apps.length (frame :: rest))
    (h : frame.step hub = .go hub' frames) : Nested hub'.apps.length (frames ++ rest) := by
  obtain ⟨placed, plain, hrest⟩ := hn
  cases light : frame.isLight with
  | true =>
    obtain ⟨side, hl⟩ := step_light light h
    rw [Hub.length_apps_eq side]
    exact nested_light hl hrest
  | false => exact nested_append_plain (step_nested placed h) (plain light)

theorem Nested.interrupt {places : Nat} (hn : Nested places frames)
    (foreign : Routine σ .handle .nothing) :
    Nested places (.code (.handle .foreign) foreign :: frames) := by
  have light : ∀ f ∈ [Frame.code (.handle .foreign) foreign], f.isLight = true := by
    simp [isLight, Actor.isLight]
  exact nested_light light hn

end Frame

namespace Machine

theorem Reaches.nested {m m' : Machine σ} (hn : Frame.Nested m.hub.apps.length m.frames)
    (hr : m.Reaches m') : Frame.Nested m'.hub.apps.length m'.frames :=
  hr.keeps (P := fun hub frames => Frame.Nested hub.apps.length frames) hn
    (fun _ hn h => hn.step h) fun routine _ hn => hn.interrupt routine

theorem Reachable.nested {m : Machine σ} (hm : m.Reachable) :
    Frame.Nested m.hub.apps.length m.frames := by
  refine hm.keeps (P := fun hub frames => Frame.Nested hub.apps.length frames) ?_ ?_ ?_
  · intro config collaborators memory now routine _
    exact Frame.nested_of_plain _ (by simp [Frame.index?, Actor.place?])
  · intro hub hub' frame frames rest _ hn h
    exact hn.step h
  · intro hub frames foreign hn
    exact hn.interrupt foreign

/-- In every run each step is one of the listed moves of slots and events. -/
theorem Reachable.traffic {hub hub' : Hub σ} {frame : Frame σ} {frames rest : List (Frame σ)}
    (hm : Reachable ⟨hub, frame :: rest⟩) (h : frame.step hub = .go hub' frames) :
    frame.Traffic hub hub' frames :=
  Frame.step_traffic hm.nested.1 h

end Machine

end SensorHub
