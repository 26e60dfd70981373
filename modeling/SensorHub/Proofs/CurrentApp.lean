import SensorHub.Proofs.Context
import SensorHub.Proofs.Directory

namespace SensorHub

variable {σ : Type}

/-- Who is current throughout the code of an actor, where this does not depend on who posted. -/
def Actor.context? (infos : List Info) {r : Reach} {a : Answer} :
    Actor σ r a → Option (Option UInt16)
  | .loop _ => some none
  | .start index _ _ | .entry index _ _ => some ((infos[index]?).map Info.instanceId)
  | .release _ info => some (some info.instanceId)
  | .handle (.freed _ sender) =>
    some (if sender ∈ infos.map Info.instanceId then some sender else none)
  | .handle (.message instanceId) => some (some instanceId)
  | .handle .beforeCycle | .handle .afterCycle | .handle (.flushMessages _) => some none
  | .handle (.detached _ _) | .handle .foreign => none

namespace Frame

def isLent : Frame σ → Bool
  | .code (.loop _) _ => false
  | .code _ _ => true
  | _ => false

/-- Who is current when the frame is the uppermost one, unless it holds the loop. -/
def context? (infos : List Info) : Frame σ → Option (Option UInt16)
  | .code (.loop _) _ => none
  | .code actor _ => actor.context? infos
  | .release _ info _ | .erase _ _ info => some (some info.instanceId)
  | _ => none

/-- Each frame finds the context it needs once those above it are done. The context is never given
back to an app. Below a frame that is not light all code holds the loop. -/
def InContext (infos : List Info) (current : Option UInt16) : List (Frame σ) → Prop
  | [] => True
  | frame :: rest =>
    (∀ context, frame.context? infos = some context → current = context) ∧
      (∀ previous, frame.restores? = some previous → previous = none) ∧
      (frame.isLight = false → ∀ f ∈ rest, f.isLent = false) ∧
      InContext infos (frame.restores?.getD current) rest

def isBare : Frame σ → Bool
  | .code (.loop _) _ => true
  | .code _ _ | .delivered _ | .restore _ | .release _ _ _ | .erase _ _ _ => false
  | _ => true

variable {infos infos' : List Info} {current : Option UInt16} {frame : Frame σ}
  {frames upper rest : List (Frame σ)} {hub hub' : Hub σ}

theorem isBare_cases (infos : List Info) (h : frame.isBare = true) :
    frame.context? infos = none ∧ frame.restores? = none ∧ frame.isLent = false := by
  cases frame with
  | code actor routine =>
    cases actor with
    | loop => exact ⟨rfl, rfl, rfl⟩
    | _ => cases h
  | delivered | restore | release | erase => cases h
  | _ => exact ⟨rfl, rfl, rfl⟩

theorem inContext_bare (bare : frames.all isBare = true) (plain : ∀ f ∈ rest, f.isLent = false)
    (hr : InContext infos current rest) : InContext infos current (frames ++ rest) := by
  induction frames with
  | nil => exact hr
  | cons frame frames ih =>
    rw [List.all_cons, Bool.and_eq_true] at bare
    obtain ⟨hcontext, hrestores, -⟩ := isBare_cases infos bare.1
    refine ⟨fun context h => ?_, fun previous h => ?_, fun _ f hf => ?_, ?_⟩
    · rw [hcontext] at h
      cases h
    · rw [hrestores] at h
      cases h
    · rcases List.mem_append.mp hf with hf | hf
      · exact (isBare_cases infos (List.all_eq_true.mp bare.2 f hf)).2.2
      · exact plain f hf
    · rw [hrestores]
      exact ih bare.2

/-- Light frames without a context of their own change nothing. -/
theorem inContext_light (hu : ∀ f ∈ upper, f.isLight = true ∧ f.context? infos = none)
    (hr : InContext infos current rest) : InContext infos current (upper ++ rest) := by
  induction upper with
  | nil => exact hr
  | cons frame upper ih =>
    obtain ⟨light, hcontext⟩ := hu frame (List.mem_cons_self ..)
    have hrestores := (behalf_of_isLight light).2
    refine ⟨fun context h => ?_, fun previous h => ?_, fun heavy => ?_, ?_⟩
    · rw [hcontext] at h
      cases h
    · rw [hrestores] at h
      cases h
    · rw [light] at heavy
      cases heavy
    · rw [hrestores]
      exact ih fun f hf => hu f (List.mem_cons_of_mem _ hf)

/-- Where all code holds the loop, contexts do not depend on who is loaded. -/
theorem InContext.elsewhere (plain : ∀ f ∈ frames, f.isLent = false)
    (h : InContext infos current frames) (infos' : List Info) :
    InContext infos' current frames := by
  induction frames generalizing current with
  | nil => trivial
  | cons frame rest ih =>
    obtain ⟨hcontext, hrestores, hlent, hrest⟩ := h
    refine ⟨fun context hc => hcontext context ?_, hrestores, hlent,
      ih (fun f hf => plain f (List.mem_cons_of_mem _ hf)) hrest⟩
    have hframe := plain frame (List.mem_cons_self ..)
    cases frame with
    | code actor routine =>
      cases actor with
      | loop => exact hc
      | _ => cases hframe
    | _ => exact hc

theorem detached_light {posting : Posting σ} (h : hub.detach posting = (hub', frames))
    (infos : List Info) : ∀ f ∈ frames, f.isLight = true ∧ f.context? infos = none := by
  unfold Hub.detach at h
  split at h
  all_goals
    cases h
    simp [isLight, Actor.isLight, context?, Actor.context?]

theorem posted_light {posting : Posting σ} (h : hub.Posted posting hub' frames)
    (infos : List Info) : ∀ f ∈ frames, f.isLight = true ∧ f.context? infos = none := by
  cases h with
  | queued => simp
  | reserved => simp [isLight, context?]
  | refused _ _ _ h => exact detached_light h infos
  | dropped _ _ _ _ h => exact detached_light h infos
  | discarded => simp

/-- The context of code does not depend on how far the code has come. -/
theorem InContext.goes_on {r : Reach} {a : Answer} {actor : Actor σ r a} {routine : Routine σ r a}
    (h : InContext infos current (.code actor routine :: rest)) (next : Routine σ r a) :
    InContext infos current (.code actor next :: rest) := by
  cases actor with
  | loop | handle | release | start | entry => exact h

end Frame

namespace Hub

variable {hub hub' : Hub σ}

def CurrentLoaded (hub : Hub σ) : Prop :=
  ∀ id, hub.current = some id → id ∈ hub.infos.map Info.instanceId

theorem current_of_loopSide (side : hub'.loopSide = hub.loopSide) : hub'.current = hub.current :=
  congrArg LoopSide.current side

theorem CurrentLoaded.nobody (h : hub.current = none) : hub.CurrentLoaded := by
  intro id hid
  rw [h] at hid
  cases hid

theorem CurrentLoaded.of_loopSide (h : hub.CurrentLoaded) (side : hub'.loopSide = hub.loopSide) :
    hub'.CurrentLoaded := by
  intro id hid
  rw [current_of_loopSide side] at hid
  rw [infos_of_loopSide side]
  exact h id hid

theorem infos_enroll (hub : Hub σ) (app : App σ) (id : UInt16) (wakeups : Wakeups) :
    (hub.enroll app id wakeups).2.infos = hub.infos ++ [{ app.nanoapp.info with instanceId := id }] := by
  simp [infos, enroll, record, App.alter, Nanoapp.loaded]

theorem getElem?_infos {index : Nat} {app : App σ} (ha : hub.apps[index]? = some app) :
    hub.infos[index]? = some app.nanoapp.info := by
  rw [infos, List.getElem?_map, ha]
  rfl

theorem mem_instances_of_getElem? {index : Nat} {app : App σ} (ha : hub.apps[index]? = some app) :
    app.nanoapp.info.instanceId ∈ hub.infos.map Info.instanceId :=
  List.mem_map_of_mem (List.mem_of_getElem? (getElem?_infos ha))

theorem infos_deliverTo (hub : Hub σ) (index : Nat) (app : App σ) (serial : Option Nat)
    (event : Event) (hasCallback : Bool) :
    (hub.deliverTo index app serial event hasCallback).1.infos = hub.infos := by
  have h := infos_of_loopSide (loopSide_checkLatency hub event app.nanoapp.info.instanceId)
  exact h

/-- The sender of an event that is completed is current if it is loaded. -/
theorem sender_loaded (hub : Hub σ) (sender : UInt16) :
    (hub.indexOf? sender).map (fun _ => sender) =
      if sender ∈ hub.infos.map Info.instanceId then some sender else none := by
  split
  next loaded =>
    cases hi : hub.indexOf? sender with
    | none => exact absurd loaded (indexOf?_eq_none.mp hi)
    | some => rfl
  next absent =>
    rw [indexOf?_eq_none.mpr absent]
    rfl

end Hub

namespace Frame

variable {frame : Frame σ} {frames upper lower rest : List (Frame σ)} {hub hub' : Hub σ}

/-- Whoever is current is loaded, and the frames find their contexts. -/
def Agrees (hub : Hub σ) (frames : List (Frame σ)) : Prop :=
  hub.CurrentLoaded ∧ InContext hub.infos hub.current frames

/-- The frames lie below one that is done in nobody's name. -/
structure Sheltered (rest : List (Frame σ)) : Prop where
  plain : ∀ f ∈ rest, f.isLent = false
  below : ∀ infos, InContext infos none rest

namespace Sheltered

theorem bare (hs : Sheltered rest) (hc : hub.current = none)
    (bare : frames.all isBare = true) : Agrees hub (frames ++ rest) := by
  refine ⟨.nobody hc, inContext_bare bare hs.plain ?_⟩
  rw [hc]
  exact hs.below _

theorem bare_light (hs : Sheltered rest) (hc : hub.current = none)
    (light : ∀ f ∈ upper, f.isLight = true ∧ f.context? hub.infos = none)
    (bare : frames.all isBare = true) : Agrees hub (upper ++ (frames ++ rest)) := by
  obtain ⟨hloaded, hcontext⟩ := hs.bare hc bare
  exact ⟨hloaded, inContext_light light hcontext⟩

theorem append (hs : Sheltered rest) (lower : List (Frame σ)) (bare : lower.all isBare = true) :
    Sheltered (lower ++ rest) := by
  refine ⟨fun f hf => ?_, fun infos => inContext_bare bare hs.plain (hs.below infos)⟩
  rcases List.mem_append.mp hf with hf | hf
  · exact (isBare_cases [] (List.all_eq_true.mp bare f hf)).2.2
  · exact hs.plain f hf

/-- What an app holds is released, and the app erased, in its own name. -/
theorem removal {index load : Nat} {info : Info} {managers : List (Nat × Releaser σ)}
    (hs : Sheltered rest) (infos : List Info) :
    InContext infos (some info.instanceId)
      (.release load info managers :: .erase index load info :: rest) := by
  refine ⟨fun context h => ?_, fun previous h => ?_, fun _ f hf => ?_,
    fun context h => ?_, fun previous h => ?_, fun _ => hs.plain, hs.below infos⟩
  · cases h
    rfl
  · cases h
  · rcases List.mem_cons.mp hf with rfl | hf
    · rfl
    · exact hs.plain f hf
  · cases h
    rfl
  · cases h
    rfl

theorem finish {index : Nat} {app : App σ} {deed : Incident} (hs : Sheltered rest)
    (ha : hub.apps[index]? = some app) {managers : List (Nat × Releaser σ)} :
    Agrees ((hub.setCurrent (some app.nanoapp.info.instanceId)).record deed)
      (.code (.entry index true .finish) app.onEnd ::
        .release app.nanoapp.load app.nanoapp.info managers ::
        .erase index app.nanoapp.load app.nanoapp.info :: rest) := by
  have hloaded := Hub.mem_instances_of_getElem? ha
  refine ⟨fun current hcurrent => ?_, fun context hcontext => ?_, fun previous h => ?_,
    fun _ f hf => ?_, hs.removal _⟩
  · cases hcurrent
    exact hloaded
  · have hid : (hub.infos[index]?).map Info.instanceId = context := Option.some.inj hcontext
    rw [← hid, Hub.getElem?_infos ha]
    rfl
  · cases h
  · simp only [List.mem_cons] at hf
    rcases hf with rfl | rfl | hf
    · rfl
    · rfl
    · exact hs.plain f hf

theorem hook {purpose : Purpose} {routine : Routine σ .handle .nothing} (hs : Sheltered rest)
    (hc : hub.current = none)
    (hook : (Actor.handle purpose : Actor σ _ _).context? hub.infos = some none) :
    Agrees hub (.code (.handle purpose) routine :: rest) := by
  refine ⟨.nobody hc, fun context h => ?_, fun previous h => ?_, fun heavy => ?_, ?_⟩
  · have hnone : some none = some context := hook.symm.trans h
    cases hnone
    exact hc
  · cases h
  · cases heavy
  · show InContext hub.infos hub.current rest
    rw [hc]
    exact hs.below _

theorem load {app : App σ} {client : LoadClient σ} (hs : Sheltered rest)
    (hc : hub.current = none) (h : hub.load app client = .go hub' frames) :
    Agrees hub' (frames ++ rest) := by
  rcases Hub.load_cases h with ⟨reason, rfl, rfl⟩ | ⟨id, hub₁, -, -, henrolled, rfl, rfl⟩
  · exact hs.bare hc rfl
  · have hinfos : hub₁.infos = hub.infos ++ [{ app.nanoapp.info with instanceId := id }] := by
      rw [henrolled]
      exact Hub.infos_enroll ..
    have hplace : (hub.infos ++ [{ app.nanoapp.info with instanceId := id }])[hub.apps.length]? =
        some { app.nanoapp.info with instanceId := id } := by
      have hlength : hub.infos.length = hub.apps.length := List.length_map _
      rw [← hlength]
      exact List.getElem?_concat_length ..
    refine ⟨fun current hcurrent => ?_, fun context hcontext => ?_, fun previous h => ?_,
      fun _ => hs.plain, hs.below _⟩
    · cases hcurrent
      have hmem : id ∈ hub₁.infos.map Info.instanceId := by
        rw [hinfos]
        simp
      exact hmem
    · have hid : (hub₁.infos[hub.apps.length]?).map Info.instanceId = context :=
        Option.some.inj hcontext
      rw [hinfos, hplace] at hid
      exact hid
    · cases h
      rfl

theorem deliverTo {index : Nat} {app : App σ} {serial : Option Nat} {event : Event}
    {hasCallback : Bool} (hs : Sheltered rest) (ha : hub.apps[index]? = some app) :
    Agrees (hub.deliverTo index app serial event hasCallback).1
      ((hub.deliverTo index app serial event hasCallback).2 ++ rest) := by
  have hplace := Hub.getElem?_infos ha
  refine ⟨fun current hcurrent => ?_, ?_⟩
  · cases hcurrent
    rw [Hub.infos_deliverTo]
    exact Hub.mem_instances_of_getElem? ha
  · rw [Hub.infos_deliverTo]
    refine ⟨fun context hcontext => ?_, fun previous h => ?_, fun _ f hf => ?_,
      fun context hcontext => ?_, fun previous h => ?_, fun _ => hs.plain, hs.below _⟩
    · have hid : (hub.infos[index]?).map Info.instanceId = context := Option.some.inj hcontext
      rw [← hid, hplace]
      rfl
    · cases h
    · rcases List.mem_cons.mp hf with rfl | hf
      · rfl
      · exact hs.plain f hf
    · cases hcontext
    · cases h
      rfl

theorem perform {serial : Nat} {work : SystemWork σ} (hs : Sheltered rest)
    (hc : hub.current = none) (h : hub.perform serial work = .go hub' frames) :
    Agrees hub' (frames ++ rest) := by
  rcases Hub.perform_cases h with
    ⟨-, rfl, rfl⟩ | ⟨app, -, -, hl⟩ | ⟨app, -, -, rfl, rfl⟩ |
    ⟨instanceId, force, app, -, -, -, rfl, rfl⟩ |
    ⟨instanceId, force, report, reason, -, hreport, rfl, rfl⟩ | ⟨kind, routine, -, rfl, rfl⟩
  · exact hs.bare hc rfl
  · exact hs.load hc hl
  · exact hs.bare hc rfl
  · exact (hs.append [.mark app.nanoapp.info true] rfl).hook hc rfl
  · exact hs.bare hc rfl
  · exact hs.bare hc rfl

/-- A free callback runs in the name of the sender of its event, if that is loaded. -/
theorem complete {posting : Posting σ} (hs : Sheltered rest) (hc : hub.current = none)
    (h : hub.complete posting = .go hub' frames) : Agrees hub' (frames ++ rest) := by
  unfold Hub.complete at h
  cases hcompletion : posting.completion with
  | nothing =>
    simp only [hcompletion] at h
    cases h
    exact hs.bare hc rfl
  | free callback =>
    simp only [hcompletion] at h
    cases h
    refine ⟨fun current hcurrent => ?_, fun context hcontext => ?_, fun previous h => ?_,
      fun heavy => ?_, fun context hcontext => ?_, fun previous h => ?_, fun _ => hs.plain, ?_⟩
    · have hsender : (hub.indexOf? posting.event.sender).map (fun _ => posting.event.sender) =
          some current := hcurrent
      rw [Hub.sender_loaded] at hsender
      split at hsender
      next loaded =>
        cases hsender
        exact loaded
      next => cases hsender
    · exact (hub.sender_loaded posting.event.sender).trans (Option.some.inj hcontext)
    · cases h
    · cases heavy
    · cases hcontext
    · cases h
      exact hc
    · show InContext _ hub.current rest
      rw [hc]
      exact hs.below _
  | work work =>
    simp only [hcompletion] at h
    have hc' : (hub.record (.worked posting.serial)).current = none := hc
    exact hs.perform hc' h

/-- Code that holds the loop runs in nobody's name, and what it calls in the name that is due. -/
theorem loop {actor : LoopActor} {routine : Routine σ .loop .nothing} (hs : Sheltered rest)
    (hc : hub.current = none) (ho : Routine.Outcome hub (.loop actor) routine hub' frames) :
    Agrees hub' (frames ++ rest) := by
  cases ho with
  | quiet calm side => exact hs.bare ((Hub.current_of_loopSide side).trans hc) rfl
  | post kind posted =>
    have side := (Hub.loopSide_posted posted).trans (Hub.loopSide_offer ..)
    have hc' := (Hub.current_of_loopSide side).trans hc
    rw [List.append_assoc]
    exact hs.bare_light hc' (posted_light posted _) rfl
  | load hl => exact hs.load hc hl
  | @unload _ _ app next mem =>
    exact (hs.append [.mark app.nanoapp.info true, .code (.loop actor) next] rfl).hook
      hc rfl
  | idle | run => exact hs.bare hc rfl
  | @deliver _ _ index app event next ha =>
    rw [List.append_assoc]
    exact (hs.append [.code (.loop actor) next] rfl).deliverTo ha
  | @message _ _ appId instanceId closure next owner =>
    obtain ⟨plain, below⟩ := hs.append [.code (.loop actor) next] rfl
    have hloaded : instanceId ∈ hub.infos.map Info.instanceId := by
      obtain ⟨app, ha, rfl⟩ := Option.map_eq_some_iff.mp owner
      exact List.mem_map_of_mem (List.mem_map_of_mem (List.mem_of_find?_eq_some ha))
    refine ⟨fun current hcurrent => ?_, fun context hcontext => ?_, fun previous h => ?_,
      fun heavy => ?_, fun context hcontext => ?_, fun previous h => ?_, fun _ => plain, ?_⟩
    · cases hcurrent
      exact hloaded
    · cases hcontext
      rfl
    · cases h
    · cases heavy
    · cases hcontext
    · cases h
      exact hc
    · show InContext _ hub.current _
      rw [hc]
      exact below _
  | ended place calm side => exact hs.bare ((Hub.current_of_loopSide side).trans hc) rfl

end Sheltered

theorem Rests.bare (h : frame.Rests hub frames) : frames.all isBare = true := by
  cases h with
  | flush | idle | drain => rfl

theorem Pops.bare {handle : Handle} (h : frame.Pops hub handle frames) :
    frames.all isBare = true := by
  cases h with
  | flush | idle | await | drain => rfl

/-- Whatever the loop does in nobody's name, what it calls runs in the name that is due. -/
private theorem agrees_nobody (placed : ∀ i, frame.index? = some i → i < hub.apps.length)
    (hs : Sheltered rest) (hc : hub.current = none) (nobody : frame.isBehalf = false)
    (h : frame.step hub = .go hub' frames) : Agrees hub' (frames ++ rest) := by
  cases frame with
  | code actor routine =>
    cases actor with
    | loop actor =>
      have ho : Routine.Outcome hub (.loop actor) routine hub' frames :=
        Routine.step_outcome placed h
      exact hs.loop hc ho
    | _ => cases nobody
  | dispatch handle =>
    rcases Hub.dispatch_cases h with ⟨posting, -, rfl, rfl⟩ | ⟨-, rfl, rfl⟩
    · exact hs.bare hc rfl
    · exact hs.bare hc rfl
  | discard handle =>
    rcases Hub.discard_cases h with ⟨rfl, ⟨posting, -, rfl⟩ | ⟨-, rfl⟩⟩
    · exact hs.bare hc rfl
    · exact hs.bare hc rfl
  | distribute posting index reached =>
    rcases Hub.offerTo_cases h with
      ⟨app, ha, -, rfl, rfl⟩ | ⟨app, -, -, rfl, rfl⟩ | ⟨-, hcount, rfl⟩
    · rw [List.append_assoc]
      exact (hs.append [.distribute posting (index + 1) true] rfl).deliverTo ha
    · exact hs.bare hc rfl
    · rcases hcount with rfl | rfl
      · exact hs.bare hc rfl
      · exact hs.bare hc rfl
  | complete posting => exact hs.complete hc h
  | answer client result =>
    cases client with
    | routine actor next =>
      cases h
      exact hs.bare hc rfl
    | request appId =>
      cases result with
      | ok | error =>
        cases h
        exact hs.bare hc rfl
  | mark info started =>
    cases started with
    | true | false =>
      cases h
      exact hs.bare hc rfl
  | settle info started previous =>
    rcases Hub.settleUnload_cases h with
      ⟨-, rfl, rfl⟩ | ⟨index, -, ⟨-, upper, hgo, rfl⟩ | ⟨-, rfl, rfl⟩⟩
    · exact hs.bare hc rfl
    · obtain ⟨hub₁, -, side, -, posted⟩ := Hub.announce_cases hgo
      have hc' := (Hub.current_of_loopSide ((Hub.loopSide_posted posted).trans side)).trans hc
      rw [List.append_assoc]
      exact hs.bare_light hc' (posted_light posted _) rfl
    · exact hs.bare hc rfl
  | remove index started =>
    rcases Hub.removeAt_cases h with
      ⟨-, rfl, rfl⟩ | ⟨app, ha, ⟨-, rfl, rfl⟩ | ⟨-, rfl, rfl⟩⟩
    · exact hs.bare hc rfl
    · exact hs.finish ha
    · have hloaded := Hub.mem_instances_of_getElem? ha
      refine ⟨fun current hcurrent => ?_, hs.removal _⟩
      cases hcurrent
      exact hloaded
  | flush | drain | await | idle =>
    have hc' := (Hub.current_of_loopSide (loopSide_takes rfl h)).trans hc
    obtain ⟨hub₁, -, ⟨-, rests⟩ | ⟨handle, -, pops⟩⟩ := takes_cases rfl h
    · exact hs.bare hc' rests.bare
    · exact hs.bare hc' pops.bare
  | serve | clear =>
    simp only [step] at h
    split at h
    all_goals
      cases h
      exact hs.bare hc rfl
  | turn handle =>
    cases h
    have hc' := (Hub.current_of_loopSide (Hub.loopSide_rollWakeups hub)).trans hc
    exact hs.bare hc' rfl
  | unmark | exit =>
    cases h
    exact hs.bare hc rfl
  | cycle handle =>
    cases h
    exact (hs.append [.turn handle] rfl).hook hc rfl
  | endCycle =>
    cases h
    exact hs.hook hc rfl
  | evict | vacate | enqueue | delivered | restore | release | erase => cases nobody

/-- Light frames give way to light frames without a context of their own, and code goes on. -/
private theorem agrees_light (light : frame.isLight = true) (ha : Agrees hub (frame :: rest))
    (h : frame.step hub = .go hub' frames) : Agrees hub' (frames ++ rest) := by
  obtain ⟨side, -⟩ := step_light light h
  refine ⟨ha.1.of_loopSide side, ?_⟩
  rw [Hub.infos_of_loopSide side, Hub.current_of_loopSide side]
  have hrest := ha.2.2.2.2
  rw [(behalf_of_isLight light).2] at hrest
  cases frame with
  | code actor routine =>
    have placed : ∀ i, actor.place? = some i → i < hub.apps.length := by
      intro i hi
      have hnone : (Frame.code actor routine).index? = none := index?_of_isLight light
      rw [index?, hi] at hnone
      cases hnone
    have ho := Routine.step_outcome placed h
    have goes_on := fun next => ha.2.goes_on next
    cases ho with
    | quiet => exact goes_on _
    | tuned =>
      cases actor with
      | start | entry => cases light
    | post kind posted =>
      rw [List.append_assoc]
      exact inContext_light (posted_light posted _) (goes_on _)
    | ended => exact hrest
    | _ => cases light
  | evict handles =>
    cases handles with
    | nil =>
      cases h
      exact hrest
    | cons handle left =>
      have hlower : ∀ f ∈ [.vacate handle, .evict left],
          (f : Frame σ).isLight = true ∧ f.context? hub.infos = none := by
        simp [isLight, context?]
      rcases Hub.releaseEvicted_cases hub handle with ⟨posting, -, hr⟩ | ⟨-, hr⟩
      · simp only [step, hr] at h
        cases h
        have hbelow := inContext_light hlower hrest
        rw [List.append_assoc, List.append_assoc]
        exact inContext_light (detached_light rfl _) hbelow
      · simp only [step, hr] at h
        cases h
        exact inContext_light hlower hrest
  | vacate handle =>
    cases h
    exact hrest
  | enqueue posting =>
    simp only [step] at h
    split at h
    next =>
      cases h
      exact hrest
    next => cases h
  | _ => cases light

/-- Code of an app goes on in the name of the app, or it ends. -/
private theorem agrees_app {a : Answer} {actor : Actor σ .app a} {routine : Routine σ .app a}
    (ho : Routine.Outcome hub actor routine hub' frames)
    (placed : ∀ i, actor.place? = some i → i < hub.apps.length)
    (ha : Agrees hub (.code actor routine :: rest)) : Agrees hub' (frames ++ rest) := by
  have goes_on := fun next => ha.2.goes_on next
  cases ho with
  | quiet calm side =>
    refine ⟨ha.1.of_loopSide side, ?_⟩
    rw [Hub.infos_of_loopSide side, Hub.current_of_loopSide side]
    exact goes_on _
  | tuned =>
    have hinfos : ∀ registrations, (hub.alterApp actor.index
        fun n => { n with registrations := registrations }).infos = hub.infos :=
      fun registrations => Hub.infos_alterApp hub actor.index fun _ => rfl
    refine ⟨fun id hid => ?_, ?_⟩
    · rw [hinfos]
      exact ha.1 id hid
    · rw [hinfos]
      exact goes_on _
  | post kind posted =>
    have side := (Hub.loopSide_posted posted).trans (Hub.loopSide_offer ..)
    refine ⟨ha.1.of_loopSide side, ?_⟩
    rw [List.append_assoc, Hub.infos_of_loopSide side, Hub.current_of_loopSide side]
    exact inContext_light (Hub.infos_of_loopSide side ▸ posted_light posted _) (goes_on _)
  | ended place =>
    cases actor with
    | start | entry => cases place
  | @started index stopping client ok _ _ hstart =>
    have hs : Sheltered rest := ⟨ha.2.2.2.1 rfl, ha.2.2.2.2.elsewhere (ha.2.2.2.1 rfl)⟩
    rcases Hub.finishStart_cases (List.getElem?_eq_getElem (placed index rfl)) hstart with
      ⟨-, upper, hgo, rfl⟩ | ⟨-, other, -, -, rfl, rfl⟩
    · obtain ⟨hub₁, -, side, -, posted⟩ := Hub.announce_cases hgo
      have hc : hub'.current = none :=
        Hub.current_of_loopSide ((Hub.loopSide_posted posted).trans side)
      rw [List.append_assoc]
      exact hs.bare_light hc (posted_light posted _) rfl
    · exact (hs.append [.mark other.nanoapp.info false, .answer client _] rfl).hook
        rfl rfl
  | left => exact ⟨ha.1, ha.2.2.2.2⟩

theorem step_agrees (placed : ∀ i, frame.index? = some i → i < hub.apps.length)
    (hattributed : Attributed hub.current (frame :: rest)) (ha : Agrees hub (frame :: rest))
    (h : frame.step hub = .go hub' frames) : Agrees hub' (frames ++ rest) := by
  cases light : frame.isLight with
  | true => exact agrees_light light ha h
  | false =>
    obtain ⟨hloaded, hcontext, hrestores, hlent, hrest⟩ := ha
    have plain := hlent light
    cases frame with
    | code actor routine =>
      have ho := Routine.step_outcome placed h
      cases actor with
      | start | entry => exact agrees_app ho placed ⟨hloaded, hcontext, hrestores, hlent, hrest⟩
      | loop =>
        have hc := hattributed.1 rfl
        rw [hc] at hrest
        exact agrees_nobody placed ⟨plain, hrest.elsewhere plain⟩ hc rfl h
      | _ => cases light
    | delivered index =>
      cases h
      exact ⟨.nobody rfl, hrest.elsewhere plain _⟩
    | erase index load info =>
      cases h
      exact ⟨.nobody rfl, hrest.elsewhere plain _⟩
    | restore previous =>
      cases h
      obtain rfl := hrestores previous rfl
      exact ⟨.nobody rfl, hrest⟩
    | release load info managers =>
      cases managers with
      | nil =>
        cases h
        exact ⟨hloaded, hrest⟩
      | cons manager left =>
        cases h
        refine ⟨hloaded, fun context hc => ?_, fun previous h => ?_, fun heavy => ?_,
          hcontext, hrestores, hlent, hrest⟩
        · exact hcontext context hc
        · cases h
        · cases heavy
    | evict | vacate | enqueue => cases light
    | _ =>
      have hc := hattributed.1 rfl
      rw [hc] at hrest
      exact agrees_nobody placed ⟨plain, hrest.elsewhere plain⟩ hc rfl h

theorem context_below {infos : List Info} {current : Option UInt16} {r : Reach} {a : Answer}
    {actor : Actor σ r a} {routine : Routine σ r a} (light : ∀ f ∈ upper, f.isLight = true)
    (hc : InContext infos current (upper ++ .code actor routine :: lower))
    (ha : Attributed current (upper ++ .code actor routine :: lower))
    {context : Option UInt16} (h : actor.context? infos = some context) : current = context := by
  induction upper with
  | nil =>
    cases actor with
    | loop =>
      cases h
      exact ha.1 rfl
    | handle | release | start | entry => exact hc.1 context h
  | cons frame upper ih =>
    have hrestores := (behalf_of_isLight (light frame (List.mem_cons_self ..))).2
    have hc' := hc.2.2.2
    have ha' := ha.2
    rw [hrestores] at hc' ha'
    exact ih (fun f hf => light f (List.mem_cons_of_mem _ hf)) hc' ha'

/-- The app whose code runs below light frames is loaded. -/
theorem placed_below {places : Nat} {r : Reach} {a : Answer} {actor : Actor σ r a}
    {routine : Routine σ r a} (hn : Nested places (upper ++ .code actor routine :: lower))
    {index : Nat} (h : actor.place? = some index) : index < places := by
  induction upper with
  | nil => exact hn.1 index h
  | cons frame upper ih => exact ih hn.2.2

theorem nobody_outside {current : Option UInt16} (ha : Attributed current frames)
    (outside : ∀ f ∈ frames, f.isLight = true ∨ ∃ routine, f = .code (.loop .outside) routine) :
    current = none := by
  induction frames with
  | nil => exact ha
  | cons frame rest ih =>
    rcases outside frame (List.mem_cons_self ..) with light | ⟨routine, rfl⟩
    · have ha' := ha.2
      rw [(behalf_of_isLight light).2] at ha'
      exact ih ha' fun f hf => outside f (List.mem_cons_of_mem _ hf)
    · exact ha.1 rfl

end Frame

namespace Machine

variable {m : Machine σ}

theorem Reachable.agrees (hm : m.Reachable) : Frame.Agrees m.hub m.frames := by
  refine hm.keeps (P := Frame.Agrees) ?_ ?_ ?_
  · intro config collaborators memory now routine _
    exact ⟨.nobody rfl, fun _ h => (by cases h), fun _ h => (by cases h), fun _ _ hf => by simp at hf,
      trivial⟩
  · intro hub hub' frame frames rest hm ha h
    exact Frame.step_agrees hm.nested.1 hm.attributed.2 ha h
  · intro hub frames routine ha
    exact ⟨ha.1, fun _ h => (by cases h), fun _ h => (by cases h), fun heavy => (by cases heavy), ha.2⟩

theorem Reachable.shows_current (hm : m.Reachable) :
    m.hub.snapshot.current = m.hub.view.current := by
  show Hub.ofShown m.hub.shownCurrent = m.hub.current
  rw [hm.attributed.1]
  cases hcurrent : m.hub.current with
  | none => rfl
  | some id =>
    obtain ⟨info, hinfo, rfl⟩ := List.mem_map.mp (hm.agrees.1 id hcurrent)
    have hnamed : info.instanceId ≠ systemId := hm.unloading.assigned info hinfo
    simp [Hub.ofShown, Hub.shown, hnamed]

/-- At every point of every run all threads see who is current for the loop, and whoever this is is
loaded. Code runs in its context, whatever is nested in what and whatever other threads do on top of
it: an entry point in the name of its app, and the release of a resource likewise; a free callback
of an event that has been dispatched or drained in the name of the sender, if that is loaded; the
code around the hub, callbacks with the loop in hand and the services of the hub in nobody's name.
Nobody is current while the loop does nothing. -/
theorem current_in_context (hm : m.Reachable) :
    m.hub.snapshot.current = m.hub.view.current ∧
      (m.hub.view.currentApp?.map fun n => n.info.instanceId) = m.hub.view.current ∧
      (∀ {r : Reach} {a : Answer} {actor : Actor σ r a} {routine : Routine σ r a}
        {upper lower : List (Frame σ)}, m.frames = upper ++ .code actor routine :: lower →
        (∀ f ∈ upper, f.isLight = true) →
          (∀ index, actor.place? = some index → index < m.hub.infos.length) ∧
          ∀ context, actor.context? m.hub.infos = some context → m.hub.view.current = context) ∧
      ((∀ f ∈ m.frames, f.isLight = true ∨ ∃ routine, f = .code (.loop .outside) routine) →
        m.hub.view.current = none) := by
  obtain ⟨-, hattributed⟩ := hm.attributed
  obtain ⟨hloaded, hcontext⟩ := hm.agrees
  refine ⟨hm.shows_current, ?_, ?_, Frame.nobody_outside hattributed⟩
  · cases hcurrent : m.hub.current with
    | none => simp [HubView.currentApp?, Hub.view, hcurrent]
    | some id =>
      have happ : ∃ app, (m.hub.view.apps.find? fun n => n.info.instanceId == id) = some app := by
        obtain ⟨info, hinfo, rfl⟩ := List.mem_map.mp (hloaded id hcurrent)
        obtain ⟨app, ha, rfl⟩ := List.mem_map.mp hinfo
        refine Option.isSome_iff_exists.mp (List.find?_isSome.mpr ⟨app.nanoapp, ?_, by simp⟩)
        exact List.mem_map_of_mem ha
      obtain ⟨app, ha⟩ := happ
      have hid : app.info.instanceId = id := by
        simpa using List.find?_some ha
      have hview : m.hub.view.current = some id := hcurrent
      rw [HubView.currentApp?, hview, Option.bind_some, HubView.appOfInstance?, ha, ← hid]
      rfl
  · intro r a actor routine upper lower hframes light
    rw [hframes] at hcontext hattributed
    refine ⟨fun index hi => ?_, fun context h => ?_⟩
    · have hn := hm.nested
      rw [hframes] at hn
      have hlength : m.hub.infos.length = m.hub.apps.length := List.length_map _
      rw [hlength]
      exact Frame.placed_below hn hi
    · exact Frame.context_below light hcontext hattributed h

/-- Dispatches an event of an app; its free callback looks who is current. -/
def freeInName : Routine Unit .loop .nothing :=
  .start (inertApp 1) fun _ =>
  .postLow ownEvent (some fun _ _ => .observe fun _ => .done ()) fun _ =>
  .runUntilIdle fun _ =>
  .done ()

theorem current_in_context_freeInName :
    ((plain freeInName).advance 26).1.hub.view.current = some 1 := by
  have hm : ((plain freeInName).advance 26).1.Reachable :=
    ⟨_, isStart_plain freeInName, reaches_unfinished (by decide +kernel)⟩
  obtain ⟨-, -, hcontext, -⟩ := current_in_context hm
  have hframes : ((plain freeInName).advance 26).1.frames =
      [] ++ .code (.handle (.freed 1 1)) (.observe fun _ => .done ()) ::
        ((plain freeInName).advance 26).1.frames.tail := rfl
  exact (hcontext hframes (by simp)).2 (some 1) (by decide +kernel)

end Machine

end SensorHub
