import SensorHub.Proofs.Nesting

namespace SensorHub

variable {σ : Type}

namespace Frame

/-- Who is current once the frame is done, where the frame decides this. -/
def restores? : Frame σ → Option (Option UInt16)
  | .restore previous => some previous
  | .code (.start _ _ _) _ | .delivered _ | .erase _ _ _ => some none
  | _ => none

/-- The frame works on behalf of whoever is current. -/
def isBehalf : Frame σ → Bool
  | .code (.loop _) _ => false
  | .code _ _ | .evict _ | .vacate _ | .enqueue _ | .delivered _ | .restore _ | .release _ _ _
  | .erase _ _ _ => true
  | _ => false

/-- What is not done on behalf of an app is done while none is current, and in the end none is. -/
def Attributed (current : Option UInt16) : List (Frame σ) → Prop
  | [] => current = none
  | frame :: rest =>
    (frame.isBehalf = false → current = none) ∧ Attributed (frame.restores?.getD current) rest

variable {hub hub' : Hub σ} {frame : Frame σ} {frames upper rest : List (Frame σ)}
  {current : Option UInt16}

theorem attributed_append (hu : Attributed current upper) (hr : Attributed none rest) :
    Attributed current (upper ++ rest) := by
  induction upper generalizing current with
  | nil =>
    have hnone : current = none := hu
    rw [hnone]
    exact hr
  | cons frame upper ih => exact ⟨hu.1, ih hu.2⟩

/-- Frames that neither need nor decide who is current do not matter. -/
theorem attributed_behalf (hu : ∀ f ∈ upper, f.isBehalf = true ∧ f.restores? = none)
    (hr : Attributed current rest) : Attributed current (upper ++ rest) := by
  induction upper with
  | nil => exact hr
  | cons frame upper ih =>
    obtain ⟨behalf, restores⟩ := hu frame (List.mem_cons_self ..)
    refine ⟨fun h => ?_, ?_⟩
    · rw [behalf] at h
      cases h
    · rw [restores]
      exact ih fun f hf => hu f (List.mem_cons_of_mem _ hf)

theorem behalf_of_isLight (h : frame.isLight = true) :
    frame.isBehalf = true ∧ frame.restores? = none := by
  cases frame with
  | code actor routine =>
    cases actor with
    | handle | release => exact ⟨rfl, rfl⟩
    | _ => cases h
  | evict | vacate | enqueue => exact ⟨rfl, rfl⟩
  | _ => cases h

theorem attributed_light (hu : ∀ f ∈ upper, f.isLight = true) (hr : Attributed current rest) :
    Attributed current (upper ++ rest) :=
  attributed_behalf (fun f hf => behalf_of_isLight (hu f hf)) hr

/-- Frames that decide nothing, while none is current. -/
theorem attributed_nobody (h : frames.all (fun f => f.restores?.isNone) = true) :
    Attributed none frames := by
  induction frames with
  | nil => rfl
  | cons frame frames ih =>
    rw [List.all_cons, Bool.and_eq_true, Option.isNone_iff_eq_none] at h
    refine ⟨fun _ => rfl, ?_⟩
    rw [h.1]
    exact ih h.2

end Frame

namespace Hub

def Showing (hub : Hub σ) : Prop :=
  hub.shownCurrent = shown hub.current

theorem Showing.of_loopSide {hub hub' : Hub σ} (h : hub'.loopSide = hub.loopSide)
    (hs : hub.Showing) : hub'.Showing ∧ hub'.current = hub.current := by
  have hcurrent : hub'.current = hub.current := congrArg LoopSide.current h
  have hshown : hub'.shownCurrent = hub.shownCurrent := congrArg LoopSide.shownCurrent h
  refine ⟨?_, hcurrent⟩
  rw [Showing, hshown, hcurrent]
  exact hs

end Hub

namespace Frame

variable {hub hub' : Hub σ} {frame : Frame σ} {frames upper rest : List (Frame σ)}

/-- After a step other threads see who is current, and the new frames agree with it. -/
def Names (hub' : Hub σ) (frames : List (Frame σ)) : Prop :=
  hub'.Showing ∧ Attributed hub'.current frames

theorem Names.nobody (hs : hub.Showing) (hc : hub.current = none)
    (h : frames.all (fun f => f.restores?.isNone) = true) : Names hub frames := by
  refine ⟨hs, ?_⟩
  rw [hc]
  exact attributed_nobody h

theorem Rests.undecided (h : frame.Rests hub frames) :
    frames.all (fun f => f.restores?.isNone) = true := by
  cases h with
  | flush | idle | drain => rfl

theorem Pops.undecided {handle : Handle} (h : frame.Pops hub handle frames) :
    frames.all (fun f => f.restores?.isNone) = true := by
  cases h with
  | flush | idle | await | drain => rfl

private theorem names_load {app : App σ} {client : LoadClient σ} (hs : hub.Showing)
    (hc : hub.current = none) (h : hub.load app client = .go hub' frames) : Names hub' frames := by
  rcases Hub.load_cases h with ⟨reason, rfl, rfl⟩ | ⟨id, hub₁, -, -, rfl, rfl, rfl⟩
  · exact .nobody hs hc rfl
  · exact ⟨rfl, fun h => (by cases h), rfl⟩

private theorem names_deliverTo (hub : Hub σ) (index : Nat) (app : App σ) (serial : Option Nat)
    (event : Event) (hasCallback : Bool) (h : rest.all (fun f => f.restores?.isNone) = true) :
    Names (hub.deliverTo index app serial event hasCallback).1
      ((hub.deliverTo index app serial event hasCallback).2 ++ rest) := by
  refine ⟨rfl, fun h => (by cases h), fun h => (by cases h), ?_⟩
  exact attributed_nobody h

private theorem names_perform {serial : Nat} {work : SystemWork σ} (hs : hub.Showing)
    (hc : hub.current = none) (h : hub.perform serial work = .go hub' frames) :
    Names hub' frames := by
  rcases Hub.perform_cases h with
    ⟨-, rfl, rfl⟩ | ⟨app, -, -, hl⟩ | ⟨app, -, -, rfl, rfl⟩ |
    ⟨instanceId, force, app, -, -, -, rfl, rfl⟩ |
    ⟨instanceId, force, report, reason, -, hreport, rfl, rfl⟩ | ⟨kind, routine, -, rfl, rfl⟩
  · exact .nobody hs hc rfl
  · exact names_load hs hc hl
  · exact .nobody hs hc rfl
  · exact .nobody hs hc rfl
  · exact .nobody hs hc rfl
  · exact .nobody hs hc rfl

private theorem restores?_of_not_isBehalf (h : frame.isBehalf = false) :
    frame.restores? = none := by
  cases frame with
  | code actor routine =>
    cases actor with
    | loop => rfl
    | _ => cases h
  | restore | delivered | erase => cases h
  | _ => rfl

private theorem names_loop {actor : LoopActor} {routine : Routine σ .loop .nothing}
    (hs : hub.Showing) (hc : hub.current = none)
    (ho : Routine.Outcome hub (.loop actor) routine hub' frames) : Names hub' frames := by
  cases ho with
  | quiet calm side =>
    obtain ⟨hs', hc'⟩ := hs.of_loopSide side
    exact .nobody hs' (hc'.trans hc) rfl
  | post kind posted =>
    obtain ⟨hs', hc'⟩ := hs.of_loopSide ((Hub.loopSide_posted posted).trans (Hub.loopSide_offer ..))
    refine ⟨hs', attributed_light (Hub.isLight_posted posted) ?_⟩
    rw [hc', hc]
    exact attributed_nobody rfl
  | load hl => exact names_load hs hc hl
  | unload | idle | run => exact .nobody hs hc rfl
  | deliver ha => exact names_deliverTo _ _ _ _ _ _ rfl
  | message =>
    refine ⟨rfl, fun h => (by cases h), fun h => (by cases h), ?_⟩
    show Attributed hub.current _
    rw [hc]
    exact attributed_nobody rfl
  | ended place calm side =>
    obtain ⟨hs', hc'⟩ := hs.of_loopSide side
    exact .nobody hs' (hc'.trans hc) rfl

/-- What is done in nobody's name hands work on to the one who is current then. -/
private theorem step_names (placed : ∀ i, frame.index? = some i → i < hub.apps.length)
    (hs : hub.Showing) (hc : hub.current = none) (nobody : frame.isBehalf = false)
    (h : frame.step hub = .go hub' frames) : Names hub' frames := by
  cases frame with
  | code actor routine =>
    cases actor with
    | loop actor =>
      have ho : Routine.Outcome hub (.loop actor) routine hub' frames :=
        Routine.step_outcome placed h
      exact names_loop hs hc ho
    | _ => cases nobody
  | dispatch handle =>
    rcases Hub.dispatch_cases h with ⟨posting, -, rfl, rfl⟩ | ⟨-, rfl, rfl⟩
    · exact .nobody hs hc rfl
    · exact .nobody hs hc rfl
  | discard handle =>
    rcases Hub.discard_cases h with ⟨rfl, ⟨posting, -, rfl⟩ | ⟨-, rfl⟩⟩
    · exact .nobody hs hc rfl
    · exact .nobody hs hc rfl
  | distribute posting index reached =>
    rcases Hub.offerTo_cases h with
      ⟨app, -, -, rfl, rfl⟩ | ⟨app, -, -, rfl, rfl⟩ | ⟨-, hcount, rfl⟩
    · exact names_deliverTo _ _ _ _ _ _ rfl
    · exact .nobody hs hc rfl
    · rcases hcount with rfl | rfl
      · exact .nobody hs hc rfl
      · exact .nobody hs hc rfl
  | complete posting =>
    rcases Hub.complete_cases h with
      ⟨-, rfl, rfl⟩ | ⟨callback, instanceId, -, rfl, rfl⟩ | ⟨work, -, hw⟩
    · exact .nobody hs hc rfl
    · exact ⟨rfl, fun h => (by cases h), fun h => (by cases h), hc⟩
    · have hs' : (hub.record (.worked posting.serial)).Showing := hs
      exact names_perform hs' hc hw
  | answer client result =>
    cases client with
    | routine actor next =>
      cases h
      exact .nobody hs hc rfl
    | request appId =>
      cases result with
      | ok | error =>
        cases h
        exact .nobody hs hc rfl
  | mark info started =>
    cases started with
    | true | false =>
      cases h
      exact .nobody hs hc rfl
  | settle info started previous =>
    rcases Hub.settleUnload_cases h with
      ⟨-, rfl, rfl⟩ | ⟨index, -, ⟨-, upper, hgo, rfl⟩ | ⟨-, rfl, rfl⟩⟩
    · exact .nobody hs hc rfl
    · obtain ⟨side, light⟩ := Hub.light_announce hgo
      obtain ⟨hs', hc'⟩ := hs.of_loopSide side
      refine ⟨hs', attributed_light light ?_⟩
      rw [hc', hc]
      exact attributed_nobody rfl
    · exact .nobody hs hc rfl
  | remove index started =>
    rcases Hub.removeAt_cases h with
      ⟨-, rfl, rfl⟩ | ⟨app, -, ⟨-, rfl, rfl⟩ | ⟨-, rfl, rfl⟩⟩
    · exact .nobody hs hc rfl
    · exact ⟨rfl, fun h => (by cases h), fun h => (by cases h), fun h => (by cases h), rfl⟩
    · exact ⟨rfl, fun h => (by cases h), fun h => (by cases h), rfl⟩
  | flush | drain | await | idle =>
    obtain ⟨hs', hc'⟩ := hs.of_loopSide (loopSide_takes rfl h)
    obtain ⟨hub₁, -, ⟨-, rests⟩ | ⟨handle, -, pops⟩⟩ := takes_cases rfl h
    · exact .nobody hs' (hc'.trans hc) rests.undecided
    · exact .nobody hs' (hc'.trans hc) pops.undecided
  | serve | clear =>
    simp only [step] at h
    split at h
    all_goals
      cases h
      exact .nobody hs hc rfl
  | turn handle =>
    cases h
    obtain ⟨hs', hc'⟩ := hs.of_loopSide (Hub.loopSide_rollWakeups hub)
    exact .nobody hs' (hc'.trans hc) rfl
  | unmark | cycle | endCycle | exit =>
    cases h
    exact .nobody hs hc rfl
  | evict | vacate | enqueue | delivered | restore | release | erase => cases nobody

/-- Code of an app goes on on behalf of the app, or it ends and a frame below decides. -/
private theorem attributed_app {a : Answer} {actor : Actor σ .app a} {routine : Routine σ .app a}
    (ho : Routine.Outcome hub actor routine hub' frames)
    (placed : ∀ i, actor.place? = some i → i < hub.apps.length) (hs : hub.Showing)
    (ha : Attributed hub.current (.code actor routine :: rest)) :
    hub'.Showing ∧ Attributed hub'.current (frames ++ rest) := by
  have goes : ∀ {next upper}, hub'.current = hub.current → (∀ f ∈ upper, f.isLight = true) →
      Attributed hub'.current ((upper ++ [.code actor next]) ++ rest) := by
    intro next upper hc light
    rw [List.append_assoc, hc]
    refine attributed_light light ⟨fun h => ?_, ?_⟩
    · cases actor with
      | start | entry => cases h
    · cases actor with
      | start | entry => exact ha.2
  cases ho with
  | quiet calm side =>
    obtain ⟨hs', hc'⟩ := hs.of_loopSide side
    exact ⟨hs', @goes _ [] hc' (by simp)⟩
  | tuned => exact ⟨hs, @goes _ [] rfl (by simp)⟩
  | post kind posted =>
    obtain ⟨hs', hc'⟩ := hs.of_loopSide ((Hub.loopSide_posted posted).trans (Hub.loopSide_offer ..))
    exact ⟨hs', goes hc' (Hub.isLight_posted posted)⟩
  | ended place =>
    cases actor with
    | start | entry => cases place
  | @started index stopping client ok _ _ hstart =>
    have hloaded := List.getElem?_eq_getElem (placed index rfl)
    have hnames : Names hub' frames := by
      rcases Hub.finishStart_cases hloaded hstart with
        ⟨-, upper, hgo, rfl⟩ | ⟨-, other, -, -, rfl, rfl⟩
      · obtain ⟨side, light⟩ := Hub.light_announce hgo
        obtain ⟨hs', hc'⟩ := Hub.Showing.of_loopSide side rfl
        refine ⟨hs', attributed_light light ?_⟩
        rw [hc']
        exact attributed_nobody rfl
      · exact .nobody rfl rfl rfl
    exact ⟨hnames.1, attributed_append hnames.2 ha.2⟩
  | left => exact ⟨hs, ha.2⟩

theorem step_attributed (placed : ∀ i, frame.index? = some i → i < hub.apps.length)
    (hs : hub.Showing) (ha : Attributed hub.current (frame :: rest))
    (h : frame.step hub = .go hub' frames) :
    hub'.Showing ∧ Attributed hub'.current (frames ++ rest) := by
  cases behalf : frame.isBehalf with
  | false =>
    have hc := ha.1 behalf
    have hrest := ha.2
    rw [restores?_of_not_isBehalf behalf, hc] at hrest
    obtain ⟨hs', hframes⟩ := step_names placed hs hc behalf h
    exact ⟨hs', attributed_append hframes hrest⟩
  | true =>
    have light : frame.isLight = true →
        hub'.Showing ∧ Attributed hub'.current (frames ++ rest) := by
      intro light
      obtain ⟨side, hframes⟩ := step_light light h
      obtain ⟨hs', hc'⟩ := hs.of_loopSide side
      have hrest := ha.2
      rw [(behalf_of_isLight light).2] at hrest
      refine ⟨hs', attributed_light hframes ?_⟩
      rw [hc']
      exact hrest
    cases frame with
    | code actor routine =>
      have ho := Routine.step_outcome placed h
      cases actor with
      | loop => cases behalf
      | handle | release => exact light rfl
      | start | entry => exact attributed_app ho placed hs ha
    | evict | vacate | enqueue => exact light rfl
    | delivered | erase =>
      cases h
      exact ⟨rfl, ha.2⟩
    | restore previous =>
      cases h
      exact ⟨rfl, ha.2⟩
    | release load info managers =>
      cases managers with
      | nil =>
        cases h
        exact ⟨hs, ha.2⟩
      | cons manager left =>
        cases h
        exact ⟨hs, fun h => (by cases h), fun h => (by cases h), ha.2⟩
    | _ => cases behalf

end Frame

namespace Machine

/-- In every run it is known in whose name the loop works, and other threads see it. -/
theorem Reachable.attributed {m : Machine σ} (hm : m.Reachable) :
    m.hub.Showing ∧ Frame.Attributed m.hub.current m.frames := by
  refine hm.keeps (P := fun hub frames => hub.Showing ∧ Frame.Attributed hub.current frames) ?_ ?_ ?_
  · intro config collaborators memory now routine _
    exact ⟨rfl, fun _ => rfl, rfl⟩
  · intro hub hub' frame frames rest hm ha h
    exact Frame.step_attributed hm.nested.1 ha.1 ha.2 h
  · intro hub frames routine ha
    exact ⟨ha.1, fun h => (by cases h), ha.2⟩

end Machine

end SensorHub
