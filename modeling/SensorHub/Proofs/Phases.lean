import SensorHub.Proofs.Nesting

namespace SensorHub

variable {σ : Type}

namespace Frame

/-- The frame is pushed only where a phase is entered. -/
def isPhase : Frame σ → Bool
  | .await | .drain | .clear | .exit | .settle _ _ _ | .unmark _ _ => true
  | _ => false

def turnsPhase : Frame σ → Bool
  | .serve | .drain | .clear | .mark _ _ | .settle _ _ _ | .unmark _ _ => true
  | _ => false

theorem isPhase_of_isLight {frame : Frame σ} (h : frame.isLight = true) :
    frame.isPhase = false := by
  cases frame with
  | code | evict | vacate | enqueue => rfl
  | _ => cases h

/-- The hub is in the same phase, except that it may have stopped. -/
structure SamePhase (hub hub' : Hub σ) : Prop where
  stopping : hub'.stopping = hub.stopping
  shown : hub'.shownStopping = hub.shownStopping
  running : hub'.running = true → hub.running = true

namespace SamePhase

variable {hub hub₁ hub' : Hub σ}

theorem refl (hub : Hub σ) : SamePhase hub hub :=
  ⟨rfl, rfl, fun h => h⟩

theorem of_loopSide (h : hub'.loopSide = hub.loopSide) : SamePhase hub hub' :=
  ⟨congrArg LoopSide.stopping h, congrArg LoopSide.shownStopping h,
    fun hr => (congrArg LoopSide.running h).symm.trans hr⟩

end SamePhase

/-- What a step does to the phase of a hub. -/
inductive Turn (hub : Hub σ) : Frame σ → Hub σ → List (Frame σ) → Prop
  /-- The hub stays in its phase, except that it may have stopped. -/
  | stay {frame hub' frames} (ordinary : frame.turnsPhase = false) (same : SamePhase hub hub')
      (none : ∀ f ∈ frames, f.isPhase = false) : Turn hub frame hub' frames
  | await (running : hub.running = true) : Turn hub .serve hub.sampleUsage [.await]
  | close (stopped : hub.running = false) : Turn hub .serve hub [.drain, .clear, .drain, .exit]
  | drain {handle hub'} (side : hub'.loopSide = hub.loopSide) :
      Turn hub .drain hub' [.discard handle, .drain]
  | drained {hub'} (side : hub'.loopSide = hub.loopSide) (empty : hub'.queue.toList = []) :
      Turn hub .drain hub' []
  | clear : Turn hub .clear hub [.remove (hub.apps.length - 1) true, .clear]
  | cleared : Turn hub .clear hub []
  | mark {info : Info} : Turn hub (.mark info true) (hub.setStopping (some info.instanceId))
      [.flush, .settle info true hub.stopping]
  | spare {info : Info} : Turn hub (.mark info false) (hub.setStopping (some info.instanceId))
      [.settle info false hub.stopping]
  /-- The app that was marked is not loaded any more. -/
  | gone {info : Info} {started previous} : Turn hub (.settle info started previous)
      ((hub.log (.wentAway info.instanceId)).setStopping previous) []
  | settle {info : Info} {started previous index hub' upper} (side : hub'.loopSide = hub.loopSide)
      (light : ∀ f ∈ upper, f.isLight = true) : Turn hub (.settle info started previous) hub'
        (upper ++ [.remove index started, .unmark info previous])
  | unmark {info : Info} {previous} : Turn hub (.unmark info previous)
      ((hub.setStopping previous).log (.unloaded info)) []

variable {hub hub' : Hub σ} {frame : Frame σ} {frames : List (Frame σ)}

private theorem phase_load {app : App σ} {client : LoadClient σ}
    (h : hub.load app client = .go hub' frames) :
    SamePhase hub hub' ∧ ∀ f ∈ frames, f.isPhase = false := by
  rcases Hub.load_cases h with ⟨reason, rfl, rfl⟩ | ⟨id, hub₁, -, -, rfl, rfl, rfl⟩
  · exact ⟨⟨rfl, rfl, fun h => h⟩, by simp [isPhase]⟩
  · exact ⟨⟨rfl, rfl, fun h => h⟩, by simp [isPhase]⟩

private theorem phase_deliverTo (hub : Hub σ) (index : Nat) (app : App σ) (serial : Option Nat)
    (event : Event) (hasCallback : Bool) :
    SamePhase hub (hub.deliverTo index app serial event hasCallback).1 ∧
      ∀ f ∈ (hub.deliverTo index app serial event hasCallback).2, f.isPhase = false := by
  have side := Hub.loopSide_checkLatency hub event app.nanoapp.info.instanceId
  refine ⟨⟨congrArg LoopSide.stopping side, congrArg LoopSide.shownStopping side,
    fun h => (congrArg LoopSide.running side).symm.trans h⟩, ?_⟩
  simp [Hub.deliverTo, isPhase]

private theorem phase_perform {serial : Nat} {work : SystemWork σ}
    (h : hub.perform serial work = .go hub' frames) :
    SamePhase hub hub' ∧ ∀ f ∈ frames, f.isPhase = false := by
  rcases Hub.perform_cases h with
    ⟨-, rfl, rfl⟩ | ⟨app, -, -, hl⟩ | ⟨app, -, -, rfl, rfl⟩ |
    ⟨instanceId, force, app, -, -, -, rfl, rfl⟩ |
    ⟨instanceId, force, report, reason, -, hreport, rfl, rfl⟩ | ⟨kind, routine, -, rfl, rfl⟩
  · exact ⟨⟨rfl, rfl, fun h => by cases h⟩, by simp⟩
  · exact phase_load hl
  · exact ⟨⟨rfl, rfl, fun h => h⟩, by simp⟩
  · exact ⟨.refl _, by simp [isPhase]⟩
  · exact ⟨⟨rfl, rfl, fun h => h⟩, by simp⟩
  · exact ⟨.refl _, by simp [isPhase]⟩

private theorem phase_code {r : Reach} {a : Answer} {actor : Actor σ r a}
    {routine : Routine σ r a} (placed : ∀ i, actor.place? = some i → i < hub.apps.length)
    (ho : Routine.Outcome hub actor routine hub' frames) :
    SamePhase hub hub' ∧ ∀ f ∈ frames, f.isPhase = false := by
  cases ho with
  | quiet calm side => exact ⟨.of_loopSide side, by simp [isPhase]⟩
  | post kind posted =>
    refine ⟨.of_loopSide ((Hub.loopSide_posted posted).trans (Hub.loopSide_offer ..)), ?_⟩
    intro f hf
    rcases List.mem_append.mp hf with hf | hf
    · exact isPhase_of_isLight (Hub.isLight_posted posted f hf)
    · rw [List.mem_singleton.mp hf]
      rfl
  | load hl => exact phase_load hl
  | unload | idle => exact ⟨.refl _, by simp [isPhase]⟩
  | run | message | tuned => exact ⟨⟨rfl, rfl, fun h => h⟩, by simp [isPhase]⟩
  | @deliver actor _ index app event next ha =>
    obtain ⟨same, hframes⟩ := phase_deliverTo hub index app none event false
    refine ⟨same, fun f hf => ?_⟩
    rcases List.mem_append.mp hf with hf | hf
    · exact hframes f hf
    · rw [List.mem_singleton.mp hf]
      rfl
  | ended place calm side => exact ⟨.of_loopSide side, by simp⟩
  | started hs =>
    have ha := List.getElem?_eq_getElem (placed _ rfl)
    rcases Hub.finishStart_cases ha hs with ⟨-, upper, hgo, rfl⟩ | ⟨-, other, -, -, rfl, rfl⟩
    · obtain ⟨side, light⟩ := Hub.light_announce hgo
      have same := SamePhase.of_loopSide side
      refine ⟨⟨same.stopping, same.shown, same.running⟩, fun f hf => ?_⟩
      rcases List.mem_append.mp hf with hf | hf
      · exact isPhase_of_isLight (light f hf)
      · rw [List.mem_singleton.mp hf]
        rfl
    · exact ⟨⟨rfl, rfl, fun h => h⟩, by simp [isPhase]⟩
  | left => exact ⟨⟨rfl, rfl, fun h => h⟩, by simp⟩

/-- What does not turn a phase leaves the hub in its phase, and enters no other one. -/
theorem step_phase (placed : ∀ i, frame.index? = some i → i < hub.apps.length)
    (ordinary : frame.turnsPhase = false) (h : frame.step hub = .go hub' frames) :
    SamePhase hub hub' ∧ ∀ f ∈ frames, f.isPhase = false := by
  cases frame with
  | code actor routine => exact phase_code placed (Routine.step_outcome placed h)
  | evict | vacate | enqueue =>
    obtain ⟨side, light⟩ := step_light rfl h
    exact ⟨.of_loopSide side, fun f hf => isPhase_of_isLight (light f hf)⟩
  | dispatch handle =>
    rcases Hub.dispatch_cases h with ⟨posting, -, rfl, rfl⟩ | ⟨-, rfl, rfl⟩
    · exact ⟨⟨rfl, rfl, fun h => h⟩, by simp [isPhase]⟩
    · exact ⟨⟨rfl, rfl, fun h => h⟩, by simp [isPhase]⟩
  | discard handle =>
    rcases Hub.discard_cases h with ⟨rfl, ⟨posting, -, rfl⟩ | ⟨-, rfl⟩⟩
    · exact ⟨⟨rfl, rfl, fun h => h⟩, by simp [isPhase]⟩
    · exact ⟨⟨rfl, rfl, fun h => h⟩, by simp [isPhase]⟩
  | distribute posting index reached =>
    rcases Hub.offerTo_cases h with
      ⟨app, -, -, rfl, rfl⟩ | ⟨app, -, -, rfl, rfl⟩ | ⟨-, hcount, rfl⟩
    · obtain ⟨same, hframes⟩ := phase_deliverTo hub index app (some posting.serial) posting.event
        posting.completion.hasCallback
      refine ⟨same, fun f hf => ?_⟩
      rcases List.mem_append.mp hf with hf | hf
      · exact hframes f hf
      · rw [List.mem_singleton.mp hf]
        rfl
    · exact ⟨.refl _, by simp [isPhase]⟩
    · rcases hcount with rfl | rfl
      · exact ⟨.refl _, by simp [isPhase]⟩
      · exact ⟨⟨rfl, rfl, fun h => h⟩, by simp [isPhase]⟩
  | complete posting =>
    rcases Hub.complete_cases h with
      ⟨-, rfl, rfl⟩ | ⟨callback, instanceId, -, rfl, rfl⟩ | ⟨work, -, hw⟩
    · exact ⟨.refl _, by simp⟩
    · exact ⟨⟨rfl, rfl, fun h => h⟩, by simp [isPhase]⟩
    · obtain ⟨same, hframes⟩ := phase_perform hw
      exact ⟨⟨same.stopping, same.shown, same.running⟩, hframes⟩
  | answer client result =>
    cases client with
    | routine actor next =>
      cases h
      exact ⟨.refl _, by simp [isPhase]⟩
    | request appId =>
      cases result with
      | ok | error =>
        cases h
        exact ⟨⟨rfl, rfl, fun h => h⟩, by simp⟩
  | remove index started =>
    rcases Hub.removeAt_cases h with
      ⟨-, rfl, rfl⟩ | ⟨app, -, ⟨-, rfl, rfl⟩ | ⟨-, rfl, rfl⟩⟩
    · exact ⟨.refl _, by simp⟩
    · exact ⟨⟨rfl, rfl, fun h => h⟩, by simp [isPhase]⟩
    · exact ⟨⟨rfl, rfl, fun h => h⟩, by simp [isPhase]⟩
  | release load info managers =>
    cases managers with
    | nil =>
      cases h
      exact ⟨.refl _, by simp⟩
    | cons manager rest =>
      cases h
      exact ⟨⟨rfl, rfl, fun h => h⟩, by simp [isPhase]⟩
  | turn handle =>
    cases h
    exact ⟨.of_loopSide (Hub.loopSide_rollWakeups hub), by simp [isPhase]⟩
  | delivered | restore | erase | cycle | endCycle | exit =>
    cases h
    exact ⟨⟨rfl, rfl, fun h => h⟩, by simp [isPhase]⟩
  | flush | await | idle =>
    refine ⟨.of_loopSide (loopSide_takes rfl h), ?_⟩
    obtain ⟨hub₁, -, ⟨-, rests⟩ | ⟨handle, -, pops⟩⟩ := takes_cases rfl h
    · cases rests
      all_goals simp [isPhase]
    · cases pops
      all_goals simp [isPhase]
  | serve | drain | clear | mark | settle | unmark => cases ordinary

theorem step_turn (placed : ∀ i, frame.index? = some i → i < hub.apps.length)
    (h : frame.step hub = .go hub' frames) : frame.Turn hub hub' frames := by
  by_cases ordinary : frame.turnsPhase = false
  · obtain ⟨same, hframes⟩ := step_phase placed ordinary h
    exact .stay ordinary same hframes
  · cases frame with
    | serve =>
      simp only [step] at h
      split at h
      next running =>
        cases h
        exact .await running
      next stopped =>
        cases h
        exact .close (by simpa using stopped)
    | drain =>
      have side := loopSide_takes rfl h
      obtain ⟨hub₁, hsample, ⟨rfl, rests⟩ | ⟨handle, -, pops⟩⟩ := takes_cases rfl h
      · cases rests with
        | drain empty =>
          refine .drained side ?_
          rcases hsample with rfl | rfl
          · exact empty
          · exact empty
      · cases pops with
        | drain => exact .drain side
    | clear =>
      simp only [step] at h
      split at h
      next =>
        cases h
        exact .cleared
      next =>
        cases h
        exact .clear
    | mark info started =>
      cases started with
      | true =>
        cases h
        exact .mark
      | false =>
        cases h
        exact .spare
    | settle info started previous =>
      rcases Hub.settleUnload_cases h with
        ⟨-, rfl, rfl⟩ | ⟨index, -, ⟨-, upper, hgo, rfl⟩ | ⟨-, rfl, rfl⟩⟩
      · exact .gone
      · obtain ⟨side, light⟩ := Hub.light_announce hgo
        exact .settle side light
      · exact @Turn.settle _ _ _ _ _ _ _ [] rfl (by simp)
    | unmark info previous =>
      cases h
      exact .unmark
    | _ => exact absurd rfl ordinary

end Frame

end SensorHub
