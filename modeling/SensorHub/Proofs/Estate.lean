import SensorHub.Proofs.Course

namespace SensorHub

variable {σ : Type}

/-- The parts of a hub that only dispatching, loading and unloading change, except that an app
changes what is kept of itself. -/
structure Estate (σ : Type) where
  apps : List (App σ)
  peakUsage : Peak UInt64
  undelivered : UInt32
  latencyThrottle : Throttle
  lastRoll : Nat

namespace Hub

variable {hub hub' : Hub σ}

def estate (hub : Hub σ) : Estate σ where
  apps := hub.apps
  peakUsage := hub.peakUsage
  undelivered := hub.undelivered
  latencyThrottle := hub.latencyThrottle
  lastRoll := hub.lastRoll

/-- What only adds minor incidents leaves the estate as it is. -/
theorem estate_of_passes (h : hub.course.Passes hub'.course) : hub'.estate = hub.estate := by
  obtain ⟨news, hcourse, -⟩ := h
  have hestate : hub'.estate = ⟨hub'.course.apps, hub'.course.peakUsage, hub'.course.undelivered,
      hub'.course.latencyThrottle, hub'.course.lastRoll⟩ := rfl
  rw [hestate, hcourse]
  rfl

/-- Nothing has changed, but for what the app at the place keeps of itself. Who it is and how many
events it has processed is not among that. -/
def Tunes (hub : Hub σ) (place? : Option Nat) (hub' : Hub σ) : Prop :=
  hub'.estate = hub.estate ∨ ∃ index change, place? = some index ∧
    hub'.estate = (hub.alterApp index change).estate ∧
    ∀ n : Nanoapp, (change n).load = n.load ∧ (change n).info = n.info ∧
      (change n).eventsProcessed = n.eventsProcessed

end Hub

namespace Actor

def isLoop {r : Reach} {a : Answer} : Actor σ r a → Bool
  | .loop _ => true
  | _ => false

end Actor

namespace Frame

variable {hub hub' : Hub σ} {frame : Frame σ} {frames : List (Frame σ)}

/-- Code that does not hold the loop changes nothing but what its app keeps of itself. -/
theorem code_tunes {r : Reach} {a : Answer} {actor : Actor σ r a} {routine : Routine σ r a}
    (apart : actor.isLoop = false)
    (unended : ∀ index stopping client ok,
      Frame.code actor routine ≠ .code (.start index stopping client) (.done ok))
    (h : routine.step hub actor = .go hub' frames) : hub.Tunes actor.place? hub' := by
  cases routine with
  | post event free next =>
    obtain ⟨upper, hgo, -⟩ := Effect.above_eq_go.mp h
    have hpasses := (hub.passes_offer ..).trans (Hub.passes_postCritical hgo)
    exact .inl (Hub.estate_of_passes hpasses)
  | postLow event free next =>
    cases h
    exact .inl (Hub.estate_of_passes ((hub.passes_offer ..).trans (Hub.passes_postDroppable ..)))
  | request work next =>
    obtain ⟨upper, hgo, -⟩ := Effect.above_eq_go.mp h
    exact .inl (Hub.estate_of_passes (Hub.passes_request hgo))
  | lookInward next =>
    simp only [Routine.step] at h
    split at h <;> cases h <;> exact .inl rfl
  | send event free next =>
    simp only [Routine.step] at h
    split at h
    next =>
      cases h
      exact .inl rfl
    next =>
      cases h
      exact .inl (Hub.estate_of_passes ((hub.passes_offer ..).trans (Hub.passes_postDroppable ..)))
  | register | unregister =>
    simp only [Routine.step] at h
    split at h
    next =>
      cases h
      exact .inl rfl
    next =>
      cases h
      exact .inr ⟨actor.index, _, actor.place?_eq, rfl, fun _ => ⟨rfl, rfl, rfl⟩⟩
  | blame next =>
    cases h
    exact .inr ⟨actor.index, _, actor.place?_eq, rfl, fun _ => ⟨rfl, rfl, rfl⟩⟩
  | done value =>
    cases actor with
    | loop => cases apart
    | start index stopping client => exact absurd rfl (unended index stopping client value)
    | release kind info =>
      cases h
      split <;> exact .inl rfl
    | handle | entry =>
      cases h
      exact .inl rfl
  | inspect | start | unload | runUntilIdle | run | deliver | rollWakeups | freeMessage =>
    cases actor
    cases apart
  | «recall» | store | note | pause | observe =>
    cases h
    exact .inl rfl

theorem estate_light (light : frame.isLight = true) (h : frame.step hub = .go hub' frames) :
    hub'.estate = hub.estate := by
  cases frame with
  | code actor routine =>
    cases actor with
    | handle | release =>
      rcases code_tunes rfl (by simp) h with hsame | ⟨index, change, hplace, -⟩
      · exact hsame
      · cases hplace
    | loop | start | entry => cases light
  | evict handles =>
    cases handles with
    | nil =>
      cases h
      rfl
    | cons handle rest =>
      rcases Hub.releaseEvicted_cases hub handle with ⟨posting, -, hr⟩ | ⟨-, hr⟩
      · simp only [step, hr] at h
        cases h
        have hevicted : hub.course.Passes
            ((hub.take handle).2.record (.evicted posting.serial)).course := hub.passes_record rfl
        exact Hub.estate_of_passes (hevicted.trans (Hub.passes_detach ..))
      · simp only [step, hr] at h
        cases h
        rfl
  | vacate handle =>
    cases h
    exact Hub.estate_of_passes (hub.passes_vacate handle)
  | enqueue posting =>
    have henqueue := Hub.estate_of_passes (hub.passes_enqueue posting)
    simp only [step] at h
    split at h
    next hub₁ he =>
      cases h
      rw [he] at henqueue
      exact henqueue
    next => cases h
  | _ => cases light

end Frame

end SensorHub
