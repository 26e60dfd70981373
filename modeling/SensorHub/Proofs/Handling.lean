import SensorHub.Proofs.InFlight
import SensorHub.Proofs.Phases

namespace SensorHub

variable {σ : Type}

/-- An event is on its way from its slot to the apps, or an app handles it. -/
def Cargo.isTransit : Cargo σ → Bool
  | .slot _ | .posting _ | .handler _ => true
  | _ => false

namespace Frame

/-- The frame belongs to an entry point of an app that handles an event, or posts, releases or
gives back. -/
def isGuest : Frame σ → Bool
  | .code (.entry _ _ _) _ | .delivered _ => true
  | frame => frame.isLight

/-- The loop does nothing else before the frame is done. -/
def isUrgent : Frame σ → Bool
  | .cycle _ | .turn _ | .dispatch _ | .discard _ | .distribute _ _ _ | .complete _ | .await => true
  | _ => false

def brings? (hub : Hub σ) : Frame σ → Option Nat
  | .cycle handle | .turn handle | .dispatch handle =>
    (hub.pool.inspect handle).map Posting.serial
  | .distribute posting _ _ => some posting.serial
  | .code (.entry _ _ point) _ => point.serial?
  | _ => none

/-- What a step does for the events that are on their way to the apps. -/
inductive Advance (hub : Hub σ) : Frame σ → Hub σ → List (Frame σ) → Prop
  /-- Code of an app goes on. -/
  | guest {frame hub' frames} (guest : frame.isGuest = true)
      (guests : ∀ f ∈ frames, f.isGuest = true) (running : hub'.running = hub.running)
      (brings : ∀ f ∈ frames, ∀ serial, f.brings? hub' = some serial →
        frame.brings? hub = some serial) : Advance hub frame hub' frames
  /-- No event sets out. -/
  | apart {frame hub' frames} (heavy : frame.isGuest = false)
      (idle : ∀ f ∈ frames, f.isUrgent = false ∧ f.brings? hub' = none) :
      Advance hub frame hub' frames
  | await {hub'} (running : hub'.running = true) : Advance hub .serve hub' [.await]
  | pop {frame handle hub' frames} (front : hub.queue.toList.head? = some handle)
      (inspect : ∀ k, hub'.pool.inspect k = hub.pool.inspect k)
      (how : frame.Pops hub handle frames) : Advance hub frame hub' frames
  | cycle {handle routine} :
      Advance hub (.cycle handle) hub [.code (.handle .beforeCycle) routine, .turn handle]
  | turn {handle hub'} (inspect : ∀ k, hub'.pool.inspect k = hub.pool.inspect k) :
      Advance hub (.turn handle) hub' [.dispatch handle, .endCycle]
  | dispatch {handle posting hub'} (held : hub.pool.inspect handle = some posting) :
      Advance hub (.dispatch handle) hub' [.distribute posting 0 false, .vacate handle]
  | discard {handle posting hub'} :
      Advance hub (.discard handle) hub' [.complete posting, .vacate handle]
  | deliver {posting index reached stopping hub' routine} :
      Advance hub (.distribute posting index reached) hub'
        [.code (.entry index stopping (.event (some posting.serial))) routine, .delivered index,
          .distribute posting (index + 1) true]
  | skip {posting index reached hub'} :
      Advance hub (.distribute posting index reached) hub' [.distribute posting (index + 1) reached]
  | last {posting index reached hub'} :
      Advance hub (.distribute posting index reached) hub' [.complete posting]

theorem isGuest_of_isLight {frame : Frame σ} (h : frame.isLight = true) :
    frame.isGuest = true := by
  cases frame with
  | code actor routine =>
    cases actor with
    | handle | release => rfl
    | _ => cases h
  | evict | vacate | enqueue => rfl
  | _ => cases h

theorem brings?_of_isLight {frame : Frame σ} (hub : Hub σ) (h : frame.isLight = true) :
    frame.brings? hub = none := by
  cases frame with
  | code actor routine =>
    cases actor with
    | handle | release => rfl
    | _ => cases h
  | evict | vacate | enqueue => rfl
  | _ => cases h

/-- Frames that are in charge of no event on its way bring none. -/
theorem idle_of_cargo {frame : Frame σ} (hub : Hub σ)
    (h : ∀ item ∈ frame.cargo, item.isTransit = false) (hawait : frame.isPhase = false) :
    frame.isUrgent = false ∧ frame.brings? hub = none := by
  cases frame with
  | cycle | turn | dispatch | discard | distribute | complete =>
    have hitem := h _ (List.mem_singleton_self _)
    cases hitem
  | await => cases hawait
  | code actor routine =>
    cases actor with
    | entry index stopping point =>
      refine ⟨rfl, ?_⟩
      cases hs : point.serial? with
      | none => exact hs
      | some serial =>
        have hitem := h (.handler serial) (by simp [cargo, hs])
        cases hitem
    | _ => exact ⟨rfl, rfl⟩
  | _ => exact ⟨rfl, rfl⟩

theorem idle_of_all {hub : Hub σ} {frames : List (Frame σ)}
    (h : frames.all (fun f => !f.isUrgent && (f.brings? hub).isNone) = true) :
    ∀ f ∈ frames, f.isUrgent = false ∧ f.brings? hub = none := by
  intro f hf
  have hidle := List.all_eq_true.mp h f hf
  rw [Bool.and_eq_true, Bool.not_eq_true', Option.isNone_iff_eq_none] at hidle
  exact hidle

theorem cargo_of_isLight {frame : Frame σ} (h : frame.isLight = true) :
    ∀ item ∈ frame.cargo, item.isTransit = false := by
  cases frame with
  | code actor routine =>
    cases actor with
    | handle | release => simp [cargo]
    | _ => cases h
  | evict | vacate | enqueue => simp [cargo, Cargo.isTransit]
  | _ => cases h

variable {hub hub' : Hub σ} {frame : Frame σ} {frames rest : List (Frame σ)}
  {below : List (Cargo σ)}

/-- An event sets out only where a handle is taken from the queue. -/
theorem Traffic.idle (h : frame.Traffic hub hub' frames) (ht : hub.Tidy (frame.cargo ++ below))
    (hframe : ∀ item ∈ frame.cargo, item.isTransit = false)
    (hpop : ∀ handle, ¬frame.Pops hub handle frames) :
    ∀ f ∈ frames, ∀ item ∈ f.cargo, item.isTransit = false := by
  have passed : ∀ {lower : List (Frame σ)}, lower.flatMap Frame.cargo = frame.cargo →
      ∀ f ∈ lower, ∀ item ∈ f.cargo, item.isTransit = false := by
    intro lower hcargo f hf item hi
    exact hframe item (hcargo ▸ List.mem_flatMap.mpr ⟨f, hf, hi⟩)
  cases h with
  | pass calm cargo => exact passed cargo
  | post calm kind calm' direct _ posted cargo =>
    intro f hf
    rcases List.mem_append.mp hf with hf | hf
    · exact cargo_of_isLight (Hub.isLight_posted posted f hf)
    · exact passed cargo f hf
  | evict held hd =>
    intro f hf
    rcases List.mem_append.mp hf with hf | hf
    · exact cargo_of_isLight (Hub.isLight_detach hd f hf)
    · simp only [List.mem_cons, List.not_mem_nil, or_false] at hf
      rcases hf with rfl | rfl
      · exact cargo_of_isLight rfl
      · exact cargo_of_isLight rfl
  | pop calm hp how => exact absurd how (hpop _)
  | hollow mem held => exact absurd held (ht.not_hollow mem)
  | dispatch | discard | deliver | forget | free | work =>
    have hitem := hframe _ (List.mem_singleton_self _)
    cases hitem
  | enqueue | vacate | leave => simp

/-- A frame takes the front of the queue, or has nothing left to take. -/
private theorem advance_takes (takes : frame.takes = true)
    (h : frame.step hub = .go hub' frames) : frame.Advance hub hub' frames := by
  obtain ⟨hub₁, hsample, ⟨-, rests⟩ | ⟨handle, hp, pops⟩⟩ := takes_cases takes h
  · cases rests with
    | flush | idle | drain => exact .apart rfl (idle_of_all rfl)
  · obtain ⟨queue, hlist, rfl⟩ := Hub.pop?_eq_some hp
    rcases hsample with rfl | rfl
    · exact .pop (by rw [hlist]; rfl) (fun _ => rfl) pops
    · have hfront : hub.queue.toList = handle :: queue.toList := hlist
      exact .pop (by rw [hfront]; rfl) (fun _ => rfl) pops

private theorem advance_turn (turns : frame.turnsPhase = true) (takes : frame.takes = false)
    (h : frame.Turn hub hub' frames) : frame.Advance hub hub' frames := by
  cases h with
  | stay ordinary =>
    rw [turns] at ordinary
    cases ordinary
  | drain | drained => cases takes
  | await running => exact .await running
  | close | clear | cleared | mark | spare | gone | unmark => exact .apart rfl (idle_of_all rfl)
  | settle side lights =>
    refine .apart rfl fun f hf => ?_
    rcases List.mem_append.mp hf with hf | hf
    · exact idle_of_cargo hub' (cargo_of_isLight (lights f hf)) (isPhase_of_isLight (lights f hf))
    · simp only [List.mem_cons, List.not_mem_nil, or_false] at hf
      rcases hf with rfl | rfl
      · exact ⟨rfl, rfl⟩
      · exact ⟨rfl, rfl⟩

private theorem advance_entry {index : Nat} {stopping : Bool} {point : EntryPoint}
    {routine : Routine σ .app .nothing}
    (placed : ∀ i, (Actor.entry index stopping point : Actor σ _ _).place? = some i →
      i < hub.apps.length)
    (h : (Frame.code (.entry index stopping point) routine).step hub = .go hub' frames) :
    (Frame.code (.entry index stopping point) routine).Advance hub hub' frames := by
  generalize ha : (Actor.entry index stopping point : Actor σ _ _) = actor at *
  cases Routine.step_outcome placed h with
  | quiet calm side =>
    subst ha
    refine .guest rfl (by simp [isGuest]) (congrArg LoopSide.running side) fun f hf serial hs => ?_
    rw [List.mem_singleton.mp hf] at hs
    exact hs
  | tuned =>
    subst ha
    refine .guest rfl (by simp [isGuest]) rfl fun f hf serial hs => ?_
    rw [List.mem_singleton.mp hf] at hs
    exact hs
  | post kind posted =>
    subst ha
    have side := (Hub.loopSide_posted posted).trans (Hub.loopSide_offer ..)
    have light := Hub.isLight_posted posted
    refine .guest rfl (fun f hf => ?_) (congrArg LoopSide.running side) fun f hf serial hs => ?_
    · rcases List.mem_append.mp hf with hf | hf
      · exact isGuest_of_isLight (light f hf)
      · rw [List.mem_singleton.mp hf]
        rfl
    · rcases List.mem_append.mp hf with hf | hf
      · rw [brings?_of_isLight hub' (light f hf)] at hs
        cases hs
      · rw [List.mem_singleton.mp hf] at hs
        exact hs
  | ended place calm side =>
    subst ha
    cases place
  | left => exact .guest rfl (by simp) rfl (by simp)

theorem step_advance (placed : ∀ i, frame.index? = some i → i < hub.apps.length)
    (ht : hub.Tidy (frame.cargo ++ below)) (h : frame.step hub = .go hub' frames) :
    frame.Advance hub hub' frames := by
  have apart : frame.isGuest = false → frame.cargo = [] → frame.turnsPhase = false →
      (∀ handle, ¬frame.Pops hub handle frames) → frame.Advance hub hub' frames := by
    intro heavy hcargo ordinary hpop
    have items := (step_traffic placed h).idle ht (by simp [hcargo]) hpop
    have phases := (step_phase placed ordinary h).2
    exact .apart heavy fun f hf => idle_of_cargo hub' (items f hf) (phases f hf)
  have light : frame.isLight = true → frame.Advance hub hub' frames := by
    intro hlight
    obtain ⟨side, lights⟩ := step_light hlight h
    refine .guest (isGuest_of_isLight hlight) (fun f hf => isGuest_of_isLight (lights f hf))
      (congrArg LoopSide.running side) fun f hf serial hs => ?_
    rw [brings?_of_isLight hub' (lights f hf)] at hs
    cases hs
  cases frame with
  | code actor routine =>
    cases actor with
    | handle | release => exact light rfl
    | entry => exact advance_entry placed h
    | loop | start => exact apart rfl rfl rfl fun _ how => nomatch how
  | evict | vacate | enqueue => exact light rfl
  | restore | answer | remove | release | erase | endCycle | exit =>
    exact apart rfl rfl rfl fun _ how => nomatch how
  | complete posting =>
    have phases := (step_phase placed rfl h).2
    have completed : (∀ f ∈ frames, f.cargo = []) →
        (Frame.complete posting).Advance hub hub' frames := by
      intro hcargo
      exact .apart rfl fun f hf => idle_of_cargo hub' (by simp [hcargo f hf]) (phases f hf)
    rcases Hub.complete_cases h with ⟨-, -, rfl⟩ | ⟨callback, instanceId, -, -, rfl⟩ | ⟨work, -, hw⟩
    · exact completed (by simp)
    · exact completed (by simp [cargo])
    · exact completed (List.flatMap_eq_nil_iff.mp (Hub.calm_perform hw).2.1)
  | delivered index =>
    cases h
    exact .guest rfl (by simp) rfl (by simp)
  | dispatch handle =>
    have hheld : hub.pool.inspect handle ≠ none := ht.not_hollow (List.mem_singleton_self _)
    rcases Hub.dispatch_cases h with ⟨posting, held, rfl, rfl⟩ | ⟨held, -⟩
    · exact .dispatch held
    · exact absurd held hheld
  | discard handle =>
    have hheld : hub.pool.inspect handle ≠ none := ht.not_hollow (List.mem_singleton_self _)
    rcases Hub.discard_cases h with ⟨rfl, ⟨posting, held, rfl⟩ | ⟨held, -⟩⟩
    · exact .discard
    · exact absurd held hheld
  | distribute posting index reached =>
    rcases Hub.offerTo_cases h with
      ⟨app, -, -, rfl, rfl⟩ | ⟨app, -, -, rfl, rfl⟩ | ⟨-, -, rfl⟩
    · exact .deliver
    · exact .skip
    · exact .last
  | cycle handle =>
    cases h
    exact .cycle
  | turn handle =>
    cases h
    exact .turn ((Hub.Calm.refl hub).rollWakeups).inspect
  | flush | drain | await | idle => exact advance_takes rfl h
  | serve | clear | mark | settle | unmark => exact advance_turn rfl rfl (step_turn placed h)

/-- Only a frame that is urgent is in charge of an event that no app handles yet. -/
theorem handler_of_calm (calm : frame.isUrgent = false) :
    ∀ item ∈ frame.cargo, item.isTransit = true → ∃ serial, item = .handler serial := by
  intro item hi transit
  cases frame with
  | cycle | turn | dispatch | discard | distribute | complete => cases calm
  | evict handles =>
    obtain ⟨handle, -, rfl⟩ := List.mem_map.mp hi
    cases transit
  | vacate | enqueue =>
    rw [List.mem_singleton.mp hi] at transit
    cases transit
  | code actor routine =>
    cases actor with
    | entry index stopping point =>
      obtain ⟨serial, -, rfl⟩ := List.mem_map.mp hi
      exact ⟨serial, rfl⟩
    | _ => cases hi
  | _ => cases hi

/-- Above an urgent frame there are only guests, and the hub waits for events only while it
runs. -/
structure Prompt (hub : Hub σ) (frames : List (Frame σ)) : Prop where
  alone : frames.Pairwise fun upper lower => upper.isGuest = false → lower.isUrgent = false
  awaits : .await ∈ frames → hub.running = true

private theorem prompt_heavy (heavy : frame.isGuest = false) (hp : Prompt hub (frame :: rest))
    (halone : frames.Pairwise fun upper lower => upper.isGuest = false → lower.isUrgent = false)
    (hawaits : .await ∈ frames → hub'.running = true) : Prompt hub' (frames ++ rest) := by
  obtain ⟨hframe, hrest⟩ := List.pairwise_cons.mp hp.alone
  have calm : ∀ f ∈ rest, f.isUrgent = false := fun f hf => hframe f hf heavy
  refine ⟨List.pairwise_append.mpr ⟨halone, hrest, fun _ _ f hf _ => calm f hf⟩, fun hm => ?_⟩
  rcases List.mem_append.mp hm with hm | hm
  · exact hawaits hm
  · have hurgent := calm _ hm
    cases hurgent

/-- While the loop does something else no event is on its way to the apps. -/
theorem Prompt.handlers (hp : Prompt hub (frame :: rest)) (heavy : frame.isGuest = false) :
    ∀ item ∈ rest.flatMap Frame.cargo, item.isTransit = true → ∃ serial, item = .handler serial := by
  intro item hi transit
  obtain ⟨f, hf, hi⟩ := List.mem_flatMap.mp hi
  exact handler_of_calm ((List.pairwise_cons.mp hp.alone).1 f hf heavy) item hi transit

/-- Whatever comes of a step, urgent frames stay below guests only. -/
theorem Advance.prompt (h : frame.Advance hub hub' frames) (hp : Prompt hub (frame :: rest)) :
    Prompt hub' (frames ++ rest) := by
  cases h with
  | guest guest guests running brings =>
    have halone : frames.Pairwise fun upper lower =>
        upper.isGuest = false → lower.isUrgent = false := by
      refine List.pairwise_of_forall_mem_list fun upper hu _ _ heavy => ?_
      rw [guests upper hu] at heavy
      cases heavy
    refine ⟨List.pairwise_append.mpr ⟨halone, (List.pairwise_cons.mp hp.alone).2,
      fun upper hu _ _ heavy => ?_⟩, fun hm => ?_⟩
    · rw [guests upper hu] at heavy
      cases heavy
    · rcases List.mem_append.mp hm with hm | hm
      · have hguest := guests _ hm
        cases hguest
      · exact running.trans (hp.awaits (List.mem_cons_of_mem _ hm))
  | apart heavy idle =>
    refine prompt_heavy heavy hp ?_ fun hm => ?_
    · exact List.pairwise_of_forall_mem_list fun _ _ lower hl _ => (idle lower hl).1
    · have hurgent := (idle _ hm).1
      cases hurgent
  | await running => exact prompt_heavy rfl hp (List.pairwise_singleton ..) fun _ => running
  | pop front inspect how =>
    cases how with
    | flush | idle | await | drain =>
      exact prompt_heavy rfl hp (of_decide_eq_true rfl) (by simp)
  | cycle | turn | dispatch | discard | deliver | skip | last =>
    exact prompt_heavy rfl hp (of_decide_eq_true rfl) (by simp)

/-- What is brought to the apps after a step was brought before, or it is the front of the queue
and the loop has taken it from there. -/
theorem Advance.brings (h : frame.Advance hub hub' frames) {f : Frame σ} (hf : f ∈ frames)
    {serial : Nat} (hs : f.brings? hub' = some serial) :
    frame.brings? hub = some serial ∨
      ∃ handle, hub.queue.toList.head? = some handle ∧
        (hub.pool.inspect handle).map Posting.serial = some serial ∧
        (frame = .flush ∨ frame = .await ∨
          hub.running = true ∧ ∃ count actor next, frame = .idle count actor next) := by
  cases h with
  | guest _ _ _ brings => exact .inl (brings f hf serial hs)
  | apart _ idle =>
    rw [(idle f hf).2] at hs
    cases hs
  | await =>
    rw [List.mem_singleton.mp hf] at hs
    cases hs
  | @pop _ handle _ _ front inspect how =>
    have htaken : ∀ {g : Frame σ}, f = g → g.brings? hub' =
        (hub'.pool.inspect handle).map Posting.serial →
        (hub.pool.inspect handle).map Posting.serial = some serial := by
      rintro g rfl hg
      rw [← inspect handle, ← hg]
      exact hs
    cases how with
    | flush =>
      rcases List.mem_cons.mp hf with hf | hf
      · exact .inr ⟨handle, front, htaken hf rfl, .inl rfl⟩
      · rw [List.mem_singleton.mp hf] at hs
        cases hs
    | idle running =>
      rcases List.mem_cons.mp hf with hf | hf
      · exact .inr ⟨handle, front, htaken hf rfl, .inr (.inr ⟨running, _, _, _, rfl⟩)⟩
      · rw [List.mem_singleton.mp hf] at hs
        cases hs
    | await =>
      rcases List.mem_cons.mp hf with hf | hf
      · exact .inr ⟨handle, front, htaken hf rfl, .inr (.inl rfl)⟩
      · rw [List.mem_singleton.mp hf] at hs
        cases hs
    | drain =>
      simp only [List.mem_cons, List.not_mem_nil, or_false] at hf
      rcases hf with rfl | rfl
      · cases hs
      · cases hs
  | cycle =>
    simp only [List.mem_cons, List.not_mem_nil, or_false] at hf
    rcases hf with rfl | rfl
    · cases hs
    · exact .inl hs
  | @turn handle _ inspect =>
    simp only [List.mem_cons, List.not_mem_nil, or_false] at hf
    rcases hf with rfl | rfl
    · refine .inl (Eq.trans ?_ hs)
      exact congrArg (Option.map Posting.serial) (inspect handle).symm
    · cases hs
  | @dispatch handle posting _ held =>
    simp only [List.mem_cons, List.not_mem_nil, or_false] at hf
    rcases hf with rfl | rfl
    · refine .inl (Eq.trans ?_ hs)
      exact congrArg (Option.map Posting.serial) held
    · cases hs
  | discard =>
    simp only [List.mem_cons, List.not_mem_nil, or_false] at hf
    rcases hf with rfl | rfl
    · cases hs
    · cases hs
  | deliver =>
    simp only [List.mem_cons, List.not_mem_nil, or_false] at hf
    rcases hf with rfl | rfl | rfl
    · exact .inl hs
    · cases hs
    · exact .inl hs
  | skip =>
    rw [List.mem_singleton.mp hf] at hs
    exact .inl hs
  | last =>
    rw [List.mem_singleton.mp hf] at hs
    cases hs

end Frame

namespace Machine

/-- A step of a reachable machine is one of the listed advances. -/
theorem Reachable.advance {hub hub' : Hub σ} {frame : Frame σ} {frames rest : List (Frame σ)}
    (hm : Reachable ⟨hub, frame :: rest⟩) (h : frame.step hub = .go hub' frames) :
    frame.Advance hub hub' frames :=
  Frame.step_advance hm.nested.1 hm.tidy h

theorem Reachable.prompt {m : Machine σ} (hm : m.Reachable) : Frame.Prompt m.hub m.frames := by
  refine hm.keeps (P := Frame.Prompt) ?_ ?_ ?_
  · intro config collaborators memory now routine _
    exact ⟨List.pairwise_singleton .., by simp⟩
  · intro hub hub' frame frames rest hm hp h
    exact (hm.advance h).prompt hp
  · intro hub frames routine hp
    refine ⟨List.pairwise_cons.mpr ⟨fun _ _ heavy => ?_, hp.alone⟩, fun hm => ?_⟩
    · cases heavy
    · exact hp.awaits (by simpa using hm)

end Machine

end SensorHub
