import SensorHub.Proofs.LoopSide

namespace SensorHub.Hub

variable {σ : Type} {hub hub' : Hub σ} {frames : List (Frame σ)}

theorem postRunning_go {posting : Posting σ} (h : hub.postRunning posting = .go hub' frames) :
    ∃ evicted, hub.makeRoom = (.found evicted, hub') ∧
      frames = [.evict evicted, .enqueue posting] := by
  unfold postRunning at h
  split at h
  next evicted hub₁ hm =>
    cases h
    exact ⟨evicted, hm, rfl⟩
  next => cases h
  next => cases h

/-- A load is refused, or the app is enrolled under the first free instance id and starts. -/
theorem load_cases {app : App σ} {client : LoadClient σ}
    (h : hub.load app client = .go hub' frames) :
    (∃ reason, hub' = hub.log (.loadRefused reason) ∧
      frames = [.answer client (.error reason)]) ∨
    ∃ id hub₁, hub.loadRefusal? app.nanoapp.info = none ∧
      firstFreeId (fun id => (hub.indexOf? id).isSome) 65536 hub.nextId = some id ∧
      hub₁ = ({ hub with nextId := id + 1 }.enroll app id
        (.new hub.config.wakeupBuckets.toNat)).2 ∧
      hub' = (hub₁.setCurrent (some id)).record
        (.entered hub₁.loads id .start (hub₁.isStopping id)) ∧
      frames = [.code (.start hub.apps.length (hub₁.isStopping id) client) app.onStart] := by
  unfold load at h
  split at h
  next reason hr =>
    cases h
    exact .inl ⟨reason, rfl, rfl⟩
  next hr =>
    cases hf : firstFreeId (fun id => (hub.indexOf? id).isSome) 65536 hub.nextId with
    | none =>
      simp only [assignId, hf] at h
      cases h
      exact .inl ⟨_, rfl, rfl⟩
    | some id =>
      simp only [assignId, hf] at h
      split at h
      next => cases h
      next wakeups hw =>
        obtain rfl := Wakeups.new?_eq_some hw
        cases h
        exact .inr ⟨id, _, hr, rfl, rfl, rfl, rfl⟩

/-- An unload is rejected, or it begins with the host messages of the app. -/
theorem unload_cases (hub : Hub σ) (instanceId : UInt16) (force started : Bool) :
    ((∀ app ∈ hub.apps, app.nanoapp.info.instanceId ≠ instanceId) ∧
      hub.unload instanceId force started =
        (.error (.notFound instanceId), hub.log (.nothingToUnload instanceId), [])) ∨
    (force = false ∧ hub.unload instanceId force started =
      (.error (.systemNanoapp instanceId), hub.log (.systemProtected instanceId), [])) ∨
    ∃ app ∈ hub.apps, app.nanoapp.info.instanceId = instanceId ∧
      hub.unload instanceId force started =
        (.ok (), hub, [.code (.handle (.flushMessages app.nanoapp.info))
          (hub.collaborators.flushMessages app.nanoapp.info), .mark app.nanoapp.info started]) := by
  unfold unload
  split
  next hf =>
    refine .inl ⟨fun app ha he => ?_, rfl⟩
    have hne := List.find?_eq_none.mp hf app ha
    simp [he] at hne
  next app hf =>
    split
    next hp =>
      refine .inr (.inl ⟨?_, rfl⟩)
      cases force
      · rfl
      · simp at hp
    next =>
      have hid : (app.nanoapp.info.instanceId == instanceId) = true :=
        List.find?_some (p := fun app : App σ => app.nanoapp.info.instanceId == instanceId) hf
      exact .inr (.inr ⟨app, List.mem_of_find?_eq_some hf, beq_iff_eq.mp hid, rfl⟩)

theorem unload_record (hub : Hub σ) {incident : Incident} (id : UInt16)
    (force started : Bool) :
    ((hub.record incident).unload id force started).1 = (hub.unload id force started).1 := by
  unfold unload
  have happs : (hub.record incident).apps = hub.apps := rfl
  rw [happs]
  split
  next => rfl
  next => split <;> rfl

/-- Once the first entry point has ended, the start is announced or the app is unloaded again. -/
theorem finishStart_cases {index : Nat} {client : LoadClient σ} {ok : Bool} {app : App σ}
    (ha : hub.apps[index]? = some app) (h : hub.finishStart index client ok = .go hub' frames) :
    (ok = true ∧ ∃ upper, (((hub.setCurrent none).record (.left app.nanoapp.load .start)).log
        (.started app.nanoapp.info)).announce EventType.nanoappStarted app.nanoapp.load
          app.nanoapp.info = .go hub' upper ∧
        frames = upper ++ [.answer client (.ok app.nanoapp.info.instanceId)]) ∨
    (ok = false ∧ ∃ other ∈ hub.apps,
      other.nanoapp.info.instanceId = app.nanoapp.info.instanceId ∧
      hub' = ((hub.setCurrent none).record (.left app.nanoapp.load .start)).log
        (.startFailed app.nanoapp.info) ∧
      frames = [.code (.handle (.flushMessages other.nanoapp.info))
          (hub.collaborators.flushMessages other.nanoapp.info), .mark other.nanoapp.info false,
        .answer client (.error (.startFailed app.nanoapp.info.appId
          app.nanoapp.info.instanceId))]) := by
  have hmem : app ∈ hub.apps := List.mem_of_getElem? ha
  simp only [finishStart, setCurrent, ha] at h
  cases ok with
  | true =>
    simp only [if_true] at h
    obtain ⟨upper, hgo, hframes⟩ := Effect.above_eq_go.mp h
    exact .inl ⟨rfl, upper, hgo, hframes⟩
  | false =>
    simp only [Bool.false_eq_true, if_false] at h
    rcases unload_cases (((hub.setCurrent none).record (.left app.nanoapp.load .start)).log
        (.startFailed app.nanoapp.info)) app.nanoapp.info.instanceId true false with
      ⟨hno, -⟩ | ⟨hf, -⟩ | ⟨other, ho, hid, hu⟩
    · exact absurd rfl (hno app hmem)
    · cases hf
    · simp only [setCurrent] at hu
      rw [hu] at h
      cases h
      exact .inr ⟨rfl, other, ho, hid, rfl, rfl⟩

/-- An unload whose queue is flushed finds its app gone, or announces its end and removes it. -/
theorem settleUnload_cases {info : Info} {started : Bool} {previous : Option UInt16}
    (h : hub.settleUnload info started previous = .go hub' frames) :
    (hub.indexOf? info.instanceId = none ∧
      hub' = (hub.log (.wentAway info.instanceId)).setStopping previous ∧ frames = []) ∨
    ∃ index, hub.indexOf? info.instanceId = some index ∧
      ((started = true ∧ ∃ upper,
          hub.announce EventType.nanoappStopped (hub.loadAt index) info = .go hub' upper ∧
          frames = upper ++ [.remove index started, .unmark info previous]) ∨
        (started = false ∧ hub' = hub ∧
          frames = [.remove index started, .unmark info previous])) := by
  unfold settleUnload at h
  split at h
  next hi =>
    cases h
    exact .inl ⟨hi, rfl, rfl⟩
  next index hi =>
    refine .inr ⟨index, hi, ?_⟩
    cases started with
    | true =>
      obtain ⟨upper, hgo, hframes⟩ := Effect.above_eq_go.mp h
      exact .inl ⟨rfl, upper, hgo, hframes⟩
    | false =>
      cases h
      exact .inr ⟨rfl, rfl, rfl⟩

/-- A removal lets the app end if it has started; then it releases what the app holds and erases
it. -/
theorem removeAt_cases {index : Nat} {started : Bool}
    (h : hub.removeAt index started = .go hub' frames) :
    (hub.apps[index]? = none ∧ hub' = hub ∧ frames = []) ∨
    ∃ app, hub.apps[index]? = some app ∧
      ((started = true ∧
          hub' = (hub.setCurrent (some app.nanoapp.info.instanceId)).record
            (.entered app.nanoapp.load app.nanoapp.info.instanceId .finish true) ∧
          frames = [.code (.entry index true .finish) app.onEnd,
            .release app.nanoapp.load app.nanoapp.info hub.collaborators.inReleaseOrder,
            .erase index app.nanoapp.load app.nanoapp.info]) ∨
        (started = false ∧ hub' = hub.setCurrent (some app.nanoapp.info.instanceId) ∧
          frames = [.release app.nanoapp.load app.nanoapp.info hub.collaborators.inReleaseOrder,
            .erase index app.nanoapp.load app.nanoapp.info])) := by
  unfold removeAt at h
  split at h
  next ha =>
    cases h
    exact .inl ⟨ha, rfl, rfl⟩
  next app ha =>
    refine .inr ⟨app, ha, ?_⟩
    cases started with
    | true =>
      cases h
      exact .inl ⟨rfl, rfl, rfl⟩
    | false =>
      cases h
      exact .inr ⟨rfl, rfl, rfl⟩

/-- An event is offered to one app, which receives it or not, or there is no app left. -/
theorem offerTo_cases {posting : Posting σ} {index : Nat} {reached : Bool}
    (h : hub.offerTo posting index reached = .go hub' frames) :
    (∃ app, hub.apps[index]? = some app ∧ wanted posting.event app.nanoapp = true ∧
      hub' = (hub.deliverTo index app (some posting.serial) posting.event
        posting.completion.hasCallback).1 ∧
      frames = (hub.deliverTo index app (some posting.serial) posting.event
        posting.completion.hasCallback).2 ++ [.distribute posting (index + 1) true]) ∨
    (∃ app, hub.apps[index]? = some app ∧ wanted posting.event app.nanoapp = false ∧
      hub' = hub ∧ frames = [.distribute posting (index + 1) reached]) ∨
    (hub.apps[index]? = none ∧ (hub' = hub ∨ hub' = hub.countUndelivered posting.event) ∧
      frames = [.complete posting]) := by
  unfold offerTo at h
  dsimp only at h
  split at h
  next app ha =>
    split at h
    next hw =>
      cases h
      exact .inl ⟨app, ha, hw, rfl, rfl⟩
    next hw =>
      cases h
      exact .inr (.inl ⟨app, ha, by simpa using hw, rfl, rfl⟩)
  next ha =>
    cases h
    refine .inr (.inr ⟨ha, ?_, rfl⟩)
    split
    · exact .inr rfl
    · exact .inl rfl

theorem perform_cases {serial : Nat} {work : SystemWork σ}
    (h : hub.perform serial work = .go hub' frames) :
    (work = .shutdown ∧
      hub' = ({ hub.log .stopRequested with running := false } : Hub σ).record .stopped ∧
      frames = []) ∨
    (∃ app, work = .load app ∧ hub.running = true ∧
      hub.load app (.request app.nanoapp.info.appId) = .go hub' frames) ∨
    (∃ app, work = .load app ∧ hub.running = false ∧
      hub' = hub.log (.loadSkipped app.nanoapp.info.appId) ∧ frames = []) ∨
    (∃ instanceId force app, work = .unload instanceId force ∧ app ∈ hub.apps ∧
      app.nanoapp.info.instanceId = instanceId ∧ hub' = hub ∧
      frames = [.code (.handle (.flushMessages app.nanoapp.info))
        (hub.collaborators.flushMessages app.nanoapp.info), .mark app.nanoapp.info true]) ∨
    (∃ instanceId force report reason, work = .unload instanceId force ∧
      (report = .nothingToUnload instanceId ∨ report = .systemProtected instanceId) ∧
      hub' = (hub.log report).log (.deferredUnloadFailed reason) ∧ frames = []) ∨
    ∃ kind routine, work = .call kind routine ∧ hub' = hub ∧
      frames = [.code (.loop (.callback serial)) routine] := by
  cases work with
  | shutdown =>
    cases h
    exact .inl ⟨rfl, rfl, rfl⟩
  | load app =>
    simp only [perform] at h
    split at h
    next hr => exact .inr (.inl ⟨app, rfl, hr, h⟩)
    next hr =>
      cases h
      exact .inr (.inr (.inl ⟨app, rfl, by simpa using hr, rfl, rfl⟩))
  | unload instanceId force =>
    simp only [perform] at h
    rcases unload_cases hub instanceId force true with
      ⟨-, hu⟩ | ⟨-, hu⟩ | ⟨app, ha, hid, hu⟩
    · rw [hu] at h
      cases h
      exact .inr (.inr (.inr (.inr (.inl ⟨_, _, _, _, rfl, .inl rfl, rfl, rfl⟩))))
    · rw [hu] at h
      cases h
      exact .inr (.inr (.inr (.inr (.inl ⟨_, _, _, _, rfl, .inr rfl, rfl, rfl⟩))))
    · rw [hu] at h
      cases h
      exact .inr (.inr (.inr (.inl ⟨_, _, app, rfl, ha, hid, rfl, rfl⟩)))
  | call kind routine =>
    cases h
    exact .inr (.inr (.inr (.inr (.inr ⟨kind, routine, rfl, rfl, rfl⟩))))

/-- An event that is dispatched leaves its slot, if the slot holds one. -/
theorem dispatch_cases {handle : Handle} (h : hub.dispatch handle = .go hub' frames) :
    (∃ posting, hub.pool.inspect handle = some posting ∧
      hub' = (hub.take handle).2.record (.distributing posting.serial) ∧
      frames = [.distribute posting 0 false, .vacate handle]) ∨
    (hub.pool.inspect handle = none ∧ hub' = (hub.take handle).2.log (.emptyHandle handle) ∧
      frames = [.vacate handle]) := by
  simp only [dispatch, take, Pool.take] at h
  cases held : hub.pool.inspect handle with
  | some posting =>
    simp only [held] at h
    cases h
    exact .inl ⟨posting, rfl, rfl, rfl⟩
  | none =>
    simp only [held] at h
    cases h
    exact .inr ⟨rfl, rfl, rfl⟩

theorem discard_cases {handle : Handle} (h : hub.discard handle = .go hub' frames) :
    hub' = (hub.take handle).2 ∧
      ((∃ posting, hub.pool.inspect handle = some posting ∧
        frames = [.complete posting, .vacate handle]) ∨
      (hub.pool.inspect handle = none ∧ frames = [.vacate handle])) := by
  simp only [discard, take, Pool.take] at h
  cases held : hub.pool.inspect handle with
  | some posting =>
    simp only [held] at h
    cases h
    exact ⟨rfl, .inl ⟨posting, rfl, rfl⟩⟩
  | none =>
    simp only [held] at h
    cases h
    exact ⟨rfl, .inr ⟨rfl, rfl⟩⟩

/-- What is evicted leaves its slot and is released, if the slot holds anything. -/
theorem releaseEvicted_cases (hub : Hub σ) (handle : Handle) :
    (∃ posting, hub.pool.inspect handle = some posting ∧
      hub.releaseEvicted handle =
        ((((hub.take handle).2.record (.evicted posting.serial)).detach posting).1,
          (((hub.take handle).2.record (.evicted posting.serial)).detach posting).2 ++
            [.vacate handle])) ∨
    (hub.pool.inspect handle = none ∧
      hub.releaseEvicted handle = ((hub.take handle).2, [.vacate handle])) := by
  simp only [releaseEvicted, take, Pool.take]
  cases hub.pool.inspect handle with
  | some posting => exact .inl ⟨posting, rfl, rfl⟩
  | none => exact .inr ⟨rfl, rfl⟩

theorem complete_cases {posting : Posting σ} (h : hub.complete posting = .go hub' frames) :
    (posting.completion = .nothing ∧ hub' = hub ∧ frames = []) ∨
    (∃ callback instanceId, posting.completion = .free callback ∧
      hub' = (hub.setCurrent instanceId).record
        (.freed posting.serial posting.event.type posting.event.payload) ∧
      frames = [.code (.handle (.freed posting.serial posting.event.sender))
        (callback posting.event.type posting.event.payload), .restore hub.current]) ∨
    ∃ work, posting.completion = .work work ∧
      (hub.record (.worked posting.serial)).perform posting.serial work = .go hub' frames := by
  unfold complete at h
  cases hc : posting.completion with
  | nothing =>
    simp only [hc] at h
    cases h
    exact .inl ⟨rfl, rfl, rfl⟩
  | free callback =>
    simp only [hc] at h
    cases h
    exact .inr (.inl ⟨callback, _, rfl, rfl, rfl⟩)
  | work work =>
    simp only [hc] at h
    exact .inr (.inr ⟨work, rfl, h⟩)

theorem pop?_eq_some {handle : Handle} (h : hub.pop? = some (handle, hub')) :
    ∃ queue, hub.queue.toList = handle :: queue.toList ∧
      hub' = ({ hub with queue := queue } : Hub σ).record
        (.popped handle ((hub.pool.inspect handle).map Posting.serial)) := by
  simp only [pop?, Option.map_eq_some_iff, Prod.exists, Prod.mk.injEq] at h
  obtain ⟨front, queue, hq, rfl, rfl⟩ := h
  exact ⟨queue, Queue.pop?_eq_some hq, rfl⟩

theorem pop?_eq_none (h : hub.pop? = none) : hub.queue.toList = [] :=
  Queue.pop?_eq_none (Option.map_eq_none_iff.mp h)

theorem pop?_of_front {handle : Handle} (h : hub.queue.toList.head? = some handle) :
    ∃ hub', hub.pop? = some (handle, hub') := by
  cases hp : hub.pop? with
  | none =>
    rw [pop?_eq_none hp] at h
    cases h
  | some popped =>
    obtain ⟨queue, hlist, -⟩ := pop?_eq_some hp
    rw [hlist] at h
    cases h
    exact ⟨popped.2, rfl⟩

theorem loopSide_pop {handle : Handle} (h : hub.pop? = some (handle, hub')) :
    hub'.loopSide = hub.loopSide := by
  obtain ⟨queue, -, rfl⟩ := pop?_eq_some h
  rfl

theorem deliverDirect_cases (hub : Hub σ) (instanceId type : UInt16) (payload : Option Payload) :
    hub.deliverDirect instanceId type payload = (false, hub, []) ∨
    ∃ index app event, hub.indexOf? instanceId = some index ∧ hub.apps[index]? = some app ∧
      event.stamp = Clock.stamp hub.now ∧
      hub.deliverDirect instanceId type payload =
        (true, hub.deliverTo index app none event false) := by
  unfold deliverDirect
  split
  next => exact .inl rfl
  next index hi =>
    split
    next => exact .inl rfl
    next app ha => exact .inr ⟨index, app, _, hi, ha, rfl, rfl⟩

theorem freeMessage_cases (hub : Hub σ) (appId : UInt64) (closure : Routine σ .handle .nothing) :
    hub.freeMessage appId closure = (false, hub.log (.messageOwnerMissing appId), []) ∨
    ∃ instanceId, hub.instanceOfApp? appId = some instanceId ∧
      hub.freeMessage appId closure = (true, hub.setCurrent (some instanceId),
        [.code (.handle (.message instanceId)) closure, .restore hub.current]) := by
  unfold freeMessage
  split
  next => exact .inl rfl
  next instanceId hi => exact .inr ⟨instanceId, hi, rfl⟩

end SensorHub.Hub

namespace SensorHub.Frame

variable {σ : Type} {hub hub' : Hub σ} {frame : Frame σ} {frames : List (Frame σ)}

/-- The frame takes what is queued, one handle after the other. -/
def takes : Frame σ → Bool
  | .flush | .drain | .idle _ _ _ | .await => true
  | _ => false

/-- The frame takes the handle at the front of the queue, and gives way to `frames`. -/
inductive Pops (hub : Hub σ) (handle : Handle) : Frame σ → List (Frame σ) → Prop
  | flush : Pops hub handle .flush [.dispatch handle, .flush]
  | idle {count actor next} (running : hub.running = true) :
      Pops hub handle (.idle count actor next) [.cycle handle, .idle (count + 1) actor next]
  | await : Pops hub handle .await [.cycle handle, .serve]
  | drain : Pops hub handle .drain [.discard handle, .drain]

/-- The frame takes nothing any more, and gives way to `frames`. -/
inductive Rests (hub : Hub σ) : Frame σ → List (Frame σ) → Prop
  | flush (empty : hub.queue.toList = []) : Rests hub .flush []
  | idle {count actor next} :
      Rests hub (.idle count actor next) [.code (.loop actor) (next count)]
  | drain (empty : hub.queue.toList = []) : Rests hub .drain []

/-- Before it looks into the queue, a frame may take a sample of the pool's usage. -/
theorem takes_cases (takes : frame.takes = true) (h : frame.step hub = .go hub' frames) :
    ∃ hub₁, (hub₁ = hub ∨ hub₁ = hub.sampleUsage) ∧
      ((hub' = hub₁ ∧ frame.Rests hub frames) ∨
        ∃ handle, hub₁.pop? = some (handle, hub') ∧ frame.Pops hub handle frames) := by
  cases frame with
  | flush | drain =>
    simp only [step] at h
    split at h
    next hp =>
      cases h
      exact ⟨hub, .inl rfl, .inl ⟨rfl, by constructor; exact Hub.pop?_eq_none hp⟩⟩
    next handle hub₁ hp =>
      cases h
      exact ⟨hub, .inl rfl, .inr ⟨handle, hp, by constructor⟩⟩
  | await =>
    simp only [step] at h
    split at h
    next => cases h
    next handle hub₁ hp =>
      cases h
      exact ⟨hub, .inl rfl, .inr ⟨handle, hp, .await⟩⟩
  | idle count actor next =>
    simp only [step] at h
    split at h
    next running =>
      split at h
      next hp =>
        cases h
        exact ⟨hub.sampleUsage, .inr rfl, .inl ⟨rfl, .idle⟩⟩
      next handle hub₁ hp =>
        cases h
        exact ⟨hub.sampleUsage, .inr rfl, .inr ⟨handle, hp, .idle running⟩⟩
    next =>
      cases h
      exact ⟨hub, .inl rfl, .inl ⟨rfl, .idle⟩⟩
  | _ => cases takes

theorem loopSide_takes (takes : frame.takes = true) (h : frame.step hub = .go hub' frames) :
    hub'.loopSide = hub.loopSide := by
  obtain ⟨hub₁, hsample, ⟨rfl, -⟩ | ⟨handle, hp, -⟩⟩ := takes_cases takes h
  · rcases hsample with rfl | rfl <;> rfl
  · rw [Hub.loopSide_pop hp]
    rcases hsample with rfl | rfl <;> rfl

end SensorHub.Frame
