import Mathlib.Algebra.Ring.Nat
import SensorHub.Proofs.Admission
import SensorHub.Proofs.Startup

namespace SensorHub

namespace Machine

variable {σ : Type} {m m₁ : Machine σ} {n k : Nat} {error : Fatal}

/-- After so many steps of its own at most the machine fails. -/
def Breaks (m : Machine σ) (n : Nat) (error : Fatal) : Prop :=
  ∃ k ≤ n, ∃ m' hub, Steps k m m' ∧ m'.step = .failed hub error

theorem Steps.breaks (steps : Steps k m m₁) (breaks : m₁.Breaks n error) :
    m.Breaks (k + n) error := by
  obtain ⟨k', hk', m', hub, steps', fails⟩ := breaks
  exact ⟨k + k', by omega, m', hub, steps.trans steps', fails⟩

theorem Breaks.advance (breaks : m.Breaks n error) {budget : Nat} (enough : n < budget) :
    (m.advance budget).2 = .failed error := by
  obtain ⟨k, hk, m', hub, steps, fails⟩ := breaks
  obtain ⟨left, rfl⟩ : ∃ left, budget = k + (left + 1) := ⟨budget - k - 1, by omega⟩
  rw [steps.advance, Machine.advance, fails]

end Machine

end SensorHub

namespace SensorHub.Demo.Simulation

open SensorHub.Hub

variable {config : Config} {hub hub₁ : Hub Memory} {app : App Memory} {instanceId : UInt16}
  {entries : List (UInt16 × UInt32)}

/-- What a critical event of that type comes to for which there is no slot: nothing can be evicted,
or the configuration says that nothing is, and then the event is not admitted, or so much that no
room can be reserved for it. -/
def starvation (config : Config) (type : UInt16) : Fatal :=
  if config.evictTarget = 0 then .notAdmitted type
  else if config.evictTarget.toNat < 2 ^ 61 then .noSpace type
  else .capacityOverflow

/-- With every slot taken by an event that stays, a critical event is fatal. -/
theorem starves {frame : Frame Memory} {rest lower : List (Frame Memory)} (tidy : hub.Tidy [])
    (full : hub.room = 0) (kept : ∀ p ∈ hub.waiting, p.event.isEvictable = false)
    (posting : Posting Memory) (posts : frame.step hub₁ = (hub.postRunning posting).above lower) :
    (Machine.mk hub₁ (frame :: rest)).Breaks 2 (starvation hub.config posting.event.type) := by
  have isFull : hub.pool.isFull = true := isFull_iff_room.mpr full
  by_cases target : hub.config.evictTarget = 0
  · have make : hub.makeRoom = (.found [], hub) := by
      simp [makeRoom, target]
    have hposts : frame.step hub₁ = .go hub (.evict [] :: .enqueue posting :: lower) := by
      rw [posts, postRunning, make]
      rfl
    have evicted : (Frame.evict [] : Frame Memory).step hub = .go hub [] := rfl
    obtain ⟨hub', he, -⟩ := enqueue_full tidy.sound (tidy.sound.isFull_iff.mp isFull) posting
    have fails : Machine.step ⟨hub, .enqueue posting :: (lower ++ rest)⟩ =
        .failed (hub'.log (.fatal (.notAdmitted posting.event.type)))
          (.notAdmitted posting.event.type) := by
      simp only [Machine.step, Frame.step, he, Hub.fail]
    rw [starvation, if_pos target]
    exact ⟨2, Nat.le_refl 2, _, _, (Machine.Steps.go hposts).trans (Machine.Steps.go evicted), fails⟩
  · have fails : ∀ {hub' : Hub Memory} {error : Fatal}, hub.postRunning posting = .fail hub' error →
        (Machine.mk hub₁ (frame :: rest)).Breaks 2 error := by
      intro hub' error heq
      have hstep : Machine.step ⟨hub₁, frame :: rest⟩ = .failed hub' error := by
        simp only [Machine.step, posts, heq, Effect.above]
      exact ⟨0, Nat.zero_le 2, _, _, .refl, hstep⟩
    rw [starvation, if_neg target]
    split
    next reserved =>
      have none : hub.evictees = [] := evictees_eq_nil.mpr (.inr kept)
      refine @fails ((hub.log .nothingToEvict).log (.fatal (.noSpace posting.event.type))) _ ?_
      rw [postRunning, makeRoom_nothing isFull target reserved none]
      rfl
    next vast =>
      refine @fails hub _ ?_
      rw [postRunning, makeRoom_overflow isFull (Nat.not_lt.mp vast)]

theorem announce_running {type : UInt16} {load : Nat} {info : Info} (running : hub.running = true) :
    ∃ (hub' : Hub Memory) (posting : Posting Memory),
      hub.announce type load info = hub'.postRunning posting ∧
      posting.event.type = type ∧ hub'.config = hub.config ∧ hub'.room = hub.room ∧
      hub'.waiting = hub.waiting ∧ (hub.Tidy [] → hub'.Tidy []) := by
  refine ⟨(hub.offer .critical (.status type info) .nothing).2.record
    (.announced hub.postings load type info), (hub.offer .critical (.status type info) .nothing).1,
    ?_, rfl, rfl, rfl, rfl, fun tidy => (tidy.offer _ _ _).record (by simp)⟩
  exact if_pos running

/-- Where every slot is taken by a status event, the next app is not loaded. -/
theorem Loaded.breaks {count : Nat} (loaded : Loaded config hub count)
    (full : count = config.eventCapacity) (eligible : Eligible hub app instanceId entries)
    (actor : LoopActor) (next : Except Refusal UInt16 → Routine Memory .loop .nothing)
    (rest : List (Frame Memory)) :
    (Machine.mk hub (.code (.loop actor) (.start app next) :: rest)).Breaks 4
      (starvation config EventType.nanoappStarted) := by
  obtain ⟨hub₂, hub₃, stopping, load, info, n, hn, hstarts, hends, entered, calm⟩ := enters eligible
  obtain ⟨hub₄, posting, hannounce, type, settings, room, waiting, tidy⟩ :=
    announce_running (entered.running.trans loaded.running)
  have full₄ : hub₄.room = 0 := by
    have hroom := loaded.room
    rw [room, loaded.tidy.room_calm calm]
    omega
  have waiting₃ : hub₃.waiting = hub.waiting :=
    waiting_congr (by rw [calm.queue]) fun k _ => calm.inspect k
  have kept : ∀ p ∈ hub₄.waiting, p.event.isEvictable = false := by
    rw [waiting, waiting₃]
    exact loaded.kept
  have posts := hends (.routine actor next)
  rw [hannounce] at posts
  have breaks := @starves _ _ _ rest _ (tidy (loaded.tidy.calm calm)) full₄ kept posting posts
  rw [type, settings, entered.config, loaded.settings] at breaks
  obtain ⟨k, hk, m', hub', steps, fails⟩ := (hstarts actor next rest).breaks breaks
  exact ⟨k, by omega, m', hub', steps, fails⟩

def loadEcho (replyTo : UInt16) : Routine Memory .loop .nothing :=
  startOr (Demo.echo (.new echoId version)) fun echo =>
    alter (fun memory => { memory with replyTo := replyTo, echo := echo }) (.done ())

def loadCounter : Routine Memory .loop .nothing :=
  startOr (counter Memory.tallyCell (.new counterId version)) loadEcho

theorem breaks_of_scarce (valid : config.Valid) (scarce : config.eventCapacity < 3)
    (api : config.firstSupportedApi ≤ currentApiVersion)
    (reserved : config.wakeupBuckets.toNat < 2 ^ 62) :
    (Machine.launch (bare config) startup).Breaks 16
      (starvation config EventType.nanoappStarted) := by
  have positive := valid.eventCapacity_pos
  have loaded₀ := loaded_bare valid
  obtain ⟨hub₁, n₁, hn₁, loaded₁, entered₁, h₁⟩ :=
    loaded₀.load positive (sampler_eligible reserved loaded₀ api)
  have eligible₁ := counter_eligible reserved loaded₁ entered₁ api
  have first : Machine.Steps n₁ (.launch (bare config) startup)
      ⟨hub₁, [.code (.loop .outside) loadCounter]⟩ := h₁ _ _ _
  by_cases single : config.eventCapacity = 1
  · have breaks : (Machine.mk hub₁ [.code (.loop .outside) loadCounter]).Breaks 4 _ :=
      loaded₁.breaks single.symm eligible₁ _ _ _
    obtain ⟨k, hk, m, hub, steps, fails⟩ := first.breaks breaks
    exact ⟨k, by omega, m, hub, steps, fails⟩
  · obtain ⟨hub₂, n₂, hn₂, loaded₂, entered₂, h₂⟩ := loaded₁.load (by omega) eligible₁
    have second : Machine.Steps n₂ ⟨hub₁, [.code (.loop .outside) loadCounter]⟩
        ⟨hub₂, [.code (.loop .outside) (loadEcho 2)]⟩ := h₂ _ _ _
    have breaks : (Machine.mk hub₂ [.code (.loop .outside) (loadEcho 2)]).Breaks 4 _ :=
      loaded₂.breaks (by omega) (echo_eligible reserved loaded₂ entered₁ entered₂ api) _ _ _
    obtain ⟨k, hk, m, hub, steps, fails⟩ := (first.trans second).breaks breaks
    exact ⟨k, by omega, m, hub, steps, fails⟩

theorem start_overflow (accepted : hub.loadRefusal? app.nanoapp.info = none)
    (assigned : hub.assignId.1 = some instanceId)
    (vast : 2 ^ 62 ≤ hub.config.wakeupBuckets.toNat) (actor : LoopActor)
    (next : Except Refusal UInt16 → Routine Memory .loop .nothing) (rest : List (Frame Memory)) :
    (Machine.mk hub (.code (.loop actor) (.start app next) :: rest)).Breaks 0
      .capacityOverflow := by
  have unreserved : Wakeups.new? hub.config.wakeupBuckets.toNat = none :=
    Wakeups.new?_eq_none.mpr vast
  have hload : hub.load app (.routine actor next) =
      .fail { hub with nextId := instanceId + 1 } .capacityOverflow := by
    simp only [load, accepted, assignId_eq assigned, unreserved]
  have hstep : Machine.step ⟨hub, .code (.loop actor) (.start app next) :: rest⟩ =
      .failed { hub with nextId := instanceId + 1 } .capacityOverflow := by
    simp only [Machine.step, Frame.step, Routine.step, hload]
  exact ⟨0, Nat.le_refl 0, _, _, .refl, hstep⟩

theorem breaks_of_vast (api : config.firstSupportedApi ≤ currentApiVersion)
    (vast : 2 ^ 62 ≤ config.wakeupBuckets.toNat) :
    (Machine.launch (bare config) startup).Breaks 0 .capacityOverflow := by
  have accepted : (bare config).loadRefusal?
      (sampler Memory.averageCell (.new samplerId version)).nanoapp.info = none :=
    if_neg (UInt32.not_lt.mpr api)
  exact start_overflow accepted rfl vast _ _ _

theorem initial_of_breaks (options : Options) (valid : config.Valid) {n : Nat} {error : Fatal}
    (breaks : (Machine.launch (bare config) startup).Breaks n error) (enough : n < State.patience) :
    State.initial config options = .error (.fatal error) := by
  have failed := breaks.advance enough
  cases advanced : (Machine.launch (bare config) startup).advance State.patience with
  | mk machine stop =>
    rw [advanced] at failed
    obtain rfl : stop = _ := failed
    simp only [State.initial, new_bare valid, advanced]

theorem initial_fails (options : Options) (valid : config.Valid) (scarce : config.eventCapacity < 3)
    (api : config.firstSupportedApi ≤ currentApiVersion)
    (reserved : config.wakeupBuckets.toNat < 2 ^ 62) :
    State.initial config options =
      .error (.fatal (starvation config EventType.nanoappStarted)) :=
  initial_of_breaks options valid (breaks_of_scarce valid scarce api reserved) (by decide)

/-- No simulation begins where the memory for an app or for the producers cannot be reserved. -/
theorem initial_overflows (options : Options) (valid : config.Valid)
    (slots : 3 ≤ config.eventCapacity) (api : config.firstSupportedApi ≤ currentApiVersion)
    (vast : 2 ^ 62 ≤ config.wakeupBuckets.toNat ∨ 2 ^ 63 ≤ options.producers * 24) :
    State.initial config options = .error (.fatal .capacityOverflow) := by
  by_cases many : 2 ^ 62 ≤ config.wakeupBuckets.toNat
  · exact initial_of_breaks options valid (breaks_of_vast api many) (by decide)
  · exact initial_of_crowd valid slots api (Nat.not_le.mp many) options (vast.resolve_left many)

end SensorHub.Demo.Simulation
