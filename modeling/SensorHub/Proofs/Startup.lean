import Mathlib.Algebra.Ring.Nat
import SensorHub.Proofs.Stages

namespace SensorHub

variable {σ : Type}

namespace Machine

/-- By so many steps of its own the machine gets there. -/
inductive Steps : Nat → Machine σ → Machine σ → Prop
  | refl {m} : Steps 0 m m
  | head {n m m₁ m'} (h : m.step = .stepped m₁) (hs : Steps n m₁ m') : Steps (n + 1) m m'

variable {m m₁ m' : Machine σ} {n k : Nat}

namespace Steps

theorem trans (h : Steps n m m₁) (h' : Steps k m₁ m') : Steps (n + k) m m' := by
  induction h with
  | refl => rwa [Nat.zero_add]
  | head hstep _ ih =>
    rw [Nat.add_right_comm]
    exact .head hstep (ih h')

theorem go {hub hub' : Hub σ} {frame : Frame σ} {frames rest : List (Frame σ)}
    (h : frame.step hub = .go hub' frames) :
    Steps 1 ⟨hub, frame :: rest⟩ ⟨hub', frames ++ rest⟩ :=
  .head (step_eq_stepped.mpr ⟨hub, frame, rest, hub', frames, rfl, h, rfl⟩) .refl

/-- Code of another thread, of a hook or of a callback comes to its end. -/
theorem handled (hub : Hub σ) (purpose : Purpose) (rest : List (Frame σ)) :
    Steps 1 ⟨hub, .code (.handle purpose) (.done ()) :: rest⟩ ⟨hub, rest⟩ :=
  @go σ hub hub _ [] rest rfl

theorem ended (hub : Hub σ) (actor : LoopActor) (rest : List (Frame σ)) :
    Steps 1 ⟨hub, .code (.loop actor) (.done ()) :: rest⟩ ⟨hub, rest⟩ :=
  @go σ hub hub _ [] rest rfl

theorem alters {r : Reach} {a : Answer} (hub : Hub σ) (actor : Actor σ r a) (change : σ → σ)
    (next : Routine σ r a) (rest : List (Frame σ)) :
    Steps 2 ⟨hub, .code actor (.recall fun memory => .store (change memory) next) :: rest⟩
      ⟨{ hub with memory := change hub.memory }, .code actor next :: rest⟩ := by
  have recalled : (Frame.code actor (.recall fun memory => .store (change memory) next)).step hub =
      .go hub [.code actor (.store (change hub.memory) next)] := by
    simp only [Frame.step, Routine.step]
  have stored : (Frame.code actor (.store (change hub.memory) next)).step hub =
      .go { hub with memory := change hub.memory } [.code actor next] := by
    simp only [Frame.step, Routine.step]
  exact (go recalled).trans (go stored)

theorem reaches (h : Steps n m m') : m.Reaches m' := by
  induction h with
  | refl => exact .refl
  | head hstep _ ih => exact .head (.step hstep) ih

theorem advance (h : Steps n m m') (budget : Nat) :
    m.advance (n + budget) = m'.advance budget := by
  induction h with
  | refl => rw [Nat.zero_add]
  | head hstep _ ih =>
    rw [Nat.add_right_comm, Machine.advance, hstep]
    exact ih

end Steps

end Machine

namespace Config

variable {config : Config}

/-- A valid configuration has as many slots as its blocks have together. -/
theorem Valid.eventCapacity_eq (valid : config.Valid) :
    config.eventBlocks.toNat * config.eventsPerBlock.toNat = config.eventCapacity := by
  have hle := (eventCapacity_le valid).2
  have hmax : maxCapacity ≤ UInt64.size - 1 := by decide
  rw [eventCapacity]
  omega

theorem Valid.eventCapacity_pos (valid : config.Valid) : 0 < config.eventCapacity := by
  have slots := (eventCapacity_le valid).1
  have blocks : 0 < config.eventBlocks.toNat := by
    rw [Nat.pos_iff_ne_zero]
    intro none
    have empty : config.eventBlocks = 0 := UInt64.toNat_inj.mp none
    simp [Valid, defect?, empty] at valid
  rw [← valid.eventCapacity_eq]
  exact Nat.mul_pos blocks slots

end Config

end SensorHub

namespace SensorHub.Demo.Simulation

open SensorHub.Hub

/-- An app registers for one type of broadcast when it starts, or for none. -/
inductive Opens : Routine Memory .app .flag → List (UInt16 × UInt32) → Prop
  | registers (type : UInt16) : Opens (registerOnStart type) [(type, allGroups)]
  | starts : Opens (.done true) []

/-- The app is loaded under the id. -/
structure Enters (hub : Hub Memory) (app : App Memory) (instanceId : UInt16)
    (entries : List (UInt16 × UInt32)) (hub' : Hub Memory) : Prop where
  config : hub'.config = hub.config
  collaborators : hub'.collaborators = hub.collaborators
  running : hub'.running = hub.running
  stopping : hub'.shownStopping = hub.shownStopping
  memory : hub'.memory = hub.memory
  dropped : hub'.dropped = hub.dropped
  nextId : hub'.nextId = instanceId + 1
  apps : ∃ n : Nanoapp, hub'.apps = hub.apps ++ [app.alter fun _ => n] ∧
    n.info = { app.nanoapp.info with instanceId := instanceId } ∧
    n.registrations.entries = entries

/-- Its status event waits behind the others. -/
structure Joins (hub : Hub Memory) (app : App Memory) (instanceId : UInt16)
    (entries : List (UInt16 × UInt32)) (hub' : Hub Memory) : Prop
    extends Enters hub app instanceId entries hub' where
  waiting : ∃ status, hub'.waiting = hub.waiting ++ [status] ∧ Role.status.Plays status ∧
    status.event.isEvictable = false
  tidy : hub'.Tidy []
  room : hub'.room + 1 = hub.room
  capacity : hub'.pool.capacity = hub.pool.capacity

/-- The app may be loaded under the id, and is new: what it registers for it asks for when it starts. -/
structure Eligible (hub : Hub Memory) (app : App Memory) (instanceId : UInt16)
    (entries : List (UInt16 × UInt32)) : Prop where
  accepted : hub.loadRefusal? app.nanoapp.info = none
  assigned : hub.assignId.1 = some instanceId
  reserved : hub.config.wakeupBuckets.toNat < 2 ^ 62
  empty : app.nanoapp.registrations = .empty
  opens : Opens app.onStart entries

variable {hub hub' : Hub Memory} {app : App Memory} {instanceId : UInt16}
  {entries : List (UInt16 × UInt32)}

/-- An app that starts may stay, and is registered for what it asks for. -/
theorem opens_ends {before : List (App Memory)} (opens : Opens app.onStart entries)
    {seated : App Memory} (placed : hub.apps = before ++ [seated])
    (empty : seated.nanoapp.registrations = .empty) :
    ∃ n ≤ 1, ∃ nanoapp : Nanoapp, nanoapp.info = seated.nanoapp.info ∧
      nanoapp.registrations.entries = entries ∧
      ∀ stopping client rest,
        Machine.Steps n ⟨hub, .code (.start before.length stopping client) app.onStart :: rest⟩
          ⟨{ hub with apps := before ++ [seated.alter fun _ => nanoapp] },
            .code (.start before.length stopping client) (.done true) :: rest⟩ := by
  have ha : hub.apps[before.length]? = some seated := by
    rw [placed]
    exact List.getElem?_concat_length
  generalize app.onStart = routine at opens
  cases opens with
  | registers type =>
    refine ⟨1, Nat.le_refl 1, { seated.nanoapp with registrations := ⟨[(type, allGroups)]⟩ }, rfl, rfl,
      fun stopping client rest => ?_⟩
    have altered : hub.alterApp before.length (fun n =>
        { n with registrations := ⟨[(type, allGroups)]⟩ }) =
        { hub with apps := before ++ [seated.alter fun _ =>
          { seated.nanoapp with registrations := ⟨[(type, allGroups)]⟩ }] } := by
      simp [alterApp, placed, List.modify_eq_take_cons_drop, App.alter]
    have hstep : (Frame.code (.start before.length stopping client) (registerOnStart type) :
        Frame Memory).step hub = .go { hub with apps := before ++ [seated.alter fun _ =>
          { seated.nanoapp with registrations := ⟨[(type, allGroups)]⟩ }] }
          [.code (.start before.length stopping client) (.done true)] := by
      rw [← altered]
      simp only [registerOnStart, Frame.step, Routine.step, Actor.index, ha, empty]
      rfl
    exact .go hstep
  | starts =>
    refine ⟨0, Nat.zero_le 1, seated.nanoapp, rfl, by rw [empty]; rfl, fun stopping client rest => ?_⟩
    have same : ({ hub with apps := before ++ [seated.alter fun _ => seated.nanoapp] } :
        Hub Memory) = hub := by
      have halter : seated.alter (fun _ => seated.nanoapp) = seated := by
        cases seated
        rfl
      rw [halter, ← placed]
    rw [same]
    exact .refl

/-- An app that nothing speaks against is entered and starts; then its status event is to be
queued. -/
theorem enters (eligible : Eligible hub app instanceId entries) :
    ∃ hub₂ hub₃ stopping load info n, n ≤ 2 ∧
      (∀ actor next rest, Machine.Steps n ⟨hub, .code (.loop actor) (.start app next) :: rest⟩
        ⟨hub₂, .code (.start hub.apps.length stopping (.routine actor next)) (.done true) ::
          rest⟩) ∧
      (∀ client, (Frame.code (.start hub.apps.length stopping client) (.done true)).step hub₂ =
        (hub₃.announce EventType.nanoappStarted load info).above
          [.answer client (.ok instanceId)]) ∧
      Enters hub app instanceId entries hub₃ ∧ hub.Calm hub₃ := by
  obtain ⟨hub₁, stopping, hload, happs, fields⟩ : ∃ hub₁ stopping, (∀ client,
      hub.load app client =
        .go hub₁ [.code (.start hub.apps.length stopping client) app.onStart]) ∧
      hub₁.apps = hub.apps ++ [app.alter fun _ =>
        app.nanoapp.loaded instanceId (.new hub.config.wakeupBuckets.toNat) (hub.loads + 1)] ∧
      hub₁.config = hub.config ∧ hub₁.collaborators = hub.collaborators ∧
      hub₁.running = hub.running ∧ hub₁.shownStopping = hub.shownStopping ∧
      hub₁.memory = hub.memory ∧ hub₁.dropped = hub.dropped ∧ hub₁.nextId = instanceId + 1 := by
    simp only [load, eligible.accepted, assignId_eq eligible.assigned,
      Wakeups.new?_of_lt eligible.reserved]
    exact ⟨_, _, fun _ => rfl, rfl, rfl, rfl, rfl, rfl, rfl, rfl, rfl⟩
  have calm₁ : hub.Calm hub₁ := (calm_load (hload (.request 0))).1
  obtain ⟨n, hn, nanoapp, hinfo, hentries, hopens⟩ :=
    opens_ends eligible.opens happs eligible.empty
  have ha : (hub.apps ++ [(app.alter fun _ => nanoapp)])[hub.apps.length]? =
      some (app.alter fun _ => nanoapp) := List.getElem?_concat_length
  refine ⟨{ hub₁ with apps := hub.apps ++ [app.alter fun _ => nanoapp] },
    ((({ hub₁ with apps := hub.apps ++ [app.alter fun _ => nanoapp] } : Hub Memory).setCurrent
      none).record (.left nanoapp.load .start)).log (.started nanoapp.info), stopping, nanoapp.load,
    nanoapp.info, 1 + n, by omega, ?_, ?_, ?_, ?_⟩
  · intro actor next rest
    have hstep : (Frame.code (.loop actor) (.start app next)).step hub = .go hub₁
        [.code (.start hub.apps.length stopping (.routine actor next)) app.onStart] := by
      simp only [Frame.step, Routine.step, hload]
    exact (Machine.Steps.go hstep).trans (hopens _ _ _)
  · intro client
    have hid : nanoapp.info.instanceId = instanceId := by
      rw [hinfo]
      rfl
    simp only [Frame.step, Routine.step, finishStart, setCurrent, ha, if_true]
    rw [← hid]
    rfl
  · obtain ⟨config, collaborators, running, stopping, memory, dropped, nextId⟩ := fields
    exact ⟨config, collaborators, running, stopping, memory, dropped, nextId, nanoapp, rfl, hinfo,
      hentries⟩
  · have seated : hub.Calm ({ hub₁ with apps := hub.apps ++ [app.alter fun _ => nanoapp] } :
        Hub Memory) := calm₁.same rfl rfl rfl rfl
    exact ((seated.setCurrent none).record rfl).log rfl

theorem queued {cargo : List (Cargo Memory)} (tidy : hub.Tidy cargo) (room : 0 < hub.room)
    (posting : Posting Memory) :
    ∃ hub', hub.enqueue posting = (true, hub') ∧ hub'.Tidy cargo ∧
      hub'.room + 1 = hub.room ∧ hub'.pool.capacity = hub.pool.capacity ∧
      hub'.waiting = hub.waiting ++ [posting.stamped hub.now] ∧
      ∀ k ∈ cargo.filterMap Cargo.stored?, hub'.pool.inspect k = hub.pool.inspect k := by
  have hbefore := room_of_sound tidy.sound
  obtain ⟨handle, hub', he, admits, hnew, hsound⟩ := enqueue_room tidy.sound (by omega) posting
  have hafter := room_of_sound hsound
  have hcapacity := admits.capacity
  refine ⟨hub', he, tidy.admitted admits hnew hsound, ?_, hcapacity,
    admits.waiting fun hk => hnew (List.mem_append_left _ hk), fun k hk => ?_⟩
  · simp only [List.length_cons] at hafter
    omega
  · have hne : handle ≠ k := by
      rintro rfl
      exact hnew (List.mem_append_right _ (Tidy.handle_of_stored hk))
    rw [admits.inspect, if_neg hne]

/-- Where there is a slot for its status event the app is loaded. -/
theorem joins (tidy : hub.Tidy []) (running : hub.running = true)
    (eligible : Eligible hub app instanceId entries) (room : 0 < hub.room) :
    ∃ hub' n, n ≤ 6 ∧ Joins hub app instanceId entries hub' ∧
      ∀ actor next rest, Machine.Steps n ⟨hub, .code (.loop actor) (.start app next) :: rest⟩
        ⟨hub', .code (.loop actor) (next (.ok instanceId)) :: rest⟩ := by
  obtain ⟨hub₂, hub₃, stopping, load, info, n, hn, hstarts, hends, entered, calm⟩ := enters eligible
  obtain ⟨hub₄, posting, hannounced, plays, kept, tidy₄, room₄, capacity₄, waiting₄, entered₄⟩ :
      ∃ hub₄ posting,
        hub₃.announce EventType.nanoappStarted load info = .go hub₄ [.evict [], .enqueue posting] ∧
        Role.status.Plays posting ∧ posting.event.isEvictable = false ∧ hub₄.Tidy [] ∧ hub₄.room = hub.room ∧
        hub₄.pool.capacity = hub.pool.capacity ∧ hub₄.waiting = hub.waiting ∧
        Enters hub app instanceId entries hub₄ := by
    have room₃ : hub₃.room = hub.room := tidy.room_calm calm
    have waiting₃ : hub₃.waiting = hub.waiting :=
      waiting_congr (by rw [calm.queue]) fun k _ => calm.inspect k
    refine ⟨_, _, announce_room EventType.nanoappStarted load info
      (entered.running.trans running) (room₃ ▸ room), ⟨⟨rfl, rfl⟩, rfl⟩, rfl,
      ((tidy.calm calm).offer _ _ _).record (by simp), room₃, calm.capacity, waiting₃, ?_⟩
    exact ⟨entered.config, entered.collaborators, entered.running, entered.stopping,
      entered.memory, entered.dropped, entered.nextId, entered.apps⟩
  obtain ⟨hub₅, he, tidy₅, room₅, capacity₅, waiting₅, -⟩ := queued tidy₄ (room₄ ▸ room) posting
  have entered₅ : Enters hub app instanceId entries hub₅ := by
    obtain ⟨pool, queue, journal, heq⟩ := hub₄.enqueue_eq posting
    rw [he] at heq
    simp only at heq
    rw [heq]
    exact ⟨entered₄.config, entered₄.collaborators, entered₄.running, entered₄.stopping,
      entered₄.memory, entered₄.dropped, entered₄.nextId, entered₄.apps⟩
  rw [waiting₄] at waiting₅
  refine ⟨hub₅, n + (1 + (1 + (1 + 1))), by omega,
    ⟨entered₅, ⟨_, waiting₅, plays, kept⟩, tidy₅, room₅.trans room₄, capacity₅.trans capacity₄⟩,
    fun actor next rest => ?_⟩
  have announced : (Frame.code (.start hub.apps.length stopping (.routine actor next))
      (.done true)).step hub₂ = .go hub₄ [.evict [], .enqueue posting,
        .answer (.routine actor next) (.ok instanceId)] := by
    rw [hends, hannounced]
    rfl
  have evicted : (Frame.evict [] : Frame Memory).step hub₄ = .go hub₄ [] := rfl
  have enqueued : (Frame.enqueue posting).step hub₄ = .go hub₅ [] := by
    simp only [Frame.step, he]
  have answered : (Frame.answer (.routine actor next) (.ok instanceId)).step hub₅ =
    .go hub₅ [.code (.loop actor) (next (.ok instanceId))] := rfl
  exact (hstarts actor next rest).trans
    ((Machine.Steps.go announced).trans ((Machine.Steps.go evicted).trans
      ((Machine.Steps.go enqueued).trans (Machine.Steps.go answered))))

/-- So many apps of the simulation are loaded, and their status events wait. -/
structure Loaded (config : Config) (hub : Hub Memory) (count : Nat) : Prop where
  settings : hub.config = config
  collaborators : hub.collaborators = Simulation.collaborators
  running : hub.running = true
  stopping : hub.shownStopping = systemId
  memory : hub.memory = .empty
  dropped : hub.dropped = 0
  waiting : List.Forall₂ Role.Plays (List.replicate count .status) hub.waiting
  kept : ∀ posting ∈ hub.waiting, posting.event.isEvictable = false
  tidy : hub.Tidy []
  room : hub.room + count = config.eventCapacity
  capacity : hub.pool.capacity = config.eventCapacity

theorem assignId_next (unused : ∀ app ∈ hub.apps, app.nanoapp.info.instanceId ≠ hub.nextId)
    (system : hub.nextId ≠ systemId) (broadcast : hub.nextId ≠ broadcastId) :
    hub.assignId.1 = some hub.nextId := by
  have hnone : hub.indexOf? hub.nextId = none := by
    simpa [indexOf?] using unused
  have hfree : firstFreeId (fun id => (hub.indexOf? id).isSome) 65536 hub.nextId =
      some hub.nextId := by
    rw [firstFreeId]
    simp [system, broadcast, hnone]
  simp only [assignId, hfree]

/-- An app that is new to the hub, and not too old for it, gets the next id. -/
theorem Loaded.eligible {config : Config} {count : Nat} (loaded : Loaded config hub count)
    (reserved : config.wakeupBuckets.toNat < 2 ^ 62)
    (api : config.firstSupportedApi ≤ app.nanoapp.info.targetApi)
    (others : ∀ other ∈ hub.apps, other.nanoapp.info.appId ≠ app.nanoapp.info.appId ∧
      other.nanoapp.info.instanceId ≠ instanceId)
    (next : hub.nextId = instanceId) (system : instanceId ≠ systemId)
    (broadcast : instanceId ≠ broadcastId) (empty : app.nanoapp.registrations = .empty)
    (opens : Opens app.onStart entries) : Eligible hub app instanceId entries := by
  refine ⟨?_, ?_, loaded.settings ▸ reserved, empty, opens⟩
  · have hnone : hub.instanceOfApp? app.nanoapp.info.appId = none := by
      simpa [instanceOfApp?] using fun other ho => (others other ho).1
    have hsupported : ¬app.nanoapp.info.targetApi < hub.config.firstSupportedApi := by
      rw [loaded.settings]
      exact UInt32.not_lt.mpr api
    rw [loadRefusal?, if_neg hsupported, hnone]
    rfl
  · subst next
    exact assignId_next (fun other ho => (others other ho).2) system broadcast

theorem Loaded.load {config : Config} {count : Nat} (loaded : Loaded config hub count)
    (slots : count < config.eventCapacity) (eligible : Eligible hub app instanceId entries) :
    ∃ hub' n, n ≤ 6 ∧ Loaded config hub' (count + 1) ∧ Enters hub app instanceId entries hub' ∧
      ∀ actor next rest, Machine.Steps n ⟨hub, .code (.loop actor) (.start app next) :: rest⟩
        ⟨hub', .code (.loop actor) (next (.ok instanceId)) :: rest⟩ := by
  have hroom := loaded.room
  obtain ⟨hub', n, hn, joined, hsteps⟩ := joins loaded.tidy loaded.running eligible (by omega)
  obtain ⟨status, hwaiting, plays, kept⟩ := joined.waiting
  have hroom' := joined.room
  refine ⟨hub', n, hn, ⟨joined.config.trans loaded.settings,
    joined.collaborators.trans loaded.collaborators, joined.running.trans loaded.running,
    joined.stopping.trans loaded.stopping, joined.memory.trans loaded.memory,
    joined.dropped.trans loaded.dropped, ?_, ?_, joined.tidy, by omega,
    joined.capacity.trans loaded.capacity⟩, joined.toEnters, hsteps⟩
  · rw [hwaiting, List.replicate_succ']
    exact List.rel_append loaded.waiting (.cons plays .nil)
  · rw [hwaiting]
    intro posting hmem
    rcases List.mem_append.mp hmem with hmem | hmem
    · exact loaded.kept posting hmem
    · rw [List.mem_singleton.mp hmem]
      exact kept

def bare (config : Config) : Hub Memory :=
  .create config collaborators .empty 0

theorem loaded_bare {config : Config} (valid : config.Valid) : Loaded config (bare config) 0 := by
  have capacity := valid.eventCapacity_eq
  have reachable : (Machine.launch (bare config) startup).Reachable :=
    ⟨_, Machine.isStart_iff.mpr ⟨_, _, _, _, _, valid, rfl⟩, .refl⟩
  exact ⟨rfl, rfl, rfl, rfl, rfl, rfl, .nil, nofun, reachable.tidy, capacity, capacity⟩

theorem new_bare {config : Config} (valid : config.Valid) :
    Hub.new config collaborators .empty 0 = .ok (bare config) := by
  rw [Hub.new, valid]
  rfl

section

variable {config : Config} {hub₁ hub₂ : Hub Memory}
  (reserved : config.wakeupBuckets.toNat < 2 ^ 62)
include reserved

theorem sampler_eligible (loaded : Loaded config (bare config) 0)
    (api : config.firstSupportedApi ≤ currentApiVersion) :
    Eligible (bare config) (sampler Memory.averageCell (.new samplerId version)) 1
      [(sampleTick, allGroups)] :=
  loaded.eligible reserved api (by simp [bare, Hub.create]) rfl (by decide) (by decide) rfl
    (.registers sampleTick)

theorem counter_eligible (loaded : Loaded config hub₁ 1)
    (entered : Enters (bare config) (sampler Memory.averageCell (.new samplerId version)) 1
      [(sampleTick, allGroups)] hub₁)
    (api : config.firstSupportedApi ≤ currentApiVersion) :
    Eligible hub₁ (counter Memory.tallyCell (.new counterId version)) 2 [(reading, allGroups)] := by
  obtain ⟨first, happs, hinfo, -⟩ := entered.apps
  refine loaded.eligible reserved api ?_ entered.nextId (by decide) (by decide) rfl (.registers reading)
  rw [happs]
  simp [bare, Hub.create, App.alter, hinfo]
  decide

theorem echo_eligible (loaded : Loaded config hub₂ 2)
    (entered₁ : Enters (bare config) (sampler Memory.averageCell (.new samplerId version)) 1
      [(sampleTick, allGroups)] hub₁)
    (entered₂ : Enters hub₁ (counter Memory.tallyCell (.new counterId version)) 2
      [(reading, allGroups)] hub₂)
    (api : config.firstSupportedApi ≤ currentApiVersion) :
    Eligible hub₂ (Demo.echo (.new echoId version)) 3 [] := by
  obtain ⟨first, happs₁, hinfo₁, -⟩ := entered₁.apps
  obtain ⟨second, happs₂, hinfo₂, -⟩ := entered₂.apps
  refine loaded.eligible reserved api ?_ entered₂.nextId (by decide) (by decide) rfl .starts
  rw [happs₂, happs₁]
  simp [bare, Hub.create, App.alter, hinfo₁, hinfo₂]
  decide

end

def startupThen (next : Routine Memory .loop .nothing) : Routine Memory .loop .nothing :=
  startOr (sampler Memory.averageCell (.new samplerId version)) fun _ =>
    startOr (counter Memory.tallyCell (.new counterId version)) fun replyTo =>
      startOr (echo (.new echoId version)) fun echo =>
        alter (fun memory => { memory with replyTo := replyTo, echo := echo }) next

theorem startupThen_done : startupThen (.done ()) = startup := rfl

/-- The line of a simulation whose apps have just been loaded. -/
def Line.first : Line :=
  ⟨none, [.status, .status, .status], .empty, 0⟩

section

variable {config : Config} (valid : config.Valid) (slots : 3 ≤ config.eventCapacity)
  (api : config.firstSupportedApi ≤ currentApiVersion)
  (reserved : config.wakeupBuckets.toNat < 2 ^ 62)
include valid slots api reserved

/-- With three slots the apps of a simulation are loaded, unless the interface version for which
they are built is too old. -/
theorem begins :
    ∃ hub n, n ≤ 20 ∧ Shows hub .first ∧ hub.pool.capacity = config.eventCapacity ∧
      hub.memory.refusal = none ∧
      ∀ next, Machine.Steps n
        (.launch (bare config) (startupThen next))
        ⟨hub, [.code (.loop .outside) next]⟩ := by
  have loaded₀ := loaded_bare valid
  obtain ⟨hub₁, n₁, hn₁, loaded₁, entered₁, h₁⟩ :=
    loaded₀.load (by omega) (sampler_eligible reserved loaded₀ api)
  obtain ⟨hub₂, n₂, hn₂, loaded₂, entered₂, h₂⟩ :=
    loaded₁.load (by omega) (counter_eligible reserved loaded₁ entered₁ api)
  obtain ⟨hub₃, n₃, hn₃, loaded₃, entered₃, h₃⟩ :=
    loaded₂.load (by omega) (echo_eligible reserved loaded₂ entered₁ entered₂ api)
  obtain ⟨first, happs₁, hinfo₁, hregs₁⟩ := entered₁.apps
  obtain ⟨second, happs₂, hinfo₂, hregs₂⟩ := entered₂.apps
  obtain ⟨third, happs₃, hinfo₃, hregs₃⟩ := entered₃.apps
  rw [happs₂, happs₁] at happs₃
  have crew : Crew hub₃.apps := by
    rw [happs₃]
    exact .mk ⟨congrArg Info.instanceId hinfo₁, hregs₁⟩ ⟨congrArg Info.instanceId hinfo₂, hregs₂⟩
      ⟨congrArg Info.instanceId hinfo₃, hregs₃⟩
  refine ⟨{ hub₃ with memory := { hub₃.memory with replyTo := 2, echo := 3 } },
    n₁ + (n₂ + (n₃ + 2)), by omega, ⟨⟨loaded₃.running, loaded₃.collaborators,
      loaded₃.stopping, crew, rfl, rfl⟩, loaded₃.waiting, congrArg Memory.tally loaded₃.memory,
      loaded₃.dropped⟩, loaded₃.capacity, congrArg Memory.refusal loaded₃.memory, fun next => ?_⟩
  have altered := Machine.Steps.alters hub₃ (.loop .outside)
    (fun memory => { memory with replyTo := 2, echo := 3 }) next []
  exact (h₁ _ _ _).trans ((h₂ _ _ _).trans ((h₃ _ _ _).trans altered))

/-- The code that loads the apps comes to its end, and the loop can run. -/
theorem startup_ends :
    ∃ hub, (Machine.launch (bare config) startup).advance State.patience = (⟨hub, []⟩, .finished) ∧
      hub.memory.refusal = none ∧ (Machine.launch hub (.run (.done ()))).Reachable ∧
      Shows hub .first ∧ hub.pool.capacity = config.eventCapacity := by
  obtain ⟨hub, n, hn, shows, capacity, accepted, hsteps⟩ := begins valid slots api reserved
  have hbudget : State.patience = n + 1 + (99999 - n - 1 + 1) := by
    rw [State.patience]
    omega
  refine ⟨hub, ?_, accepted, ⟨_, Machine.isStart_iff.mpr ⟨_, _, _, _, _, valid, rfl⟩,
    (hsteps _).reaches⟩, shows, capacity⟩
  rw [hbudget, ← startupThen_done]
  exact ((hsteps (.done ())).trans (Machine.Steps.ended ..)).advance _

/-- A simulation begins with a loop that is about to run. -/
theorem initial_ok (options : Options) (threads : options.producers * 24 < 2 ^ 63) :
    ∃ hub, State.initial config options =
        .ok ⟨.launch hub (.run (.done ())), List.replicate options.producers 0, false, 0, 0⟩ ∧
      (Machine.launch hub (.run (.done ()))).Reachable ∧ Shows hub .first ∧
      hub.pool.capacity = config.eventCapacity := by
  obtain ⟨hub, advanced, accepted, begun⟩ := startup_ends valid slots api reserved
  have fits : canReserve options.producers State.producerWidth = true := canReserve_iff.mpr threads
  refine ⟨hub, ?_, begun⟩
  simp only [State.initial, new_bare valid, advanced, accepted, fits, if_true]

theorem initial_of_crowd (options : Options) (crowd : 2 ^ 63 ≤ options.producers * 24) :
    State.initial config options = .error (.fatal .capacityOverflow) := by
  obtain ⟨hub, advanced, accepted, -⟩ := startup_ends valid slots api reserved
  have bursts : canReserve options.producers State.producerWidth = false := by
    rw [Bool.eq_false_iff, ne_eq, canReserve_iff]
    exact Nat.not_lt.mpr crowd
  simp only [State.initial, new_bare valid, advanced, accepted, bursts, Bool.false_eq_true, if_false]

end

end SensorHub.Demo.Simulation
