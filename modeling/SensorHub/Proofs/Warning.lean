import SensorHub.Proofs.CurrentApp
import SensorHub.Proofs.Lives
import SensorHub.Proofs.Admission
import SensorHub.Proofs.Shutdown

namespace SensorHub

variable {σ : Type}

namespace Frame

def told? : Frame σ → Option (Nat × Bool)
  | .code (.start index stopping _) _ | .code (.entry index stopping _) _ => some (index, stopping)
  | .remove index true => some (index, true)
  | _ => none

variable {frame : Frame σ} {frames rest : List (Frame σ)}

theorem told?_of_idle (h : frame.isBusy = false) : frame.told? = none := by
  cases frame with
  | code actor routine =>
    cases actor with
    | start | entry => cases h
    | _ => rfl
  | remove => cases h
  | _ => rfl

theorem told?_of_isLight (h : frame.isLight = true) : frame.told? = none :=
  told?_of_idle (isBusy_of_isLight h)

theorem told?_of_app {a : Answer} (actor : Actor σ .app a) (routine : Routine σ .app a) :
    (Frame.code actor routine).told? = some (actor.index, actor.stopping) := by
  cases actor <;> rfl

end Frame

namespace Hub

variable {hub hub' : Hub σ} {frame : Frame σ} {frames : List (Frame σ)}

/-- What the app is told is so. -/
def Tells (hub : Hub σ) (frame : Frame σ) : Prop :=
  ∀ index stopping, frame.told? = some (index, stopping) →
    ∀ info, hub.infos[index]? = some info → stopping = hub.isStopping info.instanceId

theorem isStopping_of_loopSide (h : hub'.loopSide = hub.loopSide) (id : UInt16) :
    hub'.isStopping id = hub.isStopping id := by
  have hstopping : hub'.stopping = hub.stopping := congrArg LoopSide.stopping h
  have hrunning : hub'.running = hub.running := congrArg LoopSide.running h
  rw [isStopping, isStopping, hstopping, hrunning]

theorem tells_of_none (h : frame.told? = none) : hub.Tells frame := by
  intro index stopping htold
  rw [h] at htold
  cases htold

theorem tells_of_idle (h : ∀ f ∈ frames, f.isBusy = false) : ∀ f ∈ frames, hub.Tells f :=
  fun f hf => tells_of_none (Frame.told?_of_idle (h f hf))

theorem tells_of_all (h : frames.all (fun f => f.told?.isNone) = true) :
    ∀ f ∈ frames, hub.Tells f :=
  fun f hf => tells_of_none (Option.isNone_iff_eq_none.mp (List.all_eq_true.mp h f hf))

theorem tells_of_lights (h : ∀ f ∈ frames, f.isLight = true) : ∀ f ∈ frames, hub.Tells f :=
  fun f hf => tells_of_none (Frame.told?_of_isLight (h f hf))

theorem tells_append {upper lower : List (Frame σ)} (hu : ∀ f ∈ upper, hub.Tells f)
    (hl : ∀ f ∈ lower, hub.Tells f) : ∀ f ∈ upper ++ lower, hub.Tells f :=
  fun f hf => (List.mem_append.mp hf).elim (hu f) (hl f)

theorem Tells.same (h : hub.Tells frame) (infos : hub'.infos = hub.infos)
    (same : ∀ id, hub'.isStopping id = hub.isStopping id) : hub'.Tells frame := by
  intro index stopping htold info hinfo
  rw [infos] at hinfo
  rw [h index stopping htold info hinfo, same]

theorem Tells.of_loopSide (h : hub.Tells frame) (side : hub'.loopSide = hub.loopSide) :
    hub'.Tells frame :=
  h.same (infos_of_loopSide side) (isStopping_of_loopSide side)

theorem Tells.goes {a : Answer} {actor : Actor σ .app a} {routine next : Routine σ .app a}
    (h : hub.Tells (.code actor routine)) : hub.Tells (.code actor next) := by
  intro index stopping htold
  refine h index stopping ?_
  rw [Frame.told?_of_app] at htold ⊢
  exact htold

theorem isStopping_iff {frames : List (Frame σ)} (hu : Frame.Unloading hub frames) {info : Info}
    (hi : info ∈ hub.infos) : hub.isStopping info.instanceId = true ↔
      hub.running = false ∨ hub.shownStopping = info.instanceId := by
  have hnamed := hu.assigned info hi
  have hmark : hub.stopping = some info.instanceId ↔ hub.shownStopping = info.instanceId := by
    rw [hu.shown]
    cases hstopping : hub.stopping with
    | none => simpa [shown] using hnamed.symm
    | some id => simp [shown]
  simp only [isStopping, Bool.or_eq_true, beq_iff_eq, Bool.not_eq_true']
  rw [hmark]
  exact Or.comm

end Hub

namespace Frame

open Hub

variable {hub hub' : Hub σ} {frame : Frame σ} {frames rest : List (Frame σ)}

private theorem tells_load {app : App σ} {client : LoadClient σ}
    (h : hub.load app client = .go hub' frames) : ∀ f ∈ frames, hub'.Tells f := by
  rcases Hub.load_cases h with ⟨reason, -, rfl⟩ | ⟨id, hub₁, -, -, rfl, rfl, rfl⟩
  · exact tells_of_all rfl
  · intro f hf index stopping htold info hinfo
    cases List.mem_singleton.mp hf
    cases htold
    have hplaced : info.instanceId = id := by
      have hlast : (hub.infos ++ [{ app.nanoapp.info with instanceId := id }])[hub.apps.length]? =
          some info := by
        rw [← hinfo]
        simp [infos, enroll, record, setCurrent, Nanoapp.loaded, App.alter]
      have hlength : hub.infos.length = hub.apps.length := List.length_map _
      rw [← hlength, List.getElem?_concat_length] at hlast
      cases hlast
      rfl
    rw [hplaced]
    rfl

private theorem tells_deliverTo {index : Nat} {app : App σ} (serial : Option Nat) (event : Event)
    (hasCallback : Bool) (placed : hub.apps[index]? = some app) :
    ∀ f ∈ (hub.deliverTo index app serial event hasCallback).2,
      (hub.deliverTo index app serial event hasCallback).1.Tells f := by
  have side := loopSide_checkLatency hub event app.nanoapp.info.instanceId
  intro f hf at_ stopping htold info hinfo
  simp only [deliverTo, List.mem_cons, List.not_mem_nil, or_false] at hf
  rcases hf with rfl | rfl
  · cases htold
    have hchecked : (hub.checkLatency event app.nanoapp.info.instanceId).infos = hub.infos :=
      infos_of_loopSide side
    have hinfos : (hub.deliverTo index app serial event hasCallback).1.infos = hub.infos := hchecked
    have hinfo' : hub.infos[index]? = some app.nanoapp.info := by
      rw [infos, List.getElem?_map, placed]
      rfl
    rw [hinfos, hinfo'] at hinfo
    cases hinfo
    rfl
  · cases htold

private theorem tells_code {r : Reach} {a : Answer} {actor : Actor σ r a} {routine : Routine σ r a}
    (placed : ∀ i, actor.place? = some i → i < hub.apps.length)
    (told : hub.Tells (.code actor routine))
    (ho : Routine.Outcome hub actor routine hub' frames) : ∀ f ∈ frames, hub'.Tells f := by
  have goes : ∀ next, hub.Tells (.code actor next) := by
    intro next
    cases actor with
    | start | entry => exact told.goes
    | loop | handle | release => exact tells_of_none rfl
  have single : ∀ {hub' : Hub σ} {next}, hub'.Tells (.code actor next) →
      ∀ f ∈ [Frame.code actor next], hub'.Tells f := by
    intro hub' next h f hf
    rw [List.mem_singleton.mp hf]
    exact h
  cases ho with
  | quiet calm side => exact single ((goes _).of_loopSide side)
  | tuned =>
    exact single ((goes _).same (infos_alterApp hub _ fun _ => rfl) fun _ => rfl)
  | post kind posted =>
    have side := (loopSide_posted posted).trans (loopSide_offer ..)
    refine tells_append (tells_of_lights (isLight_posted posted)) (single ?_)
    exact (goes _).of_loopSide side
  | load hl => exact tells_load hl
  | unload | idle | run | message => exact tells_of_all rfl
  | deliver ha => exact tells_append (tells_deliverTo none _ false ha) (tells_of_all rfl)
  | ended | left => exact tells_of_all rfl
  | started hs =>
    have ha := List.getElem?_eq_getElem (placed _ rfl)
    rcases finishStart_cases ha hs with ⟨-, upper, hgo, rfl⟩ | ⟨-, other, -, -, -, rfl⟩
    · exact tells_append (tells_of_lights (light_announce hgo).2) (tells_of_all rfl)
    · exact tells_of_all rfl

private theorem tells_complete {posting : Posting σ}
    (h : (Frame.complete posting).step hub = .go hub' frames) : ∀ f ∈ frames, hub'.Tells f := by
  rcases complete_cases h with ⟨-, -, rfl⟩ | ⟨callback, instanceId, -, -, rfl⟩ | ⟨work, -, hw⟩
  · exact tells_of_all rfl
  · exact tells_of_all rfl
  · rcases perform_cases hw with
      ⟨-, -, rfl⟩ | ⟨app, -, -, hl⟩ | ⟨app, -, -, -, rfl⟩ |
      ⟨instanceId, force, app, -, -, -, -, rfl⟩ |
      ⟨instanceId, force, report, reason, -, -, -, rfl⟩ | ⟨kind, routine, -, -, rfl⟩
    · exact tells_of_all rfl
    · exact tells_load hl
    · exact tells_of_all rfl
    · exact tells_of_all rfl
    · exact tells_of_all rfl
    · exact tells_of_all rfl

/-- An app that is to end bears the mark of its unload. -/
private theorem tells_settle {info : Info} {started : Bool} {previous : Option UInt16}
    (marked : hub.stopping = some info.instanceId)
    (h : (Frame.settle info started previous).step hub = .go hub' frames) :
    ∀ f ∈ frames, hub'.Tells f := by
  rcases settleUnload_cases h with
    ⟨-, -, rfl⟩ | ⟨index, hi, ⟨rfl, upper, hgo, rfl⟩ | ⟨rfl, rfl, rfl⟩⟩
  · exact tells_of_all rfl
  · obtain ⟨side, light⟩ := light_announce hgo
    obtain ⟨app, ha, named⟩ := indexOf?_eq_some hi
    have removal : hub.Tells (.remove index true) := by
      intro place stopping htold other hother
      cases htold
      rw [infos, List.getElem?_map, ha] at hother
      cases hother
      simp [isStopping, marked, named]
    refine tells_append (tells_of_lights light) fun f hf => ?_
    simp only [List.mem_cons, List.not_mem_nil, or_false] at hf
    rcases hf with rfl | rfl
    · exact removal.of_loopSide side
    · exact tells_of_none rfl
  · exact tells_of_all rfl

private theorem tells_remove {index : Nat} {started : Bool}
    (told : hub.Tells (.remove index started))
    (h : (Frame.remove index started).step hub = .go hub' frames) :
    ∀ f ∈ frames, hub'.Tells f := by
  rcases removeAt_cases h with ⟨-, rfl, rfl⟩ | ⟨app, ha, ⟨rfl, rfl, rfl⟩ | ⟨-, rfl, rfl⟩⟩
  · exact tells_of_all rfl
  · intro f hf place stopping htold info hinfo
    simp only [List.mem_cons, List.not_mem_nil, or_false] at hf
    rcases hf with rfl | rfl | rfl
    · cases htold
      exact told index true rfl info hinfo
    · cases htold
    · cases htold
  · exact tells_of_all rfl

private theorem tells_clear (closed : hub.running = false)
    (h : Frame.clear.step hub = .go hub' frames) : ∀ f ∈ frames, hub'.Tells f := by
  simp only [step] at h
  split at h
  next =>
    cases h
    exact tells_of_all rfl
  next =>
    cases h
    intro f hf place stopping htold info hinfo
    simp only [List.mem_cons, List.not_mem_nil, or_false] at hf
    rcases hf with rfl | rfl
    · cases htold
      simp [isStopping, closed]
    · cases htold

theorem step_tells (placed : ∀ i, frame.index? = some i → i < hub.apps.length)
    (told : hub.Tells frame)
    (marked : ∀ info started previous, frame = .settle info started previous →
      hub.stopping = some info.instanceId)
    (closed : frame = .clear → hub.running = false)
    (h : frame.step hub = .go hub' frames) : ∀ f ∈ frames, hub'.Tells f := by
  cases frame with
  | code actor routine => exact tells_code placed told (Routine.step_outcome placed h)
  | evict | vacate | enqueue => exact tells_of_lights (step_light rfl h).2
  | dispatch handle =>
    rcases dispatch_cases h with ⟨posting, -, -, rfl⟩ | ⟨-, -, rfl⟩
    · exact tells_of_all rfl
    · exact tells_of_all rfl
  | discard handle =>
    rcases discard_cases h with ⟨-, ⟨posting, -, rfl⟩ | ⟨-, rfl⟩⟩
    · exact tells_of_all rfl
    · exact tells_of_all rfl
  | distribute posting index reached =>
    rcases offerTo_cases h with ⟨app, ha, -, rfl, rfl⟩ | ⟨app, -, -, -, rfl⟩ | ⟨-, -, rfl⟩
    · exact tells_append (tells_deliverTo _ _ _ ha) (tells_of_all rfl)
    · exact tells_of_all rfl
    · exact tells_of_all rfl
  | complete posting => exact tells_complete h
  | answer client result =>
    cases client with
    | routine actor next =>
      cases h
      exact tells_of_all rfl
    | request appId =>
      cases result with
      | ok | error =>
        cases h
        exact tells_of_all rfl
  | mark info started =>
    cases started with
    | true | false =>
      cases h
      exact tells_of_all rfl
  | settle info started previous => exact tells_settle (marked _ _ _ rfl) h
  | remove index started => exact tells_remove told h
  | release load info managers =>
    cases managers with
    | nil | cons =>
      cases h
      exact tells_of_all rfl
  | flush | drain | await | idle =>
    obtain ⟨hub₁, -, ⟨-, rests⟩ | ⟨handle, -, pops⟩⟩ := takes_cases rfl h
    · exact tells_of_idle rests.settled.idle
    · exact tells_of_idle pops.settled.idle
  | serve =>
    simp only [step] at h
    split at h
    all_goals
      cases h
      exact tells_of_all rfl
  | clear => exact tells_clear (closed rfl) h
  | delivered | restore | erase | unmark | cycle | turn | endCycle | exit =>
    cases h
    exact tells_of_all rfl

/-- While an app is busy nothing but light frames is above it, and nobody else is told anything. -/
theorem Busy.untold {collaborators : Collaborators σ} {index load : Nat} {info : Info}
    {task : Task σ} (busy : Busy collaborators index load info task (frame :: rest))
    (heavy : frame.isLight = false) : ∀ f ∈ rest, f.told? = none := by
  cases busy with
  | above light =>
    rw [heavy] at light
    cases light
  | start idle | handle idle | mark idle | settle idle | remove idle | leave idle | erase idle =>
    exact fun f hf => told?_of_idle (idle f hf)
  | finish idle =>
    intro f hf
    simp only [List.mem_cons] at hf
    rcases hf with rfl | rfl | hf
    · rfl
    · rfl
    · exact told?_of_idle (idle f hf)
  | release order idle =>
    intro f hf
    rcases List.mem_cons.mp hf with rfl | hf
    · rfl
    · exact told?_of_idle (idle f hf)

theorem Busy.finishing {collaborators : Collaborators σ} {index load : Nat} {info : Info}
    {task : Task σ} (busy : Busy collaborators index load info task frames) {place : Nat}
    {stopping : Bool} {routine : Routine σ .app .nothing}
    (hf : .code (.entry place stopping .finish) routine ∈ frames) : stopping = true := by
  have idles : ∀ {rest : List (Frame σ)}, (∀ f ∈ rest, f.isBusy = false) →
      .code (.entry place stopping .finish) routine ∉ rest := by
    intro rest idle hmem
    cases idle _ hmem
  induction busy with
  | above light _ ih =>
    rcases List.mem_cons.mp hf with rfl | hf
    · cases light
    · exact ih hf
  | start idle | handle idle | mark idle | settle idle | remove idle | leave idle | erase idle =>
    rcases List.mem_cons.mp hf with he | hf
    · cases he
    · exact absurd hf (idles idle)
  | finish idle =>
    simp only [List.mem_cons, reduceCtorEq, false_or] at hf
    rcases hf with he | hf
    · cases he
      rfl
    · exact absurd hf (idles idle)
  | release order idle =>
    simp only [List.mem_cons, reduceCtorEq, false_or] at hf
    exact absurd hf (idles idle)

end Frame

namespace Records.Tended

open SensorHub.Frame

variable {answered : Nat → Bool → Prop} {r : Records σ} {frame : Frame σ}
  {frames rest : List (Frame σ)}

theorem untold (h : Tended answered r (frame :: rest)) (heavy : frame.isLight = false) :
    ∀ f ∈ rest, f.told? = none := by
  cases h with
  | idle _ idle => exact fun f hf => told?_of_idle (idle f (List.mem_cons_of_mem _ hf))
  | busy _ _ busy => exact busy.untold heavy

theorem finishing (h : Tended answered r frames) {index : Nat} {stopping : Bool}
    {routine : Routine σ .app .nothing}
    (hf : .code (.entry index stopping .finish) routine ∈ frames) : stopping = true := by
  cases h with
  | idle _ idle => cases idle _ hf
  | busy _ _ busy => exact busy.finishing hf

end Records.Tended

namespace Hub

variable {hub hub' : Hub σ} {posting : Posting σ} {cargo : List (Cargo σ)}

/-- What becomes of an event that an app sends, by what the app is told. While it is to stop, its
events are refused: they are released at once and are not counted as lost. Otherwise an event takes
a free slot, or it is dropped and counted. -/
inductive Sent (hub : Hub σ) (posting : Posting σ) :
    (stopping accepted : Bool) → Hub σ → List (Frame σ) → Prop
  | refused {after : Hub σ} (queue : after.queue = hub.queue)
      (waiting : after.waiting = hub.waiting) (losses : after.losses = hub.losses) :
      Sent hub posting true false after (released posting)
  | queued {after : Hub σ} (room : hub.pool.isFull = false)
      (waiting : after.waiting = hub.waiting ++ [posting.stamped hub.now])
      (losses : after.losses = hub.losses) : Sent hub posting false true after []
  | dropped {after : Hub σ} (full : hub.pool.isFull = true) (queue : after.queue = hub.queue)
      (waiting : after.waiting = hub.waiting)
      (losses : after.losses = (hub.dropped + 1, posting.serial :: drops hub.journal)) :
      Sent hub posting false false after (released posting)

theorem Sent.of_offer {way : Way} {event : Event} {completion : Completion σ}
    {stopping accepted : Bool} {upper : List (Frame σ)}
    (h : (hub.offer way event completion).2.Sent posting stopping accepted hub' upper) :
    hub.Sent posting stopping accepted hub' upper := by
  cases h with
  | refused queue waiting losses => exact .refused queue waiting losses
  | queued room waiting losses => exact .queued room waiting losses
  | dropped full queue waiting losses => exact .dropped full queue waiting losses

theorem losses_refused (h : hub.running = false ∨ hub.Refuses posting.event) :
    (hub.postDroppable posting).2.1.losses = hub.losses := by
  unfold postDroppable
  dsimp only
  split
  next => exact losses_detach hub posting
  next running =>
    split
    next =>
      exact losses_detach
        (hub.log (.senderStopping posting.event.type posting.event.sender)) posting
    next passes =>
      have refuses := h.resolve_left (by simpa using running)
      exact absurd (by simpa [Refuses] using refuses) passes

theorem losses_passed (running : hub.running = true) (passes : ¬hub.Refuses posting.event) :
    (hub.postDroppable posting).2.1.losses = if (hub.postDroppable posting).1 then hub.losses
      else (hub.dropped + 1, posting.serial :: drops hub.journal) := by
  have hsender : (posting.event.sender != systemId &&
      hub.shownStopping == posting.event.sender) = false := by
    simpa [Refuses] using passes
  have hlosses := losses_enqueue hub posting
  simp only [postDroppable, running, hsender, Bool.not_true, Bool.false_eq_true, if_false]
  rcases he : hub.enqueue posting with ⟨_ | _, hub₁⟩
  · rw [he] at hlosses
    have hdropped : hub₁.dropped = hub.dropped := congrArg Prod.fst hlosses
    have hdrops : drops hub₁.journal = drops hub.journal := congrArg Prod.snd hlosses
    refine (losses_detach _ posting).trans ?_
    rw [if_neg Bool.false_ne_true, ← hdropped, ← hdrops]
    rfl
  · rw [he] at hlosses
    exact hlosses

/-- A post that the checks refuse is that of an app that is told to stop. -/
theorem sent_refused (h : hub.running = false ∨ hub.Refuses posting.event) :
    ∃ hub' upper, hub.postDroppable posting = (false, hub', upper) ∧
      hub.Sent posting true false hub' upper := by
  obtain ⟨hub', hpost, hqueue⟩ := postDroppable_refused h
  obtain ⟨news, hkept, -⟩ := postDroppable_kept h
  have hlosses := losses_refused h
  rw [hpost] at hkept hlosses
  refine ⟨hub', _, hpost, .refused hqueue ?_ hlosses⟩
  obtain rfl : hub' = _ := hkept
  rfl

theorem sent_passed (ht : hub.Tidy cargo) (running : hub.running = true)
    (passes : ¬hub.Refuses posting.event) :
    ∃ accepted hub' upper, hub.postDroppable posting = (accepted, hub', upper) ∧
      hub.Sent posting false accepted hub' upper := by
  obtain ⟨accepted, hub', upper, hpost, -, hwaiting, -⟩ := ht.postDroppable posting
  have hlosses := losses_passed running passes
  rcases postDroppable_passed ht.sound running passes with
    ⟨hfull, hub₁, hpost₁, hqueue⟩ | ⟨hfull, hub₁, handle, hpost₁, -⟩
  · rw [hpost₁] at hpost hlosses
    cases hpost
    refine ⟨_, _, _, hpost₁, .dropped hfull hqueue ?_ hlosses⟩
    rw [hwaiting, if_neg Bool.false_ne_true, List.append_nil]
  · rw [hpost₁] at hpost hlosses
    cases hpost
    exact ⟨_, _, _, hpost₁, .queued hfull hwaiting hlosses⟩

end Hub

namespace Machine

open Hub

variable {m : Machine σ}

theorem Reachable.tells (hm : m.Reachable) : ∀ f ∈ m.frames, m.hub.Tells f := by
  refine hm.keeps (P := fun hub frames => ∀ f ∈ frames, hub.Tells f) ?_ ?_ ?_
  · intro config collaborators memory now routine _
    exact tells_of_all rfl
  · intro hub hub' frame frames rest hm told h
    have below : ∀ f ∈ rest, hub.Tells f := fun f hf => told f (List.mem_cons_of_mem _ hf)
    cases light : frame.isLight with
    | true =>
      obtain ⟨side, lights⟩ := Frame.step_light light h
      exact tells_append (tells_of_lights lights) fun f hf => (below f hf).of_loopSide side
    | false =>
      have untold : ∀ f ∈ rest, f.told? = none := by
        obtain ⟨start, hs, hr⟩ := hm
        exact (Reaches.tended hs hr).untold light
      refine tells_append ?_ fun f hf => tells_of_none (untold f hf)
      refine Frame.step_tells hm.nested.1 (told frame (List.mem_cons_self ..)) ?_ ?_ h
      · rintro info started previous rfl
        exact hm.unloading.marked.1
      · rintro rfl
        exact hm.shutting.stopped .clear (List.mem_cons_self ..) rfl
  · intro hub frames routine told
    have foreign : ∀ f ∈ [Frame.code (.handle .foreign) routine], hub.Tells f := tells_of_all rfl
    exact tells_append foreign told

end Machine

def Actor.ends {a : Answer} : Actor σ .app a → Bool
  | .entry _ _ .finish => true
  | _ => false

namespace Machine

open Hub

variable {m : Machine σ} {a : Answer} {actor : Actor σ .app a} {routine : Routine σ .app a}
  {upper lower : List (Frame σ)}

theorem Reachable.ending (hm : m.Reachable) (hf : .code actor routine ∈ m.frames)
    (ends : actor.ends = true) : actor.stopping = true := by
  obtain ⟨start, hs, hr⟩ := hm
  have htended := Reaches.tended hs hr
  cases actor with
  | start => cases ends
  | entry index stopping point =>
    cases point with
    | finish => exact htended.finishing hf
    | start | event => cases ends

/-- A post goes by what the checks say of its sender, and by the pool. -/
theorem PostsLow.sent {event : Event} {free : Option (FreeCallback σ)} {next : Bool → Frame σ}
    {rest : List (Frame σ)} (hp : m.PostsLow event free next rest) (hm : m.Reachable)
    {stopping : Bool} (checks : stopping = true ↔ m.hub.running = false ∨ m.hub.Refuses event) :
    ∃ accepted hub' above, m.step = .stepped ⟨hub', above ++ next accepted :: rest⟩ ∧
      m.hub.Sent (lowPosting m.hub event free) stopping accepted hub' above := by
  have htidy := hm.tidy.offer .low { event with lowPriority := true } (.ofCallback free)
  cases stopping with
  | true =>
    have hrefused : m.hub.running = false ∨ m.hub.Refuses (lowPosting m.hub event free).event :=
      checks.mp rfl
    obtain ⟨hub', above, hpost, hsent⟩ :=
      @sent_refused _ (m.hub.offer .low { event with lowPriority := true } (.ofCallback free)).2
        (lowPosting m.hub event free) hrefused
    exact ⟨false, hub', above, hp.stepped hpost, hsent.of_offer⟩
  | false =>
    obtain ⟨hruns, hpasses⟩ := not_or.mp (mt checks.mpr Bool.false_ne_true)
    have running : m.hub.running = true := by simpa using hruns
    obtain ⟨accepted, hub', above, hpost, hsent⟩ :=
      @sent_passed _ _ (lowPosting m.hub event free) _ htidy running hpasses
    exact ⟨accepted, hub', above, hp.stepped hpost, hsent.of_offer⟩

/-- At every point of the code of an app, whatever is nested in it and whatever other threads do,
the app is told to stop exactly if the hub has stopped or the app is marked, for the loop and for
other threads alike; and while it ends it is told so. An event that it sends is refused if it is
told to stop; if not, the event is queued in the app's name exactly if there is a free slot. -/
theorem told_agrees_with_admission (hm : m.Reachable)
    (frames : m.frames = upper ++ .code actor routine :: lower) :
    ∃ app, m.hub.apps[actor.index]? = some app ∧
      (actor.stopping = true ↔ m.hub.running = false ∨
        m.hub.stopping = some app.nanoapp.info.instanceId) ∧
      (actor.stopping = true ↔ m.hub.running = false ∨
        m.hub.shownStopping = app.nanoapp.info.instanceId) ∧
      (actor.ends = true → actor.stopping = true) ∧
      (∀ next, upper = [] → routine = .lookInward next → ∃ self : SelfView,
        self.stopping = actor.stopping ∧
          m.step = .stepped ⟨m.hub, .code actor (next self) :: lower⟩) ∧
      ∀ event free next, upper = [] → routine = .send event free next →
        ∃ accepted hub' above,
          m.step = .stepped ⟨hub', above ++ .code actor (next accepted) :: lower⟩ ∧
          m.hub.Sent (lowPosting m.hub { event with sender := app.nanoapp.info.instanceId } free)
            actor.stopping accepted hub' above := by
  have hmem : .code actor routine ∈ m.frames := by
    rw [frames]
    exact List.mem_append_right _ (List.mem_cons_self ..)
  have hplaced : actor.index < m.hub.apps.length := by
    have hn := hm.nested
    rw [frames] at hn
    exact Frame.placed_below hn (by cases actor <;> rfl)
  have ha := List.getElem?_eq_getElem hplaced
  generalize m.hub.apps[actor.index] = app at ha
  have hinfo : m.hub.infos[actor.index]? = some app.nanoapp.info := by
    rw [infos, List.getElem?_map, ha]
    rfl
  have htold := hm.tells _ hmem _ _ (Frame.told?_of_app actor routine) _ hinfo
  have hshown := isStopping_iff hm.unloading (List.mem_of_getElem? hinfo)
  refine ⟨app, ha, ?_, htold ▸ hshown, hm.ending hmem, ?_, ?_⟩
  · rw [htold, isStopping, Bool.or_eq_true, beq_iff_eq, Bool.not_eq_true']
    exact Or.comm
  · rintro next rfl rfl
    obtain ⟨hub, stack⟩ := m
    cases frames
    refine ⟨⟨app.nanoapp.info, app.nanoapp.registrations, actor.stopping⟩, rfl, ?_⟩
    have ha' : hub.apps[actor.index]? = some app := ha
    simp only [Machine.step, Frame.step, Routine.step, ha']
    rfl
  · rintro event free next rfl rfl
    obtain ⟨hub, stack⟩ := m
    cases frames
    have hp := @PostsLow.context σ hub a app actor event free next lower ha
    -- The check that the post makes is the one that told the app to stop.
    have hchecks : actor.stopping = true ↔ hub.running = false ∨
        hub.Refuses { event with sender := app.nanoapp.info.instanceId } := by
      rw [htold, hshown]
      refine or_congr_right ⟨fun h => ⟨?_, h⟩, fun h => h.2⟩
      exact hm.unloading.assigned _ (List.mem_of_getElem? hinfo)
    exact hp.sent hm hchecks

def greeter : App Unit where
  nanoapp := .new 1 1
  onStart := .send (Event.new EventType.firstUser) none fun accepted => .done accepted
  onEvent := fun _ _ => .done ()
  onEnd := .send (Event.new EventType.firstUser) none fun _ => .done ()

def greets : Routine Unit .loop .nothing :=
  .start greeter fun _ =>
  .unload 1 false fun _ =>
  .done ()

/-- What the app sends when it starts is queued, and what it sends when it ends is refused. -/
theorem told_agrees_with_admission_greets :
    (∃ hub', ((plain greets).advance 1).1.step = .stepped ⟨hub', [.code
        (.start 0 false (.routine .outside fun _ => .unload 1 false fun _ => .done ()))
        (.done true)]⟩ ∧ hub'.waiting.length = 1) ∧
      ∃ hub', ((plain greets).advance 26).1.step = .stepped ⟨hub',
        .code (.entry 0 true .finish) (.done ()) :: ((plain greets).advance 26).1.frames.tail⟩ ∧
        hub'.queue = ((plain greets).advance 26).1.hub.queue ∧ hub'.dropped = 0 := by
  have reachable : ∀ k, ((plain greets).advance k).2 = .unfinished →
      ((plain greets).advance k).1.Reachable :=
    fun k h => ⟨_, isStart_plain greets, reaches_unfinished h⟩
  constructor
  · obtain ⟨app, -, -, -, -, -, hsend⟩ :=
      @told_agrees_with_admission _ _ _ _ _ [] _ (reachable 1 (by decide +kernel)) rfl
    obtain ⟨accepted, hub', above, hstep, hsent⟩ := hsend _ _ _ rfl rfl
    cases hsent with
    | queued room waiting losses =>
      have hempty : ((plain greets).advance 1).1.hub.waiting.length = 0 := by decide +kernel
      refine ⟨hub', hstep, ?_⟩
      rw [waiting, List.length_append, hempty]
      rfl
    | dropped full => exact absurd full (by decide +kernel)
  · obtain ⟨app, -, -, -, -, -, hsend⟩ :=
      @told_agrees_with_admission _ _ _ _ _ [] _ (reachable 26 (by decide +kernel)) rfl
    obtain ⟨accepted, hub', above, hstep, hsent⟩ := hsend _ _ _ rfl rfl
    cases hsent with
    | refused queue waiting losses =>
      refine ⟨hub', hstep, queue, ?_⟩
      have hdropped : hub'.dropped = ((plain greets).advance 26).1.hub.dropped :=
        congrArg Prod.fst losses
      rw [hdropped]
      decide +kernel

end Machine

end SensorHub
