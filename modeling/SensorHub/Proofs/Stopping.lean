import SensorHub.Proofs.InFlight
import SensorHub.Proofs.Phases
import SensorHub.Proofs.Registry

namespace SensorHub

variable {σ : Type}

namespace Frame

/-- The app that an unload in progress has marked, and the mark that it gives back. -/
def mark? : Frame σ → Option (UInt16 × Option UInt16)
  | .settle info _ previous | .unmark info previous => some (info.instanceId, previous)
  | _ => none

/-- The apps that unloads in progress have marked, innermost first. -/
def marks (frames : List (Frame σ)) : List UInt16 :=
  frames.filterMap fun frame => frame.mark?.map Prod.fst

/-- The mark is that of the innermost unload; what this one gives back is the mark of the next. -/
def Marked (stopping : Option UInt16) : List (Frame σ) → Prop
  | [] => stopping = none
  | frame :: rest =>
    match frame.mark? with
    | some (id, previous) => stopping = some id ∧ Marked previous rest
    | none => Marked stopping rest

variable {hub hub' : Hub σ} {frame : Frame σ} {frames upper rest : List (Frame σ)}
  {stopping : Option UInt16}

theorem mark?_of_isPhase (h : frame.isPhase = false) : frame.mark? = none := by
  cases frame with
  | settle | unmark => cases h
  | _ => rfl

theorem marked_cons (h : frame.mark? = none) :
    Marked stopping (frame :: rest) ↔ Marked stopping rest := by
  rw [Marked, h]

theorem marked_append (h : ∀ f ∈ upper, f.mark? = none) :
    Marked stopping (upper ++ rest) ↔ Marked stopping rest := by
  induction upper with
  | nil => exact Iff.rfl
  | cons frame upper ih =>
    have htail : ∀ f ∈ upper, f.mark? = none := fun f hf => h f (List.mem_cons_of_mem _ hf)
    rw [List.cons_append, marked_cons (h frame (List.mem_cons_self ..))]
    exact ih htail

theorem Marked.eq_head (h : Marked stopping frames) : stopping = (marks frames).head? := by
  induction frames generalizing stopping with
  | nil => exact h
  | cons frame rest ih =>
    cases hm : frame.mark? with
    | none =>
      rw [marked_cons hm] at h
      rw [ih h, marks, marks, List.filterMap_cons, hm]
      rfl
    | some mark =>
      rw [Marked, hm] at h
      rw [h.1, marks, List.filterMap_cons, hm]
      rfl

theorem step_marked (placed : ∀ i, frame.index? = some i → i < hub.apps.length)
    (hm : Marked hub.stopping (frame :: rest)) (h : frame.step hub = .go hub' frames) :
    Marked hub'.stopping (frames ++ rest) ∧
      (hub.shownStopping = Hub.shown hub.stopping →
        hub'.shownStopping = Hub.shown hub'.stopping) := by
  cases step_turn placed h with
  | stay ordinary same none =>
    have hframe : frame.mark? = Option.none := by
      cases frame with
      | settle | unmark => cases ordinary
      | _ => rfl
    rw [same.stopping, same.shown, marked_append fun f hf => mark?_of_isPhase (none f hf)]
    exact ⟨(marked_cons hframe).mp hm, fun hshown => hshown⟩
  | await | close | clear | cleared => exact ⟨hm, fun hshown => hshown⟩
  | drain side | drained side =>
    have same := SamePhase.of_loopSide side
    rw [same.stopping, same.shown]
    exact ⟨hm, fun hshown => hshown⟩
  | mark | spare => exact ⟨⟨rfl, hm⟩, fun _ => rfl⟩
  | gone | unmark => exact ⟨hm.2, fun _ => rfl⟩
  | @settle _ _ _ _ _ upper side light =>
    have same := SamePhase.of_loopSide side
    have hupper : ∀ f ∈ upper, f.mark? = none :=
      fun f hf => mark?_of_isPhase (isPhase_of_isLight (light f hf))
    rw [same.stopping, same.shown, List.append_assoc, marked_append hupper]
    exact ⟨hm, fun hshown => hshown⟩

/-- The unloads in progress. -/
structure Unloading (hub : Hub σ) (frames : List (Frame σ)) : Prop where
  marked : Marked hub.stopping frames
  shown : hub.shownStopping = Hub.shown hub.stopping
  assigned : ∀ info ∈ hub.infos, info.instanceId ≠ systemId
  named : ∀ f ∈ frames, ∀ info, f.unloads? = some info → info.instanceId ≠ systemId

theorem Turnover.assigned {r r' : Records σ} (ht : frame.Turnover r r' frames)
    (h : ∀ info ∈ r.infos, info.instanceId ≠ systemId) :
    ∀ info ∈ r'.infos, info.instanceId ≠ systemId := by
  intro info hi
  obtain ⟨⟨load, _⟩, hmem, rfl⟩ := List.mem_map.mp hi
  rcases ht.roster with he | ⟨new, he, named⟩ | ⟨index, he⟩
  · exact h _ (List.mem_map.mpr ⟨_, he ▸ hmem, rfl⟩)
  · rw [he] at hmem
    rcases List.mem_append.mp hmem with hmem | hmem
    · exact h _ (List.mem_map.mpr ⟨_, hmem, rfl⟩)
    · rw [List.mem_singleton.mp hmem]
      exact named
  · rw [he] at hmem
    exact h _ (List.mem_map.mpr ⟨_, List.mem_of_mem_eraseIdx hmem, rfl⟩)

theorem step_unloading (placed : ∀ i, frame.index? = some i → i < hub.apps.length)
    (hu : Unloading hub (frame :: rest)) (h : frame.step hub = .go hub' frames) :
    Unloading hub' (frames ++ rest) := by
  obtain ⟨hmarked, hshown⟩ := step_marked placed hu.marked h
  obtain ⟨turnover, hframes⟩ := step_turnover placed h
  have hassigned : ∀ info ∈ hub'.infos, info.instanceId ≠ systemId := by
    rw [Hub.infos_eq]
    refine turnover.assigned ?_
    rw [← Hub.infos_eq]
    exact hu.assigned
  refine ⟨hmarked, hshown hu.shown, hassigned, fun f hf info hi => ?_⟩
  rcases List.mem_append.mp hf with hf | hf
  · rcases hframes f hf info hi with hmem | hframe
    · exact hu.assigned info hmem
    · exact hu.named frame (List.mem_cons_self ..) info hframe
  · exact hu.named f (List.mem_cons_of_mem _ hf) info hi

end Frame

namespace Machine

theorem Reachable.unloading {m : Machine σ} (hm : m.Reachable) :
    Frame.Unloading m.hub m.frames := by
  refine hm.keeps (P := Frame.Unloading) ?_ ?_ ?_
  · intro config collaborators memory now routine _
    exact ⟨rfl, rfl, by simp [Hub.create, Hub.infos], by simp [Frame.unloads?]⟩
  · intro hub hub' frame frames rest hm hu h
    exact Frame.step_unloading hm.nested.1 hu h
  · intro hub frames routine hu
    refine ⟨hu.marked, hu.shown, hu.assigned, fun f hf info hi => ?_⟩
    rcases List.mem_cons.mp hf with rfl | hf
    · cases hi
    · exact hu.named f hf info hi

end Machine

namespace Hub

variable {hub : Hub σ} {posting : Posting σ} {live : List Handle}

def released (posting : Posting σ) : List (Frame σ) :=
  match posting.completion with
  | .free callback =>
    [.code (.handle (.detached posting.serial posting.event.sender))
      (callback posting.event.type posting.event.payload)]
  | _ => []

theorem detach_released (hub : Hub σ) (posting : Posting σ) :
    (hub.detach posting).2 = released posting ∧ (hub.detach posting).1.queue = hub.queue := by
  unfold detach released
  cases posting.completion with
  | nothing | free | work => exact ⟨rfl, rfl⟩

/-- The sender of an event is marked, for other threads, as stopping. -/
def Refuses (hub : Hub σ) (event : Event) : Prop :=
  event.sender ≠ systemId ∧ hub.shownStopping = event.sender

/-- Of the apps that are being unloaded only the one marked last is refused. -/
theorem refuses_iff {frames : List (Frame σ)} {event : Event} (hu : Frame.Unloading hub frames)
    (hmarked : event.sender ∈ Frame.marks frames) :
    hub.Refuses event ↔ (Frame.marks frames).head? = some event.sender := by
  obtain ⟨frame, hf, hframe⟩ := List.mem_filterMap.mp hmarked
  have hnamed : event.sender ≠ systemId := by
    cases frame with
    | settle info started previous | unmark info previous =>
      have hid : info.instanceId = event.sender := Option.some.inj hframe
      exact hid ▸ hu.named _ hf info rfl
    | _ => cases hframe
  obtain ⟨innermost, others, hmarks⟩ := List.exists_cons_of_ne_nil (List.ne_nil_of_mem hmarked)
  have hshown : hub.shownStopping = innermost := by
    rw [hu.shown, hu.marked.eq_head, hmarks]
    rfl
  rw [hmarks, List.head?_cons, Option.some_inj, ← hshown]
  exact ⟨fun h => h.2, fun h => ⟨hnamed, h⟩⟩

theorem postDroppable_refused (h : hub.running = false ∨ hub.Refuses posting.event) :
    ∃ hub', hub.postDroppable posting = (false, hub', released posting) ∧
      hub'.queue = hub.queue := by
  unfold postDroppable
  cases hr : hub.running with
  | false =>
    obtain ⟨hframes, hqueue⟩ := detach_released hub posting
    refine ⟨_, ?_, hqueue⟩
    rw [← hframes]
    rfl
  | true =>
    have hrefuses : (posting.event.sender != systemId &&
        hub.shownStopping == posting.event.sender) = true := by
      rcases h with h | h
      · rw [hr] at h
        cases h
      · simpa [Refuses] using h
    obtain ⟨hframes, hqueue⟩ := detach_released
      (hub.log (.senderStopping posting.event.type posting.event.sender)) posting
    refine ⟨_, ?_, hqueue⟩
    rw [← hframes]
    simp only [Bool.not_true, Bool.false_eq_true, if_false, hrefuses, if_true]

/-- An event that is not refused is queued if there is a slot for it. -/
theorem postDroppable_passed (hs : hub.pool.Sound live) (running : hub.running = true)
    (h : ¬hub.Refuses posting.event) :
    (hub.pool.isFull = true ∧ ∃ hub', hub.postDroppable posting = (false, hub', released posting) ∧
      hub'.queue = hub.queue) ∨
    (hub.pool.isFull = false ∧ ∃ hub' handle, hub.postDroppable posting = (true, hub', []) ∧
      hub.Admits posting handle hub') := by
  have hpasses : (posting.event.sender != systemId &&
      hub.shownStopping == posting.event.sender) = false := by
    cases hb : (posting.event.sender != systemId &&
        hub.shownStopping == posting.event.sender) with
    | false => rfl
    | true => exact absurd (by simpa [Refuses] using hb) h
  unfold postDroppable
  simp only [running, hpasses, Bool.not_true, Bool.false_eq_true, if_false]
  cases hfull : hub.pool.isFull with
  | true =>
    obtain ⟨hub₁, he, calm⟩ := enqueue_full hs (hs.isFull_iff.mp hfull) posting
    have hd := detach_released ({ hub₁ with dropped := hub₁.dropped + 1 }.record
      (.dropped posting.serial) |>.log (.dropped posting.event.type posting.event.target)) posting
    refine .inl ⟨rfl, _, ?_, hd.2.trans calm.queue⟩
    rw [he, ← hd.1]
  | false =>
    have hroom : live.length ≠ hub.pool.capacity := by
      intro hlen
      rw [hs.isFull_iff.mpr hlen] at hfull
      cases hfull
    obtain ⟨handle, hub', he, admits, -, -⟩ := enqueue_room hs hroom posting
    refine .inr ⟨rfl, hub', handle, ?_, admits⟩
    rw [he]

end Hub

namespace Machine

variable {m : Machine σ} {event : Event} {free : Option (FreeCallback σ)}
  {next : Bool → Frame σ} {rest : List (Frame σ)}

/-- The machine is about to post an event that may be dropped, and to go on with `next`. -/
inductive PostsLow : Machine σ → Event → Option (FreeCallback σ) → (Bool → Frame σ) →
    List (Frame σ) → Prop
  /-- Through a handle, in the name of any sender. -/
  | handle {hub r a} {actor : Actor σ r a} {event free next rest} :
      PostsLow ⟨hub, .code actor (.postLow event free next) :: rest⟩ event free
        (fun accepted => .code actor (next accepted)) rest
  /-- By an app, in its own name. -/
  | context {hub a app} {actor : Actor σ .app a} {event free next rest}
      (ha : hub.apps[actor.index]? = some app) :
      PostsLow ⟨hub, .code actor (.send event free next) :: rest⟩
        { event with sender := app.nanoapp.info.instanceId } free
        (fun accepted => .code actor (next accepted)) rest

/-- The event as it is handed over. -/
def lowPosting (hub : Hub σ) (event : Event) (free : Option (FreeCallback σ)) : Posting σ :=
  ⟨hub.postings, { event with lowPriority := true }, .ofCallback free⟩

theorem PostsLow.stepped (hp : m.PostsLow event free next rest) {accepted : Bool} {hub' : Hub σ}
    {upper : List (Frame σ)}
    (h : (m.hub.offer .low { event with lowPriority := true } (.ofCallback free)).2.postDroppable
      (lowPosting m.hub event free) = (accepted, hub', upper)) :
    m.step = .stepped ⟨hub', upper ++ next accepted :: rest⟩ := by
  cases hp with
  | @handle hub r a actor event free next rest =>
    have h' : (hub.offer .low { event with lowPriority := true } (.ofCallback free)).2.postDroppable
        (hub.offer .low { event with lowPriority := true } (.ofCallback free)).1 =
          (accepted, hub', upper) := h
    simp only [Machine.step, Frame.step, Routine.step, h', List.append_assoc]
    rfl
  | @context hub a app actor event free next rest ha =>
    have h' : (hub.offer .low { event with
        sender := app.nanoapp.info.instanceId, lowPriority := true }
        (.ofCallback free)).2.postDroppable (hub.offer .low { event with
          sender := app.nanoapp.info.instanceId, lowPriority := true } (.ofCallback free)).1 =
          (accepted, hub', upper) := h
    simp only [Machine.step, Frame.step, Routine.step, ha, h', List.append_assoc]
    rfl

theorem PostsLow.step (hp : m.PostsLow event free next rest) :
    ∃ hub : Hub σ, hub.loopSide = m.hub.loopSide ∧ hub.pool = m.hub.pool ∧
      hub.queue = m.hub.queue ∧ ∀ accepted hub' upper,
        hub.postDroppable (lowPosting m.hub event free) = (accepted, hub', upper) →
          m.step = .stepped ⟨hub', upper ++ next accepted :: rest⟩ :=
  ⟨(m.hub.offer .low { event with lowPriority := true } (.ofCallback free)).2, rfl, rfl, rfl,
    fun _ _ _ h => hp.stepped h⟩

/-- A low-priority event of an app that an unload in progress has marked is refused exactly while
that unload is the innermost one. Inside the unload of another app it is queued like any event,
unless the pool is full or the hub has stopped. Whenever it is not queued it is released at
once. -/
theorem refused_iff_innermost (hm : m.Reachable) (hp : m.PostsLow event free next rest)
    (hmarked : event.sender ∈ Frame.marks m.frames) :
    ∃ accepted hub upper, m.step = .stepped ⟨hub, upper ++ next accepted :: rest⟩ ∧
      (accepted = false ↔ m.hub.running = false ∨
        (Frame.marks m.frames).head? = some event.sender ∨ m.hub.pool.isFull = true) ∧
      (accepted = false → hub.queue = m.hub.queue ∧
        upper = Hub.released (lowPosting m.hub event free)) ∧
      (accepted = true → upper = [] ∧ ∃ handle, hub.queue.toList = m.hub.queue.toList ++ [handle] ∧
        ∀ posting, hub.pool.inspect handle = some posting →
          posting.serial = m.hub.postings) := by
  obtain ⟨hub₁, hside, hpool, hqueue, hstep⟩ := hp.step
  have hs := hm.tidy.sound
  rw [← hpool] at hs
  have hrunning : hub₁.running = m.hub.running := congrArg LoopSide.running hside
  have hshown : hub₁.shownStopping = m.hub.shownStopping := congrArg LoopSide.shownStopping hside
  have hrefuses : hub₁.Refuses (lowPosting m.hub event free).event ↔
      (Frame.marks m.frames).head? = some event.sender := by
    rw [← Hub.refuses_iff hm.unloading hmarked, Hub.Refuses, Hub.Refuses, hshown]
    rfl
  by_cases hrefused : hub₁.running = false ∨ hub₁.Refuses (lowPosting m.hub event free).event
  · obtain ⟨hub', hpost, hq⟩ := Hub.postDroppable_refused hrefused
    refine ⟨false, hub', _, hstep _ _ _ hpost, ?_, fun _ => ⟨hq.trans hqueue, rfl⟩, by simp⟩
    rw [hrefuses, hrunning] at hrefused
    exact ⟨fun _ => hrefused.elim .inl fun h => .inr (.inl h), fun _ => rfl⟩
  · push Not at hrefused
    obtain ⟨hruns, hpasses⟩ := hrefused
    have hruns' : hub₁.running = true := by simpa using hruns
    rcases Hub.postDroppable_passed hs hruns' hpasses with
      ⟨hfull, hub', hpost, hq⟩ | ⟨hfull, hub', handle, hpost, admits⟩
    · refine ⟨false, hub', _, hstep _ _ _ hpost, ?_, fun _ => ⟨hq.trans hqueue, rfl⟩, by simp⟩
      rw [hpool] at hfull
      exact ⟨fun _ => .inr (.inr hfull), fun _ => rfl⟩
    · refine ⟨true, hub', _, hstep _ _ _ hpost, ?_, by simp, fun _ => ⟨rfl, handle, ?_, ?_⟩⟩
      · rw [hrefuses] at hpasses
        rw [hpool] at hfull
        rw [hrunning] at hruns
        simp [hruns, hpasses, hfull]
      · rw [admits.queue, hqueue]
      · intro posting hposting
        rw [admits.inspect, if_pos rfl] at hposting
        cases hposting
        rfl

def inertApp (appId : UInt64) : App Unit where
  nanoapp := .new appId 1
  onStart := .done true
  onEvent := fun _ _ => .done ()
  onEnd := .done ()

def ownEvent : Event :=
  { Event.new EventType.firstUser with sender := 1 }

/-- Unloads the first of two apps while a request to unload the other one is queued, and behind it
a callback that posts in the name of the first one. -/
def nestedUnload : Routine Unit .loop .nothing :=
  .start (inertApp 1) fun _ =>
  .start (inertApp 2) fun _ =>
  .request (.unload 2 false) fun _ =>
  .request (.call .deferred (.postLow ownEvent none fun _ => .done ())) fun _ =>
  .unload 1 false fun _ =>
  .done ()

private theorem nestedUnload_posts :
    ((plain nestedUnload).advance 47).1.Reachable ∧
      ((plain nestedUnload).advance 47).1.PostsLow ownEvent none
        (fun _ => .code (.loop (.callback 3)) (.done ()))
        ((plain nestedUnload).advance 47).1.frames.tail ∧
      Frame.marks ((plain nestedUnload).advance 47).1.frames = [2, 1] := by
  have hr : (plain nestedUnload).Reaches ((plain nestedUnload).advance 47).1 :=
    reaches_unfinished (by decide +kernel)
  exact ⟨⟨_, isStart_plain nestedUnload, hr⟩, .handle, rfl⟩

theorem refused_iff_innermost_nestedUnload :
    ∃ accepted hub upper, ((plain nestedUnload).advance 47).1.step = .stepped ⟨hub, upper ++
        .code (.loop (.callback 3)) (.done ()) :: ((plain nestedUnload).advance 47).1.frames.tail⟩ ∧
      accepted = true ∧ upper = [] := by
  obtain ⟨hm, hpost, hmarks⟩ := nestedUnload_posts
  obtain ⟨accepted, hub, upper, hstep, hrefused, -, hqueued⟩ :=
    refused_iff_innermost hm hpost (by rw [hmarks]; decide)
  have haccepted : accepted = true := by
    have hno : ¬(((plain nestedUnload).advance 47).1.hub.running = false ∨
        (Frame.marks ((plain nestedUnload).advance 47).1.frames).head? = some ownEvent.sender ∨
        ((plain nestedUnload).advance 47).1.hub.pool.isFull = true) := by
      rw [hmarks]
      decide +kernel
    simpa using mt hrefused.mp hno
  exact ⟨accepted, hub, upper, hstep, haccepted, (hqueued haccepted).1⟩

/-- The event of an app that is being unloaded can be queued. -/
theorem queued_inside_other_unload :
    ∃ m m' : Machine Unit, m.Reachable ∧ m.step = .stepped m' ∧
      (∃ event free next rest, m.PostsLow event free next rest ∧
        event.sender ∈ Frame.marks m.frames ∧
        event.sender ∈ m.hub.infos.map Info.instanceId) ∧
      m'.hub.queue.size = m.hub.queue.size + 1 := by
  obtain ⟨hm, hpost, hmarks⟩ := nestedUnload_posts
  have hloaded : ownEvent.sender ∈
      ((plain nestedUnload).advance 47).1.hub.infos.map Info.instanceId := by
    decide +kernel
  have hmarked : ownEvent.sender ∈ Frame.marks ((plain nestedUnload).advance 47).1.frames := by
    rw [hmarks]
    decide
  exact ⟨_, ((plain nestedUnload).advance 48).1, hm, rfl, ⟨_, _, _, _, hpost, hmarked, hloaded⟩,
    by decide +kernel⟩

end Machine

end SensorHub
