import SensorHub.Proofs.Storage

namespace SensorHub

variable {σ : Type}

theorem Cargo.filterMap_isSlot {β : Type} {f : Cargo σ → Option β}
    (hf : ∀ item : Cargo σ, item.isSlot = false → f item = none) (cargo : List (Cargo σ)) :
    (cargo.filter Cargo.isSlot).filterMap f = cargo.filterMap f := by
  induction cargo with
  | nil => rfl
  | cons item cargo ih =>
    cases h : item.isSlot with
    | true => simp [h, List.filterMap_cons, ih]
    | false => simp [h, hf item h, ih]

theorem Frame.held_eq (frame : Frame σ) : frame.held = frame.cargo.filterMap Cargo.handle? := by
  cases frame with
  | evict handles =>
    induction handles with
    | nil => rfl
    | cons handle handles ih => exact congrArg (handle :: ·) ih
  | code actor routine =>
    cases actor with
    | entry index stopping point =>
      simp only [held, cargo]
      cases point.serial? <;> rfl
    | _ => rfl
  | _ => rfl

namespace Hub

variable {hub hub' : Hub σ} {cargo other : List (Cargo σ)} {handle : Handle}

/-- The slots handed out are those of the queue and of `cargo`, nothing is missing from them, only
events that may be evicted are, and no fault was ever reported. -/
structure Tidy (hub : Hub σ) (cargo : List (Cargo σ)) : Prop where
  sound : hub.pool.Sound (hub.queue.toList ++ cargo.filterMap Cargo.handle?)
  stored : ∀ h ∈ hub.queue.toList ++ cargo.filterMap Cargo.stored?,
    (hub.pool.inspect h).isSome = true
  doomed : ∀ h, .doomed h ∈ cargo → ∀ p, hub.pool.inspect h = some p → p.event.isEvictable = true
  faultless : ∀ report, .logged report ∈ hub.journal → report.isSlotFault = false

namespace Tidy

/-- Events out of their slots and code that handles them do not matter. -/
theorem same (ht : hub.Tidy cargo)
    (h : other.filter Cargo.isSlot = cargo.filter Cargo.isSlot) : hub.Tidy other := by
  have handles : other.filterMap Cargo.handle? = cargo.filterMap Cargo.handle? := by
    have hf : ∀ item : Cargo σ, item.isSlot = false → item.handle? = none := by
      intro item hi
      cases item <;> simp_all [Cargo.isSlot, Cargo.handle?]
    rw [← Cargo.filterMap_isSlot hf other, h, Cargo.filterMap_isSlot hf]
  have storeds : other.filterMap Cargo.stored? = cargo.filterMap Cargo.stored? := by
    have hf : ∀ item : Cargo σ, item.isSlot = false → item.stored? = none := by
      intro item hi
      cases item <;> simp_all [Cargo.isSlot, Cargo.handle?, Cargo.stored?]
    rw [← Cargo.filterMap_isSlot hf other, h, Cargo.filterMap_isSlot hf]
  refine ⟨handles ▸ ht.sound, storeds ▸ ht.stored, fun k hk => ?_, ht.faultless⟩
  have hmem : Cargo.doomed k ∈ other.filter Cargo.isSlot := List.mem_filter.mpr ⟨hk, rfl⟩
  rw [h] at hmem
  exact ht.doomed k (List.mem_filter.mp hmem).1

theorem calm (ht : hub.Tidy cargo) (h : hub.Calm hub') : hub'.Tidy cargo where
  sound := by
    rw [h.queue]
    exact h.sound _ ht.sound
  stored := fun k hk => by
    rw [h.queue] at hk
    rw [h.inspect]
    exact ht.stored k hk
  doomed := fun k hk p hp => by
    rw [h.inspect] at hp
    exact ht.doomed k hk p hp
  faultless := by
    obtain ⟨news, hj, hq⟩ := h.journal
    intro report hr
    rw [hj] at hr
    rcases List.mem_append.mp hr with hr | hr
    · simpa [Incident.isQuiet] using hq _ hr
    · exact ht.faultless report hr

theorem record (ht : hub.Tidy cargo) {incident : Incident}
    (hi : ∀ report, incident ≠ .logged report) : (hub.record incident).Tidy cargo where
  sound := ht.sound
  stored := ht.stored
  doomed := ht.doomed
  faultless := fun report hr => by
    rcases List.mem_cons.mp hr with rfl | hr
    · exact absurd rfl (hi report)
    · exact ht.faultless report hr

theorem admitted (ht : hub.Tidy cargo) {posting : Posting σ} (h : hub.Admits posting handle hub')
    (hnew : handle ∉ hub.queue.toList ++ cargo.filterMap Cargo.handle?)
    (hs : hub'.pool.Sound (handle :: (hub.queue.toList ++ cargo.filterMap Cargo.handle?))) :
    hub'.Tidy cargo where
  sound := by
    rw [h.queue, List.append_assoc]
    exact hs.perm List.perm_middle.symm
  stored := fun k hk => by
    rw [h.inspect]
    by_cases hkh : handle = k
    · simp [hkh]
    · rw [if_neg hkh]
      refine ht.stored k ?_
      rw [h.queue, List.append_assoc] at hk
      have hk' := (List.perm_middle.mem_iff).mp hk
      rcases List.mem_cons.mp hk' with rfl | hk'
      · exact absurd rfl hkh
      · exact hk'
  doomed := fun k hk p hp => by
    rw [h.inspect] at hp
    have hkh : handle ≠ k := by
      rintro rfl
      exact hnew (List.mem_append_right _ (List.mem_filterMap.mpr ⟨_, hk, rfl⟩))
    rw [if_neg hkh] at hp
    exact ht.doomed k hk p hp
  faultless := by
    obtain ⟨news, hj, hq⟩ := h.journal
    intro report hr
    simp only [hj, List.mem_cons, List.mem_append, reduceCtorEq, false_or] at hr
    rcases hr with hr | hr
    · simpa [Incident.isQuiet] using hq _ hr
    · exact ht.faultless report hr

theorem evict (ht : hub.Tidy cargo) {evicted : List Handle} (h : hub.Evicts evicted hub') :
    hub'.Tidy (evicted.map .doomed ++ cargo) := by
  have hhandle : (evicted.map (@Cargo.doomed σ)).filterMap Cargo.handle? = evicted := by
    simp [List.filterMap_map, Function.comp_def, Cargo.handle?]
  have hstored : (evicted.map (@Cargo.doomed σ)).filterMap Cargo.stored? = evicted := by
    simp [List.filterMap_map, Function.comp_def, Cargo.stored?]
  have moved : ∀ rest : List Handle,
      (hub.queue.toList ++ rest).Perm (hub'.queue.toList ++ (evicted ++ rest)) := by
    intro rest
    rw [← List.append_assoc]
    exact (h.perm.symm.trans List.perm_append_comm).append_right rest
  refine ⟨?_, fun k hk => ?_, fun k hk p hp => ?_, ?_⟩
  · rw [List.filterMap_append, hhandle, h.pool]
    exact ht.sound.perm (moved _)
  · rw [List.filterMap_append, hstored] at hk
    rw [h.pool]
    exact ht.stored k ((moved _).mem_iff.mpr hk)
  · rw [h.pool] at hp
    rcases List.mem_append.mp hk with hk | hk
    · obtain ⟨handle, he, hkh⟩ := List.mem_map.mp hk
      cases hkh
      have hev := h.evictable k he
      simpa [Hub.evictable, hp] using hev
    · exact ht.doomed k hk p hp
  · rw [h.journal]
    exact ht.faultless

theorem pop (ht : hub.Tidy cargo) (h : hub.pop? = some (handle, hub')) :
    hub'.Tidy (.slot handle :: cargo) := by
  obtain ⟨queue, hlist, rfl⟩ := pop?_eq_some h
  have moved : ∀ rest : List Handle,
      (hub.queue.toList ++ rest).Perm (queue.toList ++ handle :: rest) := by
    intro rest
    rw [hlist]
    exact List.perm_middle.symm
  have ht' : ({ hub with queue := queue } : Hub σ).Tidy (.slot handle :: cargo) :=
    ⟨ht.sound.perm (moved _), fun k hk => ht.stored k ((moved _).mem_iff.mpr hk),
      fun k hk => ht.doomed k (by simpa using hk), ht.faultless⟩
  exact ht'.record (by simp)

/-- The handle of a slot that is still to be given back is named nowhere else. -/
theorem fresh {item : Cargo σ} (hi : item.handle? = some handle)
    (ht : hub.Tidy (item :: cargo)) :
    handle ∉ hub.queue.toList ∧ handle ∉ cargo.filterMap Cargo.handle? := by
  have hnd := (List.nodup_append.mp ht.sound.nodup).2.1
  rw [List.filterMap_cons_some hi] at hnd
  have hnotin := (List.nodup_cons.mp ((List.perm_middle.nodup_iff).mp hnd)).1
  exact ⟨fun h => hnotin (List.mem_append_left _ h), fun h => hnotin (List.mem_append_right _ h)⟩

theorem handle_of_stored {cargo : List (Cargo σ)} {k : Handle}
    (h : k ∈ cargo.filterMap Cargo.stored?) : k ∈ cargo.filterMap Cargo.handle? := by
  obtain ⟨item, hm, hk⟩ := List.mem_filterMap.mp h
  refine List.mem_filterMap.mpr ⟨item, hm, ?_⟩
  cases item with
  | slot | doomed => exact hk
  | _ => cases hk

theorem stored_of_doomed {cargo : List (Cargo σ)} {k : Handle} (h : .doomed k ∈ cargo) :
    k ∈ hub.queue.toList ++ cargo.filterMap Cargo.stored? :=
  List.mem_append_right _ (List.mem_filterMap.mpr ⟨_, h, rfl⟩)

theorem others {item : Cargo σ} (hi : item.handle? = some handle) (ht : hub.Tidy (item :: cargo)) :
    ∀ k ∈ hub.queue.toList ++ cargo.filterMap Cargo.stored?, handle ≠ k := by
  obtain ⟨hqueue, hcargo⟩ := ht.fresh hi
  rintro k hk rfl
  rcases List.mem_append.mp hk with hk | hk
  · exact hqueue hk
  · exact hcargo (handle_of_stored hk)

/-- The other slots keep their events when one is taken out of its slot. -/
theorem inspect_take {item : Cargo σ} (hi : item.handle? = some handle)
    (ht : hub.Tidy (item :: cargo)) :
    ∀ k ∈ hub.queue.toList ++ cargo.filterMap Cargo.stored?,
      (hub.take handle).2.pool.inspect k = hub.pool.inspect k := fun k hk =>
  (Pool.inspect_clear ..).trans (if_neg (ht.others hi k hk))

/-- The other slots keep their events when one is given back, and there is nothing to report. -/
theorem vacate_eq (ht : hub.Tidy (.spent handle :: cargo)) :
    ∃ pool, hub.vacate handle = { hub with pool := pool } ∧
      pool.Sound (hub.queue.toList ++ cargo.filterMap Cargo.handle?) ∧
      ∀ k ∈ hub.queue.toList ++ cargo.filterMap Cargo.stored?,
        pool.inspect k = hub.pool.inspect k := by
  have hs := ht.sound.perm List.perm_middle
  obtain ⟨pool, heq, hsound, -, hinspect⟩ := hs.release (List.mem_cons_self ..)
  rw [List.erase_cons_head] at hsound
  refine ⟨pool, ?_, hsound, fun k hk => (hinspect k).trans (if_neg (ht.others rfl k hk))⟩
  unfold Hub.vacate
  rw [heq]
  rfl

theorem take {item : Cargo σ} (hi : item.handle? = some handle) (ht : hub.Tidy (item :: cargo)) :
    (hub.take handle).2.Tidy (.spent handle :: cargo) := by
  have hinspect := ht.inspect_take hi
  have hs := ht.sound
  rw [List.filterMap_cons_some hi] at hs
  refine ⟨⟨hs.blockSize_pos, hs.capacity_le, hs.blocks_le, hs.nodup, hs.made, hs.count,
    hs.allocated⟩, fun k hk => ?_, fun k hk p hp => ?_, ht.faultless⟩
  · rw [hinspect k hk]
    refine ht.stored k ?_
    rcases List.mem_append.mp hk with hk | hk
    · exact List.mem_append_left _ hk
    · exact List.mem_append_right _
        (((List.sublist_cons_self item cargo).filterMap Cargo.stored?).subset hk)
  · have hk' : Cargo.doomed k ∈ cargo := by simpa using hk
    rw [hinspect k (stored_of_doomed hk')] at hp
    exact ht.doomed k (List.mem_cons_of_mem _ hk') p hp

theorem vacate (ht : hub.Tidy (.spent handle :: cargo)) : (hub.vacate handle).Tidy cargo := by
  obtain ⟨pool, heq, hsound, hinspect⟩ := ht.vacate_eq
  rw [heq]
  refine ⟨hsound, fun k hk => ?_, fun k hk p hp => ?_, ht.faultless⟩
  · show (pool.inspect k).isSome = true
    rw [hinspect k hk]
    exact ht.stored k hk
  · have hp' : pool.inspect k = some p := hp
    rw [hinspect k (stored_of_doomed hk)] at hp'
    exact ht.doomed k (List.mem_cons_of_mem _ hk) p hp'

theorem offer (ht : hub.Tidy cargo) (way : Way) (event : Event) (completion : Completion σ) :
    (hub.offer way event completion).2.Tidy cargo := by
  have ht' : ({ hub with postings := hub.postings + 1 } : Hub σ).Tidy cargo :=
    ⟨ht.sound, ht.stored, ht.doomed, ht.faultless⟩
  exact ht'.record (by simp)

theorem not_hollow {mine : List (Cargo σ)} (ht : hub.Tidy (mine ++ cargo))
    (mem : handle ∈ mine.filterMap Cargo.stored?) : hub.pool.inspect handle ≠ none := by
  intro held
  have hmem : handle ∈ (mine ++ cargo).filterMap Cargo.stored? := by
    rw [List.filterMap_append]
    exact List.mem_append_left _ mem
  have hstored := ht.stored handle (List.mem_append_right _ hmem)
  rw [held] at hstored
  cases hstored

theorem detach (ht : hub.Tidy cargo) {posting : Posting σ} {frames : List (Frame σ)}
    (h : hub.detach posting = (hub', frames)) : hub'.Tidy cargo := by
  rcases detach_cases h with ⟨-, rfl, -⟩ | ⟨callback, -, rfl, -⟩ | ⟨work, -, rfl, -⟩
  · exact ht
  · exact ht.record (by simp)
  · have log : (hub.record (.discarded posting.serial)).Calm
        ((hub.record (.discarded posting.serial)).log (.taskDiscarded posting.event.type)) :=
      (Calm.refl _).log rfl
    exact (ht.record (by simp)).calm log

end Tidy

theorem tidy_posted (ht : hub.Tidy cargo) {posting : Posting σ} {frames : List (Frame σ)}
    (h : hub.Posted posting hub' frames) : hub'.Tidy (frames.flatMap Frame.cargo ++ cargo) := by
  rcases posted_cases ht.sound h with
    ⟨-, rfl, handle, admits, hnew, hsound⟩ | ⟨-, evicted, evicts, rfl⟩ | ⟨-, calm, rfl⟩ |
    ⟨callback, hub₁, -, calm, rfl, rfl⟩ | ⟨work, -, -, rfl, rfl⟩
  · exact ht.admitted admits hnew hsound
  · refine (ht.evict evicts).same ?_
    simp [Frame.cargo, Cargo.isSlot, Cargo.handle?]
  · exact ht.calm calm
  · exact (ht.calm calm).record (by simp)
  · exact ht.record (by simp)

end Hub

namespace Frame

variable {hub hub' : Hub σ} {frame : Frame σ} {frames : List (Frame σ)} {below : List (Cargo σ)}

theorem cargo_detach {posting : Posting σ} (h : hub.detach posting = (hub', frames)) :
    frames.flatMap Frame.cargo = [] := by
  rcases Hub.detach_cases h with ⟨-, -, rfl⟩ | ⟨callback, -, -, rfl⟩ | ⟨work, -, -, rfl⟩ <;> rfl

theorem Traffic.tidy (h : frame.Traffic hub hub' frames) (ht : hub.Tidy (frame.cargo ++ below)) :
    hub'.Tidy (frames.flatMap Frame.cargo ++ below) := by
  cases h with
  | pass calm cargo =>
    rw [cargo]
    exact ht.calm calm
  | post calm kind calm' _ _ posted cargo =>
    rw [List.flatMap_append, List.append_assoc, cargo]
    exact Hub.tidy_posted (((ht.calm calm).offer _ _ _).calm calm') posted
  | enqueue he =>
    obtain ⟨handle, admits, hnew, hsound⟩ := Hub.enqueue_true ht.sound he
    exact (ht.admitted admits hnew hsound).same rfl
  | evict held hd =>
    have ht' := ((ht.take rfl).record fun _ => Incident.noConfusion).detach hd
    rw [List.flatMap_append, cargo_detach hd]
    simpa [cargo] using ht'
  | vacate => exact ht.vacate
  | pop calm hp how =>
    obtain ⟨hframe, hframes⟩ := how.cargo
    rw [hframe, List.nil_append] at ht
    rw [hframes]
    exact (ht.calm calm).pop hp
  | dispatch held => exact ((ht.take rfl).record (by simp)).same rfl
  | discard held => exact (ht.take rfl).same rfl
  | hollow mem held => exact absurd held (ht.not_hollow mem)
  | deliver calm => exact ((ht.calm calm).record (by simp)).same rfl
  | leave => exact (ht.record (by simp)).same rfl
  | forget => exact ht.same rfl
  | free _ calm => exact ((ht.calm calm).record (by simp)).same rfl
  | work _ calm cargo _ =>
    rw [cargo]
    exact ((ht.record (by simp)).calm calm).same rfl

end Frame

theorem Config.eventCapacity_le {config : Config} (h : config.defect? = none) :
    0 < config.eventsPerBlock.toNat ∧
      config.eventBlocks.toNat * config.eventsPerBlock.toNat ≤ maxCapacity := by
  unfold defect? at h
  split at h
  next => cases h
  next hzero =>
    split at h
    next => cases h
    next hcap =>
      have hpos : config.eventsPerBlock.toNat ≠ 0 := by
        intro he
        exact hzero (.inr (UInt64.toNat_inj.mp he))
      have hsize : maxCapacity < UInt64.size - 1 := by decide
      simp only [eventCapacity] at hcap
      omega

namespace Machine

def cargo (m : Machine σ) : List (Cargo σ) :=
  m.frames.flatMap Frame.cargo

theorem Reachable.tidy {m : Machine σ} (hm : m.Reachable) : m.hub.Tidy m.cargo := by
  refine hm.keeps (P := fun hub frames => hub.Tidy (frames.flatMap Frame.cargo)) ?_ ?_ ?_
  · intro config collaborators memory now routine sound
    obtain ⟨hpos, hcap⟩ := Config.eventCapacity_le sound
    exact ⟨Pool.sound_new hpos hcap, by simp [Frame.cargo, Hub.create], by simp [Frame.cargo],
      by simp [Hub.create]⟩
  · intro hub hub' frame frames rest hm ht h
    rw [List.flatMap_append]
    exact (hm.traffic h).tidy ht
  · intro hub frames routine ht
    exact ht

/-- No operation of the hub is under way: all that is left to be done is code. -/
def AtRest (m : Machine σ) : Prop :=
  ∀ frame ∈ m.frames, ∃ (r : Reach) (a : Answer) (actor : Actor σ r a) (routine : Routine σ r a),
    frame = .code actor routine

/-- At every point of every run, each slot that is handed out belongs to one queued handle or to
one frame in progress; the queued slots hold their events; and nothing ever went wrong with a
slot. -/
theorem slots_accounted {m : Machine σ} (hm : m.Reachable) :
    (m.hub.queue.toList ++ m.frames.flatMap Frame.held).Nodup ∧
    (∀ handle ∈ m.hub.queue.toList, m.hub.pool.isMade handle = true ∧
      (m.hub.pool.inspect handle).isSome = true ∧ handle ∉ m.hub.pool.free.toList) ∧
    m.hub.pool.allocated.toNat = m.hub.queue.size + (m.frames.flatMap Frame.held).length ∧
    m.hub.pool.allocated.toNat ≤ m.hub.pool.capacity ∧
    (∀ handle ∈ m.cargo.filterMap Cargo.stored?, (m.hub.pool.inspect handle).isSome = true) ∧
    (∀ report, .logged report ∈ m.hub.journal → report.isSlotFault = false) ∧
    (m.AtRest → m.hub.snapshot.inFlight = m.hub.snapshot.pending) := by
  have ht := hm.tidy
  have hs := ht.sound
  have hheld : m.cargo.filterMap Cargo.handle? = m.frames.flatMap Frame.held := by
    have heq : (Frame.held : Frame σ → List Handle) = fun frame =>
        frame.cargo.filterMap Cargo.handle? := funext Frame.held_eq
    rw [cargo, List.filterMap_flatMap, heq]
  rw [hheld] at hs
  have hnodup := List.nodup_append.mp hs.nodup
  have hcount : m.hub.pool.allocated.toNat =
      m.hub.queue.size + (m.frames.flatMap Frame.held).length := by
    rw [hs.allocated, List.length_append, Queue.length_toList]
  refine ⟨hnodup.2.1, fun handle hq => ⟨?_, ?_, ?_⟩, hcount, ?_, ?_, ht.faultless, ?_⟩
  · exact hs.made handle (List.mem_append_right _ (List.mem_append_left _ hq))
  · exact ht.stored handle (List.mem_append_left _ hq)
  · intro hfree
    exact hnodup.2.2 handle hfree handle (List.mem_append_left _ hq) rfl
  · rw [hs.allocated]
    exact hs.length_le_capacity
  · intro handle hslot
    exact ht.stored handle (List.mem_append_right _ hslot)
  · intro hrest
    have hnone : m.frames.flatMap Frame.held = [] := by
      refine List.flatMap_eq_nil_iff.mpr fun frame hf => ?_
      obtain ⟨r, a, actor, routine, rfl⟩ := hrest frame hf
      rfl
    rw [hnone] at hcount
    exact hcount

def postTwo : Routine Unit .loop .nothing :=
  .post (Event.new EventType.firstUser) (some fun _ _ => .done ()) <|
  .post (Event.new EventType.firstUser) none <|
  .runUntilIdle fun _ => .done ()

/-- While the callback of the first event runs, both events have their slots. -/
theorem slots_accounted_postTwo :
    ∃ m : Machine Unit, m.Reachable ∧ m.hub.queue.size = 1 ∧
      (m.frames.flatMap Frame.held).length = 1 ∧ m.hub.pool.allocated.toNat = 1 + 1 := by
  have hr : (plain postTwo).Reaches ((plain postTwo).advance 14).1 :=
    reaches_unfinished (by decide +kernel)
  have hm : ((plain postTwo).advance 14).1.Reachable := ⟨_, isStart_plain postTwo, hr⟩
  obtain ⟨-, -, hcount, -⟩ := slots_accounted hm
  have hsize : ((plain postTwo).advance 14).1.hub.queue.size = 1 := by decide +kernel
  have hheld : (((plain postTwo).advance 14).1.frames.flatMap Frame.held).length = 1 := by
    decide +kernel
  rw [hsize, hheld] at hcount
  exact ⟨_, hm, hsize, hheld, hcount⟩

end Machine

end SensorHub
