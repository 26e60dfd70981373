import Mathlib.Algebra.Ring.Nat
import Mathlib.Data.List.Forall2
import SensorHub.Proofs.Waiting

namespace SensorHub

variable {σ : Type}

namespace Queue

variable {α : Type}

theorem takeUpTo_taken (accepts : α → Bool) (max : Nat) (entries : List α) :
    (takeUpTo (fun (_ : Unit) a => (accepts a, ())) max () entries).1 =
      (entries.filter accepts).take max := by
  induction entries generalizing max with
  | nil => cases max <;> simp [takeUpTo]
  | cons a entries ih =>
    cases max with
    | zero => simp [takeUpTo]
    | succ max =>
      cases ha : accepts a with
      | true =>
        have htail := ih max
        simp only [takeUpTo, ha, htail]
        simp [ha]
      | false =>
        have htail := ih (max + 1)
        simp only [takeUpTo, ha, htail]
        simp [ha]

/-- What is removed from the back is the youngest that matches. -/
theorem removeMatching_taken {q left : Queue α} {max : Nat} {matching : α → Bool} {taken : List α}
    (h : q.removeMatching max matching = some (taken, left)) :
    taken = (q.toList.reverse.filter matching).take max := by
  obtain ⟨_, hwalk⟩ := removeMatching_eq_some h
  exact (congrArg Prod.fst hwalk).symm.trans (takeUpTo_taken matching max q.toList.reverse)

end Queue

namespace Machine

variable {m m' m₁ : Machine σ} {hub hub' : Hub σ} {frame : Frame σ} {frames rest : List (Frame σ)}

/-- The machine gets there by its own steps, while no other thread acts. -/
abbrev Runs : Machine σ → Machine σ → Prop :=
  Relation.ReflTransGen fun m next => m.step = .stepped next

theorem Runs.reaches (h : m.Runs m') : m.Reaches m' :=
  Relation.ReflTransGen.mono (fun _ _ hs => Move.step hs) _ _ h

theorem Runs.of_go (h : frame.step hub = .go hub' frames) :
    Runs ⟨hub, frame :: rest⟩ ⟨hub', frames ++ rest⟩ :=
  .single (step_eq_stepped.mpr ⟨hub, frame, rest, hub', frames, rfl, h, rfl⟩)

theorem Reachable.of_go (hm : Reachable ⟨hub, frame :: rest⟩)
    (h : frame.step hub = .go hub' frames) : Reachable ⟨hub', frames ++ rest⟩ :=
  hm.move (.of_go h)

end Machine

/-- The code posts critical events, at most so many of them, and does nothing else for events. -/
inductive Routine.PostsAtMost : Nat → Routine σ .handle .nothing → Prop
  | done {n} : PostsAtMost n (.done ())
  | recall {n next} (h : ∀ memory, PostsAtMost n (next memory)) : PostsAtMost n (.recall next)
  | store {n memory next} (h : PostsAtMost n next) : PostsAtMost n (.store memory next)
  | note {n line next} (h : PostsAtMost n next) : PostsAtMost n (.note line next)
  | pause {n nanoseconds next} (h : PostsAtMost n next) : PostsAtMost n (.pause nanoseconds next)
  | observe {n next} (h : ∀ snapshot, PostsAtMost n (next snapshot)) :
      PostsAtMost n (.observe next)
  | post {n event free next} (h : PostsAtMost n next) : PostsAtMost (n + 1) (.post event free next)
  | request {n work next} (h : PostsAtMost n (next true)) :
      PostsAtMost (n + 1) (.request work next)

/-- The free callback of the event, if it has one, posts critical events, at most so many of
them. -/
def Posting.FreesAtMost (n : Nat) (posting : Posting σ) : Prop :=
  ∀ callback, posting.completion = .free callback →
    (callback posting.event.type posting.event.payload).PostsAtMost n

namespace Hub

variable {hub hub₁ hub₂ hub' : Hub σ} {cargo : List (Cargo σ)} {posting : Posting σ}
  {handle : Handle} {queued queued' : List (Posting σ)}

def room (hub : Hub σ) : Nat :=
  hub.pool.capacity - hub.pool.allocated.toNat

theorem isFull_iff_room : hub.pool.isFull = true ↔ hub.room = 0 := by
  simp only [Pool.isFull, room, decide_eq_true_eq]
  omega

theorem room_of_sound {live : List Handle} (hs : hub.pool.Sound live) :
    hub.room + live.length = hub.pool.capacity := by
  have hle := hs.length_le_capacity
  rw [room, hs.allocated]
  omega

theorem Tidy.room_calm (ht : hub.Tidy cargo) (calm : hub.Calm hub') : hub'.room = hub.room := by
  have hbefore := room_of_sound ht.sound
  have hafter := room_of_sound (calm.sound _ ht.sound)
  have hcapacity := calm.capacity
  omega

theorem Tidy.room_vacate (ht : hub.Tidy (.spent handle :: cargo)) :
    (hub.vacate handle).room = hub.room + 1 := by
  have hs := ht.sound.perm List.perm_middle
  obtain ⟨pool, heq, hsound, hcapacity, -⟩ := hs.release (List.mem_cons_self ..)
  have hvacate : hub.vacate handle = { hub with pool := pool } := by
    unfold Hub.vacate
    rw [heq]
    rfl
  rw [List.erase_cons_head] at hsound
  have hsound' : (hub.vacate handle).pool.Sound
      (hub.queue.toList ++ cargo.filterMap Cargo.handle?) := by
    rw [hvacate]
    exact hsound
  have hpool : (hub.vacate handle).pool.capacity = pool.capacity := by rw [hvacate]
  have hbefore := room_of_sound hs
  have hafter := room_of_sound hsound'
  simp only [List.length_cons] at hbefore
  omega

/-- On the way from one hub to the other these critical events are queued, and no other event is
touched. -/
structure Queues (hub : Hub σ) (cargo : List (Cargo σ)) (queued : List (Posting σ))
    (hub' : Hub σ) : Prop where
  running : hub'.running = hub.running
  postings : hub'.postings = hub.postings + queued.length
  waiting : hub'.waiting = hub.waiting ++ queued
  serials : queued.map Posting.serial = List.range' hub.postings queued.length
  critical : ∀ p ∈ queued, p.event.lowPriority = false
  inspect : ∀ k ∈ cargo.filterMap Cargo.stored?, hub'.pool.inspect k = hub.pool.inspect k

theorem room_detach (hub : Hub σ) (posting : Posting σ) :
    (hub.detach posting).1.room = hub.room := by
  have hd : hub.detach posting = ((hub.detach posting).1, (hub.detach posting).2) := rfl
  rcases detach_cases hd with ⟨-, heq, -⟩ | ⟨callback, -, heq, -⟩ | ⟨work, -, heq, -⟩ <;>
    rw [heq] <;> rfl

namespace Queues

theorem of_calm (calm : hub.Calm hub') (running : hub'.running = hub.running) :
    hub.Queues cargo [] hub' where
  running := running
  postings := calm.postings
  waiting := by
    rw [List.append_nil]
    exact waiting_congr (by rw [calm.queue]) fun k _ => calm.inspect k
  serials := rfl
  critical := by simp
  inspect := fun k _ => calm.inspect k

theorem refl (hub : Hub σ) (cargo : List (Cargo σ)) : hub.Queues cargo [] hub :=
  of_calm (.refl hub) rfl

theorem waiting_eq (h : hub.Queues cargo [] hub') : hub'.waiting = hub.waiting := by
  rw [h.waiting, List.append_nil]

theorem record (hub : Hub σ) (incident : Incident) (cargo : List (Cargo σ)) :
    hub.Queues cargo [] (hub.record incident) :=
  ⟨rfl, rfl, (List.append_nil _).symm, rfl, by simp, fun _ _ => rfl⟩

theorem take {item : Cargo σ} (ht : hub.Tidy (item :: cargo)) (hi : item.handle? = some handle) :
    hub.Queues cargo [] (hub.take handle).2 where
  running := rfl
  postings := rfl
  waiting := by
    rw [List.append_nil]
    exact congrArg Row.waiting (row_take hi ht)
  serials := rfl
  critical := by simp
  inspect := fun k hk => ht.inspect_take hi k (List.mem_append_right _ hk)

theorem vacate (ht : hub.Tidy (.spent handle :: cargo)) :
    hub.Queues cargo [] (hub.vacate handle) := by
  obtain ⟨pool, heq, -, hinspect⟩ := ht.vacate_eq
  rw [heq]
  refine ⟨rfl, rfl, ?_, rfl, by simp, fun k hk => hinspect k (List.mem_append_right _ hk)⟩
  rw [List.append_nil]
  exact waiting_congr rfl fun k hk => hinspect k (List.mem_append_left _ hk)

theorem trans (h : hub.Queues cargo queued hub₁) (h' : hub₁.Queues cargo queued' hub') :
    hub.Queues cargo (queued ++ queued') hub' where
  running := h'.running.trans h.running
  postings := by
    rw [h'.postings, h.postings, List.length_append, Nat.add_assoc]
  waiting := by rw [h'.waiting, h.waiting, List.append_assoc]
  serials := by
    rw [List.map_append, h.serials, h'.serials, h.postings, List.length_append,
      List.range'_append_1]
  critical := fun p hp => (List.mem_append.mp hp).elim (h.critical p) (h'.critical p)
  inspect := fun k hk => (h'.inspect k hk).trans (h.inspect k hk)

theorem detach (hub : Hub σ) (posting : Posting σ) (cargo : List (Cargo σ)) :
    hub.Queues cargo [] (hub.detach posting).1 := by
  have hd : hub.detach posting = ((hub.detach posting).1, (hub.detach posting).2) := rfl
  rcases detach_cases hd with ⟨-, heq, -⟩ | ⟨callback, -, heq, -⟩ | ⟨work, -, heq, -⟩
  · rw [heq]
    exact refl hub cargo
  · rw [heq]
    exact record hub _ cargo
  · have hlog : (hub.record (.discarded posting.serial)).Calm
        ((hub.record (.discarded posting.serial)).log (.taskDiscarded posting.event.type)) :=
      (Calm.refl _).log rfl
    rw [heq]
    exact (record hub _ cargo).trans (of_calm hlog rfl)

theorem mono {fewer : List (Cargo σ)} (h : hub.Queues cargo queued hub')
    (hf : ∀ k ∈ fewer.filterMap Cargo.stored?, k ∈ cargo.filterMap Cargo.stored?) :
    hub.Queues fewer queued hub' :=
  ⟨h.running, h.postings, h.waiting, h.serials, h.critical, fun k hk => h.inspect k (hf k hk)⟩

end Queues

theorem enqueue_now {queued : Bool} (h : hub.enqueue posting = (queued, hub')) :
    hub'.now = hub.now := by
  unfold Hub.enqueue at h
  dsimp only at h
  split at h
  · cases h
    rw [logAll_eq]
    rfl
  · cases h
    rw [logAll_eq]
    rfl

/-- With a free slot an event is queued, and takes that slot. -/
theorem Tidy.enqueue (ht : hub.Tidy cargo) (hroom : 0 < hub.room) (posting : Posting σ) :
    ∃ hub', hub.enqueue posting = (true, hub') ∧ hub'.room + 1 = hub.room ∧
      hub'.running = hub.running ∧ hub'.postings = hub.postings ∧
      hub'.waiting = hub.waiting ++ [posting.stamped hub'.now] ∧
      ∀ k ∈ cargo.filterMap Cargo.stored?, hub'.pool.inspect k = hub.pool.inspect k := by
  have hbefore := room_of_sound ht.sound
  obtain ⟨handle, hub', he, admits, hnew, hsound⟩ :=
    enqueue_room ht.sound (by omega) posting
  have hafter := room_of_sound hsound
  have hcapacity := admits.capacity
  have hside := loopSide_enqueue hub posting
  rw [he] at hside
  refine ⟨hub', he, ?_, congrArg LoopSide.running hside, admits.postings, ?_, fun k hk => ?_⟩
  · simp only [List.length_cons] at hafter
    omega
  · rw [enqueue_now he]
    exact admits.waiting fun hk => hnew (List.mem_append_left _ hk)
  · have hne : handle ≠ k := by
      rintro rfl
      exact hnew (List.mem_append_right _ (handle_of_stored hk))
    rw [admits.inspect, if_neg hne]

/-- On a running hub with a free slot nothing is evicted. -/
theorem postRunning_room (hroom : 0 < hub.room) (posting : Posting σ) :
    hub.postRunning posting = .go hub [.evict [], .enqueue posting] := by
  have hfull : hub.pool.isFull = false := by
    rw [Bool.eq_false_iff]
    intro hfull
    rw [isFull_iff_room] at hfull
    omega
  simp [postRunning, makeRoom, hfull]

/-- The events that make room for a critical event when the pool is full, youngest first. -/
def evictees (hub : Hub σ) : List (Posting σ) :=
  (hub.waiting.reverse.filter fun p => p.event.isEvictable).take hub.config.evictTarget.toNat

/-- The queued handles name the events that wait, one each. -/
theorem Tidy.forall₂_waiting (ht : hub.Tidy cargo) :
    List.Forall₂ (fun k p => hub.pool.inspect k = some p) hub.queue.toList hub.waiting := by
  have hstored : ∀ k ∈ hub.queue.toList, (hub.pool.inspect k).isSome = true :=
    fun k hk => ht.stored k (List.mem_append_left _ hk)
  unfold waiting
  revert hstored
  generalize hub.queue.toList = handles
  intro hstored
  induction handles with
  | nil => exact .nil
  | cons k handles ih =>
    obtain ⟨p, hp⟩ := Option.isSome_iff_exists.mp (hstored k (List.mem_cons_self ..))
    rw [List.filterMap_cons_some hp]
    exact .cons hp (ih fun j hj => hstored j (List.mem_cons_of_mem _ hj))

/-- What is evicted and what is left make up what waited. -/
theorem Evicts.divides {handles : List Handle} {evicted : List (Posting σ)}
    (h : hub.Evicts handles hub')
    (held : List.Forall₂ (fun k p => hub.pool.inspect k = some p) handles evicted) :
    (evicted ++ hub'.waiting).Perm hub.waiting ∧ hub'.waiting.Sublist hub.waiting := by
  have hevicted : handles.filterMap hub.pool.inspect = evicted := by
    clear h
    induction held with
    | nil => rfl
    | cons hp _ ih => rw [List.filterMap_cons_some hp, ih]
  have hperm := h.perm.filterMap hub.pool.inspect
  rw [List.filterMap_append, hevicted] at hperm
  refine ⟨?_, h.waiting⟩
  unfold Hub.waiting
  rw [h.pool]
  exact hperm

theorem Tidy.makeRoom_full (ht : hub.Tidy cargo) (full : hub.pool.isFull = true)
    (found : hub.evictees ≠ []) (reserved : hub.config.evictTarget.toNat < 2 ^ 61) :
    ∃ handles hub', hub.makeRoom = (.found handles, hub') ∧ hub.Evicts handles hub' ∧
      hub'.running = hub.running ∧
      List.Forall₂ (fun k p => hub.pool.inspect k = some p) handles hub.evictees := by
  have hne : hub.config.evictTarget.toNat ≠ 0 := by
    intro hzero
    exact found (by simp [evictees, hzero])
  cases hr : hub.queue.removeMatching hub.config.evictTarget.toNat hub.evictable with
  | none =>
    rw [Queue.removeMatching_eq_none] at hr
    omega
  | some result =>
    obtain ⟨removed, queue⟩ := result
    have htaken := Queue.removeMatching_taken hr
    have hheld : List.Forall₂ (fun k p => hub.pool.inspect k = some p) removed hub.evictees := by
      rw [htaken, evictees]
      refine List.forall₂_take _ (List.rel_filter ?_ (List.forall₂_reverse_iff.mpr ht.forall₂_waiting))
      intro k p hp
      simp [evictable, hp]
    have hremoved : removed ≠ [] := by
      rintro rfl
      exact found (List.forall₂_nil_left_iff.mp hheld)
    have hroom : hub.makeRoom = (.found removed,
        { hub with queue := queue, dropped := hub.dropped + removed.length.toUInt32 }) := by
      cases removed with
      | nil => exact absurd rfl hremoved
      | cons k removed => simp [makeRoom, full, hne, hr]
    exact ⟨removed, _, hroom, makeRoom_evicts hroom, rfl, hheld⟩

end Hub

namespace Machine

open Hub

variable {hub hub₁ hub₂ hub' : Hub σ} {frame lower : Frame σ} {frames rest : List (Frame σ)}
  {queued : List (Posting σ)} {n : Nat}

/-- A critical event finds a free slot, and nothing is evicted for it. -/
theorem queued_of_room {way : Way} {event : Event} {completion : Completion σ}
    (hm : Reachable ⟨hub, frame :: rest⟩) (hroom : 0 < hub.room)
    (critical : event.lowPriority = false)
    (h : frame.step hub = .go (hub.offer way event completion).2
      [.evict [], .enqueue (hub.offer way event completion).1, lower]) :
    ∃ posting hub', Runs ⟨hub, frame :: rest⟩ ⟨hub', lower :: rest⟩ ∧
      hub.Queues (rest.flatMap Frame.cargo) [posting] hub' ∧ hub'.room + 1 = hub.room := by
  have hm₁ := hm.of_go h
  have hevict : (Frame.evict [] : Frame σ).step (hub.offer way event completion).2 =
      .go (hub.offer way event completion).2 [] := rfl
  have hm₂ := hm₁.of_go hevict
  have ht := hm₂.tidy
  have hroom' : 0 < (hub.offer way event completion).2.room := hroom
  obtain ⟨hub', he, hafter, hrunning, hpostings, hwaiting, hinspect⟩ :=
    ht.enqueue hroom' (hub.offer way event completion).1
  have hstep : (Frame.enqueue (hub.offer way event completion).1 : Frame σ).step
      (hub.offer way event completion).2 = .go hub' [] := by
    simp only [Frame.step, he]
  refine ⟨(hub.offer way event completion).1.stamped hub'.now, hub', ?_, ?_, hafter⟩
  · exact ((Runs.of_go h).trans (Runs.of_go hevict)).trans (Runs.of_go hstep)
  · refine ⟨hrunning, hpostings, hwaiting, rfl, ?_, fun k hk => ?_⟩
    · intro p hp
      rw [List.mem_singleton.mp hp]
      exact critical
    · refine hinspect k ?_
      have hcargo : ∀ item ∈ rest.flatMap Frame.cargo, item ∈ (⟨(hub.offer way event completion).2,
          [] ++ ([.enqueue (hub.offer way event completion).1, lower] ++ rest)⟩ :
            Machine σ).cargo := by
        intro item hi
        simp only [cargo, List.nil_append, List.flatMap_append]
        exact List.mem_append_right _ hi
      obtain ⟨item, hi, hk'⟩ := List.mem_filterMap.mp hk
      exact List.mem_filterMap.mpr ⟨item, hcargo item hi, hk'⟩

/-- By its own steps the machine is done with the frames above `rest`. Meanwhile at most `n` critical
events are queued, which take free slots. -/
def Absorbs (n : Nat) (hub : Hub σ) (frames rest : List (Frame σ)) : Prop :=
  ∃ queued hub', Runs ⟨hub, frames ++ rest⟩ ⟨hub', rest⟩ ∧
    hub.Queues (rest.flatMap Frame.cargo) queued hub' ∧ hub'.room + queued.length = hub.room ∧
    queued.length ≤ n

namespace Absorbs

theorem calm (hm : Reachable ⟨hub, frame :: rest⟩) (step : frame.step hub = .go hub₁ frames)
    (calm : hub.Calm hub₁) (running : hub₁.running = hub.running)
    (h : Absorbs n hub₁ frames rest) : Absorbs n hub [frame] rest := by
  obtain ⟨queued, hub', hruns, hqueues, hroom, hle⟩ := h
  have hcalm := hm.tidy.room_calm calm
  refine ⟨queued, hub', (Runs.of_go step).trans hruns, ?_, hroom.trans hcalm, hle⟩
  exact (Queues.of_calm calm running).trans hqueues

/-- A step that posts a critical event, for which there is a free slot. -/
theorem post {way : Way} {event : Event} {completion : Completion σ}
    (hm : Reachable ⟨hub, frame :: rest⟩) (running : hub.running = true)
    (hroom : n + 1 ≤ hub.room) (critical : event.lowPriority = false)
    (step : frame.step hub = .go (hub.offer way event completion).2
      [.evict [], .enqueue (hub.offer way event completion).1, lower])
    (h : ∀ {hub₁ : Hub σ}, Reachable ⟨hub₁, lower :: rest⟩ → hub₁.running = true →
      n ≤ hub₁.room → Absorbs n hub₁ [lower] rest) : Absorbs (n + 1) hub [frame] rest := by
  obtain ⟨posting, hub₁, hruns, hqueues, hafter⟩ :=
    queued_of_room hm (Nat.lt_of_lt_of_le (Nat.succ_pos n) hroom) critical step
  obtain ⟨queued, hub', hruns', hqueues', hroom', hle⟩ :=
    h (hm.reaches hruns.reaches) (hqueues.running.trans running) (by omega)
  refine ⟨posting :: queued, hub', hruns.trans hruns', hqueues.trans hqueues', ?_, ?_⟩
  · simp only [List.length_cons]
    omega
  · simp only [List.length_cons]
    omega

/-- Code that posts critical events comes to its end if there is a free slot for each of them. -/
theorem code {routine : Routine σ .handle .nothing} {purpose : Purpose}
    (h : routine.PostsAtMost n) (hm : Reachable ⟨hub, .code (.handle purpose) routine :: rest⟩)
    (running : hub.running = true) (hroom : n ≤ hub.room) :
    Absorbs n hub [.code (.handle purpose) routine] rest := by
  induction h generalizing hub with
  | done =>
    have step : (Frame.code (.handle purpose) (.done ()) : Frame σ).step hub = .go hub [] := rfl
    exact ⟨[], hub, Runs.of_go step, .refl hub _, rfl, Nat.zero_le _⟩
  | @«recall» n next _ ih =>
    have step : (Frame.code (.handle purpose) (.recall next)).step hub =
        .go hub [.code (.handle purpose) (next hub.memory)] := rfl
    exact calm hm step (.refl hub) rfl (ih hub.memory (hm.of_go step) running hroom)
  | @store n memory next _ ih =>
    have step : (Frame.code (.handle purpose) (.store memory next)).step hub =
        .go { hub with memory := memory } [.code (.handle purpose) next] := rfl
    exact calm hm step ((Calm.refl hub).same rfl rfl rfl rfl) rfl (ih (hm.of_go step) running hroom)
  | @note n line next _ ih =>
    have step : (Frame.code (.handle purpose) (.note line next)).step hub =
        .go (hub.record (.noted line)) [.code (.handle purpose) next] := rfl
    exact calm hm step ((Calm.refl hub).record rfl) rfl (ih (hm.of_go step) running hroom)
  | @pause n nanoseconds next _ ih =>
    have step : (Frame.code (.handle purpose) (.pause nanoseconds next)).step hub =
        .go (hub.elapse nanoseconds) [.code (.handle purpose) next] := rfl
    exact calm hm step ((Calm.refl hub).same rfl rfl rfl rfl) rfl (ih (hm.of_go step) running hroom)
  | @observe n next _ ih =>
    have step : (Frame.code (.handle purpose) (.observe next)).step hub =
        .go hub [.code (.handle purpose) (next hub.snapshot)] := rfl
    exact calm hm step (.refl hub) rfl (ih hub.snapshot (hm.of_go step) running hroom)
  | @post n event free next _ ih =>
    have hroom' : 0 < (hub.offer .critical (critical event) (.ofCallback free)).2.room :=
      Nat.lt_of_lt_of_le (Nat.succ_pos n) hroom
    have hrunning : (hub.offer .critical (critical event) (.ofCallback free)).2.running = true :=
      running
    have step : (Frame.code (.handle purpose) (.post event free next)).step hub =
        .go (hub.offer .critical (Hub.critical event) (.ofCallback free)).2
          [.evict [], .enqueue (hub.offer .critical (Hub.critical event) (.ofCallback free)).1,
            .code (.handle purpose) next] := by
      simp only [Frame.step, Routine.step, postCritical, hrunning, if_true,
        postRunning_room hroom']
      rfl
    exact post hm running hroom rfl step fun hm' hr hle => ih hm' hr hle
  | @request n work next _ ih =>
    have hroom' : 0 < (hub.offer (wayOf work) (.system work.kind) (.work work)).2.room :=
      Nat.lt_of_lt_of_le (Nat.succ_pos n) hroom
    have hrunning :
        (hub.offer (wayOf work) (.system work.kind) (.work work)).2.running = true := running
    have step : (Frame.code (.handle purpose) (.request work next)).step hub =
        .go (hub.offer (wayOf work) (.system work.kind) (.work work)).2
          [.evict [], .enqueue (hub.offer (wayOf work) (.system work.kind) (.work work)).1,
            .code (.handle purpose) (next true)] := by
      simp only [Frame.step, Routine.step, Hub.request, hrunning, if_true,
        postRunning_room hroom']
      rfl
    exact post hm running hroom rfl step fun hm' hr hle => ih hm' hr hle

/-- The free callback of an event that is evicted finds the slots released before. -/
theorem detach {posting : Posting σ} (frees : posting.FreesAtMost n)
    (hm : Reachable ⟨(hub.detach posting).1, (hub.detach posting).2 ++ rest⟩)
    (running : hub.running = true) (hroom : n ≤ hub.room) :
    Absorbs n (hub.detach posting).1 (hub.detach posting).2 rest := by
  cases hd : hub.detach posting with
  | mk hub' frames =>
    rw [hd] at hm
    rcases detach_cases hd with ⟨-, rfl, rfl⟩ | ⟨callback, hc, rfl, rfl⟩ | ⟨work, -, rfl, rfl⟩
    · exact ⟨[], hub', .refl, .refl hub' _, rfl, Nat.zero_le _⟩
    · exact code (frees callback hc) hm running hroom
    · exact ⟨[], _, .refl, .refl _ _, rfl, Nat.zero_le _⟩

end Absorbs

/-- Evicted events are released one after the other. If no callback runs ahead of the slots that were
released before it, all of what the callbacks post is queued. -/
theorem releases {handles : List Handle} {evicted : List (Posting σ)} {counts : List Nat}
    (held : List.Forall₂ (fun k p => hub.pool.inspect k = some p) handles evicted)
    (frees : List.Forall₂ (fun p n => p.FreesAtMost n) evicted counts)
    (hm : Reachable ⟨hub, .evict handles :: rest⟩) (running : hub.running = true)
    (fits : ∀ i < counts.length, (counts.take (i + 1)).sum ≤ hub.room + i) :
    ∃ queued hub', Runs ⟨hub, .evict handles :: rest⟩ ⟨hub', rest⟩ ∧
      hub.Queues (rest.flatMap Frame.cargo) queued hub' ∧
      hub'.room + queued.length = hub.room + handles.length ∧ queued.length ≤ counts.sum := by
  induction handles generalizing hub evicted counts with
  | nil =>
    have step : (Frame.evict [] : Frame σ).step hub = .go hub [] := rfl
    exact ⟨[], hub, Runs.of_go step, .refl hub _, rfl, Nat.zero_le _⟩
  | cons k handles ih =>
    rcases held with _ | @⟨_, p, _, evicted, hp, held⟩
    rcases frees with _ | @⟨_, n, _, counts, hfrees, frees⟩
    -- The event leaves its slot, and its callback runs while the slot is still taken.
    have hspent : hub.Tidy (.doomed k :: (handles.map .doomed ++ rest.flatMap Frame.cargo)) := hm.tidy
    have htaken : hub.Queues (handles.map .doomed ++ rest.flatMap Frame.cargo) []
        ((hub.take k).2.record (.evicted p.serial)) :=
      (Queues.take hspent rfl).trans (.record _ _ _)
    have step : (Frame.evict (k :: handles) : Frame σ).step hub =
        .go (((hub.take k).2.record (.evicted p.serial)).detach p).1
          ((((hub.take k).2.record (.evicted p.serial)).detach p).2 ++
            [.vacate k, .evict handles]) := by
      rcases releaseEvicted_cases hub k with ⟨posting, hp', heq⟩ | ⟨hp', -⟩
      · rw [hp] at hp'
        cases hp'
        simp only [Frame.step, heq, List.append_assoc, List.cons_append, List.nil_append]
      · rw [hp] at hp'
        cases hp'
    have hm₁ := hm.of_go step
    have hbase : (((hub.take k).2.record (.evicted p.serial)).detach p).1.room = hub.room :=
      room_detach ((hub.take k).2.record (.evicted p.serial)) p
    have hfirst : n ≤ hub.room := by simpa using fits 0 (Nat.succ_pos _)
    rw [List.append_assoc] at hm₁
    obtain ⟨posted, hub₁, hruns₁, hqueues₁, hroom₁, hle₁⟩ :=
      Absorbs.detach hfrees hm₁ (htaken.running.trans running) hfirst
    -- Then the slot is given back.
    have hm₂ := hm₁.reaches hruns₁.reaches
    have hvacate : (Frame.vacate k : Frame σ).step hub₁ = .go (hub₁.vacate k) [] := rfl
    have hroom₂ : (hub₁.vacate k).room = hub₁.room + 1 := hm₂.tidy.room_vacate
    have hgiven : hub.Queues (handles.map .doomed ++ rest.flatMap Frame.cargo) posted
        (hub₁.vacate k) := by
      have hdetached := htaken.trans (.detach _ p _)
      have hposted := hqueues₁.mono fun j (hj : j ∈ (handles.map (@Cargo.doomed σ) ++
        rest.flatMap Frame.cargo).filterMap Cargo.stored?) => hj
      have h := (hdetached.trans hposted).trans (.vacate hm₂.tidy)
      rwa [List.append_nil] at h
    -- The other evicted events are still in their slots.
    have held' : List.Forall₂ (fun j p => (hub₁.vacate k).pool.inspect j = some p)
        handles evicted := by
      refine ((List.forall₂_and_left _ _).mpr ⟨fun j hj => hgiven.inspect j ?_, held⟩).imp ?_
      · exact List.mem_filterMap.mpr ⟨.doomed j, by simp [hj], rfl⟩
      · rintro j p ⟨hsame, hj⟩
        exact hsame.trans hj
    have fits' : ∀ i < counts.length,
        (counts.take (i + 1)).sum ≤ (hub₁.vacate k).room + i := by
      intro i hi
      have hnext := fits (i + 1) (Nat.succ_lt_succ hi)
      rw [List.take_succ_cons, List.sum_cons] at hnext
      omega
    obtain ⟨queued, hub', hruns, hqueues, hroom, hle⟩ :=
      ih held' frees (hm₂.of_go hvacate) (hgiven.running.trans running) fits'
    refine ⟨posted ++ queued, hub', ?_, ?_, ?_, ?_⟩
    · have hstep : Runs ⟨hub, .evict (k :: handles) :: rest⟩
          ⟨_, (_ ++ [.vacate k, .evict handles]) ++ rest⟩ := Runs.of_go step
      rw [List.append_assoc] at hstep
      exact ((hstep.trans hruns₁).trans (Runs.of_go hvacate)).trans hruns
    · exact Queues.trans (hgiven.mono fun j hj => by
        rw [List.filterMap_append]
        exact List.mem_append_right _ hj) hqueues
    · simp only [List.length_append, List.length_cons]
      omega
    · simp only [List.length_append, List.sum_cons]
      omega

/-- A critical post into a full pool succeeds, and so do those of the callbacks of the events that
are evicted for it, if each of these callbacks finds the slots that were given back before it: the
callbacks of the `i` youngest post at most `i - 1` events together. -/
theorem post_survives_eviction {m : Machine σ} {r : Reach} {a : Answer} {actor : Actor σ r a}
    {event : Event} {free : Option (FreeCallback σ)} {next : Routine σ r a} {counts : List Nat}
    (hm : m.Reachable) (posts : m.frames = .code actor (.post event free next) :: rest)
    (running : m.hub.running = true) (full : m.hub.pool.isFull = true)
    (found : m.hub.evictees ≠ []) (reserved : m.hub.config.evictTarget.toNat < 2 ^ 61)
    (frees : List.Forall₂ (fun p n => p.FreesAtMost n) m.hub.evictees counts)
    (fits : ∀ i < counts.length, (counts.take (i + 1)).sum ≤ i) :
    ∃ kept queued hub', m.Runs ⟨hub', .code actor next :: rest⟩ ∧ hub'.running = true ∧
      (m.hub.evictees ++ kept).Perm m.hub.waiting ∧ kept.Sublist m.hub.waiting ∧
      hub'.waiting = kept ++ queued ++
        [Posting.stamped ⟨m.hub.postings, critical event, .ofCallback free⟩ hub'.now] ∧
      queued.map Posting.serial = List.range' (m.hub.postings + 1) queued.length ∧
      hub'.postings = m.hub.postings + 1 + queued.length ∧
      ∀ p ∈ queued, p.event.lowPriority = false := by
  obtain ⟨hub, frames⟩ := m
  cases posts
  let posting : Posting σ := ⟨hub.postings, critical event, .ofCallback free⟩
  -- The youngest events that may go leave the queue.
  have hoffered : ((hub.offer .critical (critical event) (.ofCallback free)).2).Tidy
      (cargo ⟨hub, .code actor (.post event free next) :: rest⟩) :=
    hm.tidy.offer _ _ _
  obtain ⟨handles, hub₁, hmake, evicts, hrunning₁, hheld⟩ :=
    hoffered.makeRoom_full full found reserved
  obtain ⟨hperm, hkept⟩ := evicts.divides hheld
  have hstep : (Frame.code actor (.post event free next)).step hub =
      .go hub₁ [.evict handles, .enqueue posting, .code actor next] := by
    have hrunning : (hub.offer .critical (critical event) (.ofCallback free)).2.running = true :=
      running
    simp only [Frame.step, Routine.step, postCritical, hrunning, if_true, postRunning, hmake]
    rfl
  have hroom₁ : hub₁.room = 0 := by
    rw [← isFull_iff_room, evicts.pool]
    exact full
  -- They are released, and their callbacks post.
  have hm₁ := hm.of_go hstep
  obtain ⟨queued, hub₂, hruns₂, hqueues, hroom₂, hle⟩ :=
    releases (evicts.pool ▸ hheld) frees hm₁ (hrunning₁.trans running) (by simpa [hroom₁] using fits)
  -- One slot is left.
  have hm₂ := hm₁.reaches hruns₂.reaches
  have hroom : 0 < hub₂.room := by
    have hlength : handles.length = hub.evictees.length := hheld.length_eq
    have hcounts : hub.evictees.length = counts.length := frees.length_eq
    have hpos : 0 < counts.length := by
      rw [← hcounts]
      exact List.length_pos_of_ne_nil found
    have hlast := fits (counts.length - 1) (Nat.sub_lt hpos Nat.one_pos)
    rw [Nat.sub_add_cancel hpos, List.take_length] at hlast
    omega
  obtain ⟨hub', he, -, hrunning', hpostings', hwaiting', -⟩ := hm₂.tidy.enqueue hroom posting
  have hqueue : (Frame.enqueue posting).step hub₂ = .go hub' [] := by
    simp only [Frame.step, he]
  have hbase : hub₁.postings = hub.postings + 1 := evicts.postings
  refine ⟨hub₁.waiting, queued, hub', ?_, ?_, hperm, hkept, ?_, ?_, ?_, hqueues.critical⟩
  · exact ((Runs.of_go hstep).trans hruns₂).trans (Runs.of_go hqueue)
  · exact hrunning'.trans (hqueues.running.trans (hrunning₁.trans running))
  · rw [hwaiting', hqueues.waiting]
  · rw [hqueues.serials, hbase]
  · rw [hpostings', hqueues.postings, hbase]

/-- A droppable event of the system finds a free slot. -/
theorem queued_low {r : Reach} {a : Answer} {actor : Actor σ r a} {event : Event}
    {free : Option (FreeCallback σ)} {next : Bool → Routine σ r a}
    (hm : Reachable ⟨hub, .code actor (.postLow event free next) :: rest⟩)
    (running : hub.running = true) (sender : event.sender = systemId) (hroom : 0 < hub.room) :
    ∃ hub', (Frame.code actor (.postLow event free next)).step hub =
        .go hub' [.code actor (next true)] ∧ hub'.running = true ∧ hub'.room + 1 = hub.room ∧
      hub'.config = hub.config ∧ hub'.postings = hub.postings + 1 ∧
      hub'.waiting = hub.waiting ++ [Posting.stamped
        ⟨hub.postings, { event with lowPriority := true }, .ofCallback free⟩ hub'.now] := by
  have ht := hm.tidy.offer .low { event with lowPriority := true } (.ofCallback free)
  obtain ⟨hub', he, hafter, hrunning, hpostings, hwaiting, -⟩ :=
    ht.enqueue hroom ⟨hub.postings, { event with lowPriority := true }, .ofCallback free⟩
  have hconfig := congrArg LoopSide.config (loopSide_enqueue
    (hub.offer .low { event with lowPriority := true } (.ofCallback free)).2
    ⟨hub.postings, { event with lowPriority := true }, .ofCallback free⟩)
  rw [he] at hconfig
  refine ⟨hub', ?_, hrunning.trans running, hafter, hconfig, hpostings, hwaiting⟩
  have hoffered : (hub.offer .low { event with lowPriority := true }
      (.ofCallback free)).2.running = true := running
  have hsender : ((hub.offer .low { event with lowPriority := true }
      (.ofCallback free)).1.event.sender != systemId) = false := by
    simp [offer, sender]
  have hposted : (hub.offer .low { event with lowPriority := true }
      (.ofCallback free)).2.postDroppable (hub.offer .low { event with lowPriority := true }
      (.ofCallback free)).1 = (true, hub', []) := by
    have he' : (hub.offer .low { event with lowPriority := true }
        (.ofCallback free)).2.enqueue (hub.offer .low { event with lowPriority := true }
        (.ofCallback free)).1 = (true, hub') := he
    simp only [postDroppable, hoffered, hsender, he', Bool.not_true, Bool.false_and,
      Bool.false_eq_true, if_false]
  simp only [Frame.step, Routine.step, hposted, List.nil_append]

def postBack : FreeCallback Unit := fun _ _ =>
  .post (Event.new EventType.firstUser) none (.done ())

/-- Fills a pool of two slots with events that may be evicted, and posts a critical event. -/
def overfill (older younger : Option (FreeCallback Unit)) : Machine Unit :=
  launch (.create { Config.default with eventBlocks := 1, eventsPerBlock := 2, evictTarget := 2 }
    .none () 0) <|
  .postLow (Event.new EventType.firstUser) older fun _ =>
  .postLow (Event.new EventType.firstUser) younger fun _ =>
  .post (Event.new EventType.firstUser) none <|
  .done ()

def filler (serial : Nat) (free : Option (FreeCallback Unit)) : Posting Unit :=
  ⟨serial, { Event.new EventType.firstUser with lowPriority := true }, .ofCallback free⟩

theorem overfill_full (older younger : Option (FreeCallback Unit)) :
    ∃ hub now now', ((overfill older younger).advance 2).1 =
        ⟨hub, [.code (.loop .outside) (.post (Event.new EventType.firstUser) none (.done ()))]⟩ ∧
      ((overfill older younger).advance 2).1.Reachable ∧ hub.running = true ∧
      hub.pool.isFull = true ∧ hub.waiting.length = 2 ∧ hub.config.evictTarget.toNat = 2 ∧
      hub.evictees = [(filler 1 younger).stamped now, (filler 0 older).stamped now'] := by
  have hm₀ : (overfill older younger).Reachable :=
    ⟨_, isStart_iff.mpr ⟨_, .none, (), 0, _, rfl, rfl⟩, .refl⟩
  obtain ⟨hub₁, hstep₁, hrunning₁, hroom₁, hconfig₁, hpostings₁, hwaiting₁⟩ :=
    queued_low hm₀ rfl rfl (by decide)
  have hm₁ := hm₀.of_go hstep₁
  have hleft : hub₁.room = 1 := Nat.succ.inj hroom₁
  obtain ⟨hub₂, hstep₂, hrunning₂, hroom₂, hconfig₂, -, hwaiting₂⟩ :=
    queued_low hm₁ hrunning₁ rfl (by omega)
  have hm₂ := hm₁.of_go hstep₂
  have hadvance : ((overfill older younger).advance 2).1 =
      ⟨hub₂, [.code (.loop .outside) (.post (Event.new EventType.firstUser) none (.done ()))]⟩ := by
    have h₁ := step_eq_stepped.mpr ⟨_, _, [], hub₁, _, rfl, hstep₁, rfl⟩
    have h₂ := step_eq_stepped.mpr ⟨hub₁, _, [], hub₂, _, rfl, hstep₂, rfl⟩
    simp only [overfill, launch] at h₁ ⊢
    simp only [advance, h₁, h₂, List.append_nil]
  have htarget : hub₂.config.evictTarget.toNat = 2 := by
    rw [hconfig₂, hconfig₁]
    rfl
  have hwaiting : hub₂.waiting =
      [(filler 0 older).stamped hub₁.now, (filler 1 younger).stamped hub₂.now] := by
    rw [hwaiting₂, hwaiting₁, hpostings₁]
    rfl
  refine ⟨hub₂, hub₂.now, hub₁.now, hadvance, hadvance ▸ hm₂, hrunning₂, ?_, ?_, htarget, ?_⟩
  · rw [isFull_iff_room]
    omega
  · rw [hwaiting]
    rfl
  · rw [evictees, hwaiting, htarget]
    rfl

theorem filler_frees (serial now : Nat) : ((filler serial none).stamped now).FreesAtMost 0 := by
  intro callback h
  cases h

theorem filler_frees_postBack (serial now : Nat) :
    ((filler serial (some postBack)).stamped now).FreesAtMost 1 := by
  intro callback h
  cases h
  exact .post .done

theorem post_survives_eviction_olderPosts :
    ((overfill (some postBack) none).advance 2).1.hub.pool.isFull = true ∧
      ∃ hub', ((overfill (some postBack) none).advance 2).1.Runs
          ⟨hub', [.code (.loop .outside) (.done ())]⟩ ∧
        ∀ p ∈ hub'.waiting, p.event.lowPriority = false := by
  obtain ⟨hub, now, now', heq, hm, running, full, hlength, htarget, hevictees⟩ :=
    overfill_full (some postBack) none
  have frees : List.Forall₂ (fun p n => Posting.FreesAtMost n p) hub.evictees [0, 1] := by
    rw [hevictees]
    exact .cons (filler_frees 1 now) (.cons (filler_frees_postBack 0 now') .nil)
  rw [heq] at hm ⊢
  obtain ⟨kept, queued, hub', hruns, -, hperm, -, hwaiting, -, -, hcritical⟩ :=
    post_survives_eviction hm rfl running full (by rw [hevictees]; simp)
      (show hub.config.evictTarget.toNat < 2 ^ 61 by omega) frees (by decide)
  refine ⟨full, hub', hruns, ?_⟩
  have hkept : kept = [] := by
    have hsum := hperm.length_eq
    rw [List.length_append, hevictees] at hsum
    simp only [List.length_cons, List.length_nil] at hsum
    exact List.eq_nil_of_length_eq_zero (by omega)
  intro p hp
  rw [hwaiting, hkept, List.nil_append] at hp
  rcases List.mem_append.mp hp with hp | hp
  · exact hcritical p hp
  · rw [List.mem_singleton.mp hp]
    rfl

/-- Fills a pool of a single slot with an event that may be evicted, and posts a critical event. -/
def replace (evictTarget : UInt64) : Machine Unit :=
  launch (.create { Config.default with
    eventBlocks := 1, eventsPerBlock := 1, evictTarget := evictTarget } .none () 0) <|
  .postLow (Event.new EventType.firstUser) none fun _ =>
  .post (Event.new EventType.firstUser) none <|
  .done ()

/-- A run that comes to a failure comes to the step that fails. -/
theorem runs_of_failed {m : Machine σ} {budget : Nat} {error : Fatal}
    (h : (m.advance budget).2 = .failed error) :
    ∃ m' hub, m.Runs m' ∧ m'.step = .failed hub error := by
  induction budget generalizing m with
  | zero => cases h
  | succ budget ih =>
    simp only [advance] at h
    cases hs : m.step with
    | stepped next =>
      simp only [hs] at h
      obtain ⟨m', hub, hruns, hfailed⟩ := ih h
      exact ⟨m', hub, .head hs hruns, hfailed⟩
    | finished | waiting =>
      simp only [hs] at h
      cases h
    | failed hub reason =>
      simp only [hs, Stop.failed.injEq] at h
      exact ⟨m, hub, .refl, h ▸ hs⟩

/-- Two slots are evicted for two critical events, but the callback of the youngest event posts the
first of these before any slot is given back: that post fails. -/
theorem eviction_fails_youngestPosts :
    ∃ (m m' : Machine Unit) (hub : Hub Unit) (event : Event), m.Reachable ∧
      m.frames = [.code (.loop .outside) (.post event none (.done ()))] ∧
      m.hub.running = true ∧ m.hub.pool.isFull = true ∧ m.hub.evictees.length = 2 ∧
      List.Forall₂ (fun p n => p.FreesAtMost n) m.hub.evictees [1, 0] ∧
      m.Runs m' ∧ m'.step = .failed hub (.noSpace event.type) := by
  obtain ⟨hub, now, now', heq, hm, running, full, -, -, hevictees⟩ :=
    overfill_full none (some postBack)
  have hfailed : (((overfill none (some postBack)).advance 2).1.advance 4).2 =
      .failed (.noSpace EventType.firstUser) := by
    decide +kernel
  obtain ⟨m', failed, hruns, hstep⟩ := runs_of_failed hfailed
  have frees : List.Forall₂ (fun p n => Posting.FreesAtMost n p) hub.evictees [1, 0] := by
    rw [hevictees]
    exact .cons (filler_frees_postBack 1 now) (.cons (filler_frees 0 now') .nil)
  rw [heq] at hm hruns
  have hlength : hub.evictees.length = 2 := by
    rw [hevictees]
    rfl
  exact ⟨_, m', failed, Event.new EventType.firstUser, hm, rfl, running, full, hlength, frees,
    hruns, hstep⟩

end Machine

end SensorHub
