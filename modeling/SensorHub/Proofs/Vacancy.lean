import SensorHub.Proofs.Eviction
import SensorHub.Proofs.Registry

namespace SensorHub

variable {σ : Type}

namespace Effect

/-- If the hub does not go on, this is because no room could be made or reserved. -/
inductive WantsRoom : Effect σ → Prop
  | go {hub : Hub σ} {frames : List (Frame σ)} : WantsRoom (.go hub frames)
  | wait : WantsRoom .wait
  | fail {hub : Hub σ} {error : Fatal} (unfound : ∀ type, error ≠ .notAdmitted type) :
    WantsRoom (.fail hub error)

theorem WantsRoom.above {effect : Effect σ} (h : effect.WantsRoom) (frames : List (Frame σ)) :
    (effect.above frames).WantsRoom := by
  cases h with
  | go => exact .go
  | wait => exact .wait
  | fail unfound => exact .fail unfound

end Effect

namespace Hub

theorem wantsRoom_postRunning (hub : Hub σ) (posting : Posting σ) :
    (hub.postRunning posting).WantsRoom := by
  unfold postRunning
  split
  next => exact .go
  next => exact .fail nofun
  next => exact .fail nofun

theorem wantsRoom_postCritical (hub : Hub σ) (posting : Posting σ) :
    (hub.postCritical posting).WantsRoom := by
  unfold postCritical
  split
  next => exact wantsRoom_postRunning ..
  next => exact .go

theorem wantsRoom_request (hub : Hub σ) (work : SystemWork σ) :
    (hub.request work).2.WantsRoom := by
  simp only [request]
  split
  next => exact wantsRoom_postRunning ..
  next => exact .go

theorem wantsRoom_announce (hub : Hub σ) (type : UInt16) (load : Nat) (info : Info) :
    (hub.announce type load info).WantsRoom :=
  wantsRoom_postCritical ..

theorem wantsRoom_load (hub : Hub σ) (app : App σ) (client : LoadClient σ) :
    (hub.load app client).WantsRoom := by
  unfold load
  split
  next => exact .go
  next =>
    split
    next => exact .go
    next =>
      split
      next => exact .fail nofun
      next => exact .go

theorem wantsRoom_finishStart (hub : Hub σ) (index : Nat) (client : LoadClient σ) (ok : Bool) :
    (hub.finishStart index client ok).WantsRoom := by
  simp only [finishStart]
  split
  next => exact .go
  next =>
    split
    next => exact (wantsRoom_announce ..).above _
    next => split <;> exact .go

theorem wantsRoom_settleUnload (hub : Hub σ) (info : Info) (started : Bool)
    (previous : Option UInt16) : (hub.settleUnload info started previous).WantsRoom := by
  unfold settleUnload
  split
  next => exact .go
  next =>
    dsimp only
    split
    next => exact (wantsRoom_announce ..).above _
    next => exact .go

theorem wantsRoom_removeAt (hub : Hub σ) (index : Nat) (started : Bool) :
    (hub.removeAt index started).WantsRoom := by
  unfold removeAt
  split
  next => exact .go
  next =>
    dsimp only
    split <;> exact .go

theorem wantsRoom_complete (hub : Hub σ) (posting : Posting σ) :
    (hub.complete posting).WantsRoom := by
  simp only [complete]
  split
  next => exact .go
  next => exact .go
  next work _ =>
    cases work with
    | shutdown | call => exact .go
    | load =>
      simp only [perform]
      split
      next => exact wantsRoom_load ..
      next => exact .go
    | unload =>
      simp only [perform]
      split <;> exact .go

end Hub

theorem Routine.wantsRoom {r : Reach} {a : Answer} (hub : Hub σ) (actor : Actor σ r a)
    (routine : Routine σ r a) : (routine.step hub actor).WantsRoom := by
  cases routine with
  | post => exact (Hub.wantsRoom_postCritical ..).above _
  | request => exact (Hub.wantsRoom_request ..).above _
  | lookInward | send | register | unregister =>
    simp only [step]
    split <;> exact .go
  | start =>
    cases actor
    exact Hub.wantsRoom_load ..
  | runUntilIdle =>
    cases actor
    exact .go
  | done value =>
    cases actor with
    | start => exact Hub.wantsRoom_finishStart ..
    | loop | handle | release | entry => exact .go
  | _ => exact .go

namespace Frame

variable {hub hub' : Hub σ} {frame : Frame σ} {error : Fatal}

/-- A frame that fails wants room, or does not find the slot that an event should get. -/
theorem fails_cases (h : frame.step hub = .fail hub' error) :
    (∀ type, error ≠ .notAdmitted type) ∨
      ∃ posting, frame = .enqueue posting ∧ (hub.enqueue posting).1 = false := by
  have wants : (frame.step hub).WantsRoom → ∀ type, error ≠ .notAdmitted type := by
    intro wants
    rw [h] at wants
    cases wants with
    | fail unfound => exact unfound
  cases frame with
  | code actor routine => exact .inl (wants (Routine.wantsRoom ..))
  | enqueue posting =>
    refine .inr ⟨posting, rfl, ?_⟩
    simp only [step] at h
    split at h
    next => cases h
    next he => rw [he]
  | complete posting => exact .inl (wants (Hub.wantsRoom_complete ..))
  | settle info started previous => exact .inl (wants (Hub.wantsRoom_settleUnload ..))
  | remove index started => exact .inl (wants (Hub.wantsRoom_removeAt ..))
  | evict handles =>
    cases handles with
    | nil | cons => exact .inl (wants .go)
  | dispatch handle =>
    refine .inl (wants ?_)
    simp only [step, Hub.dispatch]
    split <;> exact .go
  | discard handle =>
    refine .inl (wants ?_)
    simp only [step, Hub.discard]
    split <;> exact .go
  | distribute posting index reached =>
    refine .inl (wants ?_)
    simp only [step, Hub.offerTo]
    split
    next => split <;> exact .go
    next => exact .go
  | answer client result =>
    cases client with
    | routine => exact .inl (wants .go)
    | request =>
      cases result with
      | ok | error => exact .inl (wants .go)
  | release load info managers =>
    cases managers with
    | nil | cons => exact .inl (wants .go)
  | flush | drain =>
    refine .inl (wants ?_)
    simp only [step]
    split <;> exact .go
  | await =>
    refine .inl (wants ?_)
    simp only [step]
    split
    next => exact .wait
    next => exact .go
  | idle count actor next =>
    refine .inl (wants ?_)
    simp only [step]
    split
    next => split <;> exact .go
    next => exact .go
  | serve | clear =>
    refine .inl (wants ?_)
    simp only [step]
    split <;> exact .go
  | vacate | delivered | restore | mark | erase | unmark | cycle | turn | endCycle | exit =>
    exact .inl (wants .go)

end Frame

namespace Hub

variable {hub hub' : Hub σ}

theorem room_pos_iff : 0 < hub.room ↔ hub.pool.isFull = false := by
  rw [Nat.pos_iff_ne_zero, ← Bool.not_eq_true, ne_eq, not_iff_not, isFull_iff_room]

/-- Unless nothing is to be evicted at all, room is found only if there is a free slot or something
was evicted. -/
theorem makeRoom_found {evicted : List Handle} (target : hub.config.evictTarget ≠ 0)
    (h : hub.makeRoom = (.found evicted, hub')) : evicted ≠ [] ∨ 0 < hub'.room := by
  have hne : hub.config.evictTarget.toNat ≠ 0 := fun h => target (UInt64.toNat_inj.mp h)
  unfold makeRoom at h
  dsimp only at h
  split at h
  next hfound =>
    cases h
    exact .inr (room_pos_iff.mpr (by simpa [hne] using hfound))
  next =>
    split at h
    next => cases h
    next => cases h
    next removed queue found _ =>
      cases h
      exact .inl found

/-- How far the search for the slot of a critical event has come, by the frames above the event. The
last slot of an eviction is given back when nothing else is left of it. -/
inductive Clears (hub : Hub σ) : List (Frame σ) → Prop
  | found (room : 0 < hub.room) : Clears hub []
  | done (room : 0 < hub.room) : Clears hub [.evict []]
  | last {above handle} : Clears hub (above ++ [.vacate handle, .evict []])
  | evicts {above handle handles} : Clears hub (above ++ [.evict (handle :: handles)])

/-- Whatever is done above it, an eviction that still has a slot to give back goes on. -/
theorem Clears.evict (upper : List (Frame σ)) (handle : Handle) (handles : List Handle) :
    hub.Clears (upper ++ [.vacate handle, .evict handles]) := by
  cases handles with
  | nil => exact .last
  | cons next handles =>
    have h : hub.Clears ((upper ++ [.vacate handle]) ++ [.evict (next :: handles)]) := .evicts
    rwa [List.append_assoc] at h

end Hub

namespace Frame

open Hub

variable {hub hub' : Hub σ} {frame : Frame σ} {frames upper lower rest : List (Frame σ)}
  {posting : Posting σ} {below : List (Cargo σ)}

theorem Turnover.config {r r' : Records σ} (h : frame.Turnover r r' frames) :
    r'.config = r.config := by
  cases h <;> rfl

theorem mem_cargo_enqueue (h : .enqueue posting ∈ frames) :
    .waiting posting ∈ frames.flatMap Frame.cargo :=
  List.mem_flatMap.mpr ⟨_, h, List.mem_singleton_self _⟩

theorem eq_enqueue_of_cargo (h : .waiting posting ∈ frame.cargo) : frame = .enqueue posting := by
  cases frame with
  | enqueue other =>
    cases List.mem_singleton.mp h
    rfl
  | evict handles => simp [cargo] at h
  | code actor routine =>
    cases actor with
    | entry => simp [cargo] at h
    | _ => cases h
  | vacate | dispatch | discard | cycle | turn | distribute | complete => simp [cargo] at h
  | _ => cases h

theorem not_enqueue_of_light (h : frames.flatMap Frame.cargo = []) : .enqueue posting ∉ frames := by
  intro hmem
  have hcargo := mem_cargo_enqueue hmem
  rw [h] at hcargo
  cases hcargo

/-- An event comes to wait for its slot only together with the eviction that makes room for it. -/
theorem Traffic.reserves (h : frame.Traffic hub hub' (upper ++ .enqueue posting :: lower))
    (ht : hub.Tidy (frame.cargo ++ below)) (apart : ∀ other, frame ≠ .enqueue other)
    (config : hub'.config = hub.config) (target : hub.config.evictTarget ≠ 0) :
    hub'.Clears upper := by
  have owned : ∀ {frames : List (Frame σ)}, frames.flatMap Frame.cargo = frame.cargo →
      .enqueue posting ∉ frames := by
    intro frames hcargo hmem
    exact apart posting (eq_enqueue_of_cargo (hcargo ▸ mem_cargo_enqueue hmem))
  have hmem : .enqueue posting ∈ upper ++ .enqueue posting :: lower := by simp
  generalize hframes : upper ++ .enqueue posting :: lower = frames at h hmem
  cases h with
  | pass _ cargo => exact absurd hmem (owned cargo)
  | @post _ _ _ _ _ hub₁ _ upper' lower' _ _ _ _ _ posted cargo =>
    have hlower := owned cargo
    have none : upper'.flatMap Frame.cargo = [] → False := fun hcargo =>
      (List.mem_append.mp hmem).elim (not_enqueue_of_light hcargo) hlower
    cases posted with
    | queued | discarded => exact (none rfl).elim
    | refused _ _ _ hd => exact (none (cargo_detach hd)).elim
    | dropped _ _ _ _ hd => exact (none (cargo_detach hd)).elim
    | @reserved _ evicted _ make =>
      have htarget : hub₁.config.evictTarget ≠ 0 := by
        have hsame := congrArg LoopSide.config (loopSide_makeRoom hub₁)
        rw [make] at hsame
        have hconfig : hub₁.config = hub.config := hsame.symm.trans config
        rwa [hconfig]
      rcases upper with _ | ⟨first, _ | ⟨second, upper⟩⟩
      · cases hframes
      · cases hframes
        cases evicted with
        | nil => exact .done ((makeRoom_found htarget make).resolve_left fun h => h rfl)
        | cons handle handles => exact @Clears.evicts _ _ [] handle handles
      · obtain ⟨-, hframes⟩ := List.cons.inj hframes
        have hrest : upper ++ .enqueue posting :: lower = lower' := (List.cons.inj hframes).2
        rw [← hrest] at hlower
        simp at hlower
  | evict _ hd =>
    have hdetached := @not_enqueue_of_light _ _ posting (cargo_detach hd)
    simp [hdetached] at hmem
  | pop _ _ how =>
    have hcargo := mem_cargo_enqueue hmem
    rw [how.cargo.2] at hcargo
    simp at hcargo
  | hollow mem held => exact absurd held (ht.not_hollow mem)
  | work _ _ cargo => exact absurd hmem (not_enqueue_of_light cargo)
  | enqueue => exact absurd rfl (apart _)
  | vacate | dispatch | discard | deliver | leave | forget | free => simp at hmem

/-- A step brings every search for a slot forward, and gives each event the slot it was promised. -/
theorem Traffic.clears (h : frame.Traffic hub hub' frames)
    (ht : hub.Tidy (frame.cargo ++ below)) (step : frame.step hub = .go hub' frames)
    (old : ∀ upper posting lower, frame :: rest = upper ++ .enqueue posting :: lower →
      hub.Clears upper)
    (config : hub'.config = hub.config) (target : hub.config.evictTarget ≠ 0) :
    ∀ upper posting lower, frames ++ rest = upper ++ .enqueue posting :: lower →
      hub'.Clears upper := by
  have behind : ∀ above posting lower, rest = above ++ .enqueue posting :: lower →
      hub'.Clears (frames ++ above) := by
    intro above posting lower hrest
    have hold := old (frame :: above) posting lower (congrArg (frame :: ·) hrest)
    generalize hup : frame :: above = up at hold
    cases hold with
    | found => cases hup
    | done room =>
      cases hup
      cases step
      exact .found room
    | @last upper handle =>
      rcases List.cons_eq_append_iff.mp hup with ⟨-, hfirst⟩ | ⟨others, rfl, rfl⟩
      · cases hfirst
        cases step
        exact .done (by rw [ht.room_vacate]; exact Nat.succ_pos _)
      · rw [← List.append_assoc]
        exact .last
    | @evicts upper handle handles =>
      rcases List.cons_eq_append_iff.mp hup with ⟨-, hfirst⟩ | ⟨others, rfl, rfl⟩
      · cases hfirst
        rcases releaseEvicted_cases hub handle with ⟨posting, -, hr⟩ | ⟨-, hr⟩
        · simp only [Frame.step, hr] at step
          cases step
          rw [List.append_nil, List.append_assoc]
          exact .evict _ _ _
        · simp only [Frame.step, hr] at step
          cases step
          exact .evict [] _ _
      · rw [← List.append_assoc]
        exact .evicts
  intro upper posting lower he
  rcases List.append_eq_append_iff.mp he with ⟨above, rfl, hrest⟩ | ⟨above, hframes, hlower⟩
  · exact behind above posting lower hrest
  · cases above with
    | nil =>
      have hold := behind [] posting lower hlower.symm
      rw [List.append_nil] at hold hframes
      exact hframes ▸ hold
    | cons first above =>
      obtain ⟨rfl, -⟩ := List.cons.inj hlower
      subst hframes
      refine h.reserves ht (fun other heq => ?_) config target
      subst heq
      simp only [Frame.step] at step
      split at step
      next =>
        cases upper with
        | nil | cons => cases step
      next => cases step

end Frame

namespace Machine

open Hub

variable {start m next : Machine σ} {posting : Posting σ} {rest : List (Frame σ)}

/-- A slot has been found for a critical event, and the event is about to take it. -/
def Claims (m : Machine σ) : Prop :=
  ∃ posting rest, m.frames = .evict [] :: .enqueue posting :: rest ∨
    m.frames = .enqueue posting :: rest

/-- A move at which no other thread comes between a critical event and the slot found for it, which
is free for all threads until the event takes it. Everywhere else other threads may come in, also
while events are evicted. -/
inductive Unraced (m : Machine σ) : Machine σ → Prop
  | step {next : Machine σ} (h : m.step = .stepped next) : Unraced m next
  | interrupt (routine : Routine σ .handle .nothing) (apart : ¬m.Claims) :
      Unraced m (m.interrupt routine)

theorem Unraced.move (h : Unraced m next) : Move m next := by
  cases h with
  | step hs => exact .step hs
  | interrupt routine => exact .interrupt routine

/-- The search for the slot of every critical event that waits for one has come to some point. -/
def Clears (m : Machine σ) : Prop :=
  ∀ upper posting lower, m.frames = upper ++ .enqueue posting :: lower → m.hub.Clears upper

theorem Clears.unraced (hc : m.Clears) (hm : m.Reachable)
    (target : m.hub.config.evictTarget ≠ 0) (h : Unraced m next) :
    next.Clears ∧ next.hub.config = m.hub.config := by
  cases h with
  | step hs =>
    obtain ⟨hub, frame, rest, hub', frames, rfl, hgo, rfl⟩ := step_eq_stepped.mp hs
    have config : hub'.config = hub.config := (Frame.step_turnover hm.nested.1 hgo).1.config
    exact ⟨(hm.traffic hgo).clears hm.tidy hgo hc config target, config⟩
  | interrupt routine apart =>
    refine ⟨fun upper posting lower he => ?_, rfl⟩
    cases upper with
    | nil => cases he
    | cons first upper =>
      obtain ⟨rfl, hframes⟩ := List.cons.inj he
      have hframes : m.frames = upper ++ .enqueue posting :: lower := hframes
      have hold := hc upper posting lower hframes
      cases hold with
      | found => exact absurd ⟨posting, lower, .inr hframes⟩ apart
      | done => exact absurd ⟨posting, lower, .inl hframes⟩ apart
      | @last above handle => exact @Hub.Clears.last _ _ (_ :: above) handle
      | @evicts above handle handles => exact @Hub.Clears.evicts _ _ (_ :: above) handle handles

/-- Along a run without races every search for a slot comes to its end. -/
theorem clears_of_unraced (hs : start.IsStart) (target : start.hub.config.evictTarget ≠ 0)
    (hr : Relation.ReflTransGen Unraced start m) :
    m.Reachable ∧ m.Clears ∧ m.hub.config.evictTarget ≠ 0 := by
  induction hr with
  | refl =>
    refine ⟨⟨start, hs, .refl⟩, fun upper posting lower he => ?_, target⟩
    obtain ⟨config, collaborators, memory, now, routine, -, rfl⟩ := isStart_iff.mp hs
    have hmem : .enqueue posting ∈ [Frame.code (.loop .outside) routine] := by
      have hframes : [Frame.code (.loop .outside) routine] =
          upper ++ .enqueue posting :: lower := he
      rw [hframes]
      exact List.mem_append_right _ (List.mem_cons_self ..)
    simp at hmem
  | tail _ h ih =>
    obtain ⟨hm, hc, target⟩ := ih
    obtain ⟨hc', hconfig⟩ := hc.unraced hm target h
    exact ⟨hm.move h.move, hc', by rwa [hconfig]⟩

theorem Runs.unraced (h : m.Runs next) : Relation.ReflTransGen Unraced m next :=
  Relation.ReflTransGen.mono (fun _ _ hs => Unraced.step hs) _ _ h

theorem runs_unfinished {budget : Nat} (h : (m.advance budget).2 = .unfinished) :
    m.Runs (m.advance budget).1 := by
  induction budget generalizing m with
  | zero => exact .refl
  | succ budget ih =>
    simp only [advance] at h ⊢
    cases hs : m.step with
    | stepped next =>
      simp only [hs] at h ⊢
      exact .head hs (ih h)
    | finished | waiting | failed =>
      simp only [hs] at h
      cases h

theorem step_of_advance {error : Fatal} (h : (m.advance 1).2 = .failed error) :
    ∃ hub, m.step = .failed hub error := by
  simp only [advance] at h
  cases hs : m.step with
  | failed hub reason =>
    simp only [hs, Stop.failed.injEq] at h
    exact ⟨hub, h ▸ rfl⟩
  | stepped | finished | waiting =>
    simp only [hs] at h
    cases h

/-- The critical event is about to take the slot that was given back, and another thread posts. -/
def outrun : Machine Unit :=
  ((replace 1).advance 5).1.interrupt
    (.postLow (Event.new EventType.firstUser) none fun _ => .done ())

end Machine

end SensorHub
