import SensorHub.Proofs.Eviction
import SensorHub.Proofs.Losses

namespace SensorHub

variable {σ : Type}

namespace Incident

def isParting : Incident → Bool
  | .evicted _ | .freed _ _ _ => true
  | _ => false

theorem isParting_of_isQuiet {i : Incident} (h : i.isQuiet = true) : i.isParting = false := by
  cases i with
  | evicted | freed => cases h
  | _ => rfl

end Incident

def partings (journal : List Incident) : List Incident :=
  journal.filter Incident.isParting

/-- What is recorded when the event is evicted and released, earliest first. -/
def Posting.parting (posting : Posting σ) : List Incident :=
  .evicted posting.serial :: posting.completed

theorem Posting.reverse_parting (posting : Posting σ) :
    posting.parting.reverse = posting.completed ++ [.evicted posting.serial] := by
  have hcompleted : posting.completed.reverse = posting.completed := by
    unfold Posting.completed
    cases posting.completion <;> rfl
  rw [Posting.parting, List.reverse_cons, hcompleted]

theorem partings_append {news journal : List Incident} (h : ∀ i ∈ news, i.isQuiet = true) :
    partings (news ++ journal) = partings journal := by
  have hnone : news.filter Incident.isParting = [] :=
    List.filter_eq_nil_iff.mpr fun i hi => by
      rw [Incident.isParting_of_isQuiet (h i hi)]
      exact Bool.false_ne_true
  rw [partings, List.filter_append, hnone, List.nil_append, partings]

namespace Hub

/-- Code has run that posts nothing: neither for events nor for the loop has anything changed. -/
structure Still (hub hub' : Hub σ) : Prop where
  calm : hub.Calm hub'
  side : hub'.loopSide = hub.loopSide
  losses : hub'.losses = hub.losses

variable {hub hub₁ hub' : Hub σ} {cargo : List (Cargo σ)} {posting : Posting σ}

namespace Still

theorem refl (hub : Hub σ) : hub.Still hub :=
  ⟨.refl hub, rfl, rfl⟩

theorem trans (h : hub.Still hub₁) (h' : hub₁.Still hub') : hub.Still hub' :=
  ⟨h.calm.trans h'.calm, h'.side.trans h.side, h'.losses.trans h.losses⟩

theorem partings (h : hub.Still hub') :
    SensorHub.partings hub'.journal = SensorHub.partings hub.journal := by
  obtain ⟨news, hj, hq⟩ := h.calm.journal
  rw [hj, partings_append hq]

end Still

/-- On the way from one hub to the other these events, which have left the queue, are released one
after the other. Their callbacks post nothing. -/
structure Releases (hub : Hub σ) (cargo : List (Cargo σ)) (evicted : List (Posting σ))
    (hub' : Hub σ) : Prop where
  queues : hub.Queues cargo [] hub'
  side : hub'.loopSide = hub.loopSide
  losses : hub'.losses = hub.losses
  partings : partings hub'.journal =
    (evicted.flatMap Posting.parting).reverse ++ partings hub.journal

namespace Releases

variable {evicted evicted' : List (Posting σ)}

theorem of_still (h : hub.Still hub') : hub.Releases cargo [] hub' :=
  ⟨.of_calm h.calm (congrArg LoopSide.running h.side), h.side, h.losses, h.partings⟩

theorem trans (h : hub.Releases cargo evicted hub₁) (h' : hub₁.Releases cargo evicted' hub') :
    hub.Releases cargo (evicted ++ evicted') hub' where
  queues := h.queues.trans h'.queues
  side := h'.side.trans h.side
  losses := h'.losses.trans h.losses
  partings := by
    rw [h'.partings, h.partings, List.flatMap_append, List.reverse_append, List.append_assoc]

theorem mono {fewer : List (Cargo σ)} (h : hub.Releases cargo evicted hub')
    (hf : ∀ k ∈ fewer.filterMap Cargo.stored?, k ∈ cargo.filterMap Cargo.stored?) :
    hub.Releases fewer evicted hub' :=
  ⟨h.queues.mono hf, h.side, h.losses, h.partings⟩

end Releases

end Hub

namespace Machine

open Hub

variable {m m' m₁ : Machine σ} {hub hub' : Hub σ} {rest lower : List (Frame σ)}

/-- Code that posts nothing comes to its end, and nothing has changed. -/
theorem ends_still {routine : Routine σ .handle .nothing} {purpose : Purpose} {n : Nat}
    (h : routine.PostsAtMost n) (none : n = 0) :
    ∃ hub', Runs ⟨hub, .code (.handle purpose) routine :: rest⟩ ⟨hub', rest⟩ ∧ hub.Still hub' := by
  have go : ∀ {routine next : Routine σ .handle .nothing} {hub hub₁ : Hub σ},
      (Frame.code (.handle purpose) routine).step hub = .go hub₁ [.code (.handle purpose) next] →
      hub.Still hub₁ →
      (∃ hub', Runs ⟨hub₁, .code (.handle purpose) next :: rest⟩ ⟨hub', rest⟩ ∧ hub₁.Still hub') →
      ∃ hub', Runs ⟨hub, .code (.handle purpose) routine :: rest⟩ ⟨hub', rest⟩ ∧
        hub.Still hub' := by
    rintro routine next hub hub₁ step still ⟨hub', hruns, still'⟩
    exact ⟨hub', (Runs.of_go step).trans hruns, still.trans still'⟩
  induction h generalizing hub with
  | done =>
    have step : (Frame.code (.handle purpose) (.done ()) : Frame σ).step hub = .go hub [] := rfl
    exact ⟨hub, Runs.of_go step, .refl hub⟩
  | «recall» _ ih => exact go rfl (.refl hub) (ih hub.memory none)
  | @store _ memory _ _ ih =>
    have still : hub.Still { hub with memory := memory } :=
      ⟨(Calm.refl hub).same rfl rfl rfl rfl, rfl, rfl⟩
    exact go rfl still (ih none)
  | note _ ih =>
    exact go rfl ⟨(Calm.refl hub).record rfl, loopSide_record hub rfl, rfl⟩ (ih none)
  | pause _ ih =>
    exact go rfl ⟨(Calm.refl hub).same rfl rfl rfl rfl, rfl, rfl⟩ (ih none)
  | observe _ ih => exact go rfl (.refl hub) (ih hub.snapshot none)
  | post | request => cases none

/-- The callback of an event that is released posts nothing. -/
theorem ends_detach (hub : Hub σ) (rest : List (Frame σ)) {posting : Posting σ}
    (silent : posting.FreesAtMost 0) :
    ∃ hub', Runs ⟨(hub.detach posting).1, (hub.detach posting).2 ++ rest⟩ ⟨hub', rest⟩ ∧
      (hub.detach posting).1.Still hub' := by
  cases hd : hub.detach posting with
  | mk hub₁ frames =>
    rcases detach_cases hd with ⟨-, -, rfl⟩ | ⟨callback, hc, -, rfl⟩ | ⟨work, -, -, rfl⟩
    · exact ⟨hub₁, .refl, .refl hub₁⟩
    · exact ends_still (silent callback hc) rfl
    · exact ⟨hub₁, .refl, .refl hub₁⟩

theorem partings_detach {posting : Posting σ} (plain : ∀ work, posting.completion ≠ .work work) :
    partings (hub.detach posting).1.journal = posting.completed ++ partings hub.journal := by
  unfold detach Posting.completed
  cases hc : posting.completion with
  | nothing | free => rfl
  | work work => exact absurd hc (plain work)

theorem releases_still {handles : List Handle} {evicted : List (Posting σ)}
    (held : List.Forall₂ (fun k p => hub.pool.inspect k = some p) handles evicted)
    (silent : ∀ p ∈ evicted, p.FreesAtMost 0) (hm : Reachable ⟨hub, .evict handles :: rest⟩) :
    ∃ hub', Runs ⟨hub, .evict handles :: rest⟩ ⟨hub', rest⟩ ∧
      hub.Releases (rest.flatMap Frame.cargo) evicted hub' ∧
      hub'.room = hub.room + handles.length := by
  induction handles generalizing hub evicted with
  | nil =>
    obtain rfl := List.forall₂_nil_left_iff.mp held
    have step : (Frame.evict [] : Frame σ).step hub = .go hub [] := rfl
    exact ⟨hub, Runs.of_go step, .of_still (.refl hub), rfl⟩
  | cons k handles ih =>
    rcases held with _ | @⟨_, p, _, evicted, hp, held⟩
    have hspent : hub.Tidy (.doomed k :: (handles.map .doomed ++ rest.flatMap Frame.cargo)) :=
      hm.tidy
    have plain := Frame.plain_of_doomed hspent hp hm.balanced
    -- The event leaves its slot, and its callback runs while the slot is still taken.
    have step : (Frame.evict (k :: handles) : Frame σ).step hub =
        .go (((hub.take k).2.record (.evicted p.serial)).detach p).1
          ((((hub.take k).2.record (.evicted p.serial)).detach p).2 ++
            [.vacate k, .evict handles]) := by
      rcases releaseEvicted_cases hub k with ⟨posting, hp', heq⟩ | ⟨hp', -⟩
      · rw [hp] at hp'
        cases hp'
        simp only [Frame.step, heq, List.append_assoc, List.cons_append, List.nil_append]
      · rw [hp] at hp'
        cases hp'
    have hm₁ := hm.of_go step
    rw [List.append_assoc] at hm₁
    have htaken : hub.Releases (handles.map .doomed ++ rest.flatMap Frame.cargo) [p]
        (((hub.take k).2.record (.evicted p.serial)).detach p).1 := by
      refine ⟨((Queues.take hspent rfl).trans (.record _ _ _)).trans (.detach _ p _), ?_, ?_, ?_⟩
      · rw [loopSide_detach, loopSide_record _ rfl, loopSide_take]
      · exact losses_detach ((hub.take k).2.record (.evicted p.serial)) p
      · have hevicted : partings ((hub.take k).2.record (.evicted p.serial)).journal =
            .evicted p.serial :: partings hub.journal := rfl
        rw [partings_detach plain, hevicted, List.flatMap_singleton, p.reverse_parting,
          List.append_assoc, List.singleton_append]
    obtain ⟨hub₁, hruns₁, still⟩ := ends_detach ((hub.take k).2.record (.evicted p.serial))
      ([.vacate k, .evict handles] ++ rest) (silent p (List.mem_cons_self ..))
    -- Then the slot is given back.
    have hm₂ := hm₁.reaches hruns₁.reaches
    have hvacate : (Frame.vacate k : Frame σ).step hub₁ = .go (hub₁.vacate k) [] := rfl
    have hgiven : hub.Releases (handles.map .doomed ++ rest.flatMap Frame.cargo) [p]
        (hub₁.vacate k) := by
      have hback : hub₁.Releases (handles.map .doomed ++ rest.flatMap Frame.cargo) []
          (hub₁.vacate k) := by
        obtain ⟨pool, heq, -⟩ := Tidy.vacate_eq hm₂.tidy
        refine ⟨.vacate hm₂.tidy, loopSide_vacate hub₁ k, ?_, ?_⟩
        · rw [heq]
          rfl
        · rw [heq]
          rfl
      have hall := (htaken.trans (.of_still still)).trans hback
      rwa [List.append_nil, List.append_nil] at hall
    have hroom : (hub₁.vacate k).room = hub.room + 1 := by
      have hbase : (((hub.take k).2.record (.evicted p.serial)).detach p).1.room = hub.room :=
        room_detach ((hub.take k).2.record (.evicted p.serial)) p
      rw [hm₂.tidy.room_vacate, hm₁.tidy.room_calm still.calm, hbase]
    -- The other evicted events are still in their slots.
    have held' : List.Forall₂ (fun j p => (hub₁.vacate k).pool.inspect j = some p)
        handles evicted := by
      refine ((List.forall₂_and_left _ _).mpr
        ⟨fun j hj => hgiven.queues.inspect j ?_, held⟩).imp ?_
      · exact List.mem_filterMap.mpr ⟨.doomed j, by simp [hj], rfl⟩
      · rintro j p ⟨hsame, hj⟩
        exact hsame.trans hj
    obtain ⟨hub', hruns, hreleases, hroom'⟩ :=
      ih held' (fun q hq => silent q (List.mem_cons_of_mem _ hq)) (hm₂.of_go hvacate)
    refine ⟨hub', ?_, ?_, ?_⟩
    · have hstep : Runs ⟨hub, .evict (k :: handles) :: rest⟩
          ⟨_, (_ ++ [.vacate k, .evict handles]) ++ rest⟩ := Runs.of_go step
      rw [List.append_assoc] at hstep
      exact ((hstep.trans hruns₁).trans (Runs.of_go hvacate)).trans hruns
    · refine Releases.trans (hgiven.mono fun j hj => ?_) hreleases
      rw [List.filterMap_append]
      exact List.mem_append_right _ hj
    · rw [hroom', hroom, List.length_cons]
      omega

end Machine

namespace Hub

variable {hub hub₁ hub' : Hub σ} {cargo : List (Cargo σ)} {posting : Posting σ}
  {evicted : List (Posting σ)}

/-- The event is queued behind the others. These stay as they are, except that those that were
evicted for it have left the queue and were released, first one first. -/
structure Admitted (hub : Hub σ) (evicted : List (Posting σ)) (posting : Posting σ)
    (hub' : Hub σ) : Prop where
  waiting : hub'.waiting = (hub.waiting.filter fun p => p.serial ∉ evicted.map Posting.serial) ++
    [posting.stamped hub'.now]
  partings : partings hub'.journal =
    (evicted.flatMap Posting.parting).reverse ++ partings hub.journal
  allocated : hub'.pool.allocated.toNat + evicted.length = hub.pool.allocated.toNat + 1
  dropped : hub'.dropped = hub.dropped + UInt32.ofNat evicted.length
  side : hub'.loopSide = hub.loopSide

/-- An event that may be dropped takes a free slot or none, and nothing leaves the queue for it. -/
theorem Tidy.postDroppable (ht : hub.Tidy cargo) (posting : Posting σ) :
    ∃ accepted hub' upper, hub.postDroppable posting = (accepted, hub', upper) ∧
      (accepted = true ↔
        hub.running = true ∧ ¬hub.Refuses posting.event ∧ hub.pool.isFull = false) ∧
      hub'.waiting = hub.waiting ++ (if accepted then [posting.stamped hub.now] else []) ∧
      evictions hub'.journal = evictions hub.journal := by
  have aside : ∀ {news : List Incident} (journal : List Incident), (∀ i ∈ news, i.isAside = true) →
      evictions (news ++ journal) = evictions journal :=
    fun journal h => filterMap_aside (fun i hi => (Incident.names_of_isAside (h i hi)).2.2.1) journal
  by_cases refused : hub.running = false ∨ hub.Refuses posting.event
  · obtain ⟨hub', hpost, -⟩ := postDroppable_refused refused
    obtain ⟨news, hkept, haside⟩ := postDroppable_kept refused
    rw [hpost] at hkept
    obtain rfl : hub' = _ := hkept
    refine ⟨false, _, _, hpost, ?_, (List.append_nil _).symm, aside hub.journal haside⟩
    refine iff_of_false Bool.false_ne_true fun ⟨running, passes, _⟩ => ?_
    rcases refused with stopped | refuses
    · rw [running] at stopped
      cases stopped
    · exact passes refuses
  · obtain ⟨hruns, passes⟩ := not_or.mp refused
    have running : hub.running = true := by simpa using hruns
    have hsender : (posting.event.sender != systemId &&
        hub.shownStopping == posting.event.sender) = false := by
      simpa [Refuses] using passes
    cases hfull : hub.pool.isFull with
    | false =>
      have hroom : (hub.queue.toList ++ cargo.filterMap Cargo.handle?).length ≠
          hub.pool.capacity := by
        intro hlength
        rw [ht.sound.isFull_iff.mpr hlength] at hfull
        cases hfull
      obtain ⟨handle, hub', he, admits, hnew, -⟩ := enqueue_room ht.sound hroom posting
      refine ⟨true, hub', [], ?_, iff_of_true rfl ⟨running, passes, rfl⟩, ?_, admits.evictions⟩
      · simp only [Hub.postDroppable, running, hsender, he, Bool.not_true, Bool.false_eq_true,
          if_false]
      · exact admits.waiting fun hk => hnew (List.mem_append_left _ hk)
    | true =>
      obtain ⟨hub₁, he, calm⟩ :=
        enqueue_full ht.sound (ht.sound.isFull_iff.mp hfull) posting
      rcases hd : (({ hub₁ with dropped := hub₁.dropped + 1 }.record
        (.dropped posting.serial)).log (.dropped posting.event.type posting.event.target)).detach
          posting with ⟨hub', upper⟩
      obtain ⟨news, hdetached, haside⟩ := detach_eq hd
      refine ⟨false, hub', upper, ?_, ?_, ?_, ?_⟩
      · simp only [Hub.postDroppable, running, hsender, he, Bool.not_true, Bool.false_eq_true,
          if_false, hd]
      · exact iff_of_false Bool.false_ne_true fun h => Bool.noConfusion h.2.2
      · rw [if_neg Bool.false_ne_true, List.append_nil, hdetached]
        exact waiting_congr (by rw [← calm.queue]; rfl) fun k _ => calm.inspect k
      · have hcounted := evictions_calm calm
        rw [hdetached]
        exact (aside _ haside).trans hcounted

/-- Nothing has left the queue, and nothing was released or counted as lost. -/
structure Untouched (hub hub' : Hub σ) : Prop where
  waiting : hub'.waiting = hub.waiting
  partings : partings hub'.journal = partings hub.journal
  dropped : hub'.dropped = hub.dropped

theorem evictees_eq_nil : hub.evictees = [] ↔
    hub.config.evictTarget = 0 ∨ ∀ p ∈ hub.waiting, p.event.isEvictable = false := by
  have htarget : hub.config.evictTarget.toNat = 0 ↔ hub.config.evictTarget = 0 :=
    ⟨fun h => UInt64.toNat_inj.mp h, fun h => by rw [h]; rfl⟩
  rw [evictees, List.take_eq_nil_iff, htarget, List.filter_eq_nil_iff]
  simp

theorem length_evictees (hub : Hub σ) : hub.evictees.length =
    min hub.config.evictTarget.toNat (hub.waiting.countP fun p => p.event.isEvictable) := by
  rw [evictees, List.length_take, ← List.countP_eq_length_filter, List.countP_reverse]

/-- In a full pool with nothing to evict there is no room. -/
theorem makeRoom_nothing (full : hub.pool.isFull = true)
    (target : hub.config.evictTarget ≠ 0) (reserved : hub.config.evictTarget.toNat < 2 ^ 61)
    (found : hub.evictees = []) : hub.makeRoom = (.nothing, hub.log .nothingToEvict) := by
  have hne : hub.config.evictTarget.toNat ≠ 0 := fun h => target (UInt64.toNat_inj.mp h)
  cases hr : hub.queue.removeMatching hub.config.evictTarget.toNat hub.evictable with
  | none =>
    rw [Queue.removeMatching_eq_none] at hr
    omega
  | some result =>
    obtain ⟨removed, queue⟩ := result
    have hnone : removed = [] := by
      rw [Queue.removeMatching_taken hr, List.take_eq_nil_iff]
      refine .inr (List.filter_eq_nil_iff.mpr fun k hk => ?_)
      have hstill := (evictees_eq_nil.mp found).resolve_left target
      cases hheld : hub.pool.inspect k with
      | none => simp [evictable, hheld]
      | some p =>
        have hwaits : p ∈ hub.waiting :=
          List.mem_filterMap.mpr ⟨k, List.mem_reverse.mp hk, hheld⟩
        simp [evictable, hheld, hstill p hwaits]
    subst hnone
    simp [makeRoom, full, hne, hr]

/-- In a full pool no room is found if too many events may be evicted at a time. -/
theorem makeRoom_overflow (full : hub.pool.isFull = true)
    (vast : 2 ^ 61 ≤ hub.config.evictTarget.toNat) : hub.makeRoom = (.overflow, hub) := by
  have hne : hub.config.evictTarget.toNat ≠ 0 := by omega
  have hr : hub.queue.removeMatching hub.config.evictTarget.toNat hub.evictable = none :=
    Queue.removeMatching_eq_none.mpr vast
  simp [makeRoom, full, hne, hr]

/-- What is left when some of the events that wait are taken out. -/
theorem kept_eq_filter {kept all : List (Posting σ)} (once : (all.map Posting.serial).Nodup)
    (perm : (evicted ++ kept).Perm all) (order : kept.Sublist all) :
    kept = all.filter fun p => p.serial ∉ evicted.map Posting.serial := by
  have hnodup := (perm.map Posting.serial).nodup_iff.mpr once
  rw [List.map_append, List.nodup_append] at hnodup
  have hkept : kept.filter (fun p => p.serial ∉ evicted.map Posting.serial) = kept := by
    refine List.filter_eq_self.mpr fun p hp => decide_eq_true fun he => ?_
    exact hnodup.2.2 _ he _ (List.mem_map_of_mem hp) rfl
  have hevicted : evicted.filter (fun p => p.serial ∉ evicted.map Posting.serial) = [] := by
    refine List.filter_eq_nil_iff.mpr fun p hp => ?_
    simpa using ⟨p, hp, rfl⟩
  have hlength := (perm.filter fun p => p.serial ∉ evicted.map Posting.serial).length_eq
  rw [List.filter_append, hevicted, List.nil_append, hkept] at hlength
  have hsub := order.filter fun p => p.serial ∉ evicted.map Posting.serial
  rw [hkept] at hsub
  exact hsub.eq_of_length hlength

end Hub

namespace Machine

open Hub

variable {m m' m₁ : Machine σ} {hub hub₁ hub' : Hub σ} {frame next : Frame σ}
  {rest lower : List (Frame σ)} {way : Way} {posting : Posting σ} {evicted : List (Posting σ)}
  {handles : List Handle} {error error' : Fatal}

/-- The machine is about to post a critical event, and to go on with `next`. -/
inductive PostsCritical : Machine σ → Way → Posting σ → Frame σ → List (Frame σ) → Prop
  | event {hub r a} {actor : Actor σ r a} {event free next rest} :
      PostsCritical ⟨hub, .code actor (.post event free next) :: rest⟩ .critical
        ⟨hub.postings, critical event, .ofCallback free⟩ (.code actor next) rest
  /-- A system event, which carries work. -/
  | work {hub r a} {actor : Actor σ r a} {work next rest} :
      PostsCritical ⟨hub, .code actor (.request work next) :: rest⟩ (wayOf work)
        ⟨hub.postings, .system work.kind, .work work⟩ (.code actor (next true)) rest

/-- By its own steps the machine comes to a fatal error before it goes on with `lower`. -/
inductive FailsBefore (lower : List (Frame σ)) : Machine σ → Hub σ → Fatal → Prop
  | now {m : Machine σ} {hub : Hub σ} {error : Fatal} (h : m.step = .failed hub error) :
      FailsBefore lower m hub error
  | later {m m' : Machine σ} {hub : Hub σ} {error : Fatal} (h : m.step = .stepped m')
      (above : m'.frames ≠ lower) (fails : FailsBefore lower m' hub error) :
      FailsBefore lower m hub error

theorem FailsBefore.unique (h : m.FailsBefore lower hub error)
    (h' : m.FailsBefore lower hub' error') : hub' = hub ∧ error' = error := by
  induction h with
  | now hs =>
    cases h' with
    | now hs' =>
      rw [hs] at hs'
      cases hs'
      exact ⟨rfl, rfl⟩
    | later hs' =>
      rw [hs] at hs'
      cases hs'
  | later hs above fails ih =>
    cases h' with
    | now hs' =>
      rw [hs] at hs'
      cases hs'
    | later hs' _ fails' =>
      rw [hs] at hs'
      cases hs'
      exact ih fails'

/-- A machine that goes on with `lower` did not fail before. -/
theorem FailsBefore.not_runs (h : m.FailsBefore lower hub error) (hs : m.step = .stepped m₁)
    (hr : m₁.Runs ⟨hub', lower⟩) : False := by
  induction h generalizing m₁ with
  | now hn =>
    rw [hs] at hn
    cases hn
  | later hn above fails ih =>
    rw [hs] at hn
    cases hn
    rcases hr.cases_head with rfl | ⟨m₂, hs₂, hr₂⟩
    · exact above rfl
    · exact ih hs₂ hr₂

theorem FailsBefore.runs (h : m.FailsBefore lower hub error) :
    ∃ m', m.Runs m' ∧ m'.step = .failed hub error := by
  induction h with
  | now hs => exact ⟨_, .refl, hs⟩
  | later hs _ _ ih =>
    obtain ⟨m', hruns, hfails⟩ := ih
    exact ⟨m', .head hs hruns, hfails⟩

namespace PostsCritical

theorem system (hp : m.PostsCritical way posting next rest) :
    posting.serial = m.hub.postings ∧ posting.event.sender = systemId ∧
      posting.event.lowPriority = false := by
  cases hp with
  | event | work => exact ⟨rfl, rfl, rfl⟩

theorem held (hp : m.PostsCritical way posting next rest) :
    m.cargo.filterMap Cargo.handle? = (rest.flatMap Frame.cargo).filterMap Cargo.handle? ∧
      next.cargo.filterMap Cargo.handle? = [] := by
  have hcode : ∀ {r : Reach} {a : Answer} (actor : Actor σ r a) (routine : Routine σ r a),
      (Frame.code actor routine).cargo.filterMap Cargo.handle? = [] :=
    fun actor routine => ((Frame.code actor routine).held_eq).symm
  cases hp with
  | event | work =>
    simp only [cargo, List.flatMap_cons, List.filterMap_append, hcode, List.nil_append, and_self]

/-- On a running hub the post looks for room, and then the code goes on. -/
theorem step (hp : m.PostsCritical way posting next rest) (running : m.hub.running = true) :
    ∃ frame, m.frames = frame :: rest ∧ frame.step m.hub =
      ((m.hub.offer way posting.event posting.completion).2.postRunning posting).above [next] := by
  cases hp with
  | @event hub r a actor event free next rest =>
    have hpost : (hub.offer .critical (critical event) (.ofCallback free)).2.postCritical
        (hub.offer .critical (critical event) (.ofCallback free)).1 = _ := if_pos running
    exact ⟨_, rfl, congrArg (Effect.above · [.code actor next]) hpost⟩
  | @work hub r a actor work next rest =>
    have hrunning :
        (hub.offer (wayOf work) (.system work.kind) (.work work)).2.running = true := running
    refine ⟨_, rfl, ?_⟩
    simp only [Frame.step, Routine.step, Hub.request, hrunning, if_true]
    rfl

theorem goes (hp : m.PostsCritical way posting next rest) (running : m.hub.running = true)
    {handles : List Handle} (make : (m.hub.offer way posting.event
      posting.completion).2.makeRoom = (.found handles, hub')) :
    m.step = .stepped ⟨hub', .evict handles :: .enqueue posting :: next :: rest⟩ := by
  obtain ⟨frame, hframes, hstep⟩ := hp.step running
  rw [postRunning, make] at hstep
  simp only [Machine.step, hframes, hstep, Effect.above]
  rfl

theorem fails (hp : m.PostsCritical way posting next rest) (running : m.hub.running = true)
    (h : (m.hub.offer way posting.event posting.completion).2.postRunning posting =
      .fail hub' error) : m.step = .failed hub' error := by
  obtain ⟨frame, hframes, hstep⟩ := hp.step running
  rw [h] at hstep
  simp only [Machine.step, hframes, hstep, Effect.above]

end PostsCritical

private theorem capacity_vacate {cargo : List (Cargo σ)} {handle : Handle}
    (ht : hub.Tidy (.spent handle :: cargo)) :
    (hub.vacate handle).pool.capacity = hub.pool.capacity := by
  have hs := ht.sound.perm List.perm_middle
  obtain ⟨pool, heq, -, hcapacity, -⟩ := hs.release (List.mem_cons_self ..)
  simp only [Hub.vacate, heq]
  exact hcapacity

private theorem capacity_posted {live : List Handle} {frames : List (Frame σ)}
    (hs : hub.pool.Sound live) (h : hub.Posted posting hub' frames) :
    hub'.pool.capacity = hub.pool.capacity := by
  rcases posted_cases hs h with
    ⟨-, -, handle, admits, -⟩ | ⟨-, evicted, evicts, -⟩ | ⟨-, calm, -⟩ |
    ⟨callback, hub₁, -, calm, rfl, -⟩ | ⟨work, -, -, rfl, -⟩
  · exact admits.capacity
  · rw [evicts.pool]
  · exact calm.capacity
  · exact calm.capacity
  · rfl

theorem Reachable.capacity_step {frames : List (Frame σ)}
    (hm : Reachable ⟨hub, frame :: rest⟩) (h : frame.step hub = .go hub' frames) : hub'.pool.capacity = hub.pool.capacity := by
  have ht : hub.Tidy (frame.cargo ++ rest.flatMap Frame.cargo) := hm.tidy
  cases hm.traffic h with
  | pass calm => exact calm.capacity
  | post calm _ calm' _ _ posted =>
    have htidy := ((ht.calm calm).offer _ _ _).calm calm'
    exact (capacity_posted htidy.sound posted).trans (calm'.capacity.trans calm.capacity)
  | enqueue he =>
    obtain ⟨handle, admits, -⟩ := enqueue_true ht.sound he
    exact admits.capacity
  | evict held hd =>
    obtain ⟨news, rfl, -⟩ := detach_eq hd
    rfl
  | vacate => exact capacity_vacate ht
  | pop calm hp =>
    obtain ⟨queue, -, rfl⟩ := pop?_eq_some hp
    exact calm.capacity
  | hollow mem held => exact absurd held (ht.not_hollow mem)
  | dispatch | discard | leave | forget => rfl
  | deliver calm | free _ calm | work _ calm => exact calm.capacity

theorem Reachable.capacity_eq (hm : m.Reachable) (hr : m.Reaches m') :
    m'.hub.pool.capacity = m.hub.pool.capacity := by
  refine hr.keeps (P := fun hub _ => hub.pool.capacity = m.hub.pool.capacity) rfl ?_
    fun _ _ h => h
  intro hub hub' frame frames rest hr h hgo
  exact ((hm.reaches hr).capacity_step hgo).trans h

theorem Reachable.allocated_eq (hm : m.Reachable) : m.hub.pool.allocated.toNat =
    m.hub.waiting.length + (m.cargo.filterMap Cargo.handle?).length := by
  rw [hm.tidy.sound.allocated, List.length_append, hm.tidy.forall₂_waiting.length_eq]

theorem Reachable.serials_nodup (hm : m.Reachable) :
    (m.hub.waiting.map Posting.serial).Nodup := by
  rw [line_eq]
  exact hm.lined.once.sublist hm.lined.order

/-- Once room is made, what was evicted is released and the event is queued. -/
theorem queued_behind (hm : Reachable ⟨hub, .evict handles :: .enqueue posting :: rest⟩)
    (held : List.Forall₂ (fun k p => hub.pool.inspect k = some p) handles evicted)
    (silent : ∀ p ∈ evicted, p.FreesAtMost 0) (room : 0 < hub.room + handles.length) :
    ∃ hub', Runs ⟨hub, .evict handles :: .enqueue posting :: rest⟩ ⟨hub', rest⟩ ∧
      hub'.waiting = hub.waiting ++ [posting.stamped hub'.now] ∧
      partings hub'.journal = (evicted.flatMap Posting.parting).reverse ++ partings hub.journal ∧
      hub'.losses = hub.losses ∧ hub'.loopSide = hub.loopSide := by
  obtain ⟨hub₁, hruns, hreleases, hroom⟩ := releases_still held silent hm
  have hm₁ := hm.reaches hruns.reaches
  have ht := hm₁.tidy
  have hfree : 0 < hub₁.room := by omega
  obtain ⟨hub', he, -, -, -, hwaiting, -⟩ := ht.enqueue hfree posting
  obtain ⟨handle, admits, -, -⟩ := enqueue_true ht.sound he
  have hstep : (Frame.enqueue posting).step hub₁ = .go hub' [] := by
    simp only [Frame.step, he]
  have hlosses := losses_enqueue hub₁ posting
  have hside := loopSide_enqueue hub₁ posting
  rw [he] at hlosses hside
  refine ⟨hub', hruns.trans (Runs.of_go hstep), ?_, ?_, hlosses.trans hreleases.losses,
    hside.trans hreleases.side⟩
  · rw [hwaiting, hreleases.queues.waiting, List.append_nil]
  · obtain ⟨news, hj, hq⟩ := admits.journal
    have hadmitted : partings hub'.journal = partings (news ++ hub₁.journal) := by
      rw [hj]
      rfl
    rw [hadmitted, partings_append hq, hreleases.partings]

/-- A critical post for which there is room returns, and the event is queued. -/
theorem admitted_of_room (hm : m.Reachable) (hp : m.PostsCritical way posting next rest)
    (running : m.hub.running = true) (silent : ∀ p ∈ evicted, p.FreesAtMost 0)
    (make : (m.hub.offer way posting.event posting.completion).2.makeRoom =
      (.found handles, hub₁))
    (held : List.Forall₂ (fun k p => m.hub.pool.inspect k = some p) handles evicted)
    (room : 0 < m.hub.room + handles.length) :
    ∃ m₁ hub', m.step = .stepped m₁ ∧ m₁.Runs ⟨hub', next :: rest⟩ ∧
      m.hub.Admitted evicted posting hub' := by
  have hstep := hp.goes running make
  have hm₁ := hm.move (.step hstep)
  have evicts := makeRoom_evicts make
  have hroom₁ : hub₁.room = m.hub.room := by
    rw [Hub.room, evicts.pool, Hub.room]
    rfl
  have hheld : List.Forall₂ (fun k p => hub₁.pool.inspect k = some p) handles evicted := by
    rw [evicts.pool]
    exact held
  obtain ⟨hub', hruns, hwaiting, hpartings, hlosses, hside⟩ :=
    queued_behind hm₁ hheld silent (by omega)
  obtain ⟨hperm, horder⟩ : (evicted ++ hub₁.waiting).Perm m.hub.waiting ∧
      hub₁.waiting.Sublist m.hub.waiting := evicts.divides held
  have hkept := kept_eq_filter hm.serials_nodup hperm horder
  refine ⟨_, hub', hstep, hruns, ?_, ?_, ?_, ?_, ?_⟩
  · rw [hwaiting, hkept]
  · rw [hpartings, evicts.journal]
    rfl
  · have hm' := hm₁.reaches hruns.reaches
    have hbefore := hm.allocated_eq
    have hafter := hm'.allocated_eq
    obtain ⟨hheldBefore, hheldNext⟩ := hp.held
    have hheldAfter : (cargo ⟨hub', next :: rest⟩).filterMap Cargo.handle? =
        (rest.flatMap Frame.cargo).filterMap Cargo.handle? := by
      simp only [cargo, List.flatMap_cons, List.filterMap_append, hheldNext, List.nil_append]
    have hlength := hperm.length_eq
    rw [List.length_append] at hlength
    have hwaits : hub'.waiting.length = hub₁.waiting.length + 1 := by
      rw [hwaiting, List.length_append, List.length_singleton]
    have hsame : (m.hub.offer way posting.event posting.completion).2.waiting.length =
        m.hub.waiting.length := rfl
    rw [hheldAfter] at hafter
    rw [hheldBefore] at hbefore
    simp only at hafter
    omega
  · have hdropped : hub'.dropped = hub₁.dropped := congrArg Prod.fst hlosses
    rw [hdropped, makeRoom_dropped make, held.length_eq]
    rfl
  · have hmade := loopSide_makeRoom (m.hub.offer way posting.event posting.completion).2
    rw [make] at hmade
    exact hside.trans hmade

/-- A critical post into a pool with a free slot returns, and nothing is evicted for it. -/
theorem admitted_free (hm : m.Reachable) (hp : m.PostsCritical way posting next rest)
    (running : m.hub.running = true) (free : m.hub.pool.isFull = false) :
    ∃ m₁ hub', m.step = .stepped m₁ ∧ m₁.Runs ⟨hub', next :: rest⟩ ∧
      m.hub.Admitted [] posting hub' := by
  have make : (m.hub.offer way posting.event posting.completion).2.makeRoom =
      (.found [], (m.hub.offer way posting.event posting.completion).2) := by
    have hsame : (m.hub.offer way posting.event posting.completion).2.pool.isFull = false := free
    simp [makeRoom, hsame]
  have hroom : 0 < m.hub.room := by
    refine Nat.pos_of_ne_zero fun hzero => ?_
    rw [isFull_iff_room.mpr hzero] at free
    cases free
  exact admitted_of_room hm hp running (by simp) make .nil hroom

/-- A critical post into a full pool is a fatal error if there is nothing to evict, and nothing was
evicted. -/
theorem fails_of_scarce (hm : m.Reachable) (hp : m.PostsCritical way posting next rest)
    (running : m.hub.running = true) (full : m.hub.pool.isFull = true)
    (reserved : m.hub.config.evictTarget.toNat < 2 ^ 61) (found : m.hub.evictees = []) :
    ∃ hub' error, m.FailsBefore (next :: rest) hub' error ∧ m.hub.Untouched hub' ∧
      error ≠ .capacityOverflow := by
  by_cases target : m.hub.config.evictTarget = 0
  · -- Nothing is to be evicted, and the event finds no slot.
    have make : (m.hub.offer way posting.event posting.completion).2.makeRoom =
        (.found [], (m.hub.offer way posting.event posting.completion).2) := by
      have hzero : (m.hub.offer way posting.event posting.completion).2.config.evictTarget = 0 :=
        target
      simp [makeRoom, hzero]
    have hstep := hp.goes running make
    have hm₁ := hm.move (.step hstep)
    have hevict : step ⟨(m.hub.offer way posting.event posting.completion).2,
        .evict [] :: .enqueue posting :: next :: rest⟩ =
        .stepped ⟨(m.hub.offer way posting.event posting.completion).2,
          .enqueue posting :: next :: rest⟩ := rfl
    have hm₂ := hm₁.move (.step hevict)
    obtain ⟨hub₁, he, calm⟩ := enqueue_full hm₂.tidy.sound
      (hm₂.tidy.sound.isFull_iff.mp full) posting
    have hfail : step ⟨(m.hub.offer way posting.event posting.completion).2,
        .enqueue posting :: next :: rest⟩ =
        .failed (hub₁.log (.fatal (.notAdmitted posting.event.type)))
          (.notAdmitted posting.event.type) := by
      simp only [Machine.step, Frame.step, he, Hub.fail]
    have hlosses := losses_enqueue (m.hub.offer way posting.event posting.completion).2 posting
    rw [he] at hlosses
    have still : (m.hub.offer way posting.event posting.completion).2.Calm
        (hub₁.log (.fatal (.notAdmitted posting.event.type))) := calm.log rfl
    refine ⟨_, _, .later hstep ?_ (.later hevict ?_ (.now hfail)),
      ⟨?_, ?_, congrArg Prod.fst hlosses⟩, by simp⟩
    · exact fun he => absurd (congrArg List.length he) (by simp only [List.length_cons]; omega)
    · exact fun he => absurd (congrArg List.length he) (by simp only [List.length_cons]; omega)
    · exact waiting_congr (by rw [still.queue]; rfl) fun k _ => still.inspect k
    · obtain ⟨news, hj, hq⟩ := still.journal
      rw [hj, partings_append hq]
      rfl
  · have make : (m.hub.offer way posting.event posting.completion).2.makeRoom =
        (.nothing, (m.hub.offer way posting.event posting.completion).2.log .nothingToEvict) :=
      makeRoom_nothing full target reserved found
    have hstep := hp.fails running (by rw [postRunning, make]; rfl)
    exact ⟨_, _, .now hstep, ⟨rfl, rfl, rfl⟩, by simp⟩

/-- A critical post into a full pool is also a fatal error if too many events may be evicted, whatever
is queued. -/
theorem fails_of_vast (hp : m.PostsCritical way posting next rest)
    (running : m.hub.running = true) (full : m.hub.pool.isFull = true)
    (vast : 2 ^ 61 ≤ m.hub.config.evictTarget.toNat) :
    ∃ hub', m.FailsBefore (next :: rest) hub' .capacityOverflow ∧ m.hub.Untouched hub' := by
  have make : (m.hub.offer way posting.event posting.completion).2.makeRoom =
      (.overflow, (m.hub.offer way posting.event posting.completion).2) :=
    makeRoom_overflow full vast
  have hstep := hp.fails running (by rw [postRunning, make])
  exact ⟨_, .now hstep, rfl, rfl, rfl⟩

/-- What a post does to the queue, exactly. A critical post into a full pool fails where nothing may
be evicted, and also where so many events may be evicted at a time that no room can be reserved for
them. -/
theorem admission_exact (hm : m.Reachable) :
    m.hub.evictees.length = min m.hub.config.evictTarget.toNat
      (m.hub.waiting.countP fun p => p.event.isEvictable) ∧
    (∀ way posting next rest, m.PostsCritical way posting next rest → m.hub.running = true →
      (∀ p ∈ m.hub.waiting, p.FreesAtMost 0) →
        posting.event.sender = systemId ∧ posting.event.lowPriority = false ∧
        (m.hub.pool.isFull = false → ∃ m₁ hub', m.step = .stepped m₁ ∧
          m₁.Runs ⟨hub', next :: rest⟩ ∧ m.hub.Admitted [] posting hub') ∧
        (m.hub.pool.isFull = true → m.hub.evictees ≠ [] →
          m.hub.config.evictTarget.toNat < 2 ^ 61 → ∃ m₁ hub', m.step = .stepped m₁ ∧
          m₁.Runs ⟨hub', next :: rest⟩ ∧ m.hub.Admitted m.hub.evictees posting hub') ∧
        ((∃ hub' error, m.FailsBefore (next :: rest) hub' error) ↔ m.hub.pool.isFull = true ∧
          (m.hub.config.evictTarget = 0 ∨ (∀ p ∈ m.hub.waiting, p.event.isEvictable = false) ∨
            2 ^ 61 ≤ m.hub.config.evictTarget.toNat)) ∧
        ∀ hub' error, m.FailsBefore (next :: rest) hub' error → m.hub.Untouched hub' ∧
          (error = .capacityOverflow ↔ 2 ^ 61 ≤ m.hub.config.evictTarget.toNat)) ∧
    ∀ event free after rest, m.PostsLow event free after rest →
      ∃ accepted hub' upper, m.step = .stepped ⟨hub', upper ++ after accepted :: rest⟩ ∧
        (accepted = true ↔
          m.hub.running = true ∧ ¬m.hub.Refuses event ∧ m.hub.pool.isFull = false) ∧
        hub'.waiting = m.hub.waiting ++
          (if accepted then [(lowPosting m.hub event free).stamped m.hub.now] else []) ∧
        evictions hub'.journal = evictions m.hub.journal := by
  refine ⟨m.hub.length_evictees, fun way posting next rest hp running silent => ?_,
    fun event free after rest hp => ?_⟩
  · have room : m.hub.pool.isFull = false → ∃ m₁ hub', m.step = .stepped m₁ ∧
        m₁.Runs ⟨hub', next :: rest⟩ ∧ m.hub.Admitted [] posting hub' :=
      admitted_free hm hp running
    have full : m.hub.pool.isFull = true → m.hub.evictees ≠ [] →
        m.hub.config.evictTarget.toNat < 2 ^ 61 → ∃ m₁ hub', m.step = .stepped m₁ ∧
          m₁.Runs ⟨hub', next :: rest⟩ ∧ m.hub.Admitted m.hub.evictees posting hub' := by
      intro hfull found reserved
      obtain ⟨handles, hub₁, make, -, -, held⟩ :=
        (hm.tidy.offer way posting.event posting.completion).makeRoom_full hfull found reserved
      have silent' : ∀ p ∈ m.hub.evictees, p.FreesAtMost 0 := fun p hp =>
        silent p (List.mem_reverse.mp (List.mem_filter.mp (List.mem_of_mem_take hp)).1)
      have hlength : 0 < handles.length := by
        rw [held.length_eq]
        exact List.length_pos_of_ne_nil found
      exact admitted_of_room hm hp running silent' make held (by omega)
    have fails : m.hub.pool.isFull = true → m.hub.evictees = [] ∨
        2 ^ 61 ≤ m.hub.config.evictTarget.toNat → ∃ hub' error,
          m.FailsBefore (next :: rest) hub' error ∧ m.hub.Untouched hub' ∧
          (error = .capacityOverflow ↔ 2 ^ 61 ≤ m.hub.config.evictTarget.toNat) := by
      intro hfull hnone
      by_cases vast : 2 ^ 61 ≤ m.hub.config.evictTarget.toNat
      · obtain ⟨hub', hfails, untouched⟩ := fails_of_vast hp running hfull vast
        exact ⟨hub', _, hfails, untouched, iff_of_true rfl vast⟩
      · obtain ⟨hub', error, hfails, untouched, other⟩ :=
          fails_of_scarce hm hp running hfull (by omega) (hnone.resolve_right vast)
        exact ⟨hub', error, hfails, untouched, iff_of_false other vast⟩
    -- A post that does not fail as above goes on, and then it never fails.
    have onlyThen : ∀ hub' error, m.FailsBefore (next :: rest) hub' error →
        m.hub.pool.isFull = true ∧
          (m.hub.evictees = [] ∨ 2 ^ 61 ≤ m.hub.config.evictTarget.toNat) := by
      intro hub' error hfails
      by_contra hno
      cases hfull : m.hub.pool.isFull with
      | false =>
        obtain ⟨m₁, hub₁, hstep, hruns, -⟩ := room hfull
        exact hfails.not_runs hstep hruns
      | true =>
        obtain ⟨found, reserved⟩ := not_or.mp fun h => hno ⟨hfull, h⟩
        obtain ⟨m₁, hub₁, hstep, hruns, -⟩ := full hfull found (Nat.lt_of_not_le reserved)
        exact hfails.not_runs hstep hruns
    obtain ⟨-, system, critical⟩ := hp.system
    refine ⟨system, critical, room, full, ⟨?_, ?_⟩, ?_⟩
    · rintro ⟨hub', error, hfails⟩
      rw [← or_assoc, ← evictees_eq_nil]
      exact onlyThen hub' error hfails
    · rintro ⟨hfull, hnone⟩
      rw [← or_assoc, ← evictees_eq_nil] at hnone
      obtain ⟨hub', error, hfails, -⟩ := fails hfull hnone
      exact ⟨hub', error, hfails⟩
    · intro hub' error hfails
      obtain ⟨hfull, hnone⟩ := onlyThen hub' error hfails
      obtain ⟨hub₁, error₁, hfails₁, untouched, which⟩ := fails hfull hnone
      obtain ⟨rfl, rfl⟩ := hfails₁.unique hfails
      exact ⟨untouched, which⟩
  · obtain ⟨accepted, hub', upper, hpost, haccepted, hwaiting, hevictions⟩ :=
      (hm.tidy.offer .low { event with lowPriority := true } (.ofCallback free)).postDroppable
        (lowPosting m.hub event free)
    exact ⟨accepted, hub', upper, hp.stepped hpost, haccepted, hwaiting, hevictions⟩

/-- Two events make room for a critical one. -/
theorem admission_exact_overfill :
    ∃ hub', ((overfill none none).advance 2).1.Runs ⟨hub', [.code (.loop .outside) (.done ())]⟩ ∧
      hub'.dropped = 2 ∧ hub'.waiting.length = 1 := by
  obtain ⟨hub, now, now', heq, hm, running, full, hlength, htarget, hevictees⟩ :=
    overfill_full none none
  have hdropped : hub.dropped = 0 := by
    have hcount : ((overfill none none).advance 2).1.hub.dropped = 0 := by decide +kernel
    rw [heq] at hcount
    exact hcount
  have hwaiting : hub.waiting = [(filler 0 none).stamped now', (filler 1 none).stamped now] := by
    have hsub : hub.evictees.Sublist hub.waiting.reverse :=
      (List.take_sublist _ _).trans List.filter_sublist
    have hall := hsub.eq_of_length (by rw [List.length_reverse, hlength, hevictees]; rfl)
    rw [← List.reverse_reverse hub.waiting, ← hall, hevictees]
    rfl
  rw [heq] at hm ⊢
  have hsilent : ∀ p ∈ hub.waiting, p.FreesAtMost 0 := by
    rw [hwaiting]
    simp [filler_frees]
  obtain ⟨-, hcritical, -⟩ := admission_exact hm
  obtain ⟨-, -, -, hfull, -⟩ := hcritical _ _ _ _ .event running hsilent
  obtain ⟨m₁, hub', hstep, hruns, admitted⟩ := hfull full (by rw [hevictees]; simp)
    (show hub.config.evictTarget.toNat < 2 ^ 61 by omega)
  refine ⟨hub', .head hstep hruns, ?_, ?_⟩
  · rw [admitted.dropped, hdropped, hevictees]
    rfl
  · rw [admitted.waiting, hwaiting, hevictees]
    simp [filler, Posting.stamped]

/-- Too many events may be evicted at a time. The event that could be is not, and the post fails. -/
theorem admission_fails_vastTarget :
    ∃ (m : Machine Unit) (hub : Hub Unit) (event : Event),
      m.Reachable ∧ m.frames = [.code (.loop .outside) (.post event none (.done ()))] ∧
      m.hub.running = true ∧ (∀ p ∈ m.hub.waiting, p.FreesAtMost 0) ∧ m.hub.pool.isFull = true ∧
      m.hub.config.evictTarget ≠ 0 ∧ (∃ p ∈ m.hub.waiting, p.event.isEvictable = true) ∧
      m.step = .failed hub .capacityOverflow := by
  have hm : ((replace 0x2000000000000000).advance 1).1.Reachable :=
    ⟨_, isStart_iff.mpr ⟨_, .none, (), 0, _, rfl, rfl⟩, reaches_unfinished (by decide +kernel)⟩
  have hwaiting : ((replace 0x2000000000000000).advance 1).1.hub.waiting =
      [(filler 0 none).stamped 0] := rfl
  refine ⟨_, _, Event.new EventType.firstUser, hm, rfl, rfl, ?_, rfl, by decide, ?_, rfl⟩
  · rw [hwaiting]
    simp [filler_frees]
  · rw [hwaiting]
    exact ⟨_, List.mem_singleton_self _, rfl⟩

end Machine

end SensorHub
