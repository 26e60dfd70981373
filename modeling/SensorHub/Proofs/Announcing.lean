import SensorHub.Proofs.Service

namespace SensorHub

variable {σ : Type}

namespace Hub

variable {hub hub' : Hub σ} {frames : List (Frame σ)}

theorem announcements_deliverTo (hub : Hub σ) (index : Nat) (app : App σ) (serial : Option Nat)
    (event : Event) (hasCallback : Bool) :
    announcements (hub.deliverTo index app serial event hasCallback).1.journal =
      announcements hub.journal := by
  have hsame := announcements_checkLatency hub event app.nanoapp.info.instanceId
  exact hsame

theorem announcements_load {app : App σ} {client : LoadClient σ}
    (h : hub.load app client = .go hub' frames) :
    announcements hub'.journal = announcements hub.journal := by
  rcases load_cases h with ⟨reason, rfl, -⟩ | ⟨id, hub₁, -, -, rfl, rfl, -⟩
  · rfl
  · rfl

/-- What is announced is numbered and recorded. While the hub runs room is made for it; when the
hub has stopped, that is all. -/
theorem announce_eq {type : UInt16} {load : Nat} {info : Info}
    (h : hub.announce type load info = .go hub' frames) :
    hub'.journal = .announced hub.postings load type info ::
        .offered hub.postings .critical (.status type info) false :: hub.journal ∧
      ((hub.running = true ∧
          ∃ evicted, frames =
            [.evict evicted, .enqueue ⟨hub.postings, .status type info, .nothing⟩]) ∨
        (hub.running = false ∧ frames = [])) := by
  unfold announce postCritical at h
  dsimp only at h
  split at h
  next running =>
    obtain ⟨evicted, hm, rfl⟩ := postRunning_go h
    exact ⟨(makeRoom_evicts hm).journal, .inl ⟨running, evicted, rfl⟩⟩
  next stopped =>
    cases h
    exact ⟨rfl, .inr ⟨Bool.eq_false_iff.mpr stopped, rfl⟩⟩

end Hub

namespace Frame

/-- None of the frames takes down an app that has started. -/
def Stays (frames : List (Frame σ)) : Prop :=
  ∀ index, .remove index true ∉ frames

/-- What a step announces. -/
inductive Announces (hub : Hub σ) : Frame σ → Hub σ → List (Frame σ) → Prop
  /-- Nothing, and no app that has started is taken down, unless the registry is cleared. -/
  | mute {frame hub' frames} (same : announcements hub'.journal = announcements hub.journal)
      (stays : Stays frames ∨ frame = .clear)
      (unstarted : ∀ index stopping client,
        frame ≠ .code (.start index stopping client) (.done true)) : Announces hub frame hub' frames
  | started {index stopping client app hub' upper} (ha : hub.apps[index]? = some app)
      (h : (((hub.setCurrent none).record (.left app.nanoapp.load .start)).log
        (.started app.nanoapp.info)).announce EventType.nanoappStarted app.nanoapp.load
          app.nanoapp.info = .go hub' upper) :
      Announces hub (.code (.start index stopping client) (.done true)) hub'
        (upper ++ [.answer client (.ok app.nanoapp.info.instanceId)])
  | stopped {info previous index hub' upper} (found : hub.indexOf? info.instanceId = some index)
      (h : hub.announce EventType.nanoappStopped (hub.loadAt index) info = .go hub' upper) :
      Announces hub (.settle info true previous) hub'
        (upper ++ [.remove index true, .unmark info previous])

variable {hub hub' : Hub σ} {frame : Frame σ} {frames rest : List (Frame σ)}
  {below : List (Cargo σ)}

theorem Stays.append {lower : List (Frame σ)} (h : Stays frames) (hl : Stays lower) :
    Stays (frames ++ lower) := by
  intro index hm
  rcases List.mem_append.mp hm with hm | hm
  · exact h index hm
  · exact hl index hm

theorem stays_light (h : ∀ f ∈ frames, f.isLight = true) : Stays frames := by
  intro index hm
  have light := h _ hm
  cases light

theorem Rests.stays (h : frame.Rests hub frames) : Stays frames := by
  cases h with
  | flush | idle | drain => simp [Stays]

theorem Pops.stays {handle : Handle} (h : frame.Pops hub handle frames) : Stays frames := by
  cases h with
  | flush | idle | await | drain => simp [Stays]

private theorem mute_code {r : Reach} {a : Answer} {actor : Actor σ r a} {routine : Routine σ r a}
    (placed : ∀ i, actor.place? = some i → i < hub.apps.length)
    (unstarted : ∀ index stopping client,
      Frame.code actor routine ≠ .code (.start index stopping client) (.done true))
    (ho : Routine.Outcome hub actor routine hub' frames) :
    announcements hub'.journal = announcements hub.journal ∧ Stays frames := by
  cases ho with
  | quiet _ _ mute => exact ⟨mute, by simp [Stays]⟩
  | ended _ _ _ mute => exact ⟨mute, by simp [Stays]⟩
  | post kind posted =>
    have mute := Hub.announcements_posted posted
    exact ⟨mute, (stays_light (Hub.isLight_posted posted)).append (by simp [Stays])⟩
  | load hl =>
    refine ⟨Hub.announcements_load hl, ?_⟩
    rcases Hub.load_cases hl with ⟨reason, -, rfl⟩ | ⟨id, hub₁, -, -, -, -, rfl⟩
    · simp [Stays]
    · simp [Stays]
  | deliver ha => exact ⟨Hub.announcements_deliverTo .., by simp [Stays, Hub.deliverTo]⟩
  | @started index stopping client ok _ _ hs =>
    have ha := List.getElem?_eq_getElem (placed _ rfl)
    rcases Hub.finishStart_cases ha hs with ⟨rfl, -⟩ | ⟨-, other, -, -, rfl, rfl⟩
    · exact absurd rfl (unstarted index stopping client)
    · exact ⟨rfl, by simp [Stays]⟩
  | tuned | unload | idle | run | message | left => exact ⟨rfl, by simp [Stays]⟩

private theorem mute_perform {serial : Nat} {work : SystemWork σ}
    (h : hub.perform serial work = .go hub' frames) :
    announcements hub'.journal = announcements hub.journal ∧ Stays frames := by
  rcases Hub.perform_cases h with
    ⟨-, rfl, rfl⟩ | ⟨app, -, -, hl⟩ | ⟨app, -, -, rfl, rfl⟩ | ⟨id, force, app, -, -, -, rfl, rfl⟩ |
    ⟨id, force, report, reason, -, -, rfl, rfl⟩ | ⟨kind, routine, -, rfl, rfl⟩
  · exact ⟨rfl, by simp [Stays]⟩
  · refine ⟨Hub.announcements_load hl, ?_⟩
    rcases Hub.load_cases hl with ⟨reason, -, rfl⟩ | ⟨id, hub₁, -, -, -, -, rfl⟩
    · simp [Stays]
    · simp [Stays]
  · exact ⟨rfl, by simp [Stays]⟩
  · exact ⟨rfl, by simp [Stays]⟩
  · exact ⟨rfl, by simp [Stays]⟩
  · exact ⟨rfl, by simp [Stays]⟩

theorem announcements_light (light : frame.isLight = true) (h : frame.step hub = .go hub' frames) :
    announcements hub'.journal = announcements hub.journal := by
  cases frame with
  | code actor routine =>
    have placed : ∀ i, actor.place? = some i → i < hub.apps.length := by
      intro i hi
      have hnone := index?_of_isLight light
      exact absurd (hnone.symm.trans hi) (by simp)
    refine (mute_code placed (fun index stopping client he => ?_)
      (Routine.step_outcome placed h)).1
    rw [he] at light
    cases light
  | evict handles =>
    cases handles with
    | nil =>
      cases h
      rfl
    | cons handle handles =>
      have hreleased : announcements (hub.releaseEvicted handle).1.journal =
          announcements hub.journal := by
        rcases Hub.releaseEvicted_cases hub handle with ⟨posting, -, hr⟩ | ⟨-, hr⟩
        · rw [hr]
          exact Hub.announcements_detach ..
        · rw [hr]
          rfl
      cases h
      exact hreleased
  | vacate handle =>
    cases h
    exact Hub.announcements_logAll ..
  | enqueue posting =>
    have hsame := Hub.announcements_enqueue hub posting
    simp only [step] at h
    split at h
    next _ he =>
      cases h
      rw [he] at hsame
      exact hsame
    next => cases h
  | _ => cases light

/-- Every step announces nothing, or that an app has started, or that it is to stop. -/
theorem step_announces (placed : ∀ i, frame.index? = some i → i < hub.apps.length)
    (h : frame.step hub = .go hub' frames) : frame.Announces hub hub' frames := by
  have mute : (∀ index stopping client,
        frame ≠ .code (.start index stopping client) (.done true)) →
      announcements hub'.journal = announcements hub.journal ∧ Stays frames →
      frame.Announces hub hub' frames :=
    fun unstarted hmute => .mute hmute.1 (.inl hmute.2) unstarted
  have light : frame.isLight = true → frame.Announces hub hub' frames := by
    intro hlight
    refine mute (fun index stopping client he => ?_)
      ⟨announcements_light hlight h, stays_light (step_light hlight h).2⟩
    rw [he] at hlight
    cases hlight
  have takes : frame.takes = true → frame.Announces hub hub' frames := by
    intro htakes
    refine mute (fun index stopping client he => ?_) ?_
    · rw [he] at htakes
      cases htakes
    · obtain ⟨hub₁, hsample, ⟨rfl, rests⟩ | ⟨handle, hp, pops⟩⟩ := takes_cases htakes h
      · refine ⟨?_, rests.stays⟩
        rcases hsample with rfl | rfl
        · rfl
        · rfl
      · refine ⟨?_, pops.stays⟩
        obtain ⟨queue, -, rfl⟩ := Hub.pop?_eq_some hp
        rcases hsample with rfl | rfl
        · rfl
        · rfl
  cases frame with
  | code actor routine =>
    by_cases hstart : ∃ index stopping client,
        Frame.code actor routine = .code (.start index stopping client) (.done true)
    · obtain ⟨index, stopping, client, he⟩ := hstart
      rw [he] at placed h ⊢
      have ha := List.getElem?_eq_getElem (placed index rfl)
      have hend : hub.finishStart index client true = .go hub' frames := h
      rcases Hub.finishStart_cases ha hend with ⟨-, upper, hgo, rfl⟩ | ⟨hno, -⟩
      · exact .started ha hgo
      · cases hno
    · have unstarted : ∀ index stopping client,
          Frame.code actor routine ≠ .code (.start index stopping client) (.done true) :=
        fun index stopping client he => hstart ⟨index, stopping, client, he⟩
      exact mute unstarted (mute_code placed unstarted (Routine.step_outcome placed h))
  | evict | vacate | enqueue => exact light rfl
  | flush | drain | await | idle => exact takes rfl
  | settle info started previous =>
    rcases Hub.settleUnload_cases h with
      ⟨-, rfl, rfl⟩ | ⟨index, found, ⟨rfl, upper, hgo, rfl⟩ | ⟨rfl, rfl, rfl⟩⟩
    · exact mute (by simp) ⟨rfl, by simp [Stays]⟩
    · exact .stopped found hgo
    · exact mute (by simp) ⟨rfl, by simp [Stays]⟩
  | dispatch handle =>
    rcases Hub.dispatch_cases h with ⟨posting, -, rfl, rfl⟩ | ⟨-, rfl, rfl⟩
    · exact mute (by simp) ⟨rfl, by simp [Stays]⟩
    · exact mute (by simp) ⟨rfl, by simp [Stays]⟩
  | discard handle =>
    rcases Hub.discard_cases h with ⟨rfl, ⟨posting, -, rfl⟩ | ⟨-, rfl⟩⟩
    · exact mute (by simp) ⟨rfl, by simp [Stays]⟩
    · exact mute (by simp) ⟨rfl, by simp [Stays]⟩
  | distribute posting index reached =>
    rcases Hub.offerTo_cases h with
      ⟨app, -, -, rfl, rfl⟩ | ⟨app, -, -, rfl, rfl⟩ | ⟨-, hcount, rfl⟩
    · exact mute (by simp) ⟨Hub.announcements_deliverTo .., by simp [Stays, Hub.deliverTo]⟩
    · exact mute (by simp) ⟨rfl, by simp [Stays]⟩
    · refine mute (by simp) ⟨?_, by simp [Stays]⟩
      rcases hcount with rfl | rfl
      · rfl
      · rfl
  | complete posting =>
    rcases Hub.complete_cases h with
      ⟨-, rfl, rfl⟩ | ⟨callback, instanceId, -, rfl, rfl⟩ | ⟨work, -, hw⟩
    · exact mute (by simp) ⟨rfl, by simp [Stays]⟩
    · exact mute (by simp) ⟨rfl, by simp [Stays]⟩
    · obtain ⟨hsame, hstays⟩ := mute_perform hw
      exact mute (by simp) ⟨hsame, hstays⟩
  | answer client result =>
    cases client with
    | routine actor next =>
      cases h
      exact mute (by simp) ⟨rfl, by simp [Stays]⟩
    | request appId =>
      cases result with
      | ok | error =>
        cases h
        exact mute (by simp) ⟨rfl, by simp [Stays]⟩
  | mark info started =>
    cases started with
    | true | false =>
      cases h
      exact mute (by simp) ⟨rfl, by simp [Stays]⟩
  | remove index started =>
    rcases Hub.removeAt_cases h with ⟨-, rfl, rfl⟩ | ⟨app, -, ⟨-, rfl, rfl⟩ | ⟨-, rfl, rfl⟩⟩
    · exact mute (by simp) ⟨rfl, by simp [Stays]⟩
    · exact mute (by simp) ⟨rfl, by simp [Stays]⟩
    · exact mute (by simp) ⟨rfl, by simp [Stays]⟩
  | release load info managers =>
    cases managers with
    | nil | cons =>
      cases h
      exact mute (by simp) ⟨rfl, by simp [Stays]⟩
  | turn handle =>
    cases h
    exact mute (by simp) ⟨Hub.announcements_rollWakeups hub, by simp [Stays]⟩
  | serve =>
    simp only [step] at h
    split at h
    all_goals
      cases h
      exact mute (by simp) ⟨rfl, by simp [Stays]⟩
  | clear =>
    refine .mute ?_ (.inr rfl) (by simp)
    simp only [step] at h
    split at h
    all_goals
      cases h
      rfl
  | delivered | restore | erase | unmark | cycle | endCycle | exit =>
    cases h
    exact mute (by simp) ⟨rfl, by simp [Stays]⟩

def deferred (cargo : List (Cargo σ)) : List Nat :=
  (cargo.filterMap Cargo.waiting?).map Posting.serial

theorem deferred_append (upper lower : List (Cargo σ)) :
    deferred (upper ++ lower) = deferred upper ++ deferred lower := by
  rw [deferred, List.filterMap_append, List.map_append, deferred, deferred]

theorem deferred_doomed (handles : List Handle) :
    deferred (handles.map .doomed : List (Cargo σ)) = [] := by
  induction handles with
  | nil => rfl
  | cons handle handles ih => exact ih

theorem deferred_reserved (evicted : List Handle) (posting : Posting σ) :
    deferred ([Frame.evict evicted, .enqueue posting].flatMap Frame.cargo) = [posting.serial] := by
  rw [List.flatMap_cons, deferred_append, Frame.cargo, deferred_doomed]
  rfl

theorem deferred_of_heavy (heavy : frame.isLight = false) : deferred frame.cargo = [] := by
  cases frame with
  | code actor routine =>
    cases actor with
    | entry index stopping point =>
      simp only [cargo]
      cases point.serial? with
      | none | some => rfl
    | _ => rfl
  | evict | vacate | enqueue => cases heavy
  | _ => rfl

/-- What waits for room waits below light frames only. -/
def Shielded (frames : List (Frame σ)) : Prop :=
  frames.Pairwise fun upper lower => upper.isLight = false → deferred lower.cargo = []

theorem Shielded.none_below (h : Shielded (frame :: rest)) (heavy : frame.isLight = false) :
    deferred ((frame :: rest).flatMap Frame.cargo) = [] := by
  have hbelow : deferred (rest.flatMap Frame.cargo) = [] := by
    have hrest := (List.pairwise_cons.mp h).1
    clear h
    induction rest with
    | nil => rfl
    | cons f rest ih =>
      rw [List.flatMap_cons, deferred_append, hrest f (List.mem_cons_self ..) heavy,
        List.nil_append]
      exact ih fun f hf => hrest f (List.mem_cons_of_mem _ hf)
  rw [List.flatMap_cons, deferred_append, deferred_of_heavy heavy, hbelow, List.append_nil]

/-- Frames that defer nothing shield what is deferred below them. -/
private theorem shielded_of_none (h : deferred (frames.flatMap Frame.cargo) = []) :
    Shielded frames := by
  refine List.pairwise_of_forall_mem_list fun _ _ lower hl _ => ?_
  obtain ⟨front, back, rfl⟩ := List.append_of_mem hl
  rw [List.flatMap_append, List.flatMap_cons, deferred_append, deferred_append] at h
  exact (List.append_eq_nil_iff.mp (List.append_eq_nil_iff.mp h).2).1

private theorem shielded_light {upper lower : List (Frame σ)}
    (light : ∀ f ∈ upper, f.isLight = true) (h : Shielded lower) : Shielded (upper ++ lower) := by
  refine List.pairwise_append.mpr ⟨?_, h, fun f hf _ _ heavy => ?_⟩
  · refine List.pairwise_of_forall_mem_list fun f hf _ _ heavy => ?_
    rw [light f hf] at heavy
    cases heavy
  · rw [light f hf] at heavy
    cases heavy

/-- Only light frames are put above what waits for room. -/
theorem Traffic.shielded (h : frame.Traffic hub hub' frames)
    (ht : hub.Tidy (frame.cargo ++ below))
    (light : frame.isLight = true → ∀ f ∈ frames, f.isLight = true)
    (hs : Shielded (frame :: rest)) : Shielded (frames ++ rest) := by
  obtain ⟨hframe, hrest⟩ := List.pairwise_cons.mp hs
  cases hlight : frame.isLight with
  | true => exact shielded_light (light hlight) hrest
  | false =>
    have hnone := deferred_of_heavy hlight
    have above : Shielded frames → Shielded (frames ++ rest) := fun hnew =>
      List.pairwise_append.mpr ⟨hnew, hrest, fun _ _ lower hl _ => hframe lower hl hlight⟩
    have plain : deferred (frames.flatMap Frame.cargo) = [] → Shielded (frames ++ rest) :=
      fun h => above (shielded_of_none h)
    cases h with
    | pass calm cargo =>
      rw [← cargo] at hnone
      exact plain hnone
    | post calm kind calm' direct _ posted cargo =>
      rw [← cargo] at hnone
      exact above (shielded_light (Hub.isLight_posted posted) (shielded_of_none hnone))
    | enqueue | evict | vacate => cases hlight
    | pop calm hp how =>
      refine plain ?_
      rw [how.cargo.2]
      rfl
    | hollow mem held => exact absurd held (ht.not_hollow mem)
    | work _ _ cargo _ =>
      refine plain ?_
      rw [cargo]
      rfl
    | dispatch | discard | deliver | leave | forget | free => exact plain rfl

end Frame

namespace Hub

open SensorHub.Frame

variable {hub hub' : Hub σ}

/-- The numbers of the events that were queued or are waiting for room, in the order of the queue:
what waits for room is queued behind the others. -/
def lineup (hub : Hub σ) (cargo : List (Cargo σ)) : List Nat :=
  admissions hub.journal ++ deferred cargo

end Hub

namespace Frame

variable {hub hub' : Hub σ} {frame : Frame σ} {frames rest : List (Frame σ)}
  {below : List (Cargo σ)}

/-- A step puts at most one new event into the line-up, and takes none out of it. -/
theorem Traffic.lineup (h : frame.Traffic hub hub' frames) (ht : hub.Tidy (frame.cargo ++ below)) :
    hub'.lineup (frames.flatMap Frame.cargo ++ below) = hub.lineup (frame.cargo ++ below) ∨
    ∃ front back, hub.lineup (frame.cargo ++ below) = front ++ back ∧
      hub'.lineup (frames.flatMap Frame.cargo ++ below) = front ++ hub.postings :: back := by
  have same : admissions hub'.journal = admissions hub.journal →
      deferred (frames.flatMap Frame.cargo) = deferred frame.cargo →
      hub'.lineup (frames.flatMap Frame.cargo ++ below) = hub.lineup (frame.cargo ++ below) := by
    intro hadmissions hdeferred
    rw [Hub.lineup, Hub.lineup, deferred_append, deferred_append, hadmissions, hdeferred]
  have calmly : hub.Calm hub' → admissions hub'.journal = admissions hub.journal :=
    fun calm => (Hub.Thins.of_calm calm : hub.Thins [] hub').admissions
  cases h with
  | pass calm cargo =>
    refine .inl (same (calmly calm) ?_)
    rw [cargo]
  | @post _ hub₀ way event completion hub₁ _ upper lower calm kind calm' direct _ posted cargo =>
    have ht₁ := ((ht.calm calm).offer way event completion).calm calm'
    have offered : hub.Thins [] hub₁ :=
      ((Hub.Thins.of_calm calm).offer way event completion).trans (.of_calm calm')
    have hserial : (hub₀.offer way event completion).1.serial = hub.postings := calm.postings
    -- nothing new is queued, and nothing new waits
    have done : admissions hub'.journal = admissions hub₁.journal →
        deferred (upper.flatMap Frame.cargo) = [] →
        hub'.lineup ((upper ++ lower).flatMap Frame.cargo ++ below) =
          hub.lineup (frame.cargo ++ below) := by
      intro hadmissions hdeferred
      refine same (hadmissions.trans offered.admissions) ?_
      rw [List.flatMap_append, deferred_append, hdeferred, cargo, List.nil_append]
    rcases Hub.posted_cases ht₁.sound posted with
      ⟨-, rfl, handle, admits, -⟩ | ⟨-, evicted, evicts, rfl⟩ | ⟨-, calm'', rfl⟩ |
      ⟨callback, hub₂, -, calm'', rfl, rfl⟩ | ⟨work, -, -, rfl, rfl⟩
    · refine .inr ⟨admissions hub.journal, deferred (frame.cargo ++ below), rfl, ?_⟩
      rw [Hub.lineup, admits.admissions, offered.admissions, hserial, List.nil_append, cargo,
        List.append_assoc]
      rfl
    · refine .inr ⟨admissions hub.journal, deferred (frame.cargo ++ below), rfl, ?_⟩
      rw [Hub.lineup, evicts.journal, offered.admissions, List.flatMap_append, deferred_append,
        deferred_append, deferred_reserved, hserial, cargo, List.append_assoc, ← deferred_append]
      rfl
    · exact .inl (done (Hub.Thins.of_calm calm'' : hub₁.Thins [] hub').admissions rfl)
    · exact .inl (done (Hub.Thins.of_calm calm'' : hub₁.Thins [] hub₂).admissions rfl)
    · exact .inl (done rfl rfl)
  | @enqueue posting _ he =>
    obtain ⟨handle, admits, -⟩ := Hub.enqueue_true ht.sound he
    refine .inl ?_
    have hwaited : deferred ((Frame.enqueue posting).cargo ++ below) =
        posting.serial :: deferred below := rfl
    rw [Hub.lineup, Hub.lineup, admits.admissions, hwaited, List.append_assoc]
    rfl
  | @evict handle rest posting _ upper held hd =>
    have evicted : hub.Thins [] ((hub.take handle).2.record (.evicted posting.serial)) :=
      ⟨fun _ hk => (by cases hk), .refl _, rfl, Nat.le_refl _⟩
    refine .inl (same (evicted.detach hd).admissions ?_)
    rw [List.flatMap_append, cargo_detach hd, List.nil_append, Frame.cargo, deferred_doomed,
      List.flatMap_cons, deferred_append, List.flatMap_cons, deferred_append, Frame.cargo,
      Frame.cargo, deferred_doomed]
    rfl
  | vacate => exact .inl (same (Hub.Thins.of_vacate ht).admissions rfl)
  | pop calm hp how =>
    refine .inl (same ((Hub.Thins.of_calm calm : hub.Thins [] _).trans (.of_pop hp)).admissions ?_)
    rw [how.cargo.1, how.cargo.2]
    rfl
  | hollow mem held => exact absurd held (ht.not_hollow mem)
  | deliver calm =>
    exact .inl (same ((Hub.Thins.of_calm calm : hub.Thins [] _).record rfl).admissions rfl)
  | free _ calm =>
    exact .inl (same ((Hub.Thins.of_calm calm : hub.Thins [] _).record rfl).admissions rfl)
  | @work posting work _ _ _ calm cargo _ =>
    have worked : hub.Thins [] (hub.record (.worked posting.serial)) :=
      (Hub.Thins.refl hub []).record rfl
    refine .inl (same (worked.trans (.of_calm calm)).admissions ?_)
    rw [cargo]
    rfl
  | leave => exact .inl (same rfl rfl)
  | dispatch | discard | forget => exact .inl (same rfl rfl)

end Frame

namespace Machine

open SensorHub.Frame

variable {m : Machine σ} {hub hub' hub₀ : Hub σ} {frame : Frame σ}
  {frames upper lower rest : List (Frame σ)} {status : Status}

/-- In every run what waits for room waits below light frames only. -/
theorem Reachable.shielded (hm : m.Reachable) : Shielded m.frames := by
  refine hm.keeps (P := fun _ frames => Shielded frames) ?_ ?_ ?_
  · intro config collaborators memory now routine _
    exact List.pairwise_singleton ..
  · intro hub hub' frame frames rest hm hs h
    exact (hm.traffic h).shielded hm.tidy (fun light => (step_light light h).2) hs
  · intro hub frames routine hs
    refine List.pairwise_cons.mpr ⟨fun _ _ heavy => ?_, hs⟩
    cases heavy

/-- What is announced is a status event that was handed over under the same number. -/
theorem Reachable.announced_offered (hm : m.Reachable) {serial : Nat}
    (h : (serial, status) ∈ announcements m.hub.journal) :
    .offered serial .critical (.status status.type status.info) false ∈ m.hub.journal := by
  revert h
  refine hm.keeps (P := fun hub _ => (serial, status) ∈ announcements hub.journal →
    .offered serial .critical (.status status.type status.info) false ∈ hub.journal) ?_ ?_ ?_
  · intro config collaborators memory now routine _ h
    cases h
  · intro hub hub' frame frames rest hm before hstep h
    have remembered : (serial, status) ∈ announcements hub.journal →
        .offered serial .critical (.status status.type status.info) false ∈ hub'.journal :=
      fun h => Reaches.remembers hm (.single (.of_go hstep)) (before h)
    have announced : ∀ {hub₀ : Hub σ} {type : UInt16} {load : Nat} {info : Info}
        {upper : List (Frame σ)}, announcements hub₀.journal = announcements hub.journal →
        hub₀.announce type load info = .go hub' upper →
        .offered serial .critical (.status status.type status.info) false ∈ hub'.journal := by
      intro hub₀ type load info upper hsame hgo
      obtain ⟨hjournal, -⟩ := Hub.announce_eq hgo
      rw [hjournal] at h
      rcases List.mem_cons.mp h with he | hold
      · cases he
        rw [hjournal]
        exact List.mem_cons_of_mem _ (List.mem_cons_self ..)
      · have hbefore : (serial, status) ∈ announcements hub₀.journal := hold
        rw [hsame] at hbefore
        exact remembered hbefore
    cases step_announces hm.nested.1 hstep with
    | mute same =>
      rw [same] at h
      exact remembered h
    | started ha hgo =>
      refine announced ?_ hgo
      rfl
    | stopped found hgo =>
      refine announced ?_ hgo
      rfl
  · intro hub frames routine before
    exact before

theorem Reachable.announced_lt (hm : m.Reachable) {serial : Nat}
    (h : (serial, status) ∈ announcements m.hub.journal) : serial < m.hub.postings := by
  have hoffered : 0 < tally Incident.offers? serial m.hub.journal :=
    List.count_pos_iff.mpr (List.mem_filterMap.mpr ⟨_, hm.announced_offered h, rfl⟩)
  have hnumbered := hm.balanced.numbered serial
  have hbooks : m.books.journal = m.hub.journal := rfl
  have hnext : m.books.next = m.hub.postings := rfl
  rw [hbooks, hnext] at hnumbered
  by_contra hge
  rw [if_neg hge] at hnumbered
  omega

def status? (journal : List Incident) (serial : Nat) : Option Status :=
  (announcements journal).lookup serial

/-- The status events that were queued or are waiting for room, in the order of the queue. -/
def told (m : Machine σ) : List Status :=
  (m.hub.lineup m.cargo).filterMap (status? m.hub.journal)

theorem Reachable.status?_next (hm : m.Reachable) :
    status? m.hub.journal m.hub.postings = none := by
  refine List.lookup_eq_none_iff.mpr fun announced hmem => ?_
  have hlt := hm.announced_lt hmem
  simp only [bne_iff_ne, ne_eq]
  omega

/-- A step that announces nothing leaves the status events as they are. -/
theorem told_mute (hm : Reachable ⟨hub, frame :: rest⟩) (h : frame.step hub = .go hub' frames)
    (same : announcements hub'.journal = announcements hub.journal) :
    told ⟨hub', frames ++ rest⟩ = told ⟨hub, frame :: rest⟩ := by
  have hstatus : status? hub'.journal = status? hub.journal := by
    funext serial
    rw [status?, same, status?]
  have hnext : status? hub.journal hub.postings = none := hm.status?_next
  have hlineup := @Traffic.lineup _ _ _ _ _ (rest.flatMap Frame.cargo) (hm.traffic h) hm.tidy
  have hcargo : (frames ++ rest).flatMap Frame.cargo =
      frames.flatMap Frame.cargo ++ rest.flatMap Frame.cargo := List.flatMap_append
  simp only [told, cargo, hstatus, hcargo]
  rcases hlineup with hlineup | ⟨front, back, hbefore, hafter⟩
  · rw [hlineup]
    rfl
  · have hold : hub.lineup ((frame :: rest).flatMap Frame.cargo) = front ++ back := hbefore
    rw [hold, hafter, List.filterMap_append, List.filterMap_cons_none hnext, List.filterMap_append]

/-- What is announced while the hub runs is told behind all others. -/
theorem told_announce (hm : Reachable ⟨hub, frame :: rest⟩) (heavy : frame.isLight = false)
    (h : hub₀.announce status.type status.load status.info = .go hub' upper)
    (runs : hub₀.running = hub.running)
    (same : announcements hub₀.journal = announcements hub.journal)
    (order : admissions hub₀.journal = admissions hub.journal)
    (postings : hub₀.postings = hub.postings)
    (plain : deferred (lower.flatMap Frame.cargo) = []) :
    told ⟨hub', upper ++ lower ++ rest⟩ =
      told ⟨hub, frame :: rest⟩ ++ if hub.running = true then [status] else [] := by
  obtain ⟨hjournal, hrun⟩ := Hub.announce_eq h
  have hnone := hm.shielded.none_below heavy
  have hbelow : deferred (rest.flatMap Frame.cargo) = [] := by
    rw [List.flatMap_cons, deferred_append] at hnone
    exact (List.append_eq_nil_iff.mp hnone).2
  have hbefore : told ⟨hub, frame :: rest⟩ =
      (admissions hub.journal).filterMap (status? hub.journal) := by
    rw [told, Hub.lineup, cargo, hnone, List.append_nil]
  have hadmissions : admissions hub'.journal = admissions hub.journal := by
    rw [hjournal, ← order]
    rfl
  have hstatus : ∀ serial, status? hub'.journal serial =
      if serial = hub.postings then some status else status? hub.journal serial := by
    intro serial
    have hlookup : status? hub'.journal serial =
        List.lookup serial ((hub₀.postings, status) :: announcements hub₀.journal) := by
      rw [status?, hjournal]
      rfl
    rw [hlookup, same, postings, List.lookup_cons]
    by_cases he : serial = hub.postings
    · simp [he]
    · have hne : (serial == hub.postings) = false := by simpa using he
      rw [hne, if_neg he]
      rfl
  have hold : (admissions hub.journal).filterMap (status? hub'.journal) =
      (admissions hub.journal).filterMap (status? hub.journal) := by
    refine List.filterMap_congr fun serial hs => ?_
    have hlt := hm.lined.numbered serial hs
    have hne : serial ≠ hub.postings := Nat.ne_of_lt hlt
    rw [hstatus, if_neg hne]
  have hafter : told ⟨hub', upper ++ lower ++ rest⟩ =
      (admissions hub.journal).filterMap (status? hub.journal) ++
        (deferred (upper.flatMap Frame.cargo)).filterMap (status? hub'.journal) := by
    rw [told, Hub.lineup, cargo, List.flatMap_append, List.flatMap_append, deferred_append,
      deferred_append, plain, hbelow, List.append_nil, List.append_nil, List.filterMap_append,
      hadmissions, hold]
  rw [hafter, hbefore, ← runs]
  rcases hrun with ⟨running, evicted, rfl⟩ | ⟨stopped, rfl⟩
  · have htold : status? hub'.journal hub.postings = some status := by
      rw [hstatus, if_pos rfl]
    rw [if_pos running, deferred_reserved, postings, List.filterMap_cons_some htold,
      List.filterMap_nil]
  · have hnot : ¬hub₀.running = true := by
      rw [stopped]
      exact Bool.false_ne_true
    rw [if_neg hnot, List.flatMap_nil]
    rfl

/-- What has left the queue to make room is of low priority. -/
theorem Reachable.doomed_low (hm : m.Reachable) {posting : Posting σ}
    (h : posting ∈ m.row.doomed) : ∃ way event hasCallback,
      .offered posting.serial way event hasCallback ∈ m.hub.journal ∧ event.isEvictable = true := by
  obtain ⟨item, hitem, hdoomed⟩ := List.mem_filterMap.mp h
  cases item with
  | doomed handle =>
    have hlow := hm.tidy.doomed handle hitem posting hdoomed
    have hpending : posting ∈ m.books.pending ++ m.books.out :=
      Hub.mem_books.mpr (.inr (.inl ⟨_, hitem, handle, rfl, hdoomed⟩))
    obtain ⟨way, event, hoffered, -, hevent⟩ := hm.balanced.vouched posting hpending
    rw [hevent] at hlow
    exact ⟨way, event, _, hoffered, hlow⟩
  | _ => cases hdoomed

theorem Reachable.evicted_low (hm : m.Reachable) {serial : Nat}
    (h : .evicted serial ∈ m.hub.journal) : ∃ way event hasCallback,
      .offered serial way event hasCallback ∈ m.hub.journal ∧ event.isEvictable = true := by
  revert h
  refine hm.keeps (P := fun hub _ => .evicted serial ∈ hub.journal → ∃ way event hasCallback,
    .offered serial way event hasCallback ∈ hub.journal ∧ event.isEvictable = true) ?_ ?_ ?_
  · intro config collaborators memory now routine _ h
    cases h
  · intro hub hub' frame frames rest hm before hstep h
    have hmove : Move ⟨hub, frame :: rest⟩ ⟨hub', frames ++ rest⟩ := .of_go hstep
    have later : (∃ way event hasCallback,
        .offered serial way event hasCallback ∈ hub.journal ∧ event.isEvictable = true) →
        ∃ way event hasCallback,
          .offered serial way event hasCallback ∈ hub'.journal ∧ event.isEvictable = true := by
      rintro ⟨way, event, hasCallback, hoffered, hlow⟩
      exact ⟨way, event, hasCallback, Reaches.remembers hm (.single hmove) hoffered, hlow⟩
    have aside : ∀ {news : List Incident}, (∀ i ∈ news, i.isAside = true) →
        .evicted serial ∉ news := by
      intro news haside hmem
      have hevicted := haside _ hmem
      cases hevicted
    have old : ∀ {news : List Incident}, (∀ i ∈ news, i.isAside = true) →
        .evicted serial ∈ news ++ hub.journal → .evicted serial ∈ hub.journal := by
      intro news haside hmem
      rcases List.mem_append.mp hmem with hmem | hmem
      · exact absurd hmem (aside haside)
      · exact hmem
    cases hm.shift hstep with
    | stay journal haside | doom journal haside =>
      have hj : hub'.journal = _ := journal
      rw [hj] at h
      exact later (before (old haside h))
    | queued journal haside | pop _ journal haside | enter journal haside =>
      have hj : hub'.journal = _ := journal
      rw [hj] at h
      rcases List.mem_cons.mp h with hne | h
      · cases hne
      · exact later (before (old haside h))
    | @evict after news posting journal hafter haside _ doomed =>
      have hj : hub'.journal = _ := journal
      rw [hj] at h
      rcases List.mem_append.mp h with h | h
      · exact absurd h (aside hafter)
      · rcases List.mem_cons.mp h with he | h
        · cases he
          refine later (hm.doomed_low ?_)
          rw [doomed]
          exact List.mem_cons_self ..
        · exact later (before (old haside h))
  · intro hub frames routine before
    exact before

theorem Reachable.status_kept (hm : m.Reachable) {serial : Nat}
    (h : (serial, status) ∈ announcements m.hub.journal) : .evicted serial ∉ m.hub.journal := by
  intro hevicted
  obtain ⟨way, event, hasCallback, hoffered, hlow⟩ := hm.evicted_low hevicted
  have hstatus := hm.announced_offered h
  obtain ⟨-, rfl, -⟩ :=
    Ledger.offered_unique (hm.balanced.offers_le serial) hstatus hoffered
  simp [Event.isEvictable, Event.status, Event.new] at hlow

end Machine

end SensorHub
