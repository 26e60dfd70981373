import SensorHub.Proofs.Announcing
import SensorHub.Proofs.Context
import SensorHub.Proofs.Distribution

namespace SensorHub

variable {σ : Type}

namespace Hub

variable {hub hub₁ hub' first : Hub σ} {frames : List (Frame σ)} {info : Info}

/-- The search for a free instance id with the counter that it moves: past every candidate. -/
def seekId (used : UInt16 → Bool) : Nat → UInt16 → Option UInt16 × UInt16
  | 0, next => (none, next)
  | budget + 1, next =>
    if next == systemId || next == broadcastId || used next then seekId used budget (next + 1)
    else (some next, next + 1)

theorem add_ofNat_succ (id : UInt16) (n : Nat) : id + .ofNat (n + 1) = id + 1 + .ofNat n := by
  rw [UInt16.ofNat_add, UInt16.add_assoc, UInt16.add_comm 1]
  rfl

theorem seekId_eq (used : UInt16 → Bool) (budget : Nat) (next : UInt16) :
    seekId used budget next =
      match firstFreeId used budget next with
      | some id => (some id, id + 1)
      | none => (none, next + .ofNat budget) := by
  induction budget generalizing next with
  | zero => simp [seekId, firstFreeId]
  | succ budget ih =>
    unfold seekId firstFreeId
    split
    next =>
      rw [ih]
      split
      next => rfl
      next =>
        rw [add_ofNat_succ]
    next => rfl

/-- A search that finds nothing moves the counter once around. -/
theorem assignId_eq_seekId (hub : Hub σ) :
    hub.assignId =
      ((seekId (fun id => (hub.indexOf? id).isSome) 65536 hub.nextId).1,
        { hub with
          nextId := (seekId (fun id => (hub.indexOf? id).isSome) 65536 hub.nextId).2 }) := by
  rw [seekId_eq, assignId]
  split
  next h =>
    have haround : hub.nextId + UInt16.ofNat 65536 = hub.nextId := UInt16.add_zero _
    rw [h, haround]
  next id h => rw [h]

/-- Nothing happened but that something was reported, or that the work of an event began. -/
def MerelyReports (hub hub' : Hub σ) : Prop :=
  ∃ news, hub' = { hub with journal := news ++ hub.journal } ∧
    ∀ i ∈ news, (∃ report, i = .logged report) ∨ ∃ serial, i = .worked serial

theorem MerelyReports.log (h : hub.MerelyReports hub') (report : LogRecord) :
    hub.MerelyReports (hub'.log report) := by
  obtain ⟨news, rfl, hnews⟩ := h
  refine ⟨.logged report :: news, rfl, fun i hi => ?_⟩
  rcases List.mem_cons.mp hi with rfl | hi
  · exact .inl ⟨report, rfl⟩
  · exact hnews i hi

theorem merelyReports_refl (hub : Hub σ) : hub.MerelyReports hub :=
  ⟨[], rfl, by simp⟩

theorem merelyReports_worked (hub : Hub σ) (serial : Nat) :
    hub.MerelyReports (hub.record (.worked serial)) :=
  ⟨[.worked serial], rfl, by simp⟩

theorem reason_of_loadRefusal? {reason : Refusal} (h : hub.loadRefusal? info = some reason) :
    (∀ appId id, reason ≠ .startFailed appId id) ∧ ∀ appId, reason ≠ .idsExhausted appId := by
  unfold loadRefusal? at h
  split at h
  next =>
    cases h
    simp
  next =>
    obtain ⟨id, -, rfl⟩ := Option.map_eq_some_iff.mp h
    simp

theorem load_refused {app : App σ} {client : LoadClient σ} {reason : Refusal}
    (h : hub.load app client = .go hub' [.answer client (.error reason)]) :
    hub' = hub.log (.loadRefused reason) ∧ (∀ appId id, reason ≠ .startFailed appId id) ∧
      ∀ appId, reason = .idsExhausted appId →
        seekId (fun id => (hub.indexOf? id).isSome) 65536 hub.nextId = (none, hub.nextId) := by
  unfold load at h
  split at h
  next why hwhy =>
    cases h
    obtain ⟨started, exhausted⟩ := reason_of_loadRefusal? hwhy
    exact ⟨rfl, started, fun appId he => absurd he (exhausted appId)⟩
  next =>
    have hseek := hub.assignId_eq_seekId
    cases hf : firstFreeId (fun id => (hub.indexOf? id).isSome) 65536 hub.nextId with
    | none =>
      simp only [assignId, hf] at h hseek
      cases h
      refine ⟨rfl, by simp, fun _ _ => ?_⟩
      exact Prod.ext (congrArg Prod.fst hseek).symm (congrArg (fun r => r.2.nextId) hseek).symm
    | some id =>
      simp only [assignId, hf] at h
      split at h <;> cases h

/-- The events that wait and their slots, and how many events were lost. -/
def holdings (hub : Hub σ) : Pool (Posting σ) × Queue Handle × UInt32 :=
  (hub.pool, hub.queue, hub.dropped)

/-- The hubs have the same estate; in the meantime no entry point was called and nothing was
announced. -/
structure SameEstate (hub hub' : Hub σ) : Prop where
  estate : hub'.estate = hub.estate
  calls : calls hub'.journal = calls hub.journal
  mute : announcements hub'.journal = announcements hub.journal

/-- Since `first` these apps were entered, and the only call was that of the next app's first entry
point. -/
structure Ran (first : Hub σ) (newcomers : List (App σ)) (hub : Hub σ) : Prop where
  estate : hub.estate = { first.estate with apps := first.apps ++ newcomers }
  calls : SensorHub.calls hub.journal =
    SensorHub.calls first.journal ++ [(first.loads + 1, .start)]
  mute : announcements hub.journal = announcements first.journal

theorem Ran.same {newcomers : List (App σ)} (h : first.Ran newcomers hub)
    (same : hub.SameEstate hub') : first.Ran newcomers hub' :=
  ⟨same.estate.trans h.estate, same.calls.trans h.calls, same.mute.trans h.mute⟩

/-- Since `first` one app was entered, which is there under this info, and was called to start. -/
def Hosts (first : Hub σ) (info : Info) (hub : Hub σ) : Prop :=
  ∃ own : App σ, own.nanoapp.load = first.loads + 1 ∧ own.nanoapp.info = info ∧
    first.Ran [own] hub

theorem Hosts.same (h : first.Hosts info hub) (same : hub.SameEstate hub') :
    first.Hosts info hub' := by
  obtain ⟨own, hload, hinfo, hran⟩ := h
  exact ⟨own, hload, hinfo, hran.same same⟩

theorem Hosts.apps (h : first.Hosts info hub) : ∃ own : App σ,
    own.nanoapp.load = first.loads + 1 ∧ own.nanoapp.info = info ∧
      hub.apps[first.apps.length]? = some own := by
  obtain ⟨own, hload, hinfo, hran⟩ := h
  have happs : hub.apps = first.apps ++ [own] := congrArg Estate.apps hran.estate
  exact ⟨own, hload, hinfo, by rw [happs]; simp⟩

theorem Hosts.tunes (h : first.Hosts info hub) (tunes : hub.Tunes (some first.apps.length) hub')
    (calls : SensorHub.calls hub'.journal = SensorHub.calls hub.journal)
    (mute : announcements hub'.journal = announcements hub.journal) : first.Hosts info hub' := by
  rcases tunes with hsame | ⟨index, change, hplace, hsame, keeps⟩
  · exact h.same ⟨hsame, calls, mute⟩
  · cases hplace
    obtain ⟨own, hload, hinfo, hran⟩ := h
    have happs : hub.apps = first.apps ++ [own] := congrArg Estate.apps hran.estate
    have haltered : (hub.alterApp first.apps.length change).apps =
        first.apps ++ [own.alter change] := by
      rw [alterApp, happs, List.modify_eq_take_cons_drop (by simp)]
      simp
    refine ⟨own.alter change, (keeps _).1.trans hload, (keeps _).2.1.trans hinfo, ?_,
      calls.trans hran.calls, mute.trans hran.mute⟩
    calc hub'.estate
        = { hub.estate with apps := (hub.alterApp first.apps.length change).apps } := hsame
      _ = { first.estate with apps := first.apps ++ [own.alter change] } := by
        rw [haltered, hran.estate]

/-- Once the app is erased the others are there as they were. -/
theorem Hosts.erase (h : first.Hosts info hub) (load : Nat) (id : UInt16) :
    first.Ran [] ((hub.erase first.apps.length load id).setCurrent none) := by
  obtain ⟨own, -, -, hran⟩ := h
  have happs : hub.apps.eraseIdx first.apps.length = first.apps ++ [] := by
    have happs : hub.apps = first.apps ++ [own] := congrArg Estate.apps hran.estate
    rw [happs, List.eraseIdx_append_of_length_le (le_refl _)]
    simp
  refine ⟨?_, hran.calls, hran.mute⟩
  calc ((hub.erase first.apps.length load id).setCurrent none).estate
      = { hub.estate with apps := hub.apps.eraseIdx first.apps.length } := rfl
    _ = { first.estate with apps := first.apps ++ [] } := by rw [happs, hran.estate]

end Hub

namespace Frame

/-- The frame works for the services that release what the app holds, or for another thread, or it
was set off by such work or by the app. -/
def IsErrand (info : Info) : Frame σ → Prop
  | .code (.handle (.flushMessages other)) _ | .code (.release _ other) _ => other = info
  | .code (.handle (.detached _ _)) _ | .code (.handle .foreign) _ => True
  | .evict _ | .vacate _ | .enqueue _ => True
  | _ => False

/-- The frame runs the first entry point of the app at the place, or does an errand. -/
def ActsFor (place : Nat) (client : LoadClient σ) (info : Info) (frame : Frame σ) : Prop :=
  frame.IsErrand info ∨ ∃ stopping routine, frame = .code (.start place stopping client) routine

def unstarted (client : LoadClient σ) (info : Info) : Frame σ :=
  .answer client (.error (.startFailed info.appId info.instanceId))

/-- How far a load has come that entered an app, by the frames above what goes on after it: the app
starts, and if it does not, it is unloaded again. -/
inductive Undoing (first : Hub σ) (client : LoadClient σ) (info : Info) (hub : Hub σ) :
    List (Frame σ) → Prop
  | above {frame upper} (errand : frame.IsErrand info)
      (h : Undoing first client info hub upper) : Undoing first client info hub (frame :: upper)
  | start {stopping routine} (hosts : first.Hosts info hub) :
      Undoing first client info hub [.code (.start first.apps.length stopping client) routine]
  | started {id} : Undoing first client info hub [.answer client (.ok id)]
  | mark (hosts : first.Hosts info hub) :
      Undoing first client info hub [.mark info false, unstarted client info]
  | settle {previous} (hosts : first.Hosts info hub) :
      Undoing first client info hub [.settle info false previous, unstarted client info]
  | remove {previous} (hosts : first.Hosts info hub) :
      Undoing first client info hub
        [.remove first.apps.length false, .unmark info previous, unstarted client info]
  | release {managers previous} (hosts : first.Hosts info hub) :
      Undoing first client info hub
        [.release (first.loads + 1) info managers, .erase first.apps.length (first.loads + 1) info,
          .unmark info previous, unstarted client info]
  | erase {previous} (hosts : first.Hosts info hub) :
      Undoing first client info hub
        [.erase first.apps.length (first.loads + 1) info, .unmark info previous,
          unstarted client info]
  | unmark {previous} (ran : first.Ran [] hub) :
      Undoing first client info hub [.unmark info previous, unstarted client info]
  | answer (ran : first.Ran [] hub) :
      Undoing first client info hub [unstarted client info]

variable {hub hub' first : Hub σ} {frame : Frame σ} {frames upper above lower : List (Frame σ)}
  {info : Info} {client : LoadClient σ}

theorem IsErrand.light (h : frame.IsErrand info) : frame.isLight = true := by
  cases frame with
  | code actor routine =>
    cases actor with
    | handle | release => rfl
    | _ => cases h
  | evict | vacate | enqueue => rfl
  | _ => cases h

theorem errand_detach {posting : Posting σ} (h : hub.detach posting = (hub', frames)) :
    ∀ f ∈ frames, f.IsErrand info := by
  unfold Hub.detach at h
  split at h
  all_goals
    cases h
    simp [IsErrand]

theorem errand_posted {posting : Posting σ} (h : hub.Posted posting hub' frames) :
    ∀ f ∈ frames, f.IsErrand info := by
  cases h with
  | queued | discarded => simp
  | reserved => simp [IsErrand]
  | refused _ _ _ h => exact errand_detach h
  | dropped _ _ _ _ h => exact errand_detach h

theorem IsErrand.step (errand : frame.IsErrand info) (h : frame.step hub = .go hub' frames) :
    hub.SameEstate hub' ∧ ∀ f ∈ frames, f.IsErrand info := by
  have light := errand.light
  refine ⟨⟨estate_light light h, Hub.calls_of_loopSide (step_light light h).1,
    announcements_light light h⟩, ?_⟩
  cases frame with
  | @code r a actor routine =>
    have apart : actor.isLoop = false := by
      cases actor with
      | loop => cases light
      | _ => rfl
    have placed : ∀ i, actor.place? = some i → i < hub.apps.length := fun i hi =>
      absurd ((index?_of_isLight light).symm.trans hi) nofun
    have unended : ∀ index stopping client ok,
        Frame.code actor routine ≠ .code (.start index stopping client) (.done ok) := by
      intro index stopping client ok he
      rw [he] at light
      cases light
    obtain ⟨-, -, ⟨rfl, -⟩ | ⟨upper, next, rfl, hupper⟩⟩ := code_works apart placed unended h
    · simp
    · intro f hf
      rcases List.mem_append.mp hf with hf | hf
      · rcases hupper with rfl | ⟨hub₁, posting, posted⟩
        · cases hf
        · exact errand_posted posted f hf
      · rw [List.mem_singleton.mp hf]
        cases actor with
        | handle purpose => cases purpose <;> exact errand
        | release => exact errand
        | _ => cases light
  | evict handles =>
    cases handles with
    | nil =>
      cases h
      simp
    | cons handle rest =>
      rcases Hub.releaseEvicted_cases hub handle with ⟨posting, -, hr⟩ | ⟨-, hr⟩
      · simp only [Frame.step, hr] at h
        cases h
        intro f hf
        simp only [List.append_assoc, List.mem_append, List.mem_cons, List.not_mem_nil,
          or_false] at hf
        rcases hf with hf | rfl | rfl
        · exact errand_detach rfl f hf
        · trivial
        · trivial
      · simp only [Frame.step, hr] at h
        cases h
        simp [IsErrand]
  | vacate =>
    cases h
    simp
  | enqueue posting =>
    simp only [Frame.step] at h
    split at h
    next =>
      cases h
      simp
    next => cases h
  | _ => cases light

theorem undoing_nonempty : ¬Undoing first client info hub [] := by
  rintro ⟨⟩

theorem Undoing.same (hu : Undoing first client info hub upper) (same : hub.SameEstate hub') :
    Undoing first client info hub' upper := by
  induction hu with
  | above errand _ ih => exact .above errand ih
  | start hosts => exact .start (hosts.same same)
  | started => exact .started
  | mark hosts => exact .mark (hosts.same same)
  | settle hosts => exact .settle (hosts.same same)
  | remove hosts => exact .remove (hosts.same same)
  | release hosts => exact .release (hosts.same same)
  | erase hosts => exact .erase (hosts.same same)
  | unmark ran => exact .unmark (ran.same same)
  | answer ran => exact .answer (ran.same same)

theorem Undoing.errands (errands : ∀ f ∈ upper, f.IsErrand info)
    (hu : Undoing first client info hub above) :
    Undoing first client info hub (upper ++ above) := by
  induction upper with
  | nil => exact hu
  | cons frame upper ih =>
    refine .above (errands frame (List.mem_cons_self ..)) (ih fun f hf => ?_)
    exact errands f (List.mem_cons_of_mem _ hf)

/-- The app's first entry point goes on, or the app has started, or it is to be unloaded again. -/
private theorem undoing_start {stopping : Bool} {routine : Routine σ .app .flag}
    (enrolled : hub.records.Enrolled) (hosts : first.Hosts info hub)
    (h : routine.step hub (.start first.apps.length stopping client) = .go hub' frames) :
    Undoing first client info hub' frames := by
  obtain ⟨own, -, rfl, hown⟩ := hosts.apps
  by_cases hdone : ∃ ok, routine = .done ok
  · obtain ⟨ok, rfl⟩ := hdone
    rcases Hub.finishStart_cases hown h with ⟨-, upper, hgo, rfl⟩ | ⟨-, other, ho, hid, rfl, rfl⟩
    · obtain ⟨hub₁, -, -, -, posted⟩ := Hub.announce_cases hgo
      exact .errands (errand_posted posted) .started
    · have hinfos : ∀ {app : App σ}, app ∈ hub.apps → app.nanoapp.info ∈ hub.records.infos := by
        intro app ha
        rw [← Hub.infos_eq]
        exact List.mem_map_of_mem ha
      have hsame : other.nanoapp.info = own.nanoapp.info :=
        enrolled.info_unique (hinfos (List.mem_of_getElem? hown)) (hinfos ho) hid
      rw [hsame]
      exact .above rfl (.mark (hosts.same ⟨rfl, rfl, rfl⟩))
  · -- Until it ends, the app's code changes nothing for the loop but what is kept of the app itself.
    have unended : ∀ index stopping' client' ok,
        Frame.code (.start first.apps.length stopping client) routine ≠
          .code (.start index stopping' client') (.done ok) := by
      rintro index stopping' client' ok ⟨⟩
      exact hdone ⟨ok, rfl⟩
    have placed : ∀ i, (Actor.start first.apps.length stopping client).place? = some i →
        i < hub.apps.length := by
      rintro i ⟨⟩
      exact (List.getElem?_eq_some_iff.mp hown).1
    obtain ⟨hcalls, hmute, ⟨-, hno⟩ | ⟨upper, next, rfl, hupper⟩⟩ :=
      code_works rfl placed unended h
    · exact absurd rfl (hno _ stopping client routine)
    · have hosts' := hosts.tunes (code_tunes rfl unended h) hcalls hmute
      refine .errands (fun f hf => ?_) (.start hosts')
      rcases hupper with rfl | ⟨hub₁, posting, posted⟩
      · cases hf
      · exact errand_posted posted f hf

/-- One step of a load that entered an app. What waits is touched by the app's first entry point and
by errands only. -/
theorem Undoing.step (enrolled : hub.records.Enrolled)
    (hu : Undoing first client info hub (frame :: above))
    (going : ∀ result, frame :: above ≠ [.answer client result])
    (h : frame.step hub = .go hub' frames) :
    Undoing first client info hub' (frames ++ above) ∧
      (hub'.holdings = hub.holdings ∨ frame.ActsFor first.apps.length client info) := by
  have keeps : ∀ {x : List (Frame σ)}, hub'.holdings = hub.holdings →
      Undoing first client info hub' x → Undoing first client info hub' x ∧
        (hub'.holdings = hub.holdings ∨ frame.ActsFor first.apps.length client info) :=
    fun hsame hx => ⟨hx, .inl hsame⟩
  cases hu with
  | above errand hu =>
    obtain ⟨same, errands⟩ := errand.step h
    exact ⟨.errands errands (hu.same same), .inr (.inl errand)⟩
  | start hosts =>
    rw [List.append_nil]
    exact ⟨undoing_start enrolled hosts h, .inr (.inr ⟨_, _, rfl⟩)⟩
  | started => exact absurd rfl (going _)
  | mark hosts =>
    cases h
    exact keeps rfl (.settle (hosts.same ⟨rfl, rfl, rfl⟩))
  | settle hosts =>
    -- No queue was flushed, so the app is still where it was entered.
    obtain ⟨own, -, rfl, hown⟩ := hosts.apps
    rcases Hub.settleUnload_cases h with ⟨hi, -⟩ | ⟨index, hi, ⟨htrue, -⟩ | ⟨-, rfl, rfl⟩⟩
    · have hmem : own.nanoapp.info ∈ hub.infos := List.mem_map_of_mem (List.mem_of_getElem? hown)
      exact absurd (List.mem_map_of_mem hmem) (Hub.indexOf?_eq_none.mp hi)
    · cases htrue
    · obtain ⟨app, ha, named⟩ := Hub.indexOf?_eq_some hi
      have hindex : index = first.apps.length :=
        enrolled.index_unique (Hub.getElem?_roster hown) (Hub.getElem?_roster ha) named
      rw [hindex]
      exact keeps rfl (.remove hosts)
  | remove hosts =>
    obtain ⟨own, hload, rfl, hown⟩ := hosts.apps
    rcases Hub.removeAt_cases h with ⟨hnone, -⟩ | ⟨app, ha, ⟨htrue, -⟩ | ⟨-, rfl, rfl⟩⟩
    · rw [hown] at hnone
      cases hnone
    · cases htrue
    · rw [hown] at ha
      cases ha
      rw [hload]
      exact keeps rfl (.release (hosts.same ⟨rfl, rfl, rfl⟩))
  | @release managers _ hosts =>
    cases managers with
    | nil =>
      cases h
      exact keeps rfl (.erase hosts)
    | cons manager managers =>
      -- What the service does comes above, as an errand.
      cases h
      exact keeps rfl (.above rfl (.release (hosts.same ⟨rfl, rfl, rfl⟩)))
  | erase hosts =>
    cases h
    exact keeps rfl (.unmark (hosts.erase _ _))
  | unmark ran =>
    cases h
    exact keeps rfl (.answer (ran.same ⟨rfl, rfl, rfl⟩))
  | answer => exact absurd rfl (going _)

theorem Undoing.answered {reason : Refusal}
    (hu : Undoing first client info hub [.answer client (.error reason)]) :
    reason = .startFailed info.appId info.instanceId ∧ first.Ran [] hub := by
  generalize hupper : [Frame.answer client (.error reason)] = upper at hu
  cases hu with
  | above errand =>
    cases hupper
    cases errand
  | answer ran =>
    cases hupper
    exact ⟨rfl, ran⟩
  | _ => cases hupper

end Frame

/-- What a load leaves behind whose app did not start. Its own entry point is the only one that was
called. -/
structure Hub.Undone (first last : Hub σ) : Prop where
  estate : last.estate = first.estate
  directory : last.directory = first.directory
  current : last.current = first.current ∧ last.shownCurrent = first.shownCurrent
  stopping : last.stopping = first.stopping ∧ last.shownStopping = first.shownStopping
  calls : calls last.journal = calls first.journal ++ [(first.loads + 1, .start)]
  mute : announcements last.journal = announcements first.journal

namespace Machine

open SensorHub.Frame

variable {m m₁ p q : Machine σ} {app : App σ} {client : LoadClient σ} {info : Info}
  {frames upper lower : List (Frame σ)}

/-- The app is about to be loaded; the answer goes to the client, above `lower`. -/
inductive Loads (m : Machine σ) (app : App σ) : LoadClient σ → List (Frame σ) → Prop
  | routine {actor next rest} (frames : m.frames = .code (.loop actor) (.start app next) :: rest) :
      Loads m app (.routine actor next) rest
  /-- The request to load the app was queued. -/
  | request {posting rest} (frames : m.frames = .complete posting :: rest)
      (work : posting.completion = .work (.load app)) (running : m.hub.running = true) :
      Loads m app (.request app.nanoapp.info.appId) rest

/-- An app is about to be unloaded, which is refused; then `lower` is to be done. -/
inductive Rejects (m : Machine σ) (id : UInt16) (force : Bool) (reason : Refusal) :
    List (Frame σ) → Prop
  | routine {actor next rest}
      (frames : m.frames = .code (.loop actor) (.unload id force next) :: rest)
      (refused : (m.hub.unload id force true).1 = .error reason) :
      Rejects m id force reason (.code (.loop actor) (next (.error reason)) :: rest)
  /-- The request to unload the app was queued. -/
  | request {posting rest} (frames : m.frames = .complete posting :: rest)
      (work : posting.completion = .work (.unload id force))
      (refused : (m.hub.unload id force true).1 = .error reason) :
      Rejects m id force reason rest

/-- The machine is not about to answer the client. -/
def Owes (client : LoadClient σ) (lower : List (Frame σ)) (m : Machine σ) : Prop :=
  ∀ result, m.frames ≠ .answer client result :: lower

/-- The machine gets to `p`, and the client was not answered before. -/
def Pends (client : LoadClient σ) (lower : List (Frame σ)) (m p : Machine σ) : Prop :=
  Relation.ReflTransGen (fun m next => Move m next ∧ m.Owes client lower) m p

theorem Owes.going {hub : Hub σ} (owes : Owes client lower ⟨hub, upper ++ lower⟩)
    (result : Except Refusal UInt16) : upper ≠ [.answer client result] :=
  fun he => owes result (congrArg (· ++ lower) he)

/-- A load is refused in one step, or the app is entered. -/
theorem Loads.opens (hl : m.Loads app client lower) (hs : m.step = .stepped m₁) :
    (∃ reason, m₁.frames = .answer client (.error reason) :: lower ∧
      m.hub.MerelyReports m₁.hub ∧ (∀ appId id, reason ≠ .startFailed appId id) ∧
      ∀ appId, reason = .idsExhausted appId →
        Hub.seekId (fun id => (m.hub.indexOf? id).isSome) 65536 m.hub.nextId =
          (none, m.hub.nextId)) ∨
    ∃ id upper, m₁.frames = upper ++ lower ∧
      Undoing m.hub client { app.nanoapp.info with instanceId := id } m₁.hub upper := by
  obtain ⟨hub, frame, rest, hub', frames, rfl, h, rfl⟩ := step_eq_stepped.mp hs
  obtain ⟨begun, hbegun, hload, rfl⟩ : ∃ begun, (begun = hub ∨ ∃ serial,
      begun = hub.record (.worked serial)) ∧ begun.load app client = .go hub' frames ∧
        rest = lower := by
    cases hl with
    | routine he =>
      cases he
      exact ⟨hub, .inl rfl, h, rfl⟩
    | @request posting rest he work running =>
      cases he
      simp only [Frame.step, Hub.complete, work, Hub.perform] at h
      have hrunning : (hub.record (.worked posting.serial)).running = true := running
      rw [if_pos hrunning] at h
      exact ⟨_, .inr ⟨_, rfl⟩, h, rfl⟩
  rcases Hub.load_cases hload with ⟨reason, -, rfl⟩ | ⟨id, hub₁, -, -, rfl, rfl, rfl⟩
  · obtain ⟨rfl, started, exhausted⟩ := Hub.load_refused hload
    refine .inl ⟨reason, rfl, ?_, started, fun appId he => ?_⟩
    · rcases hbegun with rfl | ⟨serial, rfl⟩
      · exact (Hub.merelyReports_refl begun).log _
      · exact (Hub.merelyReports_worked hub serial).log _
    · rcases hbegun with rfl | ⟨serial, rfl⟩ <;> exact exhausted appId he
  · refine .inr ⟨id, _, rfl, ?_⟩
    rcases hbegun with rfl | ⟨serial, rfl⟩
    all_goals
      refine .start ⟨_, rfl, rfl, rfl, ?_, rfl⟩
      exact (calls_cons ..).trans rfl

/-- Until the answer a load that entered an app goes on above `lower`. -/
theorem Pends.undoing (hm : m₁.Reachable) (hf : m₁.frames = upper ++ lower)
    {first : Hub σ} (hu : Undoing first client info m₁.hub upper) (hp : m₁.Pends client lower p) :
    p.Reachable ∧ ∃ upper, p.frames = upper ++ lower ∧ Undoing first client info p.hub upper := by
  obtain ⟨hreached, hupper⟩ :=
    keeps_above (P := fun p upper => Undoing first client info p.hub upper) hp hf hu
      undoing_nonempty
      (fun hr hu owes h => (hu.step (hm.reaches hr).enrolled (Owes.going owes) h).1)
      fun _ _ hu _ => .above trivial hu
  exact ⟨hm.reaches hreached, hupper⟩

/-- What waits is touched by the app's first entry point and by errands only. -/
theorem Pends.touches (hm : m₁.Reachable) (hf : m₁.frames = upper ++ lower)
    {first : Hub σ} (hu : Undoing first client info m₁.hub upper) (hp : m₁.Pends client lower p)
    (owes : p.Owes client lower) (hmove : Move p q) :
    q.hub.holdings = p.hub.holdings ∨ ∃ frame rest, p.frames = frame :: rest ∧
      frame.ActsFor first.apps.length client info := by
  obtain ⟨hreached, upper, he, hu⟩ := hp.undoing hm hf hu
  cases hmove with
  | interrupt routine => exact .inl rfl
  | step hs =>
    obtain ⟨hub, frame, rest, hub', frames, rfl, h, rfl⟩ := step_eq_stepped.mp hs
    cases upper with
    | nil => exact absurd hu undoing_nonempty
    | cons first above =>
      cases he
      rcases (hu.step hreached.enrolled (Owes.going owes) h).2 with hsame | htouches
      · exact .inl hsame
      · exact .inr ⟨frame, _, rfl, htouches⟩

theorem Loads.on_top (hl : m.Loads app client lower) :
    ∃ frame, m.frames = frame :: lower ∧ frame.isBehalf = false ∧ frame.mark? = none := by
  cases hl with
  | routine he => exact ⟨_, he, rfl, rfl⟩
  | request he => exact ⟨_, he, rfl, rfl⟩

/-- When the client is about to be answered nobody is current, and the same app is stopping as when
the load began. -/
theorem Loads.undone (hl : m.Loads app client lower) (hm : m.Reachable) (hp : p.Reachable)
    {result : Except Refusal UInt16} (hf : p.frames = .answer client result :: lower)
    (hran : m.hub.Ran [] p.hub) : m.hub.Undone p.hub := by
  obtain ⟨frame, hframe, behalf, unmarked⟩ := hl.on_top
  have hestate : p.hub.estate = m.hub.estate := by
    rw [hran.estate, List.append_nil]
    rfl
  have happs : p.hub.apps = m.hub.apps := congrArg Estate.apps hestate
  have hinfos : p.hub.infos = m.hub.infos := by rw [Hub.infos, Hub.infos, happs]
  have hdirectory : ∀ {x : Machine σ}, x.Reachable → x.hub.directory = x.hub.infos := by
    intro x hx
    rw [Hub.infos_eq]
    exact hx.enrolled.directory
  have hnobody : ∀ {x : Machine σ} {f : Frame σ}, x.Reachable → x.frames = f :: lower →
      f.isBehalf = false → x.hub.current = none ∧ x.hub.shownCurrent = Hub.shown none := by
    intro x f hx hf hbehalf
    obtain ⟨hshowing, hattributed⟩ := hx.attributed
    rw [hf] at hattributed
    have hnone := hattributed.1 hbehalf
    exact ⟨hnone, hnone ▸ hshowing⟩
  have hstopping : ∀ {x : Machine σ} {f : Frame σ}, x.Reachable → x.frames = f :: lower →
      f.mark? = none → x.hub.stopping = (marks lower).head? ∧
        x.hub.shownStopping = Hub.shown (marks lower).head? := by
    intro x f hx hf hmark
    obtain ⟨marked, shown, -, -⟩ := hx.unloading
    rw [hf, marked_cons hmark] at marked
    exact ⟨marked.eq_head, marked.eq_head ▸ shown⟩
  obtain ⟨hcurrent, hshown⟩ := hnobody hm hframe behalf
  obtain ⟨hcurrent', hshown'⟩ := hnobody hp hf rfl
  obtain ⟨hmarked, hmark⟩ := hstopping hm hframe unmarked
  obtain ⟨hmarked', hmark'⟩ := hstopping hp hf rfl
  refine ⟨hestate, ?_, ⟨?_, ?_⟩, ⟨?_, ?_⟩, hran.calls, hran.mute⟩
  · rw [hdirectory hp, hdirectory hm, hinfos]
  · rw [hcurrent', hcurrent]
  · rw [hshown', hshown]
  · rw [hmarked', hmarked]
  · rw [hmark', hmark]

theorem Rejects.alone {id : UInt16} {force : Bool} {reason : Refusal}
    (hr : m.Rejects id force reason lower) (hs : m.step = .stepped m₁) :
    m₁.frames = lower ∧ m.hub.MerelyReports m₁.hub := by
  have hrefuses : ∀ {hub : Hub σ}, (hub.unload id force true).1 = .error reason →
      ∃ report, hub.unload id force true = (.error reason, hub.log report, []) := by
    intro hub hrefused
    rcases hub.unload_cases id force true with ⟨-, heq⟩ | ⟨-, heq⟩ | ⟨app, -, -, heq⟩
    · rw [heq] at hrefused ⊢
      cases hrefused
      exact ⟨_, rfl⟩
    · rw [heq] at hrefused ⊢
      cases hrefused
      exact ⟨_, rfl⟩
    · rw [heq] at hrefused
      cases hrefused
  obtain ⟨hub, frame, rest, hub', frames, rfl, h, rfl⟩ := step_eq_stepped.mp hs
  cases hr with
  | routine he refused =>
    cases he
    obtain ⟨report, heq⟩ := hrefuses refused
    simp only [Frame.step, Routine.step, heq] at h
    cases h
    exact ⟨rfl, (Hub.merelyReports_refl hub).log report⟩
  | @request posting _ he work refused =>
    cases he
    rw [← @Hub.unload_record _ hub (.worked posting.serial) id force true] at refused
    obtain ⟨report, heq⟩ := hrefuses refused
    simp only [Frame.step, Hub.complete, work, Hub.perform, heq] at h
    cases h
    exact ⟨rfl, ((Hub.merelyReports_worked hub posting.serial).log report).log _⟩

/-- Loads and unloads that fail. If a load is refused it is answered after one step, and if an unload
is refused it is over after one step; nothing has changed, but for reports. That holds when no id is
free, too: the search has moved the counter once around then. If the app did not start, then the
registry, the directory, who is current and who is stopping are as before the load, no other app was
called and nothing was announced. Until then the events that wait, their slots and the count of the
lost ones were changed only by the app's first entry point, by the services that release what it
holds, by other threads, and by what these set off. -/
theorem failed_restores (hm : m.Reachable) (hs : m.step = .stepped m₁) :
    (∀ app client lower p reason, m.Loads app client lower → m₁.Pends client lower p →
      p.frames = .answer client (.error reason) :: lower →
        ((∀ appId id, reason ≠ .startFailed appId id) →
          p = m₁ ∧ m.hub.MerelyReports p.hub ∧ ∀ appId, reason = .idsExhausted appId →
            Hub.seekId (fun id => (m.hub.indexOf? id).isSome) 65536 m.hub.nextId =
              (none, m.hub.nextId)) ∧
        ∀ appId id, reason = .startFailed appId id →
          appId = app.nanoapp.info.appId ∧ m.hub.Undone p.hub ∧
          ∀ a b, m₁.Pends client lower a → a.Owes client lower → Move a b →
            b.hub.holdings = a.hub.holdings ∨ ∃ frame rest, a.frames = frame :: rest ∧
              frame.ActsFor m.hub.apps.length client
                { app.nanoapp.info with instanceId := id }) ∧
    ∀ id force reason lower, m.Rejects id force reason lower →
      m₁.frames = lower ∧ m.hub.MerelyReports m₁.hub := by
  refine ⟨fun app client lower p reason hl hp hf => ?_, fun _ _ _ _ hr => hr.alone hs⟩
  have hm₁ := hm.move (.step hs)
  rcases hl.opens hs with ⟨why, hanswer, hreports, unstarted, exhausted⟩ | ⟨id, upper, he, hu⟩
  · have hsame : p = m₁ := by
      rcases Relation.ReflTransGen.cases_head hp with hsame | ⟨next, ⟨-, owes⟩, -⟩
      · exact hsame.symm
      · exact absurd hanswer (owes _)
    rw [hsame, hanswer] at hf
    cases hf
    refine ⟨fun _ => ⟨hsame, hsame ▸ hreports, exhausted⟩, fun appId id hfailed => ?_⟩
    exact absurd hfailed (unstarted appId id)
  · obtain ⟨hreached, upper', he', hu'⟩ := hp.undoing hm₁ he hu
    have hupper : upper' = [.answer client (.error reason)] := by
      have happend : [.answer client (.error reason)] ++ lower = upper' ++ lower := hf.symm.trans he'
      exact (List.append_cancel_right happend).symm
    rw [hupper] at hu'
    obtain ⟨rfl, hran⟩ := hu'.answered
    refine ⟨fun hno => absurd rfl (hno _ _), ?_⟩
    rintro appId id' ⟨⟩
    exact ⟨rfl, hl.undone hm hreached hf hran, fun a b ha owes hmove =>
      ha.touches hm₁ he hu owes hmove⟩

def halting (appId : UInt64) : App Unit where
  nanoapp := .new appId 1
  onStart := .post (Event.new EventType.firstUser) none (.done false)
  onEvent := fun _ _ => .done ()
  onEnd := .done ()

def haltingLoad : Routine Unit .loop .nothing :=
  .start (inertApp 1) fun _ =>
  .start (halting 2) fun _ =>
  .done ()

/-- The event that the app has posted is still there when the load is answered. -/
theorem failed_restores_haltingLoad :
    ∃ m p : Machine Unit, m.frames = [.code (.loop .outside) (.start (halting 2) fun _ => .done ())] ∧
      m.Reaches p ∧
      p.frames = [.answer (.routine .outside fun _ => .done ()) (.error (.startFailed 2 2))] ∧
      m.hub.Undone p.hub ∧ p.hub.queue.size = m.hub.queue.size + 1 := by
  have hm : ((plain haltingLoad).advance 5).1.Reachable :=
    ⟨_, isStart_plain haltingLoad, reaches_unfinished (by decide +kernel)⟩
  have hs : ((plain haltingLoad).advance 5).1.step = .stepped ((plain haltingLoad).advance 6).1 :=
    rfl
  have hunanswered : ∀ k < 11, (((plain haltingLoad).advance 6).1.advance k).1.frames.length = 1 →
      (((plain haltingLoad).advance 6).1.advance k).1.frames.all Frame.isBehalf = true := by
    decide +kernel
  have hp : ((plain haltingLoad).advance 6).1.Pends (.routine .outside fun _ => .done ()) []
      ((plain haltingLoad).advance 17).1 :=
    @reaches_while _ _ ((plain haltingLoad).advance 6).1 11 (by decide +kernel)
      fun k hk result he => by
        have hbehalf := hunanswered k hk (by rw [he]; rfl)
        rw [he] at hbehalf
        cases hbehalf
  obtain ⟨hloads, -⟩ := failed_restores hm hs
  obtain ⟨-, hfailed⟩ := hloads (halting 2) _ [] _ (.startFailed 2 2) (.routine rfl) hp rfl
  obtain ⟨-, hundone, -⟩ := hfailed 2 2 rfl
  exact ⟨_, _, rfl, reaches_later 5 12 (by decide +kernel), rfl, hundone, by decide +kernel⟩

end Machine

end SensorHub
