import SensorHub.Proofs.Nesting

namespace SensorHub

variable {σ : Type}

theorem nodup_concat {α : Type} {l : List α} {a : α} (hl : l.Nodup) (ha : a ∉ l) :
    (l ++ [a]).Nodup := by
  refine List.nodup_append.mpr ⟨hl, List.nodup_singleton a, fun b hb c hc => ?_⟩
  rw [List.mem_singleton.mp hc]
  rintro rfl
  exact ha hb

/-- The records that the loop keeps of apps. -/
structure Records (σ : Type) where
  config : Config
  collaborators : Collaborators σ
  /-- The loaded apps with the numbers of their loads, oldest load first. -/
  roster : List (Nat × Info)
  directory : List Info
  loads : Nat
  /-- What happened in the lives of apps, latest first. -/
  deeds : List Incident

namespace Records

def infos (r : Records σ) : List Info :=
  r.roster.map Prod.snd

def note (r : Records σ) (deed : Incident) : Records σ :=
  { r with deeds := deed :: r.deeds }

def join (r : Records σ) (info : Info) : Records σ :=
  { r with
    roster := r.roster ++ [(r.loads + 1, info)]
    directory := r.directory ++ [info]
    loads := r.loads + 1
    deeds := .loaded (r.loads + 1) info :: r.deeds }

/-- An app leaves: the roster by its place, the directory by its instance id. -/
def erase (r : Records σ) (index load : Nat) (instanceId : UInt16) : Records σ :=
  { r with
    roster := r.roster.eraseIdx index
    directory := r.directory.filter fun i => i.instanceId != instanceId
    deeds := .erased load instanceId :: r.deeds }

end Records

def LoopSide.records (side : LoopSide σ) : Records σ where
  config := side.config
  collaborators := side.collaborators
  roster := side.members.map fun member => (member.load, member.info)
  directory := side.directory
  loads := side.loads
  deeds := side.deeds

namespace Hub

variable {hub hub' : Hub σ} {frames : List (Frame σ)}

theorem firstFreeId_free {used : UInt16 → Bool} {budget : Nat} {candidate id : UInt16}
    (h : firstFreeId used budget candidate = some id) :
    id ≠ systemId ∧ id ≠ broadcastId ∧ used id = false := by
  induction budget generalizing candidate with
  | zero => cases h
  | succ budget ih =>
    unfold firstFreeId at h
    split at h
    next => exact ih h
    next hfree =>
      cases h
      simp only [Bool.or_eq_true, beq_iff_eq, not_or, Bool.not_eq_true] at hfree
      exact ⟨hfree.1.1, hfree.1.2, hfree.2⟩

theorem mem_infos {info : Info} : info ∈ hub.infos ↔ ∃ app ∈ hub.apps, app.nanoapp.info = info :=
  List.mem_map

theorem indexOf?_eq_none {id : UInt16} :
    hub.indexOf? id = none ↔ id ∉ hub.infos.map Info.instanceId := by
  simp only [indexOf?, List.findIdx?_eq_none_iff, infos, List.mem_map, beq_eq_false_iff_ne]
  constructor
  · rintro h ⟨info, ⟨app, ha, rfl⟩, hid⟩
    exact h app ha hid
  · intro h app ha hid
    exact h ⟨_, ⟨app, ha, rfl⟩, hid⟩

theorem indexOf?_eq_some {id : UInt16} {index : Nat} (h : hub.indexOf? id = some index) :
    ∃ app, hub.apps[index]? = some app ∧ app.nanoapp.info.instanceId = id := by
  obtain ⟨hlt, hid, -⟩ := List.findIdx?_eq_some_iff_getElem.mp h
  exact ⟨_, List.getElem?_eq_getElem hlt, beq_iff_eq.mp hid⟩

theorem instanceOfApp?_eq_none {id : UInt64} :
    hub.instanceOfApp? id = none ↔ id ∉ hub.infos.map Info.appId := by
  simp only [instanceOfApp?, Option.map_eq_none_iff, List.find?_eq_none, infos, List.mem_map,
    beq_iff_eq]
  constructor
  · rintro h ⟨info, ⟨app, ha, rfl⟩, hid⟩
    exact h app ha hid
  · intro h app ha hid
    exact h ⟨_, ⟨app, ha, rfl⟩, hid⟩

theorem loadRefusal?_eq_none {info : Info} (h : hub.loadRefusal? info = none) :
    hub.config.firstSupportedApi ≤ info.targetApi ∧
      info.appId ∉ hub.infos.map Info.appId := by
  unfold loadRefusal? at h
  split at h
  next => cases h
  next hsupported =>
    exact ⟨UInt32.not_lt.mp hsupported,
      instanceOfApp?_eq_none.mp (Option.map_eq_none_iff.mp h)⟩

def records (hub : Hub σ) : Records σ :=
  hub.loopSide.records

theorem records_of_loopSide (h : hub'.loopSide = hub.loopSide) : hub'.records = hub.records :=
  congrArg LoopSide.records h

theorem roster_eq (hub : Hub σ) :
    hub.records.roster = hub.apps.map fun app => (app.nanoapp.load, app.nanoapp.info) :=
  List.map_map

theorem infos_eq (hub : Hub σ) : hub.infos = hub.records.infos := by
  rw [Records.infos, roster_eq, List.map_map]
  rfl

theorem getElem?_roster {index : Nat} {app : App σ} (ha : hub.apps[index]? = some app) :
    hub.records.roster[index]? = some (app.nanoapp.load, app.nanoapp.info) := by
  rw [roster_eq, List.getElem?_map, ha]
  rfl

theorem loadAt_eq {index : Nat} {app : App σ} (ha : hub.apps[index]? = some app) :
    hub.loadAt index = app.nanoapp.load := by
  rw [loadAt, ha]
  rfl

theorem length_roster (hub : Hub σ) : hub.records.roster.length = hub.apps.length := by
  rw [roster_eq, List.length_map]

theorem records_alterApp (hub : Hub σ) (index : Nat) {change : Nanoapp → Nanoapp}
    (keeps : ∀ n : Nanoapp, (change n).load = n.load ∧ (change n).info = n.info) :
    (hub.alterApp index change).records = hub.records := by
  have hroster : (hub.alterApp index change).records.roster = hub.records.roster := by
    apply List.ext_getElem?
    intro k
    simp only [roster_eq, alterApp, List.getElem?_map, List.getElem?_modify]
    cases hub.apps[k]? with
    | none => rfl
    | some app =>
      obtain ⟨hload, hinfo⟩ := keeps app.nanoapp
      by_cases hk : index = k
      · simp [hk, App.alter, hload, hinfo]
      · simp [hk]
  exact congrArg (fun roster => { hub.records with roster := roster }) hroster

theorem records_enroll (hub : Hub σ) (app : App σ) (id : UInt16) (wakeups : Wakeups) :
    (hub.enroll app id wakeups).2.records =
      hub.records.join { app.nanoapp.info with instanceId := id } := by
  have hroster : (hub.enroll app id wakeups).2.records.roster =
      hub.records.roster ++ [(hub.loads + 1, { app.nanoapp.info with instanceId := id })] := by
    simp only [roster_eq, enroll, record, List.map_append]
    rfl
  exact congrArg (fun roster =>
    { hub.records.join { app.nanoapp.info with instanceId := id } with roster := roster }) hroster

theorem records_erase (hub : Hub σ) (index load : Nat) (id : UInt16) :
    (hub.erase index load id).records = hub.records.erase index load id := by
  have hroster : (hub.erase index load id).records.roster = hub.records.roster.eraseIdx index := by
    simp only [roster_eq, erase, record, List.eraseIdx_map]
  exact congrArg (fun roster =>
    { hub.records.erase index load id with roster := roster }) hroster

theorem records_deliverTo (hub : Hub σ) (index : Nat) (app : App σ) (serial : Option Nat)
    (event : Event) (hasCallback : Bool) :
    (hub.deliverTo index app serial event hasCallback).1.records =
      hub.records.note (.entered app.nanoapp.load app.nanoapp.info.instanceId (.event serial)
        ((hub.checkLatency event app.nanoapp.info.instanceId).isStopping
          app.nanoapp.info.instanceId)) := by
  rw [← records_of_loopSide (loopSide_checkLatency hub event app.nanoapp.info.instanceId)]
  rfl

end Hub

namespace Frame

def unloads? : Frame σ → Option Info
  | .mark info _ | .settle info _ _ | .unmark info _ => some info
  | _ => none

/-- The frame belongs to what an app does, or to its removal. -/
def isBusy : Frame σ → Bool
  | .code (.start _ _ _) _ | .code (.entry _ _ _) _ | .mark _ false | .settle _ false _
  | .remove _ _ | .release _ _ _ | .erase _ _ _ => true
  | _ => false

/-- What a step does to the records, and the frames that take the place of the uppermost one. -/
inductive Turnover (r : Records σ) : Frame σ → Records σ → List (Frame σ) → Prop
  /-- The records stay as they are. -/
  | apart {frame frames} (apart : frame.isBusy = false) (idle : ∀ f ∈ frames, f.isBusy = false) :
      Turnover r frame r frames
  | join {frame client stopping routine} {info : Info} (apart : frame.isBusy = false)
      (supported : r.config.firstSupportedApi ≤ info.targetApi)
      (named : info.instanceId ≠ systemId ∧ info.instanceId ≠ broadcastId)
      (fresh : info.instanceId ∉ r.infos.map Info.instanceId)
      (unknown : info.appId ∉ r.infos.map Info.appId) :
      Turnover r frame
        ((r.join info).note (.entered (r.loads + 1) info.instanceId .start stopping))
        [.code (.start r.roster.length stopping client) routine]
  | enter {frame index load serial stopping routine lower} {info : Info}
      (apart : frame.isBusy = false) (placed : r.roster[index]? = some (load, info))
      (idle : ∀ f ∈ lower, f.isBusy = false)
      (queued : ∀ number, serial = some number → ∃ posting reached,
        frame = .distribute posting index reached ∧ number = posting.serial) :
      Turnover r frame (r.note (.entered load info.instanceId (.event serial) stopping))
        (.code (.entry index stopping (.event serial)) routine :: lower)
  /-- A started app is to leave. -/
  | depart {frame index upper lower} (apart : frame.isBusy = false)
      (placed : index < r.roster.length) (light : ∀ f ∈ upper, f.isLight = true)
      (idle : ∀ f ∈ lower, f.isBusy = false) :
      Turnover r frame r (upper ++ .remove index true :: lower)
  /-- Code of an app goes on. -/
  | work {a} {actor : Actor σ .app a} {routine next upper}
      (light : ∀ f ∈ upper, f.isLight = true) :
      Turnover r (.code actor routine) r (upper ++ [.code actor next])
  | started {index stopping client load info upper lower}
      (placed : r.roster[index]? = some (load, info)) (light : ∀ f ∈ upper, f.isLight = true)
      (idle : ∀ f ∈ lower, f.isBusy = false) :
      Turnover r (.code (.start index stopping client) (.done true)) (r.note (.left load .start))
        (upper ++ lower)
  | failed {index stopping client load routine lower} {info other : Info}
      (placed : r.roster[index]? = some (load, info)) (loaded : other ∈ r.infos)
      (named : other.instanceId = info.instanceId) (idle : ∀ f ∈ lower, f.isBusy = false) :
      Turnover r (.code (.start index stopping client) (.done false)) (r.note (.left load .start))
        (.code (.handle (.flushMessages other)) routine :: .mark other false :: lower)
  | left {index stopping point load info} (placed : r.roster[index]? = some (load, info)) :
      Turnover r (.code (.entry index stopping point) (.done ())) (r.note (.left load point)) []
  | mark {info previous} : Turnover r (.mark info false) r [.settle info false previous]
  | gone {info previous} (absent : info.instanceId ∉ r.infos.map Info.instanceId) :
      Turnover r (.settle info false previous) r []
  | settle {info other : Info} {previous index load}
      (placed : r.roster[index]? = some (load, other))
      (named : other.instanceId = info.instanceId) :
      Turnover r (.settle info false previous) r [.remove index false, .unmark info previous]
  | missing {index started} (absent : r.roster[index]? = none) :
      Turnover r (.remove index started) r []
  | finish {index load info routine} (placed : r.roster[index]? = some (load, info)) :
      Turnover r (.remove index true) (r.note (.entered load info.instanceId .finish true))
        [.code (.entry index true .finish) routine,
          .release load info r.collaborators.inReleaseOrder, .erase index load info]
  | remove {index load info} (placed : r.roster[index]? = some (load, info)) :
      Turnover r (.remove index false) r
        [.release load info r.collaborators.inReleaseOrder, .erase index load info]
  | released {load info} : Turnover r (.release load info []) r []
  | release {load info place manager rest routine} :
      Turnover r (.release load info ((place, manager) :: rest))
        (r.note (.released load manager.kind place))
        [.code (.release manager.kind info) routine, .release load info rest]
  | erase {index load info} : Turnover r (.erase index load info)
      (r.erase index load info.instanceId) []

variable {hub hub' : Hub σ} {frame : Frame σ} {frames : List (Frame σ)}

/-- The frames belong to no unload and to no app. -/
def Settled (frames : List (Frame σ)) : Prop :=
  ∀ f ∈ frames, f.unloads? = none ∧ f.isBusy = false

theorem settled_of_all (h : frames.all (fun f => f.unloads?.isNone && !f.isBusy) = true) :
    Settled frames := by
  intro f hf
  have hsettled := List.all_eq_true.mp h f hf
  rw [Bool.and_eq_true, Option.isNone_iff_eq_none, Bool.not_eq_true'] at hsettled
  exact hsettled

theorem isBusy_of_isLight (h : frame.isLight = true) : frame.isBusy = false := by
  cases frame with
  | code actor routine =>
    cases actor with
    | handle | release => rfl
    | _ => cases h
  | evict | vacate | enqueue => rfl
  | _ => cases h

theorem settled_light (h : ∀ f ∈ frames, f.isLight = true) : Settled frames := by
  intro f hf
  have light := h f hf
  refine ⟨?_, isBusy_of_isLight light⟩
  cases f with
  | mark | settle | unmark => cases light
  | _ => rfl

theorem Settled.append {lower : List (Frame σ)} (h : Settled frames) (hl : Settled lower) :
    Settled (frames ++ lower) := by
  intro f hf
  rcases List.mem_append.mp hf with hf | hf
  · exact h f hf
  · exact hl f hf

theorem Rests.settled (h : frame.Rests hub frames) : Settled frames := by
  cases h with
  | flush | idle | drain => exact settled_of_all rfl

theorem Pops.settled {handle : Handle} (h : frame.Pops hub handle frames) : Settled frames := by
  cases h with
  | flush | idle | await | drain => exact settled_of_all rfl

theorem Settled.among (h : Settled frames) (infos : List Info) :
    ∀ f ∈ frames, ∀ info, f.unloads? = some info → info ∈ infos := by
  intro f hf info hi
  rw [(h f hf).1] at hi
  cases hi

theorem Settled.idle (h : Settled frames) : ∀ f ∈ frames, f.isBusy = false :=
  fun f hf => (h f hf).2

private theorem among_unload {app : App σ} {first : Frame σ} {started : Bool}
    {lower : List (Frame σ)} (mem : app ∈ hub.apps) (hf : first.unloads? = none)
    (hl : Settled lower) :
    ∀ f ∈ first :: .mark app.nanoapp.info started :: lower, ∀ info, f.unloads? = some info →
      info ∈ hub.infos := by
  intro f hm info hi
  rcases List.mem_cons.mp hm with rfl | hm
  · rw [hf] at hi
    cases hi
  · rcases List.mem_cons.mp hm with rfl | hm
    · cases hi
      exact Hub.mem_infos.mpr ⟨app, mem, rfl⟩
    · exact hl.among _ f hm info hi

namespace Turnover

theorem of_loopSide (apart : frame.isBusy = false) (h : hub'.loopSide = hub.loopSide)
    (settled : Settled frames) : frame.Turnover hub.records hub'.records frames := by
  rw [Hub.records_of_loopSide h]
  exact .apart apart settled.idle

private theorem load {app : App σ} {client : LoadClient σ} (apart : frame.isBusy = false)
    (h : hub.load app client = .go hub' frames) :
    frame.Turnover hub.records hub'.records frames ∧
      ∀ f ∈ frames, ∀ info, f.unloads? = some info → info ∈ hub.infos := by
  rcases Hub.load_cases h with ⟨reason, rfl, rfl⟩ | ⟨id, hub₁, hr, hid, henrolled, rfl, rfl⟩
  · exact ⟨.apart apart (settled_of_all rfl).idle, (settled_of_all rfl).among _⟩
  · obtain ⟨hsystem, hbroadcast, hfree⟩ := Hub.firstFreeId_free hid
    have hindex : hub.indexOf? id = none := by simpa using hfree
    obtain ⟨hsupported, hunknown⟩ := Hub.loadRefusal?_eq_none hr
    rw [Hub.indexOf?_eq_none, Hub.infos_eq] at hindex
    rw [Hub.infos_eq] at hunknown
    have hjoined : hub₁.records = hub.records.join { app.nanoapp.info with instanceId := id } := by
      rw [henrolled]
      exact Hub.records_enroll ..
    have hloads : hub₁.loads = hub.loads + 1 := congrArg Records.loads hjoined
    refine ⟨?_, by simp [unloads?]⟩
    rw [← hub.length_roster]
    have join := @Turnover.join σ hub.records frame client (hub₁.isStopping id) app.onStart
      { app.nanoapp.info with instanceId := id } apart hsupported ⟨hsystem, hbroadcast⟩ hindex
      hunknown
    have hrecords : ((hub₁.setCurrent (some id)).record
        (.entered hub₁.loads id .start (hub₁.isStopping id))).records =
        (hub.records.join { app.nanoapp.info with instanceId := id }).note
          (.entered (hub.loads + 1) id .start (hub₁.isStopping id)) := by
      rw [hloads]
      exact congrArg (Records.note · _) hjoined
    exact hrecords ▸ join

private theorem goes_on {r : Reach} {a : Answer} {actor : Actor σ r a} {routine next : Routine σ r a}
    {upper : List (Frame σ)} (records : hub'.records = hub.records)
    (light : ∀ f ∈ upper, f.isLight = true) :
    (Frame.code actor routine).Turnover hub.records hub'.records (upper ++ [.code actor next]) ∧
      ∀ f ∈ upper ++ [.code actor next], ∀ info, f.unloads? = some info → info ∈ hub.infos := by
  rw [records]
  refine ⟨?_, fun f hf info hi => ?_⟩
  · cases actor with
    | loop | handle | release =>
      exact .apart rfl ((settled_light light).append (settled_of_all rfl)).idle
    | start | entry => exact .work light
  · rcases List.mem_append.mp hf with hf | hf
    · exact (settled_light light).among _ f hf info hi
    · rw [List.mem_singleton.mp hf] at hi
      cases hi

private theorem code {r : Reach} {a : Answer} {actor : Actor σ r a} {routine : Routine σ r a}
    (placed : ∀ i, actor.place? = some i → i < hub.apps.length)
    (ho : Routine.Outcome hub actor routine hub' frames) :
    (Frame.code actor routine).Turnover hub.records hub'.records frames ∧
      ∀ f ∈ frames, ∀ info, f.unloads? = some info → info ∈ hub.infos := by
  cases ho with
  | quiet calm side => exact @goes_on σ _ _ r a actor _ _ [] (Hub.records_of_loopSide side) (by simp)
  | tuned =>
    have records := fun registrations => Hub.records_alterApp hub actor.index
      fun n => show Nanoapp.load { n with registrations := registrations } = n.load ∧
        Nanoapp.info { n with registrations := registrations } = n.info from ⟨rfl, rfl⟩
    exact @goes_on σ _ _ _ a actor _ _ [] (records _) (by simp)
  | post kind posted =>
    have side := (Hub.loopSide_posted posted).trans (Hub.loopSide_offer ..)
    exact goes_on (Hub.records_of_loopSide side) (Hub.isLight_posted posted)
  | load hl => exact load rfl hl
  | unload mem =>
    refine ⟨.apart rfl ?_, among_unload mem rfl (settled_of_all rfl)⟩
    simp [isBusy]
  | idle | run | message =>
    exact ⟨.apart rfl (settled_of_all rfl).idle, (settled_of_all rfl).among _⟩
  | @deliver _ _ index app event next ha =>
    rw [Hub.records_deliverTo]
    exact ⟨.enter rfl (Hub.getElem?_roster ha) (settled_of_all rfl).idle (fun _ he => nomatch he),
      by simp [Hub.deliverTo, unloads?]⟩
  | ended place calm side =>
    refine ⟨of_loopSide ?_ side (by simp [Settled]), by simp⟩
    cases actor with
    | loop | handle | release => rfl
    | start | entry => cases place
  | started hs =>
    have ha := List.getElem?_eq_getElem (placed _ rfl)
    rcases Hub.finishStart_cases ha hs with
      ⟨rfl, upper, hgo, rfl⟩ | ⟨rfl, other, ho, hid, rfl, rfl⟩
    · obtain ⟨side, light⟩ := Hub.light_announce hgo
      rw [Hub.records_of_loopSide side]
      exact ⟨.started (Hub.getElem?_roster ha) light (settled_of_all rfl).idle,
        ((settled_light light).append (settled_of_all rfl)).among _⟩
    · refine ⟨.failed (Hub.getElem?_roster ha) ?_ hid (settled_of_all rfl).idle,
        among_unload ho rfl (settled_of_all rfl)⟩
      rw [← Hub.infos_eq]
      exact Hub.mem_infos.mpr ⟨other, ho, rfl⟩
  | @left index =>
    have ha := List.getElem?_eq_getElem (placed index rfl)
    rw [Hub.loadAt_eq ha]
    exact ⟨.left (Hub.getElem?_roster ha), by simp⟩

private theorem perform {serial : Nat} {work : SystemWork σ} (apart : frame.isBusy = false)
    (h : hub.perform serial work = .go hub' frames) :
    frame.Turnover hub.records hub'.records frames ∧
      ∀ f ∈ frames, ∀ info, f.unloads? = some info → info ∈ hub.infos := by
  rcases Hub.perform_cases h with
    ⟨-, rfl, rfl⟩ | ⟨app, -, -, hl⟩ | ⟨app, -, -, rfl, rfl⟩ |
    ⟨instanceId, force, app, -, mem, -, rfl, rfl⟩ |
    ⟨instanceId, force, report, reason, -, hreport, rfl, rfl⟩ | ⟨kind, routine, -, rfl, rfl⟩
  · exact ⟨.apart apart (by simp), by simp⟩
  · exact load apart hl
  · exact ⟨.apart apart (by simp), by simp⟩
  · exact ⟨.apart apart (by simp [isBusy]), among_unload mem rfl (settled_of_all rfl)⟩
  · exact ⟨.apart apart (by simp), by simp⟩
  · exact ⟨.apart apart (settled_of_all rfl).idle, (settled_of_all rfl).among _⟩

end Turnover

/-- A step changes the records in one of the listed ways, and lets an unload begin only for an app
that is loaded. -/
theorem step_turnover (placed : ∀ i, frame.index? = some i → i < hub.apps.length)
    (h : frame.step hub = .go hub' frames) :
    frame.Turnover hub.records hub'.records frames ∧
      ∀ f ∈ frames, ∀ info, f.unloads? = some info →
        info ∈ hub.infos ∨ frame.unloads? = some info := by
  have left : (∀ f ∈ frames, ∀ info, f.unloads? = some info → info ∈ hub.infos) →
      ∀ f ∈ frames, ∀ info, f.unloads? = some info →
        info ∈ hub.infos ∨ frame.unloads? = some info :=
    fun h f hf info hi => .inl (h f hf info hi)
  have apart : frame.isBusy = false → hub'.loopSide.records = hub.loopSide.records →
      Settled frames → frame.Turnover hub.records hub'.records frames ∧
        ∀ f ∈ frames, ∀ info, f.unloads? = some info →
          info ∈ hub.infos ∨ frame.unloads? = some info := by
    intro hapart hrecords settled
    refine ⟨?_, left (settled.among _)⟩
    rw [Hub.records, Hub.records, hrecords]
    exact .apart hapart settled.idle
  cases frame with
  | code actor routine =>
    obtain ⟨turnover, among⟩ := Turnover.code placed (Routine.step_outcome placed h)
    exact ⟨turnover, left among⟩
  | evict | vacate | enqueue =>
    obtain ⟨side, light⟩ := step_light rfl h
    exact apart rfl (congrArg LoopSide.records side) (settled_light light)
  | dispatch handle =>
    rcases Hub.dispatch_cases h with ⟨posting, -, rfl, rfl⟩ | ⟨-, rfl, rfl⟩
    · exact apart rfl rfl (settled_of_all rfl)
    · exact apart rfl rfl (settled_of_all rfl)
  | discard handle =>
    rcases Hub.discard_cases h with ⟨rfl, ⟨posting, -, rfl⟩ | ⟨-, rfl⟩⟩
    · exact apart rfl rfl (settled_of_all rfl)
    · exact apart rfl rfl (settled_of_all rfl)
  | distribute posting index reached =>
    rcases Hub.offerTo_cases h with
      ⟨app, ha, -, rfl, rfl⟩ | ⟨app, -, -, rfl, rfl⟩ | ⟨-, hcount, rfl⟩
    · rw [Hub.records_deliverTo]
      refine ⟨.enter rfl (Hub.getElem?_roster ha) (settled_of_all rfl).idle (fun number he => ?_),
        by simp [Hub.deliverTo, unloads?]⟩
      exact ⟨posting, reached, rfl, (Option.some.inj he).symm⟩
    · exact apart rfl rfl (settled_of_all rfl)
    · rcases hcount with rfl | rfl
      · exact apart rfl rfl (settled_of_all rfl)
      · exact apart rfl rfl (settled_of_all rfl)
  | delivered index =>
    cases h
    have hrecords := Hub.records_alterApp hub index fun n : Nanoapp =>
      show n.countEvent.load = n.load ∧ n.countEvent.info = n.info from ⟨rfl, rfl⟩
    exact apart rfl hrecords (settled_of_all rfl)
  | complete posting =>
    rcases Hub.complete_cases h with
      ⟨-, rfl, rfl⟩ | ⟨callback, instanceId, -, rfl, rfl⟩ | ⟨work, -, hw⟩
    · exact apart rfl rfl (settled_of_all rfl)
    · exact apart rfl rfl (settled_of_all rfl)
    · obtain ⟨turnover, among⟩ :=
        @Turnover.perform _ _ _ (.complete posting) _ _ _ rfl hw
      exact ⟨turnover, left among⟩
  | answer client result =>
    cases client with
    | routine actor next =>
      cases h
      exact apart rfl rfl (settled_of_all rfl)
    | request appId =>
      cases result with
      | ok | error =>
        cases h
        exact apart rfl rfl (settled_of_all rfl)
  | mark info started =>
    cases started with
    | true =>
      cases h
      exact ⟨.apart rfl (by simp [isBusy]), by simp [unloads?]⟩
    | false =>
      cases h
      exact ⟨.mark, by simp [unloads?]⟩
  | settle info started previous =>
    rcases Hub.settleUnload_cases h with
      ⟨hi, rfl, rfl⟩ | ⟨index, hi, ⟨rfl, upper, hgo, rfl⟩ | ⟨rfl, rfl, rfl⟩⟩
    · rw [Hub.indexOf?_eq_none, Hub.infos_eq] at hi
      refine ⟨?_, by simp⟩
      cases started with
      | true => exact .apart rfl (by simp)
      | false => exact .gone hi
    · obtain ⟨side, light⟩ := Hub.light_announce hgo
      rw [Hub.records_of_loopSide side]
      obtain ⟨app, ha, -⟩ := Hub.indexOf?_eq_some hi
      have hlt := (List.getElem?_eq_some_iff.mp (Hub.getElem?_roster ha)).1
      refine ⟨.depart rfl hlt light (by simp [isBusy]), fun f hf other ho => ?_⟩
      rcases List.mem_append.mp hf with hf | hf
      · exact .inl ((settled_light light).among _ f hf other ho)
      · simp only [List.mem_cons, List.not_mem_nil, or_false] at hf
        rcases hf with rfl | rfl
        · cases ho
        · exact .inr ho
    · obtain ⟨app, ha, named⟩ := Hub.indexOf?_eq_some hi
      exact ⟨.settle (Hub.getElem?_roster ha) named, by simp [unloads?]⟩
  | remove index started =>
    rcases Hub.removeAt_cases h with
      ⟨ha, rfl, rfl⟩ | ⟨app, ha, ⟨rfl, rfl, rfl⟩ | ⟨rfl, rfl, rfl⟩⟩
    · refine ⟨.missing ?_, by simp⟩
      rw [Hub.roster_eq, List.getElem?_map, ha]
      rfl
    · exact ⟨.finish (Hub.getElem?_roster ha), by simp [unloads?]⟩
    · exact ⟨.remove (Hub.getElem?_roster ha), by simp [unloads?]⟩
  | release load info managers =>
    cases managers with
    | nil =>
      cases h
      exact ⟨.released, by simp⟩
    | cons manager rest =>
      cases h
      exact ⟨.release, by simp [unloads?]⟩
  | erase index load info =>
    cases h
    refine ⟨?_, by simp⟩
    have hrecords : ((hub.erase index load info.instanceId).setCurrent none).records =
        hub.records.erase index load info.instanceId := hub.records_erase index load info.instanceId
    rw [hrecords]
    exact .erase
  | turn handle =>
    cases h
    exact apart rfl (congrArg LoopSide.records (Hub.loopSide_rollWakeups hub)) (settled_of_all rfl)
  | restore | cycle | endCycle | exit =>
    cases h
    exact apart rfl rfl (settled_of_all rfl)
  | unmark info previous =>
    cases h
    exact apart rfl rfl (settled_of_all rfl)
  | flush | drain | await | idle =>
    have side := congrArg LoopSide.records (loopSide_takes rfl h)
    obtain ⟨hub₁, -, ⟨-, rests⟩ | ⟨handle, -, pops⟩⟩ := takes_cases rfl h
    · exact apart rfl side rests.settled
    · exact apart rfl side pops.settled
  | serve =>
    simp only [step] at h
    split at h
    all_goals
      cases h
      exact apart rfl rfl (settled_of_all rfl)
  | clear =>
    simp only [step] at h
    split at h
    next =>
      cases h
      exact apart rfl rfl (settled_of_all rfl)
    next hne =>
      cases h
      refine ⟨@Turnover.depart _ _ _ _ [] _ rfl ?_ (by simp) (by simp [isBusy]), by simp [unloads?]⟩
      rw [hub.length_roster]
      have hpos := List.length_pos_of_ne_nil fun he => hne (List.isEmpty_iff.mpr he)
      omega

/-- The roster changes only where an app joins or leaves. -/
theorem Turnover.roster {r r' : Records σ} (h : frame.Turnover r r' frames) :
    r'.roster = r.roster ∨
      (∃ info : Info, r'.roster = r.roster ++ [(r.loads + 1, info)] ∧
        info.instanceId ≠ systemId) ∨
      ∃ index, r'.roster = r.roster.eraseIdx index := by
  cases h with
  | join _ _ named => exact .inr (.inl ⟨_, rfl, named.1⟩)
  | erase => exact .inr (.inr ⟨_, rfl⟩)
  | _ => exact .inl rfl

/-- Apps that differ in their instance ids go on to differ. -/
theorem Turnover.distinct {r r' : Records σ} (h : frame.Turnover r r' frames)
    (once : (r.infos.map Info.instanceId).Nodup) : (r'.infos.map Info.instanceId).Nodup := by
  cases h with
  | @join _ _ _ _ info _ _ _ fresh =>
    show (((r.roster ++ [(r.loads + 1, info)]).map Prod.snd).map Info.instanceId).Nodup
    rw [List.map_append, List.map_append]
    exact nodup_concat once fresh
  | @erase index =>
    have hsub : (r.roster.eraseIdx index).Sublist r.roster := List.eraseIdx_sublist ..
    exact ((hsub.map Prod.snd).map Info.instanceId).nodup once
  | _ => exact once

end Frame

end SensorHub
