import SensorHub.Proofs.Clearing
import SensorHub.Proofs.Departure
import SensorHub.Proofs.Statuses

namespace SensorHub

variable {σ : Type}

open Ledger

namespace Row

variable {r r' : Row σ} {takes : Bool} {serial : Nat}

theorem Shift.news (h : Shift takes r r') : ∃ news, r'.journal = news ++ r.journal := by
  cases h with
  | stay journal | doom journal => exact ⟨_, journal⟩
  | @queued news posting now journal =>
    exact ⟨.admitted posting.serial now :: news, journal⟩
  | @pop news handle posting _ journal =>
    exact ⟨.popped handle (some posting.serial) :: news, journal⟩
  | @evict later news posting journal =>
    exact ⟨later ++ .evicted posting.serial :: news, by rw [journal, List.append_assoc]; rfl⟩
  | @enter news load instanceId number stopping journal =>
    exact ⟨.entered load instanceId (.event (some number)) stopping :: news, journal⟩

theorem Shift.gone (h : Shift takes r r') (hg : serial ∈ r.gone) : serial ∈ r'.gone := by
  have hevicted : serial ∈ evictions r.journal → serial ∈ r'.gone := by
    intro he
    obtain ⟨news, hj⟩ := h.news
    refine List.mem_append_left _ ?_
    rw [hj, evictions, List.filterMap_append]
    exact List.mem_append_right _ he
  rcases List.mem_append.mp hg with he | hd
  · exact hevicted he
  · cases h with
    | stay _ _ _ doomed | queued _ _ _ doomed | pop _ _ _ _ doomed | enter _ _ _ _ _ doomed =>
      rw [← doomed] at hd
      exact List.mem_append_right _ hd
    | doom _ _ _ _ _ doomed =>
      refine List.mem_append_right _ ?_
      rw [doomed, List.map_append]
      exact List.mem_append_right _ hd
    | @evict _ _ posting journal _ _ _ doomed =>
      rw [doomed, List.map_cons] at hd
      rcases List.mem_cons.mp hd with rfl | hd
      · have hnow : .evicted posting.serial ∈ r'.journal := by
          rw [journal]
          exact List.mem_append_right _ (List.mem_cons_self ..)
        exact List.mem_append_left _ (List.mem_filterMap.mpr ⟨_, hnow, rfl⟩)
      · exact List.mem_append_right _ hd

/-- Once an event that was taken is no longer on its way, no app begins to handle it. -/
theorem Shift.passed (h : Shift takes r r') (hr : r.InOrder) (once : (admissions r.journal).Nodup)
    (popped : serial ∈ pops r.journal) (apart : serial ∉ r.transit) :
    serial ∉ r'.transit ∧
      tally Incident.enters? serial r'.journal = tally Incident.enters? serial r.journal := by
  have aside : ∀ {news : List Incident}, (∀ i ∈ news, i.isAside = true) →
      tally Incident.enters? serial (news ++ r.journal) =
        tally Incident.enters? serial r.journal := by
    intro news hn
    have hnames := filterMap_aside
      (fun i hi => (Incident.names_of_isAside (hn i hi)).2.2.2) r.journal
    rw [tally, hnames, tally]
  cases h with
  | stay journal news _ _ transit =>
    rw [journal]
    exact ⟨fun hs => apart (transit serial hs), aside news⟩
  | queued journal news _ _ transit =>
    rw [journal, tally_skip rfl, transit]
    exact ⟨apart, aside news⟩
  | @pop _ _ posting _ journal news waiting _ transit =>
    rw [journal, tally_skip rfl, transit]
    refine ⟨fun hs => ?_, aside news⟩
    rw [List.mem_singleton] at hs
    have hdistinct := hr.order.nodup once
    rw [waiting] at hdistinct
    exact (List.nodup_append.mp hdistinct).2.2 serial popped _ (List.mem_cons_self ..) hs
  | doom journal news _ _ _ _ transit =>
    rw [journal, transit]
    exact ⟨apart, aside news⟩
  | evict journal after news _ _ transit =>
    have hafter := filterMap_aside (fun i hi => (Incident.names_of_isAside (after i hi)).2.2.2)
    rw [journal, transit, tally, hafter]
    refine ⟨apart, Eq.trans ?_ (aside news)⟩
    exact tally_skip rfl
  | @enter _ _ _ number _ journal news mem _ _ _ transit =>
    have hother : ¬number = serial := by
      rintro rfl
      exact apart mem
    rw [journal, tally_cons]
    refine ⟨fun hs => apart (transit serial hs), ?_⟩
    rw [if_neg (by simpa [Incident.enters?, EntryPoint.serial?] using hother)]
    exact aside news

end Row

namespace Frame

variable {hub hub' : Hub σ} {frame : Frame σ} {frames rest : List (Frame σ)}

/-- The frame takes down an app that has started, or is about to. -/
def takesDown : Frame σ → Bool
  | .settle _ true _ | .remove _ true => true
  | _ => false

/-- An app that has started is taken down as soon as the light frames are done. -/
def isParting : List (Frame σ) → Bool
  | [] => false
  | frame :: rest => frame.takesDown || frame.isLight && isParting rest

/-- An app that has started waits to be taken down only below a flush of the queue. -/
def Guarded : List (Frame σ) → Prop
  | [] => True
  | frame :: rest =>
    (frame.isLight = false → frame ≠ .flush → isParting rest = false) ∧ Guarded rest

theorem isLight_of_heavy (h : frame.isGuest = false) : frame.isLight = false := by
  refine Bool.eq_false_iff.mpr fun light => ?_
  rw [isGuest_of_isLight light] at h
  cases h

theorem takesDown_of_isLight (h : frame.isLight = true) : frame.takesDown = false := by
  cases frame with
  | settle | remove => cases h
  | _ => rfl

theorem isParting_light (light : ∀ f ∈ frames, f.isLight = true) :
    isParting (frames ++ rest) = isParting rest := by
  induction frames with
  | nil => rfl
  | cons frame frames ih =>
    have hframe := light frame (List.mem_cons_self ..)
    rw [List.cons_append, isParting, takesDown_of_isLight hframe, hframe, Bool.false_or,
      Bool.true_and]
    exact ih fun f hf => light f (List.mem_cons_of_mem _ hf)

theorem isParting_append (stay : ∀ f ∈ frames, f.takesDown = false)
    (hrest : isParting rest = false) : isParting (frames ++ rest) = false := by
  induction frames with
  | nil => exact hrest
  | cons frame frames ih =>
    have hframes := ih fun f hf => stay f (List.mem_cons_of_mem _ hf)
    rw [List.cons_append, isParting, stay frame (List.mem_cons_self ..), hframes, Bool.and_false,
      Bool.or_false]

theorem Guarded.append (stay : ∀ f ∈ frames, f.takesDown = false) (hrest : isParting rest = false)
    (hg : Guarded rest) : Guarded (frames ++ rest) := by
  induction frames with
  | nil => exact hg
  | cons frame frames ih =>
    have hstay : ∀ f ∈ frames, f.takesDown = false := fun f hf => stay f (List.mem_cons_of_mem _ hf)
    exact ⟨fun _ _ => isParting_append hstay hrest, ih hstay⟩

theorem Guarded.lights (light : ∀ f ∈ frames, f.isLight = true) (hg : Guarded rest) :
    Guarded (frames ++ rest) := by
  induction frames with
  | nil => exact hg
  | cons frame frames ih =>
    refine ⟨fun heavy => ?_, ih fun f hf => light f (List.mem_cons_of_mem _ hf)⟩
    rw [light frame (List.mem_cons_self ..)] at heavy
    cases heavy

theorem step_stay (placed : ∀ i, frame.index? = some i → i < hub.apps.length)
    (ordinary : frame.turnsPhase = false) (h : frame.step hub = .go hub' frames) :
    ∀ f ∈ frames, f.takesDown = false := by
  obtain ⟨-, none⟩ := step_phase placed ordinary h
  have stays : Stays frames := by
    cases step_announces placed h with
    | mute _ stays =>
      rcases stays with stays | rfl
      · exact stays
      · cases ordinary
    | started ha hgo =>
      exact (stays_light (Hub.light_announce hgo).2).append (by simp [Stays])
    | stopped => cases ordinary
  intro f hf
  cases f with
  | settle => cases none _ hf
  | remove index started =>
    cases started with
    | true => exact absurd hf (stays index)
    | false => rfl
  | _ => rfl

/-- Only a flush, a frame that takes down an app and a shutdown lead to where an app is taken
down. -/
theorem step_parting (placed : ∀ i, frame.index? = some i → i < hub.apps.length)
    (apart : frame.takesDown = false) (opened : frame ≠ .clear) (hrest : isParting rest = false)
    (h : frame.step hub = .go hub' frames) : isParting (frames ++ rest) = false := by
  cases step_turn placed h with
  | stay ordinary => exact isParting_append (step_stay placed ordinary h) hrest
  | await | close | drain | drained | cleared | spare | gone | unmark =>
    exact isParting_append (by simp [takesDown]) hrest
  | clear => exact absurd rfl opened
  | mark => rfl
  | @settle _ started _ _ _ upper side light =>
    cases started with
    | true => cases apart
    | false =>
      rw [List.append_assoc, isParting_light light]
      rfl

theorem step_guarded (placed : ∀ i, frame.index? = some i → i < hub.apps.length)
    (hg : Guarded (frame :: rest)) (h : frame.step hub = .go hub' frames) :
    Guarded (frames ++ rest) := by
  obtain ⟨hframe, hrest⟩ := hg
  by_cases light : frame.isLight = true
  · exact hrest.lights (step_light light h).2
  by_cases flush : frame = .flush
  · subst flush
    obtain ⟨hub₁, -, ⟨-, rests⟩ | ⟨handle, -, pops⟩⟩ := takes_cases rfl h
    · cases rests
      exact hrest
    · cases pops
      exact ⟨fun _ _ => rfl, fun _ hne => absurd rfl hne, hrest⟩
  have hbelow := hframe (Bool.eq_false_iff.mpr light) flush
  cases step_turn placed h with
  | stay ordinary => exact hrest.append (step_stay placed ordinary h) hbelow
  | await | close | drain | drained | cleared | spare | gone | unmark =>
    exact hrest.append (by simp [takesDown]) hbelow
  | clear => exact ⟨fun _ _ => rfl, fun _ _ => hbelow, hrest⟩
  | mark => exact ⟨fun _ hne => absurd rfl hne, fun _ _ => hbelow, hrest⟩
  | settle side lights =>
    rw [List.append_assoc]
    exact Guarded.lights lights ⟨fun _ _ => rfl, fun _ _ => hbelow, hrest⟩

def slot? : Frame σ → Option Handle
  | .cycle handle | .turn handle | .dispatch handle => some handle
  | _ => none

/-- The frame is to dispatch the event, which is in its slot. -/
def Bears (hub : Hub σ) (posting : Posting σ) (frame : Frame σ) : Prop :=
  ∃ handle, frame.slot? = some handle ∧ hub.pool.inspect handle = some posting

end Frame

namespace Records

open SensorHub.Frame

variable {first r r' : Records σ} {answered : Nat → Bool → Prop} {frame : Frame σ}
  {frames rest : List (Frame σ)} {load : Nat} {info : Info} {kept newcomers : List (Nat × Info)}

theorem Since.mem_first (h : Since first r kept newcomers) (mem : (load, info) ∈ r.roster)
    (old : load ≤ first.loads) : (load, info) ∈ first.roster := by
  rw [h.roster] at mem
  rcases List.mem_append.mp mem with hkept | hnew
  · exact h.order.subset hkept
  · exact absurd (h.later _ hnew) (Nat.not_lt.mpr old)

/-- Where an app is about to be taken down, or where no app is busy, none of those that are loaded
has begun to end. -/
theorem Tended.unended (h : Tended answered r (frame :: rest)) (heavy : frame.isLight = false)
    (idle : frame.isBusy = false ∨ frame.takesDown = true) (mem : (load, info) ∈ r.roster) :
    ∀ i ∈ r.life load, i.ends? = none := by
  have unended : ∀ {stopping : Bool} {visits : List (Option Nat × Bool)},
      ∀ i ∈ Task.life load info stopping visits (.stay : Task σ), i.ends? = none := by
    intro stopping visits i hi
    simp only [Task.life, Life.visit, List.mem_append, List.mem_cons, List.not_mem_nil, or_false,
      List.mem_flatMap] at hi
    rcases hi with (rfl | rfl | rfl) | ⟨visit, -, rfl | rfl⟩
    all_goals rfl
  have atRest : AtRest answered r load → ∀ i ∈ r.life load, i.ends? = none := by
    intro hrest
    obtain ⟨-, stopping, visits, hlife⟩ := hrest.of_mem h.enrolled mem
    rw [hlife]
    exact unended
  cases h with
  | idle _ _ hrest => exact atRest (hrest load)
  | @busy _ busyLoad other _ _ _ enrolled placed busy _ hlife hrest =>
    by_cases hload : load = busyLoad
    · subst hload
      obtain rfl := enrolled.load_unique mem (List.mem_of_getElem? placed)
      rw [hlife]
      cases busy with
      | above light =>
        rw [heavy] at light
        cases light
      | leave => exact unended
      | _ => rcases idle with idle | idle <;> cases idle
    · exact atRest (hrest load hload)

end Records

namespace Frame

open Records

variable {hub hub' : Hub σ} {frame : Frame σ} {frames : List (Frame σ)} {r r' : Records σ}
  {load : Nat} {instanceId : UInt16}

/-- Only the frame that takes down an app that has started lets the app end. -/
theorem Turnover.ends (t : frame.Turnover r r' frames)
    (now : .entered load instanceId .finish true ∈ r'.deeds)
    (new : .entered load instanceId .finish true ∉ r.deeds) :
    ∃ index info, frame = .remove index true ∧ r.roster[index]? = some (load, info) ∧
      info.instanceId = instanceId := by
  have noted : ∀ {deed : Incident}, .entered load instanceId .finish true ∈ (r.note deed).deeds →
      .entered load instanceId .finish true = deed := by
    intro deed hmem
    rcases List.mem_cons.mp hmem with he | hold
    · exact he
    · exact absurd hold new
  cases t with
  | @finish index _ info _ placed =>
    cases noted now
    exact ⟨index, info, rfl, placed, rfl⟩
  | enter | started | failed | left | release => cases noted now
  | join =>
    rcases List.mem_cons.mp now with he | hold
    · cases he
    · rcases List.mem_cons.mp hold with he | hold
      · cases he
      · exact absurd hold new
  | erase =>
    rcases List.mem_cons.mp now with he | hold
    · cases he
    · exact absurd hold new
  | apart | depart | work | mark | gone | settle | missing | remove | released =>
    exact absurd now new

theorem step_ends (placed : ∀ i, frame.index? = some i → i < hub.apps.length)
    (h : frame.step hub = .go hub' frames)
    (now : .entered load instanceId .finish true ∈ hub'.journal)
    (new : .entered load instanceId .finish true ∉ hub.journal) :
    ∃ index info, frame = .remove index true ∧ (load, info) ∈ hub.records.roster ∧
      info.instanceId = instanceId ∧
      hub'.journal = .entered load instanceId .finish true :: hub.journal := by
  obtain ⟨turnover, -⟩ := step_turnover placed h
  obtain ⟨index, info, rfl, hplaced, hid⟩ := turnover.ends
    (List.mem_filter.mpr ⟨now, rfl⟩) fun hold => new (List.mem_of_mem_filter hold)
  refine ⟨index, info, rfl, List.mem_of_getElem? hplaced, hid, ?_⟩
  rcases Hub.removeAt_cases h with ⟨-, rfl, -⟩ | ⟨app, ha, ⟨-, rfl, -⟩ | ⟨hno, -⟩⟩
  · exact absurd now new
  · rw [Hub.getElem?_roster ha] at hplaced
    cases hplaced
    rw [← hid]
    rfl
  · cases hno

end Frame

namespace Machine

open SensorHub.Frame

variable {start m m₁ m' last next : Machine σ} {hub hub' : Hub σ} {frame : Frame σ}
  {frames lower rest : List (Frame σ)} {posting : Posting σ} {serial : Nat}

/-- In every run apps that have started wait to be taken down below a flush only. -/
theorem Reachable.guarded (hm : m.Reachable) : Guarded m.frames := by
  refine hm.keeps (P := fun _ frames => Guarded frames) ?_ ?_ ?_
  · intro config collaborators memory now routine _
    exact ⟨fun _ _ => rfl, trivial⟩
  · intro hub hub' frame frames rest hm hg h
    exact step_guarded hm.nested.1 hg h
  · intro hub frames routine hg
    refine ⟨fun heavy => ?_, hg⟩
    cases heavy

def Left (m : Machine σ) (serial : Nat) : Prop :=
  serial ∈ SensorHub.pops m.hub.journal ∨ serial ∈ m.row.gone

theorem Reaches.gone (hm : m.Reachable) (hr : m.Reaches m') (hg : serial ∈ m.row.gone) :
    serial ∈ m'.row.gone := by
  refine hr.keeps (P := fun hub frames => serial ∈ (row ⟨hub, frames⟩).gone) hg ?_ ?_
  · intro hub hub' frame frames rest hr hg h
    have hx : Reachable ⟨hub, frame :: rest⟩ := hm.reaches hr
    exact (hx.shift h).gone hg
  · intro hub frames routine _ hg
    exact hg

theorem Left.reaches (hm : m.Reachable) (h : m.Left serial) (hr : m.Reaches m') :
    m'.Left serial := by
  rcases h with hpopped | hgone
  · obtain ⟨news, hpops⟩ := hr.pops hm
    refine .inl ?_
    rw [hpops]
    exact List.mem_append_left _ hpopped
  · exact .inr (hr.gone hm hgone)

theorem Reachable.left_of_empty (hm : m.Reachable) (empty : m.hub.queue.toList = [])
    (admitted : serial ∈ SensorHub.admissions m.hub.journal) : m.Left serial := by
  have hwaiting : m.row.waiting = [] := by
    show m.hub.waiting = []
    rw [Hub.waiting, empty]
    rfl
  have hmem := hm.inOrder.perm.mem_iff.mp admitted
  rw [hwaiting, List.map_nil, List.append_nil] at hmem
  exact List.mem_append.mp hmem

/-- When an app that has started is taken down, everything that had been queued before has left the
queue, unless the hub has stopped. -/
theorem Reaches.left_before (hm : m.Reachable) (apart : isParting m.frames = false)
    (hr : m.Reaches m') (admitted : serial ∈ SensorHub.admissions m.hub.journal)
    (parting : isParting m'.frames = true) : m'.hub.running = false ∨ m'.Left serial := by
  revert parting
  refine hr.keeps (P := fun hub frames => isParting frames = true →
    hub.running = false ∨ Left ⟨hub, frames⟩ serial) ?_ ?_ ?_
  · intro parting
    rw [apart] at parting
    cases parting
  · intro hub hub' frame frames rest hr before h parting
    have hx : Reachable ⟨hub, frame :: rest⟩ := hm.reaches hr
    have hmove : Move ⟨hub, frame :: rest⟩ ⟨hub', frames ++ rest⟩ := .of_go h
    have stays : hub.running = false ∨ Left ⟨hub, frame :: rest⟩ serial →
        hub'.running = false ∨ Left ⟨hub', frames ++ rest⟩ serial := by
      rintro (stopped | left)
      · refine .inl (Bool.eq_false_iff.mpr fun running => ?_)
        rw [(step_closing hx.nested.1 h).1 running] at stopped
        cases stopped
      · exact .inr (left.reaches hx (.single hmove))
    by_cases light : frame.isLight = true
    · rw [isParting_light (step_light light h).2] at parting
      refine stays (before ?_)
      rw [isParting, light, parting, Bool.true_and, Bool.or_true]
    by_cases flush : frame = .flush
    · subst flush
      obtain ⟨hub₁, hsample, ⟨rfl, rests⟩ | ⟨handle, -, pops⟩⟩ := takes_cases rfl h
      · cases rests with
        | flush empty =>
          have hx' := hx.move hmove
          obtain ⟨news, hadmissions⟩ := Reaches.admissions hm (hr.tail hmove)
          refine .inr (hx'.left_of_empty ?_ ?_)
          · rcases hsample with rfl | rfl
            · exact empty
            · exact empty
          · rw [hadmissions]
            exact List.mem_append_left _ admitted
      · cases pops
        cases parting
    by_cases hframe : frame.takesDown = true
    · refine stays (before ?_)
      rw [isParting, hframe, Bool.true_or]
    by_cases opened : frame = .clear
    · -- a hub that is cleared has stopped
      subst opened
      exact stays (.inl (hx.shutting.stopped .clear (List.mem_cons_self ..) rfl))
    have hrest := hx.guarded.1 (Bool.eq_false_iff.mpr light) flush
    rw [step_parting hx.nested.1 (Bool.eq_false_iff.mpr hframe) opened hrest h] at parting
    cases parting
  · intro hub frames routine _ before parting
    exact before parting

/-- What has become of an event that waited in the queue at `start`. -/
inductive Fate (start m : Machine σ) (posting : Posting σ) : Prop
  | waits (mem : posting ∈ m.hub.waiting)
  | gone (left : posting.serial ∈ m.row.gone)
  | taken {f : Frame σ} (mem : f ∈ m.frames) (bears : f.Bears m.hub posting)
  | dispatched {first : Machine σ} (before : start.Reaches first)
      (dispatches : first.Dispatches posting) (after : first.Reaches m)

/-- An event in its slot is brought to where it is dispatched. -/
private theorem fate_bears (hr : start.Reaches ⟨hub, frame :: rest⟩)
    (bears : frame.Bears hub posting) (h : frame.step hub = .go hub' frames) :
    Fate start ⟨hub', frames ++ rest⟩ posting := by
  have hmove : Move ⟨hub, frame :: rest⟩ ⟨hub', frames ++ rest⟩ := .of_go h
  obtain ⟨handle, hslot, held⟩ := bears
  cases frame with
  | cycle other =>
    cases hslot
    cases h
    exact .taken (List.mem_cons_of_mem _ (List.mem_cons_self ..)) ⟨handle, rfl, held⟩
  | turn other =>
    cases hslot
    cases h
    have hsame := (Hub.Calm.refl hub).rollWakeups.inspect handle
    exact .taken (List.mem_cons_self ..) ⟨handle, rfl, hsame.trans held⟩
  | dispatch other =>
    cases hslot
    rcases Hub.dispatch_cases h with ⟨other, hother, rfl, rfl⟩ | ⟨hnone, -⟩
    · cases held.symm.trans hother
      exact .dispatched (hr.tail hmove) ⟨_, rfl⟩ .refl
    · cases held.symm.trans hnone
  | _ => cases hslot

private theorem fate_waits (hx : Reachable ⟨hub, frame :: rest⟩) (running : hub.running = true)
    (waits : posting ∈ hub.waiting) (h : frame.step hub = .go hub' frames) :
    Fate start ⟨hub', frames ++ rest⟩ posting := by
  by_cases htakes : frame.takes = true
  · obtain ⟨hub₁, hsample, ⟨rfl, -⟩ | ⟨handle, hp, pops⟩⟩ := takes_cases htakes h
    · rcases hsample with rfl | rfl
      · exact .waits waits
      · exact .waits waits
    · have hwaits : posting ∈ hub₁.waiting := by
        rcases hsample with rfl | rfl
        · exact waits
        · exact waits
      obtain ⟨queue, hlist, rfl⟩ := Hub.pop?_eq_some hp
      rw [Hub.waiting, hlist] at hwaits
      obtain ⟨k, hk, held⟩ := List.mem_filterMap.mp hwaits
      rcases List.mem_cons.mp hk with rfl | hk
      · cases pops with
        | flush | idle | await => exact .taken (List.mem_cons_self ..) ⟨k, rfl, held⟩
        | drain =>
          -- a hub that runs does not shut down
          have hstopped := hx.shutting.stopped .drain (List.mem_cons_self ..) rfl
          rw [running] at hstopped
          cases hstopped
      · exact .waits (List.mem_filterMap.mpr ⟨k, hk, held⟩)
  · have mem : posting ∈ (row ⟨hub, frame :: rest⟩).waiting := waits
    cases hx.shift h with
    | stay _ _ waiting | evict _ _ _ waiting | enter _ _ _ _ waiting =>
      rw [← waiting] at mem
      exact .waits mem
    | @queued _ p _ _ _ waiting =>
      have hmem := List.mem_append_left [p] mem
      rw [← waiting] at hmem
      exact .waits hmem
    | doom _ _ _ _ perm doomed =>
      rcases List.mem_append.mp (perm.mem_iff.mpr mem) with leaves | stays
      · refine .gone (List.mem_append_right _ ?_)
        rw [doomed]
        exact List.mem_map_of_mem (List.mem_append_left _ leaves)
      · exact .waits stays
    | pop taking => exact absurd taking htakes

theorem Reaches.fate (hm : m.Reachable) (hr : m.Reaches m') (running : m'.hub.running = true)
    (waits : posting ∈ m.hub.waiting) : Fate m m' posting := by
  revert running
  refine hr.keeps (P := fun hub frames => hub.running = true → Fate m ⟨hub, frames⟩ posting)
    ?_ ?_ ?_
  · intro _
    exact .waits waits
  · intro hub hub' frame frames rest hr before h running
    have hx : Reachable ⟨hub, frame :: rest⟩ := hm.reaches hr
    have hmove : Move ⟨hub, frame :: rest⟩ ⟨hub', frames ++ rest⟩ := .of_go h
    have hran : hub.running = true := (step_closing hx.nested.1 h).1 running
    cases before hran with
    | waits mem => exact fate_waits hx hran mem h
    | gone left => exact .gone (Reaches.gone hx (.single hmove) left)
    | @taken f mem bears =>
      rcases List.mem_cons.mp mem with rfl | mem
      · exact fate_bears hr bears h
      · obtain ⟨handle, hslot, held⟩ := bears
        have hcargo : .slot handle ∈ f.cargo := by
          cases f with
          | cycle | turn | dispatch =>
            cases hslot
            exact List.mem_singleton_self _
          | _ => cases hslot
        have hsame := (hx.traffic h).inspect_slot hx.tidy mem hcargo
        exact .taken (List.mem_append_right _ mem) ⟨handle, hslot, hsame.trans held⟩
    | dispatched earlier dispatches after => exact .dispatched earlier dispatches (after.tail hmove)
  · intro hub frames routine hr before running
    cases before running with
    | waits mem => exact .waits mem
    | gone left => exact .gone left
    | taken mem bears => exact .taken (List.mem_cons_of_mem _ mem) bears
    | dispatched earlier dispatches after =>
      exact .dispatched earlier dispatches (after.tail (.interrupt routine))

/-- While the loop does something else, an event that waited before and was taken from the queue has
been dispatched. -/
theorem Reaches.dispatched (hm : m.Reachable) (hr : m.Reaches m')
    (running : m'.hub.running = true) (hframes : m'.frames = frame :: rest)
    (heavy : frame.isGuest = false) (idle : frame.slot? = none)
    (waits : posting ∈ m.hub.waiting) (popped : posting.serial ∈ SensorHub.pops m'.hub.journal)
    (kept : posting.serial ∉ m'.row.gone) :
    ∃ first, m.Reaches first ∧ first.Dispatches posting ∧ first.Reaches m' := by
  have hm' := hm.reaches hr
  cases hr.fate hm running waits with
  | waits mem =>
    have hdistinct := hm'.inOrder.order.nodup hm'.lined.once
    have hline : posting.serial ∈ m'.row.waiting.map Posting.serial := List.mem_map_of_mem mem
    exact absurd rfl ((List.nodup_append.mp hdistinct).2.2 _ popped _ hline)
  | gone left => exact absurd left kept
  | @taken f mem bears =>
    obtain ⟨handle, hslot, -⟩ := bears
    rw [hframes] at mem
    rcases List.mem_cons.mp mem with rfl | mem
    · rw [idle] at hslot
      cases hslot
    · have halone := hm'.prompt.alone
      rw [hframes] at halone
      have hcalm := (List.pairwise_cons.mp halone).1 f mem heavy
      cases f with
      | cycle | turn | dispatch => cases hcalm
      | _ => cases hslot
  | dispatched before dispatches after => exact ⟨_, before, dispatches, after⟩

theorem Unloads.head {id : UInt16} {force : Bool} (hu : m.Unloads id force lower) :
    ∃ frame rest, m.frames = frame :: rest ∧ frame.isGuest = false ∧ frame.isBusy = false ∧
      frame.takesDown = false ∧ ∀ item ∈ frame.cargo, ∃ p, item = .posting p ∧
        p.completion = .work (.unload id force) := by
  cases hu with
  | routine frames => exact ⟨_, _, frames, rfl, rfl, rfl, by simp [Frame.cargo]⟩
  | @request posting _ frames work =>
    refine ⟨_, _, frames, rfl, rfl, rfl, fun item hi => ⟨posting, ?_, work⟩⟩
    exact List.mem_singleton.mp hi

/-- Where no stop is queued when an unload begins, there is none that the hub has yet to do. -/
theorem Unloads.no_stop {id : UInt16} {force : Bool} (hm : m.Reachable)
    (hu : m.Unloads id force lower)
    (unstopped : ∀ p ∈ m.hub.waiting, p.completion ≠ .work .shutdown) :
    ∀ p ∈ m.books.pending ++ m.books.out, p.completion ≠ .work .shutdown := by
  intro p hp stop
  obtain ⟨frame, rest, hframes, heavy, -, -, hcargo⟩ := hu.head
  have hprompt := hm.prompt
  rw [hframes] at hprompt
  have hbelow := hprompt.handlers heavy
  have hm_cargo : m.cargo = frame.cargo ++ rest.flatMap Frame.cargo := by
    rw [cargo, hframes, List.flatMap_cons]
  obtain ⟨way, event, offered, kind, -⟩ := hm.balanced.vouched p hp
  rw [stop] at kind
  obtain rfl := kind.of_shutdown
  obtain ⟨-, hkeeps⟩ := hm.balanced.stop_posting hp offered
  have posted : .posting p ∉ m.cargo := by
    intro hposting
    rw [hm_cargo] at hposting
    rcases List.mem_append.mp hposting with hposting | hposting
    · obtain ⟨q, he, hwork⟩ := hcargo _ hposting
      cases he
      rw [stop] at hwork
      cases hwork
    · obtain ⟨_, he⟩ := hbelow _ hposting rfl
      cases he
  rcases Hub.mem_books.mp hp with
    ⟨handle, hh, hinspect⟩ | ⟨item, hi, handle, hitem, hinspect⟩ | hwaits | hposting
  · exact unstopped p (List.mem_filterMap.mpr ⟨handle, hh, hinspect⟩) stop
  · cases item with
    | slot k =>
      rw [hm_cargo] at hi
      rcases List.mem_append.mp hi with hi | hi
      · obtain ⟨q, he, -⟩ := hcargo _ hi
        cases he
      · obtain ⟨_, he⟩ := hbelow _ hi rfl
        cases he
    | doomed k =>
      cases hitem
      -- a stop is never evicted
      have hdoomed := hm.tidy.doomed handle hi p hinspect
      rw [hkeeps] at hdoomed
      cases hdoomed
    | _ => cases hitem
  · have hshielded := hm.shielded
    rw [hframes] at hshielded
    have hnone := hshielded.none_below (isLight_of_heavy heavy)
    have hmem : p.serial ∈ deferred ((frame :: rest).flatMap Frame.cargo) := by
      refine List.mem_map_of_mem (List.mem_filterMap.mpr ⟨.waiting p, ?_, rfl⟩)
      rw [← hframes]
      exact hwaits
    rw [hnone] at hmem
    cases hmem
  · exact posted hposting

theorem Unloads.stop_later {id : UInt16} {force : Bool} (hm : m.Reachable)
    (hu : m.Unloads id force lower)
    (unstopped : ∀ p ∈ m.hub.waiting, p.completion ≠ .work .shutdown) (hr : m.Reaches last)
    {stop : Posting σ} (hframes : last.frames = .complete stop :: rest)
    (work : stop.completion = .work .shutdown) :
    stop.serial ∉ SensorHub.admissions m.hub.journal := by
  intro hadmitted
  have hlast := hm.reaches hr
  have hout : stop ∈ last.books.pending ++ last.books.out := by
    refine Hub.mem_books.mpr (.inr (.inr (.inr ?_)))
    rw [cargo, hframes]
    exact List.mem_cons_self ..
  obtain ⟨way, event, offered, kind, -⟩ := hlast.balanced.vouched stop hout
  rw [work] at kind
  obtain rfl := kind.of_shutdown
  have hmoves := Reaches.books hm hr
  have hlt : stop.serial < m.books.next := hm.lined.numbered _ hadmitted
  have hbefore := hm.balanced.offered_before hlast.balanced hmoves hlt offered
  rcases hm.balanced.due _ _ _ _ hbefore (by simp [Way.isWork]) with howned | hclosed
  · obtain ⟨p, hp, hserial⟩ := List.mem_map.mp howned
    rw [← hserial] at hbefore
    exact hu.no_stop hm unstopped p hp (hm.balanced.stop_posting hp hbefore).1
  · have hopen := hlast.balanced.unclosed _ (List.mem_map_of_mem hout)
    obtain ⟨-, news, hj⟩ := hmoves.journal
    rw [hj, tally_append, hclosed] at hopen
    omega

theorem Reaches.recorded (hr : m.Reaches m') {incident : Incident}
    (later : incident ∈ m'.hub.journal) (new : incident ∉ m.hub.journal) :
    ∃ last next, m.Reaches last ∧ last.step = .stepped next ∧ next.Reaches m' ∧
      incident ∉ last.hub.journal ∧ incident ∈ next.hub.journal := by
  induction hr with
  | refl => exact absurd later new
  | @tail x y hr hmove ih =>
    by_cases hx : incident ∈ x.hub.journal
    · obtain ⟨last, next, hlast, hs, hnext, hbefore, hafter⟩ := ih hx
      exact ⟨last, next, hlast, hs, hnext.tail hmove, hbefore, hafter⟩
    · cases hmove with
      | step hs => exact ⟨x, y, hr, hs, .refl, hx, later⟩
      | interrupt => exact absurd later hx

/-- Of an app that has started and is not loaded any more, the last entry point has begun. -/
theorem Decided.ended {load : Nat} (h : m.Decided load true)
    (absent : load ∉ m.hub.records.roster.map Prod.fst) :
    ∃ instanceId, .entered load instanceId .finish true ∈ m.hub.journal := by
  have hleft := h.left_mem
  obtain ⟨info, loaded⟩ := h.tended.loaded (List.ne_nil_of_mem hleft)
  rcases h.tended.lives loaded with ⟨stopping, hlife⟩ | ⟨ok, answer, stopping, visits, -, hwhole⟩
  · rw [hlife] at hleft
    simp at hleft
  · obtain rfl := answer rfl
    have hmem : .entered load info.instanceId .finish true ∈ m.hub.records.life load := by
      rw [hwhole.mpr absent]
      simp [Life.whole, Life.told]
    exact ⟨info.instanceId, Hub.mem_journal_of_life hmem⟩

/-- Under a frame that takes down an app nothing is on its way to the apps. -/
theorem Reachable.transit_eq_nil (hm : m.Reachable) (hframes : m.frames = frame :: rest)
    (heavy : frame.isGuest = false) (hcargo : frame.cargo = []) : m.row.transit = [] := by
  have light : frame.isLight = false := isLight_of_heavy heavy
  have hprompt := hm.prompt
  have hnested := hm.nested
  rw [hframes] at hprompt hnested
  have hhandlers := handlers_eq_nil (hnested.2.1 light)
  have hrest : m.cargo = rest.flatMap Frame.cargo := by
    rw [cargo, hframes, List.flatMap_cons, hcargo, List.nil_append]
  show m.cargo.filterMap m.hub.transit? = []
  refine List.filterMap_eq_nil_iff.mpr fun item hi => ?_
  rw [hrest] at hi
  cases htransit : item.isTransit with
  | false => exact Hub.transit?_eq_none htransit
  | true =>
    obtain ⟨serial, rfl⟩ := hprompt.handlers heavy item hi htransit
    have hmem : serial ∈ (rest.flatMap Frame.cargo).filterMap Cargo.handler? :=
      List.mem_filterMap.mpr ⟨_, hi, rfl⟩
    rw [hhandlers] at hmem
    cases hmem

/-- No app begins to handle an event that was taken and is no longer on its way. -/
theorem Reaches.passed (hm : m.Reachable) (popped : serial ∈ SensorHub.pops m.hub.journal)
    (apart : serial ∉ m.row.transit) (hr : m.Reaches m') :
    tally Incident.enters? serial m'.hub.journal = tally Incident.enters? serial m.hub.journal := by
  have hboth : serial ∉ m'.row.transit ∧ tally Incident.enters? serial m'.hub.journal =
      tally Incident.enters? serial m.hub.journal := by
    refine hr.keeps (P := fun hub frames => serial ∉ (row ⟨hub, frames⟩).transit ∧
      tally Incident.enters? serial hub.journal = tally Incident.enters? serial m.hub.journal)
      ⟨apart, rfl⟩ ?_ ?_
    · rintro hub hub' frame frames rest hr ⟨before, hsame⟩ h
      have hx : Reachable ⟨hub, frame :: rest⟩ := hm.reaches hr
      obtain ⟨news, hpops⟩ := Reaches.pops hm hr
      have hpopped : serial ∈ SensorHub.pops hub.journal := by
        rw [hpops]
        exact List.mem_append_left _ popped
      obtain ⟨after, hnow⟩ := (hx.shift h).passed hx.inOrder hx.lined.once hpopped before
      exact ⟨after, hnow.trans hsame⟩
    · intro hub frames routine _ before
      exact before
  exact hboth.2

theorem Reachable.not_offering (hm : m.Reachable) (hframes : m.frames = frame :: rest)
    (heavy : frame.isGuest = false) (calm : frame.isUrgent = false) : ¬m.Offering serial := by
  rintro ⟨f, hf, p, seat, ho, -⟩
  have halone := hm.prompt.alone
  rw [hframes] at hf halone
  have hcalm : f.isUrgent = false := by
    rcases List.mem_cons.mp hf with rfl | hf
    · exact calm
    · exact (List.pairwise_cons.mp halone).1 f hf heavy
  rw [offering?_eq_none m.hub hcalm] at ho
  cases ho

theorem Unloads.departed {id : UInt16} {force : Bool} (hm : m.Reachable)
    (hu : m.Unloads id force lower) (hs : m.step = .stepped m₁) (hret : m₁.Finishes lower m') :
    ∃ info flushed, info.instanceId = id ∧ Departed m₁ flushed m' info lower := by
  have hm₁ := hm.move (.step hs)
  obtain ⟨info, upper, hid, -, hframes, hd⟩ := hu.begins hs
  obtain ⟨flushed, hdone⟩ : ∃ flushed, Departed m₁ flushed m' info lower :=
    Finishes.comes (P := fun m upper => Departing m₁ m info lower upper)
      (Q := fun m => ∃ flushed, Departed m₁ flushed m info lower) hret hframes hd
      departing_nonempty (fun hr hd h => hd.step hm₁ hr h) fun _ hd => hd.interrupt
  exact ⟨info, flushed, hid, hdone⟩

def EndsApp (m : Machine σ) (load : Nat) (instanceId : UInt16) (next : Machine σ) : Prop :=
  m.step = .stepped next ∧
    next.hub.journal = .entered load instanceId .finish true :: m.hub.journal

theorem not_mem_endings {hub : Hub σ} {load : Nat}
    (unended : ∀ i ∈ hub.records.life load, i.ends? = none) : load ∉ endings hub.journal := by
  intro hmem
  obtain ⟨incident, hi, hends⟩ := List.mem_filterMap.mp (List.mem_reverse.mp hmem)
  have own : incident.owner? = some load := by
    cases incident with
    | entered other instanceId point stopping =>
      cases point with
      | finish => exact hends
      | _ => cases hends
    | _ => cases hends
  have hnone := unended incident (Hub.mem_life hi own)
  rw [hends] at hnone
  cases hnone

/-- While an app is unloaded its last entry point begins, and where it begins the app is loaded and
has not ended before. -/
theorem Unloads.ends {id : UInt16} {force : Bool} {app : App σ} (hm : m.Reachable)
    (hu : m.Unloads id force lower) (loaded : app ∈ m.hub.apps)
    (named : app.nanoapp.info.instanceId = id) (hs : m.step = .stepped m₁)
    (hret : m₁.Finishes lower m') :
    ∃ last next index rest, m.Reaches last ∧ last.EndsApp app.nanoapp.load id next ∧
      next.Reaches m' ∧ last.frames = .remove index true :: rest ∧
      (app.nanoapp.load, app.nanoapp.info) ∈ last.hub.records.roster ∧
      app.nanoapp.load ∉ endings last.hub.journal := by
  have hreachable := hm
  obtain ⟨start, hstart, hr⟩ := hreachable
  obtain ⟨info, flushed, hid, hdone⟩ := hu.departed hm hs hret
  have hall : m.Reaches m' := .head (.step hs) (hdone.before.trans hdone.after)
  have hentry : (app.nanoapp.load, app.nanoapp.info) ∈ m.hub.records.roster := by
    rw [Hub.roster_eq]
    exact List.mem_map_of_mem loaded
  -- an entry with this load is that of the app, as long as there is one
  have unique : ∀ {x : Machine σ} {other : Info}, m.Reaches x →
      (app.nanoapp.load, other) ∈ x.hub.records.roster → other = app.nanoapp.info := by
    intro x other hx hother
    obtain ⟨kept, newcomers, hsince⟩ := hx.since hm
    have hfirst := hsince.mem_first hother (hm.enrolled.numbered _ hentry)
    exact hm.enrolled.load_unique hentry hfirst
  obtain ⟨frame, rest, hframes, heavy, idle, -, -⟩ := hu.head
  have light := isLight_of_heavy heavy
  have htended := hr.tended hstart
  rw [hframes] at htended
  obtain ⟨⟨first, second, index, stopping, client, below, hfirst, hstarting, hload, hstep, hsecond⟩,
    -⟩ := htended.stays light idle hentry
  have hdecided : m'.Decided app.nanoapp.load true := Answered.decided hstart
    ⟨first, second, index, stopping, client, below, hfirst, hstarting, hload, hstep,
      hsecond.trans hall⟩
  have habsent : app.nanoapp.load ∉ m'.hub.records.roster.map Prod.fst := by
    intro hmem
    obtain ⟨⟨_, other⟩, hother, rfl⟩ := List.mem_map.mp hmem
    obtain rfl := unique hall hother
    rw [hdone.roster] at hother
    have hne := (List.mem_filter.mp hother).2
    rw [hid, ← named] at hne
    simp at hne
  obtain ⟨instanceId, hended⟩ := hdecided.ended habsent
  have hnew : .entered app.nanoapp.load instanceId .finish true ∉ m.hub.journal := by
    intro hmem
    have hnone := htended.unended light (.inl idle) hentry _ (Hub.mem_life hmem rfl)
    cases hnone
  obtain ⟨last, next, hlast, hnow, hnext, hbefore, hafter⟩ := Reaches.recorded hall hended hnew
  have hmlast := hm.reaches hlast
  obtain ⟨hub, f, lower', hub', frames, rfl, h, rfl⟩ := step_eq_stepped.mp hnow
  obtain ⟨index', other, rfl, hmem, hother, hjournal⟩ := step_ends hmlast.nested.1 h hafter hbefore
  obtain rfl := unique hlast hmem
  obtain rfl : instanceId = id := hother.symm.trans named
  refine ⟨_, _, index', lower', hlast, ⟨hnow, hjournal⟩, hnext, rfl, hmem, ?_⟩
  have hlastTended := Reaches.tended hstart (hr.trans hlast)
  exact not_mem_endings (hlastTended.unended rfl (.inr rfl) hmem)

/-- When the last entry point of an app begins, what was queued before an unload of the app has been
taken from the queue, and has been dispatched on the way. -/
theorem Unloads.dispatched {id : UInt16} {force : Bool} {index : Nat} (hm : m.Reachable)
    (running : m.hub.running = true)
    (unstopped : ∀ p ∈ m.hub.waiting, p.completion ≠ .work .shutdown)
    (hu : m.Unloads id force lower) (hr : m.Reaches last)
    (hframes : last.frames = .remove index true :: rest)
    (waits : posting ∈ m.hub.waiting) (kept : posting.serial ∉ last.row.gone) :
    posting.serial ∈ SensorHub.pops last.hub.journal ∧
      ∃ first, m.Reaches first ∧ first.Dispatches posting ∧ first.Reaches last := by
  have hlast := hm.reaches hr
  have hline : posting.serial ∈ m.hub.line := by
    rw [← Hub.line_eq]
    exact List.mem_map_of_mem waits
  have hadmitted := hm.lined.order.subset hline
  obtain ⟨frame, rest', hhead, heavy, -, apart, -⟩ := hu.head
  cases runs : last.hub.running with
  | true =>
    have hapart : isParting m.frames = false := by
      rw [hhead, isParting, apart, isLight_of_heavy heavy]
      rfl
    have hparting : isParting last.frames = true := by
      rw [hframes]
      rfl
    have hpopped : posting.serial ∈ SensorHub.pops last.hub.journal := by
      rcases hr.left_before hm hapart hadmitted hparting with stopped | hpopped | hgone
      · rw [runs] at stopped
        cases stopped
      · exact hpopped
      · exact absurd hgone kept
    exact ⟨hpopped, hr.dispatched hm runs hframes rfl rfl waits hpopped kept⟩
  | false =>
    -- the stop was queued behind the event, so the event was taken before the stop was
    obtain ⟨stopping, stop, below, hbefore, hafter, runs', hstop, work⟩ := hr.stops hm running runs
    have hmstop := hm.reaches hbefore
    have hkept : posting.serial ∉ stopping.row.gone := fun hg => kept (hafter.gone hmstop hg)
    have hlater := hu.stop_later hm unstopped hbefore hstop work
    have hstopped := hmstop.popped_of_complete hstop
    have hbehind : [posting.serial, stop.serial].Sublist
        (SensorHub.admissions stopping.hub.journal) := by
      obtain ⟨news, hadmissions⟩ := hbefore.admissions hm
      have hboth : stop.serial ∈ SensorHub.admissions stopping.hub.journal := by
        apply hmstop.inOrder.order.subset
        exact List.mem_append_left _ hstopped
      rw [hadmissions] at hboth ⊢
      have hnews := (List.mem_append.mp hboth).resolve_left hlater
      exact (List.singleton_sublist.mpr hadmitted).append (List.singleton_sublist.mpr hnews)
    have hpopped := hmstop.popped_before .refl hkept hbehind hstopped
    obtain ⟨news, hpops⟩ := hafter.pops hmstop
    obtain ⟨first, hfirst, hdispatches, hafterFirst⟩ :=
      hbefore.dispatched hm runs' hstop rfl rfl waits hpopped hkept
    refine ⟨?_, first, hfirst, hdispatches, hafterFirst.trans hafter⟩
    rw [hpops]
    exact List.mem_append_left _ hpopped

/-- What is queued reaches an app before the app ends. Suppose that on a hub that runs, with no stop
in its queue, an app is unloaded, and that the unload is accepted and returns. Then the last entry
point of the app begins on the way, at `last`, and has not begun before. Every event that was in the
queue when the unload began, and was not evicted meanwhile, has been dispatched by then, at `first`,
while the app was loaded; every app that was loaded there and wanted the event has received it
exactly once; and no app handles it any more, nor ever will. -/
theorem delivered_before_end {id : UInt16} {force : Bool} {app : App σ} (hm : m.Reachable)
    (running : m.hub.running = true)
    (unstopped : ∀ p ∈ m.hub.waiting, p.completion ≠ .work .shutdown)
    (loaded : app ∈ m.hub.apps) (named : app.nanoapp.info.instanceId = id)
    (hu : m.Unloads id force lower) (hs : m.step = .stepped m₁) (hret : m₁.Finishes lower m') :
    ∃ last next, m.Reaches last ∧ last.EndsApp app.nanoapp.load id next ∧ next.Reaches m' ∧
      app.nanoapp.load ∉ endings last.hub.journal ∧
      ∀ p ∈ m.hub.waiting, p.serial ∉ m'.row.gone →
        p.serial ∈ SensorHub.pops last.hub.journal ∧
        (∃ first, m.Reaches first ∧ first.Dispatches p ∧ first.Reaches last ∧
          (∃ own ∈ first.hub.apps, own.nanoapp.load = app.nanoapp.load ∧
            own.nanoapp.info = app.nanoapp.info) ∧
          ∀ other ∈ first.hub.apps, Hub.wanted p.event other.nanoapp = true →
            (receipts other.nanoapp.load last.hub.journal).count p.serial = 1) ∧
        tally Incident.enters? p.serial last.hub.journal =
          tally Incident.leaves? p.serial last.hub.journal ∧
        ∀ later, last.Reaches later → tally Incident.enters? p.serial later.hub.journal =
          tally Incident.enters? p.serial last.hub.journal := by
  obtain ⟨last, next, index, rest, hlast, hends, hnext, hframes, hentry, hnever⟩ :=
    hu.ends hm loaded named hs hret
  have hmlast := hm.reaches hlast
  have hrest : last.Reaches m' := .head (.step hends.1) hnext
  refine ⟨last, next, hlast, hends, hnext, hnever, fun p waits kept => ?_⟩
  have hkept : p.serial ∉ last.row.gone := fun hg => kept (Reaches.gone hmlast hrest hg)
  obtain ⟨hpopped, first, hfirst, hdispatches, hafter⟩ :=
    hu.dispatched hm running unstopped hlast hframes waits hkept
  have hmfirst := hm.reaches hfirst
  refine ⟨hpopped, ⟨first, hfirst, hdispatches, hafter, ?_, fun other hother wanted => ?_⟩,
    hmlast.unhandled hframes rfl rfl _, fun later hlater => ?_⟩
  · have hold : app.nanoapp.load ≤ first.hub.records.loads := by
      obtain ⟨kept, newcomers, hsince⟩ := hfirst.since hm
      have hmem : (app.nanoapp.load, app.nanoapp.info) ∈ m.hub.records.roster := by
        rw [Hub.roster_eq]
        exact List.mem_map_of_mem loaded
      exact (hm.enrolled.numbered _ hmem).trans hsince.loads
    obtain ⟨kept, newcomers, hsince⟩ := hafter.since hmfirst
    have hmem := hsince.mem_first hentry hold
    rw [Hub.roster_eq] at hmem
    obtain ⟨own, hown, he⟩ := List.mem_map.mp hmem
    exact ⟨own, hown, congrArg Prod.fst he, congrArg Prod.snd he⟩
  · rcases hdispatches.received_once hmfirst hafter hother wanted with hone | hoffering
    · exact hone
    · exact absurd hoffering (hmlast.not_offering hframes rfl rfl)
  · have hnone := hmlast.transit_eq_nil hframes rfl rfl
    exact hlater.passed hmlast hpopped (by simp [hnone])

/-- Queues a request to unload the app and behind it an event for the app, and unloads the app. The
queued request is served within the unload. -/
def unloadWithin : Routine Unit .loop .nothing :=
  .start listener fun _ =>
  .request (.unload 1 false) fun _ =>
  .post { Event.new EventType.firstUser with target := 1 } none <|
  .unload 1 false fun _ =>
  .done ()

/-- The app receives the event once, although the request before it already unloads the app. -/
theorem delivered_before_end_unloadWithin :
    ∃ last next, ((plain unloadWithin).advance 12).1.Reaches last ∧ last.EndsApp 1 1 next ∧
      1 ∉ endings last.hub.journal ∧ (receipts 1 last.hub.journal).count 2 = 1 := by
  have hm : ((plain unloadWithin).advance 12).1.Reachable :=
    ⟨_, isStart_plain unloadWithin, reaches_unfinished (by decide +kernel)⟩
  have hu : ((plain unloadWithin).advance 12).1.Unloads 1 false
      [.code (.loop .outside) (.done ())] :=
    @Unloads.routine _ _ 1 false .outside (fun _ => .done ()) [] rfl rfl
  have hs : ((plain unloadWithin).advance 12).1.step =
      .stepped ((plain unloadWithin).advance 13).1 := rfl
  have hret : ((plain unloadWithin).advance 13).1.Finishes [.code (.loop .outside) (.done ())]
      ((plain unloadWithin).advance 53).1 :=
    @finishes_advance _ _ _ [_, _] _ 39 rfl (by decide +kernel) (by decide +kernel) rfl
      (by decide +kernel)
  obtain ⟨app, happs⟩ := List.length_eq_one_iff.mp
    (by decide +kernel : ((plain unloadWithin).advance 12).1.hub.apps.length = 1)
  have hkeys : ((plain unloadWithin).advance 12).1.hub.apps.map
      (fun app => (app.nanoapp.info.instanceId, app.nanoapp.load)) = [(1, 1)] := by decide +kernel
  rw [happs] at hkeys
  obtain ⟨hid, hload⟩ := Prod.mk.inj (List.singleton_inj.mp hkeys)
  have unstopped : ∀ p ∈ ((plain unloadWithin).advance 12).1.hub.waiting,
      p.completion ≠ .work .shutdown := by
    have hnone : ((plain unloadWithin).advance 12).1.hub.waiting.filterMap (fun p =>
        match p.completion with
        | .work .shutdown => some p.serial
        | _ => none) = [] := by decide +kernel
    intro p hp hstop
    have hp := List.filterMap_eq_nil_iff.mp hnone p hp
    rw [hstop] at hp
    cases hp
  obtain ⟨last, next, hlast, hends, -, hnever, hevents⟩ :=
    delivered_before_end hm (by decide +kernel) unstopped (happs ▸ List.mem_singleton_self app) hid
      hu hs hret
  obtain ⟨p, hp, hserial, htarget⟩ : ∃ p ∈ ((plain unloadWithin).advance 12).1.hub.waiting,
      p.serial = 2 ∧ p.event.target = 1 := by
    have hmem : (2, 1) ∈ ((plain unloadWithin).advance 12).1.hub.waiting.map
        (fun p => (p.serial, p.event.target)) := by decide +kernel
    obtain ⟨p, hp, he⟩ := List.mem_map.mp hmem
    exact ⟨p, hp, Prod.mk.inj he⟩
  obtain ⟨-, ⟨first, -, -, -, ⟨own, hown, hsame, hinfo⟩, hreceived⟩, -⟩ :=
    hevents p hp (by rw [hserial]; decide +kernel)
  have hwanted : Hub.wanted p.event own.nanoapp = true := by
    rw [Hub.wanted, Event.isBroadcast, hinfo, hid, htarget]
    rfl
  have hcount := hreceived own hown hwanted
  rw [hload] at hends hnever
  rw [hsame, hload, hserial] at hcount
  exact ⟨last, next, hlast, hends, hnever, hcount⟩

end Machine

end SensorHub
