import SensorHub.Proofs.Pairing
import SensorHub.Proofs.Receipts

namespace SensorHub

variable {σ : Type}

namespace Frame

variable {hub hub' : Hub σ} {frame : Frame σ} {frames : List (Frame σ)} {r r' : Records σ}
  {announced : Nat × Status}

/-- What is recorded as a load after a step was recorded before, or the step loads an app. -/
theorem Turnover.loads (t : frame.Turnover r r' frames) {load : Nat} {info : Info}
    (mem : .loaded load info ∈ r'.deeds) :
    .loaded load info ∈ r.deeds ∨ r'.loads = r.loads + 1 := by
  have noted : ∀ {deed : Incident}, deed ≠ .loaded load info →
      .loaded load info ∈ (r.note deed).deeds → .loaded load info ∈ r.deeds := by
    intro deed hne hmem
    rcases List.mem_cons.mp hmem with he | hold
    · exact absurd he.symm hne
    · exact hold
  cases t with
  | join => exact .inr rfl
  | enter | started | failed | left | finish | release => exact .inl (noted (by simp) mem)
  | erase =>
    rcases List.mem_cons.mp mem with he | hold
    · cases he
    · exact .inl hold
  | apart | depart | work | mark | gone | settle | missing | remove | released => exact .inl mem

/-- Who is loaded after a step was loaded before, or it has just been loaded under a new instance
id. -/
theorem Turnover.infos (t : frame.Turnover r r' frames) {other : Info} (mem : other ∈ r'.infos) :
    other ∈ r.infos ∨ other.instanceId ∉ r.infos.map Info.instanceId ∧
      .loaded (r.loads + 1) other ∈ r'.deeds := by
  cases t with
  | @join _ client stopping routine info _ _ _ fresh =>
    have hinfos : ((r.join info).note
        (.entered (r.loads + 1) info.instanceId .start stopping)).infos = r.infos ++ [info] :=
      List.map_append
    rw [hinfos] at mem
    rcases List.mem_append.mp mem with hold | hnew
    · exact .inl hold
    · obtain rfl := List.mem_singleton.mp hnew
      exact .inr ⟨fresh, List.mem_cons_of_mem _ (List.mem_cons_self ..)⟩
  | erase =>
    obtain ⟨entry, hentry, rfl⟩ := List.mem_map.mp mem
    exact .inl (List.mem_map_of_mem ((List.eraseIdx_sublist ..).subset hentry))
  | _ => exact .inl mem

/-- What a frame has to announce. -/
inductive Announced (hub : Hub σ) : Frame σ → Status → Prop
  | started {index stopping client} {app : App σ} (ha : hub.apps[index]? = some app) :
      Announced hub (.code (.start index stopping client) (.done true))
        (.start (app.nanoapp.load, app.nanoapp.info))
  | stopped {info previous} {index : Nat} {app : App σ} (ha : hub.apps[index]? = some app)
      (named : app.nanoapp.info.instanceId = info.instanceId) :
      Announced hub (.settle info true previous) (.stop (app.nanoapp.load, info))

theorem Announces.mem (h : frame.Announces hub hub' frames)
    (hmem : announced ∈ announcements hub'.journal) :
    announced ∈ announcements hub.journal ∨ frame.Announced hub announced.2 := by
  cases h with
  | mute same =>
    rw [same] at hmem
    exact .inl hmem
  | started ha hgo =>
    rw [(Hub.announce_eq hgo).1] at hmem
    rcases List.mem_cons.mp hmem with rfl | hold
    · exact .inr (.started ha)
    · exact .inl hold
  | stopped found hgo =>
    rw [(Hub.announce_eq hgo).1] at hmem
    rcases List.mem_cons.mp hmem with rfl | hold
    · obtain ⟨app, ha, hid⟩ := Hub.indexOf?_eq_some found
      rw [Hub.loadAt_eq ha]
      exact .inr (.stopped ha hid)
    · exact .inl hold

end Frame

namespace Records

variable {r : Records σ} {answered : Nat → Bool → Prop} {frame : Frame σ}
  {frames rest : List (Frame σ)} {load index : Nat} {info : Info}

theorem Tended.unborn (h : Tended answered r frames) : r.life (r.loads + 1) = [] := by
  cases h with
  | idle enrolled _ atRest => exact life_next (atRest _) enrolled
  | busy enrolled placed _ _ _ atRest =>
    have hle := enrolled.numbered _ (List.mem_of_getElem? placed)
    refine life_next (atRest _ fun he => ?_) enrolled
    dsimp only at hle
    omega

theorem Tended.loaded_mem (h : Tended answered r frames) (mem : (load, info) ∈ r.roster) :
    .loaded load info ∈ r.life load := by
  have atRest : AtRest answered r load → .loaded load info ∈ r.life load := by
    intro hrest
    obtain ⟨-, stopping, visits, hlife⟩ := hrest.of_mem h.enrolled mem
    rw [hlife]
    simp [Task.life]
  cases h with
  | idle _ _ hrest => exact atRest (hrest load)
  | @busy _ busyLoad other task _ _ enrolled placed _ _ hlife hrest =>
    by_cases hload : load = busyLoad
    · subst hload
      obtain rfl := enrolled.load_unique mem (List.mem_of_getElem? placed)
      rw [hlife]
      cases task <;> simp [Task.life, Life.told]
    · exact atRest (hrest load hload)

/-- While the first entry point of an app runs, it has not ended. -/
theorem Tended.not_left {stopping : Bool} {client : LoadClient σ} {routine : Routine σ .app .flag}
    (h : Tended answered r (.code (.start index stopping client) routine :: rest))
    (placed : r.roster[index]? = some (load, info)) : .left load .start ∉ r.life load := by
  obtain ⟨-, stopping, hlife⟩ := h.starting placed fun _ _ _ h => h
  rw [hlife]
  simp

/-- Under a frame that belongs to no app, every app has started and does nothing. -/
theorem Tended.stays (h : Tended answered r (frame :: rest)) (heavy : frame.isLight = false)
    (apart : frame.isBusy = false) (mem : (load, info) ∈ r.roster) :
    answered load true ∧ .left load .start ∈ r.life load := by
  cases h with
  | idle enrolled _ atRest =>
    obtain ⟨answer, stopping, visits, hlife⟩ := (atRest load).of_mem enrolled mem
    refine ⟨answer, ?_⟩
    rw [hlife]
    simp [Task.life]
  | busy _ _ busy =>
    cases busy with
    | above light =>
      rw [heavy] at light
      cases light
    | _ => cases apart

end Records

namespace Machine

open Records

variable {start first m m' next : Machine σ} {hub hub' : Hub σ} {frame : Frame σ}
  {frames rest : List (Frame σ)} {load serial : Nat} {status : Status}

theorem Reaches.announced_left (hs : start.IsStart) (hr : start.Reaches m)
    (h : (serial, status) ∈ announcements m.hub.journal) :
    .left status.load .start ∈ m.hub.journal := by
  revert h
  refine hr.keeps (P := fun hub _ => (serial, status) ∈ announcements hub.journal →
    .left status.load .start ∈ hub.journal) ?_ ?_ ?_
  · obtain ⟨config, collaborators, memory, now, routine, -, rfl⟩ := isStart_iff.mp hs
    intro h
    cases h
  · intro hub hub' frame frames rest hr before hstep h
    have hm : Reachable ⟨hub, frame :: rest⟩ := ⟨start, hs, hr⟩
    have remembered : ∀ {incident : Incident}, incident ∈ hub.journal → incident ∈ hub'.journal :=
      fun h => Reaches.remembers hm (.single (.of_go hstep)) h
    rcases (Frame.step_announces hm.nested.1 hstep).mem h with hold | hnew
    · exact remembered (before hold)
    · have hannounced : frame.Announced hub status := hnew
      cases hannounced with
      | started ha =>
        have hleft := Hub.left_of_finishStart (hm.nested.1 _ rfl) hstep
        rw [Hub.loadAt_eq ha] at hleft
        exact List.mem_of_mem_filter hleft
      | stopped ha =>
        have hmem := List.mem_of_getElem? (Hub.getElem?_roster ha)
        exact remembered (Hub.mem_journal_of_life ((hr.tended hs).stays rfl rfl hmem).2)
  · intro hub frames routine hr before
    exact before

/-- What was announced before the first entry point of an app has ended is not about that app. -/
theorem Reaches.not_announced (hs : start.IsStart) (hr : start.Reaches m) {index : Nat}
    {stopping : Bool} {client : LoadClient σ} {routine : Routine σ .app .flag}
    (hframes : m.frames = .code (.start index stopping client) routine :: rest)
    {app : App σ} (ha : m.hub.apps[index]? = some app) :
    ∀ announced ∈ announcements m.hub.journal, announced.2.load ≠ app.nanoapp.load := by
  intro announced hmem he
  have htended := hr.tended hs
  rw [hframes] at htended
  have hleft := Hub.mem_life (hr.announced_left hs hmem) rfl
  rw [he] at hleft
  exact htended.not_left (Hub.getElem?_roster ha) hleft

/-- Once the first entry point of an app has failed, the app is not announced. -/
theorem Decided.silent (hm : m.Reachable) (hd : m.Decided load false) (hr : m.Reaches m')
    (before : ∀ announced ∈ announcements m.hub.journal, announced.2.load ≠ load) :
    ∀ announced ∈ announcements m'.hub.journal, announced.2.load ≠ load := by
  have hboth : m'.Decided load false ∧
      ∀ announced ∈ announcements m'.hub.journal, announced.2.load ≠ load := by
    refine hr.keeps (P := fun hub frames => Decided ⟨hub, frames⟩ load false ∧
      ∀ announced ∈ announcements hub.journal, announced.2.load ≠ load) ⟨hd, before⟩ ?_ ?_
    · rintro hub hub' frame frames rest hr ⟨hdecided, hsilent⟩ hstep
      have hm' : Reachable ⟨hub, frame :: rest⟩ := hm.reaches hr
      refine ⟨hdecided.move hm' (.of_go hstep), fun announced hmem he => ?_⟩
      rcases (Frame.step_announces hm'.nested.1 hstep).mem hmem with hold | hnew
      · exact hsilent announced hold he
      · obtain ⟨number, status⟩ := announced
        have hload : status.load = load := he
        have hannounced : frame.Announced hub status := hnew
        cases hannounced with
        | @started _ _ _ app ha =>
          have hname : app.nanoapp.load = load := hload
          subst hname
          exact hdecided.tended.not_left (Hub.getElem?_roster ha) hdecided.left_mem
        | stopped ha =>
          have hentry := List.mem_of_getElem? (Hub.getElem?_roster ha)
          cases (hdecided.tended.stays rfl rfl hentry).1 hload
    · rintro hub frames routine hr ⟨hdecided, hsilent⟩
      exact ⟨hdecided.move (hm.reaches hr) (.interrupt routine), hsilent⟩
  exact hboth.2

/-- An app whose start has failed is announced neither as started nor as stopped. -/
theorem Answered.silent (hs : start.IsStart) (h : start.Answered m load false) :
    ∀ announced ∈ announcements m.hub.journal, announced.2.load ≠ load := by
  obtain ⟨m₁, m₂, index, stopping, client, rest, hr, hframes, hload, hstep, hr'⟩ := h
  have hm₁ : m₁.Reachable := ⟨start, hs, hr⟩
  have hdecided := Decided.of_end hs hr hframes hload hstep
  refine hdecided.silent (hm₁.move (.step hstep)) hr' ?_
  obtain ⟨hub, frame, lower, hub', frames, rfl, hgo, rfl⟩ := step_eq_stepped.mp hstep
  cases hframes
  have ha := List.getElem?_eq_getElem (hm₁.nested.1 index rfl)
  have hnone := hr.not_announced hs rfl ha
  rw [← Hub.loadAt_eq ha, hload] at hnone
  intro announced hmem
  rcases (Frame.step_announces hm₁.nested.1 hgo).mem hmem with hold | hnew
  · exact hnone announced hold
  · cases hnew

/-- The move assigns the instance id to a new app. -/
def Assigns (m next : Machine σ) (instanceId : UInt16) : Prop :=
  ∃ load info, .loaded load info ∈ next.hub.journal ∧ .loaded load info ∉ m.hub.journal ∧
    info.instanceId = instanceId

/-- A move that assigns no instance id anew while the unload of an app with that id is in
progress. -/
structure Steady (m next : Machine σ) : Prop where
  move : Move m next
  kept : ∀ f ∈ m.frames, ∀ info, f.unloads? = some info → ¬m.Assigns next info.instanceId

/-- A run of such moves leads from one machine to another. -/
abbrev SteadilyReaches : Machine σ → Machine σ → Prop :=
  Relation.ReflTransGen Steady

theorem SteadilyReaches.reaches (h : start.SteadilyReaches m) : start.Reaches m := by
  induction h with
  | refl => exact .refl
  | tail _ hsteady ih => exact ih.tail hsteady.move

theorem steady_of_loads (hm : Reachable ⟨hub, frame :: rest⟩) (h : frame.step hub = .go hub' frames)
    (same : hub'.loads = hub.loads) : Steady ⟨hub, frame :: rest⟩ ⟨hub', frames ++ rest⟩ := by
  refine ⟨.of_go h, fun f _ info _ => ?_⟩
  rintro ⟨load, other, hnew, hold, -⟩
  obtain ⟨turnover, -⟩ := Frame.step_turnover hm.nested.1 h
  have hdeed : .loaded load other ∈ hub'.records.deeds := List.mem_filter.mpr ⟨hnew, rfl⟩
  rcases turnover.loads hdeed with hbefore | hloads
  · exact hold (List.mem_of_mem_filter hbefore)
  · have hsame : hub'.loads = hub.loads + 1 := hloads
    omega

/-- For so many steps of its own the machine loads no app while an unload is in progress. -/
def unloadsAlone : Nat → Machine σ → Bool
  | 0, _ => true
  | budget + 1, m =>
    match m.step with
    | .stepped next =>
      (m.frames.all (fun f => f.unloads?.isNone) || next.hub.loads == m.hub.loads) &&
        unloadsAlone budget next
    | _ => true

theorem steadilyReaches_unfinished {budget : Nat} (hm : m.Reachable)
    (h : (m.advance budget).2 = .unfinished) (alone : unloadsAlone budget m = true) :
    m.SteadilyReaches (m.advance budget).1 := by
  induction budget generalizing m with
  | zero => exact .refl
  | succ budget ih =>
    simp only [advance, unloadsAlone] at h alone ⊢
    cases hs : m.step with
    | stepped next =>
      simp only [hs, Bool.and_eq_true, Bool.or_eq_true] at h alone ⊢
      obtain ⟨hfirst, hlater⟩ := alone
      refine .head ?_ (ih (hm.move (.step hs)) h hlater)
      rcases hfirst with hnone | hsame
      · refine ⟨.step hs, fun f hf info hi => ?_⟩
        have hfree := List.all_eq_true.mp hnone f hf
        rw [hi] at hfree
        cases hfree
      · obtain ⟨hub, frame, rest, hub', frames, rfl, hgo, rfl⟩ := step_eq_stepped.mp hs
        exact steady_of_loads hm hgo (beq_iff_eq.mp hsame)
    | finished | waiting | failed =>
      simp only [hs] at h
      cases h

/-- The load that comes next is not recorded yet, so who records it assigns an instance id. -/
theorem Reaches.assigns (hs : start.IsStart) (hr : start.Reaches m) {info : Info}
    (loaded : .loaded (m.hub.records.loads + 1) info ∈ next.hub.records.deeds) :
    m.Assigns next info.instanceId := by
  refine ⟨_, info, List.mem_of_mem_filter loaded, fun hold => ?_, rfl⟩
  have hlife := Hub.mem_life hold rfl
  rw [(hr.tended hs).unborn] at hlife
  cases hlife

/-- Who is being unloaded is still the app that bears the instance id, if one does. -/
def Own (hub : Hub σ) (frames : List (Frame σ)) : Prop :=
  ∀ f ∈ frames, ∀ info, f.unloads? = some info →
    ∀ other ∈ hub.records.infos, other.instanceId = info.instanceId → other = info

/-- So an app that is found under the instance id is the one that is being unloaded. -/
theorem Own.app (own : Own hub frames) (hf : frame ∈ frames) {info : Info}
    (hi : frame.unloads? = some info) {index : Nat} {app : App σ} (ha : hub.apps[index]? = some app)
    (named : app.nanoapp.info.instanceId = info.instanceId) : app.nanoapp.info = info := by
  refine own frame hf info hi _ ?_ named
  rw [← Hub.infos_eq]
  exact Hub.mem_infos.mpr ⟨app, List.mem_of_getElem? ha, rfl⟩

/-- What is known of the status events of a run: they are about loads, and as long as the hub runs
they tell the start of each app that has started and is not to end. -/
structure Telling (hub : Hub σ) (frames : List (Frame σ)) : Prop where
  own : Own hub frames
  recorded : ∀ announced ∈ announcements hub.journal,
    .loaded announced.2.load announced.2.info ∈ hub.journal
  paired : hub.running = true → ∃ voices, Frame.Voiced hub.records frames voices ∧
    ∀ appId, Paired appId voices (told ⟨hub, frames⟩)
  inPairs : ∀ appId, InPairs appId (told ⟨hub, frames⟩)

theorem announced_of_told (h : status ∈ told m) :
    ∃ serial, (serial, status) ∈ announcements m.hub.journal := by
  obtain ⟨serial, -, hstatus⟩ := List.mem_filterMap.mp h
  obtain ⟨before, after, hsplit, -⟩ := List.lookup_eq_some_iff.mp hstatus
  refine ⟨serial, ?_⟩
  rw [hsplit]
  exact List.mem_append_right _ (List.mem_cons_self ..)

/-- Where an app has started, this is told while the hub runs. -/
theorem told_started {index : Nat} {stopping : Bool} {client : LoadClient σ} {app : App σ}
    {upper : List (Frame σ)}
    (hm : Reachable ⟨hub, .code (.start index stopping client) (.done true) :: rest⟩)
    (h : (((hub.setCurrent none).record (.left app.nanoapp.load .start)).log
      (.started app.nanoapp.info)).announce EventType.nanoappStarted app.nanoapp.load
        app.nanoapp.info = .go hub' upper) :
    hub'.running = hub.running ∧
      told ⟨hub', upper ++ [.answer client (.ok app.nanoapp.info.instanceId)] ++ rest⟩ =
        told ⟨hub, .code (.start index stopping client) (.done true) :: rest⟩ ++
          if hub.running = true then [.start (app.nanoapp.load, app.nanoapp.info)] else [] := by
  have hruns := Hub.running_of_loopSide (Hub.light_announce h).1
  exact ⟨hruns, told_announce hm rfl h rfl rfl rfl rfl rfl⟩

/-- Where an unload has found its app, this is told while the hub runs. -/
theorem told_stopped {index load : Nat} {info : Info} {previous : Option UInt16}
    {upper : List (Frame σ)} (hm : Reachable ⟨hub, .settle info true previous :: rest⟩)
    (h : hub.announce EventType.nanoappStopped load info = .go hub' upper) :
    hub'.running = hub.running ∧
      told ⟨hub', upper ++ [.remove index true, .unmark info previous] ++ rest⟩ =
        told ⟨hub, .settle info true previous :: rest⟩ ++
          if hub.running = true then [.stop (load, info)] else [] := by
  have hruns := Hub.running_of_loopSide (Hub.light_announce h).1
  exact ⟨hruns, told_announce hm rfl h rfl rfl rfl rfl rfl⟩

section Step

variable (hs : start.IsStart) (hr : start.Reaches ⟨hub, frame :: rest⟩)
  (h : frame.step hub = .go hub' frames) (before : Telling hub (frame :: rest))

include hs hr h

private theorem own_step
    (kept : ∀ f ∈ frame :: rest, ∀ info, f.unloads? = some info →
      ¬Assigns ⟨hub, frame :: rest⟩ ⟨hub', frames ++ rest⟩ info.instanceId)
    (own : Own hub (frame :: rest)) : Own hub' (frames ++ rest) := by
  have hm : Reachable ⟨hub, frame :: rest⟩ := ⟨start, hs, hr⟩
  obtain ⟨turnover, begins⟩ := Frame.step_turnover hm.nested.1 h
  intro f hf info hi other hother hid
  have origin : info ∈ hub.records.infos ∨ ∃ g ∈ frame :: rest, g.unloads? = some info := by
    rcases List.mem_append.mp hf with hf | hf
    · rcases begins f hf info hi with hloaded | hframe
      · rw [Hub.infos_eq] at hloaded
        exact .inl hloaded
      · exact .inr ⟨frame, List.mem_cons_self .., hframe⟩
    · exact .inr ⟨f, List.mem_cons_of_mem _ hf, hi⟩
  rcases turnover.infos hother with hold | ⟨fresh, hloaded⟩
  · rcases origin with hinfo | ⟨g, hg, hgi⟩
    · exact hm.enrolled.info_unique hinfo hold hid
    · exact own g hg info hgi other hold hid
  · rcases origin with hinfo | ⟨g, hg, hgi⟩
    · rw [hid] at fresh
      exact absurd (List.mem_map_of_mem hinfo) fresh
    · have hassigns : Assigns ⟨hub, frame :: rest⟩ ⟨hub', frames ++ rest⟩ other.instanceId :=
        hr.assigns hs hloaded
      rw [hid] at hassigns
      exact absurd hassigns (kept g hg info hgi)

include before

private theorem recorded_step : ∀ announced ∈ announcements hub'.journal,
    .loaded announced.2.load announced.2.info ∈ hub'.journal := by
  have hm : Reachable ⟨hub, frame :: rest⟩ := ⟨start, hs, hr⟩
  have loaded : ∀ {index : Nat} {app : App σ}, hub.apps[index]? = some app →
      .loaded app.nanoapp.load app.nanoapp.info ∈ hub'.journal := by
    intro index app ha
    have hmem := List.mem_of_getElem? (Hub.getElem?_roster ha)
    have hloaded := Hub.mem_journal_of_life ((hr.tended hs).loaded_mem hmem)
    exact Reaches.remembers hm (.single (.of_go h)) hloaded
  rintro ⟨serial, status⟩ hmem
  rcases (Frame.step_announces hm.nested.1 h).mem hmem with hold | hnew
  · exact Reaches.remembers hm (.single (.of_go h)) (before.recorded _ hold)
  · have hannounced : frame.Announced hub status := hnew
    cases hannounced with
    | started ha => exact loaded ha
    | @stopped info _ _ app ha named =>
      have hown : app.nanoapp.info = info := before.own.app (List.mem_cons_self ..) rfl ha named
      rw [← hown]
      exact loaded ha

private theorem paired_step (running : hub'.running = true) :
    ∃ voices, Frame.Voiced hub'.records (frames ++ rest) voices ∧
      ∀ appId, Paired appId voices (told ⟨hub', frames ++ rest⟩) := by
  have hm : Reachable ⟨hub, frame :: rest⟩ := ⟨start, hs, hr⟩
  have hran : hub.running = true := (Frame.step_closing hm.nested.1 h).1 running
  obtain ⟨turnover, -⟩ := Frame.step_turnover hm.nested.1 h
  obtain ⟨voices, hvoiced, hpaired⟩ := before.paired hran
  cases Frame.step_announces hm.nested.1 h with
  | mute same stays unstarted =>
    rw [told_mute hm h same]
    have hstays : Frame.Stays frames := by
      rcases stays with hstays | rfl
      · exact hstays
      · have hstopped := hm.shutting.stopped _ (List.mem_cons_self ..) rfl
        rw [hran] at hstopped
        cases hstopped
    refine ⟨voices, hvoiced.mute hm.enrolled (fun light => ?_) hstays unstarted turnover, hpaired⟩
    obtain ⟨side, lights⟩ := Frame.step_light light h
    exact ⟨Hub.records_of_loopSide side, lights⟩
  | @started index stopping client app _ upper ha hgo =>
    obtain ⟨side, lights⟩ := Hub.light_announce hgo
    obtain ⟨rfl, hafter⟩ := hvoiced.started lights
      (show ∀ f ∈ [Frame.answer client (.ok app.nanoapp.info.instanceId)], f.isBusy = false by
        simp [Frame.isBusy])
    have hrecords : hub'.records = hub.records.note (.left app.nanoapp.load .start) :=
      Hub.records_of_loopSide side
    have hplaced := Hub.getElem?_roster ha
    have hfresh := hr.not_announced hs rfl ha
    rw [hrecords]
    refine ⟨hub.records.roster, hafter.note _, fun appId => ?_⟩
    rw [(told_started hm hgo).2, if_pos hran]
    refine (hpaired appId).started hm.enrolled hplaced fun status hstatus => ?_
    obtain ⟨serial, hannounced⟩ := announced_of_told hstatus
    exact hfresh _ hannounced
  | @stopped info previous index _ upper found hgo =>
    obtain ⟨side, lights⟩ := Hub.light_announce hgo
    obtain ⟨app, ha, hid⟩ := Hub.indexOf?_eq_some found
    obtain ⟨rfl, hbelow⟩ := hvoiced.eq_roster rfl rfl
    have hplaced := Hub.getElem?_roster ha
    have hown : app.nanoapp.info = info := before.own.app (List.mem_cons_self ..) rfl ha hid
    subst hown
    rw [Hub.loadAt_eq ha] at hgo
    rw [Hub.records_of_loopSide side]
    have hafter : Frame.Voiced hub.records
        (upper ++ .remove index true :: .unmark app.nanoapp.info previous :: rest)
        (hub.records.roster.eraseIdx index) := by
      refine Frame.Voiced.stopped hplaced lights fun f hf => ?_
      rcases List.mem_cons.mp hf with rfl | hf
      · rfl
      · exact hbelow f hf
    refine ⟨hub.records.roster.eraseIdx index, ?_, fun appId => ?_⟩
    · rw [List.append_assoc]
      exact hafter
    · rw [(told_stopped hm hgo).2, if_pos hran]
      exact (hpaired appId).stopped hm.enrolled hplaced

private theorem inPairs_step (appId : UInt64) :
    InPairs appId (told ⟨hub', frames ++ rest⟩) := by
  have hm : Reachable ⟨hub, frame :: rest⟩ := ⟨start, hs, hr⟩
  by_cases running : hub'.running = true
  · obtain ⟨voices, hvoiced, hpaired⟩ := paired_step hs hr h before running
    have hroster := (hm.move (.of_go h)).enrolled.length_underId_le appId
    exact (hpaired appId).inPairs (Nat.le_trans (hvoiced.sublist.filter _).length_le hroster)
  · -- when the hub has stopped, nothing is queued any more
    have hsame : told ⟨hub', frames ++ rest⟩ = told ⟨hub, frame :: rest⟩ := by
      cases Frame.step_announces hm.nested.1 h with
      | mute same => exact told_mute hm h same
      | started ha hgo =>
        obtain ⟨hruns, htold⟩ := told_started hm hgo
        rw [hruns] at running
        rw [htold, if_neg running, List.append_nil]
      | @stopped info previous index _ upper found hgo =>
        obtain ⟨hruns, htold⟩ := @told_stopped _ _ _ _ index _ _ _ _ hm hgo
        rw [hruns] at running
        rw [htold, if_neg running, List.append_nil]
    rw [hsame]
    exact before.inPairs appId

end Step

/-- In every steady run the status events tell of loads in pairs. -/
theorem SteadilyReaches.telling (hs : start.IsStart) (hr : start.SteadilyReaches m) :
    Telling m.hub m.frames := by
  induction hr with
  | refl =>
    obtain ⟨config, collaborators, memory, now, routine, -, rfl⟩ := isStart_iff.mp hs
    refine ⟨fun f hf info hi => ?_, fun announced hmem => ?_,
      fun _ => ⟨[], .idle ?_, fun appId => ?_⟩, fun appId => ?_⟩
    · rw [List.mem_singleton.mp hf] at hi
      cases hi
    · cases hmem
    · intro f hf
      rw [List.mem_singleton.mp hf]
      rfl
    · exact ⟨[], .nil, rfl⟩
    · refine ⟨[], .nil, fun entry hentry => ?_, List.prefix_refl _⟩
      cases hentry
  | tail hr hsteady ih =>
    have hreach := SteadilyReaches.reaches hr
    obtain ⟨hmove, kept⟩ := hsteady
    cases hmove with
    | step hstep =>
      obtain ⟨hub, frame, rest, hub', frames, rfl, h, rfl⟩ := step_eq_stepped.mp hstep
      exact ⟨own_step hs hreach h kept ih.own, recorded_step hs hreach h ih,
        paired_step hs hreach h ih, inPairs_step hs hreach h ih⟩
    | interrupt routine =>
      refine ⟨fun f hf info hi => ?_, ih.recorded, fun running => ?_, ih.inPairs⟩
      · rcases List.mem_cons.mp hf with rfl | hf
        · cases hi
        · exact ih.own f hf info hi
      · obtain ⟨voices, hvoiced, hpaired⟩ := ih.paired running
        have light : ∀ f ∈ [Frame.code (.handle .foreign) routine], f.isLight = true := by
          intro f hf
          rw [List.mem_singleton.mp hf]
          rfl
        exact ⟨voices, hvoiced.lights light, hpaired⟩

/-- The status events that were queued, in the order of the queue. -/
def statuses (m : Machine σ) : List Status :=
  (admissions m.hub.journal).filterMap (status? m.hub.journal)

theorem statuses_prefix_told (m : Machine σ) : m.statuses <+: told m := by
  rw [told, Hub.lineup, List.filterMap_append]
  exact List.prefix_append ..

/-- Who is registered for the type of a status event wants it, in whatever groups. -/
theorem wanted_status {nanoapp : Nanoapp} {mask : UInt32} {event : Event}
    (hevent : event = { Event.status status.type status.info with stamp := event.stamp })
    (registered : (status.type, mask) ∈ nanoapp.registrations.entries) (listens : mask ≠ 0) :
    Hub.wanted event nanoapp = true := by
  rw [hevent]
  have hwanted :
      Hub.wanted { Event.status status.type status.info with stamp := event.stamp } nanoapp =
        nanoapp.registrations.entries.any fun e =>
          e.1 == status.type && e.2 &&& allGroups != 0 := rfl
  rw [hwanted, List.any_eq_true]
  refine ⟨_, registered, ?_⟩
  have hall : mask &&& allGroups = mask := UInt32.and_neg_one
  simp [hall, listens]

/-- What is dispatched under the number of a status event is this event, with the time at which it
was queued. -/
theorem Dispatches.event (hfirst : first.Reachable) (hr : first.Reaches m) {posting : Posting σ}
    (h : first.Dispatches posting)
    (announced : (posting.serial, status) ∈ announcements m.hub.journal) :
    posting.event = { Event.status status.type status.info with stamp := posting.event.stamp } := by
  have hm := hfirst.reaches hr
  obtain ⟨rest, hframes⟩ := h
  have hout : posting ∈ first.books.pending ++ first.books.out := by
    refine Hub.mem_books.mpr (.inr (.inr (.inr ?_)))
    have hframe : .distribute posting 0 false ∈ first.frames := by
      rw [hframes]
      exact List.mem_cons_self ..
    exact List.mem_flatMap.mpr ⟨_, hframe, List.mem_singleton_self _⟩
  obtain ⟨way, event, hoffered, -, hevent⟩ := hfirst.balanced.vouched posting hout
  obtain ⟨-, he, -⟩ := Ledger.offered_unique (hm.balanced.offers_le _)
    (Reaches.remembers hfirst hr hoffered) (hm.announced_offered announced)
  rw [← he]
  exact hevent

/-- Status events pair up. In a run that assigns no instance id anew while its unload is in
progress, what is queued of apps with one app id while the hub runs is the beginning of pairs: a
load is told to have started, then to be about to end, then the next one. Both events of a pair
carry what was registered for the load. None of them is evicted, and none is about an app whose
start has failed. What is taken from the queue while the hub runs is still offered to the apps, or
it has been delivered to all that were loaded then; and every app that was loaded at the dispatch
and registered for the type has received the event once, unless it is still offered. Every app
receives status events in the order in which they were queued, and none twice. -/
theorem statuses_pair_up (hs : start.IsStart) (hr : start.SteadilyReaches m) :
    (∀ appId, ∃ loads : List (Nat × Info), (loads.map Prod.fst).Nodup ∧
      (∀ entry ∈ loads, .loaded entry.1 entry.2 ∈ m.hub.journal ∧ entry.2.appId = appId) ∧
      Status.under appId m.statuses <+: loads.flatMap Status.pair) ∧
    (∀ serial status, (serial, status) ∈ announcements m.hub.journal →
      .offered serial .critical (.status status.type status.info) false ∈ m.hub.journal ∧
      .evicted serial ∉ m.hub.journal ∧ ¬start.Answered m status.load false ∧
      (m.hub.running = true → serial ∈ SensorHub.pops m.hub.journal →
        m.Offering serial ∨ start.Delivered m serial) ∧
      ∀ first posting, start.Reaches first → first.Reaches m → first.Dispatches posting →
        posting.serial = serial →
          posting.event =
              { Event.status status.type status.info with stamp := posting.event.stamp } ∧
            ∀ app ∈ first.hub.apps, ∀ mask ≠ 0,
              (status.type, mask) ∈ app.nanoapp.registrations.entries →
                (receipts app.nanoapp.load m.hub.journal).count serial = 1 ∨
                  m.Offering serial) ∧
    ∀ load, ((receipts load m.hub.journal).filterMap (status? m.hub.journal)).Sublist m.statuses ∧
      (receipts load m.hub.journal).Nodup := by
  have hreach := hr.reaches
  have hm : m.Reachable := ⟨start, hs, hreach⟩
  have htelling := hr.telling hs
  refine ⟨fun appId => ?_, fun serial status hannounced => ⟨hm.announced_offered hannounced,
    hm.status_kept hannounced, fun hfailed => ?_, fun running hpopped => ?_, ?_⟩, fun load => ?_⟩
  · obtain ⟨loads, once, starts, hprefix⟩ := htelling.inPairs appId
    refine ⟨loads, once, fun entry hentry => ?_, (m.statuses_prefix_told.filter _).trans hprefix⟩
    obtain ⟨htold, hid⟩ := List.mem_filter.mp (starts entry hentry)
    obtain ⟨serial, hannounced⟩ := announced_of_told htold
    exact ⟨htelling.recorded _ hannounced, beq_iff_eq.mp hid⟩
  · exact hfailed.silent hs _ hannounced rfl
  · exact (hreach.served hs).done running serial hpopped
  · rintro first posting hfirst hlater hdispatches rfl
    have hfirst' : first.Reachable := ⟨start, hs, hfirst⟩
    have hevent := hdispatches.event hfirst' hlater hannounced
    refine ⟨hevent, fun app ha mask listens registered => ?_⟩
    exact hdispatches.received_once hfirst' hlater ha (wanted_status hevent registered listens)
  · obtain ⟨hsub, hnodup⟩ := hm.receipts_in_order load
    exact ⟨hsub.filterMap _, hnodup⟩

def statusListener : App Unit where
  nanoapp := .new 1 1
  onStart :=
    .register EventType.nanoappStarted allGroups fun _ =>
    .register EventType.nanoappStopped allGroups fun _ =>
    .done true
  onEvent := fun _ _ => .done ()
  onEnd := .done ()

/-- Unloads an app while two requests to unload it are queued, and starts it again. -/
def unloadThrice : Routine Unit .loop .nothing :=
  .start statusListener fun _ =>
  .start (inertApp 2) fun _ =>
  .request (.unload 2 false) fun _ =>
  .request (.unload 2 false) fun _ =>
  .unload 2 false fun _ =>
  .start (inertApp 2) fun _ =>
  .runUntilIdle fun _ =>
  .done ()

theorem statuses_pair_up_unloadThrice :
    ((Status.under 2 ((plain unloadThrice).advance 95).1.statuses).map fun status =>
        (status.load, status.type)) =
      [(2, EventType.nanoappStarted), (2, EventType.nanoappStopped),
        (3, EventType.nanoappStarted)] ∧
    (∃ loads : List (Nat × Info), (loads.map Prod.fst).Nodup ∧
      Status.under 2 ((plain unloadThrice).advance 95).1.statuses <+: loads.flatMap Status.pair) ∧
    (receipts 1 ((plain unloadThrice).advance 95).1.hub.journal).count 4 = 1 := by
  have hs : (plain unloadThrice).IsStart := isStart_plain unloadThrice
  have hr : (plain unloadThrice).SteadilyReaches ((plain unloadThrice).advance 95).1 :=
    steadilyReaches_unfinished ⟨_, hs, .refl⟩ (by decide +kernel) (by decide +kernel)
  have hfirst : (plain unloadThrice).Reaches ((plain unloadThrice).advance 67).1 :=
    reaches_unfinished (by decide +kernel)
  have hlater : ((plain unloadThrice).advance 67).1.Reaches ((plain unloadThrice).advance 95).1 :=
    reaches_later 67 28 (by decide +kernel)
  have hannounced : (4, (⟨2, EventType.nanoappStopped, ⟨2, 1, 2, 17367040, false⟩⟩ : Status)) ∈
      announcements ((plain unloadThrice).advance 95).1.hub.journal := by decide +kernel
  obtain ⟨hpairs, hevents, -⟩ := statuses_pair_up hs hr
  obtain ⟨loads, once, -, hprefix⟩ := hpairs 2
  obtain ⟨-, -, -, -, hreceived⟩ := hevents 4 _ hannounced
  refine ⟨by decide +kernel, ⟨loads, once, hprefix⟩, ?_⟩
  -- the listener is the first app that is loaded when the event is dispatched
  obtain ⟨app, happ, hload, hregistered⟩ : ∃ app, ((plain unloadThrice).advance 67).1.hub.apps[0]? =
      some app ∧ app.nanoapp.load = 1 ∧
        (EventType.nanoappStopped, allGroups) ∈ app.nanoapp.registrations.entries :=
    ⟨_, rfl, rfl, by decide +kernel⟩
  obtain ⟨-, hlistens⟩ := hreceived _ _ hfirst hlater ⟨_, rfl⟩ rfl
  rcases hlistens app (List.mem_of_getElem? happ) allGroups (by decide) hregistered with
    honce | ⟨f, hf, posting, seat, ho, -⟩
  · rw [hload] at honce
    exact honce
  · have hnone : (((plain unloadThrice).advance 95).1.frames.all fun f =>
        (f.offering? ((plain unloadThrice).advance 95).1.hub).isNone) = true := by decide +kernel
    have hfree := List.all_eq_true.mp hnone f hf
    rw [ho] at hfree
    cases hfree

end Machine

end SensorHub
