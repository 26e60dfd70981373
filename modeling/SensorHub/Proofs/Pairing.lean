import SensorHub.Proofs.Announcing
import SensorHub.Proofs.Lives

namespace SensorHub

variable {σ : Type}

namespace Status

def start (entry : Nat × Info) : Status :=
  ⟨entry.1, EventType.nanoappStarted, entry.2⟩

def stop (entry : Nat × Info) : Status :=
  ⟨entry.1, EventType.nanoappStopped, entry.2⟩

/-- What is told of an app that comes and goes. -/
def pair (entry : Nat × Info) : List Status :=
  [start entry, stop entry]

/-- What is told under an app id. -/
def under (appId : UInt64) (told : List Status) : List Status :=
  told.filter fun status => status.info.appId == appId

end Status

/-- Where keys are distinct, one entry has the key of the entry at a place. -/
theorem filter_key_eq_singleton {α β : Type} [BEq β] [LawfulBEq β] {key : α → β} {l : List α}
    (distinct : (l.map key).Nodup) {index : Nat} {a : α} (ha : l[index]? = some a) :
    l.filter (fun b => key b == key a) = [a] := by
  induction l generalizing index with
  | nil => simp at ha
  | cons b l ih =>
    obtain ⟨hb, hl⟩ := List.nodup_cons.mp distinct
    cases index with
    | zero =>
      obtain rfl : b = a := by simpa using ha
      have hothers : ∀ c ∈ l, ¬(key c == key b) = true := by
        intro c hc he
        exact hb (beq_iff_eq.mp he ▸ List.mem_map_of_mem hc)
      rw [List.filter_cons_of_pos (by simp), List.filter_eq_nil_iff.mpr hothers]
    | succ index =>
      have ha' : l[index]? = some a := by simpa using ha
      have hne : ¬(key b == key a) = true := by
        intro he
        exact hb (beq_iff_eq.mp he ▸ List.mem_map_of_mem (List.mem_of_getElem? ha'))
      rw [List.filter_cons_of_neg (p := fun b => key b == key a) hne, ih hl ha']

def underId (appId : UInt64) (entries : List (Nat × Info)) : List (Nat × Info) :=
  entries.filter fun entry => entry.2.appId == appId

namespace Records

variable {r : Records σ} {index : Nat} {entry : Nat × Info} {appId : UInt64}

theorem Enrolled.appIds (h : r.Enrolled) :
    (r.roster.map fun entry => entry.2.appId).Nodup := by
  have happs := h.apps
  rw [infos, List.map_map] at happs
  exact happs

/-- An app id stands for one loaded app, and for none beside it. -/
theorem Enrolled.underId_own (h : r.Enrolled) (placed : r.roster[index]? = some entry) :
    underId entry.2.appId r.roster = [entry] ∧
      underId entry.2.appId (r.roster.eraseIdx index) = [] := by
  refine ⟨filter_key_eq_singleton h.appIds placed, ?_⟩
  rw [← filter_key_eq_eraseIdx h.appIds placed, underId, List.filter_filter]
  refine List.filter_eq_nil_iff.mpr fun other _ => ?_
  simp

theorem Enrolled.length_underId_le (h : r.Enrolled) (appId : UInt64) :
    (underId appId r.roster).length ≤ 1 := by
  by_cases hany : ∃ entry ∈ r.roster, entry.2.appId = appId
  · obtain ⟨entry, hmem, rfl⟩ := hany
    obtain ⟨index, placed⟩ := List.getElem?_of_mem hmem
    rw [(h.underId_own placed).1]
    exact Nat.le_refl 1
  · have hnone : underId appId r.roster = [] := by
      refine List.filter_eq_nil_iff.mpr fun entry hmem hid => hany ⟨entry, hmem, ?_⟩
      simpa using hid
    rw [hnone]
    exact Nat.zero_le 1

theorem Enrolled.underId_other (h : r.Enrolled) (placed : r.roster[index]? = some entry)
    (other : entry.2.appId ≠ appId) :
    underId appId (r.roster.eraseIdx index) = underId appId r.roster := by
  rw [← filter_key_eq_eraseIdx h.appIds placed, underId, List.filter_filter]
  refine List.filter_congr fun e _ => ?_
  by_cases he : e.2.appId = appId
  · simp [he, other.symm]
  · simp [he]

end Records

/-- What is told under the app id comes in pairs, one for each load in `past`, and ends with the
start of the app that bears the app id in `voices`, if there is one. -/
def Paired (appId : UInt64) (voices : List (Nat × Info)) (told : List Status) : Prop :=
  ∃ past : List (Nat × Info), ((past ++ underId appId voices).map Prod.fst).Nodup ∧
    Status.under appId told =
      past.flatMap Status.pair ++ (underId appId voices).map Status.start

/-- What is told under the app id is the beginning of pairs, one for each load whose start was
told. -/
def InPairs (appId : UInt64) (told : List Status) : Prop :=
  ∃ loads : List (Nat × Info), (loads.map Prod.fst).Nodup ∧
    (∀ entry ∈ loads, Status.start entry ∈ Status.under appId told) ∧
    Status.under appId told <+: loads.flatMap Status.pair

namespace Paired

open Status

variable {r : Records σ} {index : Nat} {entry : Nat × Info} {appId : UInt64} {told : List Status}
  {voices : List (Nat × Info)}

theorem started (h : Paired appId (r.roster.eraseIdx index) told) (enrolled : r.Enrolled)
    (placed : r.roster[index]? = some entry) (fresh : ∀ status ∈ told, status.load ≠ entry.1) :
    Paired appId r.roster (told ++ [start entry]) := by
  obtain ⟨past, once, htold⟩ := h
  by_cases hown : entry.2.appId = appId
  · subst hown
    obtain ⟨hone, hnone⟩ := enrolled.underId_own placed
    rw [hnone, List.append_nil] at once
    rw [hnone, List.map_nil, List.append_nil] at htold
    refine ⟨past, ?_, ?_⟩
    · rw [hone, List.map_append]
      refine List.nodup_append.mpr ⟨once, List.nodup_singleton _, fun load hload other ho => ?_⟩
      obtain ⟨e, he, rfl⟩ := List.mem_map.mp hload
      rw [List.mem_singleton.mp ho]
      have htoldStart : start e ∈ under entry.2.appId told := by
        rw [htold]
        exact List.mem_flatMap.mpr ⟨e, he, List.mem_cons_self ..⟩
      exact fresh (start e) (List.mem_filter.mp htoldStart).1
    · rw [hone, ← htold, under, List.filter_append]
      simp [start, under]
  · refine ⟨past, ?_, ?_⟩
    · rw [← enrolled.underId_other placed hown]
      exact once
    · rw [← enrolled.underId_other placed hown, ← htold, under, List.filter_append]
      simp [start, under, hown]

theorem stopped (h : Paired appId r.roster told) (enrolled : r.Enrolled)
    (placed : r.roster[index]? = some entry) :
    Paired appId (r.roster.eraseIdx index) (told ++ [stop entry]) := by
  obtain ⟨past, once, htold⟩ := h
  by_cases hown : entry.2.appId = appId
  · subst hown
    obtain ⟨hone, hnone⟩ := enrolled.underId_own placed
    rw [hone] at once htold
    refine ⟨past ++ [entry], ?_, ?_⟩
    · rw [hnone, List.append_nil]
      exact once
    · rw [hnone, under, List.filter_append, ← under, htold]
      simp [stop, pair]
  · refine ⟨past, ?_, ?_⟩
    · rw [enrolled.underId_other placed hown]
      exact once
    · rw [enrolled.underId_other placed hown, ← htold, under, List.filter_append]
      simp [stop, under, hown]

/-- While at most one app has the app id, its pair is the only one that may be open. -/
theorem inPairs (h : Paired appId voices told) (few : (underId appId voices).length ≤ 1) :
    InPairs appId told := by
  obtain ⟨past, once, htold⟩ := h
  refine ⟨past ++ underId appId voices, once, fun entry hmem => ?_, ?_⟩
  · rw [htold]
    rcases List.mem_append.mp hmem with hmem | hmem
    · refine List.mem_append_left _ (List.mem_flatMap.mpr ⟨entry, hmem, ?_⟩)
      exact List.mem_cons_self ..
    · exact List.mem_append_right _ (List.mem_map_of_mem hmem)
  · rw [htold, List.flatMap_append]
    match hvoices : underId appId voices, few with
    | [], _ => exact List.prefix_refl _
    | [entry], _ => exact ⟨[stop entry], by simp [pair]⟩

end Paired

namespace Frame

open Records Tended

/-- The apps in `voices` have started, and nothing says yet that they are to end: these are all that
are loaded, or all but one that is busy with its start or with its end. -/
inductive Voiced (r : Records σ) (frames : List (Frame σ)) : List (Nat × Info) → Prop
  | idle (idle : ∀ f ∈ frames, f.isBusy = false) : Voiced r frames r.roster
  | handling {index load info serial stopping} (placed : r.roster[index]? = some (load, info))
      (busy : Busy r.collaborators index load info (.handle serial stopping) frames) :
      Voiced r frames r.roster
  | busy {index load info task} (placed : r.roster[index]? = some (load, info))
      (busy : Busy r.collaborators index load info task frames)
      (silent : ∀ serial stopping, task ≠ .handle serial stopping) :
      Voiced r frames (r.roster.eraseIdx index)

variable {r r' : Records σ} {frame : Frame σ} {frames rest upper : List (Frame σ)}
  {voices : List (Nat × Info)} {index : Nat}

namespace Voiced

theorem note (h : Voiced r frames voices) (deed : Incident) :
    Voiced (r.note deed) frames voices := by
  cases h with
  | idle idle => exact .idle idle
  | handling placed busy => exact .handling placed busy
  | busy placed busy silent => exact .busy placed busy silent

theorem sublist (h : Voiced r frames voices) : voices.Sublist r.roster := by
  cases h with
  | idle | handling => exact .refl _
  | busy => exact List.eraseIdx_sublist ..

theorem lights (h : Voiced r rest voices) (light : ∀ f ∈ upper, f.isLight = true) :
    Voiced r (upper ++ rest) voices := by
  cases h with
  | idle idle => exact .idle (idle_append (fun f hf => isBusy_of_isLight (light f hf)) idle)
  | handling placed busy => exact .handling placed (busy.lights light)
  | busy placed busy silent => exact .busy placed (busy.lights light) silent

/-- Without a frame that starts an app the voices are all the loaded apps. -/
theorem eq_roster (h : Voiced r (frame :: rest) voices) (heavy : frame.isLight = false)
    (apart : frame.isBusy = false) : voices = r.roster ∧ ∀ f ∈ rest, f.isBusy = false := by
  cases h with
  | idle idle => exact ⟨rfl, fun f hf => idle f (List.mem_cons_of_mem _ hf)⟩
  | handling placed busy | busy placed busy =>
    cases busy with
    | above light =>
      rw [heavy] at light
      cases light
    | _ => cases apart

private theorem mute_idle (apart : frame.isBusy = false) (below : ∀ f ∈ rest, f.isBusy = false)
    (stays : Stays frames) (t : frame.Turnover r r' frames) :
    Voiced r' (frames ++ rest) r.roster := by
  cases t with
  | apart _ idle => exact .idle (idle_append idle below)
  | @join _ client stopping routine info =>
    have hplaced : (r.join info).roster[r.roster.length]? = some (r.loads + 1, info) := by
      simp [Records.join]
    have hleft : (r.join info).roster.eraseIdx r.roster.length = r.roster := by
      show (r.roster ++ [(r.loads + 1, info)]).eraseIdx r.roster.length = r.roster
      rw [List.eraseIdx_append_of_length_le (Nat.le_refl _)]
      simp
    have hvoiced : Voiced ((r.join info).note
        (.entered (r.loads + 1) info.instanceId .start stopping))
        ([Frame.code (.start r.roster.length stopping client) routine] ++ rest)
        ((r.join info).roster.eraseIdx r.roster.length) :=
      .busy hplaced (.start below) (by rintro _ _ ⟨⟩)
    rw [hleft] at hvoiced
    exact hvoiced
  | enter _ placed idle => exact .handling placed (.handle (idle_append idle below))
  | @depart _ index => exact absurd (List.mem_append_right _ (List.mem_cons_self ..)) (stays index)
  | @work a actor =>
    cases actor with
    | start | entry => cases apart
  | _ => cases apart

private theorem mute_handling {load : Nat} {info : Info} {serial : Option Nat} {stopping : Bool}
    (placed : r.roster[index]? = some (load, info))
    (busy : Busy r.collaborators index load info (.handle serial stopping) (frame :: rest))
    (light : frame.isLight = true → r' = r ∧ ∀ f ∈ frames, f.isLight = true)
    (t : frame.Turnover r r' frames) : Voiced r' (frames ++ rest) r.roster := by
  cases busy with
  | above hframe busy =>
    obtain ⟨rfl, hlights⟩ := light hframe
    exact .handling placed (busy.lights hlights)
  | handle idle =>
    cases t with
    | work hlights =>
      rw [List.append_assoc]
      exact .handling placed (Busy.lights hlights (.handle idle))
    | left => exact .idle idle
    | apart apart | join apart | enter apart | depart apart => cases apart

private theorem mute_busy {load : Nat} {info : Info} {task : Task σ} (enrolled : r.Enrolled)
    (placed : r.roster[index]? = some (load, info))
    (busy : Busy r.collaborators index load info task (frame :: rest))
    (silent : ∀ serial stopping, task ≠ .handle serial stopping)
    (light : frame.isLight = true → r' = r ∧ ∀ f ∈ frames, f.isLight = true)
    (unstarted : ∀ index stopping client,
      frame ≠ .code (.start index stopping client) (.done true))
    (t : frame.Turnover r r' frames) : Voiced r' (frames ++ rest) (r.roster.eraseIdx index) := by
  cases busy with
  | above hframe busy =>
    obtain ⟨rfl, hlights⟩ := light hframe
    exact .busy placed (busy.lights hlights) silent
  | handle => exact absurd rfl (silent _ _)
  | start idle =>
    cases t with
    | work hlights =>
      rw [List.append_assoc]
      exact .busy placed (Busy.lights hlights (.start idle)) silent
    | started => exact absurd rfl (unstarted _ _ _)
    | failed hplaced loaded named below =>
      cases placed.symm.trans hplaced
      obtain rfl := (enrolled.info_unique
        (List.mem_map_of_mem (List.mem_of_getElem? placed)) loaded named).symm
      have hfails : Busy r.collaborators index load info .fail (.mark info false :: (_ ++ rest)) :=
        .mark (idle_append below idle)
      refine Voiced.busy placed (Busy.above rfl hfails) (by rintro _ _ ⟨⟩)
    | apart apart | join apart | enter apart | depart apart => cases apart
  | mark idle =>
    cases t with
    | mark => exact .busy placed (.settle idle) silent
    | apart apart | join apart | enter apart | depart apart => cases apart
  | settle idle =>
    cases t with
    | gone absent =>
      exact absurd (List.mem_map_of_mem (List.mem_map_of_mem (List.mem_of_getElem? placed))) absent
    | settle hplaced named =>
      obtain rfl := enrolled.index_unique placed hplaced named
      refine .busy placed (.remove (idle_append ?_ idle)) silent
      simp [isBusy]
    | apart apart | join apart | enter apart | depart apart => cases apart
  | remove idle =>
    cases t with
    | missing absent =>
      rw [placed] at absent
      cases absent
    | remove hplaced =>
      cases placed.symm.trans hplaced
      have hbusy : Busy r.collaborators index load info (.release false [])
          (.release load info r.collaborators.inReleaseOrder :: .erase index load info :: rest) :=
        .release (List.nil_append _) idle
      exact .busy placed hbusy (by rintro _ _ ⟨⟩)
    | apart apart | join apart | enter apart | depart apart => cases apart
  | leave idle =>
    cases t with
    | missing absent =>
      rw [placed] at absent
      cases absent
    | finish hplaced =>
      cases placed.symm.trans hplaced
      exact .busy placed (.finish idle) (by rintro _ _ ⟨⟩)
    | apart apart | join apart | enter apart | depart apart => cases apart
  | finish idle =>
    cases t with
    | work hlights =>
      rw [List.append_assoc]
      exact .busy placed (Busy.lights hlights (.finish idle)) silent
    | left =>
      have hbusy : Busy r.collaborators index load info (.release true [])
          (.release load info r.collaborators.inReleaseOrder :: .erase index load info :: _) :=
        .release (List.nil_append _) idle
      exact .busy placed hbusy (by rintro _ _ ⟨⟩)
    | apart apart | join apart | enter apart | depart apart => cases apart
  | @release started managers _ _ order idle =>
    cases t with
    | released =>
      rw [List.append_nil] at order
      subst order
      exact .busy placed (.erase idle) silent
    | @release _ _ place manager left _ =>
      have hbusy : Busy r.collaborators index load info
          (.release started (managers ++ [(place, manager)]))
          (.release load info left :: .erase index load info :: _) :=
        .release (by rw [List.append_assoc]; exact order) idle
      exact .busy placed (.above rfl hbusy) (by rintro _ _ ⟨⟩)
    | apart apart | join apart | enter apart | depart apart => cases apart
  | erase idle =>
    cases t with
    | erase => exact .idle idle
    | apart apart | join apart | enter apart | depart apart => cases apart

/-- A step that announces nothing leaves the voices as they are. -/
theorem mute (h : Voiced r (frame :: rest) voices) (enrolled : r.Enrolled)
    (light : frame.isLight = true → r' = r ∧ ∀ f ∈ frames, f.isLight = true)
    (stays : Stays frames)
    (unstarted : ∀ index stopping client,
      frame ≠ .code (.start index stopping client) (.done true))
    (t : frame.Turnover r r' frames) : Voiced r' (frames ++ rest) voices := by
  cases h with
  | idle idle =>
    have below : ∀ f ∈ rest, f.isBusy = false := fun f hf => idle f (List.mem_cons_of_mem _ hf)
    exact mute_idle (idle frame (List.mem_cons_self ..)) below stays t
  | handling placed busy => exact mute_handling placed busy light t
  | busy placed busy silent => exact mute_busy enrolled placed busy silent light unstarted t

/-- An app that has started is one of the voices from then on. -/
theorem started {stopping : Bool} {client : LoadClient σ}
    {routine : Routine σ .app .flag} {lower : List (Frame σ)}
    (h : Voiced r (.code (.start index stopping client) routine :: rest) voices)
    (light : ∀ f ∈ upper, f.isLight = true) (below : ∀ f ∈ lower, f.isBusy = false) :
    voices = r.roster.eraseIdx index ∧ Voiced r (upper ++ lower ++ rest) r.roster := by
  have silent : voices = r.roster.eraseIdx index ∧ ∀ f ∈ rest, f.isBusy = false := by
    cases h with
    | idle idle =>
      have hbusy := idle _ (List.mem_cons_self ..)
      cases hbusy
    | handling placed busy =>
      cases busy with
      | above light => cases light
    | busy placed busy silent =>
      cases busy with
      | above light => cases light
      | start idle => exact ⟨rfl, idle⟩
  obtain ⟨hvoices, hrest⟩ := silent
  refine ⟨hvoices, ?_⟩
  rw [List.append_assoc]
  exact (Voiced.idle (idle_append below hrest)).lights light

/-- An app that is to be taken down is none of the voices any more. -/
theorem stopped {load : Nat} {info : Info} (placed : r.roster[index]? = some (load, info))
    (light : ∀ f ∈ upper, f.isLight = true) (below : ∀ f ∈ rest, f.isBusy = false) :
    Voiced r (upper ++ .remove index true :: rest) (r.roster.eraseIdx index) :=
  .busy placed (Busy.lights light (.leave below)) (by rintro _ _ ⟨⟩)

end Voiced

end Frame

end SensorHub
