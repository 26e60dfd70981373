import SensorHub.Proofs.Directory
import SensorHub.Proofs.Rings

namespace SensorHub

variable {σ : Type}

theorem periods_filter (load : Nat) (incidents : List Incident) :
    periods load (incidents.filter Incident.isWakeup) = periods load incidents := by
  induction incidents with
  | nil => rfl
  | cons incident incidents ih =>
    cases hwakeup : incident.isWakeup with
    | true =>
      rw [List.filter_cons_of_pos hwakeup]
      cases hroll : incident.rolledAt? with
      | none => rw [periods_cons hroll, periods_cons hroll, ih]
      | some now =>
        obtain rfl : incident = .rolled now := by
          cases incident with
          | rolled => exact congrArg _ (Option.some.inj hroll)
          | _ => cases hroll
        rw [periods_rolled, periods_rolled, ih]
    | false =>
      rw [List.filter_cons_of_neg (by simp [hwakeup]), ih]
      apply (periods_other _ _).symm
      · cases incident with
        | rolled => cases hwakeup
        | _ => rfl
      · rintro rfl
        cases hwakeup

theorem rolls_filter (incidents : List Incident) :
    rolls (incidents.filter Incident.isWakeup) = rolls incidents := by
  induction incidents with
  | nil => rfl
  | cons incident incidents ih =>
    cases incident with
    | rolled now => exact congrArg (now :: ·) ih
    | _ => exact ih

theorem Config.wakeupBuckets_pos {config : Config} (sound : config.defect? = none) :
    0 < config.wakeupBuckets.toNat := by
  apply Nat.pos_of_ne_zero
  intro hzero
  have hnone : config.wakeupBuckets = 0 := UInt64.toNat_inj.mp hzero
  simp only [defect?, hnone, if_true] at sound
  split at sound
  next => cases sound
  next => split at sound <;> cases sound

namespace Rings

variable {r r' : Rings} {created now : Nat}

/-- The counters tell what happened in the last periods, which are as long as they should be. -/
structure Exact (r : Rings) (created : Nat) : Prop where
  pos : 0 < r.config.wakeupBuckets.toNat
  latest : r.lastRoll = (rolls r.chronicle).head?.getD created
  spaced : (rolls r.chronicle ++ [created]).IsChain fun later earlier =>
    r.config.wakeupInterval < later - earlier
  recalled : ∀ ring ∈ r.rings, ∃ since info earlier,
    r.chronicle = since ++ .loaded ring.1 info :: earlier ∧
      (∀ other, .loaded ring.1 other ∉ since) ∧
      ring.2.Recalls r.config.wakeupBuckets.toNat ring.1 since

namespace Exact

theorem roll (h : r.Exact created) (due : r.config.wakeupInterval < now - r.lastRoll) :
    (r.roll now).Exact created := by
  refine ⟨h.pos, rfl, ?_, ?_⟩
  · have hlast := h.latest
    have hspaced := h.spaced
    show (now :: (rolls r.chronicle ++ [created])).IsChain _
    cases hrolls : rolls r.chronicle with
    | nil =>
      rw [hrolls] at hlast
      rw [hlast] at due
      exact List.isChain_cons_cons.mpr ⟨due, .singleton created⟩
    | cons last earlier =>
      rw [hrolls] at hlast hspaced
      rw [hlast] at due
      exact List.isChain_cons_cons.mpr ⟨due, hspaced⟩
  · intro ring hring
    obtain ⟨old, hold, rfl⟩ := List.mem_map.mp hring
    obtain ⟨since, info, earlier, hchronicle, honce, hrecalls⟩ := h.recalled old hold
    refine ⟨.rolled now :: since, info, earlier, ?_, ?_, ?_⟩
    · show _ :: r.chronicle = _
      rw [hchronicle]
      rfl
    · intro other hmem
      rcases List.mem_cons.mp hmem with heq | hmem
      · cases heq
      · exact honce other hmem
    · obtain ⟨n, hn⟩ := Nat.exists_eq_add_one.mpr h.pos
      rw [hn] at hrecalls
      show old.2.roll.Recalls r.config.wakeupBuckets.toNat _ _
      rw [hn]
      exact hrecalls.roll now

/-- What else can happen to the counters is told as well. -/
theorem turns (h : r.Exact created) (ht : r.Turns r') (distinct : (r.rings.map Prod.fst).Nodup)
    (numbered : ∀ ring ∈ r.rings, ring.1 ≤ r.loads) : r'.Exact created := by
  obtain ⟨n, hn⟩ := Nat.exists_eq_add_one.mpr h.pos
  cases ht with
  | keep => exact h
  | leave index =>
    exact ⟨h.pos, h.latest, h.spaced, fun ring hring => h.recalled ring (List.mem_of_mem_eraseIdx hring)⟩
  | join info =>
    refine ⟨h.pos, h.latest, h.spaced, fun ring hring => ?_⟩
    rcases List.mem_append.mp hring with hring | hring
    · obtain ⟨since, first, earlier, hchronicle, honce, hrecalls⟩ := h.recalled ring hring
      have hne : r.loads + 1 ≠ ring.1 := by
        have hle := numbered ring hring
        omega
      refine ⟨.loaded (r.loads + 1) info :: since, first, earlier, ?_, ?_, ?_⟩
      · exact congrArg (_ :: ·) hchronicle
      · intro other hmem
        rcases List.mem_cons.mp hmem with heq | hmem
        · exact hne (Incident.loaded.inj heq).1.symm
        · exact honce other hmem
      · exact hrecalls.other rfl nofun
    · obtain rfl := List.mem_singleton.mp hring
      refine ⟨[], info, r.chronicle, rfl, by simp, ?_⟩
      show Wakeups.Recalls (.new r.config.wakeupBuckets.toNat) r.config.wakeupBuckets.toNat _ _
      rw [hn]
      exact .new _ n
  | @blame index load w hring =>
    refine ⟨h.pos, h.latest, h.spaced, fun ring hmem => ?_⟩
    have unloaded : ∀ {since : List Incident}, (∀ other, .loaded ring.1 other ∉ since) →
        ∀ other, .loaded ring.1 other ∉ .blamed load :: since := by
      intro since honce other hmem
      rcases List.mem_cons.mp hmem with heq | hmem
      · cases heq
      · exact honce other hmem
    obtain ⟨k, hk⟩ := List.mem_iff_getElem?.mp hmem
    simp only [blame, List.getElem?_modify] at hk
    by_cases hplace : index = k
    · subst hplace
      simp only [hring, if_true] at hk
      cases hk
      obtain ⟨since, info, earlier, hchronicle, honce, hrecalls⟩ :=
        h.recalled _ (List.mem_of_getElem? hring)
      rw [hn] at hrecalls
      refine ⟨.blamed load :: since, info, earlier, congrArg (_ :: ·) hchronicle, unloaded honce, ?_⟩
      show Wakeups.Recalls _ r.config.wakeupBuckets.toNat _ _
      rw [hn]
      exact hrecalls.blame
    · simp only [hplace, if_false] at hk
      have hold : r.rings[k]? = some ring := by simpa using hk
      have hne : load ≠ ring.1 := by
        intro heq
        apply hplace
        have hlt := (List.getElem?_eq_some_iff.mp hring).1
        apply (List.getElem?_inj (by simpa using hlt) distinct).mp
        simp [hring, hold, heq]
      obtain ⟨since, info, earlier, hchronicle, honce, hrecalls⟩ :=
        h.recalled _ (List.mem_of_getElem? hold)
      refine ⟨.blamed load :: since, info, earlier, congrArg (_ :: ·) hchronicle, unloaded honce, ?_⟩
      exact hrecalls.other rfl fun heq => hne (Incident.blamed.inj heq)

end Exact

end Rings

namespace Machine

variable {start m next : Machine σ}

theorem rings_enrolled (hub : Hub σ) :
    hub.rings.rings.map Prod.fst = hub.records.roster.map Prod.fst := by
  rw [Hub.roster_eq, Hub.rings, List.map_map, List.map_map]
  rfl

theorem exact_create {config : Config} (collaborators : Collaborators σ) (memory : σ) (now : Nat)
    (sound : config.defect? = none) : (Hub.create config collaborators memory now).rings.Exact now where
  pos := Config.wakeupBuckets_pos sound
  latest := rfl
  spaced := .singleton now
  recalled := fun ring hring => (by cases hring)

theorem Reachable.exact_step {hub hub' : Hub σ} {frame : Frame σ} {frames rest : List (Frame σ)}
    {created : Nat} (hm : Reachable ⟨hub, frame :: rest⟩) (h : frame.step hub = .go hub' frames)
    (hexact : hub.rings.Exact created) :
    hub'.rings.Exact created ∧ hub'.rings.config = hub.rings.config := by
  cases hchecks : frame.checksPeriod with
  | true =>
    obtain rfl := Frame.step_check hchecks h
    rw [Hub.rings_rollWakeups]
    split
    next due => exact ⟨hexact.roll due, rfl⟩
    next => exact ⟨hexact, rfl⟩
  | false =>
    have hturns := Frame.step_turns hm.nested.1 hchecks h
    have henrolled := hm.enrolled
    refine ⟨hexact.turns hturns ?_ ?_, ?_⟩
    · rw [rings_enrolled]
      exact henrolled.numbers
    · intro ring hring
      have hnumber : ring.1 ∈ hub.records.roster.map Prod.fst := by
        rw [← rings_enrolled]
        exact List.mem_map_of_mem hring
      obtain ⟨entry, hentry, heq⟩ := List.mem_map.mp hnumber
      rw [← heq]
      exact henrolled.numbered entry hentry
    · generalize hub'.rings = r' at hturns ⊢
      cases hturns <;> rfl

/-- At every point of a run the counters tell what happened. -/
theorem Reaches.exact (hs : start.IsStart) (hr : start.Reaches m) :
    m.hub.rings.Exact start.hub.now ∧ m.hub.rings.config = start.hub.rings.config := by
  refine hr.keeps
    (P := fun hub _ => hub.rings.Exact start.hub.now ∧ hub.rings.config = start.hub.rings.config)
    ?_ ?_ fun _ _ h => h
  · obtain ⟨config, collaborators, memory, now, routine, sound, rfl⟩ := isStart_iff.mp hs
    exact ⟨exact_create collaborators memory now sound, rfl⟩
  · rintro hub hub' frame frames rest hr ⟨hexact, hconfig⟩ h
    have hm : Reachable ⟨hub, frame :: rest⟩ := ⟨start, hs, hr⟩
    obtain ⟨hexact', hsame⟩ := hm.exact_step h hexact
    exact ⟨hexact', hsame.trans hconfig⟩

def checksPeriod (m : Machine σ) : Bool :=
  m.frames.head?.any Frame.checksPeriod

/-- A step rolls all counters once if it looks whether a period is over and more than a period has
passed, and no other step does. -/
theorem rolls_step (hm : m.Reachable) (hs : m.step = .stepped next) :
    if m.checksPeriod ∧ m.hub.config.wakeupInterval < m.hub.now - m.hub.lastRoll then
      rolls next.hub.journal = m.hub.now :: rolls m.hub.journal ∧
        next.hub.apps = m.hub.apps.map (App.alter Nanoapp.rollWakeups)
    else rolls next.hub.journal = rolls m.hub.journal := by
  obtain ⟨hub, frame, rest, hub', frames, rfl, h, rfl⟩ := step_eq_stepped.mp hs
  have hfirst : (⟨hub, frame :: rest⟩ : Machine σ).checksPeriod = frame.checksPeriod := by
    simp [checksPeriod]
  rw [hfirst]
  split
  next hdue =>
    obtain ⟨hchecks, due⟩ := hdue
    obtain rfl := Frame.step_check hchecks h
    simp [Hub.rollWakeups, due, Hub.record, rolls, Incident.rolledAt?]
  next hnot =>
    show rolls hub'.journal = rolls hub.journal
    cases hchecks : frame.checksPeriod with
    | true =>
      have early : ¬hub.config.wakeupInterval < hub.now - hub.lastRoll :=
        fun due => hnot ⟨hchecks, due⟩
      obtain rfl := Frame.step_check hchecks h
      rw [Hub.rollWakeups, if_neg early]
    | false =>
      have hturns := Frame.step_turns hm.nested.1 hchecks h
      have hsame : rolls hub'.rings.chronicle = rolls hub.rings.chronicle := by
        generalize hub'.rings = r' at hturns ⊢
        cases hturns <;> rfl
      rw [← rolls_filter hub'.journal, ← rolls_filter hub.journal]
      exact hsame

/-- All counters are rolled when more than a period has passed since the last roll, or since the
creation of the hub, and whoever looks whether this is so rolls the counters of every loaded app
once. The counters of a loaded app hold, oldest first, how many wakeups it was blamed for in the
periods between the rolls since it was loaded, as far as there are counters, where a full one stays
full. -/
theorem wakeup_history_exact (hs : start.IsStart) (hr : start.Reaches m) :
    ((rolls m.hub.journal ++ [start.hub.now]).IsChain fun later earlier =>
      start.hub.config.wakeupInterval < later - earlier) ∧
    (∀ next, m.step = .stepped next →
      if m.checksPeriod ∧ start.hub.config.wakeupInterval <
          m.hub.now - (rolls m.hub.journal).head?.getD start.hub.now then
        rolls next.hub.journal = m.hub.now :: rolls m.hub.journal ∧
          next.hub.apps = m.hub.apps.map (App.alter Nanoapp.rollWakeups)
      else rolls next.hub.journal = rolls m.hub.journal) ∧
    ∀ app ∈ m.hub.apps, ∃ since info earlier,
      m.hub.journal = since ++ .loaded app.nanoapp.load info :: earlier ∧
      (∀ other, .loaded app.nanoapp.load other ∉ since) ∧
      app.nanoapp.wakeups.buckets.length =
        min start.hub.config.wakeupBuckets.toNat (1 + (rolls since).length) ∧
      app.nanoapp.wakeups.buckets.map UInt16.toNat =
        (((periods app.nanoapp.load since).take start.hub.config.wakeupBuckets.toNat).map
          (min 65535)).reverse := by
  obtain ⟨hexact, hsame⟩ := hr.exact hs
  have hconfig : m.hub.config = start.hub.config := hsame
  have hlatest : m.hub.lastRoll = (rolls m.hub.journal).head?.getD start.hub.now := by
    rw [← rolls_filter m.hub.journal]
    exact hexact.latest
  refine ⟨?_, fun next hstep => ?_, fun app happ => ?_⟩
  · rw [← rolls_filter m.hub.journal, ← hconfig]
    exact hexact.spaced
  · have hrolls := rolls_step ⟨start, hs, hr⟩ hstep
    rw [← hlatest, ← hconfig]
    exact hrolls
  · obtain ⟨told, info, later, hchronicle, honce, -, hcounters⟩ :=
      hexact.recalled (app.nanoapp.load, app.nanoapp.wakeups) (List.mem_map_of_mem happ)
    obtain ⟨front, behind, hjournal, hfront, hbehind⟩ := List.filter_eq_append_iff.mp hchronicle
    obtain ⟨skipped, earlier, rfl, hskipped, -, -⟩ := List.filter_eq_cons_iff.mp hbehind
    have htold : (front ++ skipped).filter Incident.isWakeup = told := by
      rw [List.filter_append, hfront, List.filter_eq_nil_iff.mpr hskipped, List.append_nil]
    have hcount : app.nanoapp.wakeups.newestFirst.map UInt16.toNat =
        ((periods app.nanoapp.load (front ++ skipped)).take
          start.hub.config.wakeupBuckets.toNat).map (min 65535) := by
      rw [← periods_filter, htold, ← hconfig]
      exact hcounters
    refine ⟨front ++ skipped, info, earlier, by simp [hjournal], fun other hmem => ?_, ?_, ?_⟩
    · apply honce other
      rw [← htold]
      exact List.mem_filter.mpr ⟨hmem, rfl⟩
    · have hlength := congrArg List.length hcount
      rw [List.length_map, List.length_map, List.length_take, length_periods] at hlength
      rw [Wakeups.buckets, List.length_reverse, hlength]
    · rw [Wakeups.buckets, List.map_reverse, hcount]

def wakefulApp : App Unit where
  nanoapp := .new 1 1
  onStart := .blame (.blame (.done true))
  onEvent := fun _ _ => .blame (.done ())
  onEnd := .done ()

/-- Lets more than a period pass between the start of the app and an event for it. -/
def wakeful : Routine Unit .loop .nothing :=
  .start wakefulApp fun _ =>
  .pause 300000000001 <|
  .rollWakeups <|
  .deliver 1 EventType.firstUser none fun _ =>
  .done ()

theorem wakeup_history_exact_wakeful :
    let m := ((plain wakeful).advance 11).1
    ([300000000001, 0].IsChain fun later earlier => 300000000000 < later - earlier) ∧
      ∃ app ∈ m.hub.apps, app.nanoapp.wakeups.buckets = [2, 1] ∧
        ∃ since info earlier, m.hub.journal = since ++ .loaded 1 info :: earlier ∧
          [2, 1] = (((periods 1 since).take 4).map (min 65535)).reverse := by
  intro m
  have hr : (plain wakeful).Reaches m := reaches_unfinished (by decide +kernel)
  obtain ⟨spaced, -, recalled⟩ := wakeup_history_exact (isStart_plain wakeful) hr
  have hrolls : rolls m.hub.journal = [300000000001] := by decide +kernel
  rw [hrolls] at spaced
  obtain ⟨app, happ⟩ : ∃ app, m.hub.apps = [app] := ⟨_, rfl⟩
  have hstate : (m.hub.apps.map fun app => (app.nanoapp.load, app.nanoapp.wakeups.buckets)) =
      [(1, [2, 1])] := by
    decide +kernel
  rw [happ, List.map_singleton, List.cons.injEq, Prod.mk.injEq] at hstate
  obtain ⟨⟨hload, hbuckets⟩, -⟩ := hstate
  have hmem : app ∈ m.hub.apps := happ ▸ List.mem_singleton_self app
  obtain ⟨since, info, earlier, hjournal, -, -, hcounts⟩ := recalled app hmem
  rw [hload] at hjournal hcounts
  rw [hbuckets] at hcounts
  exact ⟨spaced, app, hmem, hbuckets, since, info, earlier, hjournal, hcounts⟩

end Machine

end SensorHub
