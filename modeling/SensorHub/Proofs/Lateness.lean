import SensorHub.Proofs.Allowance
import SensorHub.Proofs.Distribution

namespace SensorHub

variable {σ : Type}

namespace Clock

/-- The whole milliseconds from one instant to another, as far as stamps tell them. -/
def waited (earlier now : Nat) : Nat :=
  (millis now - millis earlier) % 65536

theorem toNat_stamp (now : Nat) : (stamp now).toNat = millis now % 65536 :=
  rfl

/-- What is subtracted is never too large, and what is added never overflows. -/
theorem latency_add (now enqueued : UInt16) : (latency now enqueued).toNat + enqueued.toNat =
    now.toNat + if now < enqueued then 65536 else 0 := by
  have hnow := now.toNat_lt
  have henqueued := enqueued.toNat_lt
  have hwrap : (65536 : UInt32).toNat = 65536 := rfl
  unfold latency
  by_cases h : now < enqueued
  · have hlt : now.toNat < enqueued.toNat := h
    simp only [h, if_true]
    rw [UInt32.toNat_sub, UInt32.toNat_add, hwrap, UInt16.toNat_toUInt32, UInt16.toNat_toUInt32]
    omega
  · have hle : enqueued.toNat ≤ now.toNat := Nat.not_lt.mp h
    simp only [h, if_false]
    rw [UInt32.toNat_sub, UInt16.toNat_toUInt32, UInt16.toNat_toUInt32]
    omega

theorem latency_stamp {earlier now : Nat} (h : earlier ≤ now) :
    (latency (stamp now) (stamp earlier)).toNat = waited earlier now := by
  have hadd := latency_add (stamp now) (stamp earlier)
  have hmillis : millis earlier ≤ millis now := Nat.div_le_div_right h
  have hlt : stamp now < stamp earlier ↔ millis now % 65536 < millis earlier % 65536 := Iff.rfl
  rw [toNat_stamp, toNat_stamp] at hadd
  unfold waited
  split at hadd
  next hwraps =>
    rw [hlt] at hwraps
    omega
  next hwraps =>
    rw [hlt] at hwraps
    omega

end Clock

namespace Incident

/-- The load of the app that begins to handle an event, with the number of the event. -/
def handover? : Incident → Option (Nat × Option Nat)
  | .entered load _ (.event serial) _ => some (load, serial)
  | _ => none

def isDelay : Incident → Bool
  | .logged report => report.isDelay
  | _ => false

/-- The incident hands no event over and reports no late delivery, and it is no admission in the
future. -/
def isBetween (now : Nat) : Incident → Bool
  | .logged report => !report.isDelay
  | .admitted _ instant => instant ≤ now
  | .entered _ _ (.event _) _ => false
  | _ => true

theorem isBetween_of_isMinor {incident : Incident} {now : Nat} (h : incident.isMinor now = true) :
    incident.isBetween now = true := by
  cases incident with
  | admitted serial instant => simpa [isBetween] using Nat.le_of_eq (beq_iff_eq.mp h)
  | entered load instanceId point stopping =>
    cases point with
    | event => cases h
    | start | finish => rfl
  | logged => exact h
  | _ => rfl

theorem isBetween_later {incident : Incident} {now later : Nat} (hle : now ≤ later)
    (h : incident.isBetween now = true) : incident.isBetween later = true := by
  cases incident with
  | admitted serial instant =>
    have hearlier : instant ≤ now := by simpa [isBetween] using h
    simpa [isBetween] using Nat.le_trans hearlier hle
  | entered load instanceId point stopping =>
    cases point with
    | event => cases h
    | start | finish => rfl
  | _ => exact h

theorem handover?_of_isBetween {incident : Incident} {now : Nat}
    (h : incident.isBetween now = true) : incident.handover? = none := by
  cases incident with
  | entered load instanceId point stopping =>
    cases point with
    | event => cases h
    | start | finish => rfl
  | _ => rfl

theorem isDelay_of_isBetween {incident : Incident} {now : Nat} (h : incident.isBetween now = true) :
    incident.isDelay = false := by
  cases incident with
  | logged report => simpa [isBetween, isDelay] using h
  | _ => rfl

end Incident

def handovers (journal : List Incident) : List (Nat × Option Nat) :=
  journal.filterMap Incident.handover?

def delays (journal : List Incident) : List Incident :=
  journal.filter Incident.isDelay

namespace Course

variable {c c₁ c' : Course σ}

/-- The clock goes on or stands still, and no event is handed over. -/
structure Waits (c c' : Course σ) : Prop where
  config : c'.config = c.config
  throttle : c'.latencyThrottle = c.latencyThrottle
  later : c.now ≤ c'.now
  between : ∃ news, c'.journal = news ++ c.journal ∧
    ∀ incident ∈ news, incident.isBetween c'.now = true

namespace Waits

theorem trans (h : c.Waits c₁) (h' : c₁.Waits c') : c.Waits c' where
  config := h'.config.trans h.config
  throttle := h'.throttle.trans h.throttle
  later := Nat.le_trans h.later h'.later
  between := by
    obtain ⟨news, hjournal, hnews⟩ := h.between
    obtain ⟨more, hjournal', hmore⟩ := h'.between
    refine ⟨more ++ news, ?_, ?_⟩
    · rw [hjournal', hjournal, List.append_assoc]
    · intro incident hmem
      rcases List.mem_append.mp hmem with hmem | hmem
      · exact hmore incident hmem
      · exact Incident.isBetween_later h'.later (hnews incident hmem)

theorem of_passes (h : c.Passes c') : c.Waits c' := by
  obtain ⟨news, rfl, minor⟩ := h
  refine ⟨rfl, rfl, Nat.le_refl _, news, rfl, ?_⟩
  intro incident hmem
  exact Incident.isBetween_of_isMinor (minor incident hmem)

theorem handovers_eq (h : c.Waits c') : handovers c'.journal = handovers c.journal := by
  obtain ⟨news, hjournal, hnews⟩ := h.between
  have hnone : news.filterMap Incident.handover? = [] := by
    apply List.filterMap_eq_nil_iff.mpr
    intro incident hmem
    exact Incident.handover?_of_isBetween (hnews incident hmem)
  rw [handovers, hjournal, List.filterMap_append, hnone, List.nil_append, handovers]

theorem delays_eq (h : c.Waits c') : delays c'.journal = delays c.journal := by
  obtain ⟨news, hjournal, hnews⟩ := h.between
  have hnone : news.filter Incident.isDelay = [] := by
    apply List.filter_eq_nil_iff.mpr
    intro incident hmem
    simp [Incident.isDelay_of_isBetween (hnews incident hmem)]
  rw [delays, hjournal, List.filter_append, hnone, List.nil_append, delays]

theorem admitted_le (h : c.Waits c')
    (past : ∀ serial instant, .admitted serial instant ∈ c.journal → instant ≤ c.now) :
    ∀ serial instant, .admitted serial instant ∈ c'.journal → instant ≤ c'.now := by
  intro serial instant hmem
  obtain ⟨news, hjournal, hnews⟩ := h.between
  rw [hjournal] at hmem
  rcases List.mem_append.mp hmem with hmem | hmem
  · simpa [Incident.isBetween] using hnews _ hmem
  · exact Nat.le_trans (past serial instant hmem) h.later

end Waits

end Course

theorem Frame.Edits.waits {hub : Hub σ} {frame : Frame σ} {c : Course σ}
    (h : frame.Edits hub c) : hub.course.Waits c := by
  cases h with
  | keep => exact .of_passes (.refl _)
  | elapse nanoseconds => exact ⟨rfl, rfl, Nat.le_add_right .., [], rfl, by simp⟩
  | sample | tune | count => exact ⟨rfl, rfl, Nat.le_refl _, [], rfl, by simp⟩
  | miss | blame | erase =>
    exact ⟨rfl, rfl, Nat.le_refl _, [_], rfl, by simp [Incident.isBetween, LogRecord.isDelay]⟩
  | enroll passes app id =>
    apply (Course.Waits.of_passes passes).trans
    exact ⟨rfl, rfl, Nat.le_refl _, [_], rfl, by simp [Incident.isBetween]⟩
  | roll =>
    unfold Hub.rollWakeups
    split
    next => exact ⟨rfl, rfl, Nat.le_refl _, [_], rfl, by simp [Incident.isBetween]⟩
    next => exact .of_passes (.refl _)

namespace Hub

def latencyOf (hub : Hub σ) (event : Event) : UInt32 :=
  Clock.latency (Clock.stamp hub.now) event.stamp

def warning (hub : Hub σ) (event : Event) (receiver : UInt16) : List Incident :=
  if hub.config.latencyWarnMillis ≤ hub.latencyOf event ∧
      (hub.latencyThrottle.allow hub.now).1 = true then
    [.logged (.delayed event.type event.sender receiver (hub.latencyOf event))]
  else []

theorem checkLatency_eq (hub : Hub σ) (event : Event) (receiver : UInt16) :
    hub.checkLatency event receiver =
      { hub with
        latencyThrottle :=
          if hub.config.latencyWarnMillis ≤ hub.latencyOf event then
            (hub.latencyThrottle.allow hub.now).2
          else hub.latencyThrottle
        journal := hub.warning event receiver ++ hub.journal } := by
  unfold checkLatency warning latencyOf
  dsimp only
  by_cases hlate : hub.config.latencyWarnMillis ≤
      Clock.latency (Clock.stamp hub.now) event.stamp
  · simp only [hlate, if_true, true_and]
    split <;> rfl
  · simp only [hlate, if_false, false_and]
    rfl

theorem handovers_warning (hub : Hub σ) (event : Event) (receiver : UInt16) :
    handovers (hub.warning event receiver ++ hub.journal) = handovers hub.journal := by
  unfold warning
  split <;> rfl

theorem admitted_not_mem_warning (hub : Hub σ) (event : Event) (receiver : UInt16)
    (serial instant : Nat) : .admitted serial instant ∉ hub.warning event receiver := by
  unfold warning
  split <;> simp

/-- What the hub records, changes and goes on with when it hands an event over. -/
theorem deliverTo_eq (hub : Hub σ) (index : Nat) (app : App σ) (serial : Option Nat)
    (event : Event) (hasCallback : Bool) :
    ∃ stopping,
      (hub.deliverTo index app serial event hasCallback).1.journal =
        .entered app.nanoapp.load app.nanoapp.info.instanceId (.event serial) stopping ::
          (hub.warning event app.nanoapp.info.instanceId ++ hub.journal) ∧
      (hub.deliverTo index app serial event hasCallback).1.latencyThrottle =
        (if hub.config.latencyWarnMillis ≤ hub.latencyOf event then
          (hub.latencyThrottle.allow hub.now).2
        else hub.latencyThrottle) ∧
      (hub.deliverTo index app serial event hasCallback).1.now = hub.now ∧
      (hub.deliverTo index app serial event hasCallback).1.config = hub.config ∧
      (hub.deliverTo index app serial event hasCallback).2.head? =
        some (.code (.entry index stopping (.event serial)) (app.onEvent event hasCallback)) := by
  unfold deliverTo
  dsimp only
  rw [checkLatency_eq]
  exact ⟨_, rfl, rfl, rfl, rfl, rfl⟩

theorem handovers_deliverTo (hub : Hub σ) (index : Nat) (app : App σ) (serial : Option Nat)
    (event : Event) (hasCallback : Bool) :
    handovers (hub.deliverTo index app serial event hasCallback).1.journal =
      (app.nanoapp.load, serial) :: handovers hub.journal := by
  obtain ⟨stopping, hjournal, -⟩ := hub.deliverTo_eq index app serial event hasCallback
  rw [hjournal]
  exact congrArg (_ :: ·) (hub.handovers_warning event _)

end Hub

theorem admitted_once {journal : List Incident} (once : (admissions journal).Nodup)
    {serial instant other : Nat} (h : .admitted serial instant ∈ journal)
    (h' : .admitted serial other ∈ journal) : other = instant := by
  rw [admissions, List.nodup_reverse, List.nodup_iff_pairwise_ne, List.pairwise_filterMap] at once
  have symmetric : Std.Symm fun i j : Incident =>
      ∀ a, i.admits? = some a → ∀ b, j.admits? = some b → a ≠ b :=
    ⟨fun i j apart a ha b hb => (apart b hb a ha).symm⟩
  by_contra hne
  have hdiffer : Incident.admitted serial other ≠ .admitted serial instant :=
    fun heq => hne (Incident.admitted.inj heq).2
  exact once.forall h' h hdiffer serial rfl serial rfl rfl

namespace Machine

/-- The step hands an event over to the app of a load, under the number of the event if it was
queued. -/
def HandsOver (m next : Machine σ) (load : Nat) (serial : Option Nat) : Prop :=
  handovers next.hub.journal = (load, serial) :: handovers m.hub.journal

/-- The instant from which an event waits: that of its admission, or the present for one that goes
past the queue. -/
def WaitsSince (m : Machine σ) : Option Nat → Nat → Prop
  | some serial, instant => .admitted serial instant ∈ m.hub.journal
  | none, instant => instant = m.hub.now

/-- The step hands over an event that has waited so long that this is to be reported. -/
def Late (m next : Machine σ) : Prop :=
  ∃ load serial instant, m.HandsOver next load serial ∧ m.WaitsSince serial instant ∧
    m.hub.config.latencyWarnMillis.toNat ≤ Clock.waited instant m.hub.now

/-- A run with the instants at which it has handed over an event late. -/
inductive Lags (start : Machine σ) : List Nat → Machine σ → Prop
  | refl : Lags start [] start
  | prompt {late m next} (run : Lags start late m) (move : Move m next) (h : ¬m.Late next) :
      Lags start late next
  | late {late m next} (run : Lags start late m) (move : Move m next) (h : m.Late next) :
      Lags start (late ++ [m.hub.now]) next

variable {start m next : Machine σ} {load : Nat} {serial : Option Nat} {late : List Nat}

theorem Lags.reaches (h : start.Lags late m) : start.Reaches m := by
  induction h with
  | refl => exact .refl
  | prompt _ move _ ih => exact ih.tail move
  | late _ move _ ih => exact ih.tail move

theorem Reaches.lags (h : start.Reaches m) : ∃ late, start.Lags late m := by
  induction h with
  | refl => exact ⟨[], .refl⟩
  | @tail m next _ move ih =>
    obtain ⟨late, run⟩ := ih
    by_cases hlate : m.Late next
    · exact ⟨late ++ [m.hub.now], run.late move hlate⟩
    · exact ⟨late, run.prompt move hlate⟩

theorem Reachable.delivers_or_waits {hub hub' : Hub σ} {frame : Frame σ}
    {frames rest : List (Frame σ)} (hm : Reachable ⟨hub, frame :: rest⟩)
    (h : frame.step hub = .go hub' frames) :
    frame.Delivers hub hub' frames ∨ hub.course.Waits hub'.course := by
  rcases Frame.step_proceeds hm.nested.1 h with ⟨c, hedits, hpasses⟩ | hdelivers
  · exact .inr (hedits.waits.trans (.of_passes hpasses))
  · exact .inl hdelivers

theorem Reachable.admitted_le (hm : m.Reachable) :
    ∀ serial instant, .admitted serial instant ∈ m.hub.journal → instant ≤ m.hub.now := by
  refine hm.keeps (P := fun hub _ =>
    ∀ serial instant, .admitted serial instant ∈ hub.journal → instant ≤ hub.now) ?_ ?_ ?_
  · intro config collaborators memory now routine _ serial instant hmem
    cases hmem
  · intro hub hub' frame frames rest hm past h
    rcases hm.delivers_or_waits h with hdelivers | hwaits
    · cases hdelivers with
      | @intro index app serial event lower hasCallback here offers =>
        obtain ⟨stopping, hjournal, -, hnow, -⟩ :=
          hub.deliverTo_eq index app serial event hasCallback
        intro number instant hmem
        rw [hjournal] at hmem
        rw [hnow]
        rcases List.mem_cons.mp hmem with heq | hmem
        · cases heq
        · rcases List.mem_append.mp hmem with hwarned | hmem
          · exact absurd hwarned (hub.admitted_not_mem_warning event _ number instant)
          · exact past number instant hmem
    · exact hwaits.admitted_le past
  · intro hub frames routine past
    exact past

/-- A delivery to an app of an event that waits since an instant: the latency is the time since
then, it is reported in front of the hand-over if it is large enough and the throttle allows that,
and only if it is large enough the throttle takes a hit. -/
structure Timed (m next : Machine σ) (load : Nat) (serial : Option Nat) (app : App σ)
    (event : Event) (instant : Nat) : Prop where
  here : app ∈ m.hub.apps ∧ app.nanoapp.load = load
  offers : ∃ frame, m.frames.head? = some frame ∧ frame.Offers m.hub serial event
  since : m.WaitsSince serial instant
  unique : ∀ other, m.WaitsSince serial other → other = instant
  past : instant ≤ m.hub.now
  latency : (m.hub.latencyOf event).toNat =
    (Clock.millis m.hub.now - Clock.millis instant) % 65536
  short : Clock.millis m.hub.now - Clock.millis instant < 65536 →
    (m.hub.latencyOf event).toNat = Clock.millis m.hub.now - Clock.millis instant
  /-- The subtraction of the stamps neither underflows nor overflows. -/
  unwrapped : (m.hub.latencyOf event).toNat + event.stamp.toNat =
    (Clock.stamp m.hub.now).toNat + if Clock.stamp m.hub.now < event.stamp then 65536 else 0
  told : ∃ stopping, next.hub.journal =
    .entered load app.nanoapp.info.instanceId (.event serial) stopping ::
      ((if m.hub.config.latencyWarnMillis ≤ m.hub.latencyOf event ∧
          (m.hub.latencyThrottle.allow m.hub.now).1 = true then
        [.logged (.delayed event.type event.sender app.nanoapp.info.instanceId
          (m.hub.latencyOf event))]
      else []) ++ m.hub.journal)
  handles : ∃ index stopping hasCallback, next.frames.head? =
    some (.code (.entry index stopping (.event serial)) (app.onEvent event hasCallback))
  throttle : next.hub.latencyThrottle =
    if m.hub.config.latencyWarnMillis ≤ m.hub.latencyOf event then
      (m.hub.latencyThrottle.allow m.hub.now).2
    else m.hub.latencyThrottle

/-- An event bears the stamp of the only instant since which it waits. -/
theorem Reachable.stamped {hub : Hub σ} {frame : Frame σ} {rest : List (Frame σ)} {event : Event}
    (hm : Reachable ⟨hub, frame :: rest⟩) (offers : frame.Offers hub serial event) :
    ∃ instant, WaitsSince ⟨hub, frame :: rest⟩ serial instant ∧
      (∀ other, WaitsSince ⟨hub, frame :: rest⟩ serial other → other = instant) ∧
      instant ≤ hub.now ∧ event.stamp = Clock.stamp instant := by
  cases offers with
  | queued =>
    obtain ⟨way, event, instant, -, hadmitted, hevent⟩ := hm.as_admitted rfl
    refine ⟨instant, hadmitted, ?_, hm.admitted_le _ instant hadmitted, ?_⟩
    · intro other hother
      exact admitted_once hm.lined.once hadmitted hother
    · rw [hevent]
  | direct stamped => exact ⟨hub.now, rfl, fun other hother => hother, Nat.le_refl _, stamped⟩

/-- A step that hands an event over is a delivery of it. -/
theorem Reachable.timed (hm : m.Reachable) (hs : m.step = .stepped next)
    (hover : m.HandsOver next load serial) :
    ∃ app event instant, m.Timed next load serial app event instant := by
  obtain ⟨hub, frame, rest, hub', frames, rfl, h, rfl⟩ := step_eq_stepped.mp hs
  rcases hm.delivers_or_waits h with hdelivers | hwaits
  · cases hdelivers with
    | @intro index app number event lower hasCallback here offers =>
      obtain ⟨stopping, hjournal, hthrottle, -, -, hframe⟩ :=
        hub.deliverTo_eq index app number event hasCallback
      have hhandovers := hub.handovers_deliverTo index app number event hasCallback
      have hcall : (load, serial) = (app.nanoapp.load, number) :=
        (List.cons.inj (hover.symm.trans hhandovers)).1
      cases hcall
      obtain ⟨instant, hsince, hunique, hpast, hstamp⟩ := hm.stamped offers
      have hlatency : (hub.latencyOf event).toNat = Clock.waited instant hub.now := by
        rw [Hub.latencyOf, hstamp]
        exact Clock.latency_stamp hpast
      refine ⟨app, event, instant, ?_⟩
      exact {
        here := ⟨List.mem_of_getElem? here, rfl⟩
        offers := ⟨frame, rfl, offers⟩
        since := hsince
        unique := hunique
        past := hpast
        latency := hlatency
        short := fun hshort => hlatency.trans (Nat.mod_eq_of_lt hshort)
        unwrapped := Clock.latency_add _ _
        told := ⟨stopping, hjournal⟩
        handles := ⟨index, stopping, hasCallback, by
          show (_ ++ rest).head? = _
          rw [List.append_assoc, List.head?_append, hframe]
          rfl⟩
        throttle := hthrottle }
  · -- a step in which time passes hands nothing over
    have hsame : handovers hub'.journal = handovers hub.journal := hwaits.handovers_eq
    have hself : (load, serial) :: handovers hub.journal = handovers hub.journal :=
      hover.symm.trans hsame
    exact absurd hself (List.cons_ne_self _ _)

/-- While no event is handed over, the throttle takes no hit and no delay is reported. -/
theorem Reachable.untimed (hm : m.Reachable) (hs : m.step = .stepped next)
    (hnone : ∀ load serial, ¬m.HandsOver next load serial) :
    next.hub.latencyThrottle = m.hub.latencyThrottle ∧
      delays next.hub.journal = delays m.hub.journal := by
  obtain ⟨hub, frame, rest, hub', frames, rfl, h, rfl⟩ := step_eq_stepped.mp hs
  rcases hm.delivers_or_waits h with hdelivers | hwaits
  · cases hdelivers with
    | @intro index app number event lower hasCallback here offers =>
      have hhandovers := hub.handovers_deliverTo index app number event hasCallback
      exact absurd hhandovers (hnone _ _)
  · exact ⟨hwaits.throttle, hwaits.delays_eq⟩

/-- A delivery is late when its latency is large enough for a report. -/
theorem Timed.late_iff {app : App σ} {event : Event} {instant : Nat}
    (h : m.Timed next load serial app event instant) (hover : m.HandsOver next load serial) :
    m.Late next ↔ m.hub.config.latencyWarnMillis ≤ m.hub.latencyOf event := by
  rw [UInt32.le_iff_toNat_le, h.latency]
  constructor
  · rintro ⟨load', serial', other, hover', hsince, hlate⟩
    have hcall : (load', serial') = (load, serial) := (List.cons.inj (hover'.symm.trans hover)).1
    cases hcall
    rw [h.unique other hsince] at hlate
    exact hlate
  · intro hlate
    exact ⟨load, serial, instant, hover, h.since, hlate⟩

theorem Reachable.throttle_late (hm : m.Reachable) (move : Move m next) (hlate : m.Late next) :
    next.hub.latencyThrottle = (m.hub.latencyThrottle.allow m.hub.now).2 := by
  obtain ⟨load, serial, since, hover, hlong⟩ := hlate
  cases move with
  | step hs =>
    obtain ⟨app, event, instant, htimed⟩ := hm.timed hs hover
    have hlarge := (htimed.late_iff hover).mp ⟨load, serial, since, hover, hlong⟩
    rw [htimed.throttle, if_pos hlarge]
  | interrupt routine => exact absurd hover.symm (List.cons_ne_self _ _)

theorem Reachable.throttle_prompt (hm : m.Reachable) (move : Move m next)
    (hprompt : ¬m.Late next) : next.hub.latencyThrottle = m.hub.latencyThrottle := by
  cases move with
  | step hs =>
    by_cases hover : ∃ load serial, m.HandsOver next load serial
    · obtain ⟨load, serial, hover⟩ := hover
      obtain ⟨app, event, instant, htimed⟩ := hm.timed hs hover
      have hsmall := mt (htimed.late_iff hover).mpr hprompt
      rw [htimed.throttle, if_neg hsmall]
    · apply (hm.untimed hs _).1
      intro load serial h
      exact hover ⟨load, serial, h⟩
  | interrupt routine => rfl

theorem Reachable.config_move (hm : m.Reachable) (move : Move m next) :
    next.hub.config = m.hub.config := by
  cases move with
  | step hs =>
    obtain ⟨hub, frame, rest, hub', frames, rfl, h, rfl⟩ := step_eq_stepped.mp hs
    rcases hm.delivers_or_waits h with hdelivers | hwaits
    · cases hdelivers with
      | @intro index app number event lower hasCallback here offers =>
        obtain ⟨stopping, -, -, -, hconfig, -⟩ :=
          hub.deliverTo_eq index app number event hasCallback
        exact hconfig
    · exact hwaits.config
  | interrupt routine => rfl

/-- The throttle has taken a hit at each late delivery so far. -/
theorem Lags.throttle (hs : start.IsStart) (h : start.Lags late m) :
    m.hub.config = start.hub.config ∧ m.hub.latencyThrottle =
      (Throttle.new start.hub.config.throttleInterval start.hub.config.throttleCount).after
        late := by
  induction h with
  | refl =>
    obtain ⟨config, collaborators, memory, now, routine, sound, rfl⟩ := isStart_iff.mp hs
    exact ⟨rfl, rfl⟩
  | prompt run move hprompt ih =>
    obtain ⟨hconfig, hthrottle⟩ := ih
    have hm : Reachable _ := ⟨start, hs, run.reaches⟩
    exact ⟨(hm.config_move move).trans hconfig, (hm.throttle_prompt move hprompt).trans hthrottle⟩
  | late run move hlate ih =>
    obtain ⟨hconfig, hthrottle⟩ := ih
    have hm : Reachable _ := ⟨start, hs, run.reaches⟩
    refine ⟨(hm.config_move move).trans hconfig, ?_⟩
    rw [Throttle.after_concat, ← hthrottle]
    exact hm.throttle_late move hlate

/-- Every run has its late deliveries, and its throttle has taken a hit at each of them. Whenever an
event is handed over to an app, the latency is the time in milliseconds since the event was
admitted, up to 65536; it is reported before the app handles the event if and only if it is large
enough and the throttle allows a hit at that instant. A delivery that is not late leaves the
throttle as it is. Where nothing is handed over, no delay is reported and no hit is taken. -/
theorem delays_reported (hs : start.IsStart) :
    (∀ m, start.Reaches m → ∃ late, start.Lags late m) ∧
    ∀ late m next, start.Lags late m → m.step = .stepped next →
      m.hub.config = start.hub.config ∧
      m.hub.latencyThrottle =
        (Throttle.new start.hub.config.throttleInterval start.hub.config.throttleCount).after late ∧
      (∀ load serial, m.HandsOver next load serial →
        ∃ app event instant, m.Timed next load serial app event instant) ∧
      ((∀ load serial, ¬m.HandsOver next load serial) →
        next.hub.latencyThrottle = m.hub.latencyThrottle ∧
          delays next.hub.journal = delays m.hub.journal) := by
  refine ⟨fun m hr => hr.lags, ?_⟩
  intro late m next run hstep
  have hm : m.Reachable := ⟨start, hs, run.reaches⟩
  obtain ⟨hconfig, hthrottle⟩ := run.throttle hs
  exact ⟨hconfig, hthrottle, fun load serial hover => hm.timed hstep hover, hm.untimed hstep⟩

/-- Loads two apps that are registered for an event, posts the event and lets it wait for more than
65 seconds before the loop goes on. -/
def tardyEvent : Routine Unit .loop .nothing :=
  .start (fickle 1) fun _ =>
  .start (fickle 2) fun _ =>
  .post (Event.new EventType.firstUser) none <|
  .pause (70 * Clock.second) <|
  .runUntilIdle fun _ =>
  .done ()

/-- The event is about to be handed over to the second app. -/
def tardyDelivery : Machine Unit :=
  ((plain tardyEvent).advance 50).1

/-- Both apps receive the event 70 seconds after its admission, of which the stamps tell 4464
milliseconds. The throttle has already taken a hit for the first one. -/
theorem delays_reported_tardyEvent :
    ∃ late app event,
      (plain tardyEvent).Lags late tardyDelivery ∧
      tardyDelivery.hub.latencyThrottle =
        (Throttle.new Config.default.throttleInterval Config.default.throttleCount).after late ∧
      tardyDelivery.hub.latencyThrottle.count = 1 ∧
      tardyDelivery.Timed ((plain tardyEvent).advance 51).1 2 (some 2) app event 0 ∧
      (tardyDelivery.hub.latencyOf event).toNat = 4464 ∧
      delays ((plain tardyEvent).advance 51).1.hub.journal =
        [.logged (.delayed EventType.firstUser systemId 2 4464),
          .logged (.delayed EventType.firstUser systemId 1 4464)] := by
  have hr : (plain tardyEvent).Reaches tardyDelivery := reaches_unfinished (by decide +kernel)
  have hstep : tardyDelivery.step = .stepped ((plain tardyEvent).advance 51).1 :=
    step_advance (by decide +kernel)
  have hover : tardyDelivery.HandsOver ((plain tardyEvent).advance 51).1 2 (some 2) := by
    show handovers _ = _
    decide +kernel
  have hadmitted : .admitted 2 0 ∈ tardyDelivery.hub.journal := by decide +kernel
  have hwaited : Clock.millis tardyDelivery.hub.now = 70000 := by decide +kernel
  obtain ⟨hlags, htells⟩ := delays_reported (isStart_plain tardyEvent)
  obtain ⟨late, run⟩ := hlags tardyDelivery hr
  obtain ⟨-, hthrottle, htimed, -⟩ := htells late tardyDelivery _ run hstep
  obtain ⟨app, event, instant, hdelivery⟩ := htimed 2 (some 2) hover
  obtain rfl : 0 = instant := hdelivery.unique 0 hadmitted
  refine ⟨late, app, event, run, hthrottle, by decide +kernel, hdelivery, ?_, by decide +kernel⟩
  rw [hdelivery.latency, hwaited]
  rfl

end Machine

end SensorHub
