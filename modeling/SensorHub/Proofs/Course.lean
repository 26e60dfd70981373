import SensorHub.Proofs.Nesting

namespace SensorHub

variable {σ : Type}

def LogRecord.isDelay : LogRecord → Bool
  | .delayed _ _ _ _ => true
  | _ => false

/-- The incident hands no event to an app, reports no late delivery and does nothing to the wakeup
counters; an admission is one at the instant `now`. -/
def Incident.isMinor (now : Nat) : Incident → Bool
  | .logged report => !report.isDelay
  | .admitted _ instant => instant == now
  | .entered _ _ (.event _) _ | .loaded _ _ | .rolled _ | .blamed _ => false
  | _ => true

namespace Pool

variable {α : Type}

theorem isDelay_pushSlots (block count slot : Nat) (p : Pool α) :
    ∀ report ∈ (pushSlots block count slot p).2, report.isDelay = false := by
  induction count generalizing slot p with
  | zero => simp [pushSlots]
  | succ count ih =>
    rw [pushSlots]
    split
    next => simp [LogRecord.isDelay]
    next => exact ih _ _

theorem isDelay_refill (budget : Nat) (p : Pool α) :
    ∀ report ∈ (refill budget p).2, report.isDelay = false := by
  induction budget generalizing p with
  | zero => simp [refill]
  | succ budget ih =>
    intro report hreport
    rw [refill] at hreport
    split at hreport
    next =>
      rcases List.mem_append.mp hreport with hgrown | hlater
      · rcases List.mem_append.mp hgrown with hpushed | hgrew
        · exact isDelay_pushSlots _ _ _ _ report hpushed
        · rw [List.mem_singleton.mp hgrew]
          rfl
      · exact ih _ report hlater
    next => cases hreport

theorem isDelay_allocate (p : Pool α) (item : α) :
    ∀ report ∈ (p.allocate item).2.2, report.isDelay = false := by
  intro report hreport
  unfold allocate at hreport
  dsimp only at hreport
  split at hreport
  next => exact isDelay_refill _ _ report hreport
  next =>
    rcases List.mem_append.mp hreport with hrefill | hfill
    · exact isDelay_refill _ _ report hrefill
    · unfold fill at hfill
      split at hfill
      next => cases hfill
      next =>
        rw [List.mem_singleton.mp hfill]
        rfl

theorem isDelay_release (p : Pool α) (h : Handle) :
    ∀ report ∈ (p.release h).2, report.isDelay = false := by
  unfold release
  dsimp only
  split
  next => split <;> simp [LogRecord.isDelay]
  next => simp [LogRecord.isDelay]

end Pool

/-- What goes on in a hub besides its events, and what has happened in it. -/
structure Course (σ : Type) where
  config : Config
  apps : List (App σ)
  peakUsage : Peak UInt64
  undelivered : UInt32
  latencyThrottle : Throttle
  lastRoll : Nat
  loads : Nat
  now : Nat
  journal : List Incident

namespace Course

variable {c c₁ c' : Course σ} {incident : Incident}

/-- Nothing has changed, and what has happened is minor. -/
def Passes (c c' : Course σ) : Prop :=
  ∃ news, c' = { c with journal := news ++ c.journal } ∧
    ∀ incident ∈ news, incident.isMinor c.now = true

namespace Passes

theorem refl (c : Course σ) : c.Passes c :=
  ⟨[], rfl, by simp⟩

theorem trans (h : c.Passes c₁) (h' : c₁.Passes c') : c.Passes c' := by
  obtain ⟨news, rfl, minor⟩ := h
  obtain ⟨later, rfl, minor'⟩ := h'
  refine ⟨later ++ news, ?_, ?_⟩
  · rw [List.append_assoc]
  · intro incident hmem
    rcases List.mem_append.mp hmem with hmem | hmem
    · exact minor' incident hmem
    · exact minor incident hmem

theorem note (h : c.Passes c') (minor : incident.isMinor c.now = true) :
    c.Passes { c' with journal := incident :: c'.journal } := by
  obtain ⟨news, rfl, hnews⟩ := h
  exact ⟨incident :: news, rfl, List.forall_mem_cons.mpr ⟨minor, hnews⟩⟩

theorem now_eq (h : c.Passes c') : c'.now = c.now := by
  obtain ⟨news, rfl, -⟩ := h
  rfl

end Passes

end Course

namespace Hub

variable {hub hub' : Hub σ} {posting : Posting σ} {frames : List (Frame σ)}

def course (hub : Hub σ) : Course σ where
  config := hub.config
  apps := hub.apps
  peakUsage := hub.peakUsage
  undelivered := hub.undelivered
  latencyThrottle := hub.latencyThrottle
  lastRoll := hub.lastRoll
  loads := hub.loads
  now := hub.now
  journal := hub.journal

theorem passes_record (hub : Hub σ) {incident : Incident}
    (minor : incident.isMinor hub.now = true) :
    hub.course.Passes (hub.record incident).course :=
  (Course.Passes.refl hub.course).note minor

theorem passes_logAll (hub : Hub σ) {reports : List LogRecord}
    (prompt : ∀ report ∈ reports, report.isDelay = false) :
    hub.course.Passes (hub.logAll reports).course := by
  induction reports generalizing hub with
  | nil => exact .refl _
  | cons report reports ih =>
    obtain ⟨hfirst, hrest⟩ := List.forall_mem_cons.mp prompt
    have hlog : hub.course.Passes (hub.log report).course := by
      apply passes_record
      simp [Incident.isMinor, hfirst]
    exact hlog.trans (ih (hub.log report) hrest)

theorem passes_enqueue (hub : Hub σ) (posting : Posting σ) :
    hub.course.Passes (hub.enqueue posting).2.course := by
  unfold enqueue
  dsimp only
  generalize hallocate : hub.pool.allocate _ = allocated
  have hlogged : hub.course.Passes
      (({ hub with pool := allocated.2.1 } : Hub σ).logAll allocated.2.2).course := by
    apply passes_logAll
    rw [← hallocate]
    exact Pool.isDelay_allocate _ _
  split
  next =>
    apply hlogged.note
    have hnow := hlogged.now_eq
    exact beq_iff_eq.mpr hnow
  next => exact hlogged.note rfl

theorem passes_detach (hub : Hub σ) (posting : Posting σ) :
    hub.course.Passes (hub.detach posting).1.course := by
  unfold detach
  split
  next => exact .refl _
  next => exact passes_record hub rfl
  next => exact (passes_record hub rfl).note rfl

theorem passes_makeRoom (hub : Hub σ) : hub.course.Passes hub.makeRoom.2.course := by
  unfold makeRoom
  dsimp only
  split
  next => exact .refl _
  next =>
    split
    next => exact .refl _
    next => exact passes_record hub rfl
    next => exact .refl _

theorem passes_postRunning (h : hub.postRunning posting = .go hub' frames) :
    hub.course.Passes hub'.course := by
  have hroom := passes_makeRoom hub
  obtain ⟨evicted, hm, -⟩ := postRunning_go h
  rwa [hm] at hroom

theorem passes_postCritical (h : hub.postCritical posting = .go hub' frames) :
    hub.course.Passes hub'.course := by
  unfold postCritical at h
  split at h
  next => exact passes_postRunning h
  next =>
    cases h
    exact passes_detach hub posting

theorem passes_postDroppable (hub : Hub σ) (posting : Posting σ) :
    hub.course.Passes (hub.postDroppable posting).2.1.course := by
  unfold postDroppable
  dsimp only
  split
  next => exact passes_detach hub posting
  next =>
    split
    next => exact (passes_record hub rfl).trans (passes_detach _ posting)
    next =>
      have henqueue := passes_enqueue hub posting
      split
      next hqueued =>
        rw [hqueued] at henqueue
        exact henqueue
      next hub₁ hfull =>
        rw [hfull] at henqueue
        have hdropped : hub.course.Passes
            (({ hub₁ with dropped := hub₁.dropped + 1 }.record (.dropped posting.serial)).log
              (.dropped posting.event.type posting.event.target)).course :=
          (henqueue.note rfl).note rfl
        exact hdropped.trans (passes_detach _ posting)

theorem passes_offer (hub : Hub σ) (way : Way) (event : Event) (completion : Completion σ) :
    hub.course.Passes (hub.offer way event completion).2.course :=
  passes_record hub rfl

theorem passes_request {work : SystemWork σ} (h : (hub.request work).2 = .go hub' frames) :
    hub.course.Passes hub'.course := by
  have hoffer := hub.passes_offer (wayOf work) (.system work.kind) (.work work)
  unfold request at h
  dsimp only at h
  split at h
  next => exact hoffer.trans (passes_postRunning h)
  next =>
    cases h
    exact hoffer.note rfl

theorem passes_announce {type : UInt16} {load : Nat} {info : Info}
    (h : hub.announce type load info = .go hub' frames) : hub.course.Passes hub'.course :=
  ((hub.passes_offer .critical (.status type info) .nothing).note rfl).trans (passes_postCritical h)

theorem passes_vacate (hub : Hub σ) (handle : Handle) :
    hub.course.Passes (hub.vacate handle).course :=
  passes_logAll ({ hub with pool := (hub.pool.release handle).1 } : Hub σ)
    (hub.pool.isDelay_release handle)

theorem passes_pop {handle : Handle} (h : hub.pop? = some (handle, hub')) :
    hub.course.Passes hub'.course := by
  obtain ⟨queue, -, rfl⟩ := pop?_eq_some h
  exact passes_record _ rfl

end Hub

/-- The code is about to ask for a roll of the counters. -/
def Routine.checksPeriod {r : Reach} {a : Answer} : Routine σ r a → Bool
  | .rollWakeups _ => true
  | _ => false

theorem Actor.place?_eq {a : Answer} (actor : Actor σ .app a) :
    actor.place? = some actor.index := by
  cases actor <;> rfl

namespace Frame

variable {hub hub' : Hub σ} {frame : Frame σ} {frames : List (Frame σ)}

/-- The frame is about to look whether a period is over: for a dispatch cycle, or because code that
holds the loop asks for it. -/
def checksPeriod : Frame σ → Bool
  | .turn _ => true
  | .code _ routine => routine.checksPeriod
  | _ => false

/-- The frame can hand over the event: one that was queued under its number, or one past the queue,
which bears the stamp of the moment. -/
inductive Offers (hub : Hub σ) : Frame σ → Option Nat → Event → Prop
  | queued {posting index reached} :
      Offers hub (.distribute posting index reached) (some posting.serial) posting.event
  | direct {r a} {actor : Actor σ r a} {routine event}
      (stamped : event.stamp = Clock.stamp hub.now) : Offers hub (.code actor routine) none event

/-- The step hands an event over to an app, whose code for events is to run next. -/
inductive Delivers (hub : Hub σ) (frame : Frame σ) : Hub σ → List (Frame σ) → Prop
  | intro {index app serial event lower} (hasCallback : Bool) (here : hub.apps[index]? = some app)
      (offers : frame.Offers hub serial event) :
      Delivers hub frame (hub.deliverTo index app serial event hasCallback).1
        ((hub.deliverTo index app serial event hasCallback).2 ++ lower)

/-- An edit that another step makes to the course of the hub. -/
inductive Edits (hub : Hub σ) (frame : Frame σ) : Course σ → Prop
  | keep : Edits hub frame hub.course
  | elapse (nanoseconds : Nat) : Edits hub frame (hub.elapse nanoseconds).course
  | sample : Edits hub frame hub.sampleUsage.course
  | miss (event : Event) : Edits hub frame (hub.countUndelivered event).course
  | tune (index : Nat) (registrations : Registrations) : Edits hub frame
      (hub.alterApp index fun n => { n with registrations := registrations }).course
  | count (index : Nat) : Edits hub frame (hub.alterApp index Nanoapp.countEvent).course
  | blame {index : Nat} (placed : index < hub.apps.length) : Edits hub frame
      ((hub.alterApp index Nanoapp.blame).record (.blamed (hub.loadAt index))).course
  | enroll {hub₁ : Hub σ} (passes : hub.course.Passes hub₁.course) (app : App σ) (id : UInt16) :
      Edits hub frame (hub₁.enroll app id (.new hub₁.config.wakeupBuckets.toNat)).2.course
  | erase (index load : Nat) (id : UInt16) : Edits hub frame (hub.erase index load id).course
  | roll (checks : frame.checksPeriod = true) : Edits hub frame hub.rollWakeups.course

/-- One edit is made, and then nothing but minor incidents happen; or an event is handed over. -/
def Proceeds (hub : Hub σ) (frame : Frame σ) (hub' : Hub σ) (frames : List (Frame σ)) : Prop :=
  (∃ c, frame.Edits hub c ∧ c.Passes hub'.course) ∨ frame.Delivers hub hub' frames

theorem Edits.proceeds {c : Course σ} (h : frame.Edits hub c) (same : hub'.course = c) :
    frame.Proceeds hub hub' frames := by
  subst same
  exact .inl ⟨_, h, .refl _⟩

theorem proceeds_of_passes (h : hub.course.Passes hub'.course) : frame.Proceeds hub hub' frames :=
  .inl ⟨_, .keep, h⟩

theorem proceeds_of_load {hub₁ : Hub σ} {app : App σ} {client : LoadClient σ}
    {upper : List (Frame σ)} (passes : hub.course.Passes hub₁.course)
    (h : hub₁.load app client = .go hub' upper) : frame.Proceeds hub hub' frames := by
  rcases Hub.load_cases h with ⟨reason, rfl, -⟩ | ⟨id, hub₂, -, -, rfl, rfl, -⟩
  · exact proceeds_of_passes (passes.note rfl)
  · have hnext : hub.course.Passes ({ hub₁ with nextId := id + 1 } : Hub σ).course := passes
    exact .inl ⟨_, .enroll hnext app id, (Course.Passes.refl _).note rfl⟩

theorem code_proceeds {r : Reach} {a : Answer} {actor : Actor σ r a} {routine : Routine σ r a}
    (placed : ∀ i, actor.place? = some i → i < hub.apps.length)
    (h : routine.step hub actor = .go hub' frames) :
    (Frame.code actor routine).Proceeds hub hub' frames := by
  cases routine with
  | «recall» | store | observe | inspect =>
    cases h
    exact Edits.keep.proceeds rfl
  | note line next =>
    cases h
    exact proceeds_of_passes (hub.passes_record rfl)
  | pause nanoseconds next =>
    cases h
    exact (Edits.elapse nanoseconds).proceeds rfl
  | post event free next =>
    obtain ⟨upper, hgo, -⟩ := Effect.above_eq_go.mp h
    exact proceeds_of_passes ((hub.passes_offer ..).trans (Hub.passes_postCritical hgo))
  | postLow event free next =>
    cases h
    exact proceeds_of_passes ((hub.passes_offer ..).trans (Hub.passes_postDroppable ..))
  | request work next =>
    obtain ⟨upper, hgo, -⟩ := Effect.above_eq_go.mp h
    exact proceeds_of_passes (Hub.passes_request hgo)
  | lookInward next =>
    simp only [Routine.step] at h
    split at h <;> cases h <;> exact Edits.keep.proceeds rfl
  | send event free next =>
    simp only [Routine.step] at h
    split at h
    next =>
      cases h
      exact Edits.keep.proceeds rfl
    next =>
      cases h
      exact proceeds_of_passes ((hub.passes_offer ..).trans (Hub.passes_postDroppable ..))
  | register | unregister =>
    simp only [Routine.step] at h
    split at h
    next =>
      cases h
      exact Edits.keep.proceeds rfl
    next =>
      cases h
      exact (Edits.tune actor.index _).proceeds rfl
  | blame next =>
    cases h
    exact (Edits.blame (placed actor.index actor.place?_eq)).proceeds rfl
  | start app next =>
    cases actor
    exact proceeds_of_load (.refl _) h
  | unload instanceId force next =>
    cases actor
    simp only [Routine.step] at h
    rcases Hub.unload_cases hub instanceId force true with
      ⟨-, hu⟩ | ⟨-, hu⟩ | ⟨app, -, -, hu⟩
    · rw [hu] at h
      cases h
      exact proceeds_of_passes (hub.passes_record rfl)
    · rw [hu] at h
      cases h
      exact proceeds_of_passes (hub.passes_record rfl)
    · rw [hu] at h
      cases h
      exact Edits.keep.proceeds rfl
  | runUntilIdle =>
    cases actor
    cases h
    exact Edits.keep.proceeds rfl
  | run =>
    cases actor
    cases h
    exact proceeds_of_passes (hub.passes_record rfl)
  | deliver instanceId type payload next =>
    cases actor
    simp only [Routine.step] at h
    rcases Hub.deliverDirect_cases hub instanceId type payload with
      hd | ⟨index, app, event, -, ha, hstamp, hd⟩
    · rw [hd] at h
      cases h
      exact Edits.keep.proceeds rfl
    · rw [hd] at h
      cases h
      exact .inr (.intro false ha (.direct hstamp))
  | rollWakeups =>
    cases actor
    cases h
    exact (Edits.roll rfl).proceeds rfl
  | freeMessage appId closure next =>
    cases actor
    simp only [Routine.step] at h
    rcases Hub.freeMessage_cases hub appId closure with hm | ⟨instanceId, -, hm⟩
    · rw [hm] at h
      cases h
      exact proceeds_of_passes (hub.passes_record rfl)
    · rw [hm] at h
      cases h
      exact Edits.keep.proceeds rfl
  | done value =>
    cases actor with
    | loop | handle =>
      cases h
      exact Edits.keep.proceeds rfl
    | entry =>
      cases h
      exact proceeds_of_passes (hub.passes_record rfl)
    | release kind info =>
      cases h
      split
      next => exact Edits.keep.proceeds rfl
      next => exact proceeds_of_passes (hub.passes_record rfl)
    | start index stopping client =>
      have happ := List.getElem?_eq_getElem (placed index rfl)
      have hleft : ∀ (load : Nat) {report : LogRecord}, report.isDelay = false →
          hub.course.Passes
            (((hub.setCurrent none).record (.left load .start)).log report).course := by
        intro load report prompt
        have hended : hub.course.Passes (hub.record (.left load .start)).course :=
          hub.passes_record rfl
        apply hended.note
        simp [Incident.isMinor, prompt]
      rcases Hub.finishStart_cases happ h with ⟨-, upper, hgo, -⟩ | ⟨-, other, -, -, rfl, -⟩
      · exact proceeds_of_passes ((hleft _ rfl).trans (Hub.passes_announce hgo))
      · exact proceeds_of_passes (hleft _ rfl)

theorem step_proceeds (placed : ∀ i, frame.index? = some i → i < hub.apps.length)
    (h : frame.step hub = .go hub' frames) : frame.Proceeds hub hub' frames := by
  cases frame with
  | code actor routine => exact code_proceeds placed h
  | evict handles =>
    cases handles with
    | nil =>
      cases h
      exact Edits.keep.proceeds rfl
    | cons handle left =>
      rcases Hub.releaseEvicted_cases hub handle with ⟨posting, -, hr⟩ | ⟨-, hr⟩
      · simp only [step, hr] at h
        cases h
        have hevicted : hub.course.Passes
            ((hub.take handle).2.record (.evicted posting.serial)).course := hub.passes_record rfl
        exact proceeds_of_passes (hevicted.trans (Hub.passes_detach ..))
      · simp only [step, hr] at h
        cases h
        exact Edits.keep.proceeds rfl
  | vacate handle =>
    cases h
    exact proceeds_of_passes (hub.passes_vacate handle)
  | enqueue posting =>
    have henqueue := hub.passes_enqueue posting
    simp only [step] at h
    split at h
    next hub₁ he =>
      cases h
      rw [he] at henqueue
      exact proceeds_of_passes henqueue
    next => cases h
  | dispatch handle =>
    rcases Hub.dispatch_cases h with ⟨posting, -, rfl, -⟩ | ⟨-, rfl, -⟩
    · exact proceeds_of_passes (hub.passes_record rfl)
    · exact proceeds_of_passes (hub.passes_record rfl)
  | discard handle =>
    obtain ⟨rfl, -⟩ := Hub.discard_cases h
    exact Edits.keep.proceeds rfl
  | distribute posting index reached =>
    rcases Hub.offerTo_cases h with
      ⟨app, ha, -, rfl, rfl⟩ | ⟨app, -, -, rfl, -⟩ | ⟨-, hcount, -⟩
    · exact .inr (.intro posting.completion.hasCallback ha .queued)
    · exact Edits.keep.proceeds rfl
    · rcases hcount with rfl | rfl
      · exact Edits.keep.proceeds rfl
      · exact (Edits.miss posting.event).proceeds rfl
  | delivered index =>
    cases h
    exact (Edits.count index).proceeds rfl
  | complete posting =>
    rcases Hub.complete_cases h with
      ⟨-, rfl, -⟩ | ⟨callback, instanceId, -, rfl, -⟩ | ⟨work, -, hw⟩
    · exact Edits.keep.proceeds rfl
    · exact proceeds_of_passes (hub.passes_record rfl)
    · have hworked : hub.course.Passes (hub.record (.worked posting.serial)).course :=
        hub.passes_record rfl
      rcases Hub.perform_cases hw with
        ⟨-, rfl, -⟩ | ⟨app, -, -, hl⟩ | ⟨app, -, -, rfl, -⟩ |
        ⟨instanceId, force, app, -, -, -, rfl, -⟩ |
        ⟨instanceId, force, report, reason, -, hreport, rfl, -⟩ | ⟨kind, routine, -, rfl, -⟩
      · exact proceeds_of_passes ((hworked.note rfl).note rfl)
      · exact proceeds_of_load hworked hl
      · exact proceeds_of_passes (hworked.note rfl)
      · exact proceeds_of_passes hworked
      · rcases hreport with rfl | rfl
        · exact proceeds_of_passes ((hworked.note rfl).note rfl)
        · exact proceeds_of_passes ((hworked.note rfl).note rfl)
      · exact proceeds_of_passes hworked
  | answer client result =>
    cases client with
    | routine actor next =>
      cases h
      exact Edits.keep.proceeds rfl
    | request appId =>
      cases result with
      | ok =>
        cases h
        exact Edits.keep.proceeds rfl
      | error =>
        cases h
        exact proceeds_of_passes (hub.passes_record rfl)
  | settle info started previous =>
    rcases Hub.settleUnload_cases h with
      ⟨-, rfl, -⟩ | ⟨index, -, ⟨-, upper, hgo, -⟩ | ⟨-, rfl, -⟩⟩
    · exact proceeds_of_passes (hub.passes_record rfl)
    · exact proceeds_of_passes (Hub.passes_announce hgo)
    · exact Edits.keep.proceeds rfl
  | remove index started =>
    rcases Hub.removeAt_cases h with
      ⟨-, rfl, -⟩ | ⟨app, -, ⟨-, rfl, -⟩ | ⟨-, rfl, -⟩⟩
    · exact Edits.keep.proceeds rfl
    · exact proceeds_of_passes (hub.passes_record rfl)
    · exact Edits.keep.proceeds rfl
  | release load info managers =>
    cases managers with
    | nil =>
      cases h
      exact Edits.keep.proceeds rfl
    | cons =>
      cases h
      exact proceeds_of_passes (hub.passes_record rfl)
  | erase index load info =>
    cases h
    exact (Edits.erase index load info.instanceId).proceeds rfl
  | flush | drain | await | idle =>
    obtain ⟨hub₁, hsample, ⟨rfl, -⟩ | ⟨handle, hp, -⟩⟩ := takes_cases rfl h
    · rcases hsample with rfl | rfl
      · exact Edits.keep.proceeds rfl
      · exact Edits.sample.proceeds rfl
    · have hpop := Hub.passes_pop hp
      rcases hsample with rfl | rfl
      · exact proceeds_of_passes hpop
      · exact .inl ⟨_, .sample, hpop⟩
  | serve =>
    simp only [step] at h
    split at h
    next =>
      cases h
      exact Edits.sample.proceeds rfl
    next =>
      cases h
      exact Edits.keep.proceeds rfl
  | clear =>
    simp only [step] at h
    split at h <;> cases h <;> exact Edits.keep.proceeds rfl
  | mark info started =>
    cases started with
    | true | false =>
      cases h
      exact Edits.keep.proceeds rfl
  | turn handle =>
    cases h
    exact (Edits.roll rfl).proceeds rfl
  | unmark | exit =>
    cases h
    exact proceeds_of_passes (hub.passes_record rfl)
  | restore | cycle | endCycle =>
    cases h
    exact Edits.keep.proceeds rfl

end Frame

end SensorHub
