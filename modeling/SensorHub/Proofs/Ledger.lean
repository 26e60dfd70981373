import SensorHub.Proofs.InFlight

namespace SensorHub

variable {σ : Type}

namespace Incident

def offers? : Incident → Option Nat
  | .offered serial _ _ _ => some serial
  | _ => none

/-- The number of the event that is done: its callback or its work begins, or its work is thrown
away. -/
def closes? : Incident → Option Nat
  | .freed serial _ _ | .worked serial | .discarded serial => some serial
  | _ => none

def enters? : Incident → Option Nat
  | .entered _ _ point _ => point.serial?
  | _ => none

def leaves? : Incident → Option Nat
  | .left _ point => point.serial?
  | _ => none

def isIdle (i : Incident) : Bool :=
  i.offers?.isNone && i.closes?.isNone && i.enters?.isNone && i.leaves?.isNone

theorem isIdle_of_isQuiet {i : Incident} (h : i.isQuiet = true) : i.isIdle = true := by
  cases i with
  | entered load instanceId point stopping | left load point =>
    simpa [isQuiet, isIdle, offers?, closes?, enters?, leaves?] using h
  | offered | freed | worked | discarded => cases h
  | _ => rfl

end Incident

namespace Way

def isWork : Way → Bool
  | .system | .stop => true
  | _ => false

end Way

/-- How often the journal names an event by `name`. -/
def tally (name : Incident → Option Nat) (serial : Nat) (journal : List Incident) : Nat :=
  (journal.filterMap name).count serial

namespace Posting

def completed (posting : Posting σ) : List Incident :=
  match posting.completion with
  | .nothing => []
  | .free _ => [.freed posting.serial posting.event.type posting.event.payload]
  | .work _ => [.worked posting.serial]

/-- Something is to be done once the event is done. -/
def isDue (posting : Posting σ) : Bool :=
  match posting.completion with
  | .nothing => false
  | _ => true

end Posting

/-- The books of a hub at work. -/
structure Ledger (σ : Type) where
  /-- The number of the next event. -/
  next : Nat
  /-- The events that are not distributed or drained yet. -/
  pending : List (Posting σ)
  /-- The events that are distributed or drained. -/
  out : List (Posting σ)
  /-- The numbers of the events that apps are handling. -/
  active : List Nat
  journal : List Incident

namespace Ledger

/-- A change of the books. -/
inductive Move : Ledger σ → Ledger σ → Prop
  | shuffle {n pending pending' out out' active active' journal}
      (hp : List.Perm (α := Posting σ) pending pending')
      (ho : List.Perm (α := Posting σ) out out') (ha : List.Perm active active') :
      Move ⟨n, pending, out, active, journal⟩ ⟨n, pending', out', active', journal⟩
  | note {n} {pending out : List (Posting σ)} {active journal incident}
      (h : incident.isIdle = true) :
      Move ⟨n, pending, out, active, journal⟩ ⟨n, pending, out, active, incident :: journal⟩
  | offer {n pending out active journal way event} {completion : Completion σ}
      (kind : Hub.Matches way event completion) :
      Move ⟨n, pending, out, active, journal⟩
        ⟨n + 1, ⟨n, event, completion⟩ :: pending, out, active,
          .offered n way event completion.hasCallback :: journal⟩
  /-- Work is handed over and thrown away. -/
  | refuse {n pending out active journal way event} {work : SystemWork σ}
      (kind : Hub.Matches way event (.work work)) :
      Move ⟨n, pending, out, active, journal⟩
        ⟨n + 1, pending, out, active, .discarded n :: .offered n way event false :: journal⟩
  | stamp {n pending out active journal} {p : Posting σ} {now : Nat} :
      Move ⟨n, p :: pending, out, active, journal⟩
        ⟨n, p.stamped now :: pending, out, active, journal⟩
  | fetch {n pending out active journal} {p : Posting σ} :
      Move ⟨n, p :: pending, out, active, journal⟩ ⟨n, pending, p :: out, active, journal⟩
  | enter {n pending out active journal} {p : Posting σ} {load instanceId stopping}
      (mem : p ∈ out) :
      Move ⟨n, pending, out, active, journal⟩
        ⟨n, pending, out, p.serial :: active,
          .entered load instanceId (.event (some p.serial)) stopping :: journal⟩
  | leave {n} {pending out : List (Posting σ)} {serial active journal load} :
      Move ⟨n, pending, out, serial :: active, journal⟩
        ⟨n, pending, out, active, .left load (.event (some serial)) :: journal⟩
  | complete {n pending out journal} {p : Posting σ} :
      Move ⟨n, pending, p :: out, [], journal⟩ ⟨n, pending, out, [], p.completed ++ journal⟩
  /-- An event that reaches no app is released; it carries no work. -/
  | release {n pending out active journal} {p : Posting σ}
      (plain : ∀ work, p.completion ≠ .work work) :
      Move ⟨n, p :: pending, out, active, journal⟩
        ⟨n, pending, out, active, p.completed ++ journal⟩

/-- The event is one that was handed over, as it was handed over. -/
def Vouched (journal : List Incident) (p : Posting σ) : Prop :=
  ∃ way event, .offered p.serial way event p.completion.hasCallback ∈ journal ∧
    Hub.Matches way event p.completion ∧ p.event = { event with stamp := p.event.stamp }

/-- Before an event is done all handling of it has ended, and none begins later. -/
def Orderly : List Incident → Prop
  | [] => True
  | incident :: earlier =>
    (∀ serial, incident.closes? = some serial →
      tally Incident.enters? serial earlier = tally Incident.leaves? serial earlier) ∧
    (∀ serial, incident.enters? = some serial ∨ incident.leaves? = some serial →
      tally Incident.closes? serial earlier = 0) ∧
    Orderly earlier

def owned (l : Ledger σ) : List Nat :=
  (l.pending ++ l.out).map Posting.serial

/-- The books are balanced. -/
structure Balanced (l : Ledger σ) : Prop where
  /-- Numbers are used once, in their order. -/
  numbered : ∀ serial,
    tally Incident.offers? serial l.journal = if serial < l.next then 1 else 0
  bounded : ∀ serial, l.next ≤ serial → tally Incident.enters? serial l.journal = 0 ∧
    tally Incident.closes? serial l.journal = 0
  distinct : l.owned.Nodup
  vouched : ∀ p ∈ l.pending ++ l.out, Vouched l.journal p
  unclosed : ∀ serial ∈ l.owned, tally Incident.closes? serial l.journal = 0
  /-- What is due is owned or was done once. -/
  due : ∀ serial way event hasCallback,
    .offered serial way event hasCallback ∈ l.journal → (hasCallback || way.isWork) = true →
      serial ∈ l.owned ∨ tally Incident.closes? serial l.journal = 1
  /-- A callback begins with what was handed over. -/
  freed : ∀ serial type payload, .freed serial type payload ∈ l.journal →
    ∃ way event, .offered serial way event true ∈ l.journal ∧ type = event.type ∧
      payload = event.payload
  /-- Work begins or is thrown away only where work was handed over. -/
  worked : ∀ incident ∈ l.journal, ∀ serial, incident.closes? = some serial →
    (∀ type payload, incident ≠ .freed serial type payload) →
      ∃ way event, .offered serial way event false ∈ l.journal
  handled : ∀ serial, tally Incident.enters? serial l.journal =
    tally Incident.leaves? serial l.journal + l.active.count serial
  /-- What is not distributed yet was never handled. -/
  fresh : ∀ p ∈ l.pending, tally Incident.enters? p.serial l.journal = 0
  held : ∀ serial ∈ l.active, serial ∈ l.out.map Posting.serial
  orderly : Orderly l.journal

theorem tally_cons (name : Incident → Option Nat) (serial : Nat) (incident : Incident)
    (journal : List Incident) :
    tally name serial (incident :: journal) =
      tally name serial journal + if name incident = some serial then 1 else 0 := by
  unfold tally
  cases h : name incident with
  | none => simp [h]
  | some other =>
    rw [List.filterMap_cons_some h, List.count_cons]
    by_cases he : other = serial <;> simp [he]

theorem tally_skip {name : Incident → Option Nat} {incident : Incident} {serial : Nat}
    {journal : List Incident} (h : name incident = none) :
    tally name serial (incident :: journal) = tally name serial journal := by
  simp [tally_cons, h]

theorem offered_unique {serial : Nat} {journal : List Incident} {way way' : Way}
    {event event' : Event} {hasCallback hasCallback' : Bool}
    (once : tally Incident.offers? serial journal ≤ 1)
    (h : .offered serial way event hasCallback ∈ journal)
    (h' : .offered serial way' event' hasCallback' ∈ journal) :
    way = way' ∧ event = event' ∧ hasCallback = hasCallback' := by
  induction journal with
  | nil => cases h
  | cons incident journal ih =>
    rw [tally_cons] at once
    have later : ∀ {way event hasCallback}, .offered serial way event hasCallback ∈ journal →
        1 ≤ tally Incident.offers? serial journal := by
      intro way event hasCallback hm
      exact List.count_pos_iff.mpr (List.mem_filterMap.mpr ⟨_, hm, rfl⟩)
    rcases List.mem_cons.mp h with he | hm
    · rcases List.mem_cons.mp h' with he' | hm'
      · cases he.trans he'.symm
        exact ⟨rfl, rfl, rfl⟩
      · have := later hm'
        rw [← he] at once
        simp only [Incident.offers?, if_true] at once
        omega
    · rcases List.mem_cons.mp h' with he' | hm'
      · have := later hm
        rw [← he'] at once
        simp only [Incident.offers?, if_true] at once
        omega
      · exact ih (by omega) hm hm'

theorem Vouched.mono {journal journal' : List Incident} {p : Posting σ} (h : Vouched journal p)
    (hj : ∀ i ∈ journal, i ∈ journal') : Vouched journal' p := by
  obtain ⟨way, event, hm, rest⟩ := h
  exact ⟨way, event, hj _ hm, rest⟩

theorem isDue_of_matches {way : Way} {event : Event} {p : Posting σ}
    (h : Hub.Matches way event p.completion) :
    (p.completion.hasCallback || way.isWork) = p.isDue := by
  obtain ⟨serial, event', completion⟩ := p
  cases h with
  | critical event free | low free => cases free <;> rfl
  | work work => cases work <;> rfl

namespace Balanced

variable {l l' : Ledger σ}

theorem lt_next (hb : l.Balanced) {serial : Nat} (h : serial ∈ l.owned) : serial < l.next := by
  obtain ⟨p, hp, rfl⟩ := List.mem_map.mp h
  obtain ⟨way, event, hm, -⟩ := hb.vouched p hp
  have hpos : 0 < tally Incident.offers? p.serial l.journal :=
    List.count_pos_iff.mpr (List.mem_filterMap.mpr ⟨_, hm, rfl⟩)
  rw [hb.numbered] at hpos
  by_contra hge
  rw [if_neg hge] at hpos
  exact absurd hpos (Nat.lt_irrefl 0)

/-- All handling of an event that is not distributed yet has ended: there was none. -/
theorem ended_of_pending (hb : l.Balanced) {p : Posting σ} (hp : p ∈ l.pending) :
    tally Incident.enters? p.serial l.journal = tally Incident.leaves? p.serial l.journal := by
  have hfresh := hb.fresh p hp
  have hhandled := hb.handled p.serial
  omega

/-- Who owns an event, and in which form, does not matter to the books. -/
theorem regroup (hb : l.Balanced) (hnext : l'.next = l.next) (hjournal : l'.journal = l.journal)
    (howned : l.owned.Perm l'.owned) (hactive : l.active.Perm l'.active)
    (hvouched : ∀ p ∈ l'.pending ++ l'.out, Vouched l.journal p)
    (hpending : ∀ p ∈ l'.pending, p.serial ∈ l.pending.map Posting.serial)
    (hout : ∀ serial ∈ l.out.map Posting.serial, serial ∈ l'.out.map Posting.serial) :
    l'.Balanced where
  numbered := by
    rw [hjournal, hnext]
    exact hb.numbered
  bounded := by
    rw [hjournal, hnext]
    exact hb.bounded
  distinct := howned.nodup_iff.mp hb.distinct
  vouched := by
    rw [hjournal]
    exact hvouched
  unclosed := fun serial h => by
    rw [hjournal]
    exact hb.unclosed serial (howned.mem_iff.mpr h)
  due := fun serial way event hasCallback hm hdue => by
    rw [hjournal] at hm ⊢
    rw [← howned.mem_iff]
    exact hb.due serial way event hasCallback hm hdue
  freed := by
    rw [hjournal]
    exact hb.freed
  worked := by
    rw [hjournal]
    exact hb.worked
  handled := fun serial => by
    rw [hjournal, ← hactive.count_eq]
    exact hb.handled serial
  fresh := fun p hp => by
    obtain ⟨q, hq, hserial⟩ := List.mem_map.mp (hpending p hp)
    rw [hjournal, ← hserial]
    exact hb.fresh q hq
  held := fun serial h => hout serial (hb.held serial (hactive.mem_iff.mpr h))
  orderly := by
    rw [hjournal]
    exact hb.orderly

theorem vouched_cons (hb : l.Balanced) (incident : Incident) :
    ∀ p ∈ l.pending ++ l.out, Vouched (incident :: l.journal) p :=
  fun p hp => (hb.vouched p hp).mono fun _ hi => List.mem_cons_of_mem _ hi

theorem freed_cons (hb : l.Balanced) {incident : Incident} (h : incident.closes? = none) :
    ∀ serial type payload, .freed serial type payload ∈ incident :: l.journal →
      ∃ way event, .offered serial way event true ∈ incident :: l.journal ∧ type = event.type ∧
        payload = event.payload := by
  intro serial type payload hm
  rcases List.mem_cons.mp hm with rfl | hm
  · cases h
  · obtain ⟨way, event, ho, rest⟩ := hb.freed serial type payload hm
    exact ⟨way, event, List.mem_cons_of_mem _ ho, rest⟩

theorem worked_cons (hb : l.Balanced) {incident : Incident} (h : incident.closes? = none) :
    ∀ i ∈ incident :: l.journal, ∀ serial, i.closes? = some serial →
      (∀ type payload, i ≠ .freed serial type payload) →
        ∃ way event, .offered serial way event false ∈ incident :: l.journal := by
  intro i hm serial hc hf
  rcases List.mem_cons.mp hm with rfl | hm
  · rw [h] at hc
    cases hc
  · obtain ⟨way, event, ho⟩ := hb.worked i hm serial hc hf
    exact ⟨way, event, List.mem_cons_of_mem _ ho⟩

theorem due_cons (hb : l.Balanced) {incident : Incident} (hoffers : incident.offers? = none)
    (hcloses : incident.closes? = none) : ∀ serial way event hasCallback,
      .offered serial way event hasCallback ∈ incident :: l.journal →
        (hasCallback || way.isWork) = true →
          serial ∈ l.owned ∨ tally Incident.closes? serial (incident :: l.journal) = 1 := by
  intro serial way event hasCallback hm hdue
  rcases List.mem_cons.mp hm with rfl | hm
  · cases hoffers
  · rw [tally_skip hcloses]
    exact hb.due serial way event hasCallback hm hdue

theorem note (hb : l.Balanced) {incident : Incident} (h : incident.isIdle = true) :
    Balanced { l with journal := incident :: l.journal } := by
  simp only [Incident.isIdle, Bool.and_eq_true, Option.isNone_iff_eq_none] at h
  obtain ⟨⟨⟨hoffers, hcloses⟩, henters⟩, hleaves⟩ := h
  exact {
    numbered := fun serial => by
      rw [tally_skip hoffers]
      exact hb.numbered serial
    bounded := fun serial hle => by
      rw [tally_skip henters, tally_skip hcloses]
      exact hb.bounded serial hle
    distinct := hb.distinct
    vouched := hb.vouched_cons incident
    unclosed := fun serial hs => by
      rw [tally_skip hcloses]
      exact hb.unclosed serial hs
    due := hb.due_cons hoffers hcloses
    freed := hb.freed_cons hcloses
    worked := hb.worked_cons hcloses
    handled := fun serial => by
      rw [tally_skip henters, tally_skip hleaves]
      exact hb.handled serial
    fresh := fun p hp => by
      rw [tally_skip henters]
      exact hb.fresh p hp
    held := hb.held
    orderly := by
      refine ⟨fun serial hc => ?_, fun serial hc => ?_, hb.orderly⟩
      · rw [hcloses] at hc
        cases hc
      · rw [henters, hleaves] at hc
        rcases hc with hc | hc <;> cases hc }

theorem offer (hb : l.Balanced) {way : Way} {event : Event} {completion : Completion σ}
    (kind : Hub.Matches way event completion) :
    Balanced { l with
      next := l.next + 1
      pending := ⟨l.next, event, completion⟩ :: l.pending
      journal := .offered l.next way event completion.hasCallback :: l.journal } where
  numbered := fun serial => by
    rw [tally_cons, hb.numbered, Incident.offers?]
    simp only [Option.some.injEq]
    split <;> split <;> split <;> omega
  bounded := fun serial hle => by
    rw [tally_skip rfl, tally_skip rfl]
    exact hb.bounded serial (Nat.le_of_succ_le hle)
  distinct := by
    refine List.nodup_cons.mpr ⟨fun h => ?_, hb.distinct⟩
    exact absurd (hb.lt_next h) (Nat.lt_irrefl _)
  vouched := fun p hp => by
    rcases List.mem_cons.mp hp with rfl | hp
    · exact ⟨way, event, List.mem_cons_self .., kind, rfl⟩
    · exact hb.vouched_cons _ p hp
  unclosed := fun serial hs => by
    rw [tally_skip rfl]
    rcases List.mem_cons.mp hs with rfl | hs
    · exact (hb.bounded l.next (Nat.le_refl _)).2
    · exact hb.unclosed serial hs
  due := fun serial way' event' hasCallback hm hdue => by
    rw [tally_skip rfl]
    rcases List.mem_cons.mp hm with he | hm
    · cases he
      exact .inl (List.mem_cons_self ..)
    · rcases hb.due serial way' event' hasCallback hm hdue with ho | hc
      · exact .inl (List.mem_cons_of_mem _ ho)
      · exact .inr hc
  freed := hb.freed_cons rfl
  worked := hb.worked_cons rfl
  handled := fun serial => by
    rw [tally_skip rfl, tally_skip rfl]
    exact hb.handled serial
  fresh := fun p hp => by
    rw [tally_skip rfl]
    rcases List.mem_cons.mp hp with rfl | hp
    · exact (hb.bounded l.next (Nat.le_refl _)).1
    · exact hb.fresh p hp
  held := hb.held
  orderly := by
    refine ⟨fun serial hc => ?_, fun serial hc => ?_, hb.orderly⟩
    · cases hc
    · rcases hc with hc | hc <;> cases hc

end Balanced

/-- What is recorded when an event is done: nothing if nothing is due, otherwise that its callback
or its work begins, or that its work is thrown away. -/
inductive Closing (p : Posting σ) : List Incident → Prop
  | nothing (h : p.isDue = false) : Closing p []
  | free (h : p.completion.hasCallback = true) :
      Closing p [.freed p.serial p.event.type p.event.payload]
  | work {incident} (h : p.isDue = true) (hcb : p.completion.hasCallback = false) (hc : incident.closes? = some p.serial)
      (hf : ∀ serial type payload, incident ≠ .freed serial type payload) :
      Closing p [incident]

theorem closing_completed (p : Posting σ) : Closing p p.completed := by
  unfold Posting.completed
  split
  next h => exact .nothing (by simp [Posting.isDue, h])
  next h => exact .free (by simp [Completion.hasCallback, h])
  next h =>
    exact .work (by simp [Posting.isDue, h]) (by simp [Completion.hasCallback, h]) rfl (by simp)

namespace Closing

variable {p : Posting σ} {c journal : List Incident}

theorem closes (h : Closing p c) (serial : Nat) :
    tally Incident.closes? serial (c ++ journal) = tally Incident.closes? serial journal +
      if p.isDue = true ∧ p.serial = serial then 1 else 0 := by
  cases h with
  | nothing h => simp [h]
  | free h =>
    have hdue : p.isDue = true := by
      unfold Completion.hasCallback at h
      unfold Posting.isDue
      split at h <;> simp_all
    simp [tally_cons, Incident.closes?, hdue]
  | work h _ hc hf => simp [tally_cons, hc, h]

theorem others (h : Closing p c) {name : Incident → Option Nat}
    (hn : ∀ incident : Incident, incident.closes?.isSome = true → name incident = none)
    (serial : Nat) : tally name serial (c ++ journal) = tally name serial journal := by
  cases h with
  | nothing => rfl
  | free h =>
    have := hn (.freed p.serial p.event.type p.event.payload) rfl
    simp [tally_cons, this]
  | @work incident h _ hc hf =>
    have := hn incident (by simp [hc])
    simp [tally_cons, this]

theorem offers (h : Closing p c) (serial : Nat) :
    tally Incident.offers? serial (c ++ journal) = tally Incident.offers? serial journal :=
  h.others (fun i hi => by cases i <;> first | rfl | cases hi) serial

theorem enters (h : Closing p c) (serial : Nat) :
    tally Incident.enters? serial (c ++ journal) = tally Incident.enters? serial journal :=
  h.others (fun i hi => by cases i <;> first | rfl | cases hi) serial

theorem leaves (h : Closing p c) (serial : Nat) :
    tally Incident.leaves? serial (c ++ journal) = tally Incident.leaves? serial journal :=
  h.others (fun i hi => by cases i <;> first | rfl | cases hi) serial

theorem mem_offered (h : Closing p c) {serial : Nat} {way : Way} {event : Event}
    {hasCallback : Bool} (hm : .offered serial way event hasCallback ∈ c ++ journal) :
    .offered serial way event hasCallback ∈ journal := by
  rcases List.mem_append.mp hm with hm | hm
  · cases h with
    | nothing => cases hm
    | free => simp at hm
    | work h _ hc hf =>
      rw [← List.mem_singleton.mp hm] at hc
      cases hc
  · exact hm

theorem orderly (h : Closing p c) (ho : Orderly journal)
    (hended : tally Incident.enters? p.serial journal = tally Incident.leaves? p.serial journal) :
    Orderly (c ++ journal) := by
  have single : ∀ incident : Incident, incident.closes? = some p.serial →
      Orderly (incident :: journal) := by
    intro incident hc
    refine ⟨fun serial hs => ?_, fun serial hs => ?_, ho⟩
    · rw [hc] at hs
      cases hs
      exact hended
    · cases incident with
      | freed | worked | discarded => rcases hs with hs | hs <;> cases hs
      | _ => cases hc
  cases h with
  | nothing => exact ho
  | free => exact single _ rfl
  | work _ _ hc => exact single _ hc

end Closing

namespace Balanced

variable {l l' : Ledger σ}

/-- What was due still is, or it was done once: now, or before. -/
private theorem due_close (hb : l.Balanced) {p : Posting σ} {c : List Incident} (hc : Closing p c)
    (hp : p ∈ l.pending ++ l.out) {serial : Nat} {way : Way} {event : Event} {hasCallback : Bool}
    (hm : .offered serial way event hasCallback ∈ c ++ l.journal)
    (hdue : (hasCallback || way.isWork) = true) :
    (serial ∈ l.owned ∧ p.serial ≠ serial) ∨ tally Incident.closes? serial (c ++ l.journal) = 1 := by
  have hm' := hc.mem_offered hm
  rw [hc.closes]
  by_cases he : p.serial = serial
  · obtain ⟨way', event', ho, kind, -⟩ := hb.vouched p hp
    rw [he] at ho
    obtain ⟨rfl, -, rfl⟩ := offered_unique (by rw [hb.numbered]; split <;> omega) hm' ho
    rw [isDue_of_matches kind] at hdue
    rw [if_pos ⟨hdue, he⟩, ← he, hb.unclosed p.serial (List.mem_map_of_mem hp)]
    exact .inr rfl
  · rw [if_neg (fun h => he h.2)]
    exact (hb.due serial way event hasCallback hm' hdue).imp (fun ho => ⟨ho, he⟩) id

private theorem freed_close (hb : l.Balanced) {p : Posting σ} {c : List Incident}
    (hc : Closing p c) (hp : p ∈ l.pending ++ l.out) :
    ∀ serial type payload, .freed serial type payload ∈ c ++ l.journal →
      ∃ way event, .offered serial way event true ∈ c ++ l.journal ∧ type = event.type ∧
        payload = event.payload := by
  intro serial type payload hm
  rcases List.mem_append.mp hm with hm | hm
  · cases hc with
    | nothing => cases hm
    | free hcb =>
      cases List.mem_singleton.mp hm
      obtain ⟨way, event, ho, -, he⟩ := hb.vouched p hp
      rw [hcb] at ho
      exact ⟨way, event, List.mem_append_right _ ho, by rw [he], by rw [he]⟩
    | work _ _ _ hf => exact absurd (List.mem_singleton.mp hm).symm (hf _ _ _)
  · obtain ⟨way, event, ho, rest⟩ := hb.freed serial type payload hm
    exact ⟨way, event, List.mem_append_right _ ho, rest⟩

private theorem worked_close (hb : l.Balanced) {p : Posting σ} {c : List Incident}
    (hc : Closing p c) (hp : p ∈ l.pending ++ l.out) :
    ∀ i ∈ c ++ l.journal, ∀ serial, i.closes? = some serial →
      (∀ type payload, i ≠ .freed serial type payload) →
        ∃ way event, .offered serial way event false ∈ c ++ l.journal := by
  intro i hm serial hs hf
  rcases List.mem_append.mp hm with hm | hm
  · cases hc with
    | nothing => cases hm
    | free =>
      cases List.mem_singleton.mp hm
      cases hs
      exact absurd rfl (hf _ _)
    | work _ hcb hcloses =>
      cases List.mem_singleton.mp hm
      cases hcloses.symm.trans hs
      obtain ⟨way, event, ho, -⟩ := hb.vouched p hp
      rw [hcb] at ho
      exact ⟨way, event, List.mem_append_right _ ho⟩
  · obtain ⟨way, event, ho⟩ := hb.worked i hm serial hs hf
    exact ⟨way, event, List.mem_append_right _ ho⟩

/-- An event that is done leaves the books, and that is recorded. -/
theorem close (hb : l.Balanced) {p : Posting σ} {c : List Incident} (hc : Closing p c)
    (hperm : (l.pending ++ l.out).Perm (p :: (l'.pending ++ l'.out))) (hnext : l'.next = l.next)
    (hactive : l'.active = l.active) (hjournal : l'.journal = c ++ l.journal)
    (hpending : ∀ q ∈ l'.pending, q ∈ l.pending)
    (hheld : ∀ serial ∈ l.active, serial ∈ l'.out.map Posting.serial)
    (hended : tally Incident.enters? p.serial l.journal =
      tally Incident.leaves? p.serial l.journal) : l'.Balanced := by
  have hmem : p ∈ l.pending ++ l.out := hperm.mem_iff.mpr (List.mem_cons_self ..)
  have howned : l.owned.Perm (p.serial :: l'.owned) := hperm.map Posting.serial
  have hdistinct := List.nodup_cons.mp (howned.nodup_iff.mp hb.distinct)
  have hstill : ∀ serial ∈ l'.owned, serial ∈ l.owned ∧ p.serial ≠ serial := by
    intro serial hs
    refine ⟨howned.mem_iff.mpr (List.mem_cons_of_mem _ hs), ?_⟩
    rintro rfl
    exact hdistinct.1 hs
  exact {
    numbered := fun serial => by
      rw [hjournal, hc.offers, hnext]
      exact hb.numbered serial
    bounded := fun serial hle => by
      rw [hnext] at hle
      have hlt := hb.lt_next (List.mem_map_of_mem hmem)
      rw [hjournal, hc.enters, hc.closes, if_neg (by omega)]
      exact hb.bounded serial hle
    distinct := hdistinct.2
    vouched := fun q hq => by
      rw [hjournal]
      refine (hb.vouched q ?_).mono fun i hi => List.mem_append_right _ hi
      exact hperm.mem_iff.mpr (List.mem_cons_of_mem _ hq)
    unclosed := fun serial hs => by
      obtain ⟨ho, hne⟩ := hstill serial hs
      rw [hjournal, hc.closes, if_neg (fun h => hne h.2)]
      exact hb.unclosed serial ho
    due := fun serial way event hasCallback hm hdue => by
      rw [hjournal] at hm ⊢
      refine (hb.due_close hc hmem hm hdue).imp (fun ⟨ho, hne⟩ => ?_) id
      exact (List.mem_cons.mp (howned.mem_iff.mp ho)).resolve_left fun h => hne h.symm
    freed := by
      rw [hjournal]
      exact hb.freed_close hc hmem
    worked := by
      rw [hjournal]
      exact hb.worked_close hc hmem
    handled := fun serial => by
      rw [hjournal, hc.enters, hc.leaves, hactive]
      exact hb.handled serial
    fresh := fun q hq => by
      rw [hjournal, hc.enters]
      exact hb.fresh q (hpending q hq)
    held := by
      rw [hactive]
      exact hheld
    orderly := by
      rw [hjournal]
      exact hc.orderly hb.orderly hended }

/-- An event that an app begins or ceases to handle is owned and not done; nothing else changes. -/
private theorem handle (hb : l.Balanced) {serial : Nat} {incident : Incident} {active : List Nat}
    (hs : serial ∈ l.out.map Posting.serial)
    (hoffers : incident.offers? = none) (hcloses : incident.closes? = none)
    (henters : ∀ s, incident.enters? = some s → s = serial)
    (hleaves : ∀ s, incident.leaves? = some s → s = serial)
    (hactive : ∀ s ∈ active, s ∈ serial :: l.active)
    (hcount : ∀ s, (if incident.enters? = some s then 1 else 0) + l.active.count s =
      (if incident.leaves? = some s then 1 else 0) + active.count s) :
    Balanced { l with active := active, journal := incident :: l.journal } := by
  have howned : serial ∈ l.owned := by
    obtain ⟨p, hp, he⟩ := List.mem_map.mp hs
    exact List.mem_map.mpr ⟨p, List.mem_append_right _ hp, he⟩
  have hlt := hb.lt_next howned
  have enters : ∀ s, s ≠ serial → tally Incident.enters? s (incident :: l.journal) =
      tally Incident.enters? s l.journal := by
    intro s hne
    rw [tally_cons, if_neg fun h => hne (henters s h)]
    rfl
  exact {
    numbered := fun s => by
      rw [tally_skip hoffers]
      exact hb.numbered s
    bounded := fun s hle => by
      have hle' : l.next ≤ s := hle
      rw [tally_skip hcloses, enters s (by omega)]
      exact hb.bounded s hle
    distinct := hb.distinct
    vouched := hb.vouched_cons incident
    unclosed := fun s hs => by
      rw [tally_skip hcloses]
      exact hb.unclosed s hs
    due := hb.due_cons hoffers hcloses
    freed := hb.freed_cons hcloses
    worked := hb.worked_cons hcloses
    handled := fun s => by
      have hc := hcount s
      have hh := hb.handled s
      rw [tally_cons, tally_cons]
      show _ = _ + active.count s
      omega
    fresh := fun p hp => by
      have hne : p.serial ≠ serial := by
        intro he
        have hd := hb.distinct
        rw [owned, List.map_append] at hd
        exact (List.nodup_append.mp hd).2.2 _ (List.mem_map_of_mem hp) _ hs he
      rw [enters _ hne]
      exact hb.fresh p hp
    held := fun s hm => by
      rcases List.mem_cons.mp (hactive s hm) with rfl | hm
      · exact hs
      · exact hb.held s hm
    orderly := by
      refine ⟨fun s hc => ?_, fun s hc => ?_, hb.orderly⟩
      · rw [hcloses] at hc
        cases hc
      · obtain rfl : s = serial := hc.elim (henters s) (hleaves s)
        exact hb.unclosed s howned }

end Balanced

theorem Move.balanced {l l' : Ledger σ} (h : Move l l') (hb : l.Balanced) : l'.Balanced := by
  cases h with
  | shuffle hp ho ha =>
    refine hb.regroup rfl rfl ((hp.append ho).map _) ha ?_ ?_ ?_
    · intro p hm
      exact hb.vouched p ((hp.append ho).mem_iff.mpr hm)
    · intro p hm
      exact List.mem_map_of_mem (hp.mem_iff.mpr hm)
    · intro serial hs
      exact (ho.map _).mem_iff.mp hs
  | note h => exact hb.note h
  | offer kind => exact hb.offer kind
  | @refuse n pending out active journal way event work kind =>
    have hb' := hb.offer kind
    have hc : Closing (⟨n, event, .work work⟩ : Posting σ) [.discarded n] :=
      .work rfl rfl rfl (by simp)
    refine hb'.close hc (.refl _) rfl rfl rfl ?_ hb'.held
      (hb'.ended_of_pending (List.mem_cons_self ..))
    intro q hq
    exact List.mem_cons_of_mem _ hq
  | @stamp n pending out active journal p now =>
    refine hb.regroup rfl rfl (.refl _) (.refl _) ?_ ?_ fun _ hs => hs
    · intro q hq
      rcases List.mem_cons.mp hq with rfl | hq
      · obtain ⟨way, event, ho, kind, he⟩ := hb.vouched p (List.mem_cons_self ..)
        refine ⟨way, event, ho, kind, ?_⟩
        rw [Posting.stamped, he]
      · exact hb.vouched q (List.mem_cons_of_mem _ hq)
    · intro q hq
      rcases List.mem_cons.mp hq with rfl | hq
      · exact List.mem_cons_self ..
      · exact List.mem_cons_of_mem _ (List.mem_map_of_mem hq)
  | @fetch n pending out active journal p =>
    have hperm : (p :: (pending ++ out)).Perm (pending ++ p :: out) := List.perm_middle.symm
    refine hb.regroup rfl rfl (hperm.map _) (.refl _) ?_ ?_ ?_
    · intro q hq
      exact hb.vouched q (hperm.mem_iff.mpr hq)
    · intro q hq
      exact List.mem_cons_of_mem _ (List.mem_map_of_mem hq)
    · intro serial hs
      exact List.mem_cons_of_mem _ hs
  | @enter n pending out active journal p load instanceId stopping mem =>
    refine hb.handle (List.mem_map_of_mem mem) rfl rfl ?_ (by simp [Incident.leaves?])
      (fun _ hs => hs) ?_
    · intro s hs
      cases hs
      rfl
    · intro s
      simp only [Incident.enters?, Incident.leaves?, EntryPoint.serial?, List.count_cons,
        Option.some.injEq, beq_iff_eq, reduceCtorEq, if_false]
      omega
  | @leave n pending out serial active journal load =>
    refine hb.handle (hb.held serial (List.mem_cons_self ..)) rfl rfl (by simp [Incident.enters?])
      ?_ ?_ ?_
    · intro s hs
      cases hs
      rfl
    · intro s hs
      exact List.mem_cons_of_mem _ (List.mem_cons_of_mem _ hs)
    · intro s
      simp only [Incident.enters?, Incident.leaves?, EntryPoint.serial?, List.count_cons,
        Option.some.injEq, beq_iff_eq, reduceCtorEq, if_false]
      omega
  | @complete n pending out journal p =>
    have hhandled := hb.handled p.serial
    refine hb.close (closing_completed p) List.perm_middle rfl rfl rfl (fun _ hq => hq) ?_ ?_
    · intro serial hs
      cases hs
    · simpa using hhandled
  | @release n pending out active journal p plain =>
    refine hb.close (closing_completed p) (.refl _) rfl rfl rfl ?_ hb.held
      (hb.ended_of_pending (List.mem_cons_self ..))
    intro q hq
    exact List.mem_cons_of_mem _ hq

end Ledger

end SensorHub
