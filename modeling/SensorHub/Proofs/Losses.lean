import SensorHub.Proofs.Announcing
import SensorHub.Proofs.Stopping

namespace SensorHub

variable {σ : Type}

open Ledger

namespace Incident

def offersLow? : Incident → Option Nat
  | .offered serial .low _ _ => some serial
  | _ => none

/-- The incident says nothing about what is queued, dropped or handed over to be queued. -/
def isApart (i : Incident) : Bool :=
  i.offersLow?.isNone && i.admits?.isNone && i.drops?.isNone

end Incident

def lows (journal : List Incident) : List Nat :=
  journal.filterMap Incident.offersLow?

/-- How many of the events that may be dropped were queued, or dropped on the spot. -/
def settled (journal : List Incident) : Nat :=
  ((admissions journal).filter (· ∈ lows journal)).length + (drops journal).length

theorem settled_cons {incident : Incident} (h : incident.isApart = true)
    (journal : List Incident) : settled (incident :: journal) = settled journal := by
  simp only [Incident.isApart, Bool.and_eq_true, Option.isNone_iff_eq_none] at h
  obtain ⟨⟨hlow, hadmits⟩, hdrops⟩ := h
  rw [settled, admissions_cons hadmits, lows, List.filterMap_cons_none hlow, drops,
    List.filterMap_cons_none hdrops, settled, lows, drops]

theorem mem_lows {journal : List Incident} {serial : Nat} :
    serial ∈ lows journal ↔
      ∃ event hasCallback, .offered serial .low event hasCallback ∈ journal := by
  simp only [lows, List.mem_filterMap]
  constructor
  · rintro ⟨incident, hi, hserial⟩
    cases incident with
    | offered number way event hasCallback =>
      cases way with
      | low =>
        cases hserial
        exact ⟨event, hasCallback, hi⟩
      | _ => cases hserial
    | _ => cases hserial
  · rintro ⟨event, hasCallback, hi⟩
    exact ⟨_, hi, rfl⟩

/-- What is handed over as an event that may be dropped is of low priority, and nothing else is. -/
theorem Hub.Matches.low_iff {way : Way} {event : Event} {completion : Completion σ}
    (h : Hub.Matches way event completion) : way = .low ↔ event.lowPriority = true := by
  cases h with
  | critical => simp [Hub.critical]
  | low free hlow => simp [hlow]
  | work work => cases work <;> simp [Hub.wayOf, Event.system, Event.new]

namespace Ledger

/-- In the books what is handed over as an event that may be dropped is of low priority, and
nothing else is. -/
def Sorted (journal : List Incident) : Prop :=
  ∀ serial way event hasCallback, .offered serial way event hasCallback ∈ journal →
    (way = .low ↔ event.lowPriority = true)

theorem Sorted.append {journal : List Incident} (h : Sorted journal) (news : List Incident)
    (hn : ∀ serial way event hasCallback, .offered serial way event hasCallback ∈ news →
      (way = .low ↔ event.lowPriority = true)) : Sorted (news ++ journal) :=
  fun serial way event hasCallback hm =>
    (List.mem_append.mp hm).elim (hn serial way event hasCallback) (h serial way event hasCallback)

theorem Move.sorted {l l' : Ledger σ} (h : Move l l') (hs : Sorted l.journal) :
    Sorted l'.journal := by
  have completed : ∀ p : Posting σ, ∀ serial way event hasCallback,
      .offered serial way event hasCallback ∈ p.completed →
        (way = .low ↔ event.lowPriority = true) := by
    intro p serial way event hasCallback hm
    have hmem : .offered serial way event hasCallback ∈ p.completed ++ [] := by simpa using hm
    have hclosing := (closing_completed p).mem_offered hmem
    cases hclosing
  cases h with
  | shuffle | stamp | fetch => exact hs
  | @note _ _ _ _ _ incident hidle =>
    refine hs.append [incident] fun serial way event hasCallback hm => ?_
    rw [← List.mem_singleton.mp hm] at hidle
    cases hidle
  | @offer n pending out active journal way event completion kind =>
    refine hs.append [_] fun serial way event hasCallback hm => ?_
    cases List.mem_singleton.mp hm
    exact kind.low_iff
  | @refuse n pending out active journal way event work kind =>
    refine hs.append [_, _] fun serial way event hasCallback hm => ?_
    rcases List.mem_cons.mp hm with hm | hm
    · cases hm
    · cases List.mem_singleton.mp hm
      exact kind.low_iff
  | enter | leave =>
    refine hs.append [_] fun serial way event hasCallback hm => ?_
    cases List.mem_singleton.mp hm
  | @complete _ _ _ _ p | @release _ _ _ _ _ p => exact hs.append _ (completed p)

end Ledger

def Cargo.isDoomed : Cargo σ → Bool
  | .doomed _ => true
  | _ => false

namespace Hub

variable {hub hub₁ hub' : Hub σ} {cargo : List (Cargo σ)} {posting : Posting σ}
  {frames : List (Frame σ)}

theorem lows_calm (calm : hub.Calm hub') : lows hub'.journal = lows hub.journal := by
  obtain ⟨news, hj, hq⟩ := calm.journal
  rw [hj, lows, List.filterMap_append, List.filterMap_eq_nil_iff.mpr, List.nil_append, lows]
  intro i hi
  have hquiet := hq i hi
  cases i with
  | offered => cases hquiet
  | _ => rfl

theorem settled_calm (calm : hub.Calm hub') (losses : hub'.losses = hub.losses) :
    settled hub'.journal = settled hub.journal := by
  have hdrops : drops hub'.journal = drops hub.journal := congrArg Prod.snd losses
  obtain ⟨news, hj, hq⟩ := calm.journal
  have hadmissions : admissions hub'.journal = admissions hub.journal := by
    rw [hj, admissions_append hq]
  rw [settled, hadmissions, lows_calm calm, hdrops, settled]

theorem settled_detach (hub : Hub σ) (posting : Posting σ) :
    settled (hub.detach posting).1.journal = settled hub.journal := by
  unfold detach
  split
  next => rfl
  next => exact settled_cons rfl _
  next => exact (settled_cons rfl _).trans (settled_cons rfl _)

/-- To hand over an event settles nothing; it is listed if it may be dropped. -/
theorem settled_offer {hub₀ : Hub σ} {way : Way} {event : Event} {completion : Completion σ}
    (numbered : ∀ serial ∈ admissions hub.journal, serial < hub.postings)
    (unlisted : hub.postings ∉ lows hub.journal) (calm : hub.Calm hub₀)
    (calm' : (hub₀.offer way event completion).2.Calm hub₁) (losses : hub₁.losses = hub.losses) :
    settled hub₁.journal = settled hub.journal ∧
      (hub.postings ∈ lows hub₁.journal ↔ way = .low) := by
  have hdrops : drops hub₁.journal = drops hub.journal := congrArg Prod.snd losses
  have hadmissions : admissions hub₁.journal = admissions hub.journal := by
    obtain ⟨news, hj, hq⟩ := calm.journal
    obtain ⟨news', hj', hq'⟩ := calm'.journal
    have hoffered : admissions (hub₀.offer way event completion).2.journal =
        admissions hub₀.journal := admissions_cons rfl _
    rw [hj', admissions_append hq', hoffered, hj, admissions_append hq]
  have hlows : lows hub₁.journal =
      if way = .low then hub.postings :: lows hub.journal else lows hub.journal := by
    rw [lows_calm calm', ← lows_calm calm, ← calm.postings]
    cases way <;> rfl
  cases way with
  | low =>
    rw [if_pos rfl] at hlows
    have hsame : (admissions hub.journal).filter (· ∈ hub.postings :: lows hub.journal) =
        (admissions hub.journal).filter (· ∈ lows hub.journal) := by
      refine List.filter_congr fun serial hs => ?_
      simp [Nat.ne_of_lt (numbered serial hs)]
    refine ⟨?_, by simp [hlows]⟩
    rw [settled, hadmissions, hlows, hdrops, hsame, settled]
  | critical | system | stop =>
    rw [if_neg nofun] at hlows
    refine ⟨?_, by simp [hlows, unlisted]⟩
    rw [settled, hadmissions, hlows, hdrops, settled]

/-- An event that is queued is settled if it may be dropped. -/
theorem Admits.settled {handle : Handle} (h : hub.Admits posting handle hub')
    (losses : hub'.losses = hub.losses) :
    SensorHub.settled hub'.journal = SensorHub.settled hub.journal +
      if posting.serial ∈ lows hub.journal then 1 else 0 := by
  have hdrops : drops hub'.journal = drops hub.journal := congrArg Prod.snd losses
  have hlows : lows hub'.journal = lows hub.journal := by
    obtain ⟨news, hj, hq⟩ := h.journal
    have hnews : lows (news ++ hub.journal) = lows hub.journal := by
      rw [lows, List.filterMap_append, List.filterMap_eq_nil_iff.mpr, List.nil_append, lows]
      intro i hi
      have hquiet := hq i hi
      cases i with
      | offered => cases hquiet
      | _ => rfl
    rw [hj]
    exact hnews
  rw [SensorHub.settled, h.admissions, hlows, hdrops, List.filter_append, List.length_append,
    SensorHub.settled]
  by_cases hlow : posting.serial ∈ lows hub.journal
  · simp [hlow]
    omega
  · simp [hlow]

/-- A post that passes the checks settles an event that may be dropped: it is queued, or it is
dropped. No other post settles anything. -/
theorem settled_posted (ht : hub.Tidy cargo)
    (hlow : posting.serial ∈ lows hub.journal ↔ posting.event.lowPriority = true)
    (h : hub.Posted posting hub' frames) :
    (posting.event.lowPriority = true → hub.running = true → ¬hub.Refuses posting.event →
      settled hub'.journal = settled hub.journal + 1) ∧
    (posting.event.lowPriority = false ∨ hub.running = false ∨ hub.Refuses posting.event →
      settled hub'.journal = settled hub.journal) := by
  cases h with
  | queued running he passes =>
    obtain ⟨handle, admits, -, -⟩ := enqueue_true ht.sound he
    have losses : hub'.losses = hub.losses := by
      have hlosses := losses_enqueue hub posting
      rwa [he] at hlosses
    refine ⟨fun low _ _ => ?_, fun hnot => ?_⟩
    · rw [admits.settled losses, if_pos (hlow.mpr low)]
    · rcases hnot with high | stopped | ⟨named, stopping⟩
      · rw [admits.settled losses, if_neg fun hs => ?_, Nat.add_zero]
        rw [hlow.mp hs] at high
        cases high
      · rw [running] at stopped
        cases stopped
      · exact absurd stopping (passes.resolve_left named)
  | reserved running hm system critical =>
    refine ⟨fun low => ?_, fun _ => ?_⟩
    · rw [low] at critical
      cases critical
    · rw [(makeRoom_evicts hm).journal]
  | @refused hub₁ _ _ _ calm _ hd _ losses why =>
    have hsame : settled hub'.journal = settled hub.journal := by
      have hdetached := settled_detach hub₁ posting
      rw [hd] at hdetached
      exact hdetached.trans (settled_calm calm losses)
    refine ⟨fun _ running hno => ?_, fun _ => hsame⟩
    rcases why with stopped | refuses
    · rw [running] at stopped
      cases stopped
    · exact absurd refuses hno
  | @dropped hub₁ hub₂ _ _ _ running he count hd passes low =>
    have hone : settled hub'.journal = settled hub.journal + 1 := by
      have hdetached := settled_detach
        (hub₂.log (.dropped posting.event.type posting.event.target)) posting
      rw [hd, count] at hdetached
      have hcalm : settled hub₁.journal = settled hub.journal := by
        have hlosses := losses_enqueue hub posting
        rw [he] at hlosses
        exact settled_calm (enqueue_false ht.sound he) hlosses
      have hdropped : settled (.dropped posting.serial :: hub₁.journal) =
          settled hub₁.journal + 1 := by
        rw [settled, settled, Nat.add_assoc]
        rfl
      exact hdetached.trans ((settled_cons rfl _).trans (hdropped.trans (by rw [hcalm])))
    refine ⟨fun _ _ _ => hone, fun hnot => ?_⟩
    rcases hnot with high | stopped | ⟨named, stopping⟩
    · rw [low] at high
      cases high
    · rw [running] at stopped
      cases stopped
    · exact absurd stopping (passes.resolve_left named)
  | discarded _ stopped =>
    refine ⟨fun _ running => ?_, fun _ => settled_cons rfl _⟩
    rw [running] at stopped
    cases stopped

theorem detach_journal (hub : Hub σ) (posting : Posting σ) :
    ∃ news, (hub.detach posting).1 = { hub with journal := news ++ hub.journal } ∧
      ∀ i ∈ news, i.isAside = true :=
  have hdetach : hub.detach posting = ((hub.detach posting).1, (hub.detach posting).2) := rfl
  detach_eq hdetach

/-- A post that the checks refuse changes nothing but the journal. -/
theorem postDroppable_kept (h : hub.running = false ∨ hub.Refuses posting.event) :
    ∃ news, (hub.postDroppable posting).2.1 = { hub with journal := news ++ hub.journal } ∧
      ∀ i ∈ news, i.isAside = true := by
  by_cases running : hub.running = true
  · have refuses : hub.Refuses posting.event := by
      refine h.resolve_left ?_
      rw [running]
      nofun
    have hrefuses : (posting.event.sender != systemId &&
        hub.shownStopping == posting.event.sender) = true := by
      simpa [Refuses] using refuses
    have heq : hub.postDroppable posting = (false,
        (hub.log (.senderStopping posting.event.type posting.event.sender)).detach posting) := by
      simp only [postDroppable, running, Bool.not_true, Bool.false_eq_true, if_false, hrefuses,
        if_true]
    obtain ⟨news, hdetach, haside⟩ :=
      (hub.log (.senderStopping posting.event.type posting.event.sender)).detach_journal posting
    rw [heq]
    refine ⟨news ++ [.logged (.senderStopping posting.event.type posting.event.sender)], ?_, ?_⟩
    · rw [hdetach, List.append_assoc]
      rfl
    · intro i hi
      rcases List.mem_append.mp hi with hi | hi
      · exact haside i hi
      · rw [List.mem_singleton.mp hi]
        rfl
  · have heq : hub.postDroppable posting = (false, hub.detach posting) := by
      simp only [postDroppable, running, Bool.not_false, if_true]
    rw [heq]
    exact hub.detach_journal posting

/-- What has left the queue to make room, and has not been released yet, is counted here too. -/
def lost (hub : Hub σ) (cargo : List (Cargo σ)) : Nat :=
  (drops hub.journal).length + (evictions hub.journal).length + cargo.countP Cargo.isDoomed

/-- Every event that is lost is counted, and no other one. -/
def Counted (hub : Hub σ) (cargo : List (Cargo σ)) : Prop :=
  hub.dropped = UInt32.ofNat (hub.lost cargo)

theorem evictions_calm (calm : hub.Calm hub') : evictions hub'.journal = evictions hub.journal := by
  obtain ⟨news, hj, hq⟩ := calm.journal
  rw [hj]
  exact filterMap_aside
    (fun i hi => (Incident.names_of_isAside (Incident.isAside_of_isQuiet (hq i hi))).2.2.1) _

theorem Counted.same {other : List (Cargo σ)} (hc : hub.Counted cargo)
    (losses : hub'.losses = hub.losses) (evicted : evictions hub'.journal = evictions hub.journal)
    (doomed : other.countP Cargo.isDoomed = cargo.countP Cargo.isDoomed) : hub'.Counted other := by
  have hdropped : hub'.dropped = hub.dropped := congrArg Prod.fst losses
  have hdrops : drops hub'.journal = drops hub.journal := congrArg Prod.snd losses
  unfold Counted lost
  rw [hdropped, hdrops, evicted, doomed]
  exact hc

theorem makeRoom_dropped {evicted : List Handle} (h : hub.makeRoom = (.found evicted, hub')) :
    hub'.dropped = hub.dropped + evicted.length.toUInt32 := by
  unfold makeRoom at h
  dsimp only at h
  split at h
  next =>
    cases h
    simp
  next =>
    split at h
    next => cases h
    next => cases h
    next =>
      cases h
      rfl

theorem evictions_detach (hub : Hub σ) (posting : Posting σ) :
    evictions (hub.detach posting).1.journal = evictions hub.journal := by
  unfold detach
  split
  next => rfl
  next => rfl
  next => rfl

theorem Admits.evictions {handle : Handle} (h : hub.Admits posting handle hub') :
    SensorHub.evictions hub'.journal = SensorHub.evictions hub.journal := by
  obtain ⟨news, hj, hq⟩ := h.journal
  rw [hj]
  have aside : ∀ i ∈ news, Incident.evicts? i = none := fun i hi =>
    (Incident.names_of_isAside (Incident.isAside_of_isQuiet (hq i hi))).2.2.1
  exact filterMap_aside aside _

theorem counted_posted (ht : hub.Tidy cargo) (hc : hub.Counted cargo)
    (h : hub.Posted posting hub' frames) :
    hub'.Counted (frames.flatMap Frame.cargo ++ cargo) := by
  cases h with
  | queued running he =>
    obtain ⟨handle, admits, -, -⟩ := enqueue_true ht.sound he
    have losses := losses_enqueue hub posting
    rw [he] at losses
    exact hc.same losses admits.evictions rfl
  | @reserved _ evicted running hm =>
    have hdrops : drops hub'.journal = drops hub.journal := by rw [(makeRoom_evicts hm).journal]
    have hevictions : evictions hub'.journal = evictions hub.journal := by
      rw [(makeRoom_evicts hm).journal]
    have hdoomed : ([Frame.evict evicted, .enqueue posting].flatMap Frame.cargo ++
        cargo).countP Cargo.isDoomed = evicted.length + cargo.countP Cargo.isDoomed := by
      have hall : (evicted.map (@Cargo.doomed σ)).countP Cargo.isDoomed = evicted.length := by
        rw [List.countP_map]
        exact List.countP_eq_length.mpr fun _ _ => rfl
      simp [Frame.cargo, hall, Cargo.isDoomed]
    unfold Counted lost at hc ⊢
    rw [makeRoom_dropped hm, hc, hdrops, hevictions, hdoomed,
      Nat.add_comm evicted.length, ← Nat.add_assoc]
    exact (UInt32.ofNat_add _ _).symm
  | @refused hub₁ _ _ _ calm _ hd _ losses _ =>
    have hlosses := losses_detach hub₁ posting
    have hevictions := evictions_detach hub₁ posting
    rw [hd] at hlosses hevictions
    rw [Frame.cargo_detach hd]
    exact hc.same (hlosses.trans losses) (hevictions.trans (evictions_calm calm)) rfl
  | @dropped hub₁ hub₂ _ _ _ running he count hd =>
    have hlosses := losses_detach
      (hub₂.log (.dropped posting.event.type posting.event.target)) posting
    have hevictions := evictions_detach
      (hub₂.log (.dropped posting.event.type posting.event.target)) posting
    have hbefore := losses_enqueue hub posting
    have hcalm := evictions_calm (enqueue_false ht.sound he)
    rw [hd, count] at hlosses hevictions
    rw [he] at hbefore
    have hdropped : hub'.dropped = hub.dropped + 1 :=
      (congrArg Prod.fst hlosses).trans (congrArg (· + 1) (congrArg Prod.fst hbefore))
    have hdrops : drops hub'.journal = posting.serial :: drops hub.journal :=
      (congrArg Prod.snd hlosses).trans
        (congrArg (posting.serial :: ·) (congrArg Prod.snd hbefore))
    have hevicted : evictions hub'.journal = evictions hub.journal := hevictions.trans hcalm
    rw [Frame.cargo_detach hd]
    unfold Counted lost at hc ⊢
    have hmoved (a b c : Nat) : a + 1 + b + c = a + b + c + 1 := by omega
    rw [hdropped, hc, hdrops, hevicted, List.length_cons, List.nil_append, hmoved]
    exact (UInt32.ofNat_add _ _).symm
  | discarded => exact hc.same rfl rfl rfl

end Hub

namespace Frame

variable {hub hub' : Hub σ} {frame : Frame σ} {frames : List (Frame σ)} {below : List (Cargo σ)}

/-- An event that waits outside the queue is critical. -/
theorem Traffic.critical (h : frame.Traffic hub hub' frames) (ht : hub.Tidy (frame.cargo ++ below))
    (hc : ∀ p, .waiting p ∈ frame.cargo → p.event.lowPriority = false) :
    ∀ p, .waiting p ∈ frames.flatMap Frame.cargo → p.event.lowPriority = false := by
  intro p hp
  cases h with
  | pass calm cargo => exact hc p (cargo ▸ hp)
  | post calm kind calm' direct shown posted cargo =>
    rw [List.flatMap_append] at hp
    rcases List.mem_append.mp hp with hp | hp
    · cases posted with
      | reserved running hm system critical =>
        obtain rfl : p = _ := by simpa [Frame.cargo] using hp
        exact critical
      | refused _ _ _ hd | dropped _ _ _ _ hd =>
        rw [cargo_detach hd] at hp
        cases hp
      | queued | discarded => cases hp
    · exact hc p (cargo ▸ hp)
  | evict held hd =>
    rw [List.flatMap_append, cargo_detach hd] at hp
    simp [Frame.cargo] at hp
  | pop calm hp' how =>
    rw [how.cargo.2] at hp
    simp at hp
  | hollow mem held => exact absurd held (ht.not_hollow mem)
  | work hc' calm cargo =>
    rw [cargo] at hp
    cases hp
  | enqueue | vacate | leave | forget => cases hp
  | dispatch | discard | deliver | free => simp [Frame.cargo] at hp

/-- A step that posts no event that may be dropped settles nothing. -/
theorem Traffic.settled (h : frame.Traffic hub hub' frames) (ht : hub.Tidy (frame.cargo ++ below))
    (numbered : ∀ serial ∈ admissions hub.journal, serial < hub.postings)
    (unlisted : hub.postings ∉ lows hub.journal)
    (high : ∀ p, .waiting p ∈ frame.cargo → p.serial ∉ lows hub.journal)
    (none : frame.droppable? hub = Option.none) :
    SensorHub.settled hub'.journal = SensorHub.settled hub.journal := by
  cases h with
  | pass calm _ losses => exact Hub.settled_calm calm losses
  | @post _ hub₀ way event completion hub₁ _ upper lower calm kind calm' direct shown posted cargo
      running losses low =>
    have high : way ≠ .low := by
      intro he
      have hsome := low he
      rw [none] at hsome
      cases hsome
    obtain ⟨hsettled, hlisted⟩ := Hub.settled_offer numbered unlisted calm calm' losses
    have hevent : event.lowPriority = false := by
      have hno := fun hlow => high (kind.low_iff.mpr hlow)
      simpa using hno
    have hlow : (hub₀.offer way event completion).1.serial ∈ lows hub₁.journal ↔
        (hub₀.offer way event completion).1.event.lowPriority = true := by
      have hserial : (hub₀.offer way event completion).1.serial = hub.postings := calm.postings
      rw [hserial, hlisted]
      exact kind.low_iff
    have htidy := ((ht.calm calm).offer way event completion).calm calm'
    rw [(Hub.settled_posted htidy hlow posted).2 (.inl hevent), hsettled]
  | @enqueue posting _ he =>
    obtain ⟨handle, admits, -, -⟩ := Hub.enqueue_true ht.sound he
    have losses := Hub.losses_enqueue hub posting
    rw [he] at losses
    have hnot := high posting (List.mem_singleton_self _)
    rw [admits.settled losses, if_neg hnot, Nat.add_zero]
  | @evict handle rest posting _ frames held hd =>
    have hdetached :=
      Hub.settled_detach ((hub.take handle).2.record (.evicted posting.serial)) posting
    rw [hd] at hdetached
    exact hdetached.trans (settled_cons rfl _)
  | vacate =>
    obtain ⟨pool, heq, -⟩ := Hub.Tidy.vacate_eq ht
    rw [heq]
  | pop calm hp how losses =>
    have hsame := Hub.settled_calm calm losses
    obtain ⟨queue, -, rfl⟩ := Hub.pop?_eq_some hp
    exact (settled_cons rfl _).trans hsame
  | hollow mem held => exact absurd held (ht.not_hollow mem)
  | deliver calm losses => exact (settled_cons rfl _).trans (Hub.settled_calm calm losses)
  | dispatch | leave => exact settled_cons rfl _
  | discard | forget => rfl
  | free hc calm losses => exact (settled_cons rfl _).trans (Hub.settled_calm calm losses)
  | work hc calm cargo called losses =>
    exact (Hub.settled_calm calm losses).trans (settled_cons rfl _)

/-- What a step that posts an event that may be dropped does. -/
theorem step_droppable {event : Event} (hd : frame.droppable? hub = some event)
    (h : frame.step hub = .go hub' frames) :
    ∃ (free : Option (FreeCallback σ)) (upper : List (Frame σ)) (next : Frame σ),
      event.lowPriority = true ∧ frames = upper ++ [next] ∧ next.cargo = frame.cargo ∧
      (hub.offer .low event (.ofCallback free)).2.Posted
        (hub.offer .low event (.ofCallback free)).1 hub' upper := by
  cases frame with
  | code actor routine =>
    have same : ∀ next, Frame.cargo (.code actor next) = Frame.cargo (.code actor routine) := by
      intro next
      cases actor <;> rfl
    cases routine with
    | postLow event free next =>
      cases hd
      cases h
      exact ⟨free, _, _, rfl, rfl, same _,
        Hub.posted_of_postDroppable (Hub.ofCallback_ne_work free) rfl⟩
    | send event free next =>
      cases ha : hub.apps[actor.index]? with
      | none =>
        simp only [droppable?, Routine.droppable?, ha] at hd
        cases hd
      | some app =>
        simp only [droppable?, Routine.droppable?, ha, Option.map_some] at hd
        simp only [step, Routine.step, ha] at h
        cases hd
        cases h
        exact ⟨free, _, _, rfl, rfl, same _,
          Hub.posted_of_postDroppable (Hub.ofCallback_ne_work free) rfl⟩
    | _ => cases hd
  | _ => cases hd

theorem Traffic.counted (h : frame.Traffic hub hub' frames) (ht : hub.Tidy (frame.cargo ++ below))
    (hc : hub.Counted (frame.cargo ++ below)) :
    hub'.Counted (frames.flatMap Frame.cargo ++ below) := by
  cases h with
  | pass calm cargo losses =>
    rw [cargo]
    exact hc.same losses (Hub.evictions_calm calm) rfl
  | @post _ hub₀ way event completion hub₁ _ upper lower calm kind calm' direct shown posted cargo
      running losses low =>
    have htidy := ((ht.calm calm).offer way event completion).calm calm'
    have hevictions : evictions hub₁.journal = evictions hub.journal := by
      have hoffered : evictions (hub₀.offer way event completion).2.journal =
          evictions hub₀.journal := rfl
      exact (Hub.evictions_calm calm').trans (hoffered.trans (Hub.evictions_calm calm))
    rw [List.flatMap_append, List.append_assoc, cargo]
    exact Hub.counted_posted htidy (hc.same losses hevictions rfl) posted
  | @enqueue posting _ he =>
    obtain ⟨handle, admits, -, -⟩ := Hub.enqueue_true ht.sound he
    have losses := Hub.losses_enqueue hub posting
    rw [he] at losses
    exact hc.same losses admits.evictions rfl
  | @evict handle rest posting _ frames held hd =>
    have losses := Hub.losses_detach ((hub.take handle).2.record (.evicted posting.serial)) posting
    have hevictions :=
      Hub.evictions_detach ((hub.take handle).2.record (.evicted posting.serial)) posting
    rw [hd] at losses hevictions
    rw [List.flatMap_append, cargo_detach hd]
    have hdropped : hub'.dropped = hub.dropped := congrArg Prod.fst losses
    have hdrops : drops hub'.journal = drops hub.journal := congrArg Prod.snd losses
    have hevicted : evictions hub'.journal = posting.serial :: evictions hub.journal := hevictions
    have hlost : hub'.lost (.spent handle :: (rest.map .doomed ++ below)) =
        hub.lost (.doomed handle :: (rest.map .doomed ++ below)) := by
      simp only [Hub.lost, hdrops, hevicted, List.length_cons, List.countP_cons, Cargo.isDoomed]
      simp
      omega
    unfold Hub.Counted at hc ⊢
    simp only [Frame.cargo] at hc ⊢
    simp only [List.nil_append, List.flatMap_cons, List.flatMap_nil, List.append_nil, Frame.cargo,
      List.cons_append, List.map_cons] at hc ⊢
    rw [hdropped, hc, hlost]
  | vacate =>
    obtain ⟨pool, heq, -⟩ := Hub.Tidy.vacate_eq ht
    rw [heq]
    exact hc.same rfl rfl rfl
  | pop calm hp how losses =>
    obtain ⟨hframe, hframes⟩ := how.cargo
    have hkept : Hub.Counted _ (frames.flatMap Frame.cargo ++ below) :=
      hc.same losses (Hub.evictions_calm calm) (by rw [hframe, hframes]; rfl)
    obtain ⟨queue, -, rfl⟩ := Hub.pop?_eq_some hp
    exact hkept
  | hollow mem held => exact absurd held (ht.not_hollow mem)
  | deliver calm losses | free _ calm losses =>
    have hevictions := Hub.evictions_calm calm
    exact hc.same losses hevictions rfl
  | work _ calm cargo _ losses =>
    have hevictions := Hub.evictions_calm calm
    rw [cargo]
    exact hc.same losses hevictions rfl
  | dispatch | discard | leave | forget => exact hc.same rfl rfl rfl

end Frame

end SensorHub
