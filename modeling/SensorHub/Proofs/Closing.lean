import SensorHub.Proofs.Books

namespace SensorHub

variable {σ : Type}

namespace Ledger

variable {l l' : Ledger σ} {serial : Nat}

theorem Move.journal (h : Move l l') :
    l.next ≤ l'.next ∧ ∃ news, l'.journal = news ++ l.journal := by
  cases h with
  | shuffle | stamp | fetch => exact ⟨Nat.le_refl _, [], rfl⟩
  | note | enter | leave => exact ⟨Nat.le_refl _, [_], rfl⟩
  | offer => exact ⟨Nat.le_succ _, [_], rfl⟩
  | refuse => exact ⟨Nat.le_succ _, [_, _], rfl⟩
  | complete | release => exact ⟨Nat.le_refl _, _, rfl⟩

theorem Moves.journal (h : Moves l l') :
    l.next ≤ l'.next ∧ ∃ news, l'.journal = news ++ l.journal := by
  induction h with
  | refl => exact ⟨Nat.le_refl _, [], rfl⟩
  | tail _ hm ih =>
    obtain ⟨hle, news, hj⟩ := ih
    obtain ⟨hle', news', hj'⟩ := hm.journal
    exact ⟨Nat.le_trans hle hle', news' ++ news, by rw [hj', hj, List.append_assoc]⟩

/-- What was ever entered into the journal stays there. -/
theorem Moves.remembers (h : Moves l l') {incident : Incident} (hi : incident ∈ l.journal) :
    incident ∈ l'.journal := by
  obtain ⟨-, news, hj⟩ := h.journal
  rw [hj]
  exact List.mem_append_right _ hi

/-- Whoever owns an event, it keeps what completes it. -/
theorem Moves.completion (h : Moves l l') {c : Completion σ} (hlt : serial < l.next)
    (hc : ∀ p ∈ l.pending ++ l.out, p.serial = serial → p.completion = c) :
    ∀ p ∈ l'.pending ++ l'.out, p.serial = serial → p.completion = c := by
  induction h with
  | refl => exact hc
  | tail hms hm ih =>
    have hlt' := Nat.lt_of_lt_of_le hlt (Moves.journal hms).1
    cases hm with
    | shuffle hp ho =>
      intro p hm
      exact ih p ((hp.append ho).mem_iff.mpr hm)
    | note | refuse | enter | leave => exact ih
    | offer =>
      intro p hm hs
      rcases List.mem_cons.mp hm with rfl | hm
      · exact absurd hs (Nat.ne_of_gt hlt')
      · exact ih p hm hs
    | @stamp _ _ _ _ _ p =>
      intro q hm hs
      rcases List.mem_cons.mp hm with rfl | hm
      · exact ih p (List.mem_cons_self ..) hs
      · exact ih q (List.mem_cons_of_mem _ hm) hs
    | fetch =>
      intro p hm
      exact ih p (List.perm_middle.mem_iff.mp hm)
    | complete =>
      intro p hm
      exact ih p (List.perm_middle.mem_iff.mpr (List.mem_cons_of_mem _ hm))
    | release =>
      intro p hm
      exact ih p (List.mem_cons_of_mem _ hm)

theorem Moves.discarded (h : Moves l l') (hlt : serial < l.next)
    (hd : .discarded serial ∉ l.journal) : .discarded serial ∉ l'.journal := by
  induction h with
  | refl => exact hd
  | tail hms hm ih =>
    have hlt' := Nat.lt_of_lt_of_le hlt (Moves.journal hms).1
    have completed : ∀ p : Posting σ, .discarded serial ∉ p.completed := by
      intro p
      unfold Posting.completed
      split <;> simp
    cases hm with
    | shuffle | stamp | fetch => exact ih
    | @note _ _ _ _ _ incident hi =>
      intro hmem
      rcases List.mem_cons.mp hmem with rfl | hmem
      · cases hi
      · exact ih hmem
    | offer | enter | leave =>
      intro hmem
      rcases List.mem_cons.mp hmem with he | hmem
      · cases he
      · exact ih hmem
    | refuse =>
      intro hmem
      rcases List.mem_cons.mp hmem with he | hmem
      · cases he
        exact Nat.lt_irrefl _ hlt'
      · rcases List.mem_cons.mp hmem with he | hmem
        · cases he
        · exact ih hmem
    | @complete _ _ _ _ p | @release _ _ _ _ _ p =>
      intro hmem
      rcases List.mem_append.mp hmem with hmem | hmem
      · exact completed p hmem
      · exact ih hmem

theorem length_closing (journal : List Incident) :
    (journal.filter fun i => i.closes? == some serial).length =
      tally Incident.closes? serial journal := by
  induction journal with
  | nil => rfl
  | cons incident journal ih =>
    rw [tally_cons, ← ih]
    by_cases h : incident.closes? = some serial <;> simp [h]

theorem mem_closing {journal : List Incident} {incident : Incident}
    (h : journal.filter (fun i => i.closes? == some serial) = [incident]) (other : Incident) :
    other = incident ↔ other ∈ journal ∧ other.closes? = some serial := by
  rw [← beq_iff_eq (a := other.closes?), ← List.mem_singleton, ← h, List.mem_filter]

/-- What is due is done exactly once when nothing is owned any more. -/
theorem Balanced.done_once (hb : l.Balanced) (hown : l.owned = []) {way : Way} {event : Event}
    {hasCallback : Bool} (ho : .offered serial way event hasCallback ∈ l.journal)
    (hdue : (hasCallback || way.isWork) = true) :
    ∃ incident, l.journal.filter (fun i => i.closes? == some serial) = [incident] := by
  have hone : tally Incident.closes? serial l.journal = 1 := by
    rcases hb.due serial way event hasCallback ho hdue with h | h
    · rw [hown] at h
      cases h
    · exact h
  rw [← length_closing] at hone
  exact List.length_eq_one_iff.mp hone

/-- When an event is done all handling of it has ended, and none follows. -/
theorem Orderly.ended {later earlier : List Incident} {incident : Incident}
    (h : Orderly (later ++ incident :: earlier)) (hc : incident.closes? = some serial) :
    tally Incident.enters? serial later = 0 ∧ tally Incident.leaves? serial later = 0 ∧
      tally Incident.enters? serial earlier = tally Incident.leaves? serial earlier := by
  induction later with
  | nil => exact ⟨rfl, rfl, h.1 serial hc⟩
  | cons first later ih =>
    obtain ⟨-, hnone, hrest⟩ := h
    obtain ⟨henters, hleaves, hended⟩ := ih hrest
    have hclosed : 0 < tally Incident.closes? serial (later ++ incident :: earlier) :=
      List.count_pos_iff.mpr (List.mem_filterMap.mpr
        ⟨incident, List.mem_append_right _ (List.mem_cons_self ..), hc⟩)
    have hnot : ¬(first.enters? = some serial ∨ first.leaves? = some serial) := by
      intro hf
      exact absurd (hnone serial hf) (Nat.ne_of_gt hclosed)
    rw [tally_cons, tally_cons, if_neg fun hf => hnot (.inl hf), if_neg fun hf => hnot (.inr hf)]
    exact ⟨henters, hleaves, hended⟩

end Ledger

open Ledger

/-- The code of an event that is done has just begun. -/
def Posting.Begun (posting : Posting σ) (hub : Hub σ) (frames : List (Frame σ)) : Prop :=
  (∀ callback, posting.completion = .free callback →
    (∃ purpose rest, frames = .code (.handle purpose)
      (callback posting.event.type posting.event.payload) :: rest) ∧
    ∃ earlier, hub.journal =
      .freed posting.serial posting.event.type posting.event.payload :: earlier) ∧
  ∀ kind routine, posting.completion = .work (.call kind routine) →
    ∃ rest, frames = .code (.loop (.callback posting.serial)) routine :: rest

namespace Hub

variable {hub hub' : Hub σ} {posting : Posting σ} {frames : List (Frame σ)} {serial : Nat}

theorem closes_calm (serial : Nat) (h : hub.Calm hub') : tally Incident.closes? serial hub'.journal =
    tally Incident.closes? serial hub.journal := by
  obtain ⟨news, hj, hq⟩ := h.journal
  have hnone : news.filterMap Incident.closes? = [] := by
    refine List.filterMap_eq_nil_iff.mpr fun i hi => ?_
    have hidle := Incident.isIdle_of_isQuiet (hq i hi)
    simp only [Incident.isIdle, Bool.and_eq_true, Option.isNone_iff_eq_none] at hidle
    exact hidle.1.1.2
  rw [hj, tally, List.filterMap_append, hnone]
  rfl

theorem closes_cons {incident : Incident} {journal : List Incident}
    (h : incident.closes? ≠ some serial) :
    tally Incident.closes? serial (incident :: journal) =
      tally Incident.closes? serial journal := by
  rw [tally_cons, if_neg h]
  rfl

theorem closes_admits {handle : Handle} (h : hub.Admits posting handle hub') :
    tally Incident.closes? serial hub'.journal = tally Incident.closes? serial hub.journal := by
  obtain ⟨news, hj, hq⟩ := h.journal
  have hcalm : hub.Calm { hub with journal := news ++ hub.journal } :=
    ⟨fun _ => rfl, fun _ h => h, rfl, rfl, rfl, news, rfl, hq⟩
  rw [hj]
  exact (closes_cons (by simp [Incident.closes?])).trans (closes_calm serial hcalm)

/-- A posted event is done at once only if its callback begins, or if it carries work and the hub
has stopped. -/
theorem begun_posted {live : List Handle} (hs : hub.pool.Sound live)
    (h : hub.Posted posting hub' frames) (lower : List (Frame σ)) :
    tally Incident.closes? serial hub'.journal = tally Incident.closes? serial hub.journal ∨
      posting.serial = serial ∧ (posting.Begun hub' (frames ++ lower) ∨
        ∃ work, posting.completion = .work work ∧ hub.running = false) := by
  rcases posted_cases hs h with
    ⟨-, -, handle, admits, -, -⟩ | ⟨-, evicted, evicts, -⟩ | ⟨-, calm, -⟩ |
    ⟨callback, hub₁, hc, calm, rfl, rfl⟩ | ⟨work, hc, stopped, rfl, -⟩
  · exact .inl (closes_admits admits)
  · exact .inl (by rw [evicts.journal])
  · exact .inl (closes_calm serial calm)
  · have hcalm := closes_calm serial calm
    by_cases he : posting.serial = serial
    · refine .inr ⟨he, .inl ⟨fun callback' hc' => ?_, fun kind routine hc' => ?_⟩⟩
      · cases hc.symm.trans hc'
        exact ⟨⟨_, _, rfl⟩, _, rfl⟩
      · cases hc.symm.trans hc'
    · have hne : (Incident.freed posting.serial posting.event.type posting.event.payload).closes? ≠
          some serial := fun h => he (Option.some.inj h)
      exact .inl ((closes_cons hne).trans hcalm)
  · by_cases he : posting.serial = serial
    · exact .inr ⟨he, .inr ⟨work, hc, stopped⟩⟩
    · exact .inl (closes_cons fun h => he (Option.some.inj h))

theorem begun_detach (serial : Nat) (plain : ∀ work, posting.completion ≠ .work work)
    (h : hub.detach posting = (hub', frames)) (lower : List (Frame σ)) :
    tally Incident.closes? serial hub'.journal = tally Incident.closes? serial hub.journal ∨
      posting.serial = serial ∧ posting.Begun hub' (frames ++ lower) := by
  rcases detach_cases h with ⟨-, rfl, -⟩ | ⟨callback, hc, rfl, rfl⟩ | ⟨work, hc, -⟩
  · exact .inl rfl
  · by_cases hs : posting.serial = serial
    · refine .inr ⟨hs, fun callback' hc' => ?_, fun kind routine hc' => ?_⟩
      · cases hc.symm.trans hc'
        exact ⟨⟨_, _, rfl⟩, _, rfl⟩
      · cases hc.symm.trans hc'
    · refine .inl ?_
      show tally _ _ (_ :: hub.journal) = _
      simp [tally_cons, Incident.closes?, hs]
  · exact absurd hc (plain work)

end Hub

namespace Frame

variable {hub hub' : Hub σ} {frame : Frame σ} {frames : List (Frame σ)} {below : List (Cargo σ)}
  {serial : Nat}

/-- An event from before that is done in a step begins what completes it; work begins only where
an event is completed. -/
theorem Traffic.begun (h : frame.Traffic hub hub' frames) (ht : hub.Tidy (frame.cargo ++ below))
    (hb : (hub.books (frame.cargo ++ below)).Balanced) (hlt : serial < hub.postings) :
    tally Incident.closes? serial hub'.journal = tally Incident.closes? serial hub.journal ∨
      ∃ p ∈ (hub.books (frame.cargo ++ below)).pending ++ (hub.books (frame.cargo ++ below)).out,
        p.serial = serial ∧ p.Begun hub' frames ∧
          ∀ work, p.completion = .work work → frame = .complete p := by
  cases h with
  | pass calm cargo => exact .inl (Hub.closes_calm serial calm)
  | @post _ hub₀ way event completion hub₁ _ upper lower calm kind calm' direct _ posted cargo =>
    refine .inl ?_
    have hne : hub₀.postings ≠ serial := by
      rw [calm.postings]
      exact Nat.ne_of_gt hlt
    have hcalm := Hub.closes_calm serial calm
    have hoffer : tally Incident.closes? serial hub₁.journal =
        tally Incident.closes? serial hub.journal :=
      (Hub.closes_calm serial calm').trans ((Hub.closes_cons (by simp [Incident.closes?])).trans hcalm)
    have ht₁ := ((ht.calm calm).offer way event completion).calm calm'
    rcases Hub.begun_posted ht₁.sound posted [] with h | ⟨he, -⟩
    · exact h.trans hoffer
    · exact absurd he hne
  | enqueue he =>
    obtain ⟨handle, admits, -, -⟩ := Hub.enqueue_true ht.sound he
    exact .inl (Hub.closes_admits admits)
  | @evict handle rest posting _ frames held hd =>
    have ht' : hub.Tidy (.doomed handle :: (rest.map .doomed ++ below)) := ht
    rcases Hub.begun_detach serial (plain_of_doomed ht' held hb) hd
      [Frame.vacate handle, Frame.evict rest] with h | ⟨hs, hbegun⟩
    · exact .inl (h.trans (Hub.closes_cons (by simp [Incident.closes?])))
    · refine .inr ⟨posting, Hub.mem_books.mpr (.inr (.inl ?_)), hs, hbegun, fun work hw =>
        absurd hw (plain_of_doomed ht' held hb work)⟩
      exact ⟨.doomed handle, List.mem_cons_self .., handle, rfl, held⟩
  | vacate =>
    obtain ⟨pool, heq, -⟩ := ht.vacate_eq
    exact .inl (by rw [heq])
  | pop calm hp how =>
    obtain ⟨queue, -, rfl⟩ := Hub.pop?_eq_some hp
    have hcalm := Hub.closes_calm serial calm
    exact .inl ((Hub.closes_cons (by simp [Incident.closes?])).trans hcalm)
  | dispatch held => exact .inl (Hub.closes_cons (by simp [Incident.closes?]))
  | discard held => exact .inl rfl
  | hollow mem held => exact absurd held (ht.not_hollow mem)
  | deliver calm =>
    have hcalm := Hub.closes_calm serial calm
    exact .inl ((Hub.closes_cons (by simp [Incident.closes?])).trans hcalm)
  | leave => exact .inl (Hub.closes_cons (by simp [Incident.closes?]))
  | forget => exact .inl rfl
  | @free posting callback hub₁ previous hc calm =>
    by_cases hs : posting.serial = serial
    · refine .inr ⟨posting, List.mem_append_right _ (List.mem_cons_self ..), hs,
        ⟨fun callback' hc' => ?_, fun kind routine hc' => ?_⟩, fun _ _ => rfl⟩
      · cases hc.symm.trans hc'
        exact ⟨⟨_, _, rfl⟩, _, rfl⟩
      · cases hc.symm.trans hc'
    · have hcalm := Hub.closes_calm serial calm
      have hne : (Incident.freed posting.serial posting.event.type posting.event.payload).closes? ≠
          some serial := fun h => hs (Option.some.inj h)
      exact .inl ((Hub.closes_cons hne).trans hcalm)
  | @work posting work _ frames hc calm cargo called =>
    by_cases hs : posting.serial = serial
    · refine .inr ⟨posting, List.mem_append_right _ (List.mem_cons_self ..), hs,
        ⟨fun callback hc' => ?_, fun kind routine hc' => ?_⟩, fun _ _ => rfl⟩
      · cases hc.symm.trans hc'
      · cases hc.symm.trans hc'
        exact ⟨[], called kind routine rfl⟩
    · have hcalm := Hub.closes_calm serial calm
      have hne : (Incident.worked posting.serial).closes? ≠ some serial :=
        fun h => hs (Option.some.inj h)
      exact .inl (hcalm.trans (Hub.closes_cons hne))

end Frame

theorem Posting.Begun.append {posting : Posting σ} {hub : Hub σ} {frames : List (Frame σ)}
    (h : posting.Begun hub frames) (rest : List (Frame σ)) : posting.Begun hub (frames ++ rest) := by
  refine ⟨fun callback hc => ?_, fun kind routine hc => ?_⟩
  · obtain ⟨⟨purpose, rest', rfl⟩, hj⟩ := h.1 callback hc
    exact ⟨⟨purpose, rest' ++ rest, rfl⟩, hj⟩
  · obtain ⟨rest', rfl⟩ := h.2 kind routine hc
    exact ⟨rest' ++ rest, rfl⟩

theorem Ledger.Balanced.offers_le {l : Ledger σ} (hb : l.Balanced) (serial : Nat) :
    tally Incident.offers? serial l.journal ≤ 1 := by
  rw [hb.numbered]
  split <;> omega

namespace Machine

variable {m m' : Machine σ}

theorem Move.books (hm : m.Reachable) (h : Move m m') : Moves m.books m'.books := by
  cases h with
  | step hs =>
    obtain ⟨hub, frame, rest, hub', frames, rfl, hgo, rfl⟩ := step_eq_stepped.mp hs
    exact hm.moves hm.balanced hgo
  | interrupt routine => exact .refl

theorem Reaches.books (hm : m.Reachable) (h : m.Reaches m') : Moves m.books m'.books := by
  induction h with
  | refl => exact .refl
  | tail hr hmove ih => exact ih.trans (hmove.books (hm.reaches hr))

theorem Reaches.remembers (hm : m.Reachable) (h : m.Reaches m') {incident : Incident}
    (hi : incident ∈ m.hub.journal) : incident ∈ m'.hub.journal :=
  (Reaches.books hm h).remembers hi

end Machine

end SensorHub
