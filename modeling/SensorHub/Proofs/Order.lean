import SensorHub.Proofs.Books

namespace SensorHub

variable {σ : Type}

namespace Incident

def admits? : Incident → Option Nat
  | .admitted serial _ => some serial
  | _ => none

theorem admits?_of_isQuiet {i : Incident} (h : i.isQuiet = true) : i.admits? = none := by
  cases i with
  | admitted => cases h
  | _ => rfl

end Incident

/-- The numbers of the events that were queued, in the order of their admission. -/
def admissions (journal : List Incident) : List Nat :=
  (journal.filterMap Incident.admits?).reverse

theorem admissions_cons {incident : Incident} (h : incident.admits? = none)
    (journal : List Incident) : admissions (incident :: journal) = admissions journal := by
  rw [admissions, List.filterMap_cons_none h, admissions]

theorem admissions_append {news : List Incident} (h : ∀ i ∈ news, i.isQuiet = true)
    (journal : List Incident) : admissions (news ++ journal) = admissions journal := by
  induction news with
  | nil => rfl
  | cons incident news ih =>
    have htail := ih fun i hi => h i (List.mem_cons_of_mem _ hi)
    have hquiet := h incident (List.mem_cons_self ..)
    exact (admissions_cons (Incident.admits?_of_isQuiet hquiet) _).trans htail

namespace Hub

variable {hub hub₁ hub' : Hub σ} {posting : Posting σ} {handle : Handle} {kept : List Handle}
  {cargo : List (Cargo σ)}

def line (hub : Hub σ) : List Nat :=
  hub.queue.toList.filterMap fun handle => (hub.pool.inspect handle).map Posting.serial

/-- Nothing is queued on the way from one hub to the other, and the slots of `kept` are left
alone. -/
structure Thins (hub : Hub σ) (kept : List Handle) (hub' : Hub σ) : Prop where
  inspect : ∀ k ∈ kept, hub'.pool.inspect k = hub.pool.inspect k
  queue : hub'.queue.toList.Sublist hub.queue.toList
  admissions : admissions hub'.journal = admissions hub.journal
  postings : hub.postings ≤ hub'.postings

namespace Thins

theorem refl (hub : Hub σ) (kept : List Handle) : hub.Thins kept hub :=
  ⟨fun _ _ => rfl, .refl _, rfl, Nat.le_refl _⟩

theorem trans (h : hub.Thins kept hub₁) (h' : hub₁.Thins kept hub') : hub.Thins kept hub' :=
  ⟨fun k hk => (h'.inspect k hk).trans (h.inspect k hk), h'.queue.trans h.queue,
    h'.admissions.trans h.admissions, Nat.le_trans h.postings h'.postings⟩

theorem mono {fewer : List Handle} (h : hub.Thins kept hub') (hk : ∀ k ∈ fewer, k ∈ kept) :
    hub.Thins fewer hub' :=
  ⟨fun k hm => h.inspect k (hk k hm), h.queue, h.admissions, h.postings⟩

theorem of_calm (h : hub.Calm hub') : hub.Thins kept hub' := by
  obtain ⟨news, hj, hq⟩ := h.journal
  refine ⟨fun k _ => h.inspect k, ?_, ?_, Nat.le_of_eq h.postings.symm⟩
  · rw [h.queue]
  · rw [hj, admissions_append hq]

theorem record (h : hub.Thins kept hub₁) {incident : Incident} (hi : incident.admits? = none) :
    hub.Thins kept (hub₁.record incident) :=
  ⟨h.inspect, h.queue, (admissions_cons hi _).trans h.admissions, h.postings⟩

theorem offer (h : hub.Thins kept hub₁) (way : Way) (event : Event) (completion : Completion σ) :
    hub.Thins kept (hub₁.offer way event completion).2 :=
  ⟨h.inspect, h.queue, (admissions_cons rfl _).trans h.admissions, Nat.le_succ_of_le h.postings⟩

theorem of_evicts {evicted : List Handle} (h : hub.Evicts evicted hub') : hub.Thins kept hub' := by
  refine ⟨fun k _ => ?_, h.order, ?_, Nat.le_of_eq h.postings.symm⟩
  · rw [h.pool]
  · rw [h.journal]

theorem of_pop (h : hub.pop? = some (handle, hub')) : hub.Thins kept hub' := by
  obtain ⟨queue, hlist, rfl⟩ := pop?_eq_some h
  refine ⟨fun _ _ => rfl, ?_, admissions_cons rfl _, Nat.le_refl _⟩
  rw [hlist]
  exact List.sublist_cons_self _ _

theorem of_take {item : Cargo σ} (hi : item.handle? = some handle)
    (ht : hub.Tidy (item :: cargo)) :
    hub.Thins (hub.queue.toList ++ cargo.filterMap Cargo.stored?) (hub.take handle).2 :=
  ⟨ht.inspect_take hi, .refl _, rfl, Nat.le_refl _⟩

theorem of_vacate (ht : hub.Tidy (.spent handle :: cargo)) :
    hub.Thins (hub.queue.toList ++ cargo.filterMap Cargo.stored?) (hub.vacate handle) := by
  obtain ⟨pool, heq, -, hinspect⟩ := ht.vacate_eq
  rw [heq]
  exact ⟨hinspect, .refl _, rfl, Nat.le_refl _⟩

theorem detach {frames : List (Frame σ)} (h : hub.Thins kept hub₁)
    (hd : hub₁.detach posting = (hub', frames)) : hub.Thins kept hub' := by
  rcases detach_cases hd with ⟨-, rfl, -⟩ | ⟨callback, -, rfl, -⟩ | ⟨work, -, rfl, -⟩
  · exact h
  · exact h.record rfl
  · exact (h.record rfl).record rfl

theorem line (h : hub.Thins kept hub') (hk : ∀ k ∈ hub.queue.toList, k ∈ kept) :
    hub'.line.Sublist hub.line := by
  have hsame : hub'.line =
      hub'.queue.toList.filterMap fun k => (hub.pool.inspect k).map Posting.serial := by
    refine List.filterMap_congr fun k hm => ?_
    rw [h.inspect k (hk k (h.queue.subset hm))]
  rw [hsame]
  exact h.queue.filterMap _

end Thins

theorem Admits.admissions (h : hub.Admits posting handle hub') :
    admissions hub'.journal = admissions hub.journal ++ [posting.serial] := by
  obtain ⟨news, hj, hq⟩ := h.journal
  have hquiet := admissions_append hq hub.journal
  rw [hj, ← hquiet]
  exact List.reverse_cons

theorem Admits.line (h : hub.Admits posting handle hub') (hnew : handle ∉ hub.queue.toList) :
    hub'.line = hub.line ++ [posting.serial] := by
  have hold : hub.queue.toList.filterMap (fun k => (hub'.pool.inspect k).map Posting.serial) =
      hub.line := by
    refine List.filterMap_congr fun k hk => ?_
    have hne : handle ≠ k := by
      rintro rfl
      exact hnew hk
    rw [h.inspect, if_neg hne]
  have hlast : [handle].filterMap (fun k => (hub'.pool.inspect k).map Posting.serial) =
      [posting.serial] := by
    refine (List.filterMap_cons_some ?_).trans rfl
    rw [h.inspect, if_pos rfl]
    rfl
  rw [Hub.line, h.queue, List.filterMap_append, hold, hlast]

end Hub

namespace Frame

variable {hub hub' : Hub σ} {frame : Frame σ} {frames : List (Frame σ)} {below : List (Cargo σ)}

/-- The slots that a step of the frame leaves alone. -/
def kept (hub : Hub σ) (below : List (Cargo σ)) : List Handle :=
  hub.queue.toList ++ below.filterMap Cargo.stored?

/-- A step queues nothing, or it queues an event that is new or that has waited for a slot. -/
theorem Traffic.line (h : frame.Traffic hub hub' frames) (ht : hub.Tidy (frame.cargo ++ below)) :
    hub.Thins (kept hub below) hub' ∨
      ∃ hub₁ posting handle, hub.Thins (kept hub below) hub₁ ∧ hub₁.Admits posting handle hub' ∧
        handle ∉ kept hub below ∧
        (posting.serial = hub.postings ∨ frame = .enqueue posting) := by
  have hkept : ∀ k ∈ kept hub below,
      k ∈ hub.queue.toList ++ (frame.cargo ++ below).filterMap Cargo.handle? := by
    intro k hk
    rcases List.mem_append.mp hk with hk | hk
    · exact List.mem_append_left _ hk
    · rw [List.filterMap_append]
      exact List.mem_append_right _ (List.mem_append_right _ (Hub.Tidy.handle_of_stored hk))
  cases h with
  | pass calm cargo => exact .inl (.of_calm calm)
  | @post _ hub₀ way event completion hub₁ _ upper lower calm kind calm' direct _ posted cargo =>
    have ht₁ := ((ht.calm calm).offer way event completion).calm calm'
    have offered : hub.Thins (kept hub below) hub₁ :=
      ((Hub.Thins.of_calm calm).offer way event completion).trans (.of_calm calm')
    have hqueue : hub₁.queue = hub.queue := calm'.queue.trans calm.queue
    rcases Hub.posted_cases ht₁.sound posted with
      ⟨-, -, handle, admits, hnew, -⟩ | ⟨-, evicted, evicts, -⟩ | ⟨-, calm'', -⟩ |
      ⟨callback, hub₂, -, calm'', rfl, -⟩ | ⟨work, -, -, rfl, -⟩
    · rw [hqueue] at hnew
      exact .inr ⟨hub₁, _, handle, offered, admits, fun hk => hnew (hkept handle hk),
        .inl calm.postings⟩
    · exact .inl (offered.trans (.of_evicts evicts))
    · exact .inl (offered.trans (.of_calm calm''))
    · exact .inl ((offered.trans (.of_calm calm'')).record rfl)
    · exact .inl (offered.record rfl)
  | @enqueue posting _ he =>
    obtain ⟨handle, admits, hnew, -⟩ := Hub.enqueue_true ht.sound he
    exact .inr ⟨hub, posting, handle, .refl _ _, admits, fun hk => hnew (hkept handle hk), .inr rfl⟩
  | @evict handle rest posting _ frames held hd =>
    have ht' : hub.Tidy (.doomed handle :: (rest.map .doomed ++ below)) := ht
    have taken := Hub.Thins.of_take rfl ht'
    have evicted : hub.Thins (kept hub (rest.map .doomed ++ below))
        ((hub.take handle).2.record (.evicted posting.serial)) := taken.record rfl
    refine .inl ((evicted.detach hd).mono fun k hk => ?_)
    rcases List.mem_append.mp hk with hk | hk
    · exact List.mem_append_left _ hk
    · refine List.mem_append_right _ ?_
      rw [List.filterMap_append]
      exact List.mem_append_right _ hk
  | vacate => exact .inl (.of_vacate ht)
  | pop calm hp how => exact .inl ((Hub.Thins.of_calm calm).trans (.of_pop hp))
  | dispatch held => exact .inl ((Hub.Thins.of_take rfl ht).record rfl)
  | discard held => exact .inl (.of_take rfl ht)
  | hollow mem held => exact absurd held (ht.not_hollow mem)
  | deliver calm => exact .inl ((Hub.Thins.of_calm calm).record rfl)
  | leave => exact .inl ((Hub.Thins.refl _ _).record rfl)
  | forget => exact .inl (.refl _ _)
  | free _ calm => exact .inl ((Hub.Thins.of_calm calm).record rfl)
  | work _ calm => exact .inl (((Hub.Thins.refl _ _).record rfl).trans (.of_calm calm))

/-- An event that waits for a slot after a step has waited before, or is new. -/
theorem Traffic.waiting (h : frame.Traffic hub hub' frames) (ht : hub.Tidy (frame.cargo ++ below))
    {posting : Posting σ} (hw : .waiting posting ∈ frames.flatMap Frame.cargo) :
    .waiting posting ∈ frame.cargo ∨ posting.serial = hub.postings := by
  cases h with
  | pass calm cargo => exact .inl (cargo ▸ hw)
  | @post _ hub₀ way event completion hub₁ _ upper lower calm kind calm' direct _ posted cargo =>
    rw [List.flatMap_append, cargo] at hw
    rcases List.mem_append.mp hw with hw | hw
    · have ht₁ := ((ht.calm calm).offer way event completion).calm calm'
      rcases Hub.posted_cases ht₁.sound posted with
        ⟨-, rfl, -⟩ | ⟨-, evicted, -, rfl⟩ | ⟨-, -, rfl⟩ | ⟨callback, hub₂, -, -, -, rfl⟩ |
        ⟨work, -, -, -, rfl⟩
      · cases hw
      · simp only [List.flatMap_cons, Frame.cargo, List.flatMap_nil, List.append_nil,
          List.mem_append, List.mem_map, List.mem_singleton, Cargo.waiting.injEq, reduceCtorEq,
          and_false, exists_false, false_or] at hw
        rw [hw]
        exact .inr calm.postings
      · cases hw
      · cases hw
      · cases hw
    · exact .inl hw
  | evict held hd =>
    rw [List.flatMap_append, cargo_detach hd] at hw
    simp [cargo] at hw
  | pop calm hp how =>
    rw [how.cargo.2] at hw
    simp at hw
  | hollow mem held => exact absurd held (ht.not_hollow mem)
  | work _ _ cargo _ =>
    rw [cargo] at hw
    cases hw
  | deliver => simp [cargo, EntryPoint.serial?] at hw
  | enqueue | vacate | dispatch | discard | leave | forget | free => simp [cargo] at hw

end Frame

namespace Hub

variable {hub hub' : Hub σ} {cargo other : List (Cargo σ)}

/-- Events wait in the order of their admission. -/
structure Lined (hub : Hub σ) (cargo : List (Cargo σ)) : Prop where
  order : hub.line.Sublist (admissions hub.journal)
  once : (admissions hub.journal).Nodup
  numbered : ∀ serial ∈ admissions hub.journal, serial < hub.postings
  waiting : ∀ posting, .waiting posting ∈ cargo → posting.serial ∉ admissions hub.journal

theorem Lined.of_thins {kept : List Handle} (hl : hub.Lined cargo) (h : hub.Thins kept hub')
    (hk : ∀ k ∈ hub.queue.toList, k ∈ kept)
    (hw : ∀ posting, .waiting posting ∈ other → posting.serial ∉ admissions hub.journal) :
    hub'.Lined other where
  order := by
    rw [h.admissions]
    exact (h.line hk).trans hl.order
  once := by
    rw [h.admissions]
    exact hl.once
  numbered := fun serial hs => by
    rw [h.admissions] at hs
    exact Nat.lt_of_lt_of_le (hl.numbered serial hs) h.postings
  waiting := by
    rw [h.admissions]
    exact hw

/-- A new event that is queued stands last in the line, and none that waits has its number. -/
theorem Lined.of_admits {posting : Posting σ} {handle : Handle} (hl : hub.Lined cargo)
    (h : hub.Admits posting handle hub') (hnew : handle ∉ hub.queue.toList)
    (hfresh : posting.serial ∉ admissions hub.journal) (hlt : posting.serial < hub'.postings)
    (hother : ∀ p, .waiting p ∈ cargo → p.serial ≠ posting.serial) : hub'.Lined cargo where
  order := by
    rw [h.admissions, h.line hnew]
    exact hl.order.append (.refl _)
  once := by
    rw [h.admissions]
    refine List.nodup_append.mpr ⟨hl.once, List.nodup_singleton _, fun a ha b hb => ?_⟩
    rw [List.mem_singleton.mp hb]
    rintro rfl
    exact hfresh ha
  numbered := fun serial hs => by
    rw [h.admissions] at hs
    rcases List.mem_append.mp hs with hs | hs
    · rw [h.postings]
      exact hl.numbered serial hs
    · rw [List.mem_singleton.mp hs]
      exact hlt
  waiting := fun p hp hs => by
    rw [h.admissions] at hs
    rcases List.mem_append.mp hs with hs | hs
    · exact hl.waiting p hp hs
    · exact hother p hp (List.mem_singleton.mp hs)

end Hub

namespace Frame

variable {hub hub' : Hub σ} {frame : Frame σ} {frames : List (Frame σ)} {below : List (Cargo σ)}

theorem Traffic.lined (h : frame.Traffic hub hub' frames) (ht : hub.Tidy (frame.cargo ++ below))
    (hb' : (hub'.books (frames.flatMap Frame.cargo ++ below)).Balanced)
    (hl : hub.Lined (frame.cargo ++ below)) :
    hub'.Lined (frames.flatMap Frame.cargo ++ below) := by
  have hqueue : ∀ k ∈ hub.queue.toList, k ∈ kept hub below := fun k hk =>
    List.mem_append_left _ hk
  have hwaiting : ∀ posting, .waiting posting ∈ frames.flatMap Frame.cargo ++ below →
      posting.serial ∉ admissions hub.journal := by
    intro posting hw
    rcases List.mem_append.mp hw with hw | hw
    · rcases h.waiting ht hw with hw | hnew
      · exact hl.waiting posting (List.mem_append_left _ hw)
      · intro hm
        exact absurd hnew (Nat.ne_of_lt (hl.numbered _ hm))
    · exact hl.waiting posting (List.mem_append_right _ hw)
  rcases h.line ht with thins | ⟨hub₁, posting, handle, thins, admits, hnew, hfrom⟩
  · exact hl.of_thins thins hqueue hwaiting
  · have hfresh : posting.serial ∉ admissions hub.journal := by
      rcases hfrom with hfrom | rfl
      · intro hm
        exact absurd hfrom (Nat.ne_of_lt (hl.numbered _ hm))
      · exact hl.waiting posting (List.mem_append_left _ (List.mem_singleton_self _))
    -- the event that is queued now is pending beside those that wait
    obtain ⟨others, hpending, hmem⟩ : ∃ others,
        (hub'.books (frames.flatMap Frame.cargo ++ below)).pending =
          others ++ (frames.flatMap Frame.cargo ++ below).filterMap Cargo.waiting? ∧
        posting.stamped hub₁.now ∈ others := by
      refine ⟨_, rfl, List.mem_filterMap.mpr ⟨handle, List.mem_append_left _ ?_, ?_⟩⟩
      · rw [admits.queue]
        exact List.mem_append_right _ (List.mem_singleton_self _)
      · rw [admits.inspect, if_pos rfl]
    have howned : posting.serial ∈
        (hub'.books (frames.flatMap Frame.cargo ++ below)).owned := by
      refine List.mem_map.mpr ⟨posting.stamped hub₁.now, List.mem_append_left _ ?_, rfl⟩
      rw [hpending]
      exact List.mem_append_left _ hmem
    have hother : ∀ p, .waiting p ∈ frames.flatMap Frame.cargo ++ below →
        p.serial ≠ posting.serial := by
      intro p hp
      have hdistinct := hb'.distinct
      rw [Ledger.owned, hpending, List.append_assoc, List.map_append] at hdistinct
      have hwaits : p ∈ (frames.flatMap Frame.cargo ++ below).filterMap Cargo.waiting? :=
        List.mem_filterMap.mpr ⟨_, hp, rfl⟩
      exact ((List.nodup_append.mp hdistinct).2.2 posting.serial (List.mem_map.mpr ⟨_, hmem, rfl⟩)
        p.serial (List.mem_map.mpr ⟨p, List.mem_append_left _ hwaits, rfl⟩)).symm
    refine (hl.of_thins thins hqueue hwaiting).of_admits admits ?_ ?_ (hb'.lt_next howned) hother
    · exact fun hm => hnew (hqueue handle (thins.queue.subset hm))
    · rw [thins.admissions]
      exact hfresh

end Frame

namespace Machine

theorem Reachable.lined {m : Machine σ} (hm : m.Reachable) : m.hub.Lined m.cargo := by
  refine hm.keeps (P := fun hub frames => hub.Lined (frames.flatMap Frame.cargo)) ?_ ?_ ?_
  · intro config collaborators memory now routine _
    refine ⟨?_, ?_, ?_, ?_⟩
    all_goals simp [Hub.create, Hub.line, admissions, Frame.cargo]
  · intro hub hub' frame frames rest hm hl h
    have hm' := hm.move (.of_go h)
    have hb' := hm'.balanced
    simp only [books, cargo, List.flatMap_append] at hb'
    rw [List.flatMap_append]
    exact (hm.traffic h).lined hm.tidy hb' hl
  · intro hub frames routine hl
    exact hl

end Machine

end SensorHub
