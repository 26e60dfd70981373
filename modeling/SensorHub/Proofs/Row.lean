import SensorHub.Proofs.Barrier

namespace SensorHub

variable {σ : Type}

open Ledger

namespace Incident

def pops? : Incident → Option Nat
  | .popped _ serial => serial
  | _ => none

def evicts? : Incident → Option Nat
  | .evicted serial => some serial
  | _ => none

/-- The incident says nothing about who is queued, taken, evicted or handled. -/
def isAside : Incident → Bool
  | .admitted _ _ | .popped _ _ | .evicted _ => false
  | .entered _ _ point _ => point.serial?.isNone
  | _ => true

theorem isAside_of_isQuiet {i : Incident} (h : i.isQuiet = true) : i.isAside = true := by
  cases i with
  | entered => exact h
  | admitted | popped | evicted => cases h
  | _ => rfl

theorem names_of_isAside {i : Incident} (h : i.isAside = true) :
    i.admits? = none ∧ i.pops? = none ∧ i.evicts? = none ∧ i.enters? = none := by
  cases i with
  | entered load instanceId point stopping =>
    have hpoint : point.serial? = none := Option.isNone_iff_eq_none.mp h
    exact ⟨rfl, rfl, rfl, hpoint⟩
  | admitted | popped | evicted => cases h
  | _ => exact ⟨rfl, rfl, rfl, rfl⟩

end Incident

/-- The numbers of the events that were taken from the front of the queue, in the order in which
they were. -/
def pops (journal : List Incident) : List Nat :=
  (journal.filterMap Incident.pops?).reverse

def evictions (journal : List Incident) : List Nat :=
  journal.filterMap Incident.evicts?

theorem pops_append (later earlier : List Incident) :
    pops (later ++ earlier) = pops earlier ++ pops later := by
  rw [pops, List.filterMap_append, List.reverse_append, pops, pops]

theorem tally_append (name : Incident → Option Nat) (serial : Nat)
    (later earlier : List Incident) :
    tally name serial (later ++ earlier) = tally name serial later + tally name serial earlier := by
  rw [tally, List.filterMap_append, List.count_append, tally, tally]

theorem filterMap_aside {name : Incident → Option Nat} {news : List Incident}
    (h : ∀ i ∈ news, name i = none) (journal : List Incident) :
    (news ++ journal).filterMap name = journal.filterMap name := by
  have hnone : news.filterMap name = [] := List.filterMap_eq_nil_iff.mpr h
  rw [List.filterMap_append, hnone, List.nil_append]

/-- Whenever an app begins to handle a queued event, this is the event that was taken last, and all
handling of events has ended. -/
def InTurn : List Incident → Prop
  | [] => True
  | incident :: earlier =>
    (∀ serial, incident.enters? = some serial → (pops earlier).getLast? = some serial ∧
      ∀ other, tally Incident.enters? other earlier = tally Incident.leaves? other earlier) ∧
    InTurn earlier

theorem InTurn.aside {incident : Incident} {earlier : List Incident} (h : InTurn earlier)
    (hi : incident.enters? = none) : InTurn (incident :: earlier) := by
  refine ⟨fun serial hs => ?_, h⟩
  rw [hi] at hs
  cases hs

theorem InTurn.news {news earlier : List Incident} (h : InTurn earlier)
    (hn : ∀ i ∈ news, i.isAside = true) : InTurn (news ++ earlier) := by
  induction news with
  | nil => exact h
  | cons incident news ih =>
    have hrest := ih fun i hi => hn i (List.mem_cons_of_mem _ hi)
    have hfirst := hn incident (List.mem_cons_self ..)
    exact hrest.aside (Incident.names_of_isAside hfirst).2.2.2

theorem InTurn.began {later earlier : List Incident} {incident : Incident} {serial : Nat}
    (h : InTurn (later ++ incident :: earlier)) (hi : incident.enters? = some serial) :
    (pops earlier).getLast? = some serial ∧
      ∀ other, tally Incident.enters? other earlier = tally Incident.leaves? other earlier := by
  induction later with
  | nil => exact h.1 serial hi
  | cons first later ih => exact ih h.2

/-- The row of events: those that wait in the queue, oldest first, those that have left it to be
evicted, and those that are on their way to the apps. -/
structure Row (σ : Type) where
  journal : List Incident
  waiting : List (Posting σ)
  doomed : List (Posting σ)
  transit : List Nat

namespace Row

/-- The numbers of the events that have left the queue to make room. -/
def gone (r : Row σ) : List Nat :=
  evictions r.journal ++ r.doomed.map Posting.serial

/-- What a step does to the row. Only a step that takes what is queued pops. -/
inductive Shift (takes : Bool) (r r' : Row σ) : Prop
  | stay {news} (journal : r'.journal = news ++ r.journal) (aside : ∀ i ∈ news, i.isAside = true)
      (waiting : r'.waiting = r.waiting) (doomed : r'.doomed = r.doomed)
      (transit : ∀ serial ∈ r'.transit, serial ∈ r.transit)
  | queued {news posting now}
      (journal : r'.journal = .admitted posting.serial now :: (news ++ r.journal))
      (aside : ∀ i ∈ news, i.isAside = true) (waiting : r'.waiting = r.waiting ++ [posting])
      (doomed : r'.doomed = r.doomed) (transit : r'.transit = r.transit)
  | pop {news handle posting} (taking : takes = true)
      (journal : r'.journal = .popped handle (some posting.serial) :: (news ++ r.journal))
      (aside : ∀ i ∈ news, i.isAside = true) (waiting : r.waiting = posting :: r'.waiting)
      (doomed : r'.doomed = r.doomed) (transit : r'.transit = [posting.serial])
  /-- From some place on everything that may be evicted leaves. -/
  | doom {news older younger leaving} (journal : r'.journal = news ++ r.journal)
      (aside : ∀ i ∈ news, i.isAside = true) (before : r.waiting = older ++ younger)
      (after : r'.waiting = older ++ younger.filter fun p => !p.event.isEvictable)
      (perm : (leaving ++ r'.waiting).Perm r.waiting) (doomed : r'.doomed = leaving ++ r.doomed)
      (transit : r'.transit = r.transit)
  | evict {later news posting}
      (journal : r'.journal = later ++ .evicted posting.serial :: (news ++ r.journal))
      (after : ∀ i ∈ later, i.isAside = true) (aside : ∀ i ∈ news, i.isAside = true)
      (waiting : r'.waiting = r.waiting) (doomed : r.doomed = posting :: r'.doomed)
      (transit : r'.transit = r.transit)
  | enter {news load instanceId serial stopping}
      (journal : r'.journal =
        .entered load instanceId (.event (some serial)) stopping :: (news ++ r.journal))
      (aside : ∀ i ∈ news, i.isAside = true) (mem : serial ∈ r.transit)
      (ended : ∀ other, tally Incident.enters? other (news ++ r.journal) =
        tally Incident.leaves? other (news ++ r.journal))
      (waiting : r'.waiting = r.waiting) (doomed : r'.doomed = r.doomed)
      (transit : ∀ s ∈ r'.transit, s ∈ r.transit)

/-- The row is in order. -/
structure InOrder (r : Row σ) : Prop where
  order : (pops r.journal ++ r.waiting.map Posting.serial).Sublist (admissions r.journal)
  /-- Every event that was queued was taken, waits, or has left to make room. -/
  perm : (admissions r.journal).Perm
    (pops r.journal ++ r.waiting.map Posting.serial ++ r.gone)
  found : ∀ handle, .popped handle none ∉ r.journal
  /-- Only the event that was taken last is on its way. -/
  current : ∀ serial ∈ r.transit, (pops r.journal).getLast? = some serial
  inTurn : InTurn r.journal

variable {r r' : Row σ} {takes : Bool}

theorem Shift.noted {news : List Incident} (aside : ∀ i ∈ news, i.isAside = true)
    (h : Shift takes { r with journal := news ++ r.journal } r') : Shift takes r r' := by
  have both : ∀ {more : List Incident}, (∀ i ∈ more, i.isAside = true) →
      ∀ i ∈ more ++ news, i.isAside = true := by
    intro more hmore i hi
    rcases List.mem_append.mp hi with hi | hi
    · exact hmore i hi
    · exact aside i hi
  cases h with
  | stay journal more waiting doomed transit =>
    rw [← List.append_assoc] at journal
    exact .stay journal (both more) waiting doomed transit
  | queued journal more waiting doomed transit =>
    rw [← List.append_assoc] at journal
    exact .queued journal (both more) waiting doomed transit
  | pop taking journal more waiting doomed transit =>
    rw [← List.append_assoc] at journal
    exact .pop taking journal (both more) waiting doomed transit
  | doom journal more before after perm doomed transit =>
    rw [← List.append_assoc] at journal
    exact .doom journal (both more) before after perm doomed transit
  | evict journal after more waiting doomed transit =>
    rw [← List.append_assoc _ news] at journal
    exact .evict journal after (both more) waiting doomed transit
  | enter journal more mem ended waiting doomed transit =>
    rw [← List.append_assoc] at journal ended
    exact .enter journal (both more) mem ended waiting doomed transit

namespace InOrder

private theorem names {news : List Incident} (aside : ∀ i ∈ news, i.isAside = true)
    (journal : List Incident) :
    admissions (news ++ journal) = admissions journal ∧ pops (news ++ journal) = pops journal ∧
      evictions (news ++ journal) = evictions journal := by
  have hadmits := filterMap_aside (fun i hi => (Incident.names_of_isAside (aside i hi)).1) journal
  have hpops := filterMap_aside (fun i hi => (Incident.names_of_isAside (aside i hi)).2.1) journal
  have hevicts :=
    filterMap_aside (fun i hi => (Incident.names_of_isAside (aside i hi)).2.2.1) journal
  refine ⟨?_, ?_, hevicts⟩
  · rw [admissions, hadmits, admissions]
  · rw [pops, hpops, pops]

theorem noted (h : r.InOrder) {news : List Incident} (aside : ∀ i ∈ news, i.isAside = true) :
    InOrder { r with journal := news ++ r.journal } := by
  obtain ⟨hadmissions, hpops, hevictions⟩ := names aside r.journal
  refine ⟨?_, ?_, fun handle hm => ?_, fun serial hs => ?_, h.inTurn.news aside⟩
  · simp only [hadmissions, hpops]
    exact h.order
  · simp only [gone, hadmissions, hpops, hevictions]
    exact h.perm
  · rcases List.mem_append.mp hm with hm | hm
    · have hpopped := aside _ hm
      cases hpopped
    · exact h.found handle hm
  · simp only [hpops]
    exact h.current serial hs

theorem queued (h : r.InOrder) (posting : Posting σ) (now : Nat) :
    InOrder { r with
      journal := .admitted posting.serial now :: r.journal
      waiting := r.waiting ++ [posting] } where
  order := by
    have hadmissions : admissions (.admitted posting.serial now :: r.journal) =
        admissions r.journal ++ [posting.serial] := List.reverse_cons
    have hpops : pops (.admitted posting.serial now :: r.journal) = pops r.journal := rfl
    rw [hadmissions, hpops, List.map_append, ← List.append_assoc]
    exact h.order.append (.refl _)
  perm := by
    rw [List.perm_iff_count]
    intro serial
    have hcount := h.perm.count_eq serial
    have hadmissions : admissions (.admitted posting.serial now :: r.journal) =
        admissions r.journal ++ [posting.serial] := List.reverse_cons
    have hpops : pops (.admitted posting.serial now :: r.journal) = pops r.journal := rfl
    have hgone : gone { r with
        journal := .admitted posting.serial now :: r.journal
        waiting := r.waiting ++ [posting] } = r.gone := rfl
    rw [hadmissions, hpops, hgone, List.map_append]
    simp only [List.count_append, List.map_cons, List.map_nil] at hcount ⊢
    omega
  found := fun handle hm => by
    rcases List.mem_cons.mp hm with hm | hm
    · cases hm
    · exact h.found handle hm
  current := h.current
  inTurn := h.inTurn.aside rfl

theorem pop {posting : Posting σ} {later : List (Posting σ)} (h : r.InOrder) (handle : Handle)
    (waiting : r.waiting = posting :: later) :
    InOrder { r with
      journal := .popped handle (some posting.serial) :: r.journal
      waiting := later
      transit := [posting.serial] } := by
  have hpops : pops (.popped handle (some posting.serial) :: r.journal) =
      pops r.journal ++ [posting.serial] := List.reverse_cons
  have hline : pops (.popped handle (some posting.serial) :: r.journal) ++
      later.map Posting.serial = pops r.journal ++ r.waiting.map Posting.serial := by
    rw [hpops, waiting, List.map_cons, List.append_assoc, List.singleton_append]
  refine ⟨?_, ?_, fun other hm => ?_, fun serial hs => ?_, h.inTurn.aside rfl⟩
  · rw [hline]
    exact h.order
  · rw [hline]
    exact h.perm
  · rcases List.mem_cons.mp hm with hm | hm
    · cases hm
    · exact h.found other hm
  · rw [hpops, List.mem_singleton.mp hs]
    exact List.getLast?_concat

theorem doom {leaving left : List (Posting σ)} (h : r.InOrder) (order : left.Sublist r.waiting)
    (perm : (leaving ++ left).Perm r.waiting) :
    InOrder { r with waiting := left, doomed := leaving ++ r.doomed } where
  order := ((order.map Posting.serial).append_left _).trans h.order
  perm := by
    rw [List.perm_iff_count]
    intro serial
    have hcount := h.perm.count_eq serial
    have hleft := (perm.map Posting.serial).count_eq serial
    simp only [gone, List.map_append, List.count_append] at hcount hleft ⊢
    omega
  found := h.found
  current := h.current
  inTurn := h.inTurn

theorem evict {posting : Posting σ} {others : List (Posting σ)} (h : r.InOrder)
    (doomed : r.doomed = posting :: others) :
    InOrder { r with journal := .evicted posting.serial :: r.journal, doomed := others } where
  order := h.order
  perm := by
    rw [List.perm_iff_count]
    intro serial
    have hcount := h.perm.count_eq serial
    have hevictions : evictions (.evicted posting.serial :: r.journal) =
        posting.serial :: evictions r.journal := rfl
    have hadmissions : admissions (.evicted posting.serial :: r.journal) =
        admissions r.journal := rfl
    have hpops : pops (.evicted posting.serial :: r.journal) = pops r.journal := rfl
    rw [hadmissions, hpops]
    simp only [gone, doomed, hevictions, List.map_cons, List.count_append,
      List.count_cons] at hcount ⊢
    omega
  found := fun handle hm => by
    rcases List.mem_cons.mp hm with hm | hm
    · cases hm
    · exact h.found handle hm
  current := h.current
  inTurn := h.inTurn.aside rfl

theorem enter {serial : Nat} (h : r.InOrder) (mem : serial ∈ r.transit)
    (ended : ∀ other, tally Incident.enters? other r.journal =
      tally Incident.leaves? other r.journal) (load : Nat) (instanceId : UInt16)
    (stopping : Bool) :
    InOrder { r with
      journal := .entered load instanceId (.event (some serial)) stopping :: r.journal } where
  order := h.order
  perm := h.perm
  found := fun handle hm => by
    rcases List.mem_cons.mp hm with hm | hm
    · cases hm
    · exact h.found handle hm
  current := h.current
  inTurn := by
    refine ⟨fun other ho => ?_, h.inTurn⟩
    cases ho
    exact ⟨h.current serial mem, ended⟩

theorem lessen (h : r.InOrder) {transit : List Nat} (sub : ∀ serial ∈ transit, serial ∈ r.transit) :
    InOrder { r with transit := transit } :=
  ⟨h.order, h.perm, h.found, fun serial hs => h.current serial (sub serial hs), h.inTurn⟩

end InOrder

theorem Shift.inOrder (h : Shift takes r r') (hr : r.InOrder) : r'.InOrder := by
  obtain ⟨journal', waiting', doomed', transit'⟩ := r'
  cases h with
  | stay journal aside waiting doomed transit =>
    obtain rfl : journal' = _ := journal
    obtain rfl : waiting' = _ := waiting
    obtain rfl : doomed' = _ := doomed
    exact (hr.noted aside).lessen transit
  | queued journal aside waiting doomed transit =>
    obtain rfl : journal' = _ := journal
    obtain rfl : waiting' = _ := waiting
    obtain rfl : doomed' = _ := doomed
    obtain rfl : transit' = _ := transit
    exact (hr.noted aside).queued _ _
  | pop taking journal aside waiting doomed transit =>
    obtain rfl : journal' = _ := journal
    obtain rfl : doomed' = _ := doomed
    obtain rfl : transit' = _ := transit
    exact (hr.noted aside).pop _ waiting
  | doom journal aside before after perm doomed transit =>
    obtain rfl : journal' = _ := journal
    obtain rfl : doomed' = _ := doomed
    obtain rfl : transit' = _ := transit
    have hleft : waiting'.Sublist r.waiting := by
      have hafter : waiting' = _ := after
      rw [hafter, before]
      exact List.filter_sublist.append_left _
    exact (hr.noted aside).doom hleft perm
  | evict journal after aside waiting doomed transit =>
    obtain rfl : journal' = _ := journal
    obtain rfl : waiting' = _ := waiting
    obtain rfl : transit' = _ := transit
    exact ((hr.noted aside).evict doomed).noted after
  | enter journal aside mem ended waiting doomed transit =>
    obtain rfl : journal' = _ := journal
    obtain rfl : waiting' = _ := waiting
    obtain rfl : doomed' = _ := doomed
    exact ((hr.noted aside).enter mem ended _ _ _).lessen transit

/-- What waits changes at its two ends only: a new event goes behind the others, the oldest one is
taken, or those that may be evicted leave from some place on. -/
inductive Changes (r r' : Row σ) : Prop
  | stays (waiting : r'.waiting = r.waiting) (popped : pops r'.journal = pops r.journal)
  | joins {posting} (waiting : r'.waiting = r.waiting ++ [posting])
      (popped : pops r'.journal = pops r.journal)
  | taken {posting} (waiting : r.waiting = posting :: r'.waiting)
      (popped : pops r'.journal = pops r.journal ++ [posting.serial])
  | evicted {older younger} (before : r.waiting = older ++ younger)
      (after : r'.waiting = older ++ younger.filter fun p => !p.event.isEvictable)
      (popped : pops r'.journal = pops r.journal)

theorem Shift.changes (h : Shift takes r r') :
    Changes r r' ∧ (takes = false → pops r'.journal = pops r.journal) := by
  cases h with
  | stay journal aside waiting =>
    have hpops : pops r'.journal = pops r.journal := by
      rw [journal, (InOrder.names aside r.journal).2.1]
    exact ⟨.stays waiting hpops, fun _ => hpops⟩
  | @queued news posting now journal aside waiting =>
    have hhead : pops (.admitted posting.serial now :: (news ++ r.journal)) =
        pops (news ++ r.journal) := rfl
    have hpops : pops r'.journal = pops r.journal := by
      rw [journal, hhead, (InOrder.names aside r.journal).2.1]
    exact ⟨.joins waiting hpops, fun _ => hpops⟩
  | @pop news handle posting taking journal aside waiting =>
    have hhead : pops (.popped handle (some posting.serial) :: (news ++ r.journal)) =
        pops (news ++ r.journal) ++ [posting.serial] := List.reverse_cons
    have hpops : pops r'.journal = pops r.journal ++ [posting.serial] := by
      rw [journal, hhead, (InOrder.names aside r.journal).2.1]
    refine ⟨.taken waiting hpops, fun idle => ?_⟩
    rw [taking] at idle
    cases idle
  | doom journal aside before after =>
    have hpops : pops r'.journal = pops r.journal := by
      rw [journal, (InOrder.names aside r.journal).2.1]
    exact ⟨.evicted before after hpops, fun _ => hpops⟩
  | @evict later news posting journal after aside waiting =>
    have hhead : pops (.evicted posting.serial :: (news ++ r.journal)) =
        pops (news ++ r.journal) := rfl
    have hpops : pops r'.journal = pops r.journal := by
      rw [journal, (InOrder.names after _).2.1, hhead, (InOrder.names aside r.journal).2.1]
    exact ⟨.stays waiting hpops, fun _ => hpops⟩
  | @enter news load instanceId serial stopping journal aside mem ended waiting =>
    have hhead : pops (.entered load instanceId (.event (some serial)) stopping ::
        (news ++ r.journal)) = pops (news ++ r.journal) := rfl
    have hpops : pops r'.journal = pops r.journal := by
      rw [journal, hhead, (InOrder.names aside r.journal).2.1]
    exact ⟨.stays waiting hpops, fun _ => hpops⟩

/-- In a row without repetition, what is left in its order is what is not among the rest. -/
private theorem eq_filter_of_sublist {left rest all : List Nat} (order : left.Sublist all)
    (perm : all.Perm (left ++ rest)) (once : all.Nodup) : left = all.filter (· ∉ rest) := by
  have hdisjoint : ∀ a ∈ left, a ∉ rest := by
    intro a ha hr
    have hnodup := perm.nodup_iff.mp once
    exact (List.nodup_append.mp hnodup).2.2 a ha a hr rfl
  have hleft : left.filter (· ∉ rest) = left := by
    apply List.filter_eq_self.mpr
    intro a ha
    exact decide_eq_true (hdisjoint a ha)
  have hrest : rest.filter (· ∉ rest) = [] := by
    apply List.filter_eq_nil_iff.mpr
    intro a ha
    simpa using ha
  have hlength := (perm.filter (· ∉ rest)).length_eq
  rw [List.filter_append, hleft, hrest, List.append_nil] at hlength
  have hsub := order.filter (· ∉ rest)
  rw [hleft] at hsub
  exact hsub.eq_of_length hlength.symm

namespace InOrder

/-- What was taken, and behind it what waits, is what was queued, in the same order, without what
has left to make room. -/
theorem eq_filter (h : r.InOrder) (once : (admissions r.journal).Nodup) :
    pops r.journal ++ r.waiting.map Posting.serial =
      (admissions r.journal).filter (· ∉ r.gone) :=
  eq_filter_of_sublist h.order h.perm once

/-- Once an app has begun to handle an event, no handling of one that was queued earlier begins. -/
theorem none_later (h : r.InOrder) (once : (admissions r.journal).Nodup)
    {later earlier : List Incident} {incident : Incident} {first second : Nat}
    (split : r.journal = later ++ incident :: earlier)
    (enters : incident.enters? = some second)
    (before : [first, second].Sublist (admissions r.journal)) :
    tally Incident.enters? first later = 0 := by
  by_contra hne
  have hmem : first ∈ later.filterMap Incident.enters? :=
    List.count_pos_iff.mp (Nat.pos_of_ne_zero hne)
  obtain ⟨again, hagain, henters⟩ := List.mem_filterMap.mp hmem
  obtain ⟨latest, between, rfl⟩ := List.append_of_mem hagain
  have hturn := h.inTurn
  rw [split, List.append_assoc, List.cons_append] at hturn
  have hfirst := (hturn.began henters).1
  have hsecond : (pops earlier).getLast? = some second := by
    have hrest : InTurn ((latest ++ again :: between) ++ incident :: earlier) := by
      rw [← split]
      exact h.inTurn
    exact (hrest.began enters).1
  have hdistinct : first ≠ second := List.pairwise_iff_forall_sublist.mp once before
  -- the first one would have been taken after the second one
  have hpops : pops (between ++ incident :: earlier) =
      pops earlier ++ pops (between ++ [incident]) := by
    rw [← pops_append, List.append_assoc, List.singleton_append]
  have hafter : first ∈ pops (between ++ [incident]) := by
    rw [hpops] at hfirst
    cases hlast : pops (between ++ [incident]) with
    | nil =>
      rw [hlast, List.append_nil, hsecond] at hfirst
      exact absurd (Option.some.inj hfirst).symm hdistinct
    | cons a l =>
      rw [hlast, List.getLast?_append_cons] at hfirst
      exact List.mem_of_getLast? hfirst
  have hreverse : [second, first].Sublist (pops r.journal) := by
    have hpair : [second, first].Sublist (pops earlier ++ pops (between ++ [incident])) :=
      (List.singleton_sublist.mpr (List.mem_of_getLast? hsecond)).append
        (List.singleton_sublist.mpr hafter)
    have hjournal : r.journal = (latest ++ [again]) ++ (between ++ incident :: earlier) := by
      simp [split]
    rw [hjournal, pops_append, hpops]
    exact hpair.trans (List.sublist_append_left _ _)
  have hpopped : (pops r.journal).Sublist (admissions r.journal) :=
    (List.sublist_append_left _ _).trans h.order
  exact sublist_antisymm_pair once before (hreverse.trans hpopped)

end InOrder

end Row

end SensorHub
