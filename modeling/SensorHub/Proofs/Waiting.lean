import SensorHub.Proofs.Row

namespace SensorHub

variable {σ : Type}

open Ledger

namespace Hub

def transit? (hub : Hub σ) : Cargo σ → Option Nat
  | .slot handle => (hub.pool.inspect handle).map Posting.serial
  | .posting posting => some posting.serial
  | .handler serial => some serial
  | _ => none

def doomed? (hub : Hub σ) : Cargo σ → Option (Posting σ)
  | .doomed handle => hub.pool.inspect handle
  | _ => none

def waiting (hub : Hub σ) : List (Posting σ) :=
  hub.queue.toList.filterMap hub.pool.inspect

def row (hub : Hub σ) (cargo : List (Cargo σ)) : Row σ where
  journal := hub.journal
  waiting := hub.waiting
  doomed := cargo.filterMap hub.doomed?
  transit := cargo.filterMap hub.transit?

theorem line_eq (hub : Hub σ) : hub.waiting.map Posting.serial = hub.line :=
  List.map_filterMap ..

variable {hub hub₁ hub' : Hub σ} {cargo : List (Cargo σ)} {handle : Handle} {posting : Posting σ}
  {takes : Bool} {r' : Row σ}

theorem transit?_eq_none {item : Cargo σ} (h : item.isTransit = false) :
    hub.transit? item = none := by
  cases item with
  | slot | posting | handler => cases h
  | _ => rfl

theorem cargo_congr (same : ∀ k ∈ cargo.filterMap Cargo.stored?,
      hub'.pool.inspect k = hub.pool.inspect k) :
    cargo.filterMap hub'.doomed? = cargo.filterMap hub.doomed? ∧
      cargo.filterMap hub'.transit? = cargo.filterMap hub.transit? := by
  have hitem : ∀ item ∈ cargo, hub'.doomed? item = hub.doomed? item ∧
      hub'.transit? item = hub.transit? item := by
    intro item hi
    cases item with
    | slot k =>
      have hk := same k (List.mem_filterMap.mpr ⟨_, hi, rfl⟩)
      exact ⟨rfl, congrArg (Option.map Posting.serial) hk⟩
    | doomed k => exact ⟨same k (List.mem_filterMap.mpr ⟨_, hi, rfl⟩), rfl⟩
    | _ => exact ⟨rfl, rfl⟩
  exact ⟨List.filterMap_congr fun item hi => (hitem item hi).1,
    List.filterMap_congr fun item hi => (hitem item hi).2⟩

theorem waiting_congr (queue : hub'.queue.toList = hub.queue.toList)
    (same : ∀ k ∈ hub.queue.toList, hub'.pool.inspect k = hub.pool.inspect k) :
    hub'.waiting = hub.waiting := by
  rw [waiting, queue]
  exact List.filterMap_congr same

/-- The row changes with the slots that hold events, and with the journal. -/
theorem row_congr (queue : hub'.queue.toList = hub.queue.toList)
    (same : ∀ k ∈ hub.queue.toList ++ cargo.filterMap Cargo.stored?,
      hub'.pool.inspect k = hub.pool.inspect k) :
    hub'.row cargo = { hub.row cargo with journal := hub'.journal } := by
  have hwaiting := waiting_congr queue fun k hk => same k (List.mem_append_left _ hk)
  obtain ⟨hdoomed, htransit⟩ := cargo_congr fun k hk => same k (List.mem_append_right _ hk)
  simp only [row, hwaiting, hdoomed, htransit]

/-- What happens first and leaves slots and events alone does not matter. -/
theorem shift_calm (calm : hub.Calm hub₁) (h : (hub₁.row cargo).Shift takes r') :
    (hub.row cargo).Shift takes r' := by
  obtain ⟨news, hj, hq⟩ := calm.journal
  have hrow : hub₁.row cargo = { hub.row cargo with journal := news ++ hub.journal } := by
    rw [← hj]
    refine row_congr ?_ fun k _ => calm.inspect k
    rw [calm.queue]
  rw [hrow] at h
  exact .noted (fun i hi => Incident.isAside_of_isQuiet (hq i hi)) h

theorem shift_refl (r : Row σ) : r.Shift takes r :=
  @Row.Shift.stay _ _ _ _ [] rfl (by simp) rfl rfl fun _ hs => hs

theorem shift_record {incident : Incident} (hi : incident.isAside = true)
    (h : ((hub.record incident).row cargo).Shift takes r') : (hub.row cargo).Shift takes r' :=
  @Row.Shift.noted _ _ _ _ [incident] (by simpa using hi) h

theorem Admits.waiting (h : hub.Admits posting handle hub') (hnew : handle ∉ hub.queue.toList) :
    hub'.waiting = hub.waiting ++ [posting.stamped hub.now] := by
  have hold : hub.queue.toList.filterMap hub'.pool.inspect = hub.waiting := by
    refine List.filterMap_congr fun k hk => ?_
    have hne : handle ≠ k := by
      rintro rfl
      exact hnew hk
    rw [h.inspect, if_neg hne]
  have hlast : hub'.pool.inspect handle = some (posting.stamped hub.now) := by
    rw [h.inspect, if_pos rfl]
  rw [Hub.waiting, h.queue, List.filterMap_append, hold, List.filterMap_cons_some hlast,
    List.filterMap_nil]

/-- An event that is queued goes to the end of the row. -/
theorem shift_admits (h : hub.Admits posting handle hub')
    (hnew : handle ∉ hub.queue.toList ++ cargo.filterMap Cargo.stored?) :
    (hub.row cargo).Shift takes (hub'.row cargo) := by
  obtain ⟨news, hj, hq⟩ := h.journal
  have same : ∀ k ∈ cargo.filterMap Cargo.stored?, hub'.pool.inspect k = hub.pool.inspect k := by
    intro k hk
    have hne : handle ≠ k := by
      rintro rfl
      exact hnew (List.mem_append_right _ hk)
    rw [h.inspect, if_neg hne]
  obtain ⟨hdoomed, htransit⟩ := cargo_congr same
  have hwaiting := h.waiting fun hk => hnew (List.mem_append_left _ hk)
  exact @Row.Shift.queued _ _ _ _ news (posting.stamped hub.now) hub.now hj
    (fun i hi => Incident.isAside_of_isQuiet (hq i hi)) hwaiting hdoomed htransit

/-- Which events may be evicted is seen on their handles. -/
theorem filterMap_evictable (hub : Hub σ) (handles : List Handle) :
    (handles.filter fun k => !hub.evictable k).filterMap hub.pool.inspect =
      (handles.filterMap hub.pool.inspect).filter fun p => !p.event.isEvictable := by
  induction handles with
  | nil => rfl
  | cons k handles ih =>
    cases hk : hub.pool.inspect k with
    | none =>
      have hstays : hub.evictable k = false := by simp [evictable, hk]
      simp [hstays, hk, ih]
    | some p =>
      have hgoes : hub.evictable k = p.event.isEvictable := by simp [evictable, hk]
      cases hp : p.event.isEvictable with
      | true => simp [hgoes, hk, hp, ih]
      | false => simp [hgoes, hk, hp, ih]

/-- What is left when events were evicted waits in its order. -/
theorem Evicts.waiting {evicted : List Handle} (h : hub.Evicts evicted hub') :
    hub'.waiting.Sublist hub.waiting := by
  unfold Hub.waiting
  rw [h.pool]
  exact h.order.filterMap hub.pool.inspect

theorem shift_evicts {evicted : List Handle} (h : hub.Evicts evicted hub') :
    (hub.row cargo).Shift takes (hub'.row (evicted.map .doomed ++ cargo)) := by
  obtain ⟨older, younger, hbefore, hafter⟩ := h.tail
  have before : hub.waiting =
      older.filterMap hub.pool.inspect ++ younger.filterMap hub.pool.inspect := by
    rw [waiting, hbefore, List.filterMap_append]
  have after : hub'.waiting = older.filterMap hub.pool.inspect ++
      (younger.filterMap hub.pool.inspect).filter fun p => !p.event.isEvictable := by
    rw [waiting, h.pool, hafter, List.filterMap_append, filterMap_evictable]
  have perm : (evicted.filterMap hub.pool.inspect ++ hub'.waiting).Perm hub.waiting := by
    have hperm := h.perm.filterMap hub.pool.inspect
    rw [List.filterMap_append] at hperm
    rw [waiting, h.pool]
    exact hperm
  have same : ∀ k ∈ cargo.filterMap Cargo.stored?, hub'.pool.inspect k = hub.pool.inspect k := by
    intro k _
    rw [h.pool]
  obtain ⟨hdoomed, htransit⟩ := cargo_congr same
  have doomed : (evicted.map (@Cargo.doomed σ) ++ cargo).filterMap hub'.doomed? =
      evicted.filterMap hub.pool.inspect ++ cargo.filterMap hub.doomed? := by
    rw [List.filterMap_append, hdoomed, List.filterMap_map, ← h.pool]
    rfl
  have transit : (evicted.map (@Cargo.doomed σ) ++ cargo).filterMap hub'.transit? =
      cargo.filterMap hub.transit? := by
    rw [List.filterMap_append, htransit, List.filterMap_map]
    simp [Function.comp_def, transit?]
  exact @Row.Shift.doom _ _ _ _ [] _ _ _ h.journal (by simp) before after perm doomed transit

theorem shift_posted (ht : hub.Tidy cargo) {frames : List (Frame σ)}
    (h : hub.Posted posting hub' frames) :
    (hub.row cargo).Shift takes (hub'.row (frames.flatMap Frame.cargo ++ cargo)) := by
  rcases posted_cases ht.sound h with
    ⟨-, rfl, handle, admits, hnew, -⟩ | ⟨-, evicted, evicts, rfl⟩ | ⟨-, calm, rfl⟩ |
    ⟨callback, hub₁, -, calm, rfl, rfl⟩ | ⟨work, -, -, rfl, rfl⟩
  · refine shift_admits admits fun hm => hnew ?_
    rcases List.mem_append.mp hm with hm | hm
    · exact List.mem_append_left _ hm
    · exact List.mem_append_right _ (Tidy.handle_of_stored hm)
  · have hevict : (hub.row cargo).Shift takes (hub'.row (evicted.map .doomed ++ cargo)) :=
      shift_evicts evicts
    -- the event that waits for a slot is not in the row
    have hsame : hub'.row (evicted.map .doomed ++ .waiting posting :: cargo) =
        hub'.row (evicted.map .doomed ++ cargo) := by
      simp only [row, List.filterMap_append]
      rfl
    rw [← hsame] at hevict
    simp only [List.flatMap_cons, List.flatMap_nil, List.append_assoc, Frame.cargo]
    exact hevict
  · exact shift_calm calm (shift_refl _)
  · exact shift_calm calm (shift_record rfl (shift_refl _))
  · exact shift_record rfl (shift_refl _)

/-- Taking an event out of its slot leaves the others in the row. -/
theorem row_take {item : Cargo σ} (hi : item.handle? = some handle)
    (ht : hub.Tidy (item :: cargo)) :
    (hub.take handle).2.row cargo = hub.row cargo :=
  row_congr rfl (ht.inspect_take hi)

theorem row_vacate (ht : hub.Tidy (.spent handle :: cargo)) :
    (hub.vacate handle).row cargo = hub.row cargo := by
  obtain ⟨pool, heq, -, hinspect⟩ := ht.vacate_eq
  rw [heq]
  exact row_congr rfl hinspect

theorem shift_arrived {item : Cargo σ} (h : hub.doomed? item = none) :
    (hub.row (item :: cargo)).Shift takes (hub.row cargo) := by
  have hdoomed : (item :: cargo).filterMap hub.doomed? = cargo.filterMap hub.doomed? :=
    List.filterMap_cons_none h
  have htransit : ∀ serial ∈ cargo.filterMap hub.transit?,
      serial ∈ (item :: cargo).filterMap hub.transit? := by
    intro serial hs
    exact ((List.sublist_cons_self item cargo).filterMap _).subset hs
  exact @Row.Shift.stay _ _ _ _ [] rfl (by simp) rfl hdoomed.symm htransit

/-- The event at the front of the row is taken, when no event is on its way. -/
theorem shift_pop (h : hub.pop? = some (handle, hub')) (taking : takes = true)
    (held : hub.pool.inspect handle = some posting)
    (alone : cargo.filterMap hub.transit? = []) :
    (hub.row cargo).Shift takes (hub'.row (.slot handle :: cargo)) := by
  obtain ⟨queue, hlist, rfl⟩ := pop?_eq_some h
  have hjournal : (.popped handle ((hub.pool.inspect handle).map Posting.serial) :: hub.journal) =
      .popped handle (some posting.serial) :: ([] ++ hub.journal) := by
    rw [held]
    rfl
  have hwaiting : hub.waiting = posting :: queue.toList.filterMap hub.pool.inspect := by
    rw [waiting, hlist]
    exact List.filterMap_cons_some held
  have hslot : hub.transit? (.slot handle) = some posting.serial :=
    congrArg (Option.map Posting.serial) held
  have htransit : (.slot handle :: cargo).filterMap hub.transit? = [posting.serial] := by
    rw [List.filterMap_cons_some hslot, alone]
  exact .pop taking hjournal (by simp) hwaiting rfl htransit

theorem detach_eq {frames : List (Frame σ)} (h : hub.detach posting = (hub', frames)) :
    ∃ news, hub' = { hub with journal := news ++ hub.journal } ∧
      ∀ i ∈ news, i.isAside = true := by
  rcases detach_cases h with ⟨-, rfl, -⟩ | ⟨callback, -, rfl, -⟩ | ⟨work, -, rfl, -⟩
  · exact ⟨[], rfl, by simp⟩
  · refine ⟨[.freed posting.serial posting.event.type posting.event.payload], rfl, ?_⟩
    simp [Incident.isAside]
  · refine ⟨[.logged (.taskDiscarded posting.event.type), .discarded posting.serial], rfl, ?_⟩
    simp [Incident.isAside]

end Hub

namespace Frame

variable {hub hub' : Hub σ} {frame : Frame σ} {frames : List (Frame σ)} {below : List (Cargo σ)}

/-- An event that is taken out of its slot to be offered, or to be completed, was on its way
before. -/
private theorem shift_take {handle : Handle} {posting : Posting σ} {takes : Bool}
    {news : List Incident} (ht : hub.Tidy (.slot handle :: below))
    (held : hub.pool.inspect handle = some posting) (aside : ∀ i ∈ news, i.isAside = true)
    (journal : hub'.journal = news ++ hub.journal)
    (same : hub'.row below = { (hub.take handle).2.row below with journal := hub'.journal }) :
    (hub.row (.slot handle :: below)).Shift takes
      (hub'.row (.posting posting :: .spent handle :: below)) := by
  have hrow : (hub.take handle).2.row below = hub.row below := Hub.row_take rfl ht
  rw [hrow] at same
  have hwaiting : hub'.waiting = hub.waiting := congrArg Row.waiting same
  have hdoomed : below.filterMap hub'.doomed? = below.filterMap hub.doomed? :=
    congrArg Row.doomed same
  have htransit : below.filterMap hub'.transit? = below.filterMap hub.transit? :=
    congrArg Row.transit same
  have hslot : hub.transit? (.slot handle) = some posting.serial :=
    congrArg (Option.map Posting.serial) held
  have hbefore : (.slot handle :: below).filterMap hub.transit? =
      posting.serial :: below.filterMap hub'.transit? := by
    rw [List.filterMap_cons_some hslot, htransit]
  refine .stay journal aside hwaiting hdoomed fun serial hs => ?_
  show serial ∈ (.slot handle :: below).filterMap hub.transit?
  rw [hbefore]
  exact hs

/-- Every step shifts the row in one of the listed ways. -/
theorem Traffic.shift (h : frame.Traffic hub hub' frames) (ht : hub.Tidy (frame.cargo ++ below))
    (hb : (hub.books (frame.cargo ++ below)).Balanced)
    (heavy : frame.isLight = false → below.filterMap Cargo.handler? = [])
    (alone : frame.isGuest = false →
      ∀ item ∈ below, item.isTransit = true → ∃ serial, item = .handler serial) :
    (hub.row (frame.cargo ++ below)).Shift frame.takes
      (hub'.row (frames.flatMap Frame.cargo ++ below)) := by
  cases h with
  | pass calm cargo =>
    rw [cargo]
    exact Hub.shift_calm calm (Hub.shift_refl _)
  | @post _ hub₀ way event completion hub₁ _ upper lower calm kind calm' direct _ posted cargo =>
    rw [List.flatMap_append, List.append_assoc, cargo]
    have ht₁ := ((ht.calm calm).offer way event completion).calm calm'
    have hposted : (hub₁.row (frame.cargo ++ below)).Shift frame.takes
        (hub'.row (upper.flatMap Frame.cargo ++ (frame.cargo ++ below))) :=
      Hub.shift_posted ht₁ posted
    have hoffered : ((hub₀.offer way event completion).2.row (frame.cargo ++ below)).Shift
        frame.takes (hub'.row (upper.flatMap Frame.cargo ++ (frame.cargo ++ below))) :=
      Hub.shift_calm calm' hposted
    have hoffer : (hub₀.row (frame.cargo ++ below)).Shift frame.takes
        (hub'.row (upper.flatMap Frame.cargo ++ (frame.cargo ++ below))) :=
      Hub.shift_record rfl hoffered
    exact Hub.shift_calm calm hoffer
  | enqueue he =>
    obtain ⟨handle, admits, hnew, -⟩ := Hub.enqueue_true ht.sound he
    refine Hub.shift_admits admits fun hm => hnew ?_
    rcases List.mem_append.mp hm with hm | hm
    · exact List.mem_append_left _ hm
    · exact List.mem_append_right _ (Hub.Tidy.handle_of_stored hm)
  | @evict handle rest posting _ frames held hd =>
    have ht' : hub.Tidy (.doomed handle :: (rest.map .doomed ++ below)) := ht
    have hrow : (hub.take handle).2.row (rest.map .doomed ++ below) =
        hub.row (rest.map .doomed ++ below) := Hub.row_take rfl ht'
    have hdoomed : (hub.row (.doomed handle :: (rest.map .doomed ++ below))).doomed =
        posting :: (hub.row (rest.map .doomed ++ below)).doomed := List.filterMap_cons_some held
    have hcargo : (frames ++ [Frame.vacate handle, Frame.evict rest]).flatMap Frame.cargo ++ below =
        .spent handle :: (rest.map .doomed ++ below) := by
      rw [List.flatMap_append, cargo_detach hd]
      simp [cargo]
    obtain ⟨news, rfl, aside⟩ := Hub.detach_eq hd
    rw [hcargo]
    have hwaiting : (hub.take handle).2.waiting = hub.waiting := congrArg Row.waiting hrow
    have hleft : ((hub.take handle).2.row (rest.map .doomed ++ below)).doomed =
        (hub.row (rest.map .doomed ++ below)).doomed := congrArg Row.doomed hrow
    have htransit : ((hub.take handle).2.row (rest.map .doomed ++ below)).transit =
        (hub.row (rest.map .doomed ++ below)).transit := congrArg Row.transit hrow
    rw [← hleft] at hdoomed
    exact @Row.Shift.evict _ _ _ _ news [] posting rfl aside (by simp) hwaiting hdoomed htransit
  | @vacate handle =>
    have hrow : (hub.vacate handle).row below = hub.row below := Hub.row_vacate ht
    show (hub.row below).Shift _ ((hub.vacate handle).row below)
    rw [hrow]
    exact Hub.shift_refl _
  | @pop _ hub₁ handle _ _ calm hp how =>
    obtain ⟨hframe, hframes⟩ := how.cargo
    obtain ⟨takes, light, guest⟩ :
        frame.takes = true ∧ frame.isLight = false ∧ frame.isGuest = false := by
      cases how with
      | flush | idle | await | drain => exact ⟨rfl, rfl, rfl⟩
    have hnone : below.filterMap hub₁.transit? = [] := by
      apply List.filterMap_eq_nil_iff.mpr
      intro item hi
      cases htransit : item.isTransit with
      | false => exact Hub.transit?_eq_none htransit
      | true =>
        obtain ⟨serial, rfl⟩ := alone guest item hi htransit
        have hmem : serial ∈ below.filterMap Cargo.handler? :=
          List.mem_filterMap.mpr ⟨_, hi, rfl⟩
        rw [heavy light] at hmem
        cases hmem
    rw [hframe, List.nil_append] at ht ⊢
    rw [hframes]
    have hqueued : handle ∈ hub₁.queue.toList := by
      obtain ⟨queue, hlist, -⟩ := Hub.pop?_eq_some hp
      rw [hlist]
      exact List.mem_cons_self ..
    have hstored := (ht.calm calm).stored handle (List.mem_append_left _ hqueued)
    obtain ⟨posting, held⟩ := Option.isSome_iff_exists.mp hstored
    exact Hub.shift_calm calm (Hub.shift_pop hp takes held hnone)
  | @dispatch handle posting held =>
    have aside : ∀ i ∈ [Incident.distributing posting.serial], i.isAside = true := by
      simp [Incident.isAside]
    exact shift_take ht held aside rfl rfl
  | discard held => exact @shift_take _ _ _ _ _ _ _ [] ht held (by simp) rfl rfl
  | hollow mem held => exact absurd held (ht.not_hollow mem)
  | @deliver posting index reached hub₁ load instanceId stopping routine calm =>
    have hb₁ : (hub₁.books (.posting posting :: below)).Balanced :=
      (Hub.moves_calm calm _).balanced hb
    have hactive : (Cargo.posting posting :: below).filterMap Cargo.handler? = [] := heavy rfl
    have hended : ∀ other, tally Incident.enters? other hub₁.journal =
        tally Incident.leaves? other hub₁.journal := by
      intro other
      have hhandled := hb₁.handled other
      simp only [Hub.books, hactive, List.count_nil, Nat.add_zero] at hhandled
      exact hhandled
    refine Hub.shift_calm calm ?_
    refine @Row.Shift.enter _ _ _ _ [] load instanceId posting.serial stopping rfl (by simp)
      (List.mem_cons_self ..) hended rfl rfl fun serial hs => ?_
    rcases List.mem_cons.mp hs with rfl | hs
    · exact List.mem_cons_self ..
    · exact hs
  | leave => exact Hub.shift_record rfl (Hub.shift_arrived rfl)
  | forget => exact Hub.shift_arrived rfl
  | free _ calm => exact Hub.shift_calm calm (Hub.shift_record rfl (Hub.shift_arrived rfl))
  | work _ calm cargo _ =>
    rw [cargo]
    exact Hub.shift_record rfl (Hub.shift_calm calm (Hub.shift_arrived rfl))

end Frame

namespace Machine

def row (m : Machine σ) : Row σ :=
  m.hub.row m.cargo

theorem Reachable.shift {hub hub' : Hub σ} {frame : Frame σ} {frames rest : List (Frame σ)}
    (hm : Reachable ⟨hub, frame :: rest⟩) (h : frame.step hub = .go hub' frames) :
    (row ⟨hub, frame :: rest⟩).Shift frame.takes (row ⟨hub', frames ++ rest⟩) := by
  simp only [row, cargo, List.flatMap_append]
  refine (hm.traffic h).shift hm.tidy hm.balanced (fun light => ?_) fun heavy => ?_
  · exact handlers_eq_nil (hm.nested.2.1 light)
  · exact hm.prompt.handlers heavy

theorem Reachable.inOrder {m : Machine σ} (hm : m.Reachable) : m.row.InOrder := by
  refine hm.keeps (P := fun hub frames => (row ⟨hub, frames⟩).InOrder) ?_ ?_ ?_
  · intro config collaborators memory now routine _
    refine ⟨.refl _, .refl _, ?_, ?_, trivial⟩
    · intro handle hm
      cases hm
    · intro serial hs
      cases hs
  · intro hub hub' frame frames rest hm hr h
    exact (hm.shift h).inOrder hr
  · intro hub frames routine hr
    exact hr

end Machine

end SensorHub
