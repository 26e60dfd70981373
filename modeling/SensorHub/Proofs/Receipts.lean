import SensorHub.Proofs.Directory
import SensorHub.Proofs.Service

namespace SensorHub

variable {σ : Type}

namespace Incident

def receives? (load : Nat) : Incident → Option Nat
  | .entered other _ (.event serial) _ => if other = load then serial else none
  | _ => none

theorem enters?_of_receives {i : Incident} {load serial : Nat}
    (h : i.receives? load = some serial) : i.enters? = some serial := by
  cases i with
  | entered other instanceId point stopping =>
    cases point with
    | event number =>
      by_cases hload : other = load
      · simpa [receives?, hload, enters?, EntryPoint.serial?] using h
      · simp [receives?, hload] at h
    | _ => cases h
  | _ => cases h

theorem owner?_of_receives {i : Incident} {load serial : Nat} (h : i.receives? load = some serial) :
    i.owner?.isSome = true := by
  cases i with
  | entered => rfl
  | _ => cases h

end Incident

/-- The numbers of the queued events that the app with this load has received, in the order in which
it did. -/
def receipts (load : Nat) (journal : List Incident) : List Nat :=
  (journal.filterMap (Incident.receives? load)).reverse

theorem receipts_cons (load : Nat) (incident : Incident) (journal : List Incident) :
    receipts load (incident :: journal) =
      receipts load journal ++ (incident.receives? load).toList := by
  cases h : incident.receives? load with
  | none =>
    rw [receipts, List.filterMap_cons_none h, receipts]
    simp
  | some serial =>
    rw [receipts, List.filterMap_cons_some h, List.reverse_cons, receipts]
    rfl

theorem mem_receipts {load serial : Nat} {journal : List Incident} :
    serial ∈ receipts load journal ↔
      ∃ incident ∈ journal, incident.receives? load = some serial := by
  rw [receipts, List.mem_reverse, List.mem_filterMap]

/-- What no app has received this one has not received. -/
theorem not_mem_receipts {load serial : Nat} {journal : List Incident}
    (h : tally Incident.enters? serial journal = 0) : serial ∉ receipts load journal := by
  intro hmem
  obtain ⟨incident, hi, hreceives⟩ := mem_receipts.mp hmem
  have hone : 0 < tally Incident.enters? serial journal :=
    List.count_pos_iff.mpr
      (List.mem_filterMap.mpr ⟨incident, hi, Incident.enters?_of_receives hreceives⟩)
  omega

theorem Member.Received.mem_receipts {member : Member} {serial : Nat} {journal : List Incident}
    (h : member.Received serial journal) : serial ∈ receipts member.load journal := by
  obtain ⟨stopping, hentered⟩ := h
  exact SensorHub.mem_receipts.mpr ⟨_, hentered, by simp [Incident.receives?]⟩

/-- The last entry of a list may follow those of its entries that it is not among. -/
theorem sublist_concat_of_getLast? {α : Type} {a : α} {part whole : List α}
    (sub : part.Sublist whole) (last : whole.getLast? = some a) (absent : a ∉ part) :
    (part ++ [a]).Sublist whole := by
  obtain ⟨front, rfl⟩ := List.getLast?_eq_some_iff.mp last
  obtain ⟨part₁, part₂, rfl, hfront, hback⟩ := List.sublist_append_iff.mp sub
  have hnone : part₂ = [] := by
    cases part₂ with
    | nil => rfl
    | cons b part₂ =>
      have hb : b = a := List.mem_singleton.mp (hback.subset (List.mem_cons_self ..))
      subst hb
      exact absurd (List.mem_append_right _ (List.mem_cons_self ..)) absent
  rw [hnone, List.append_nil]
  exact hfront.append_right [a]

theorem Hub.receipts_deeds (hub : Hub σ) (load : Nat) :
    receipts load hub.records.deeds = receipts load hub.journal := by
  have hdeeds : hub.records.deeds = hub.journal.filter fun i => i.owner?.isSome := rfl
  rw [receipts, hdeeds, List.filterMap_filter, receipts]
  congr 1
  refine List.filterMap_congr fun i _ => ?_
  cases h : i.receives? load with
  | none => simp
  | some serial => simp [Incident.owner?_of_receives h]

namespace Frame

variable {hub hub' : Hub σ} {frame : Frame σ} {frames : List (Frame σ)} {r r' : Records σ}

/-- What apps receive is recorded by the frame that brings an event to the app at its seat. -/
theorem Turnover.receives (t : frame.Turnover r r' frames) :
    (∀ load, receipts load r'.deeds = receipts load r.deeds) ∨
    ∃ posting index reached load info, frame = .distribute posting index reached ∧
      r.roster[index]? = some (load, info) ∧ ∀ other, receipts other r'.deeds =
        receipts other r.deeds ++ if load = other then [posting.serial] else [] := by
  have noted : ∀ {deed : Incident}, (∀ load, deed.receives? load = none) →
      ∀ load, receipts load (r.note deed).deeds = receipts load r.deeds := by
    intro deed hnone load
    refine (receipts_cons load deed r.deeds).trans ?_
    rw [hnone load]
    exact List.append_nil _
  cases t with
  | @enter _ index load serial stopping routine lower info apart placed idle queued =>
    cases serial with
    | none => exact .inl (noted fun other => by simp [Incident.receives?])
    | some serial =>
      obtain ⟨posting, reached, rfl, rfl⟩ := queued serial rfl
      refine .inr ⟨posting, index, reached, load, info, rfl, placed, fun other => ?_⟩
      refine (receipts_cons ..).trans ?_
      by_cases hload : load = other
      · simp [Incident.receives?, hload]
      · simp [Incident.receives?, hload]
  | join =>
    refine .inl fun load => ?_
    refine (receipts_cons ..).trans ?_
    refine (List.append_nil _).trans ?_
    refine (receipts_cons ..).trans ?_
    exact List.append_nil _
  | started | failed | left | finish | release => exact .inl (noted fun _ => rfl)
  | erase =>
    refine .inl fun load => (receipts_cons ..).trans ?_
    exact List.append_nil _
  | apart | depart | work | mark | gone | settle | missing | remove | released =>
    exact .inl fun _ => rfl

theorem step_receives (placed : ∀ i, frame.index? = some i → i < hub.apps.length)
    (h : frame.step hub = .go hub' frames) :
    (∀ load, receipts load hub'.journal = receipts load hub.journal) ∨
    ∃ posting index reached member, frame = .distribute posting index reached ∧
      hub.members[index]? = some member ∧ ∀ other, receipts other hub'.journal =
        receipts other hub.journal ++ if member.load = other then [posting.serial] else [] := by
  obtain ⟨turnover, -⟩ := step_turnover placed h
  rcases turnover.receives with hsame | ⟨posting, index, reached, load, info, rfl, hplaced, hnew⟩
  · refine .inl fun load => ?_
    have hload := hsame load
    rw [Hub.receipts_deeds, Hub.receipts_deeds] at hload
    exact hload
  · have hmember : hub.members[index]?.map (fun member => (member.load, member.info)) =
        some (load, info) := (List.getElem?_map ..).symm.trans hplaced
    obtain ⟨member, hm, he⟩ := Option.map_eq_some_iff.mp hmember
    cases he
    refine .inr ⟨posting, index, reached, member, rfl, hm, fun other => ?_⟩
    have hother := hnew other
    rw [Hub.receipts_deeds, Hub.receipts_deeds] at hother
    exact hother

end Frame

namespace Machine

variable {m first : Machine σ} {hub hub' : Hub σ} {frame : Frame σ} {frames rest : List (Frame σ)}
  {posting : Posting σ}

/-- Apps have received events in the order in which these were taken from the queue, and those from
the seat of an event on have not received this one. -/
structure Heard (hub : Hub σ) (frames : List (Frame σ)) : Prop where
  order : ∀ load, (receipts load hub.journal).Sublist (SensorHub.pops hub.journal)
  unheard : ∀ f ∈ frames, ∀ posting seat, f.offering? hub = some (posting, seat) →
    ∀ place member, seat ≤ place → hub.members[place]? = some member →
      posting.serial ∉ receipts member.load hub.journal

theorem Reachable.load_ne (hm : m.Reachable) {place place' : Nat} {member member' : Member}
    (h : m.hub.members[place]? = some member) (h' : m.hub.members[place']? = some member')
    (hne : place ≠ place') : member.load ≠ member'.load := by
  have hnumbers := hm.enrolled.numbers
  have number_at : ∀ {i : Nat} {other : Member}, m.hub.members[i]? = some other →
      (m.hub.records.roster.map Prod.fst)[i]? = some other.load := by
    intro i other hi
    have hroster : m.hub.records.roster =
        m.hub.members.map fun member => (member.load, member.info) := rfl
    rw [hroster, List.map_map, List.getElem?_map, hi]
    rfl
  intro he
  have hlt : place < (m.hub.records.roster.map Prod.fst).length :=
    (List.getElem?_eq_some_iff.mp (number_at h)).1
  refine hne ((List.getElem?_inj hlt hnumbers).mp ?_)
  rw [number_at h, number_at h', he]

/-- While an event is offered nothing is taken from the queue. -/
theorem Reachable.pops_of_offering (hm : Reachable ⟨hub, frame :: rest⟩)
    (h : frame.step hub = .go hub' frames) {offered : Posting σ × Nat}
    (ho : frame.offering? hub = some offered) :
    SensorHub.pops hub'.journal = SensorHub.pops hub.journal := by
  rcases hm.pops h with hsame | ⟨handle, posting, how, -⟩
  · exact hsame
  · cases how with
    | flush | idle | await | drain => cases ho

private theorem order_step (hm : Reachable ⟨hub, frame :: rest⟩)
    (h : frame.step hub = .go hub' frames) (heard : Heard hub (frame :: rest)) :
    ∀ load, (receipts load hub'.journal).Sublist (SensorHub.pops hub'.journal) := by
  intro load
  rcases Frame.step_receives hm.nested.1 h with
    hsame | ⟨posting, index, reached, member, rfl, hmember, hnew⟩
  · rw [hsame]
    rcases hm.pops h with hpops | ⟨handle, posting, -, -, hpops⟩
    · rw [hpops]
      exact heard.order load
    · rw [hpops]
      exact (heard.order load).trans (List.sublist_append_left ..)
  · rw [hm.pops_of_offering h rfl, hnew]
    by_cases hload : member.load = load
    · have htransit : posting.serial ∈
          Row.transit (row ⟨hub, .distribute posting index reached :: rest⟩) :=
        List.mem_cons_self ..
      have hlast := hm.inOrder.current _ htransit
      have habsent := heard.unheard _ (List.mem_cons_self ..) posting index rfl index member
        (Nat.le_refl _) hmember
      rw [if_pos hload]
      subst hload
      exact sublist_concat_of_getLast? (heard.order _) hlast habsent
    · rw [if_neg hload, List.append_nil]
      exact heard.order load

private theorem unheard_step (hm : Reachable ⟨hub, frame :: rest⟩)
    (h : frame.step hub = .go hub' frames) (heard : Heard hub (frame :: rest)) :
    ∀ f ∈ frames ++ rest, ∀ posting seat, f.offering? hub' = some (posting, seat) →
      ∀ place member, seat ≤ place → hub'.members[place]? = some member →
        posting.serial ∉ receipts member.load hub'.journal := by
  intro f hf posting seat ho place member hle hmember
  rcases Frame.step_receives hm.nested.1 h with
    hsame | ⟨offered, index, reached, receiver, rfl, hreceiver, hnew⟩
  · rw [hsame]
    rcases List.mem_append.mp hf with hf | hf
    · have bring : ∀ seat', seat' ≤ seat → frame.offering? hub = some (posting, seat') →
          posting.serial ∉ receipts member.load hub.journal := by
        intro seat' hseat hbefore
        obtain ⟨hmembers, -⟩ := Frame.step_offering hm.tidy hbefore h
        rw [hmembers] at hmember
        exact heard.unheard frame (List.mem_cons_self ..) posting seat' hbefore place member
          (Nat.le_trans hseat hle) hmember
      rcases (hm.advance h).offering hf ho with
        ⟨rfl, hbefore⟩ | ⟨index, reached, rfl, rfl⟩ | ⟨-, handle, hfront, held, -, -⟩
      · exact bring 0 (Nat.le_refl _) hbefore
      · exact bring index (Nat.le_succ _) rfl
      · refine not_mem_receipts (hm.balanced.fresh posting ?_)
        refine List.mem_append_left _ (List.mem_filterMap.mpr ⟨handle, ?_, held⟩)
        exact List.mem_append_left _ (List.mem_of_head? hfront)
    · rw [(hm.traffic h).offering_below hm.tidy hf] at ho
      rw [(hm.members_below h hf ho).2 place hle] at hmember
      exact heard.unheard f (List.mem_cons_of_mem _ hf) posting seat ho place member hle hmember
  · obtain ⟨hmembers, -⟩ := Frame.step_distribute h
    rcases List.mem_append.mp hf with hf | hf
    · -- the next seat is behind the app that has received the event
      obtain ⟨rfl, rfl⟩ : posting = offered ∧ seat = index + 1 := by
        rcases Hub.offerTo_cases h with ⟨app, -, -, -, rfl⟩ | ⟨app, -, -, -, rfl⟩ | ⟨-, -, rfl⟩
        · simp only [Hub.deliverTo, List.cons_append, List.nil_append, List.mem_cons,
            List.not_mem_nil, or_false] at hf
          rcases hf with rfl | rfl | rfl
          · cases ho
          · cases ho
          · cases ho
            exact ⟨rfl, rfl⟩
        · rw [List.mem_singleton.mp hf] at ho
          cases ho
          exact ⟨rfl, rfl⟩
        · rw [List.mem_singleton.mp hf] at ho
          cases ho
      rw [hmembers] at hmember
      have hne : index ≠ place := by omega
      rw [hnew, if_neg (hm.load_ne hreceiver hmember hne), List.append_nil]
      exact heard.unheard _ (List.mem_cons_self ..) posting index rfl place member
        (Nat.le_of_succ_le hle) hmember
    · rw [(hm.traffic h).offering_below hm.tidy hf] at ho
      cases (hm.members_below h hf ho).1

/-- In every run apps hear of events in the order of the queue. -/
theorem Reachable.heard (hm : m.Reachable) : Heard m.hub m.frames := by
  refine hm.keeps (P := fun hub frames => Heard hub frames) ?_ ?_ ?_
  · intro config collaborators memory now routine _
    refine ⟨fun load => .refl _, fun f hf posting seat ho => ?_⟩
    rw [List.mem_singleton.mp hf] at ho
    cases ho
  · intro hub hub' frame frames rest hm heard h
    exact ⟨order_step hm h heard, unheard_step hm h heard⟩
  · intro hub frames routine heard
    refine ⟨heard.order, fun f hf posting seat ho => ?_⟩
    rcases List.mem_cons.mp hf with rfl | hf
    · cases ho
    · exact heard.unheard f hf posting seat ho

/-- An app receives events in the order in which they were queued, and none of them twice. -/
theorem Reachable.receipts_in_order (hm : m.Reachable) (load : Nat) :
    (receipts load m.hub.journal).Sublist (admissions m.hub.journal) ∧
      (receipts load m.hub.journal).Nodup := by
  have htaken : (SensorHub.pops m.hub.journal).Sublist (admissions m.hub.journal) :=
    (List.sublist_append_left ..).trans hm.inOrder.order
  have hsub := (hm.heard.order load).trans htaken
  exact ⟨hsub, hsub.nodup hm.lined.once⟩

/-- The loop is about to offer the event to the first app. -/
def Dispatches (m : Machine σ) (posting : Posting σ) : Prop :=
  ∃ rest, m.frames = .distribute posting 0 false :: rest

/-- From the dispatch of an event on, it is still on its way, or every app that was loaded then and
wanted it has received it. -/
theorem Dispatches.offered (hfirst : first.Reachable) (h : first.Dispatches posting)
    (hr : first.Reaches m) :
    (∃ f ∈ m.frames, ∃ seat, f.offering? m.hub = some (posting, seat) ∧
      Offered first m posting seat) ∨
    ∀ app ∈ first.hub.apps, Hub.wanted posting.event app.nanoapp = true →
      app.nanoapp.member.Received posting.serial m.hub.journal := by
  refine hr.keeps (P := fun hub frames =>
    (∃ f ∈ frames, ∃ seat, f.offering? hub = some (posting, seat) ∧
      Offered first ⟨hub, frames⟩ posting seat) ∨
    ∀ app ∈ first.hub.apps, Hub.wanted posting.event app.nanoapp = true →
      app.nanoapp.member.Received posting.serial hub.journal) ?_ ?_ ?_
  · obtain ⟨rest, hframes⟩ := h
    refine .inl ⟨.distribute posting 0 false, ?_, 0, rfl, fun _ _ => rfl, fun place hlt => ?_⟩
    · rw [hframes]
      exact List.mem_cons_self ..
    · exact absurd hlt (Nat.not_lt_zero place)
  · intro hub hub' frame frames rest hr before hstep
    have hm : Reachable ⟨hub, frame :: rest⟩ := hfirst.reaches hr
    have hmove : Move ⟨hub, frame :: rest⟩ ⟨hub', frames ++ rest⟩ := .of_go hstep
    rcases before with ⟨f, hf, seat, ho, hoffered⟩ | hall
    · rcases List.mem_cons.mp hf with rfl | hf
      · obtain ⟨-, ⟨next, hnext, seat', ho'⟩ | hnone⟩ := Frame.step_offering hm.tidy ho hstep
        · exact .inl ⟨next, List.mem_append_left _ hnext, seat', ho',
            hoffered.step hm hstep ho hnext ho'⟩
        · refine .inr fun app ha hw => ?_
          exact hmove.received hm (hoffered.delivered hnone app ha hw)
      · refine .inl ⟨f, List.mem_append_right _ hf, seat, ?_, hoffered.below hm hstep hf ho⟩
        rw [(hm.traffic hstep).offering_below hm.tidy hf]
        exact ho
    · exact .inr fun app ha hw => hmove.received hm (hall app ha hw)
  · intro hub frames routine hr before
    have hm : Reachable ⟨hub, frames⟩ := hfirst.reaches hr
    rcases before with ⟨f, hf, seat, ho, hoffered⟩ | hall
    · exact .inl ⟨f, List.mem_cons_of_mem _ hf, seat, ho,
        hoffered.move hm (.interrupt routine) fun _ _ => rfl⟩
    · exact .inr hall

/-- Once an event is not offered any more, every app that was loaded at its dispatch and wanted it
has received it once. -/
theorem Dispatches.received_once (hfirst : first.Reachable) (h : first.Dispatches posting)
    (hr : first.Reaches m) {app : App σ} (ha : app ∈ first.hub.apps)
    (hw : Hub.wanted posting.event app.nanoapp = true) :
    (receipts app.nanoapp.load m.hub.journal).count posting.serial = 1 ∨
      m.Offering posting.serial := by
  rcases h.offered hfirst hr with ⟨f, hf, seat, ho, -⟩ | hall
  · exact .inr ⟨f, hf, posting, seat, ho, rfl⟩
  · have hmem := (hall app ha hw).mem_receipts
    exact .inl (List.count_eq_one_of_mem ((hfirst.reaches hr).receipts_in_order _).2 hmem)

end Machine

end SensorHub
