import SensorHub.Proofs.Closing
import SensorHub.Proofs.Handling
import SensorHub.Proofs.Order
import SensorHub.Proofs.Shutdown

namespace SensorHub

variable {σ : Type}

open Ledger

/-- In a row without repetition two entries stand in one order only. -/
theorem sublist_antisymm_pair {α : Type} {a b : α} {l : List α} (hl : l.Nodup)
    (hab : [a, b].Sublist l) (hba : [b, a].Sublist l) : False := by
  induction l with
  | nil => cases hab
  | cons x l ih =>
    obtain ⟨hx, hl⟩ := List.nodup_cons.mp hl
    cases hab with
    | cons _ hab =>
      cases hba with
      | cons _ hba => exact ih hl hab hba
      | cons_cons _ hba => exact hx (hab.subset (by simp))
    | cons_cons _ hab =>
      cases hba with
      | cons _ hba => exact hx (hba.subset (by simp))
      | cons_cons _ hba => exact hx (List.singleton_sublist.mp hba)

theorem sublist_pair_of_append {α : Type} {a b : α} {l l' : List α}
    (h : [a, b].Sublist (l ++ l')) (hb : b ∉ l') : [a, b].Sublist l := by
  obtain ⟨l₁, l₂, he, h₁, h₂⟩ := List.sublist_append_iff.mp h
  cases l₂ with
  | nil =>
    rw [he, List.append_nil]
    exact h₁
  | cons c l₂ =>
    have hmem : b ∈ c :: l₂ := by
      have hlast : (l₁ ++ c :: l₂).getLast? = some b := by rw [← he]; rfl
      rw [List.getLast?_append_cons] at hlast
      exact List.mem_of_getLast? hlast
    exact absurd (h₂.subset hmem) hb

namespace Hub

theorem Matches.of_stop {event : Event} {completion : Completion σ}
    (h : Matches .stop event completion) :
    completion = .work .shutdown ∧ event = .system .shutdown := by
  generalize hw : Way.stop = way at h
  cases h with
  | critical | low => cases hw
  | work work =>
    cases work with
    | shutdown => exact ⟨rfl, rfl⟩
    | load | unload | call => cases hw

end Hub

namespace Ledger

/-- What is offered under a number that was given out before was offered before. -/
theorem Balanced.offered_before {l l' : Ledger σ} (hb : l.Balanced) (hb' : l'.Balanced)
    (hmoves : Moves l l') {serial : Nat} (hlt : serial < l.next) {way : Way} {event : Event}
    {hasCallback : Bool} (ho : .offered serial way event hasCallback ∈ l'.journal) :
    .offered serial way event hasCallback ∈ l.journal := by
  have hone : 0 < tally Incident.offers? serial l.journal := by
    rw [hb.numbered, if_pos hlt]
    exact Nat.one_pos
  obtain ⟨incident, hm, hi⟩ := List.mem_filterMap.mp (List.count_pos_iff.mp hone)
  cases incident with
  | offered other way' event' hasCallback' =>
    cases hi
    obtain ⟨rfl, rfl, rfl⟩ := offered_unique (hb'.offers_le serial) ho (hmoves.remembers hm)
    exact hm
  | _ => cases hi

theorem Balanced.stop_posting {l : Ledger σ} (hb : l.Balanced) {p : Posting σ}
    (hp : p ∈ l.pending ++ l.out) {event : Event} {hasCallback : Bool}
    (ho : .offered p.serial .stop event hasCallback ∈ l.journal) :
    p.completion = .work .shutdown ∧ p.event.isEvictable = false := by
  obtain ⟨way, event', ho', kind, he⟩ := hb.vouched p hp
  obtain ⟨rfl, -, -⟩ := offered_unique (hb.offers_le _) ho ho'
  obtain ⟨hc, rfl⟩ := kind.of_stop
  refine ⟨hc, ?_⟩
  rw [he]
  rfl

end Ledger

namespace Frame

variable {hub hub' : Hub σ} {frame : Frame σ} {frames rest : List (Frame σ)}
  {below : List (Cargo σ)}

/-- The slots of the frames below are left alone by a step. -/
theorem Traffic.inspect_below (h : frame.Traffic hub hub' frames)
    (ht : hub.Tidy (frame.cargo ++ below)) {handle : Handle}
    (hm : handle ∈ below.filterMap Cargo.stored?) :
    hub'.pool.inspect handle = hub.pool.inspect handle := by
  have hkept : handle ∈ kept hub below := List.mem_append_right _ hm
  rcases h.line ht with thins | ⟨hub₁, posting, fresh, thins, admits, hnew, -⟩
  · exact thins.inspect handle hkept
  · have hne : fresh ≠ handle := by
      rintro rfl
      exact hnew hkept
    rw [admits.inspect, if_neg hne]
    exact thins.inspect handle hkept

theorem Traffic.inspect_slot (h : frame.Traffic hub hub' frames)
    (ht : hub.Tidy (frame.cargo ++ rest.flatMap Frame.cargo)) {f : Frame σ} (hf : f ∈ rest)
    {handle : Handle} (hc : .slot handle ∈ f.cargo) :
    hub'.pool.inspect handle = hub.pool.inspect handle :=
  h.inspect_below ht (List.mem_filterMap.mpr
    ⟨.slot handle, List.mem_flatMap.mpr ⟨f, hf, hc⟩, rfl⟩)

theorem Traffic.brings_below (h : frame.Traffic hub hub' frames)
    (ht : hub.Tidy (frame.cargo ++ rest.flatMap Frame.cargo)) {f : Frame σ} (hf : f ∈ rest) :
    f.brings? hub' = f.brings? hub := by
  cases f with
  | cycle handle | turn handle | dispatch handle =>
    have hslot := h.inspect_slot ht hf (List.mem_singleton_self _)
    exact congrArg (Option.map Posting.serial) hslot
  | code actor routine =>
    cases actor with
    | _ => rfl
  | _ => rfl

end Frame

namespace Machine

variable {m m' : Machine σ}

/-- A stop that is queued is not done while the hub runs. -/
def StopsOpen (hub : Hub σ) : Prop :=
  hub.running = true → ∀ serial ∈ admissions hub.journal, ∀ event hasCallback,
    .offered serial .stop event hasCallback ∈ hub.journal →
      tally Incident.closes? serial hub.journal = 0

theorem Reachable.step_stopsOpen {hub hub' : Hub σ} {frame : Frame σ} {frames rest : List (Frame σ)}
    (hm : Reachable ⟨hub, frame :: rest⟩) (h : frame.step hub = .go hub' frames)
    (hopen : StopsOpen hub) : StopsOpen hub' := by
  intro running serial hmem event hasCallback ho
  have hm' := hm.move (.of_go h)
  have hmoves := hm.moves hm.balanced h
  have before : serial ∈ admissions hub.journal →
      tally Incident.closes? serial hub'.journal = 0 := by
    intro hadmitted
    have hlt : serial < hub.postings := hm.lined.numbered serial hadmitted
    have hold : .offered serial .stop event hasCallback ∈ hub.journal :=
      hm.balanced.offered_before hm'.balanced hmoves hlt ho
    have hruns := (Frame.step_closing hm.nested.1 h).1 running
    have hzero := hopen hruns serial hadmitted event hasCallback hold
    rcases (hm.traffic h).begun hm.tidy hm.balanced hlt with hsame | ⟨p, hp, rfl, -, hwork⟩
    · exact hsame.trans hzero
    · obtain ⟨hc, -⟩ := hm.balanced.stop_posting hp hold
      obtain rfl := hwork _ hc
      simp only [Frame.step, Hub.complete, hc, Hub.perform] at h
      cases h
      cases running
  rcases (hm.traffic h).line hm.tidy with thins | ⟨hub₁, posting, handle, thins, admits, -, -⟩
  · rw [thins.admissions] at hmem
    exact before hmem
  · rw [admits.admissions, thins.admissions] at hmem
    rcases List.mem_append.mp hmem with hmem | hmem
    · exact before hmem
    · -- the stop that is queued now is pending
      rw [List.mem_singleton.mp hmem]
      have hqueued : handle ∈ hub'.queue.toList := by
        rw [admits.queue]
        exact List.mem_append_right _ (List.mem_singleton_self _)
      have hinspect : hub'.pool.inspect handle = some (posting.stamped hub₁.now) := by
        rw [admits.inspect, if_pos rfl]
      exact hm'.balanced.unclosed _ (List.mem_map.mpr
        ⟨_, Hub.mem_books.mpr (.inl ⟨handle, hqueued, hinspect⟩), rfl⟩)

theorem Reachable.stopsOpen (hm : m.Reachable) : StopsOpen m.hub := by
  refine hm.keeps (P := fun hub _ => StopsOpen hub) ?_ ?_ ?_
  · intro config collaborators memory now routine _ _ serial hmem
    cases hmem
  · intro hub hub' frame frames rest hm hopen h
    exact hm.step_stopsOpen h hopen
  · intro hub frames routine hopen
    exact hopen

def AtFront (m : Machine σ) (posting : Posting σ) : Prop :=
  ∃ handle, m.hub.queue.toList.head? = some handle ∧ m.hub.pool.inspect handle = some posting

/-- The flush of an unload is about to take the event from the queue. -/
def Flushes (m : Machine σ) (posting : Posting σ) : Prop :=
  m.frames.head? = some .flush ∧ m.AtFront posting

/-- The loop of a hub that runs is about to take the event from the queue. -/
def Serves (m : Machine σ) (posting : Posting σ) : Prop :=
  (∃ frame rest, m.frames = frame :: rest ∧ frame.isGuest = false ∧ frame.cargo = []) ∧
    m.hub.running = true ∧ m.AtFront posting

theorem AtFront.line {posting : Posting σ} (h : m.AtFront posting) :
    ∃ later, m.hub.line = posting.serial :: later := by
  obtain ⟨handle, hhead, hinspect⟩ := h
  obtain ⟨queue, hqueue⟩ : ∃ queue, m.hub.queue.toList = handle :: queue := by
    cases hq : m.hub.queue.toList with
    | nil =>
      rw [hq] at hhead
      cases hhead
    | cons first queue =>
      rw [hq] at hhead
      cases hhead
      exact ⟨queue, rfl⟩
  refine ⟨queue.filterMap fun k => (m.hub.pool.inspect k).map Posting.serial, ?_⟩
  rw [Hub.line, hqueue]
  exact List.filterMap_cons_some (by rw [hinspect]; rfl)

/-- While the hub runs and the loop works on no event, a stop that was queued still is. -/
theorem Reachable.stop_queued (hm : m.Reachable) {frame : Frame σ} {rest : List (Frame σ)}
    (hf : m.frames = frame :: rest) (heavy : frame.isGuest = false) (hcargo : frame.cargo = [])
    (running : m.hub.running = true) {serial : Nat} {event : Event} {hasCallback : Bool}
    (hadmitted : serial ∈ admissions m.hub.journal)
    (ho : .offered serial .stop event hasCallback ∈ m.hub.journal) : serial ∈ m.hub.line := by
  have hb := hm.balanced
  have hzero : tally Incident.closes? serial m.books.journal = 0 :=
    hm.stopsOpen running serial hadmitted event hasCallback ho
  have howned : serial ∈ m.books.owned := by
    rcases hb.due serial .stop event hasCallback ho (by simp [Way.isWork]) with h | h
    · exact h
    · rw [hzero] at h
      cases h
  have hprompt := hm.prompt
  rw [hf] at hprompt
  have hbelow := hprompt.handlers heavy
  have hcargo' : m.cargo = rest.flatMap Frame.cargo := by
    rw [cargo, hf, List.flatMap_cons, hcargo, List.nil_append]
  obtain ⟨p, hp, hserial⟩ := List.mem_map.mp howned
  have ho' : .offered p.serial .stop event hasCallback ∈ m.books.journal := hserial ▸ ho
  obtain ⟨-, hkeeps⟩ := hb.stop_posting hp ho'
  rcases Hub.mem_books.mp hp with
    ⟨handle, hh, hinspect⟩ | ⟨item, hi, handle, hitem, hinspect⟩ | hwaits | hposting
  · exact List.mem_filterMap.mpr ⟨handle, hh, by rw [hinspect, ← hserial]; rfl⟩
  · cases item with
    | slot k =>
      obtain ⟨_, he⟩ := hbelow _ (hcargo' ▸ hi) rfl
      cases he
    | doomed k =>
      cases hitem
      -- a stop is never evicted
      have hdoomed := hm.tidy.doomed handle hi p hinspect
      rw [hkeeps] at hdoomed
      cases hdoomed
    | _ => cases hitem
  · exact absurd (hserial ▸ hadmitted) (hm.lined.waiting p hwaits)
  · obtain ⟨_, he⟩ := hbelow _ (hcargo' ▸ hposting) rfl
    cases he

theorem Reaches.admissions (hm : m.Reachable) (hr : m.Reaches m') :
    ∃ news, SensorHub.admissions m'.hub.journal = SensorHub.admissions m.hub.journal ++ news := by
  obtain ⟨-, news, hj⟩ := (Reaches.books hm hr).journal
  have hjournal : m'.hub.journal = news ++ m.hub.journal := hj
  refine ⟨SensorHub.admissions news, ?_⟩
  rw [hjournal, SensorHub.admissions, List.filterMap_append, List.reverse_append]
  rfl

theorem Serves.not_behind (hm : m.Reachable) {posting : Posting σ} (h : m.Serves posting)
    (hr : m.Reaches m') {stop : Nat} {event : Event} {hasCallback : Bool}
    (hstop : .offered stop .stop event hasCallback ∈ m'.hub.journal)
    (hbehind : [stop, posting.serial].Sublist (admissions m'.hub.journal)) : False := by
  obtain ⟨⟨frame, rest, hf, heavy, hcargo⟩, running, hfront⟩ := h
  obtain ⟨later, hline⟩ := hfront.line
  have hm' := hm.reaches hr
  have hlined := hm.lined
  have hadmitted : posting.serial ∈ admissions m.hub.journal :=
    hlined.order.subset (by rw [hline]; exact List.mem_cons_self ..)
  -- the stop was queued before the event, which was queued already
  have hmoves := Reaches.books hm hr
  obtain ⟨news, hadmissions⟩ := hr.admissions hm
  have honce := hm'.lined.once
  rw [hadmissions] at hbehind honce
  have hearlier : [stop, posting.serial].Sublist (admissions m.hub.journal) := by
    refine sublist_pair_of_append hbehind fun hmem => ?_
    exact (List.nodup_append.mp honce).2.2 _ hadmitted _ hmem rfl
  have hstopped : stop ∈ admissions m.hub.journal := hearlier.subset (List.mem_cons_self ..)
  have hoffered : .offered stop .stop event hasCallback ∈ m.hub.journal :=
    hm.balanced.offered_before hm'.balanced hmoves (hlined.numbered stop hstopped) hstop
  have hqueued := hm.stop_queued hf heavy hcargo running hstopped hoffered
  rw [hline] at hqueued
  rcases List.mem_cons.mp hqueued with rfl | hlater
  · have hne := List.pairwise_iff_forall_sublist.mp hlined.once hearlier
    exact hne rfl
  · have horder := hlined.order
    rw [hline] at horder
    have hreverse : [posting.serial, stop].Sublist (posting.serial :: later) :=
      (List.singleton_sublist.mpr hlater).cons_cons _
    exact sublist_antisymm_pair hlined.once hearlier (hreverse.trans horder)

/-- On the way from one machine to another the event with this number was taken from the queue, to
be offered to the apps. -/
def Taken (start m : Machine σ) (serial : Nat) : Prop :=
  ∃ m₁ posting, start.Reaches m₁ ∧ m₁.Reaches m ∧ posting.serial = serial ∧
    (m₁.Flushes posting ∨ m₁.Serves posting)

theorem Taken.move {start : Machine σ} {serial : Nat} (h : start.Taken m serial)
    (hm : Move m m') : start.Taken m' serial := by
  obtain ⟨m₁, posting, hr, hr', rest⟩ := h
  exact ⟨m₁, posting, hr, hr'.tail hm, rest⟩

theorem Reaches.taken {start : Machine σ} (hs : start.IsStart) (hr : start.Reaches m) :
    ∀ f ∈ m.frames, ∀ serial, f.brings? m.hub = some serial → start.Taken m serial := by
  refine hr.keeps (P := fun hub frames => ∀ f ∈ frames, ∀ serial, f.brings? hub = some serial →
    start.Taken ⟨hub, frames⟩ serial) ?_ ?_ ?_
  · obtain ⟨config, collaborators, memory, now, hub, routine, -, rfl⟩ := hs
    intro f hf serial hb
    rw [List.mem_singleton.mp hf] at hb
    cases hb
  · intro hub hub' frame frames rest hr ih h f hf serial hb
    have hm : Reachable ⟨hub, frame :: rest⟩ := ⟨start, hs, hr⟩
    have hmove : Move ⟨hub, frame :: rest⟩ ⟨hub', frames ++ rest⟩ :=
      .of_go h
    rcases List.mem_append.mp hf with hf | hf
    · rcases (hm.advance h).brings hf hb with hb | ⟨handle, hfront, hinspect, hhow⟩
      · exact (ih frame (List.mem_cons_self ..) serial hb).move hmove
      · obtain ⟨posting, hinspect, hserial⟩ := Option.map_eq_some_iff.mp hinspect
        have front : AtFront ⟨hub, frame :: rest⟩ posting := ⟨handle, hfront, hinspect⟩
        refine ⟨_, posting, hr, .single hmove, hserial, ?_⟩
        rcases hhow with rfl | rfl | ⟨running, count, actor, next, rfl⟩
        · exact .inl ⟨rfl, front⟩
        · have running := hm.prompt.awaits (List.mem_cons_self ..)
          exact .inr ⟨⟨_, rest, rfl, rfl, rfl⟩, running, front⟩
        · exact .inr ⟨⟨_, rest, rfl, rfl, rfl⟩, running, front⟩
    · rw [(hm.traffic h).brings_below hm.tidy hf] at hb
      exact (ih f (List.mem_cons_of_mem _ hf) serial hb).move hmove
  · intro hub frames routine hr ih f hf serial hb
    rcases List.mem_cons.mp hf with rfl | hf
    · cases hb
    · exact (ih f hf serial hb).move (Move.interrupt routine)

/-- The machine runs the code with which an app handles the queued event with this number. -/
def Handles (m : Machine σ) (serial : Nat) : Prop :=
  ∃ (index : Nat) (stopping : Bool) (routine : Routine σ .app .nothing),
    .code (.entry index stopping (.event (some serial))) routine ∈ m.frames

/-- An event that is offered to the apps reaches one that wants it. -/
theorem reaches_handler {hub : Hub σ} {posting : Posting σ} {rest : List (Frame σ)} (gap : Nat)
    {index : Nat} {reached : Bool} {app : App σ} (ha : hub.apps[index + gap]? = some app)
    (hw : Hub.wanted posting.event app.nanoapp = true) :
    ∃ m' : Machine σ, Reaches ⟨hub, .distribute posting index reached :: rest⟩ m' ∧
      m'.Handles posting.serial := by
  have deliver : ∀ {index : Nat} {app : App σ}, hub.apps[index]? = some app →
      Hub.wanted posting.event app.nanoapp = true →
      ∃ m' : Machine σ, Reaches ⟨hub, .distribute posting index reached :: rest⟩ m' ∧
        m'.Handles posting.serial := by
    intro index app ha hw
    have hstep : ∃ m', step ⟨hub, .distribute posting index reached :: rest⟩ = .stepped m' ∧
        m'.Handles posting.serial := by
      simp only [step, Frame.step, Hub.offerTo, ha, hw, if_true]
      exact ⟨_, rfl, _, _, _, List.mem_cons_self ..⟩
    obtain ⟨m', hs, hh⟩ := hstep
    exact ⟨m', .single (.step hs), hh⟩
  induction gap generalizing index with
  | zero => exact deliver ha hw
  | succ gap ih =>
    have hlt : index < hub.apps.length := by
      have hlast := (List.getElem?_eq_some_iff.mp ha).1
      omega
    have hfirst := List.getElem?_eq_getElem hlt
    cases hwanted : Hub.wanted posting.event hub.apps[index].nanoapp with
    | true => exact deliver hfirst hwanted
    | false =>
      have hstep : step ⟨hub, .distribute posting index reached :: rest⟩ =
          .stepped ⟨hub, .distribute posting (index + 1) reached :: rest⟩ := by
        simp only [step, Frame.step, Hub.offerTo, hfirst, hwanted]
        rfl
      have hnext : hub.apps[index + 1 + gap]? = some app := by
        have hplace : index + 1 + gap = index + (gap + 1) := by omega
        rw [hplace]
        exact ha
      obtain ⟨m', hr, hh⟩ := ih hnext
      exact ⟨m', .head (.step hstep) hr, hh⟩

/-- A flush offers the event at the front of the queue to the apps, whether the hub runs or not. -/
theorem Flushes.reaches_handler {posting : Posting σ} (h : m.Flushes posting) {app : App σ}
    (ha : app ∈ m.hub.apps) (hw : Hub.wanted posting.event app.nanoapp = true) :
    ∃ m', m.Reaches m' ∧ m'.Handles posting.serial := by
  obtain ⟨hhead, handle, hfront, hinspect⟩ := h
  obtain ⟨hub, frames⟩ := m
  cases frames with
  | nil => cases hhead
  | cons frame rest =>
    cases hhead
    obtain ⟨hub₁, hp⟩ := Hub.pop?_of_front hfront
    obtain ⟨happs, hpool⟩ : hub₁.apps = hub.apps ∧ hub₁.pool = hub.pool := by
      obtain ⟨queue, -, rfl⟩ := Hub.pop?_eq_some hp
      exact ⟨rfl, rfl⟩
    have hfirst : step ⟨hub, .flush :: rest⟩ =
        .stepped ⟨hub₁, .dispatch handle :: .flush :: rest⟩ := by
      simp only [step, Frame.step, hp]
      rfl
    have hheld : hub₁.pool.inspect handle = some posting := by
      rw [hpool]
      exact hinspect
    have hsecond : step ⟨hub₁, .dispatch handle :: .flush :: rest⟩ =
        .stepped ⟨(hub₁.take handle).2.record (.distributing posting.serial),
          .distribute posting 0 false :: .vacate handle :: .flush :: rest⟩ := by
      simp only [step, Frame.step, Hub.dispatch, Hub.take, Pool.take, hheld]
      rfl
    obtain ⟨index, hindex⟩ := List.getElem?_of_mem ha
    have hplace : ((hub₁.take handle).2.record (.distributing posting.serial)).apps[0 + index]? =
        some app := by
      rw [Nat.zero_add, ← hindex, ← happs]
      rfl
    obtain ⟨m', hr, hh⟩ := @Machine.reaches_handler _ _ posting
      (.vacate handle :: .flush :: rest) index 0 false _ hplace hw
    exact ⟨m', .head (.step hfirst) (.head (.step hsecond) hr), hh⟩

/-- An event that was queued behind a stop is delivered to an app only if the flush of an unload
takes it from the queue. The flush delivers it wherever some app wants it, even if the hub has
stopped; everything else that empties the queue releases it. -/
theorem delivered_behind_stop {start : Machine σ} (hs : start.IsStart) (hr : start.Reaches m)
    {stop serial : Nat} {event : Event} {hasCallback : Bool}
    (hstop : .offered stop .stop event hasCallback ∈ m.hub.journal)
    (hbehind : [stop, serial].Sublist (admissions m.hub.journal)) :
    (m.Handles serial → ∃ m₁ posting, start.Reaches m₁ ∧ m₁.Reaches m ∧
      posting.serial = serial ∧ m₁.Flushes posting) ∧
    ∀ posting, posting.serial = serial → m.Flushes posting →
      (∃ app ∈ m.hub.apps, Hub.wanted posting.event app.nanoapp = true) →
        ∃ m', m.Reaches m' ∧ m'.Handles serial := by
  refine ⟨fun ⟨index, stopping, routine, hf⟩ => ?_, fun posting hserial hflush happ => ?_⟩
  · obtain ⟨m₁, posting, hr₁, hr₂, rfl, hflush | hserve⟩ := hr.taken hs _ hf serial rfl
    · exact ⟨m₁, posting, hr₁, hr₂, rfl, hflush⟩
    · exact absurd hbehind fun h => hserve.not_behind ⟨start, hs, hr₁⟩ hr₂ hstop h
  · obtain ⟨app, ha, hw⟩ := happ
    rw [← hserial]
    exact hflush.reaches_handler ha hw

def listener : App Unit where
  nanoapp := .new 1 1
  onStart := .register EventType.firstUser allGroups fun _ => .done true
  onEvent := fun _ _ => .done ()
  onEnd := .done ()

/-- Stops the hub, posts an event for the app, and unloads the app. -/
def unloadBehindStop : Routine Unit .loop .nothing :=
  .start listener fun _ =>
  .request .shutdown fun _ =>
  .post (Event.new EventType.firstUser) none <|
  .unload 1 false fun _ =>
  .done ()

private theorem unloadBehindStop_delivers :
    (plain unloadBehindStop).Reaches ((plain unloadBehindStop).advance 30).1 ∧
      .offered 1 .stop (.system .shutdown) false ∈
        ((plain unloadBehindStop).advance 30).1.hub.journal ∧
      [1, 2].Sublist (admissions ((plain unloadBehindStop).advance 30).1.hub.journal) ∧
      ((plain unloadBehindStop).advance 30).1.Handles 2 := by
  have hadmissions : admissions ((plain unloadBehindStop).advance 30).1.hub.journal = [0, 1, 2] := by
    decide +kernel
  refine ⟨reaches_unfinished (by decide +kernel), by decide +kernel, ?_, 0, true, .done (), ?_⟩
  · rw [hadmissions]
    decide
  · exact List.mem_cons_self ..

theorem delivered_behind_stop_unloadBehindStop :
    ∃ (m₁ : Machine Unit) (posting : Posting Unit), (plain unloadBehindStop).Reaches m₁ ∧
      m₁.Reaches ((plain unloadBehindStop).advance 30).1 ∧ posting.serial = 2 ∧
      m₁.Flushes posting := by
  obtain ⟨hr, hstop, hbehind, hhandles⟩ := unloadBehindStop_delivers
  exact (delivered_behind_stop (isStart_plain _) hr hstop hbehind).1 hhandles

/-- An event that was queued behind a stop can be delivered. -/
theorem handled_behind_stop :
    ∃ (m : Machine Unit) (stop serial : Nat) (event : Event) (hasCallback : Bool), m.Reachable ∧
      .offered stop .stop event hasCallback ∈ m.hub.journal ∧
      [stop, serial].Sublist (admissions m.hub.journal) ∧ m.Handles serial := by
  obtain ⟨hr, hstop, hbehind, hhandles⟩ := unloadBehindStop_delivers
  exact ⟨_, 1, 2, _, _, ⟨_, isStart_plain _, hr⟩, hstop, hbehind, hhandles⟩

end Machine

end SensorHub
