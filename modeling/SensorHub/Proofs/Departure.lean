import SensorHub.Proofs.Context
import SensorHub.Proofs.Directory
import SensorHub.Proofs.Waiting

namespace SensorHub

variable {σ : Type}

namespace Hub

variable {hub hub₁ hub' : Hub σ} {cargo : List (Cargo σ)} {posting : Posting σ} {handle : Handle}

theorem Calm.waiting (calm : hub.Calm hub') : hub'.waiting = hub.waiting :=
  waiting_congr (by rw [calm.queue]) fun k _ => calm.inspect k

theorem waiting_detach (hub : Hub σ) (posting : Posting σ) :
    (hub.detach posting).1.waiting = hub.waiting := by
  obtain ⟨news, heq, -⟩ := detach_eq (show hub.detach posting =
    ((hub.detach posting).1, (hub.detach posting).2) from rfl)
  rw [heq]
  rfl

/-- What waits waited before, or it is from the system, or from an app that is not shown as
stopping. -/
def Accepts (hub hub' : Hub σ) : Prop :=
  ∀ p ∈ hub'.waiting, p ∈ hub.waiting ∨ p.event.sender = systemId ∨
    hub.shownStopping ≠ p.event.sender

theorem Accepts.of_sublist (h : hub'.waiting.Sublist hub.waiting) : hub.Accepts hub' :=
  fun _ hp => .inl (h.subset hp)

theorem Accepts.of_eq (h : hub'.waiting = hub.waiting) : hub.Accepts hub' :=
  .of_sublist (h ▸ .refl _)

theorem Accepts.of_admits (h : hub.Admits posting handle hub') (hnew : handle ∉ hub.queue.toList)
    (passes : posting.event.sender = systemId ∨ hub.shownStopping ≠ posting.event.sender) :
    hub.Accepts hub' := by
  intro p hp
  rw [h.waiting hnew] at hp
  rcases List.mem_append.mp hp with hp | hp
  · exact .inl hp
  · rw [List.mem_singleton.mp hp]
    exact .inr passes

/-- What has happened does not decide whether an unload is accepted. -/
theorem accepts_posted (ht : hub.Tidy cargo) {frames : List (Frame σ)}
    (h : hub.Posted posting hub' frames) : hub.Accepts hub' := by
  cases h with
  | queued _ he passes =>
    obtain ⟨handle, admits, hnew, -⟩ := enqueue_true ht.sound he
    exact .of_admits admits (fun hk => hnew (List.mem_append_left _ hk)) passes
  | reserved _ hm => exact .of_sublist (makeRoom_evicts hm).waiting
  | @refused hub₁ _ _ _ calm _ hd =>
    have hwaiting := waiting_detach hub₁ posting
    rw [hd] at hwaiting
    exact .of_eq (hwaiting.trans calm.waiting)
  | @dropped hub₁ hub₂ _ _ _ _ he count hd =>
    have hwaiting := waiting_detach
      (hub₂.log (.dropped posting.event.type posting.event.target)) posting
    rw [hd, count] at hwaiting
    exact .of_eq (hwaiting.trans (enqueue_false ht.sound he).waiting)
  | discarded => exact .of_eq rfl

end Hub

namespace Frame

variable {hub hub' : Hub σ} {frame : Frame σ} {frames : List (Frame σ)} {below : List (Cargo σ)}

/-- A step queues nothing in the name of an app that is shown as stopping. What it sets aside to be
queued later is from the system. -/
theorem Traffic.accepts (h : frame.Traffic hub hub' frames)
    (ht : hub.Tidy (frame.cargo ++ below))
    (system : ∀ p, .waiting p ∈ frame.cargo → p.event.sender = systemId) :
    hub.Accepts hub' ∧ ∀ p, .waiting p ∈ frames.flatMap Frame.cargo → p.event.sender = systemId := by
  cases h with
  | pass calm cargo =>
    rw [cargo]
    exact ⟨.of_eq calm.waiting, system⟩
  | @post _ hub₀ way event completion hub₁ _ upper lower calm kind calm' _ shown posted cargo =>
    have hbefore : hub₁.waiting = hub.waiting := by
      have hoffered : (hub₀.offer way event completion).2.waiting = hub₀.waiting := rfl
      rw [calm'.waiting, hoffered, calm.waiting]
    have haccepts := Hub.accepts_posted (((ht.calm calm).offer way event completion).calm calm')
      posted
    refine ⟨?_, fun p hp => ?_⟩
    · unfold Hub.Accepts at haccepts ⊢
      rwa [hbefore, shown] at haccepts
    · rw [List.flatMap_append] at hp
      rcases List.mem_append.mp hp with hp | hp
      · cases posted with
        | reserved _ _ hsystem =>
          obtain rfl : p = (hub₀.offer way event completion).1 := by
            simpa [Frame.cargo] using hp
          exact hsystem
        | queued | discarded => simp at hp
        | refused _ _ _ hd =>
          rw [cargo_detach hd] at hp
          cases hp
        | dropped _ _ _ _ hd =>
          rw [cargo_detach hd] at hp
          cases hp
      · rw [cargo] at hp
        exact system p hp
  | enqueue he =>
    obtain ⟨handle, admits, hnew, -⟩ := Hub.enqueue_true ht.sound he
    have hsystem := system _ (List.mem_singleton_self _)
    exact ⟨.of_admits admits (fun hk => hnew (List.mem_append_left _ hk)) (.inl hsystem), by simp⟩
  | @evict handle rest posting _ frames held hd =>
    have hwaiting := Hub.waiting_detach ((hub.take handle).2.record (.evicted posting.serial)) posting
    rw [hd] at hwaiting
    have htaken : (hub.take handle).2.waiting = hub.waiting :=
      congrArg Row.waiting (Hub.row_take rfl ht)
    refine ⟨.of_eq (hwaiting.trans htaken), fun p hp => ?_⟩
    rw [List.flatMap_append, cargo_detach hd] at hp
    simp [Frame.cargo] at hp
  | vacate => exact ⟨.of_eq (congrArg Row.waiting (Hub.row_vacate ht)), by simp⟩
  | @pop _ hub₁ handle _ _ calm hp how =>
    obtain ⟨queue, hlist, rfl⟩ := Hub.pop?_eq_some hp
    refine ⟨.of_sublist ?_, fun p hp => ?_⟩
    · rw [← calm.waiting]
      unfold Hub.waiting
      rw [hlist]
      exact (List.sublist_cons_self _ _).filterMap _
    · rw [how.cargo.2] at hp
      simp at hp
  | dispatch held =>
    have htaken := congrArg Row.waiting (Hub.row_take rfl ht)
    exact ⟨.of_eq htaken, by simp [Frame.cargo]⟩
  | discard held =>
    have htaken := congrArg Row.waiting (Hub.row_take rfl ht)
    exact ⟨.of_eq htaken, by simp [Frame.cargo]⟩
  | hollow mem held => exact absurd held (ht.not_hollow mem)
  | deliver calm => exact ⟨.of_eq calm.waiting, by simp [Frame.cargo]⟩
  | leave | forget => exact ⟨.of_eq rfl, by simp⟩
  | free _ calm => exact ⟨.of_eq calm.waiting, by simp [Frame.cargo]⟩
  | work _ calm cargo _ =>
    have hwaiting := calm.waiting
    exact ⟨.of_eq hwaiting, by simp [cargo]⟩

end Frame

namespace Machine

variable {m m' : Machine σ} {hub hub' : Hub σ} {frame : Frame σ} {frames rest : List (Frame σ)}

/-- In every run what is set aside to be queued is from the system. -/
theorem Reachable.set_aside (hm : m.Reachable) :
    ∀ p, .waiting p ∈ m.cargo → p.event.sender = systemId := by
  refine hm.keeps (P := fun _ frames => ∀ p, .waiting p ∈ frames.flatMap Frame.cargo →
    p.event.sender = systemId) ?_ ?_ ?_
  · intro config collaborators memory now routine _ p hp
    cases hp
  · intro hub hub' frame frames rest hm hsystem h p hp
    rw [List.flatMap_append] at hp
    rcases List.mem_append.mp hp with hp | hp
    · refine ((hm.traffic h).accepts hm.tidy fun p hp => hsystem p ?_).2 p hp
      exact List.mem_append_left _ hp
    · exact hsystem p (List.mem_append_right _ hp)
  · intro hub frames routine hsystem
    exact hsystem

theorem Reachable.accepts (hm : Reachable ⟨hub, frame :: rest⟩)
    (h : frame.step hub = .go hub' frames) : hub.Accepts hub' :=
  ((hm.traffic h).accepts hm.tidy fun p hp => hm.set_aside p (List.mem_append_left _ hp)).1

end Machine

namespace Records

variable {first r r' : Records σ} {kept newcomers : List (Nat × Info)}

/-- Of the apps that were loaded at first those in `kept` still are, in their order, and those in
`newcomers` have joined since. -/
structure Since (first r : Records σ) (kept newcomers : List (Nat × Info)) : Prop where
  roster : r.roster = kept ++ newcomers
  order : kept.Sublist first.roster
  later : ∀ entry ∈ newcomers, first.loads < entry.1
  loads : first.loads ≤ r.loads

theorem Since.refl (r : Records σ) : Since r r r.roster [] :=
  ⟨(List.append_nil _).symm, .refl _, by simp, Nat.le_refl _⟩

theorem Since.note (h : Since first r kept newcomers) (deed : Incident) :
    Since first (r.note deed) kept newcomers :=
  ⟨h.roster, h.order, h.later, h.loads⟩

theorem Since.join (h : Since first r kept newcomers) (info : Info) :
    Since first (r.join info) kept (newcomers ++ [(r.loads + 1, info)]) where
  roster := by
    show r.roster ++ [(r.loads + 1, info)] = _
    rw [h.roster, List.append_assoc]
  order := h.order
  later := by
    intro entry he
    rcases List.mem_append.mp he with he | he
    · exact h.later entry he
    · rw [List.mem_singleton.mp he]
      exact Nat.lt_succ_of_le h.loads
  loads := Nat.le_succ_of_le h.loads

theorem Since.erase (h : Since first r kept newcomers) (index load : Nat) (id : UInt16) :
    ∃ kept newcomers, Since first (r.erase index load id) kept newcomers := by
  have hroster : (r.erase index load id).roster = (kept ++ newcomers).eraseIdx index := by
    rw [← h.roster]
    rfl
  by_cases hlt : index < kept.length
  · rw [List.eraseIdx_append_of_lt_length hlt] at hroster
    exact ⟨_, _, hroster, (List.eraseIdx_sublist ..).trans h.order, h.later, h.loads⟩
  · rw [List.eraseIdx_append_of_length_le (Nat.le_of_not_lt hlt)] at hroster
    have hsub : (newcomers.eraseIdx (index - kept.length)).Sublist newcomers :=
      List.eraseIdx_sublist ..
    exact ⟨_, _, hroster, h.order, fun entry he => h.later entry (hsub.subset he), h.loads⟩

theorem Since.step {frame : Frame σ} {frames : List (Frame σ)} (h : Since first r kept newcomers)
    (t : frame.Turnover r r' frames) : ∃ kept newcomers, Since first r' kept newcomers := by
  cases t with
  | join => exact ⟨_, _, (h.join _).note _⟩
  | erase => exact h.erase _ _ _
  | enter | started | failed | left | finish | release => exact ⟨_, _, h.note _⟩
  | apart | depart | work | mark | gone | settle | missing | remove | released => exact ⟨_, _, h⟩

/-- Where nothing occurs twice, a part that keeps the order consists of the members that it has. -/
theorem filter_mem_of_sublist {α : Type} [DecidableEq α] {part all : List α}
    (order : part.Sublist all) (once : all.Nodup) : all.filter (· ∈ part) = part := by
  induction order with
  | slnil => rfl
  | @cons part all a order ih =>
    obtain ⟨hnew, honce⟩ := List.nodup_cons.mp once
    have hno : a ∉ part := fun ha => hnew (order.subset ha)
    rw [List.filter_cons_of_neg (by simpa using hno), ih honce]
  | @cons_cons part all a order ih =>
    obtain ⟨hnew, honce⟩ := List.nodup_cons.mp once
    have hothers : all.filter (· ∈ a :: part) = all.filter (· ∈ part) := by
      refine List.filter_congr fun b hb => ?_
      have hne : b ≠ a := by
        rintro rfl
        exact hnew hb
      simp [hne]
    rw [List.filter_cons_of_pos (by simp), hothers, ih honce]

/-- The apps of the first roster that still are on the roster, then those that joined since. -/
theorem Since.eq_filter (h : Since first r kept newcomers) (he : first.Enrolled) :
    r.roster = first.roster.filter (· ∈ r.roster) ++ newcomers := by
  have honce : first.roster.Nodup := he.numbers.of_map _
  have hkept : first.roster.filter (· ∈ r.roster) = kept := by
    rw [← filter_mem_of_sublist h.order honce]
    refine List.filter_congr fun entry hentry => ?_
    have hold : entry ∉ newcomers := fun hn =>
      Nat.not_lt.mpr (he.numbered entry hentry) (h.later entry hn)
    simp [h.roster, hold]
  rw [hkept]
  exact h.roster

end Records

namespace Machine

variable {m m' : Machine σ}

/-- From a machine whose frames nest, apps leave the roster, and others join behind it. -/
theorem Reaches.since_nested (hn : Frame.Nested m.hub.apps.length m.frames) (h : m.Reaches m') :
    ∃ kept newcomers, Records.Since m.hub.records m'.hub.records kept newcomers := by
  refine h.keeps (P := fun hub _ => ∃ kept newcomers,
    Records.Since m.hub.records hub.records kept newcomers) ⟨_, _, .refl _⟩ ?_ fun _ _ h => h
  intro hub hub' frame frames rest hr hsince hstep
  obtain ⟨kept, newcomers, hsince⟩ := hsince
  exact hsince.step (Frame.step_turnover (Reaches.nested hn hr).1 hstep).1

theorem Reaches.since (hm : m.Reachable) (h : m.Reaches m') :
    ∃ kept newcomers, Records.Since m.hub.records m'.hub.records kept newcomers :=
  Reaches.since_nested hm.nested h

end Machine

namespace Frame

open Records

variable {r r' : Records σ} {base now : List (Nat × Info)} {info : Info}
  {previous stopping : Option UInt16} {hub hub' : Hub σ} {frame : Frame σ}
  {frames upper rest lower : List (Frame σ)}

/-- The frames of an unload that has dispatched what was queued: it is about to look for the app, or
the app is taken down. The roster was `base` when the queue was empty, and it is `now`. -/
inductive Leaves (base : List (Nat × Info)) (info : Info) (previous : Option UInt16)
    (now : List (Nat × Info)) : List (Frame σ) → Prop
  | above {f upper} (light : Frame.isLight f = true) (h : Leaves base info previous now upper) :
      Leaves base info previous now (f :: upper)
  | settle (same : now = base) : Leaves base info previous now [.settle info true previous]
  | remove {index load other} (same : now = base) (placed : base[index]? = some (load, other))
      (named : other.instanceId = info.instanceId) :
      Leaves base info previous now [.remove index true, .unmark info previous]
  | finish {index load other routine managers} (same : now = base)
      (placed : base[index]? = some (load, other))
      (named : other.instanceId = info.instanceId) :
      Leaves base info previous now [.code (.entry index true .finish) routine,
        .release load other managers, .erase index load other, .unmark info previous]
  | release {index load other managers} (same : now = base)
      (placed : base[index]? = some (load, other))
      (named : other.instanceId = info.instanceId) :
      Leaves base info previous now
        [.release load other managers, .erase index load other, .unmark info previous]
  | erase {index load other} (same : now = base) (placed : base[index]? = some (load, other))
      (named : other.instanceId = info.instanceId) :
      Leaves base info previous now [.erase index load other, .unmark info previous]
  | unmark {index load other} (gone : now = base.eraseIdx index)
      (placed : base[index]? = some (load, other))
      (named : other.instanceId = info.instanceId) :
      Leaves base info previous now [.unmark info previous]

theorem Leaves.lights (light : ∀ f ∈ upper, f.isLight = true)
    (h : Leaves base info previous now rest) : Leaves base info previous now (upper ++ rest) := by
  induction upper with
  | nil => exact h
  | cons frame upper ih =>
    refine .above (light frame (List.mem_cons_self ..)) (ih fun f hf => ?_)
    exact light f (List.mem_cons_of_mem _ hf)

theorem Leaves.marked (h : Leaves base info previous now upper)
    (hm : Marked stopping (upper ++ lower)) : stopping = some info.instanceId := by
  induction h with
  | above light _ ih =>
    have hmark := mark?_of_isPhase (isPhase_of_isLight light)
    exact ih ((marked_cons hmark).mp hm)
  | settle | unmark => exact hm.1
  | remove | finish | release | erase => exact hm.1

theorem Leaves.unloads (h : Leaves base info previous now upper) :
    ∃ f ∈ upper, f.unloads? = some info := by
  induction h with
  | above _ _ ih =>
    obtain ⟨f, hf, hi⟩ := ih
    exact ⟨f, List.mem_cons_of_mem _ hf, hi⟩
  | settle | remove | finish | release | erase | unmark => simp [unloads?]

theorem Leaves.step (hl : Leaves base info previous r.roster (frame :: rest))
    (inner : frame.mark? = none)
    (light : frame.isLight = true → r' = r ∧ ∀ f ∈ frames, f.isLight = true)
    (t : frame.Turnover r r' frames) : Leaves base info previous r'.roster (frames ++ rest) := by
  cases hl with
  | above hframe h =>
    obtain ⟨rfl, lights⟩ := light hframe
    exact h.lights lights
  | settle | unmark => cases inner
  | remove same placed named =>
    cases t with
    | missing absent =>
      rw [same, placed] at absent
      cases absent
    | finish here =>
      rw [same, placed] at here
      cases here
      exact .finish same placed named
    | apart apart | join apart | enter apart | depart apart => cases apart
  | finish same placed named =>
    cases t with
    | work lights =>
      rw [List.append_assoc]
      exact Leaves.lights lights (.finish same placed named)
    | left => exact .release same placed named
    | apart apart | join apart | enter apart | depart apart => cases apart
  | release same placed named =>
    cases t with
    | released => exact .erase same placed named
    | release => exact .above rfl (.release same placed named)
    | apart apart | join apart | enter apart | depart apart => cases apart
  | @erase index load other same placed named =>
    cases t with
    | erase =>
      have hroster : (r.erase index load other.instanceId).roster = base.eraseIdx index := by
        rw [← same]
        rfl
      exact .unmark hroster placed named
    | apart apart | join apart | enter apart | depart apart => cases apart

/-- When the queue is flushed the app is taken down, if it is still there. -/
theorem leaves_settle (h : (Frame.settle info true previous).step hub = .go hub' frames) :
    (frames = [] ∧ info.instanceId ∉ hub.records.infos.map Info.instanceId ∧
      hub' = (hub.log (.wentAway info.instanceId)).setStopping previous) ∨
    Leaves hub.records.roster info previous hub'.records.roster frames := by
  rcases Hub.settleUnload_cases h with
    ⟨hi, rfl, rfl⟩ | ⟨index, hi, ⟨-, upper, hgo, rfl⟩ | ⟨hfalse, -⟩⟩
  · rw [Hub.indexOf?_eq_none, Hub.infos_eq] at hi
    exact .inl ⟨rfl, hi, rfl⟩
  · obtain ⟨side, light⟩ := Hub.light_announce hgo
    obtain ⟨app, ha, named⟩ := Hub.indexOf?_eq_some hi
    refine .inr (Leaves.lights light ?_)
    rw [Hub.records_of_loopSide side]
    exact .remove rfl (Hub.getElem?_roster ha) named
  · cases hfalse

end Frame

namespace Machine

open Records SensorHub.Frame

variable {m m₁ m₂ last m' : Machine σ} {hub hub' : Hub σ} {frame : Frame σ}
  {frames above upper lower rest : List (Frame σ)} {info : Info} {previous : Option UInt16}

def Above (lower : List (Frame σ)) (m : Machine σ) : Prop :=
  ∃ frame upper, m.frames = frame :: (upper ++ lower)

/-- What is above `lower` comes to its end, and the machine is about to go on with `lower`. -/
def Finishes (lower : List (Frame σ)) (m m' : Machine σ) : Prop :=
  ∃ last, Relation.ReflTransGen (fun m next => Move m next ∧ next.Above lower) m last ∧
    last.step = .stepped m' ∧ m'.frames = lower

/-- What holds of the frames above `lower` as long as there are any, and comes to `Q` with the last
of them, holds until they are done. -/
theorem stays_above {P : Machine σ → List (Frame σ) → Prop} {Q : Machine σ → Prop}
    (hr : Relation.ReflTransGen (fun m next => Move m next ∧ next.Above lower) m₁ last)
    (hframes : m₁.frames = upper ++ lower) (begins : P m₁ upper) (nonempty : ∀ {m}, ¬P m [])
    (step : ∀ {hub frame above hub' frames}, m₁.Reaches ⟨hub, frame :: (above ++ lower)⟩ →
      P ⟨hub, frame :: (above ++ lower)⟩ (frame :: above) → frame.step hub = .go hub' frames →
      P ⟨hub', frames ++ (above ++ lower)⟩ (frames ++ above) ∨
        frames ++ above = [] ∧ Q ⟨hub', frames ++ (above ++ lower)⟩)
    (interrupt : ∀ {m upper} (routine : Routine σ .handle .nothing), P m upper →
      P (m.interrupt routine) (.code (.handle .foreign) routine :: upper)) :
    m₁.Reaches last ∧ ∃ upper, last.frames = upper ++ lower ∧ P last upper := by
  refine keeps_above hr hframes begins nonempty (fun hr hp habove h => ?_)
    fun routine _ hp _ => interrupt routine hp
  obtain ⟨f, others, habove⟩ := habove
  rcases step hr hp h with hp | ⟨hnil, -⟩
  · exact hp
  · obtain ⟨rfl, rfl⟩ := List.append_eq_nil_iff.mp hnil
    have hlength := congrArg List.length habove
    simp at hlength
    omega

theorem Finishes.comes {P : Machine σ → List (Frame σ) → Prop} {Q : Machine σ → Prop}
    (hret : m₁.Finishes lower m') (hframes : m₁.frames = upper ++ lower) (begins : P m₁ upper)
    (nonempty : ∀ {m}, ¬P m [])
    (step : ∀ {hub frame above hub' frames}, m₁.Reaches ⟨hub, frame :: (above ++ lower)⟩ →
      P ⟨hub, frame :: (above ++ lower)⟩ (frame :: above) → frame.step hub = .go hub' frames →
      P ⟨hub', frames ++ (above ++ lower)⟩ (frames ++ above) ∨
        frames ++ above = [] ∧ Q ⟨hub', frames ++ (above ++ lower)⟩)
    (interrupt : ∀ {m upper} (routine : Routine σ .handle .nothing), P m upper →
      P (m.interrupt routine) (.code (.handle .foreign) routine :: upper)) : Q m' := by
  obtain ⟨last, hr, hlast, hlower⟩ := hret
  obtain ⟨hreached, upper', he, hp⟩ := stays_above hr hframes begins nonempty step interrupt
  obtain ⟨hub, frame, rest, hub', frames, rfl, h, rfl⟩ := step_eq_stepped.mp hlast
  cases upper' with
  | nil => exact absurd hp nonempty
  | cons first above =>
    cases he
    have hnil : frames ++ above = [] := by
      have hlower' : frames ++ (above ++ lower) = lower := hlower
      rw [← List.append_assoc] at hlower'
      exact List.append_left_eq_self.mp hlower'
    rcases step hreached hp h with hp | ⟨-, hq⟩
    · rw [hnil] at hp
      exact absurd hp nonempty
    · exact hq

/-- How far an unload has come, by the frames above what goes on after it. It has begun in `m₁`. -/
inductive Departing (m₁ m : Machine σ) (info : Info) (lower : List (Frame σ)) :
    List (Frame σ) → Prop
  | messages {x} (light : ∀ f ∈ x, f.isLight = true) (side : m.hub.loopSide = m₁.hub.loopSide) :
      Departing m₁ m info lower (x ++ [.mark info true])
  | flushing {x} : Departing m₁ m info lower (x ++ [.flush, .settle info true m₁.hub.stopping])
  | leaving {flushed upper} (before : m₁.Reaches flushed) (queue : flushed.hub.queue.toList = [])
      (flush : flushed.frames = .settle info true m₁.hub.stopping :: lower)
      (after : flushed.Reaches m)
      (unsent : ∀ p ∈ m.hub.waiting, p.event.sender ≠ info.instanceId)
      (leaves : Leaves flushed.hub.records.roster info m₁.hub.stopping m.hub.records.roster
        upper) : Departing m₁ m info lower upper

/-- What an unload has come to. When the queue was flushed, in `flushed`, the app left the roster. -/
structure Departed (m₁ flushed m' : Machine σ) (info : Info) (lower : List (Frame σ)) : Prop where
  before : m₁.Reaches flushed
  queue : flushed.hub.queue.toList = []
  flush : flushed.frames = .settle info true m₁.hub.stopping :: lower
  after : flushed.Reaches m'
  roster : m'.hub.records.roster =
    flushed.hub.records.roster.filter fun entry => entry.2.instanceId != info.instanceId
  unsent : ∀ p ∈ m'.hub.waiting, p.event.sender ≠ info.instanceId
  stopping : m'.hub.stopping = m₁.hub.stopping
  current : m'.hub.current = none

theorem departing_nonempty : ¬Departing m₁ m info lower [] := by
  intro hd
  generalize hnil : ([] : List (Frame σ)) = upper at hd
  cases hd with
  | messages | flushing => simp at hnil
  | leaving _ _ _ _ _ leaves =>
    subst hnil
    cases leaves

theorem Departing.interrupt {routine : Routine σ .handle .nothing}
    (h : Departing m₁ m info lower upper) :
    Departing m₁ (m.interrupt routine) info lower (.code (.handle .foreign) routine :: upper) := by
  cases h with
  | @messages x light side =>
    refine @Departing.messages _ _ _ _ _ (.code (.handle .foreign) routine :: x) (fun f hf => ?_) side
    rcases List.mem_cons.mp hf with rfl | hf
    · rfl
    · exact light f hf
  | @flushing x => exact @Departing.flushing _ _ _ _ _ (.code (.handle .foreign) routine :: x)
  | leaving before queue flush after unsent leaves =>
    exact .leaving before queue flush (after.tail (.interrupt routine)) unsent (.above rfl leaves)

/-- While an app is taken down nothing is queued in its name. -/
private theorem unsent_step {base now : List (Nat × Info)}
    (hm : Reachable ⟨hub, frame :: (above ++ lower)⟩)
    (leaves : Leaves base info previous now (frame :: above))
    (unsent : ∀ p ∈ hub.waiting, p.event.sender ≠ info.instanceId)
    (h : frame.step hub = .go hub' frames) :
    ∀ p ∈ hub'.waiting, p.event.sender ≠ info.instanceId := by
  have hunloading := hm.unloading
  have hstopping : hub.stopping = some info.instanceId := leaves.marked hunloading.marked
  have hshown : hub.shownStopping = info.instanceId := by
    rw [hunloading.shown, hstopping]
    rfl
  have hnamed : info.instanceId ≠ systemId := by
    obtain ⟨f, hf, hi⟩ := leaves.unloads
    exact hunloading.named f (List.mem_append_left lower hf) info hi
  intro p hp hsender
  rcases hm.accepts h p hp with hold | hsystem | hother
  · exact unsent p hold hsender
  · exact hnamed (hsender.symm.trans hsystem)
  · exact hother (hshown.trans hsender.symm)

private theorem leaving_step {flushed : Machine σ} (hm₁ : m₁.Reachable)
    (before : m₁.Reaches flushed) (queue : flushed.hub.queue.toList = [])
    (flush : flushed.frames = .settle info true m₁.hub.stopping :: lower)
    (after : flushed.Reaches ⟨hub, frame :: (above ++ lower)⟩)
    (unsent : ∀ p ∈ hub.waiting, p.event.sender ≠ info.instanceId)
    (leaves : Leaves flushed.hub.records.roster info m₁.hub.stopping hub.records.roster
      (frame :: above)) (h : frame.step hub = .go hub' frames) :
    Departing m₁ ⟨hub', frames ++ (above ++ lower)⟩ info lower (frames ++ above) ∨
      frames ++ above = [] ∧
        ∃ flushed, Departed m₁ flushed ⟨hub', frames ++ (above ++ lower)⟩ info lower := by
  have hflushed := hm₁.reaches before
  have hm := hflushed.reaches after
  have after' := after.tail (Move.of_go h)
  have unsent' := unsent_step hm leaves unsent h
  by_cases inner : frame.mark? = none
  · have light : frame.isLight = true →
        hub'.records = hub.records ∧ ∀ f ∈ frames, f.isLight = true := by
      intro hlight
      obtain ⟨side, hlights⟩ := step_light hlight h
      exact ⟨Hub.records_of_loopSide side, hlights⟩
    obtain ⟨turnover, -⟩ := step_turnover hm.nested.1 h
    exact .inl (.leaving before queue flush after' unsent' (leaves.step inner light turnover))
  · have hcurrent : frame.isBehalf = false → hub.current = none := hm.attributed.2.1
    have hdistinct : (flushed.hub.records.roster.map fun entry => entry.2.instanceId).Nodup := by
      have hinstances := hflushed.enrolled.instances
      rw [Records.infos, List.map_map] at hinstances
      exact hinstances
    cases leaves with
    | above light => exact absurd (mark?_of_isPhase (isPhase_of_isLight light)) inner
    | settle same =>
      rcases leaves_settle h with ⟨rfl, habsent, rfl⟩ | hleaves
      · refine .inr ⟨rfl, flushed, before, queue, flush, after', ?_, unsent', rfl, hcurrent rfl⟩
        have hall : ∀ entry ∈ flushed.hub.records.roster,
            (entry.2.instanceId != info.instanceId) = true := by
          intro entry hentry
          rw [bne_iff_ne]
          intro hid
          refine habsent (List.mem_map.mpr ⟨entry.2, ?_, hid⟩)
          exact List.mem_map_of_mem (same ▸ hentry)
        rw [List.filter_eq_self.mpr hall]
        exact same
      · rw [same] at hleaves
        rw [List.append_nil]
        exact .inl (.leaving before queue flush after' unsent' hleaves)
    | unmark gone placed named =>
      cases h
      refine .inr ⟨rfl, flushed, before, queue, flush, after', ?_, unsent', rfl, hcurrent rfl⟩
      have hfilter := filter_key_eq_eraseIdx hdistinct placed
      simp only [named] at hfilter
      rw [hfilter]
      exact gone
    | remove | finish | release | erase => exact absurd rfl inner

/-- Every step brings an unload forward, or to its end. -/
theorem Departing.step (hm₁ : m₁.Reachable) (hr : m₁.Reaches ⟨hub, frame :: (above ++ lower)⟩)
    (hd : Departing m₁ ⟨hub, frame :: (above ++ lower)⟩ info lower (frame :: above))
    (h : frame.step hub = .go hub' frames) :
    Departing m₁ ⟨hub', frames ++ (above ++ lower)⟩ info lower (frames ++ above) ∨
      frames ++ above = [] ∧
        ∃ flushed, Departed m₁ flushed ⟨hub', frames ++ (above ++ lower)⟩ info lower := by
  generalize hupper : frame :: above = upper at hd
  cases hd with
  | messages light side =>
    rcases List.cons_eq_append_iff.mp hupper with ⟨-, hfirst⟩ | ⟨x, rfl, rfl⟩
    · cases hfirst
      have hstopping : m₁.hub.stopping = hub.stopping := (congrArg LoopSide.stopping side).symm
      cases h
      rw [List.append_nil, ← hstopping]
      exact .inl (@Departing.flushing _ _ _ _ _ [])
    · obtain ⟨side', lights⟩ := step_light (light frame (List.mem_cons_self ..)) h
      rw [← List.append_assoc frames x]
      refine .inl (.messages (fun f hf => ?_) (side'.trans side))
      rcases List.mem_append.mp hf with hf | hf
      · exact lights f hf
      · exact light f (List.mem_cons_of_mem _ hf)
  | flushing =>
    rcases List.cons_eq_append_iff.mp hupper with ⟨-, hfirst⟩ | ⟨x, -, rfl⟩
    · cases hfirst
      simp only [Frame.step] at h
      split at h
      next hnone =>
        cases h
        have hempty := Hub.pop?_eq_none hnone
        have hunsent : ∀ p ∈ hub.waiting, p.event.sender ≠ info.instanceId := by
          simp [Hub.waiting, hempty]
        exact .inl (.leaving (hr.tail (Move.of_go (by simp only [Frame.step, hnone]))) hempty rfl
          .refl hunsent (.settle rfl))
      next handle hub₁ hp =>
        cases h
        exact .inl (@Departing.flushing _ _ _ _ _ [.dispatch handle])
    · rw [← List.append_assoc frames x]
      exact .inl .flushing
  | leaving before queue flush after unsent leaves =>
    rw [← hupper] at leaves
    exact leaving_step hm₁ before queue flush after unsent leaves h

theorem Departing.reaches (hm₁ : m₁.Reachable) (hd : Departing m₁ m₁ info lower upper)
    (hframes : m₁.frames = upper ++ lower)
    (hr : Relation.ReflTransGen (fun m next => Move m next ∧ next.Above lower) m₁ last) :
    m₁.Reaches last ∧ ∃ upper, last.frames = upper ++ lower ∧ Departing m₁ last info lower upper :=
  stays_above (P := fun m upper => Departing m₁ m info lower upper)
    (Q := fun m => ∃ flushed, Departed m₁ flushed m info lower) hr hframes hd
    departing_nonempty (fun hr hd h => hd.step hm₁ hr h) fun _ hd => hd.interrupt

/-- The machine is about to unload an app, which is accepted; `lower` goes on after it. -/
inductive Unloads (m : Machine σ) (id : UInt16) (force : Bool) : List (Frame σ) → Prop
  | routine {actor next rest}
      (frames : m.frames = .code (.loop actor) (.unload id force next) :: rest)
      (accepted : (m.hub.unload id force true).1 = .ok ()) :
      Unloads m id force (.code (.loop actor) (next (.ok ())) :: rest)
  /-- The request to unload the app was queued. -/
  | request {posting rest} (frames : m.frames = .complete posting :: rest)
      (work : posting.completion = .work (.unload id force))
      (accepted : (m.hub.unload id force true).1 = .ok ()) : Unloads m id force rest

/-- An unload begins with the host messages of the app that has the id. -/
theorem Unloads.opens {id : UInt16} {force : Bool} (hu : m.Unloads id force lower)
    (hs : m.step = .stepped m₁) :
    ∃ app ∈ m.hub.apps, app.nanoapp.info.instanceId = id ∧ m₁.hub.loopSide = m.hub.loopSide ∧
      m₁.frames = [.code (.handle (.flushMessages app.nanoapp.info))
        (m.hub.collaborators.flushMessages app.nanoapp.info), .mark app.nanoapp.info true] ++
          lower := by
  obtain ⟨hub, frame, rest, hub', frames, rfl, h, rfl⟩ := step_eq_stepped.mp hs
  cases hu with
  | @routine actor next rest he accepted =>
    cases he
    rcases Hub.unload_cases hub id force true with ⟨-, heq⟩ | ⟨-, heq⟩ | ⟨app, ha, hid, heq⟩
    · rw [heq] at accepted
      cases accepted
    · rw [heq] at accepted
      cases accepted
    · simp only [Frame.step, Routine.step, heq] at h
      cases h
      exact ⟨app, ha, hid, rfl, rfl⟩
  | @request posting rest he work accepted =>
    cases he
    have haccepted : ((hub.record (.worked posting.serial)).unload id force true).1 = .ok () := by
      rw [← accepted]
      exact Hub.unload_record hub id force true
    rcases Hub.complete_cases h with ⟨hc, -⟩ | ⟨callback, instanceId, hc, -⟩ | ⟨work', hc, hw⟩
    · rw [hc] at work
      cases work
    · rw [hc] at work
      cases work
    · rw [hc] at work
      cases work
      rcases Hub.unload_cases (hub.record (.worked posting.serial)) id force true with
        ⟨-, heq⟩ | ⟨-, heq⟩ | ⟨app, ha, hid, heq⟩
      · rw [heq] at haccepted
        cases haccepted
      · rw [heq] at haccepted
        cases haccepted
      · simp only [Hub.perform, heq] at hw
        cases hw
        exact ⟨app, ha, hid, Hub.loopSide_record hub rfl, rfl⟩

theorem Unloads.begins {id : UInt16} {force : Bool} (hu : m.Unloads id force lower)
    (hs : m.step = .stepped m₁) :
    ∃ info upper, info.instanceId = id ∧ m₁.hub.loopSide = m.hub.loopSide ∧
      m₁.frames = upper ++ lower ∧ Departing m₁ m₁ info lower upper := by
  obtain ⟨app, -, hid, side, hframes⟩ := hu.opens hs
  exact ⟨app.nanoapp.info, _, hid, side, hframes,
    @Departing.messages _ _ _ _ _ [_] (by simp [isLight, Actor.isLight]) rfl⟩

/-- When an unload that was accepted returns, the app is neither in the registry nor in the
directory, and no event in the queue is from it. The mark of the app that is stopping is what it was
before, and no app is current. At some point the queue had been flushed: the apps that were loaded
when the unload began and still were at that point, but for the one that was to go, are loaded, in
the same order, and in front of those that have joined since. -/
theorem unload_complete {id : UInt16} {force : Bool} (hm : m.Reachable)
    (hu : m.Unloads id force lower) (hs : m.step = .stepped m₁) (hret : m₁.Finishes lower m') :
    (id ∉ m'.hub.infos.map Info.instanceId ∧ id ∉ m'.hub.directory.map Info.instanceId) ∧
      (∀ p ∈ m'.hub.waiting, p.event.sender ≠ id) ∧
      (m'.hub.stopping = m.hub.stopping ∧ m'.hub.snapshot.stopping = m.hub.snapshot.stopping) ∧
      (m'.hub.current = none ∧ m'.hub.snapshot.current = none) ∧
      ∃ flushed newcomers, m₁.Reaches flushed ∧ flushed.Reaches m' ∧
        (∃ info, info.instanceId = id ∧
          flushed.frames = .settle info true m.hub.stopping :: lower) ∧
        flushed.hub.queue.toList = [] ∧
        m'.hub.records.roster =
          (m.hub.records.roster.filter fun entry =>
            entry ∈ flushed.hub.records.roster ∧ entry.2.instanceId ≠ id) ++ newcomers ∧
        ∀ entry ∈ newcomers, m.hub.loads < entry.1 := by
  have hm₁ := hm.move (.step hs)
  obtain ⟨info, upper, rfl, side, hframes, hd⟩ := hu.begins hs
  obtain ⟨last, hr, hlast, hlower⟩ := hret
  obtain ⟨hr, upper', he, hd'⟩ := hd.reaches hm₁ hframes hr
  have hm' := (hm₁.reaches hr).move (.step hlast)
  obtain ⟨flushed, hdone⟩ : ∃ flushed, Departed m₁ flushed m' info lower := by
    obtain ⟨hub, frame, rest, hub', frames, rfl, h, rfl⟩ := step_eq_stepped.mp hlast
    cases upper' with
    | nil => exact absurd hd' departing_nonempty
    | cons first above =>
      cases he
      have hnil : frames ++ above = [] := by
        have hlower' : frames ++ (above ++ lower) = lower := hlower
        rw [← List.append_assoc] at hlower'
        exact List.append_left_eq_self.mp hlower'
      rcases hd'.step hm₁ hr h with hgoes | ⟨-, hdone⟩
      · rw [hnil] at hgoes
        exact absurd hgoes departing_nonempty
      · exact hdone
  have hrecords := Hub.records_of_loopSide side
  have hprevious : m₁.hub.stopping = m.hub.stopping := congrArg LoopSide.stopping side
  have hstopping : m'.hub.stopping = m.hub.stopping := hdone.stopping.trans hprevious
  have hshown : m'.hub.snapshot.stopping = m.hub.snapshot.stopping := by
    show Hub.ofShown m'.hub.shownStopping = Hub.ofShown m.hub.shownStopping
    rw [hm'.unloading.shown, hm.unloading.shown, hstopping]
  have hcurrent : m'.hub.snapshot.current = none := by
    have hshowing : m'.hub.shownCurrent = Hub.shown m'.hub.current := hm'.attributed.1
    show Hub.ofShown m'.hub.shownCurrent = none
    rw [hshowing, hdone.current]
    rfl
  have habsent : info.instanceId ∉ m'.hub.infos.map Info.instanceId := by
    rw [Hub.infos_eq, Records.infos, hdone.roster, List.map_map]
    intro hmem
    obtain ⟨entry, hentry, hid⟩ := List.mem_map.mp hmem
    have hother := (List.mem_filter.mp hentry).2
    exact (bne_iff_ne.mp hother) hid
  have hdirectory : m'.hub.directory = m'.hub.infos := by
    rw [Hub.infos_eq]
    exact hm'.enrolled.directory
  obtain ⟨kept, newcomers, hsince⟩ := hdone.before.since hm₁
  have hflushed := hsince.eq_filter hm₁.enrolled
  rw [hrecords] at hflushed
  refine ⟨⟨habsent, hdirectory ▸ habsent⟩, hdone.unsent, ⟨hstopping, hshown⟩,
    ⟨hdone.current, hcurrent⟩, flushed,
    newcomers.filter fun entry => entry.2.instanceId != info.instanceId, hdone.before, hdone.after,
    ⟨info, rfl, hprevious ▸ hdone.flush⟩, hdone.queue, ?_, fun entry he => ?_⟩
  · rw [hdone.roster]
    conv_lhs => rw [hflushed]
    rw [List.filter_append, List.filter_filter]
    congr 1
    refine List.filter_congr fun entry _ => ?_
    have hne : (entry.2.instanceId != info.instanceId) =
        decide (entry.2.instanceId ≠ info.instanceId) := by
      by_cases hid : entry.2.instanceId = info.instanceId <;> simp [hid]
    rw [Bool.and_comm, Bool.decide_and, hne]
  · have hlater := hsince.later entry (List.mem_filter.mp he).1
    rwa [hrecords] at hlater

/-- A run that steps on its own above `lower` finishes where it comes down to `lower`. -/
theorem finishes_advance {budget : Nat} (hframes : m₁.frames = upper ++ lower)
    (unfinished : (m₁.advance budget).2 = .unfinished)
    (deep : ∀ k ≤ budget, lower.length < (m₁.advance k).1.frames.length)
    (last : (m₁.advance budget).1.step = .stepped m') (flat : m'.frames.length = lower.length) :
    m₁.Finishes lower m' := by
  have stays : ∀ {m next : Machine σ} {upper : List (Frame σ)}, m.frames = upper ++ lower →
      lower.length < m.frames.length → m.step = .stepped next →
      ∃ upper, next.frames = upper ++ lower := by
    intro m next upper he hlt hs
    obtain ⟨hub, frame, rest, hub', frames, rfl, -, rfl⟩ := step_eq_stepped.mp hs
    cases upper with
    | nil =>
      rw [he] at hlt
      exact absurd hlt (Nat.lt_irrefl _)
    | cons first above =>
      cases he
      exact ⟨frames ++ above, (List.append_assoc ..).symm⟩
  induction budget generalizing m₁ upper with
  | zero =>
    obtain ⟨above, he⟩ := stays hframes (deep 0 (Nat.le_refl _)) last
    have hnil : above = [] := by
      rw [he, List.length_append] at flat
      exact List.eq_nil_of_length_eq_zero (by omega)
    rw [hnil] at he
    exact ⟨m₁, .refl, last, he⟩
  | succ budget ih =>
    cases hs : m₁.step with
    | stepped next =>
      have hadvance : ∀ k, m₁.advance (k + 1) = next.advance k := by
        intro k
        simp only [advance, hs]
      obtain ⟨above, he⟩ := stays hframes (deep 0 (Nat.zero_le _)) hs
      have hdeep : ∀ k ≤ budget, lower.length < (next.advance k).1.frames.length := by
        intro k hk
        rw [← hadvance]
        exact deep (k + 1) (Nat.succ_le_succ hk)
      rw [hadvance] at unfinished last
      obtain ⟨final, hr, hfinal⟩ := ih he unfinished hdeep last
      refine ⟨final, .head ⟨.step hs, ?_⟩ hr, hfinal⟩
      have hnext : lower.length < next.frames.length := hdeep 0 (Nat.zero_le _)
      cases above with
      | nil =>
        rw [he] at hnext
        exact absurd hnext (Nat.lt_irrefl _)
      | cons first above => exact ⟨first, above, he⟩
    | finished | waiting | failed =>
      simp only [advance, hs] at unfinished
      cases unfinished

theorem unload_complete_nestedUnload :
    ∃ m' : Machine Unit, ((plain nestedUnload).advance 17).1.Finishes
        [.code (.loop .outside) (.done ())] m' ∧
      1 ∉ m'.hub.infos.map Info.instanceId ∧ (∀ p ∈ m'.hub.waiting, p.event.sender ≠ 1) ∧
      m'.hub.stopping = none ∧ m'.hub.current = none := by
  have hm : ((plain nestedUnload).advance 16).1.Reachable :=
    ⟨_, isStart_plain nestedUnload, reaches_unfinished (by decide +kernel)⟩
  have hu : ((plain nestedUnload).advance 16).1.Unloads 1 false
      [.code (.loop .outside) (.done ())] :=
    @Unloads.routine _ _ 1 false .outside (fun _ => .done ()) [] rfl rfl
  have hs : ((plain nestedUnload).advance 16).1.step =
      .stepped ((plain nestedUnload).advance 17).1 := rfl
  have hret : ((plain nestedUnload).advance 17).1.Finishes [.code (.loop .outside) (.done ())]
      ((plain nestedUnload).advance 82).1 :=
    @finishes_advance _ _ _ [_, _] _ 64 rfl (by decide +kernel) (by decide +kernel) rfl
      (by decide +kernel)
  obtain ⟨⟨habsent, -⟩, hunsent, ⟨hstopping, -⟩, ⟨hcurrent, -⟩, -⟩ :=
    unload_complete hm hu hs hret
  have hbefore : ((plain nestedUnload).advance 16).1.hub.stopping = none := by decide +kernel
  exact ⟨_, hret, habsent, hunsent, hstopping.trans hbefore, hcurrent⟩

end Machine

end SensorHub
