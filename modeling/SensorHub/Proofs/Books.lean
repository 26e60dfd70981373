import SensorHub.Proofs.Ledger

namespace SensorHub

variable {σ : Type}

namespace Ledger

abbrev Moves : Ledger σ → Ledger σ → Prop :=
  Relation.ReflTransGen Move

theorem Moves.balanced {l l' : Ledger σ} (h : Moves l l') (hb : l.Balanced) : l'.Balanced := by
  induction h with
  | refl => exact hb
  | tail _ hm ih => exact hm.balanced ih

theorem moves_notes {n : Nat} {pending out : List (Posting σ)} {active : List Nat}
    {journal news : List Incident} (h : ∀ i ∈ news, i.isIdle = true) :
    Moves ⟨n, pending, out, active, journal⟩ ⟨n, pending, out, active, news ++ journal⟩ := by
  induction news with
  | nil => exact .refl
  | cons i news ih =>
    refine (ih fun i hi => h i (List.mem_cons_of_mem _ hi)).tail ?_
    exact .note (h i (List.mem_cons_self ..))

end Ledger

open Ledger

namespace Hub

variable {hub hub₁ hub' : Hub σ} {cargo other : List (Cargo σ)} {handle : Handle}
  {posting : Posting σ}

def books (hub : Hub σ) (cargo : List (Cargo σ)) : Ledger σ where
  next := hub.postings
  pending := (hub.queue.toList ++ cargo.filterMap Cargo.stored?).filterMap hub.pool.inspect ++
    cargo.filterMap Cargo.waiting?
  out := cargo.filterMap Cargo.posting?
  active := cargo.filterMap Cargo.handler?
  journal := hub.journal

theorem mem_books :
    posting ∈ (hub.books cargo).pending ++ (hub.books cargo).out ↔
      (∃ k ∈ hub.queue.toList, hub.pool.inspect k = some posting) ∨
      (∃ item ∈ cargo, ∃ k, item.stored? = some k ∧ hub.pool.inspect k = some posting) ∨
      .waiting posting ∈ cargo ∨ .posting posting ∈ cargo := by
  have waits : ∀ item : Cargo σ, item.waiting? = some posting ↔ item = .waiting posting := by
    intro item
    cases item <;> simp [Cargo.waiting?]
  have goes : ∀ item : Cargo σ, item.posting? = some posting ↔ item = .posting posting := by
    intro item
    cases item <;> simp [Cargo.posting?]
  simp only [books, List.mem_append, List.mem_filterMap, waits, goes, exists_eq_right]
  constructor
  · rintro ((⟨k, hk | ⟨item, hi, hk⟩, hp⟩ | hw) | hp)
    · exact .inl ⟨k, hk, hp⟩
    · exact .inr (.inl ⟨item, hi, k, hk, hp⟩)
    · exact .inr (.inr (.inl hw))
    · exact .inr (.inr (.inr hp))
  · rintro (⟨k, hk, hp⟩ | ⟨item, hi, k, hk, hp⟩ | hw | hp)
    · exact .inl (.inl ⟨k, .inl hk, hp⟩)
    · exact .inl (.inl ⟨k, .inr ⟨item, hi, hk⟩, hp⟩)
    · exact .inl (.inr hw)
    · exact .inr hp

theorem moves_calm (h : hub.Calm hub') (cargo : List (Cargo σ)) :
    Moves (hub.books cargo) (hub'.books cargo) := by
  obtain ⟨news, hj, hq⟩ := h.journal
  have hinspect : hub'.pool.inspect = hub.pool.inspect := funext h.inspect
  simp only [books, h.postings, h.queue, hinspect, hj]
  exact moves_notes fun i hi => Incident.isIdle_of_isQuiet (hq i hi)

theorem moves_offer (hub : Hub σ) {way : Way} {event : Event} {completion : Completion σ}
    (kind : Matches way event completion) (cargo : List (Cargo σ)) :
    Moves (hub.books cargo) ((hub.offer way event completion).2.books
      (.waiting (hub.offer way event completion).1 :: cargo)) := by
  refine .tail (.single (.offer kind)) (.shuffle ?_ (.refl _) (.refl _))
  exact List.perm_middle.symm

private theorem moves_shuffle (hub : Hub σ) (cargo : List (Cargo σ)) {pending pending' : List (Posting σ)}
    (h : pending.Perm pending') :
    Move ⟨hub.postings, pending, cargo.filterMap Cargo.posting?, cargo.filterMap Cargo.handler?,
        hub.journal⟩
      ⟨hub.postings, pending', cargo.filterMap Cargo.posting?, cargo.filterMap Cargo.handler?,
        hub.journal⟩ :=
  .shuffle h (.refl _) (.refl _)

theorem moves_admits (h : hub.Admits posting handle hub')
    (hnew : handle ∉ hub.queue.toList ++ cargo.filterMap Cargo.handle?) :
    Moves (hub.books (.waiting posting :: cargo)) (hub'.books cargo) := by
  obtain ⟨news, hj, hq⟩ := h.journal
  have hsame : ∀ k ∈ hub.queue.toList ++ cargo.filterMap Cargo.stored?,
      hub'.pool.inspect k = hub.pool.inspect k := by
    intro k hk
    rw [h.inspect, if_neg]
    rintro rfl
    rcases List.mem_append.mp hk with hk | hk
    · exact hnew (List.mem_append_left _ hk)
    · exact hnew (List.mem_append_right _ (Tidy.handle_of_stored hk))
  have hstored : hub'.pool.inspect handle = some (posting.stamped hub.now) := by
    rw [h.inspect, if_pos rfl]
  have hpending : (hub'.books cargo).pending.Perm
      (posting.stamped hub.now ::
        ((hub.queue.toList ++ cargo.filterMap Cargo.stored?).filterMap hub.pool.inspect ++
          cargo.filterMap Cargo.waiting?)) := by
    have hperm : (hub'.queue.toList ++ cargo.filterMap Cargo.stored?).Perm
        (handle :: (hub.queue.toList ++ cargo.filterMap Cargo.stored?)) := by
      rw [h.queue, List.append_assoc]
      exact List.perm_middle
    have hfilter := hperm.filterMap hub'.pool.inspect
    rw [List.filterMap_cons_some hstored, List.filterMap_congr hsame] at hfilter
    exact hfilter.append_right _
  have first : Moves (hub.books (.waiting posting :: cargo))
      ⟨hub.postings, posting.stamped hub.now ::
        ((hub.queue.toList ++ cargo.filterMap Cargo.stored?).filterMap hub.pool.inspect ++
          cargo.filterMap Cargo.waiting?), cargo.filterMap Cargo.posting?,
        cargo.filterMap Cargo.handler?, hub.journal⟩ :=
    .tail (.single (.shuffle List.perm_middle (.refl _) (.refl _))) .stamp
  have second : Moves
      ⟨hub.postings, (hub'.books cargo).pending, cargo.filterMap Cargo.posting?,
        cargo.filterMap Cargo.handler?, hub.journal⟩
      ⟨hub.postings, (hub'.books cargo).pending, cargo.filterMap Cargo.posting?,
        cargo.filterMap Cargo.handler?,
        .admitted posting.serial hub.now :: news ++ hub.journal⟩ := by
    apply moves_notes
    intro i hi
    rcases List.mem_cons.mp hi with rfl | hi
    · rfl
    · exact Incident.isIdle_of_isQuiet (hq i hi)
  have hbooks : hub'.books cargo = ⟨hub.postings, (hub'.books cargo).pending,
      cargo.filterMap Cargo.posting?, cargo.filterMap Cargo.handler?,
      .admitted posting.serial hub.now :: news ++ hub.journal⟩ := by
    simp only [books, h.postings, hj, List.cons_append]
  rw [hbooks]
  exact (first.tail (.shuffle hpending.symm (.refl _) (.refl _))).trans second

theorem moves_release (hub : Hub σ) {posting : Posting σ}
    (plain : ∀ work, posting.completion ≠ .work work) (cargo : List (Cargo σ)) :
    Moves (hub.books (.waiting posting :: cargo))
      { hub.books cargo with journal := posting.completed ++ hub.journal } :=
  .tail (.single (.shuffle List.perm_middle (.refl _) (.refl _))) (.release plain)

theorem moves_evict {evicted : List Handle} (h : hub.Evicts evicted hub') (cargo : List (Cargo σ)) :
    Moves (hub.books cargo) (hub'.books (evicted.map .doomed ++ cargo)) := by
  have hstored : (evicted.map (@Cargo.doomed σ)).filterMap Cargo.stored? = evicted := by
    simp [List.filterMap_map, Function.comp_def, Cargo.stored?]
  have hnone : ∀ {β : Type} {f : Cargo σ → Option β}, (∀ k, f (.doomed k) = none) →
      (evicted.map (@Cargo.doomed σ)).filterMap f = [] := by
    intro β f hf
    rw [List.filterMap_map]
    exact List.filterMap_eq_nil_iff.mpr fun k _ => hf k
  have hperm : (hub.queue.toList ++ cargo.filterMap Cargo.stored?).Perm
      (hub'.queue.toList ++ (evicted ++ cargo.filterMap Cargo.stored?)) := by
    rw [← List.append_assoc]
    exact (h.perm.symm.trans List.perm_append_comm).append_right _
  refine .single ?_
  have hmove := hub.moves_shuffle cargo
    ((hperm.filterMap hub.pool.inspect).append_right (cargo.filterMap Cargo.waiting?))
  simp only [books, h.pool, h.postings, h.journal, List.filterMap_append, hstored,
    hnone (f := Cargo.waiting?) fun _ => rfl, hnone (f := Cargo.posting?) fun _ => rfl,
    hnone (f := Cargo.handler?) fun _ => rfl, List.nil_append] at hmove ⊢
  exact hmove

theorem moves_pop (h : hub.pop? = some (handle, hub')) (cargo : List (Cargo σ)) :
    Moves (hub.books cargo) (hub'.books (.slot handle :: cargo)) := by
  obtain ⟨queue, hlist, rfl⟩ := pop?_eq_some h
  have hperm : (hub.queue.toList ++ cargo.filterMap Cargo.stored?).Perm
      (queue.toList ++ handle :: cargo.filterMap Cargo.stored?) := by
    rw [hlist]
    exact List.perm_middle.symm
  have hmove := hub.moves_shuffle cargo
    ((hperm.filterMap hub.pool.inspect).append_right (cargo.filterMap Cargo.waiting?))
  exact (Relation.ReflTransGen.single hmove).tail (.note rfl)

/-- The event at the head of the pending ones is the one that is taken out of its slot. -/
theorem moves_take {item : Cargo σ} (hi : item.stored? = some handle)
    (ht : hub.Tidy (item :: cargo)) (held : hub.pool.inspect handle = some posting) :
    Moves (hub.books (item :: cargo))
      { (hub.take handle).2.books (.spent handle :: cargo) with
        pending := posting :: ((hub.take handle).2.books (.spent handle :: cargo)).pending } := by
  have hhandle : item.handle? = some handle := by
    cases item with
    | slot | doomed => exact hi
    | _ => cases hi
  have hperm : (hub.queue.toList ++ (item :: cargo).filterMap Cargo.stored?).Perm
      (handle :: (hub.queue.toList ++ cargo.filterMap Cargo.stored?)) := by
    rw [List.filterMap_cons_some hi]
    exact List.perm_middle
  have hfilter := hperm.filterMap hub.pool.inspect
  rw [List.filterMap_cons_some held, ← List.filterMap_congr (ht.inspect_take hhandle)] at hfilter
  have hmove := hub.moves_shuffle cargo (hfilter.append_right (cargo.filterMap Cargo.waiting?))
  refine .single ?_
  cases item with
  | slot | doomed => exact hmove
  | _ => cases hi

private theorem move_complete (hub : Hub σ) (posting : Posting σ) (cargo : List (Cargo σ)) :
    Move ⟨hub.postings, (hub.books cargo).pending, posting :: cargo.filterMap Cargo.posting?, [],
        hub.journal⟩
      ⟨hub.postings, (hub.books cargo).pending, cargo.filterMap Cargo.posting?, [],
        posting.completed ++ hub.journal⟩ :=
  .complete

theorem moves_vacate (ht : hub.Tidy (.spent handle :: cargo)) :
    Moves (hub.books (.spent handle :: cargo)) ((hub.vacate handle).books cargo) := by
  obtain ⟨pool, heq, -, hinspect⟩ := ht.vacate_eq
  rw [heq]
  simp only [books, List.filterMap_congr hinspect]
  exact .refl

theorem moves_posted (ht : hub.Tidy cargo) {frames : List (Frame σ)}
    (plain : ∀ work, posting.completion ≠ .work work ∨ hub.running = true)
    (h : hub.Posted posting hub' frames) :
    Moves (hub.books (.waiting posting :: cargo))
      (hub'.books (frames.flatMap Frame.cargo ++ cargo)) := by
  rcases posted_cases ht.sound h with
    ⟨-, rfl, handle, admits, hnew, -⟩ | ⟨-, evicted, evicts, rfl⟩ | ⟨hc, calm, rfl⟩ |
    ⟨callback, hub₁, hc, calm, rfl, rfl⟩ | ⟨work, hc, stopped, rfl, rfl⟩
  · exact moves_admits admits hnew
  · refine (moves_evict evicts (.waiting posting :: cargo)).trans ?_
    simp only [List.flatMap_cons, List.flatMap_nil, List.append_assoc, Frame.cargo]
    exact .refl
  · have hplain : ∀ work, posting.completion ≠ .work work := by simp [hc]
    have hrelease := moves_release hub hplain cargo
    simp only [Posting.completed, hc] at hrelease
    exact hrelease.trans (moves_calm calm cargo)
  · have hplain : ∀ work, posting.completion ≠ .work work := by simp [hc]
    have hrelease := moves_release hub₁ hplain cargo
    simp only [Posting.completed, hc] at hrelease
    exact (moves_calm calm _).trans hrelease
  · rcases plain work with h | h
    · exact absurd hc h
    · rw [stopped] at h
      cases h

end Hub

namespace Frame

variable {hub hub' : Hub σ} {frame : Frame σ} {frames : List (Frame σ)} {below : List (Cargo σ)}

/-- A new event is offered, and then waits for a slot or is released. -/
private theorem moves_post {hub₁ : Hub σ} {way : Way} {event : Event} {completion : Completion σ}
    {cargo : List (Cargo σ)} (ht : hub.Tidy cargo) (kind : Hub.Matches way event completion)
    (calm : (hub.offer way event completion).2.Calm hub₁)
    (direct : (∀ work, completion ≠ .work work) ∨ hub₁ = (hub.offer way event completion).2)
    (posted : hub₁.Posted (hub.offer way event completion).1 hub' frames) :
    Moves (hub.books cargo) (hub'.books (frames.flatMap Frame.cargo ++ cargo)) := by
  have ht₁ := (ht.offer way event completion).calm calm
  have offered := (hub.moves_offer kind cargo).trans (Hub.moves_calm calm _)
  by_cases hplain : ∀ work, completion ≠ .work work
  · exact offered.trans (Hub.moves_posted ht₁ (fun work => .inl (hplain work)) posted)
  · by_cases running : hub₁.running = true
    · exact offered.trans (Hub.moves_posted ht₁ (fun _ => .inr running) posted)
    · obtain rfl := direct.resolve_left hplain
      rcases Hub.posted_cases ht₁.sound posted with
        ⟨h, -⟩ | ⟨h, -⟩ | ⟨hc, -⟩ | ⟨callback, _, hc, -⟩ | ⟨work, hc, -, rfl, rfl⟩
      · exact absurd h running
      · exact absurd h running
      · exact absurd (fun work h => by cases hc.symm.trans h) hplain
      · exact absurd (fun work h => by cases hc.symm.trans h) hplain
      · obtain rfl : completion = .work work := hc
        exact .single (.refuse kind)

/-- An evicted event is one of those that may be dropped, so it carries no work. -/
theorem plain_of_doomed {handle : Handle} {posting : Posting σ} {cargo : List (Cargo σ)}
    (ht : hub.Tidy (.doomed handle :: cargo)) (held : hub.pool.inspect handle = some posting)
    (hb : (hub.books (.doomed handle :: cargo)).Balanced) :
    ∀ work, posting.completion ≠ .work work := by
  intro work hw
  have hlow := ht.doomed handle (List.mem_cons_self ..) posting held
  have hmem : posting ∈ (hub.books (.doomed handle :: cargo)).pending ++
      (hub.books (.doomed handle :: cargo)).out :=
    Hub.mem_books.mpr (.inr (.inl ⟨_, List.mem_cons_self .., handle, rfl, held⟩))
  obtain ⟨way, event, -, kind, he⟩ := hb.vouched posting hmem
  rw [hw] at kind
  generalize hc : Completion.work work = completion at kind
  cases kind with
  | critical event free => exact absurd hc.symm (Hub.ofCallback_ne_work free work)
  | low free h => exact absurd hc.symm (Hub.ofCallback_ne_work free work)
  | work work' =>
    rw [he] at hlow
    simp [Event.isEvictable, Event.system, Event.new] at hlow

/-- What a move of slots and events does to the books. -/
theorem Traffic.moves (h : frame.Traffic hub hub' frames) (ht : hub.Tidy (frame.cargo ++ below))
    (hb : (hub.books (frame.cargo ++ below)).Balanced)
    (heavy : frame.isLight = false → below.filterMap Cargo.handler? = []) :
    Moves (hub.books (frame.cargo ++ below))
      (hub'.books (frames.flatMap Frame.cargo ++ below)) := by
  cases h with
  | pass calm cargo =>
    rw [cargo]
    exact Hub.moves_calm calm _
  | post calm kind calm' direct _ posted cargo =>
    rw [List.flatMap_append, List.append_assoc, cargo]
    exact (Hub.moves_calm calm _).trans (moves_post (ht.calm calm) kind calm' direct posted)
  | enqueue he =>
    obtain ⟨handle, admits, hnew, -⟩ := Hub.enqueue_true ht.sound he
    exact Hub.moves_admits admits hnew
  | @evict handle rest posting _ frames held hd =>
    have ht' : hub.Tidy (.doomed handle :: (rest.map .doomed ++ below)) := ht
    have plain := plain_of_doomed ht' held hb
    have hcargo : (frames ++ [Frame.vacate handle, Frame.evict rest]).flatMap Frame.cargo ++ below =
        .spent handle :: (rest.map .doomed ++ below) := by
      rw [List.flatMap_append, cargo_detach hd]
      simp [cargo]
    rw [hcargo]
    have evicted : (Incident.evicted posting.serial).isIdle = true := rfl
    have released := ((Hub.moves_take rfl ht' held).tail (.note evicted)).tail (.release plain)
    rcases Hub.detach_cases hd with ⟨hc, rfl, -⟩ | ⟨callback, hc, rfl, -⟩ | ⟨work, hc, -⟩
    · simp only [Posting.completed, hc] at released
      exact released
    · simp only [Posting.completed, hc] at released
      exact released
    · exact absurd hc (plain work)
  | vacate => exact Hub.moves_vacate ht
  | pop calm hp how =>
    obtain ⟨hframe, hframes⟩ := how.cargo
    rw [hframe, hframes]
    exact (Hub.moves_calm calm _).trans (Hub.moves_pop hp below)
  | dispatch held => exact ((Hub.moves_take rfl ht held).tail .fetch).tail (.note rfl)
  | discard held => exact (Hub.moves_take rfl ht held).tail .fetch
  | hollow mem held => exact absurd held (ht.not_hollow mem)
  | @deliver posting index reached hub₁ load instanceId stopping routine calm =>
    refine (Hub.moves_calm calm _).tail ?_
    exact .enter (List.mem_cons_self ..)
  | leave => exact .single .leave
  | @forget posting hc =>
    have hactive := heavy rfl
    have done := hub.move_complete posting below
    simp only [Posting.completed, hc, ← hactive] at done
    exact .single done
  | @free posting callback hub₁ previous hc calm =>
    have hactive := heavy rfl
    have done := hub₁.move_complete posting below
    simp only [Posting.completed, hc, ← hactive] at done
    exact (Hub.moves_calm calm _).tail done
  | @work posting work _ frames hc calm cargo _ =>
    have hactive := heavy rfl
    have done := hub.move_complete posting below
    simp only [Posting.completed, hc, ← hactive] at done
    rw [cargo]
    exact (Relation.ReflTransGen.single done).trans (Hub.moves_calm calm below)

end Frame

namespace Machine

def books (m : Machine σ) : Ledger σ :=
  m.hub.books m.cargo

theorem handlers_eq_nil {frames : List (Frame σ)} (h : ∀ f ∈ frames, f.index? = none) :
    (frames.flatMap Frame.cargo).filterMap Cargo.handler? = [] := by
  rw [List.filterMap_flatMap]
  refine List.flatMap_eq_nil_iff.mpr fun frame hf => ?_
  have hplain := h frame hf
  cases frame with
  | code actor routine =>
    cases actor with
    | entry => cases hplain
    | _ => rfl
  | evict handles => simp [Frame.cargo, List.filterMap_map, Function.comp_def, Cargo.handler?]
  | _ => rfl

/-- A step of a reachable machine is a row of moves of its books. -/
theorem Reachable.moves {hub hub' : Hub σ} {frame : Frame σ} {frames rest : List (Frame σ)}
    (hm : Reachable ⟨hub, frame :: rest⟩) (hb : (books ⟨hub, frame :: rest⟩).Balanced)
    (h : frame.step hub = .go hub' frames) :
    Moves (books ⟨hub, frame :: rest⟩) (books ⟨hub', frames ++ rest⟩) := by
  simp only [books, cargo, List.flatMap_append]
  refine (hm.traffic h).moves hm.tidy hb fun light => ?_
  exact handlers_eq_nil (hm.nested.2.1 light)

theorem Reachable.balanced {m : Machine σ} (hm : m.Reachable) : m.books.Balanced := by
  refine hm.keeps (P := fun hub frames => (books ⟨hub, frames⟩).Balanced) ?_ ?_ ?_
  · intro config collaborators memory now routine _
    have hbooks : (launch (.create config collaborators memory now) routine).books =
        ⟨0, [], [], [], []⟩ := rfl
    rw [launch] at hbooks
    rw [hbooks]
    refine ⟨?_, ?_, ?_, ?_, ?_, ?_, ?_, ?_, ?_, ?_, ?_, ?_⟩
    all_goals simp [tally, Ledger.owned, Ledger.Orderly]
  · intro hub hub' frame frames rest hm hb h
    exact (hm.moves hb h).balanced hb
  · intro hub frames routine hb
    exact hb

end Machine

end SensorHub
