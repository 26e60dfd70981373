import SensorHub.Proofs.Admission

namespace SensorHub

variable {σ : Type}

namespace Routine

def posts {r : Reach} {a : Answer} : Routine σ r a → Bool
  | .post .. | .postLow .. | .request .. | .send .. => true
  | _ => false

end Routine

namespace Frame

def posts : Frame σ → Bool
  | .code _ routine => routine.posts
  | _ => false

/-- The first entry point of an app ends, and the app may not stay. -/
def declines : Frame σ → Bool
  | .code (.start _ _ _) (.done ok) => !ok
  | _ => false

end Frame

namespace Hub

/-- The loop finds the same apps as before, and may go on as before. -/
structure Alike (hub hub' : Hub σ) : Prop where
  config : hub'.config = hub.config
  collaborators : hub'.collaborators = hub.collaborators
  running : hub'.running = hub.running
  infos : hub'.infos = hub.infos
  nextId : hub'.nextId = hub.nextId

/-- The loop also finds the same events as before. -/
structure Kept (hub hub' : Hub σ) : Prop extends hub.Alike hub' where
  pool : hub'.pool = hub.pool
  queue : hub'.queue = hub.queue

variable {hub hub₁ hub' : Hub σ}

theorem Alike.trans (h : hub.Alike hub₁) (h' : hub₁.Alike hub') : hub.Alike hub' :=
  ⟨h'.config.trans h.config, h'.collaborators.trans h.collaborators, h'.running.trans h.running,
    h'.infos.trans h.infos, h'.nextId.trans h.nextId⟩

theorem Alike.of_side (side : hub'.loopSide = hub.loopSide) : hub.Alike hub' :=
  ⟨congrArg LoopSide.config side, congrArg LoopSide.collaborators side,
    congrArg LoopSide.running side, infos_of_loopSide side, congrArg LoopSide.nextId side⟩

namespace Kept

theorem refl (hub : Hub σ) : hub.Kept hub :=
  ⟨⟨rfl, rfl, rfl, rfl, rfl⟩, rfl, rfl⟩

theorem trans (h : hub.Kept hub₁) (h' : hub₁.Kept hub') : hub.Kept hub' :=
  ⟨h.toAlike.trans h'.toAlike, h'.pool.trans h.pool, h'.queue.trans h.queue⟩

theorem waiting (h : hub.Kept hub') : hub'.waiting = hub.waiting := by
  rw [Hub.waiting, Hub.waiting, h.pool, h.queue]

theorem alterApp (hub : Hub σ) (index : Nat) {change : Nanoapp → Nanoapp}
    (keeps : ∀ n : Nanoapp, (change n).info = n.info) : hub.Kept (hub.alterApp index change) :=
  ⟨⟨rfl, rfl, rfl, infos_alterApp hub index keeps, rfl⟩, rfl, rfl⟩

theorem rollWakeups (hub : Hub σ) : hub.Kept hub.rollWakeups := by
  refine ⟨.of_side (loopSide_rollWakeups hub), ?_, ?_⟩
  all_goals
    unfold Hub.rollWakeups
    split <;> rfl

theorem checkLatency (hub : Hub σ) (event : Event) (receiver : UInt16) :
    hub.Kept (hub.checkLatency event receiver) := by
  refine ⟨.of_side (loopSide_checkLatency hub event receiver), ?_, ?_⟩
  all_goals
    unfold Hub.checkLatency
    dsimp only
    split
    next => split <;> rfl
    next => rfl

theorem deliverTo (hub : Hub σ) (index : Nat) (app : App σ) (serial : Option Nat) (event : Event)
    (hasCallback : Bool) : hub.Kept (hub.deliverTo index app serial event hasCallback).1 := by
  have kept := checkLatency hub event app.nanoapp.info.instanceId
  exact ⟨⟨kept.config, kept.collaborators, kept.running, kept.infos, kept.nextId⟩, kept.pool,
    kept.queue⟩

end Kept

theorem length_infos (hub : Hub σ) : hub.infos.length = hub.apps.length :=
  List.length_map _

theorem Alike.length_apps (h : hub.Alike hub') : hub'.apps.length = hub.apps.length := by
  rw [← length_infos, ← length_infos, h.infos]

end Hub

namespace Machine

open Hub

variable {m m' : Machine σ} {hub hub' : Hub σ} {frame : Frame σ} {lower : List (Frame σ)}

/-- As long as the machine is not done with the frames above `lower`, no code posts an event, and
every app that starts may stay. -/
def Quiet (lower : List (Frame σ)) (m : Machine σ) : Prop :=
  ∀ m', m.Runs m' → lower <:+ m'.frames →
    ∀ frame ∈ m'.frames.head?, frame.posts = false ∧ frame.declines = false

theorem Quiet.runs (h : m.Quiet lower) (hr : m.Runs m') : m'.Quiet lower :=
  fun _ hr' => h _ (hr.trans hr')

theorem Quiet.above {upper : List (Frame σ)} (h : m.Quiet lower) (hs : lower <:+ upper) :
    m.Quiet upper :=
  fun m' hr hs' => h m' hr (hs.trans hs')

theorem Quiet.head (h : Quiet lower ⟨hub, frame :: lower⟩) :
    frame.posts = false ∧ frame.declines = false :=
  h _ .refl (List.suffix_cons ..) frame rfl

/-- By its own steps the machine comes to the end of the code, and what the loop finds is as
before. -/
def Ends (hub : Hub σ) {r : Reach} {a : Answer} (actor : Actor σ r a) (routine : Routine σ r a)
    (lower : List (Frame σ)) : Prop :=
  ∃ value hub', Runs ⟨hub, .code actor routine :: lower⟩ ⟨hub', .code actor (.done value) :: lower⟩ ∧
    hub.Kept hub'

theorem Ends.after {hub₁ : Hub σ} {r : Reach} {a : Answer} {actor : Actor σ r a}
    {routine next : Routine σ r a} (h : Ends hub₁ actor next lower)
    (step : (Frame.code actor routine).step hub = .go hub₁ [.code actor next])
    (kept : hub.Kept hub₁) : Ends hub actor routine lower := by
  obtain ⟨value, hub', hruns, kept'⟩ := h
  exact ⟨value, hub', (Runs.of_go step).trans hruns, kept.trans kept'⟩

private theorem exists_app {a : Answer} {actor : Actor σ .app a}
    (placed : ∀ i, actor.place? = some i → i < hub.apps.length) :
    ∃ app, hub.apps[actor.index]? = some app := by
  cases actor with
  | start index => exact ⟨_, List.getElem?_eq_getElem (placed index rfl)⟩
  | entry index => exact ⟨_, List.getElem?_eq_getElem (placed index rfl)⟩

private theorem placed_alterApp {r : Reach} {a : Answer} {actor : Actor σ r a}
    (placed : ∀ i, actor.place? = some i → i < hub.apps.length) (index : Nat)
    (change : Nanoapp → Nanoapp) :
    ∀ i, actor.place? = some i → i < (hub.alterApp index change).apps.length := by
  intro i hi
  rw [alterApp, List.length_modify]
  exact placed i hi

/-- Code without the loop that posts nothing comes to its end. -/
theorem ends_quiet {r : Reach} {a : Answer} (actor : Actor σ r a) (reach : r ≠ .loop)
    (lower : List (Frame σ)) : (routine : Routine σ r a) → (hub : Hub σ) →
    (∀ i, actor.place? = some i → i < hub.apps.length) →
    Quiet lower ⟨hub, .code actor routine :: lower⟩ → Ends hub actor routine lower
  | .done value, hub, _, _ => ⟨value, hub, .refl, .refl hub⟩
  | .recall next, hub, placed, quiet => by
    have step : (Frame.code actor (.recall next)).step hub =
        .go hub [.code actor (next hub.memory)] := by
      simp only [Frame.step, Routine.step]
    exact (ends_quiet actor reach lower (next hub.memory) hub placed
      (quiet.runs (Runs.of_go step))).after step (.refl hub)
  | .store memory next, hub, placed, quiet => by
    have step : (Frame.code actor (.store memory next)).step hub =
        .go { hub with memory := memory } [.code actor next] := by
      simp only [Frame.step, Routine.step]
    exact (ends_quiet actor reach lower next { hub with memory := memory } placed
      (quiet.runs (Runs.of_go step))).after step ⟨⟨rfl, rfl, rfl, rfl, rfl⟩, rfl, rfl⟩
  | .note line next, hub, placed, quiet => by
    have step : (Frame.code actor (.note line next)).step hub =
        .go (hub.record (.noted line)) [.code actor next] := by
      simp only [Frame.step, Routine.step]
    exact (ends_quiet actor reach lower next (hub.record (.noted line)) placed
      (quiet.runs (Runs.of_go step))).after step ⟨⟨rfl, rfl, rfl, rfl, rfl⟩, rfl, rfl⟩
  | .pause nanoseconds next, hub, placed, quiet => by
    have step : (Frame.code actor (.pause nanoseconds next)).step hub =
        .go (hub.elapse nanoseconds) [.code actor next] := by
      simp only [Frame.step, Routine.step]
    exact (ends_quiet actor reach lower next (hub.elapse nanoseconds) placed
      (quiet.runs (Runs.of_go step))).after step ⟨⟨rfl, rfl, rfl, rfl, rfl⟩, rfl, rfl⟩
  | .observe next, hub, placed, quiet => by
    have step : (Frame.code actor (.observe next)).step hub =
        .go hub [.code actor (next hub.snapshot)] := by
      simp only [Frame.step, Routine.step]
    exact (ends_quiet actor reach lower (next hub.snapshot) hub placed
      (quiet.runs (Runs.of_go step))).after step (.refl hub)
  | .post .., _, _, quiet => by cases quiet.head.1
  | .postLow .., _, _, quiet => by cases quiet.head.1
  | .request .., _, _, quiet => by cases quiet.head.1
  | .send .., _, _, quiet => by cases quiet.head.1
  | .lookInward next, hub, placed, quiet => by
    obtain ⟨app, ha⟩ := exists_app placed
    have step : (Frame.code actor (.lookInward next)).step hub = .go hub [.code actor
        (next ⟨app.nanoapp.info, app.nanoapp.registrations, actor.stopping⟩)] := by
      simp only [Frame.step, Routine.step, ha]
    exact (ends_quiet actor reach lower _ hub placed (quiet.runs (Runs.of_go step))).after step
      (.refl hub)
  | .register type mask next, hub, placed, quiet => by
    obtain ⟨app, ha⟩ := exists_app placed
    have step : (Frame.code actor (.register type mask next)).step hub =
        .go (hub.alterApp actor.index fun n =>
            { n with registrations := (app.nanoapp.registrations.register type mask).2 })
          [.code actor (next (app.nanoapp.registrations.register type mask).1)] := by
      simp only [Frame.step, Routine.step, ha]
    exact (ends_quiet actor reach lower _ _ (placed_alterApp placed _ _)
      (quiet.runs (Runs.of_go step))).after step (.alterApp hub _ fun _ => rfl)
  | .unregister type mask next, hub, placed, quiet => by
    obtain ⟨app, ha⟩ := exists_app placed
    have step : (Frame.code actor (.unregister type mask next)).step hub =
        .go (hub.alterApp actor.index fun n =>
            { n with registrations := (app.nanoapp.registrations.unregister type mask).2 })
          [.code actor (next (app.nanoapp.registrations.unregister type mask).1)] := by
      simp only [Frame.step, Routine.step, ha]
    exact (ends_quiet actor reach lower _ _ (placed_alterApp placed _ _)
      (quiet.runs (Runs.of_go step))).after step (.alterApp hub _ fun _ => rfl)
  | .blame next, hub, placed, quiet => by
    have step : (Frame.code actor (.blame next)).step hub =
        .go ((hub.alterApp actor.index Nanoapp.blame).record (.blamed (hub.loadAt actor.index)))
          [.code actor next] := by
      simp only [Frame.step, Routine.step]
    have kept : hub.Kept ((hub.alterApp actor.index Nanoapp.blame).record
        (.blamed (hub.loadAt actor.index))) :=
      ⟨⟨rfl, rfl, rfl, infos_alterApp hub actor.index fun _ => rfl, rfl⟩, rfl, rfl⟩
    have placed' : ∀ i, actor.place? = some i → i < ((hub.alterApp actor.index Nanoapp.blame).record
        (.blamed (hub.loadAt actor.index))).apps.length :=
      placed_alterApp placed actor.index Nanoapp.blame
    exact (ends_quiet actor reach lower next _ placed'
      (quiet.runs (Runs.of_go step))).after step kept
  | .inspect _, _, _, _ => absurd rfl reach
  | .start _ _, _, _, _ => absurd rfl reach
  | .unload _ _ _, _, _, _ => absurd rfl reach
  | .runUntilIdle _, _, _, _ => absurd rfl reach
  | .run _, _, _, _ => absurd rfl reach
  | .deliver _ _ _ _, _, _, _ => absurd rfl reach
  | .rollWakeups _, _, _, _ => absurd rfl reach
  | .freeMessage _ _ _, _, _, _ => absurd rfl reach

/-- By its own steps the machine gets done with the frame, and what the loop finds is as before. -/
def Passes (hub : Hub σ) (frame : Frame σ) (lower : List (Frame σ)) : Prop :=
  ∃ hub', Runs ⟨hub, frame :: lower⟩ ⟨hub', lower⟩ ∧ hub.Kept hub'

theorem passes_handle {purpose : Purpose} {routine : Routine σ .handle .nothing}
    (quiet : Quiet lower ⟨hub, .code (.handle purpose) routine :: lower⟩) :
    Passes hub (.code (.handle purpose) routine) lower := by
  obtain ⟨value, hub', hruns, kept⟩ :=
    ends_quiet (.handle purpose) nofun lower routine hub nofun quiet
  have step : (Frame.code (.handle purpose) (.done value)).step hub' = .go hub' [] := rfl
  exact ⟨hub', hruns.trans (Runs.of_go step), kept⟩

theorem passes_entry {index : Nat} {stopping : Bool} {point : EntryPoint}
    {routine : Routine σ .app .nothing} (placed : index < hub.apps.length)
    (quiet : Quiet lower ⟨hub, .code (.entry index stopping point) routine :: lower⟩) :
    Passes hub (.code (.entry index stopping point) routine) lower := by
  have hplaced : ∀ i, (Actor.entry index stopping point : Actor σ .app .nothing).place? = some i →
      i < hub.apps.length := by
    rintro i ⟨⟩
    exact placed
  obtain ⟨value, hub', hruns, kept⟩ :=
    ends_quiet (.entry index stopping point) nofun lower routine hub hplaced quiet
  have step : (Frame.code (.entry index stopping point) (.done value)).step hub' =
      .go (hub'.record (.left (hub'.loadAt index) point)) [] := rfl
  have left : hub'.Kept (hub'.record (.left (hub'.loadAt index) point)) :=
    ⟨⟨rfl, rfl, rfl, rfl, rfl⟩, rfl, rfl⟩
  exact ⟨_, hruns.trans (Runs.of_go step), kept.trans left⟩

/-- One resource manager after the other releases what an app holds. -/
theorem passes_release {load : Nat} {info : Info} {managers : List (Nat × Releaser σ)}
    (quiet : Quiet lower ⟨hub, .release load info managers :: lower⟩) :
    Passes hub (.release load info managers) lower := by
  induction managers generalizing hub with
  | nil =>
    have step : (Frame.release load info [] : Frame σ).step hub = .go hub [] := rfl
    exact ⟨hub, Runs.of_go step, .refl hub⟩
  | cons manager managers ih =>
    obtain ⟨place, releaser⟩ := manager
    have asked : (Frame.release load info ((place, releaser) :: managers)).step hub =
        .go (hub.record (.released load releaser.kind place))
          [.code (.release releaser.kind info) (releaser.release info),
            .release load info managers] := rfl
    have hasked : Runs ⟨hub, .release load info ((place, releaser) :: managers) :: lower⟩
        ⟨hub.record (.released load releaser.kind place),
          .code (.release releaser.kind info) (releaser.release info) ::
            .release load info managers :: lower⟩ := Runs.of_go asked
    obtain ⟨count, hub₁, hruns, kept⟩ := ends_quiet (.release releaser.kind info) nofun
      (.release load info managers :: lower) (releaser.release info) _ nofun
      ((quiet.runs hasked).above (List.suffix_cons ..))
    -- What the app had left behind is reported.
    obtain ⟨hub₂, step, reported⟩ : ∃ hub₂,
        (Frame.code (.release releaser.kind info) (.done count)).step hub₁ = .go hub₂ [] ∧
          hub₁.Kept hub₂ := by
      refine ⟨_, rfl, ?_⟩
      split
      · exact .refl hub₁
      · exact ⟨⟨rfl, rfl, rfl, rfl, rfl⟩, rfl, rfl⟩
    have hdone := (hasked.trans hruns).trans (Runs.of_go step)
    obtain ⟨hub', hrest, kept'⟩ := ih (quiet.runs hdone)
    have recorded : hub.Kept (hub.record (.released load releaser.kind place)) :=
      ⟨⟨rfl, rfl, rfl, rfl, rfl⟩, rfl, rfl⟩
    exact ⟨hub', hdone.trans hrest, ((recorded.trans kept).trans reported).trans kept'⟩

theorem distributes {posting : Posting σ} {index : Nat} {reached : Bool}
    (quiet : Quiet lower ⟨hub, .distribute posting index reached :: lower⟩) :
    ∃ hub', Runs ⟨hub, .distribute posting index reached :: lower⟩
      ⟨hub', .complete posting :: lower⟩ ∧ hub.Kept hub' := by
  generalize hleft : hub.apps.length - index = left
  induction left generalizing hub index reached with
  | zero =>
    have none : hub.apps[index]? = none := List.getElem?_eq_none (by omega)
    obtain ⟨hub', step, kept⟩ : ∃ hub', (Frame.distribute posting index reached).step hub =
        .go hub' [.complete posting] ∧ hub.Kept hub' := by
      simp only [Frame.step, offerTo, none]
      refine ⟨_, rfl, ?_⟩
      split
      · exact ⟨⟨rfl, rfl, rfl, rfl, rfl⟩, rfl, rfl⟩
      · exact .refl hub
    exact ⟨hub', Runs.of_go step, kept⟩
  | succ left ih =>
    have hlt : index < hub.apps.length := by omega
    have ha : hub.apps[index]? = some hub.apps[index] := List.getElem?_eq_getElem hlt
    -- The app handles the event, or it is passed over.
    obtain ⟨hub₁, reached₁, hruns, kept⟩ : ∃ hub₁ reached₁,
        Runs ⟨hub, .distribute posting index reached :: lower⟩
          ⟨hub₁, .distribute posting (index + 1) reached₁ :: lower⟩ ∧ hub.Kept hub₁ := by
      cases hw : wanted posting.event hub.apps[index].nanoapp with
      | false =>
        have step : (Frame.distribute posting index reached).step hub =
            .go hub [.distribute posting (index + 1) reached] := by
          simp only [Frame.step, offerTo, ha, hw, Bool.false_eq_true, if_false]
        exact ⟨hub, reached, Runs.of_go step, .refl hub⟩
      | true =>
        obtain ⟨hub₁, stopping, entered, kept⟩ : ∃ hub₁ stopping,
            (Frame.distribute posting index reached).step hub = .go hub₁
              [.code (.entry index stopping (.event (some posting.serial)))
                  (hub.apps[index].onEvent posting.event posting.completion.hasCallback),
                .delivered index, .distribute posting (index + 1) true] ∧ hub.Kept hub₁ := by
          simp only [Frame.step, offerTo, ha, hw, if_true]
          exact ⟨_, _, rfl, .deliverTo hub index _ _ _ _⟩
        have hentered : Runs ⟨hub, .distribute posting index reached :: lower⟩ ⟨hub₁,
            .code (.entry index stopping (.event (some posting.serial)))
                (hub.apps[index].onEvent posting.event posting.completion.hasCallback) ::
              .delivered index :: .distribute posting (index + 1) true :: lower⟩ :=
          Runs.of_go entered
        have placed : index < hub₁.apps.length := by
          rw [kept.length_apps]
          exact hlt
        obtain ⟨hub₂, hhandled, kept₂⟩ := passes_entry placed
          ((quiet.runs hentered).above ⟨[_, _], rfl⟩)
        have counted : (Frame.delivered index : Frame σ).step hub₂ =
            .go (hub₂.finishDelivery index) [] := rfl
        have kept₃ : hub₂.Kept (hub₂.finishDelivery index) :=
          ⟨⟨rfl, rfl, rfl, infos_alterApp hub₂ index fun _ => rfl, rfl⟩, rfl, rfl⟩
        exact ⟨_, true, (hentered.trans hhandled).trans (Runs.of_go counted),
          (kept.trans kept₂).trans kept₃⟩
    obtain ⟨hub', hrest, kept'⟩ := ih (quiet.runs hruns) (by rw [kept.length_apps]; omega)
    exact ⟨hub', hruns.trans hrest, kept.trans kept'⟩

end Machine

end SensorHub
