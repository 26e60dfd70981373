import SensorHub.Proofs.Parting

namespace SensorHub

variable {σ : Type}

namespace Life

/-- The end of the life of an app that was `started`, or that did not start, up to its last
manager. -/
def ending (load : Nat) (info : Info) (started : Bool) (managers : List (Nat × Releaser σ)) :
    List Incident :=
  (if started then [.entered load info.instanceId .finish true, .left load .finish] else []) ++
    managers.map fun manager => .released load manager.2.kind manager.1

theorem ending_concat (load : Nat) (info : Info) (started : Bool)
    (managers : List (Nat × Releaser σ)) (manager : Nat × Releaser σ) :
    ending load info started (managers ++ [manager]) =
      ending load info started managers ++ [.released load manager.2.kind manager.1] := by
  simp [ending, List.append_assoc]

end Life

namespace Records

def noteAll (r : Records σ) (deeds : List Incident) : Records σ :=
  { r with deeds := deeds.reverse ++ r.deeds }

theorem noteAll_concat (r : Records σ) (deeds : List Incident) (deed : Incident) :
    r.noteAll (deeds ++ [deed]) = (r.noteAll deeds).note deed := by
  simp [noteAll, note]

end Records

namespace Frame

variable {first r r' : Records σ} {started : Bool} {index load : Nat} {info : Info}
  {frame : Frame σ} {frames upper rest : List (Frame σ)}

/-- The frames that take down the app at a place, from its removal on. The records were `first` when
it was to be removed, and they are `r`. -/
inductive Takedown (first : Records σ) (started : Bool) (index load : Nat) (info : Info) :
    Records σ → List (Frame σ) → Prop
  | above {r f upper} (light : Frame.isLight f = true)
      (h : Takedown first started index load info r upper) :
      Takedown first started index load info r (f :: upper)
  | remove : Takedown first started index load info first [.remove index started]
  | finish {routine} (running : started = true) :
      Takedown first started index load info
        (first.note (.entered load info.instanceId .finish true))
        [.code (.entry index true .finish) routine,
          .release load info first.collaborators.inReleaseOrder, .erase index load info]
  | release {managers left} (order : managers ++ left = first.collaborators.inReleaseOrder) :
      Takedown first started index load info
        (first.noteAll (Life.ending load info started managers))
        [.release load info left, .erase index load info]
  | erase : Takedown first started index load info
      (first.noteAll (Life.ending load info started first.collaborators.inReleaseOrder))
      [.erase index load info]
  | gone : Takedown first started index load info
      ((first.noteAll (Life.ending load info started first.collaborators.inReleaseOrder)).erase
        index load info.instanceId) []

theorem Takedown.lights (light : ∀ f ∈ upper, f.isLight = true)
    (h : Takedown first started index load info r rest) :
    Takedown first started index load info r (upper ++ rest) := by
  induction upper with
  | nil => exact h
  | cons frame upper ih =>
    refine .above (light frame (List.mem_cons_self ..)) (ih fun f hf => ?_)
    exact light f (List.mem_cons_of_mem _ hf)

theorem Takedown.step (placed : first.roster[index]? = some (load, info))
    (hd : Takedown first started index load info r (frame :: rest))
    (light : frame.isLight = true → r' = r ∧ ∀ f ∈ frames, f.isLight = true)
    (t : frame.Turnover r r' frames) :
    Takedown first started index load info r' (frames ++ rest) := by
  cases hd with
  | above hframe h =>
    obtain ⟨rfl, lights⟩ := light hframe
    exact h.lights lights
  | remove =>
    cases t with
    | missing absent =>
      rw [placed] at absent
      cases absent
    | finish here =>
      rw [placed] at here
      cases here
      exact .finish rfl
    | remove here =>
      rw [placed] at here
      cases here
      exact @Takedown.release _ first false index load info [] _ rfl
    | apart apart | join apart | enter apart | depart apart => cases apart
  | finish running =>
    subst running
    cases t with
    | work lights =>
      rw [List.append_assoc]
      exact Takedown.lights lights (.finish rfl)
    | left here =>
      have hplaced : first.roster[index]? = some (_, _) := here
      rw [placed] at hplaced
      cases hplaced
      exact @Takedown.release _ first true index load info [] _ rfl
    | apart apart | join apart | enter apart | depart apart => cases apart
  | @release managers left order =>
    cases t with
    | released =>
      rw [List.append_nil] at order
      rw [order]
      exact .erase
    | @release _ _ place manager left _ =>
      rw [← Records.noteAll_concat, ← Life.ending_concat load info started managers (place, manager)]
      refine .above rfl (.release ?_)
      rw [List.append_assoc]
      exact order
    | apart apart | join apart | enter apart | depart apart => cases apart
  | erase =>
    cases t with
    | erase => exact .gone
    | apart apart | join apart | enter apart | depart apart => cases apart

end Frame

namespace Machine

open SensorHub.Frame

variable {m m₁ m' flushed next : Machine σ} {hub hub' : Hub σ} {frame : Frame σ}
  {frames above upper lower : List (Frame σ)} {info : Info}

/-- What an unload of an app with this info comes to, once the queue is flushed. -/
inductive Upshot (info : Info) (flushed next m' : Machine σ) : Prop
  /-- No app has the id any more. -/
  | gone (absent : info.instanceId ∉ flushed.hub.infos.map Info.instanceId)
      (once : m' = next) (deeds : m'.hub.deeds = flushed.hub.deeds)
      (mute : announcements m'.hub.journal = announcements flushed.hub.journal)
  /-- The app that has the id is taken down, and is announced under the info. -/
  | takes {holder other} (mem : (holder, other) ∈ flushed.hub.records.roster)
      (named : other.instanceId = info.instanceId)
      (told : .announced flushed.hub.postings holder EventType.nanoappStopped info ∈
        next.hub.journal)
      (deeds : m'.hub.deeds = .erased holder other.instanceId ::
        ((Life.ending holder other true flushed.hub.collaborators.inReleaseOrder).reverse ++
          flushed.hub.deeds))

/-- An unload that began in `m₁` has come to its end. -/
def Ceded (m₁ : Machine σ) (info : Info) (lower : List (Frame σ)) (m' : Machine σ) : Prop :=
  ∃ flushed next previous, m₁.Reaches flushed ∧
    flushed.frames = .settle info true previous :: lower ∧ flushed.step = .stepped next ∧
    next.Reaches m' ∧ Upshot info flushed next m'

/-- How far an unload has come that began in `m₁`, by the frames above what goes on after it. -/
inductive Ceding (m₁ : Machine σ) (info : Info) (lower : List (Frame σ)) (m : Machine σ) :
    List (Frame σ) → Prop
  | messages {x} (light : ∀ f ∈ x, f.isLight = true) : Ceding m₁ info lower m (x ++ [.mark info true])
  | flushing {x previous} : Ceding m₁ info lower m (x ++ [.flush, .settle info true previous])
  | settle {x previous} (light : ∀ f ∈ x, f.isLight = true) :
      Ceding m₁ info lower m (x ++ [.settle info true previous])
  | leaving {flushed next previous index holder other upper} (before : m₁.Reaches flushed)
      (flush : flushed.frames = .settle info true previous :: lower)
      (looked : flushed.step = .stepped next) (after : next.Reaches m)
      (placed : flushed.hub.records.roster[index]? = some (holder, other))
      (named : other.instanceId = info.instanceId)
      (told : .announced flushed.hub.postings holder EventType.nanoappStopped info ∈
        next.hub.journal)
      (down : Takedown flushed.hub.records true index holder other m.hub.records upper) :
      Ceding m₁ info lower m (upper ++ [.unmark info previous])

theorem ceding_nonempty : ¬Ceding m₁ info lower m [] := by
  intro hc
  generalize hnil : ([] : List (Frame σ)) = upper at hc
  cases hc with
  | messages | flushing | settle | leaving => simp at hnil

theorem Ceding.interrupt (routine : Routine σ .handle .nothing)
    (hc : Ceding m₁ info lower m upper) :
    Ceding m₁ info lower (m.interrupt routine) (.code (.handle .foreign) routine :: upper) := by
  have lights : ∀ {x : List (Frame σ)}, (∀ f ∈ x, f.isLight = true) →
      ∀ f ∈ .code (.handle .foreign) routine :: x, f.isLight = true := by
    intro x light f hf
    rcases List.mem_cons.mp hf with rfl | hf
    · rfl
    · exact light f hf
  cases hc with
  | @messages x light => exact @Ceding.messages _ _ _ _ _ (_ :: x) (lights light)
  | @flushing x => exact @Ceding.flushing _ _ _ _ _ (_ :: x) _
  | @settle x _ light => exact @Ceding.settle _ _ _ _ _ (_ :: x) _ (lights light)
  | leaving before flush looked after placed named told down =>
    exact .leaving before flush looked (after.tail (.interrupt routine)) placed named told
      (.above rfl down)

/-- The unload looks the id up once the queue is flushed. -/
private theorem settle_step {previous : Option UInt16}
    (hr : m₁.Reaches ⟨hub, .settle info true previous :: lower⟩)
    (h : (Frame.settle info true previous).step hub = .go hub' frames) :
    Ceding m₁ info lower ⟨hub', frames ++ lower⟩ frames ∨
      frames = [] ∧ Upshot info ⟨hub, .settle info true previous :: lower⟩
        ⟨hub', frames ++ lower⟩ ⟨hub', frames ++ lower⟩ := by
  have hstep := step_eq_stepped.mpr ⟨hub, _, lower, hub', frames, rfl, h, rfl⟩
  rcases Hub.settleUnload_cases h with
    ⟨hi, rfl, rfl⟩ | ⟨index, hi, ⟨-, lights, hgo, rfl⟩ | ⟨hfalse, -⟩⟩
  · exact .inr ⟨rfl, .gone (Hub.indexOf?_eq_none.mp hi) rfl rfl rfl⟩
  · obtain ⟨side, light⟩ := Hub.light_announce hgo
    obtain ⟨app, ha, named⟩ := Hub.indexOf?_eq_some hi
    have told : .announced hub.postings app.nanoapp.load EventType.nanoappStopped info ∈
        hub'.journal := by
      rw [(Hub.announce_eq hgo).1, Hub.loadAt_eq ha]
      exact List.mem_cons_self ..
    have down : Takedown hub.records true index app.nanoapp.load app.nanoapp.info hub'.records
        (lights ++ [.remove index true]) := by
      rw [Hub.records_of_loopSide side]
      exact Takedown.lights light .remove
    have hsplit : lights ++ [.remove index true, .unmark info previous] =
        lights ++ [.remove index true] ++ [.unmark info previous] := by simp
    rw [hsplit] at hstep ⊢
    exact .inl (.leaving hr rfl hstep .refl (Hub.getElem?_roster ha) named told down)
  · cases hfalse

/-- Every step brings an unload forward, or to its end. -/
theorem Ceding.step (hn : Nested m₁.hub.apps.length m₁.frames) (hr : m₁.Reaches ⟨hub, frame :: (above ++ lower)⟩)
    (hc : Ceding m₁ info lower ⟨hub, frame :: (above ++ lower)⟩ (frame :: above))
    (h : frame.step hub = .go hub' frames) :
    Ceding m₁ info lower ⟨hub', frames ++ (above ++ lower)⟩ (frames ++ above) ∨
      frames ++ above = [] ∧ Ceded m₁ info lower ⟨hub', frames ++ (above ++ lower)⟩ := by
  generalize hupper : frame :: above = upper at hc
  cases hc with
  | messages light =>
    rcases List.cons_eq_append_iff.mp hupper with ⟨-, hfirst⟩ | ⟨x, rfl, rfl⟩
    · cases hfirst
      cases h
      exact .inl (@Ceding.flushing _ _ _ _ _ [] _)
    · obtain ⟨-, lights⟩ := step_light (light frame (List.mem_cons_self ..)) h
      rw [← List.append_assoc frames x]
      refine .inl (.messages fun f hf => ?_)
      rcases List.mem_append.mp hf with hf | hf
      · exact lights f hf
      · exact light f (List.mem_cons_of_mem _ hf)
  | @flushing _ previous =>
    rcases List.cons_eq_append_iff.mp hupper with ⟨-, hfirst⟩ | ⟨x, -, rfl⟩
    · cases hfirst
      simp only [Frame.step] at h
      split at h
      next =>
        cases h
        exact .inl (@Ceding.settle _ _ _ _ _ [] _ (by simp))
      next handle hub₁ hp =>
        cases h
        exact .inl (@Ceding.flushing _ _ _ _ _ [.dispatch handle] _)
    · rw [← List.append_assoc frames x]
      exact .inl .flushing
  | @settle _ previous light =>
    rcases List.cons_eq_append_iff.mp hupper with ⟨-, hfirst⟩ | ⟨x, rfl, rfl⟩
    · cases hfirst
      rcases settle_step hr h with hceding | ⟨rfl, hdone⟩
      · rw [List.append_nil]
        exact .inl hceding
      · have hstep := step_eq_stepped.mpr ⟨hub, _, lower, hub', [], rfl, h, rfl⟩
        exact .inr ⟨rfl, _, _, previous, hr, rfl, hstep, .refl, hdone⟩
    · obtain ⟨-, lights⟩ := step_light (light frame (List.mem_cons_self ..)) h
      rw [← List.append_assoc frames x]
      refine .inl (.settle fun f hf => ?_)
      rcases List.mem_append.mp hf with hf | hf
      · exact lights f hf
      · exact light f (List.mem_cons_of_mem _ hf)
  | @leaving flushed next previous _ _ _ _ before flush looked after placed named told down =>
    have after' := after.tail (Move.of_go h)
    rcases List.cons_eq_append_iff.mp hupper with ⟨rfl, hfirst⟩ | ⟨x, rfl, rfl⟩
    · cases hfirst
      cases h
      generalize hrecords : hub.records = records at down
      cases down with
      | gone =>
        have hdeeds := congrArg Records.deeds hrecords
        exact .inr ⟨rfl, flushed, next, previous, before, flush, looked, after',
          .takes (List.mem_of_getElem? placed) named told hdeeds⟩
    · obtain ⟨turnover, -⟩ := step_turnover (Reaches.nested hn hr).1 h
      have hdown := down.step placed (fun light => ?_) turnover
      · rw [← List.append_assoc frames x]
        exact .inl (.leaving before flush looked after' placed named told hdown)
      · obtain ⟨side, lights⟩ := step_light light h
        exact ⟨Hub.records_of_loopSide side, lights⟩

/-- From a machine whose frames nest, apps that differ in their instance ids go on to differ. -/
theorem Reaches.distinct (hn : Nested m.hub.apps.length m.frames)
    (once : (m.hub.records.infos.map Info.instanceId).Nodup) (hr : m.Reaches m') :
    (m'.hub.records.infos.map Info.instanceId).Nodup :=
  hr.keeps (P := fun hub _ => (hub.records.infos.map Info.instanceId).Nodup) once
    (fun hr once h => (step_turnover (Reaches.nested hn hr).1 h).1.distinct once) fun _ _ once => once

/-- Whom an unload takes down, whatever is queued and wherever the search for a free id starts, if
the loaded apps keep apart and none of their code runs. The unload begins with the app that has the
id, and flushes the queue. If an app has the id then, that one is ended, released and erased, and
nobody else, and it is announced under the info of the first app. It is the first app exactly if
that one is still loaded; if it is not, it is one that was loaded during the flush. If no app has
the id any more, none is touched and nothing is announced. -/
theorem unload_takes_holder {id : UInt16} {force : Bool} (enrolled : m.hub.records.Enrolled)
    (plain : ∀ f ∈ m.frames, f.index? = none)
    (hu : m.Unloads id force lower) (hs : m.step = .stepped m₁) (hret : m₁.Finishes lower m') :
    ∃ load info flushed next, (load, info) ∈ m.hub.records.roster ∧ info.instanceId = id ∧
      m₁.Reaches flushed ∧ (∃ previous, flushed.frames = .settle info true previous :: lower) ∧
      flushed.step = .stepped next ∧ next.Reaches m' ∧
      ((id ∉ flushed.hub.infos.map Info.instanceId ∧ m' = next ∧
          m'.hub.deeds = flushed.hub.deeds ∧
          announcements m'.hub.journal = announcements flushed.hub.journal) ∨
        ∃ holder other, (holder, other) ∈ flushed.hub.records.roster ∧ other.instanceId = id ∧
          .announced flushed.hub.postings holder EventType.nanoappStopped info ∈
            next.hub.journal ∧
          m'.hub.deeds = .erased holder id ::
            ((Life.ending holder other true flushed.hub.collaborators.inReleaseOrder).reverse ++
              flushed.hub.deeds) ∧
          (holder = load ↔ (load, info) ∈ flushed.hub.records.roster) ∧
          (holder ≠ load → m.hub.loads < holder)) := by
  obtain ⟨app, ha, rfl, side, hframes⟩ := hu.opens hs
  have hn : Nested m.hub.apps.length m.frames := nested_of_plain _ plain
  have hn₁ := Reaches.nested hn (.single (.step hs))
  have hentry : (app.nanoapp.load, app.nanoapp.info) ∈ m.hub.records.roster := by
    rw [Hub.roster_eq]
    exact List.mem_map_of_mem ha
  have hbegins : Ceding m₁ app.nanoapp.info lower m₁
      [.code (.handle (.flushMessages app.nanoapp.info))
        (m.hub.collaborators.flushMessages app.nanoapp.info), .mark app.nanoapp.info true] :=
    @Ceding.messages _ _ _ _ _ [_] (by simp [isLight, Actor.isLight])
  have hceded : Ceded m₁ app.nanoapp.info lower m' :=
    hret.comes hframes hbegins ceding_nonempty (fun hr hc h => hc.step hn₁ hr h)
      fun routine hc => hc.interrupt routine
  obtain ⟨flushed, next, previous, hbefore, hflush, hlooked, hafter, hdone⟩ := hceded
  refine ⟨app.nanoapp.load, app.nanoapp.info, flushed, next, hentry, rfl, hbefore, ⟨previous, hflush⟩,
    hlooked, hafter, ?_⟩
  cases hdone with
  | gone absent once deeds mute => exact .inl ⟨absent, once, deeds, mute⟩
  | @takes holder other mem named told deeds =>
    rw [named] at deeds
    have hreached : m.Reaches flushed := .head (.step hs) hbefore
    obtain ⟨kept, newcomers, hsince⟩ := Reaches.since_nested hn hreached
    have hfirst := enrolled.instances
    have hthen := Reaches.distinct hn hfirst hreached
    rw [Records.infos, List.map_map] at hfirst hthen
    refine .inr ⟨holder, other, mem, named, told, deeds, ⟨?_, fun hstays => ?_⟩, fun hne => ?_⟩
    · rintro rfl
      have hfound := hsince.mem_first mem (enrolled.numbered _ hentry)
      rwa [enrolled.load_unique hentry hfound] at mem
    · exact congrArg Prod.fst (List.inj_on_of_nodup_map hthen mem hstays named)
    · rw [hsince.roster] at mem
      rcases List.mem_append.mp mem with hkept | hnew
      · have hsame := List.inj_on_of_nodup_map hfirst (hsince.order.subset hkept) hentry named
        exact absurd (congrArg Prod.fst hsame) hne
      · exact hsince.later _ hnew

/-- Unloads an app while a callback is queued that unloads it, too, and loads another one. -/
def successor : Routine Unit .loop .nothing :=
  .start (inertApp 1) fun _ =>
  .runUntilIdle fun _ =>
  .request (.call .deferred (.unload 1 false fun _ =>
    .start (inertApp 2) fun _ => .done ())) fun _ =>
  .unload 1 false fun _ =>
  .done ()

/-- The app that is loaded meanwhile has an id of its own, and is not touched. -/
theorem unload_takes_holder_successor :
    ∃ flushed m' : Machine Unit,
      ((plain successor).advance 22).1.Finishes [.code (.loop .outside) (.done ())] m' ∧
      flushed.Reaches m' ∧ m'.hub.deeds = flushed.hub.deeds ∧
      m'.hub.records.roster.map Prod.fst = [2] := by
  have hm : ((plain successor).advance 21).1.Reachable :=
    ⟨_, isStart_plain successor, reaches_unfinished (by decide +kernel)⟩
  have hu : ((plain successor).advance 21).1.Unloads 1 false
      [.code (.loop .outside) (.done ())] :=
    @Unloads.routine _ _ 1 false .outside (fun _ => .done ()) [] rfl rfl
  have hs : ((plain successor).advance 21).1.step =
      .stepped ((plain successor).advance 22).1 := rfl
  have hret : ((plain successor).advance 22).1.Finishes [.code (.loop .outside) (.done ())]
      (((plain successor).advance 22).1.advance 40).1 :=
    @finishes_advance _ _ _ [_, _] _ 39 rfl (by decide +kernel) (by decide +kernel)
      (step_advance (by decide +kernel)) (by decide +kernel)
  obtain ⟨load, info, flushed, next, -, -, -, -, hlooked, hafter, hgone | htaken⟩ :=
    unload_takes_holder hm.enrolled (by decide +kernel) hu hs hret
  · obtain ⟨-, -, hdeeds, -⟩ := hgone
    exact ⟨flushed, _, hret, .head (.step hlooked) hafter, hdeeds, by decide +kernel⟩
  · obtain ⟨holder, other, -, -, -, hdeeds, -⟩ := htaken
    have hlast : (((plain successor).advance 22).1.advance 40).1.hub.deeds.head? =
        some (.left 2 .start) := by
      decide +kernel
    rw [hdeeds] at hlast
    cases hlast

/-- The same hub when it is about to unload the app, but for the search for a free id, which starts
at the id of the app again. -/
def wrapped : Machine Unit :=
  ⟨{ ((plain successor).advance 21).1.hub with nextId := 1 },
    ((plain successor).advance 21).1.frames⟩

/-- The app that is loaded meanwhile gets the id. The unload began with load 1, and it is load 2 that
it announces, ends and erases. -/
theorem unload_takes_successor :
    ∃ m₁ flushed m' : Machine Unit, wrapped.hub.records.Enrolled ∧ wrapped.hub.loads = 1 ∧
      wrapped.hub.records.roster.map Prod.fst = [1] ∧
      wrapped.Unloads 1 false [.code (.loop .outside) (.done ())] ∧
      wrapped.step = .stepped m₁ ∧ m₁.Finishes [.code (.loop .outside) (.done ())] m' ∧
      m₁.Reaches flushed ∧ flushed.Reaches m' ∧
      (∃ info, flushed.frames = [.settle info true none, .code (.loop .outside) (.done ())] ∧
        info.appId = 1 ∧
        .announced flushed.hub.postings 2 EventType.nanoappStopped info ∈ m'.hub.journal) ∧
      m'.hub.deeds = [.erased 2 1, .left 2 .finish, .entered 2 1 .finish true] ++
        flushed.hub.deeds := by
  have hx : ((plain successor).advance 21).1.Reachable :=
    ⟨_, isStart_plain successor, reaches_unfinished (by decide +kernel)⟩
  have hu : wrapped.Unloads 1 false [.code (.loop .outside) (.done ())] :=
    @Unloads.routine _ _ 1 false .outside (fun _ => .done ()) [] rfl rfl
  have hret : (wrapped.advance 1).1.Finishes [.code (.loop .outside) (.done ())]
      ((wrapped.advance 1).1.advance 47).1 :=
    @finishes_advance _ _ _ [_, _] _ 46 rfl (by decide +kernel) (by decide +kernel)
      (step_advance (by decide +kernel)) (by decide +kernel)
  have hbefore : (wrapped.advance 1).1.Reaches ((wrapped.advance 1).1.advance 39).1 :=
    reaches_unfinished (by decide +kernel)
  have hafter : ((wrapped.advance 1).1.advance 39).1.Reaches
      ((wrapped.advance 1).1.advance (39 + 8)).1 :=
    reaches_later 39 8 (by decide +kernel)
  exact ⟨(wrapped.advance 1).1, ((wrapped.advance 1).1.advance 39).1,
    ((wrapped.advance 1).1.advance 47).1, hx.enrolled, by decide +kernel, by decide +kernel, hu, rfl,
    hret, hbefore, hafter, ⟨_, rfl, by decide +kernel, by decide +kernel⟩, by decide +kernel⟩

end Machine

end SensorHub
