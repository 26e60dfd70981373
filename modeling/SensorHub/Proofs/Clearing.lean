import SensorHub.Proofs.Completions
import SensorHub.Proofs.Context
import SensorHub.Proofs.Directory

namespace SensorHub

variable {σ : Type}

namespace Incident

def ends? : Incident → Option Nat
  | .entered load _ .finish _ => some load
  | _ => none

end Incident

/-- The loads of the apps whose last entry points began, in the order in which they did. -/
def endings (journal : List Incident) : List Nat :=
  (journal.filterMap Incident.ends?).reverse

theorem endings_cons_none {deed : Incident} (h : deed.ends? = none) (deeds : List Incident) :
    endings (deed :: deeds) = endings deeds := by
  rw [endings, List.filterMap_cons_none h, endings]

theorem endings_cons_some {deed : Incident} {load : Nat} (h : deed.ends? = some load)
    (deeds : List Incident) : endings (deed :: deeds) = endings deeds ++ [load] := by
  rw [endings, List.filterMap_cons_some h, List.reverse_cons, endings]

theorem Hub.endings_deeds (hub : Hub σ) : endings hub.records.deeds = endings hub.journal := by
  have hdeeds : (hub.journal.filter fun i => i.owner?.isSome).filterMap Incident.ends? =
      hub.journal.filterMap Incident.ends? := by
    rw [List.filterMap_filter]
    refine List.filterMap_congr fun i _ => ?_
    cases i <;> rfl
  exact congrArg List.reverse hdeeds

namespace Records

variable {first r : Records σ} {kept gone : List (Nat × Info)} {load : Nat} {info : Info}

/-- Of the apps that were loaded at first, those in `kept` have not ended since, and those in `gone`
have, latest load first. -/
structure Ended (first r : Records σ) (kept gone : List (Nat × Info)) : Prop where
  loaded : first.roster = kept ++ gone
  ended : endings r.deeds = endings first.deeds ++ (gone.map Prod.fst).reverse

theorem Ended.note_other (h : Ended first r kept gone) {deed : Incident} (hd : deed.ends? = none) :
    Ended first (r.note deed) kept gone :=
  ⟨h.loaded, (endings_cons_none hd _).trans h.ended⟩

theorem Ended.note_own (h : Ended first r (kept ++ [(load, info)]) gone) {deed : Incident}
    (hd : deed.ends? = some load) : Ended first (r.note deed) kept ((load, info) :: gone) := by
  constructor
  · rw [h.loaded, List.append_assoc]
    rfl
  · have hnow : endings (r.note deed).deeds = endings r.deeds ++ [load] := endings_cons_some hd _
    rw [hnow, h.ended, List.append_assoc, List.map_cons, List.reverse_cons]

end Records

namespace Frame

open Records

variable {first r r' : Records σ} {frame : Frame σ} {frames upper rest : List (Frame σ)}

/-- The frames above the one that clears the hub: it is about to look for the last app, or that app
is taken down. -/
inductive Clears (first r : Records σ) : List (Frame σ) → Prop
  | above {f lower} (light : Frame.isLight f = true) (h : Clears first r lower) :
      Clears first r (f :: lower)
  | next {gone} (ended : Ended first r r.roster gone) : Clears first r []
  | remove {kept gone entry} (now : r.roster = kept ++ [entry])
      (ended : Ended first r (kept ++ [entry]) gone) : Clears first r [.remove kept.length true]
  | finish {kept gone load info routine managers} (now : r.roster = kept ++ [(load, info)])
      (ended : Ended first r kept gone) :
      Clears first r [.code (.entry kept.length true .finish) routine,
        .release load info managers, .erase kept.length load info]
  | release {kept gone load info managers} (now : r.roster = kept ++ [(load, info)])
      (ended : Ended first r kept gone) :
      Clears first r [.release load info managers, .erase kept.length load info]
  | erase {kept gone load info} (now : r.roster = kept ++ [(load, info)])
      (ended : Ended first r kept gone) : Clears first r [.erase kept.length load info]

theorem Clears.lights (light : ∀ f ∈ upper, f.isLight = true) (h : Clears first r rest) :
    Clears first r (upper ++ rest) := by
  induction upper with
  | nil => exact h
  | cons frame upper ih =>
    refine .above (light frame (List.mem_cons_self ..)) (ih fun f hf => ?_)
    exact light f (List.mem_cons_of_mem _ hf)

private theorem getElem?_last {kept : List (Nat × Info)} {entry : Nat × Info}
    (now : r.roster = kept ++ [entry]) : r.roster[kept.length]? = some entry := by
  rw [now, List.getElem?_append_right (Nat.le_refl _), Nat.sub_self]
  rfl

theorem Clears.step (hc : Clears first r (frame :: rest))
    (light : frame.isLight = true → r' = r ∧ ∀ f ∈ frames, f.isLight = true)
    (t : frame.Turnover r r' frames) : Clears first r' (frames ++ rest) := by
  cases hc with
  | above hframe h =>
    obtain ⟨rfl, lights⟩ := light hframe
    exact h.lights lights
  | remove now ended =>
    cases t with
    | missing absent =>
      rw [getElem?_last now] at absent
      cases absent
    | finish placed =>
      cases (getElem?_last now).symm.trans placed
      exact .finish now (ended.note_own rfl)
    | apart apart | join apart | enter apart | depart apart => cases apart
  | finish now ended =>
    cases t with
    | work lights =>
      rw [List.append_assoc]
      exact Clears.lights lights (.finish now ended)
    | left => exact .release now (ended.note_other rfl)
    | apart apart | join apart | enter apart | depart apart => cases apart
  | release now ended =>
    cases t with
    | released => exact .erase now ended
    | release => exact .above rfl (.release now (ended.note_other rfl))
    | apart apart | join apart | enter apart | depart apart => cases apart
  | @erase kept gone load info now ended =>
    cases t with
    | erase =>
      have hroster : (r.erase kept.length load info.instanceId).roster = kept := by
        show r.roster.eraseIdx kept.length = kept
        rw [now, List.eraseIdx_append_of_length_le (Nat.le_refl _), Nat.sub_self]
        exact List.append_nil kept
      have hloaded : first.roster = (r.erase kept.length load info.instanceId).roster ++ gone := by
        rw [hroster]
        exact ended.loaded
      exact .next ⟨hloaded, (endings_cons_none rfl _).trans ended.ended⟩
    | apart apart | join apart | enter apart | depart apart => cases apart

end Frame

namespace Machine

open Records SensorHub.Frame

variable {start last m next : Machine σ} {hub hub' : Hub σ} {frame : Frame σ}
  {frames above upper lower : List (Frame σ)}

/-- A run of `start` comes to `m` when a shutdown, which goes on with `lower`, has released what was
queued. -/
def Emptied (start : Machine σ) (lower : List (Frame σ)) (m : Machine σ) : Prop :=
  ∃ m₀, start.Reaches m₀ ∧ m₀.frames = .drain :: .clear :: .drain :: .exit :: lower ∧
    m₀.step = .stepped m ∧ m.frames = .clear :: .drain :: .exit :: lower

/-- How far a shutdown has come, by the frames above its end. -/
inductive Ending (start m : Machine σ) (lower : List (Frame σ)) : List (Frame σ) → Prop
  | draining {x} : Ending start m lower (x ++ [.drain, .clear, .drain])
  | clearing {x first} (emptied : start.Emptied lower first) (after : first.Reaches m)
      (queue : m.hub.queue.toList = []) (teardown : ∀ f ∈ x, f.isTeardown = true)
      (clears : Clears first.hub.records m.hub.records x) :
      Ending start m lower (x ++ [.clear, .drain])
  | cleared {x pass first gone} (emptied : start.Emptied lower first) (after : first.Reaches m)
      (queue : m.hub.queue.toList = []) (light : ∀ f ∈ x, f.isLight = true)
      (teardown : ∀ f ∈ x, f.isTeardown = true) (roster : m.hub.records.roster = [])
      (ended : Ended first.hub.records m.hub.records [] gone) (hpass : pass = [.drain] ∨ pass = []) :
      Ending start m lower (x ++ pass)

theorem Ending.interrupt {routine : Routine σ .handle .nothing} (h : Ending start m lower upper) :
    Ending start (m.interrupt routine) lower (.code (.handle .foreign) routine :: upper) := by
  have light : ∀ x : List (Frame σ), (∀ f ∈ x, f.isLight = true) →
      ∀ f ∈ .code (.handle .foreign) routine :: x, f.isLight = true := by
    intro x hx f hf
    rcases List.mem_cons.mp hf with rfl | hf
    · rfl
    · exact hx f hf
  have teardown : ∀ x : List (Frame σ), (∀ f ∈ x, f.isTeardown = true) →
      ∀ f ∈ .code (.handle .foreign) routine :: x, f.isTeardown = true := by
    intro x hx f hf
    rcases List.mem_cons.mp hf with rfl | hf
    · rfl
    · exact hx f hf
  cases h with
  | @draining x => exact @Ending.draining _ _ _ _ (.code (.handle .foreign) routine :: x)
  | @clearing x first emptied after queue hteardown clears =>
    exact @Ending.clearing _ _ _ _ (.code (.handle .foreign) routine :: x) first emptied
      (after.tail (.interrupt routine)) queue (teardown x hteardown) (.above rfl clears)
  | @cleared x pass first gone emptied after queue hlight hteardown roster ended hpass =>
    exact @Ending.cleared _ _ _ _ (.code (.handle .foreign) routine :: x) pass first gone emptied
      (after.tail (.interrupt routine)) queue (light x hlight) (teardown x hteardown) roster ended
      hpass

private theorem step_drain_empty (queue : hub.queue.toList = [])
    (h : Frame.drain.step hub = .go hub' frames) : hub' = hub ∧ frames = [] := by
  simp only [Frame.step] at h
  split at h
  next =>
    cases h
    exact ⟨rfl, rfl⟩
  next handle hub₁ hp =>
    obtain ⟨rest, hlist, -⟩ := Hub.pop?_eq_some hp
    rw [queue] at hlist
    cases hlist

/-- The pass over the queue goes on, or it has found the queue empty. -/
private theorem ending_drain (hs : start.IsStart)
    (hr : start.Reaches ⟨hub, .drain :: .clear :: .drain :: .exit :: lower⟩)
    (h : Frame.drain.step hub = .go hub' frames) :
    Ending start ⟨hub', frames ++ .clear :: .drain :: .exit :: lower⟩ lower
      (frames ++ [.clear, .drain]) := by
  have hm : Reachable ⟨hub, .drain :: .clear :: .drain :: .exit :: lower⟩ := ⟨start, hs, hr⟩
  cases step_turn hm.nested.1 h with
  | stay ordinary => cases ordinary
  | @drain handle => exact @Ending.draining _ _ _ _ [.discard handle]
  | drained _ empty =>
    have hstep : Machine.step ⟨hub, .drain :: .clear :: .drain :: .exit :: lower⟩ =
        .stepped ⟨hub', .clear :: .drain :: .exit :: lower⟩ :=
      step_eq_stepped.mpr ⟨hub, .drain, _, hub', [], rfl, h, rfl⟩
    exact @Ending.clearing _ _ _ _ [] _ ⟨_, hr, rfl, hstep, rfl⟩ .refl empty (by simp)
      (.next ⟨(List.append_nil _).symm, (List.append_nil _).symm⟩)

/-- The last app is taken down next, or there is none left. -/
private theorem ending_clear {first : Machine σ} (emptied : start.Emptied lower first)
    (after : first.Reaches ⟨hub, .clear :: .drain :: .exit :: lower⟩)
    (queue : hub.queue.toList = []) (clears : Clears first.hub.records hub.records [])
    (h : Frame.clear.step hub = .go hub' frames) :
    Ending start ⟨hub', frames ++ .drain :: .exit :: lower⟩ lower (frames ++ [.drain]) := by
  have after' := after.tail (Move.of_go h)
  cases clears with
  | @next gone ended =>
    simp only [Frame.step] at h
    split at h
    next hempty =>
      cases h
      have hroster : hub.records.roster = [] := by
        rw [Hub.roster_eq, List.isEmpty_iff.mp hempty, List.map_nil]
      rw [hroster] at ended
      exact @Ending.cleared _ _ _ _ [] _ _ gone emptied after' queue (by simp) (by simp) hroster
        ended (.inl rfl)
    next hsome =>
      cases h
      obtain ⟨kept, entry, hroster⟩ : ∃ kept entry, hub.records.roster = kept ++ [entry] := by
        rcases List.eq_nil_or_concat hub.records.roster with hnil | ⟨kept, entry, hroster⟩
        · rw [Hub.roster_eq, List.map_eq_nil_iff] at hnil
          exact absurd (List.isEmpty_iff.mpr hnil) hsome
        · exact ⟨kept, entry, by rw [hroster, List.concat_eq_append]⟩
      have hindex : hub.apps.length - 1 = kept.length := by
        rw [← hub.length_roster, hroster, List.length_append]
        rfl
      rw [hindex] at after' ⊢
      rw [hroster] at ended
      exact @Ending.clearing _ _ _ _ [.remove kept.length true] _ emptied after' queue
        (by simp [isTeardown]) (.remove hroster ended)

theorem Ending.step (hs : start.IsStart)
    (hr : start.Reaches ⟨hub, frame :: (above ++ .exit :: lower)⟩)
    (he : Ending start ⟨hub, frame :: (above ++ .exit :: lower)⟩ lower (frame :: above))
    (h : frame.step hub = .go hub' frames) :
    Ending start ⟨hub', frames ++ (above ++ .exit :: lower)⟩ lower (frames ++ above) := by
  have hm : Reachable ⟨hub, frame :: (above ++ .exit :: lower)⟩ := ⟨start, hs, hr⟩
  have hstopped : hub.running = false := by
    refine hm.shutting.stopped .exit (List.mem_cons_of_mem _ ?_) rfl
    exact List.mem_append_right _ (List.mem_cons_self ..)
  obtain ⟨turnover, -⟩ := step_turnover hm.nested.1 h
  have light : frame.isLight = true →
      hub'.records = hub.records ∧ ∀ f ∈ frames, f.isLight = true := by
    intro hlight
    obtain ⟨side, hlights⟩ := step_light hlight h
    exact ⟨Hub.records_of_loopSide side, hlights⟩
  have hmove : Move ⟨hub, frame :: (above ++ .exit :: lower)⟩
      ⟨hub', frames ++ (above ++ .exit :: lower)⟩ := Move.of_go h
  generalize hupper : frame :: above = upper at he
  cases he with
  | draining =>
    rcases List.cons_eq_append_iff.mp hupper with ⟨-, hfirst⟩ | ⟨x, -, rfl⟩
    · cases hfirst
      exact ending_drain hs hr h
    · rw [← List.append_assoc frames x]
      exact .draining
  | clearing emptied after queue teardown clears =>
    rcases List.cons_eq_append_iff.mp hupper with ⟨rfl, hfirst⟩ | ⟨x, rfl, rfl⟩
    · cases hfirst
      exact ending_clear emptied after queue clears h
    · obtain ⟨hqueue, hframes⟩ :=
        step_teardown hm.nested.1 hstopped (teardown frame (List.mem_cons_self ..)) h
      rw [← List.append_assoc frames x]
      refine .clearing emptied (after.tail hmove) (hqueue ▸ queue) (fun f hf => ?_)
        (clears.step light turnover)
      rcases List.mem_append.mp hf with hf | hf
      · exact hframes f hf
      · exact teardown f (List.mem_cons_of_mem _ hf)
  | @cleared _ pass _ _ emptied after queue hlight teardown roster ended hpass =>
    rcases List.cons_eq_append_iff.mp hupper with ⟨rfl, hfirst⟩ | ⟨x, rfl, rfl⟩
    · rcases hpass with rfl | rfl
      · cases hfirst
        obtain ⟨rfl, rfl⟩ := step_drain_empty queue h
        exact @Ending.cleared _ _ _ _ [] [] _ _ emptied (after.tail hmove) queue (by simp) (by simp)
          roster ended (.inr rfl)
      · cases hfirst
    · obtain ⟨hqueue, hframes⟩ :=
        step_teardown hm.nested.1 hstopped (teardown frame (List.mem_cons_self ..)) h
      obtain ⟨hrecords, hlights⟩ := light (hlight frame (List.mem_cons_self ..))
      rw [← List.append_assoc frames x]
      rw [← hrecords] at roster ended
      refine .cleared emptied (after.tail hmove) (hqueue ▸ queue) (fun f hf => ?_) (fun f hf => ?_)
        roster ended hpass
      · rcases List.mem_append.mp hf with hf | hf
        · exact hlights f hf
        · exact hlight f (List.mem_cons_of_mem _ hf)
      · rcases List.mem_append.mp hf with hf | hf
        · exact hframes f hf
        · exact teardown f (List.mem_cons_of_mem _ hf)

/-- In every run the shutdowns in progress, which nest, are where they should be. -/
theorem Reaches.ending (hs : start.IsStart) (hr : start.Reaches m)
    (hm : m.frames = upper ++ .exit :: lower) : Ending start m lower upper := by
  refine hr.keeps (P := fun hub frames => ∀ upper lower, frames = upper ++ .exit :: lower →
    Ending start ⟨hub, frames⟩ lower upper) ?_ ?_ ?_ upper lower hm
  · intro upper lower he
    obtain ⟨config, collaborators, memory, now, routine, -, rfl⟩ := isStart_iff.mp hs
    have hmem : Frame.exit ∈ [Frame.code (.loop .outside) routine] := by
      rw [show [Frame.code (.loop .outside) routine] = _ from he]
      exact List.mem_append_right _ (List.mem_cons_self ..)
    simp at hmem
  · intro hub hub' frame frames rest hr hp h upper lower he
    have hm : Reachable ⟨hub, frame :: rest⟩ := ⟨start, hs, hr⟩
    -- the end was there before the step, or a hub that begins to shut down has set it
    rcases List.append_eq_append_iff.mp he with ⟨above, rfl, rfl⟩ | ⟨above, hframes, hlower⟩
    · exact (hp (frame :: above) lower rfl).step hs hr h
    · cases above with
      | nil =>
        obtain rfl : frames = upper := by simpa using hframes
        obtain rfl := hlower
        have hold : Ending start ⟨hub', frames ++ ([] ++ .exit :: lower)⟩ lower (frames ++ []) :=
          (hp [frame] lower rfl).step hs hr h
        simpa using hold
      | cons f above =>
        cases hlower
        rw [hframes] at h ⊢
        rw [step_exit hm.nested.1 h]
        exact @Ending.draining _ _ _ _ []
  · intro hub frames routine hr hp upper lower he
    cases upper with
    | nil => cases he
    | cons f upper =>
      cases he
      exact (hp upper lower rfl).interrupt

/-- What is left of a hub when `run`, called outside of every callback, returns: nothing. It has
stopped; its queue, registry and directory are empty; every slot is free; no app is current or
stopping, for the loop and for other threads. The apps that were loaded when the queue had been
released have ended since, each one once, in reverse order, and no other app has. -/
theorem run_leaves_nothing (hs : start.IsStart) (hr : start.Reaches last) (hret : last.Returns m) :
    m.hub.running = false ∧ m.hub.queue.toList = [] ∧ m.hub.apps = [] ∧ m.hub.directory = [] ∧
      m.hub.pool.allocated.toNat = 0 ∧
      (m.hub.current = none ∧ m.hub.snapshot.current = none) ∧
      (m.hub.stopping = none ∧ m.hub.snapshot.stopping = none) ∧
      ∃ first lower, start.Emptied lower first ∧ first.Reaches last ∧
        last.frames = .exit :: lower ∧
        (first.hub.apps.map fun app => app.nanoapp.load).Nodup ∧
        endings m.hub.journal = endings first.hub.journal ++
          (first.hub.apps.map fun app => app.nanoapp.load).reverse := by
  obtain ⟨hub, stack⟩ := last
  obtain ⟨⟨routine, hframes⟩, hstep⟩ := hret
  obtain rfl : stack = [.exit, .code (.loop .outside) routine] := hframes
  have hm : Reachable ⟨hub, [.exit, .code (.loop .outside) routine]⟩ := ⟨start, hs, hr⟩
  cases hstep
  have hqueue := hm.queue_exit
  have hcurrent : hub.current = none := hm.attributed.2.1 rfl
  have hshown : hub.shownCurrent = Hub.shown hub.current := hm.attributed.1
  have hstopping : hub.stopping = none := hm.unloading.marked
  have hword : hub.shownStopping = Hub.shown hub.stopping := hm.unloading.shown
  rw [hcurrent] at hshown
  rw [hstopping] at hword
  have hslots : hub.pool.allocated.toNat = 0 := by
    have hallocated := hm.tidy.sound.allocated
    rw [hqueue] at hallocated
    exact hallocated
  have hending : Ending start ⟨hub, [.exit, .code (.loop .outside) routine]⟩
      [.code (.loop .outside) routine] [] := hr.ending hs rfl
  generalize hupper : ([] : List (Frame σ)) = upper at hending
  cases hending with
  | draining => simp at hupper
  | clearing => simp at hupper
  | @cleared x pass first gone emptied after queue light teardown roster ended hpass =>
    have hfirst : first.Reachable := by
      obtain ⟨m₀, hr₀, -, hstep, -⟩ := emptied
      exact ⟨start, hs, hr₀.tail (.step hstep)⟩
    have happs : hub.apps = [] := by
      rw [← List.map_eq_nil_iff, ← Hub.roster_eq]
      exact roster
    have hdirectory : hub.directory = [] := by
      have henrolled := hm.enrolled.directory
      rw [infos, roster] at henrolled
      exact henrolled
    have hloads : first.hub.records.roster.map Prod.fst =
        first.hub.apps.map fun app => app.nanoapp.load := by
      rw [Hub.roster_eq, List.map_map]
      rfl
    have hended := ended.ended
    rw [Hub.endings_deeds, Hub.endings_deeds] at hended
    have hgone : gone = first.hub.records.roster := ended.loaded.symm
    refine ⟨hm.shutting.stopped .exit (List.mem_cons_self ..) rfl, hqueue, happs, hdirectory, hslots,
      ⟨hcurrent, ?_⟩, ⟨hstopping, ?_⟩, first, _, emptied, after, rfl, ?_, ?_⟩
    · show Hub.ofShown hub.shownCurrent = none
      rw [hshown]
      rfl
    · show Hub.ofShown hub.shownStopping = none
      rw [hword]
      rfl
    · rw [← hloads]
      exact hfirst.enrolled.numbers
    · rw [← hloads, ← hgone]
      exact (endings_cons_none rfl _).trans hended

/-- Stops the hub and leaves behind the stop a callback that loads an app. -/
def loadBehindStop : Routine Unit .loop .nothing :=
  .start (inertApp 1) fun _ =>
  .start (inertApp 2) fun _ =>
  .request .shutdown fun _ =>
  .request (.call .deferred (.start (inertApp 3) fun _ => .done ())) fun _ =>
  .run (.done ())

theorem run_leaves_nothing_loadBehindStop :
    ∃ first m : Machine Unit, ((plain loadBehindStop).advance 83).1.Returns m ∧
      m.hub.apps = [] ∧ m.hub.pool.allocated.toNat = 0 ∧
      endings m.hub.journal = endings first.hub.journal ++
        (first.hub.apps.map fun app => app.nanoapp.load).reverse := by
  have hr : (plain loadBehindStop).Reaches ((plain loadBehindStop).advance 83).1 :=
    reaches_unfinished (by decide +kernel)
  have hret : ((plain loadBehindStop).advance 83).1.Returns
      ((plain loadBehindStop).advance 84).1 := ⟨⟨.done (), rfl⟩, rfl⟩
  obtain ⟨-, -, happs, -, hslots, -, -, first, -, -, -, -, -, hended⟩ :=
    run_leaves_nothing (isStart_plain loadBehindStop) hr hret
  exact ⟨first, _, hret, happs, hslots, hended⟩

end Machine

end SensorHub
