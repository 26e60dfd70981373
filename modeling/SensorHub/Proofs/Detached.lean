import SensorHub.Proofs.Announcing
import SensorHub.Proofs.CurrentApp
import SensorHub.Proofs.Distribution

namespace SensorHub

variable {σ : Type}

/-- In whose name the free callback of an event is to run: in its sender's, if that is loaded. -/
def Hub.sponsor? (hub : Hub σ) (sender : UInt16) : Option UInt16 :=
  if sender ∈ hub.infos.map Info.instanceId then some sender else none

theorem Hub.sponsor?_of_loopSide {hub hub' : Hub σ} (side : hub'.loopSide = hub.loopSide)
    (sender : UInt16) : hub'.sponsor? sender = hub.sponsor? sender := by
  rw [sponsor?, sponsor?, infos_of_loopSide side]

namespace Frame

variable {hub hub' : Hub σ} {frame : Frame σ} {frames upper lower rest below : List (Frame σ)}
  {serial : Nat} {sender : UInt16} {detached : Routine σ .handle .nothing}

/-- Only a post makes way for the callback of an event that never reached dispatch. -/
private theorem side_of_heavy (placed : ∀ i, frame.index? = some i → i < hub.apps.length)
    (heavy : frame.isLight = false) (h : frame.step hub = .go hub' frames)
    (hframes : frames = .code (.handle (.detached serial sender)) detached :: below) :
    hub'.loopSide = hub.loopSide := by
  cases frame with
  | code actor routine =>
    have ho := Routine.step_outcome placed h
    cases ho with
    | quiet _ side => exact side
    | tuned => cases hframes
    | post kind posted => exact (Hub.loopSide_posted posted).trans (Hub.loopSide_offer ..)
    | load hl =>
      rcases Hub.load_cases hl with ⟨reason, rfl, rfl⟩ | ⟨id, hub₁, -, -, rfl, rfl, rfl⟩
      · cases hframes
      · cases hframes
    | unload | idle | run | deliver | message => cases hframes
    | ended _ _ side => exact side
    | @started index stopping client ok _ _ hstart =>
      rcases Hub.finishStart_cases (List.getElem?_eq_getElem (placed index rfl)) hstart with
        ⟨-, upper, hgo, rfl⟩ | ⟨-, other, -, -, rfl, rfl⟩
      · obtain ⟨-, ⟨-, evicted, rfl⟩ | ⟨-, rfl⟩⟩ := Hub.announce_eq hgo
        · cases hframes
        · cases hframes
      · cases hframes
    | left => cases hframes
  | dispatch handle =>
    rcases Hub.dispatch_cases h with ⟨posting, -, rfl, rfl⟩ | ⟨-, rfl, rfl⟩
    · cases hframes
    · cases hframes
  | discard handle =>
    rcases Hub.discard_cases h with ⟨rfl, ⟨posting, -, rfl⟩ | ⟨-, rfl⟩⟩
    · cases hframes
    · cases hframes
  | distribute posting index reached =>
    rcases Hub.offerTo_cases h with
      ⟨app, -, -, rfl, rfl⟩ | ⟨app, -, -, rfl, rfl⟩ | ⟨-, -, rfl⟩
    · cases hframes
    · cases hframes
    · cases hframes
  | complete posting =>
    rcases Hub.complete_cases h with
      ⟨-, rfl, rfl⟩ | ⟨callback, instanceId, -, rfl, rfl⟩ | ⟨work, -, hw⟩
    · cases hframes
    · cases hframes
    · rcases Hub.perform_cases hw with
        ⟨-, rfl, rfl⟩ | ⟨app, -, -, hl⟩ | ⟨app, -, -, rfl, rfl⟩ |
        ⟨instanceId, force, app, -, -, -, rfl, rfl⟩ |
        ⟨instanceId, force, report, reason, -, -, rfl, rfl⟩ | ⟨kind, routine, -, rfl, rfl⟩
      · cases hframes
      · rcases Hub.load_cases hl with ⟨reason, rfl, rfl⟩ | ⟨id, hub₁, -, -, rfl, rfl, rfl⟩
        · cases hframes
        · cases hframes
      · cases hframes
      · cases hframes
      · cases hframes
      · cases hframes
  | answer client result =>
    cases client with
    | routine actor next =>
      cases h
      cases hframes
    | request appId =>
      cases result with
      | ok | error =>
        cases h
        cases hframes
  | mark info started =>
    cases started with
    | true | false =>
      cases h
      cases hframes
  | settle info started previous =>
    rcases Hub.settleUnload_cases h with
      ⟨-, rfl, rfl⟩ | ⟨index, -, ⟨-, upper, hgo, rfl⟩ | ⟨-, rfl, rfl⟩⟩
    · cases hframes
    · obtain ⟨-, ⟨-, evicted, rfl⟩ | ⟨-, rfl⟩⟩ := Hub.announce_eq hgo
      · cases hframes
      · cases hframes
    · cases hframes
  | remove index started =>
    rcases Hub.removeAt_cases h with
      ⟨-, rfl, rfl⟩ | ⟨app, -, ⟨-, rfl, rfl⟩ | ⟨-, rfl, rfl⟩⟩
    · cases hframes
    · cases hframes
    · cases hframes
  | flush | drain | await | idle => exact loopSide_takes rfl h
  | serve | clear =>
    simp only [step] at h
    split at h
    all_goals
      cases h
      cases hframes
  | release load info managers =>
    cases managers with
    | nil | cons =>
      cases h
      cases hframes
  | evict | vacate | enqueue => cases heavy
  | delivered | restore | erase | unmark | cycle | turn | endCycle | exit =>
    cases h
    cases hframes

/-- Whatever step the callback of an event that never reached dispatch comes after, it changed nothing
on the loop's side. -/
theorem side_of_detached (placed : ∀ i, frame.index? = some i → i < hub.apps.length)
    (ha : Agrees hub (frame :: rest)) (h : frame.step hub = .go hub' frames)
    (hframes : frames ++ rest = .code (.handle (.detached serial sender)) detached :: below) :
    hub'.loopSide = hub.loopSide := by
  cases light : frame.isLight with
  | true => exact (step_light light h).1
  | false =>
    cases frames with
    | nil =>
      -- Below a frame that is not light there is no such callback.
      have plain := ha.2.2.2.1 light
      rw [List.nil_append] at hframes
      have hlent := plain (.code (.handle (.detached serial sender)) detached)
        (hframes ▸ List.mem_cons_self ..)
      cases hlent
    | cons first more =>
      rw [List.cons_append] at hframes
      obtain ⟨rfl, -⟩ := List.cons.inj hframes
      exact side_of_heavy placed light h rfl

theorem nobody_below {current : Option UInt16} (light : ∀ f ∈ upper, f.isLight = true)
    (ha : Attributed current (upper ++ frame :: lower)) (nobody : frame.isBehalf = false) :
    current = none := by
  induction upper with
  | nil => exact ha.1 nobody
  | cons first upper ih =>
    have ha' := ha.2
    rw [(behalf_of_isLight (light first (List.mem_cons_self ..))).2] at ha'
    exact ih (fun f hf => light f (List.mem_cons_of_mem _ hf)) ha'

end Frame

namespace Machine

variable {m next last : Machine σ} {upper lower below : List (Frame σ)} {serial : Nat}
  {sender : UInt16} {detached : Routine σ .handle .nothing}

theorem Until.light (hu : m.Until below last) (hframes : m.frames = upper ++ below)
    (light : ∀ f ∈ upper, f.isLight = true) :
    last.hub.loopSide = m.hub.loopSide ∧
      ∃ upper, last.frames = upper ++ below ∧ ∀ f ∈ upper, f.isLight = true := by
  induction hu with
  | refl => exact ⟨rfl, upper, hframes, light⟩
  | @tail p next _ hmove ih =>
    obtain ⟨hmove, before⟩ := hmove
    obtain ⟨side, upper, hframes, light⟩ := ih
    cases hmove with
    | interrupt routine =>
      refine ⟨side, .code (.handle .foreign) routine :: upper, congrArg (_ :: ·) hframes, ?_⟩
      intro f hf
      rcases List.mem_cons.mp hf with rfl | hf
      · rfl
      · exact light f hf
    | step hs =>
      obtain ⟨hub, frame, rest, hub', frames, rfl, h, rfl⟩ := step_eq_stepped.mp hs
      cases upper with
      | nil => exact absurd hframes before
      | cons first above =>
        cases hframes
        obtain ⟨side', light'⟩ := Frame.step_light (light frame (List.mem_cons_self ..)) h
        refine ⟨side'.trans side, frames ++ above, (List.append_assoc ..).symm, fun f hf => ?_⟩
        rcases List.mem_append.mp hf with hf | hf
        · exact light' f hf
        · exact light f (List.mem_cons_of_mem _ hf)

/-- The free callback of an event that never reached dispatch runs in the name of whoever posted.
Throughout the callback, whatever it sets off and whatever other threads do meanwhile, and at its
end, that one is current who was current before: the app whose code posted, or for a callback of
another event the one in whose name that runs, or nobody where the loop itself posted. The sender of
the event is current, or nobody if it is not loaded, exactly if that was so before. -/
theorem detached_in_name_of_poster (hm : m.Reachable) (hs : m.step = .stepped next)
    (hframes : next.frames = .code (.handle (.detached serial sender)) detached :: below) :
    (∀ last, next.Until below last →
      last.hub.snapshot.current = m.hub.snapshot.current ∧
        last.hub.view.current = m.hub.view.current) ∧
    (∀ {r : Reach} {a : Answer} {poster : Actor σ r a} {routine : Routine σ r a}
      {upper lower : List (Frame σ)} {context : Option UInt16},
      m.frames = upper ++ .code poster routine :: lower → (∀ f ∈ upper, f.isLight = true) →
        poster.context? m.hub.infos = some context → m.hub.snapshot.current = context) ∧
    (∀ {frame : Frame σ} {upper lower : List (Frame σ)},
      m.frames = upper ++ frame :: lower → (∀ f ∈ upper, f.isLight = true) →
        frame.isBehalf = false → m.hub.snapshot.current = none) ∧
    ((∀ last, next.Until below last →
        last.hub.snapshot.current = last.hub.sponsor? sender) ↔
      m.hub.snapshot.current = m.hub.sponsor? sender) := by
  have hnext := hm.move (.step hs)
  have hshown : m.hub.snapshot.current = m.hub.current := hm.shows_current
  have begins : next.hub.loopSide = m.hub.loopSide := by
    obtain ⟨hub, frame, rest, hub', frames, rfl, h, rfl⟩ := step_eq_stepped.mp hs
    exact Frame.side_of_detached hm.nested.1 hm.agrees h hframes
  have side : ∀ last, next.Until below last → last.Reachable ∧
      last.hub.loopSide = m.hub.loopSide := by
    intro last hu
    have hreached := Relation.ReflTransGen.mono (fun _ _ hmove => hmove.1) _ _ hu
    have hcallback : next.frames =
        [.code (.handle (.detached serial sender)) detached] ++ below := hframes
    exact ⟨hnext.reaches hreached,
      (hu.light hcallback (by simp [Frame.isLight, Actor.isLight])).1.trans begins⟩
  have same : ∀ last, next.Until below last →
      last.hub.snapshot.current = m.hub.snapshot.current := by
    intro last hu
    obtain ⟨hreachable, hside⟩ := side last hu
    rw [hreachable.shows_current, hm.shows_current]
    exact Hub.current_of_loopSide hside
  refine ⟨fun last hu => ⟨same last hu, Hub.current_of_loopSide (side last hu).2⟩, ?_, ?_, ?_, ?_⟩
  · intro r a poster routine upper lower context he light hcontext
    have hagrees := hm.agrees.2
    have hattributed := hm.attributed.2
    rw [he] at hagrees hattributed
    rw [hshown]
    exact Frame.context_below light hagrees hattributed hcontext
  · intro frame upper lower he light nobody
    have hattributed := hm.attributed.2
    rw [he] at hattributed
    rw [hshown]
    exact Frame.nobody_below light hattributed nobody
  · intro attributed
    have hfirst := attributed next .refl
    rwa [same next .refl, Hub.sponsor?_of_loopSide begins] at hfirst
  · intro before last hu
    rw [same last hu, Hub.sponsor?_of_loopSide (side last hu).2, before]

def postAfterStop : Routine Unit .loop .nothing :=
  .request .shutdown fun _ =>
  .runUntilIdle fun _ =>
  .start
    { inertApp 1 with
      onStart := .post (.new EventType.firstUser) (some fun _ _ => .done ()) (.done true) } fun _ =>
  .done ()

/-- The callback runs in the name of that app, though the event was not sent by it. -/
theorem detached_in_name_of_poster_postAfterStop :
    let callback := ((plain postAfterStop).advance 17).1
    callback.hub.snapshot.current = some 1 ∧
      ¬ ∀ last, callback.Until callback.frames.tail last →
        last.hub.snapshot.current = last.hub.sponsor? systemId := by
  have hm : ((plain postAfterStop).advance 16).1.Reachable :=
    ⟨_, isStart_plain postAfterStop, reaches_unfinished (by decide +kernel)⟩
  have hs : ((plain postAfterStop).advance 16).1.step =
      .stepped ((plain postAfterStop).advance 17).1 :=
    step_advance (by decide +kernel)
  have hframes : ((plain postAfterStop).advance 17).1.frames =
      .code (.handle (.detached 1 systemId)) (.done ()) ::
        ((plain postAfterStop).advance 17).1.frames.tail := rfl
  obtain ⟨throughout, inContext, -, sponsored⟩ := detached_in_name_of_poster hm hs hframes
  have hposter : ((plain postAfterStop).advance 16).1.hub.snapshot.current = some 1 :=
    @inContext _ _ _ _ [] _ (some 1) rfl (by simp) (by decide +kernel)
  refine ⟨(throughout _ .refl).1.trans hposter, fun attributed => ?_⟩
  have hsame := sponsored.mp attributed
  rw [hposter] at hsame
  have habsent : ((plain postAfterStop).advance 16).1.hub.sponsor? systemId = none := by
    decide +kernel
  rw [habsent] at hsame
  cases hsame

/-- Stops a hub with an app, then posts an event in the name of the app. -/
def freeAfterStop : Routine Unit .loop .nothing :=
  .start (inertApp 1) fun _ =>
  .request .shutdown fun _ =>
  .runUntilIdle fun _ =>
  .postLow ownEvent (some fun _ _ => .done ()) fun _ =>
  .done ()

/-- A callback runs in nobody's name, though the sender of its event is loaded. -/
theorem detached_in_nobodys_name :
    ∃ (m : Machine Unit) (routine : Routine Unit .handle .nothing) (below : List (Frame Unit)),
      m.Reachable ∧ m.frames = .code (.handle (.detached 2 1)) routine :: below ∧
        m.hub.sponsor? 1 = some 1 ∧ m.hub.snapshot.current = none := by
  have hm : ((plain freeAfterStop).advance 33).1.Reachable :=
    ⟨_, isStart_plain freeAfterStop, reaches_unfinished (by decide +kernel)⟩
  exact ⟨_, _, _, hm, rfl, by decide +kernel, by decide +kernel⟩

end Machine

end SensorHub
