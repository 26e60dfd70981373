import Mathlib.Algebra.Ring.Nat
import SensorHub.Proofs.Directory
import SensorHub.Proofs.Quiet

namespace SensorHub

variable {σ : Type}

def Frame.isIdle : Frame σ → Bool
  | .idle _ _ _ => true
  | _ => false

namespace Hub

variable {hub hub₁ hub' : Hub σ} {cargo : List (Cargo σ)} {posting : Posting σ}
  {later : List (Posting σ)}

theorem indexOf?_infos (hub : Hub σ) (instanceId : UInt16) :
    hub.indexOf? instanceId = hub.infos.findIdx? fun info => info.instanceId == instanceId := by
  rw [infos, List.findIdx?_map]
  rfl

theorem instanceOfApp?_infos (hub : Hub σ) (appId : UInt64) :
    hub.instanceOfApp? appId =
      (hub.infos.find? fun info => info.appId == appId).map Info.instanceId := by
  rw [infos, List.find?_map, Option.map_map]
  rfl

theorem unload_granted {instanceId : UInt16} {force started : Bool} :
    (hub.unload instanceId force started).1 = .ok () ↔
      ∃ info, hub.infos.find? (fun info => info.instanceId == instanceId) = some info ∧
        (force || !info.isSystem) = true := by
  have hfind : hub.infos.find? (fun info => info.instanceId == instanceId) =
      (hub.apps.find? fun app => app.nanoapp.info.instanceId == instanceId).map
        fun app => app.nanoapp.info := by
    rw [infos, List.find?_map]
    rfl
  rw [hfind, unload]
  cases hub.apps.find? fun app => app.nanoapp.info.instanceId == instanceId with
  | none => simp
  | some app => cases force <;> cases hs : app.nanoapp.info.isSystem <;> simp [hs]

/-- The work may be done: what asks for it at once is not refused. -/
def Grants (hub : Hub σ) : SystemWork σ → Prop
  | .load app => hub.loadRefusal? app.nanoapp.info = none ∧ hub.assignId.1 ≠ none
  | .unload instanceId force => (hub.unload instanceId force true).1 = .ok ()
  | _ => False

/-- The work is done: the app has been loaded under an instance id, or it is gone. No other app has
come or gone. -/
def Fulfils (hub : Hub σ) (work : SystemWork σ) (hub' : Hub σ) : Prop :=
  match work with
  | .load app => ∃ instanceId, hub.assignId.1 = some instanceId ∧
      hub'.infos = hub.infos ++ [{ app.nanoapp.info with instanceId := instanceId }]
  | .unload instanceId _ => (∃ info ∈ hub.infos, info.instanceId = instanceId) ∧
      hub'.infos = hub.infos.filter fun info => info.instanceId != instanceId
  | _ => False

theorem assignId_eq {instanceId : UInt16} (h : hub.assignId.1 = some instanceId) :
    hub.assignId = (some instanceId, { hub with nextId := instanceId + 1 }) := by
  unfold assignId at h ⊢
  split at h
  next => cases h
  next id hid =>
    cases h
    rfl

/-- A load that is not refused enters the app behind the others and lets it start. -/
theorem load_granted {app : App σ} {instanceId : UInt16} (client : LoadClient σ)
    (accepted : hub.loadRefusal? app.nanoapp.info = none)
    (assigned : hub.assignId.1 = some instanceId)
    (reserved : hub.config.wakeupBuckets.toNat < 2 ^ 62) :
    ∃ hub' stopping, hub.load app client =
        .go hub' [.code (.start hub.apps.length stopping client) app.onStart] ∧
      hub'.infos = hub.infos ++ [{ app.nanoapp.info with instanceId := instanceId }] ∧
      hub'.running = hub.running ∧ hub'.pool = hub.pool ∧ hub'.queue = hub.queue := by
  simp only [load, accepted, assignId_eq assigned, Wakeups.new?_of_lt reserved]
  refine ⟨_, _, rfl, ?_, rfl, rfl, rfl⟩
  simp [infos, setCurrent, record, enroll, App.alter, Nanoapp.loaded]

namespace Alike

theorem indexOf? (h : hub.Alike hub') : hub'.indexOf? = hub.indexOf? := by
  funext instanceId
  rw [indexOf?_infos, indexOf?_infos, h.infos]

theorem assignId (h : hub.Alike hub') : hub'.assignId.1 = hub.assignId.1 := by
  unfold Hub.assignId
  rw [h.indexOf?, h.nextId]
  split <;> rfl

theorem grants {work : SystemWork σ} (h : hub.Alike hub') (hg : hub.Grants work) :
    hub'.Grants work := by
  cases work with
  | load app =>
    obtain ⟨hrefusal, hid⟩ := hg
    refine ⟨?_, fun hnone => hid (h.assignId.symm.trans hnone)⟩
    rw [← hrefusal, loadRefusal?, loadRefusal?, h.config, instanceOfApp?_infos,
      instanceOfApp?_infos, h.infos]
  | unload instanceId force =>
    have hgranted := unload_granted.mp hg
    rw [← h.infos] at hgranted
    exact unload_granted.mpr hgranted
  | shutdown | call => exact hg

theorem fulfils {work : SystemWork σ} (h : hub.Alike hub₁) (h' : hub₁.Fulfils work hub') :
    hub.Fulfils work hub' := by
  cases work with
  | load app =>
    obtain ⟨instanceId, hid, hinfos⟩ := h'
    exact ⟨instanceId, h.assignId.symm.trans hid, by rw [hinfos, h.infos]⟩
  | unload instanceId force =>
    obtain ⟨hmem, hinfos⟩ := h'
    rw [h.infos] at hmem hinfos
    exact ⟨hmem, hinfos⟩
  | shutdown | call => exact h'

end Alike

theorem Fulfils.alike {work : SystemWork σ} (h : hub.Fulfils work hub₁) (h' : hub₁.Alike hub') :
    hub.Fulfils work hub' := by
  cases work with
  | load app =>
    obtain ⟨instanceId, hid, hinfos⟩ := h
    exact ⟨instanceId, hid, h'.infos.trans hinfos⟩
  | unload instanceId force => exact ⟨h.1, h'.infos.trans h.2⟩
  | shutdown | call => exact h

/-- With a free slot a status event is about to be queued, and nothing is evicted for it. -/
theorem announce_room (type : UInt16) (load : Nat) (info : Info) (running : hub.running = true)
    (room : 0 < hub.room) :
    hub.announce type load info =
      .go ((hub.offer .critical (.status type info) .nothing).2.record
          (.announced hub.postings load type info))
        [.evict [], .enqueue (hub.offer .critical (.status type info) .nothing).1] := by
  have hrunning : ((hub.offer .critical (.status type info) .nothing).2.record
      (.announced hub.postings load type info)).running = true := running
  have hroom : 0 < ((hub.offer .critical (.status type info) .nothing).2.record
      (.announced hub.postings load type info)).room := room
  have hpost := postRunning_room hroom (hub.offer .critical (.status type info) .nothing).1
  rw [announce]
  simp only [postCritical]
  rw [← hpost]
  exact if_pos hrunning

theorem Tidy.pop_front (ht : hub.Tidy cargo) (hw : hub.waiting = posting :: later) :
    ∃ handle hub', hub.pop? = some (handle, hub') ∧ hub'.pool.inspect handle = some posting ∧
      hub'.waiting = later ∧ hub.Alike hub' := by
  cases hp : hub.pop? with
  | none =>
    rw [Hub.waiting, pop?_eq_none hp] at hw
    cases hw
  | some popped =>
    obtain ⟨handle, hub'⟩ := popped
    obtain ⟨queue, hlist, rfl⟩ := pop?_eq_some hp
    have hqueued : handle ∈ hub.queue.toList := by
      rw [hlist]
      exact List.mem_cons_self ..
    have hstored := ht.stored handle (List.mem_append_left _ hqueued)
    obtain ⟨front, hfront⟩ := Option.isSome_iff_exists.mp hstored
    rw [Hub.waiting, hlist, List.filterMap_cons_some hfront] at hw
    obtain ⟨rfl, hlater⟩ := List.cons.inj hw
    exact ⟨handle, _, rfl, hfront, hlater, ⟨rfl, rfl, rfl, rfl, rfl⟩⟩

theorem Tidy.pop_none (ht : hub.Tidy cargo) (hw : hub.waiting = []) : hub.pop? = none := by
  cases hp : hub.pop? with
  | none => rfl
  | some popped =>
    obtain ⟨queue, hlist, -⟩ := pop?_eq_some hp
    have hlength := ht.forall₂_waiting.length_eq
    rw [hw, hlist] at hlength
    cases hlength

end Hub

namespace Machine

open Hub

variable {m m' : Machine σ} {hub hub₁ hub' : Hub σ} {frame : Frame σ}
  {rest lower : List (Frame σ)} {posting : Posting σ} {later : List (Posting σ)} {handle : Handle}
  {count : Nat} {actor : LoopActor} {next : Nat → Routine σ .loop .nothing}

/-- Some slot is neither waited in nor to be given back. -/
theorem Reachable.room_pos (hm : m.Reachable) (slots : m.hub.waiting.length +
    (m.cargo.filterMap Cargo.handle?).length < m.hub.pool.capacity) : 0 < m.hub.room := by
  have hallocated := hm.allocated_eq
  rw [room]
  omega

/-- A cycle begins: the event at the front of the queue is offered to the apps. -/
theorem opens (hm : Reachable ⟨hub, .idle count actor next :: rest⟩)
    (quiet : Quiet (.idle (count + 1) actor next :: rest) ⟨hub, .idle count actor next :: rest⟩)
    (running : hub.running = true) (front : hub.waiting = posting :: later) :
    ∃ hub' handle, Runs ⟨hub, .idle count actor next :: rest⟩
      ⟨hub', .complete posting :: .vacate handle :: .endCycle ::
        .idle (count + 1) actor next :: rest⟩ ∧ hub.Alike hub' ∧ hub'.waiting = later := by
  have sampled : hub.sampleUsage.Tidy (cargo ⟨hub, .idle count actor next :: rest⟩) :=
    hm.tidy.calm ((Calm.refl hub).same rfl rfl rfl rfl)
  obtain ⟨handle, hub₁, hpop, hheld, hlater, alike₁⟩ := sampled.pop_front front
  have alike₀ : hub.Alike hub.sampleUsage := ⟨rfl, rfl, rfl, rfl, rfl⟩
  have taken : (Frame.idle count actor next).step hub =
      .go hub₁ [.cycle handle, .idle (count + 1) actor next] := by
    simp only [Frame.step, running, if_true, hpop]
  have hcycle : (Frame.cycle handle).step hub₁ = .go hub₁
      [.code (.handle .beforeCycle) (hub₁.collaborators.beforeCycle (hub₁.queue.size + 1)),
        .turn handle] := rfl
  have h₁ : Runs ⟨hub, .idle count actor next :: rest⟩ ⟨hub₁,
      .code (.handle .beforeCycle) (hub₁.collaborators.beforeCycle (hub₁.queue.size + 1)) ::
        .turn handle :: .idle (count + 1) actor next :: rest⟩ :=
    (Runs.of_go taken).trans (Runs.of_go hcycle)
  obtain ⟨hub₂, h₂, kept₂⟩ := passes_handle ((quiet.runs h₁).above (List.suffix_cons ..))
  obtain ⟨hub₃, hturn, hkept⟩ : ∃ hub₃, (Frame.turn handle : Frame σ).step hub₂ =
      .go hub₃ [.dispatch handle, .endCycle] ∧ hub₂.Kept hub₃ := ⟨_, rfl, .rollWakeups hub₂⟩
  have kept₃ := kept₂.trans hkept
  have h₃ : Runs ⟨hub, .idle count actor next :: rest⟩ ⟨hub₃,
      .dispatch handle :: .endCycle :: .idle (count + 1) actor next :: rest⟩ :=
    (h₁.trans h₂).trans (Runs.of_go hturn)
  have hm₃ := hm.reaches h₃.reaches
  have held₃ : hub₃.pool.inspect handle = some posting := by
    rw [kept₃.pool]
    exact hheld
  have hdispatch : (Frame.dispatch handle).step hub₃ =
      .go ((hub₃.take handle).2.record (.distributing posting.serial))
        [.distribute posting 0 false, .vacate handle] := by
    simp only [Frame.step, dispatch, take, Pool.take, held₃]
  have hwaiting : ((hub₃.take handle).2.record
      (.distributing posting.serial)).waiting = later := by
    have htaken := (Queues.take hm₃.tidy rfl).waiting_eq
    exact htaken.trans (kept₃.waiting.trans hlater)
  have h₄ : Runs ⟨hub, .idle count actor next :: rest⟩
      ⟨(hub₃.take handle).2.record (.distributing posting.serial),
        .distribute posting 0 false :: .vacate handle :: .endCycle ::
          .idle (count + 1) actor next :: rest⟩ := h₃.trans (Runs.of_go hdispatch)
  obtain ⟨hub', h₅, kept₅⟩ := distributes ((quiet.runs h₄).above ⟨[_, _], rfl⟩)
  have alike₄ : hub₃.Alike ((hub₃.take handle).2.record
      (.distributing posting.serial)) := ⟨rfl, rfl, rfl, rfl, rfl⟩
  exact ⟨hub', handle, h₄.trans h₅,
    (((alike₀.trans alike₁).trans kept₃.toAlike).trans alike₄).trans kept₅.toAlike,
    kept₅.waiting.trans hwaiting⟩

/-- A cycle ends: the slot of its event is given back. -/
theorem closes (hm : Reachable ⟨hub, .vacate handle :: .endCycle :: lower⟩)
    (quiet : Quiet lower ⟨hub, .vacate handle :: .endCycle :: lower⟩) :
    ∃ hub', Runs ⟨hub, .vacate handle :: .endCycle :: lower⟩ ⟨hub', lower⟩ ∧ hub.Alike hub' ∧
      hub'.waiting = hub.waiting := by
  have vacated : (Frame.vacate handle).step hub = .go (hub.vacate handle) [] := rfl
  have alike : hub.Alike (hub.vacate handle) := .of_side (loopSide_vacate hub handle)
  have hwaiting := (Queues.vacate hm.tidy).waiting_eq
  have hend : (Frame.endCycle : Frame σ).step (hub.vacate handle) = .go (hub.vacate handle)
      [.code (.handle .afterCycle)
        ((hub.vacate handle).collaborators.afterCycle (hub.vacate handle).queue.size)] := rfl
  have h₁ : Runs ⟨hub, .vacate handle :: .endCycle :: lower⟩ ⟨hub.vacate handle,
      .code (.handle .afterCycle)
        ((hub.vacate handle).collaborators.afterCycle (hub.vacate handle).queue.size) :: lower⟩ :=
    (Runs.of_go vacated).trans (Runs.of_go hend)
  obtain ⟨hub', h₂, kept⟩ := passes_handle (quiet.runs h₁)
  exact ⟨hub', h₁.trans h₂, alike.trans kept.toAlike, kept.waiting.trans hwaiting⟩

/-- With an empty queue the code that asked for the dispatch goes on. -/
theorem rests (hm : Reachable ⟨hub, .idle count actor next :: rest⟩) (empty : hub.waiting = []) :
    ∃ hub', Runs ⟨hub, .idle count actor next :: rest⟩
      ⟨hub', .code (.loop actor) (next count) :: rest⟩ ∧ hub.Kept hub' := by
  have sampled : hub.sampleUsage.Tidy (cargo ⟨hub, .idle count actor next :: rest⟩) :=
    hm.tidy.calm ((Calm.refl hub).same rfl rfl rfl rfl)
  have hpop := sampled.pop_none empty
  obtain ⟨hub', step, kept⟩ : ∃ hub', (Frame.idle count actor next).step hub =
      .go hub' [.code (.loop actor) (next count)] ∧ hub.Kept hub' := by
    simp only [Frame.step, hpop]
    split
    · exact ⟨_, rfl, ⟨⟨rfl, rfl, rfl, rfl, rfl⟩, rfl, rfl⟩⟩
    · exact ⟨_, rfl, .refl hub⟩
  exact ⟨hub', Runs.of_go step, kept⟩

theorem announced {type : UInt16} {load : Nat} {info : Info}
    (hm : Reachable ⟨hub, frame :: rest⟩)
    (step : frame.step hub = (hub₁.announce type load info).above lower)
    (running : hub₁.running = true) (room : 0 < hub₁.room) :
    ∃ hub' status, Runs ⟨hub, frame :: rest⟩ ⟨hub', lower ++ rest⟩ ∧ hub₁.Alike hub' ∧
      hub'.waiting = hub₁.waiting ++ [status] ∧ status.completion = .nothing := by
  have hpost := announce_room type load info running room
  rw [hpost] at step
  have hstep : Runs ⟨hub, frame :: rest⟩
      ⟨(hub₁.offer .critical (.status type info) .nothing).2.record
          (.announced hub₁.postings load type info),
        .evict [] :: .enqueue (hub₁.offer .critical (.status type info) .nothing).1 ::
          (lower ++ rest)⟩ := Runs.of_go step
  have hroom : 0 < ((hub₁.offer .critical (.status type info) .nothing).2.record
      (.announced hub₁.postings load type info)).room + ([] : List Handle).length := room
  obtain ⟨hub', hqueued, hwaiting, -, -, hside⟩ :=
    queued_behind (hm.reaches hstep.reaches) .nil (by simp) hroom
  refine ⟨hub', _, hstep.trans hqueued, ?_, hwaiting, rfl⟩
  have alike₁ : hub₁.Alike ((hub₁.offer .critical (.status type info) .nothing).2.record
      (.announced hub₁.postings load type info)) := ⟨rfl, rfl, rfl, rfl, rfl⟩
  exact alike₁.trans (.of_side hside)

/-- An app that starts may stay: its start is about to be announced. -/
theorem starts {index : Nat} {stopping : Bool} {client : LoadClient σ}
    {routine : Routine σ .app .flag} (placed : index < hub.apps.length)
    (quiet : Quiet lower ⟨hub, .code (.start index stopping client) routine :: lower⟩) :
    ∃ frame hub₁ hub' load info,
      Runs ⟨hub, .code (.start index stopping client) routine :: lower⟩ ⟨hub₁, frame :: lower⟩ ∧
      frame.step hub₁ = (hub'.announce EventType.nanoappStarted load info).above
        [.answer client (.ok info.instanceId)] ∧ hub.Kept hub' := by
  have hplaced : ∀ i, (Actor.start index stopping client : Actor σ .app .flag).place? = some i →
      i < hub.apps.length := by
    intro i hi
    cases hi
    exact placed
  obtain ⟨ok, hub₁, hruns, kept⟩ :=
    ends_quiet (.start index stopping client) nofun lower routine hub hplaced quiet
  obtain rfl : ok = true := by
    have hhead := (quiet.runs hruns).head.2
    simpa [Frame.declines] using hhead
  have hlt : index < hub₁.apps.length := by
    rw [kept.length_apps]
    exact placed
  have ha : (hub₁.setCurrent none).apps[index]? = some hub₁.apps[index] :=
    List.getElem?_eq_getElem hlt
  have hstep := hruns
  refine ⟨_, hub₁, ((hub₁.setCurrent none).record (.left hub₁.apps[index].nanoapp.load .start)).log
    (.started hub₁.apps[index].nanoapp.info), hub₁.apps[index].nanoapp.load,
    hub₁.apps[index].nanoapp.info, hruns, ?_, kept.trans ⟨⟨rfl, rfl, rfl, rfl, rfl⟩, rfl, rfl⟩⟩
  simp only [Frame.step, Routine.step, finishStart, ha, if_true]

/-- What the dispatch of a request comes to when the work may be done: it is done, and only the
status event waits. -/
def Concludes (hub : Hub σ) (posting : Posting σ) (work : SystemWork σ) (lower : List (Frame σ)) :
    Prop :=
  ∃ hub' status, Runs ⟨hub, .complete posting :: lower⟩ ⟨hub', lower⟩ ∧ hub.Fulfils work hub' ∧
    hub'.running = true ∧ hub'.waiting = [status] ∧ status.completion = .nothing

theorem load_concludes {app : App σ} (hm : Reachable ⟨hub, .complete posting :: lower⟩)
    (quiet : Quiet lower ⟨hub, .complete posting :: lower⟩)
    (work : posting.completion = .work (.load app)) (running : hub.running = true)
    (grants : hub.Grants (.load app)) (reserved : hub.config.wakeupBuckets.toNat < 2 ^ 62)
    (empty : hub.waiting = []) (room : 0 < hub.room) :
    Concludes hub posting (.load app) lower := by
  obtain ⟨instanceId, hid⟩ := Option.ne_none_iff_exists'.mp grants.2
  have worked : hub.Alike (hub.record (.worked posting.serial)) := ⟨rfl, rfl, rfl, rfl, rfl⟩
  obtain ⟨hub₁, stopping, hload, hinfos₁, hrunning₁, hpool₁, hqueue₁⟩ :=
    load_granted (.request app.nanoapp.info.appId) (worked.grants grants).1
      (worked.assignId.trans hid) reserved
  have entered : (Frame.complete posting).step hub = .go hub₁
      [.code (.start hub.apps.length stopping (.request app.nanoapp.info.appId)) app.onStart] := by
    have hrunning : (hub.record (.worked posting.serial)).running = true := running
    simp only [Frame.step, complete, work, perform, hrunning, if_true]
    exact hload
  have placed : hub.apps.length < hub₁.apps.length := by
    rw [← length_infos hub₁, hinfos₁, List.length_append, List.length_singleton]
    exact Nat.lt_succ_of_le (length_infos hub).ge
  have h₁ : Runs ⟨hub, .complete posting :: lower⟩ ⟨hub₁,
      .code (.start hub.apps.length stopping (.request app.nanoapp.info.appId)) app.onStart ::
        lower⟩ := Runs.of_go entered
  obtain ⟨frame, hub₂, hub₃, load, info, h₂, hstart, kept⟩ := starts placed (quiet.runs h₁)
  have hroom : 0 < hub₃.room := by
    rw [Hub.room, kept.pool, hpool₁]
    exact room
  have hrunning : hub₃.running = true := kept.running.trans (hrunning₁.trans running)
  have hwaiting : hub₃.waiting = [] := by
    rw [kept.waiting, waiting, hpool₁, hqueue₁]
    exact empty
  obtain ⟨hub₄, status, h₄, alike, hwaiting₄, plain⟩ :=
    announced (hm.reaches (Runs.reaches (h₁.trans h₂))) hstart hrunning hroom
  have answered : (Frame.answer (.request app.nanoapp.info.appId) (.ok info.instanceId) :
      Frame σ).step hub₄ = .go hub₄ [] := rfl
  rw [hwaiting, List.nil_append] at hwaiting₄
  refine ⟨hub₄, status, ((h₁.trans h₂).trans h₄).trans (Runs.of_go answered),
    ⟨instanceId, hid, ?_⟩, alike.running.trans hrunning, hwaiting₄, plain⟩
  rw [alike.infos, kept.infos, hinfos₁]
  rfl

/-- The app at a place ends, its resources are released and it is erased. -/
theorem removes {index : Nat} (placed : index < hub.apps.length)
    (quiet : Quiet lower ⟨hub, .remove index true :: lower⟩) :
    ∃ hub', Runs ⟨hub, .remove index true :: lower⟩ ⟨hub', lower⟩ ∧
      hub'.infos = hub.infos.eraseIdx index ∧ hub'.running = hub.running ∧
      hub'.waiting = hub.waiting := by
  have ha : hub.apps[index]? = some hub.apps[index] := List.getElem?_eq_getElem placed
  obtain ⟨hub₁, load, info, entered, kept₁⟩ : ∃ hub₁ load info,
      (Frame.remove index true).step hub = .go hub₁
        [.code (.entry index true .finish) hub.apps[index].onEnd,
          .release load info hub.collaborators.inReleaseOrder, .erase index load info] ∧
      hub.Kept hub₁ := by
    simp only [Frame.step, removeAt, ha, if_true]
    exact ⟨_, _, _, rfl, ⟨⟨rfl, rfl, rfl, rfl, rfl⟩, rfl, rfl⟩⟩
  have h₁ : Runs ⟨hub, .remove index true :: lower⟩ ⟨hub₁,
      .code (.entry index true .finish) hub.apps[index].onEnd ::
        .release load info hub.collaborators.inReleaseOrder :: .erase index load info :: lower⟩ :=
    Runs.of_go entered
  obtain ⟨hub₂, h₂, kept₂⟩ := passes_entry (by rw [kept₁.length_apps]; exact placed)
    ((quiet.runs h₁).above ⟨[_, _], rfl⟩)
  obtain ⟨hub₃, h₃, kept₃⟩ := passes_release
    (((quiet.runs h₁).runs h₂).above (List.suffix_cons ..))
  have kept := (kept₁.trans kept₂).trans kept₃
  have erased : (Frame.erase index load info : Frame σ).step hub₃ =
      .go ((hub₃.erase index load info.instanceId).setCurrent none) [] := rfl
  refine ⟨_, ((h₁.trans h₂).trans h₃).trans (Runs.of_go erased), ?_, kept.running, kept.waiting⟩
  rw [← kept.infos, infos, infos]
  exact (List.eraseIdx_map ..).symm

theorem unload_concludes {instanceId : UInt16} {force : Bool}
    (hm : Reachable ⟨hub, .complete posting :: lower⟩)
    (quiet : Quiet lower ⟨hub, .complete posting :: lower⟩)
    (work : posting.completion = .work (.unload instanceId force)) (running : hub.running = true)
    (grants : hub.Grants (.unload instanceId force)) (empty : hub.waiting = [])
    (room : 0 < hub.room) : Concludes hub posting (.unload instanceId force) lower := by
  have worked : hub.Alike (hub.record (.worked posting.serial)) := ⟨rfl, rfl, rfl, rfl, rfl⟩
  have hgranted : ((hub.record (.worked posting.serial)).unload instanceId force true).1 = .ok () :=
    worked.grants grants
  obtain ⟨info, hmem, hinfo, hunload⟩ : ∃ info ∈ hub.infos, info.instanceId = instanceId ∧
      (hub.record (.worked posting.serial)).unload instanceId force true =
        (.ok (), hub.record (.worked posting.serial),
          [.code (.handle (.flushMessages info)) (hub.collaborators.flushMessages info),
            .mark info true]) := by
    rcases unload_cases (hub.record (.worked posting.serial)) instanceId force true with
      ⟨-, hu⟩ | ⟨-, hu⟩ | ⟨app, ha, hid, hu⟩
    · rw [hu] at hgranted
      cases hgranted
    · rw [hu] at hgranted
      cases hgranted
    · exact ⟨_, mem_infos.mpr ⟨app, ha, rfl⟩, hid, hu⟩
  have begun : (Frame.complete posting).step hub = .go (hub.record (.worked posting.serial))
      [.code (.handle (.flushMessages info)) (hub.collaborators.flushMessages info),
        .mark info true] := by
    simp only [Frame.step, complete, work, perform, hunload]
  have h₁ : Runs ⟨hub, .complete posting :: lower⟩ ⟨hub.record (.worked posting.serial),
      .code (.handle (.flushMessages info)) (hub.collaborators.flushMessages info) ::
        .mark info true :: lower⟩ := Runs.of_go begun
  obtain ⟨hub₂, h₂, kept₂⟩ := passes_handle ((quiet.runs h₁).above (List.suffix_cons ..))
  -- The app is marked as stopping, and there is nothing to flush.
  obtain ⟨hub₃, previous, marked, kept₃⟩ : ∃ hub₃ previous,
      (Frame.mark info true).step hub₂ = .go hub₃ [.flush, .settle info true previous] ∧
      hub₂.Kept hub₃ := ⟨_, _, rfl, ⟨⟨rfl, rfl, rfl, rfl, rfl⟩, rfl, rfl⟩⟩
  have kept : hub.Kept hub₃ :=
    ((⟨worked, rfl, rfl⟩ : hub.Kept (hub.record (.worked posting.serial))).trans kept₂).trans kept₃
  have hwaiting : hub₃.waiting = [] := kept.waiting.trans empty
  have h₃ : Runs ⟨hub, .complete posting :: lower⟩
      ⟨hub₃, .flush :: .settle info true previous :: lower⟩ :=
    (h₁.trans h₂).trans (Runs.of_go marked)
  have flushed : (Frame.flush : Frame σ).step hub₃ = .go hub₃ [] := by
    simp only [Frame.step, (hm.reaches h₃.reaches).tidy.pop_none hwaiting]
  have h₄ : Runs ⟨hub, .complete posting :: lower⟩ ⟨hub₃, .settle info true previous :: lower⟩ :=
    h₃.trans (Runs.of_go flushed)
  -- Its end is announced, and it is removed.
  obtain ⟨index, hindex⟩ : ∃ index, hub₃.indexOf? info.instanceId = some index := by
    cases hindex : hub₃.indexOf? info.instanceId with
    | some index => exact ⟨index, rfl⟩
    | none =>
      rw [indexOf?_eq_none, kept.infos] at hindex
      exact absurd (List.mem_map_of_mem hmem) hindex
  have settled : (Frame.settle info true previous).step hub₃ =
      (hub₃.announce EventType.nanoappStopped (hub₃.loadAt index) info).above
        [.remove index true, .unmark info previous] := by
    simp only [Frame.step, settleUnload, hindex, if_true]
  have hrunning : hub₃.running = true := kept.running.trans running
  have hroom : 0 < hub₃.room := by
    rw [Hub.room, kept.pool]
    exact room
  obtain ⟨hub₅, status, h₅, alike₅, hwaiting₅, plain⟩ :=
    announced (hm.reaches h₄.reaches) settled hrunning hroom
  obtain ⟨app, ha, hid⟩ := indexOf?_eq_some hindex
  have placed : index < hub₅.apps.length := by
    rw [alike₅.length_apps]
    exact (List.getElem?_eq_some_iff.mp ha).1
  obtain ⟨hub₆, h₆, hinfos₆, hrunning₆, hwaiting₆⟩ := removes placed
    (((quiet.runs h₄).runs h₅).above (List.suffix_cons ..))
  have unmarked : (Frame.unmark info previous : Frame σ).step hub₆ =
      .go ((hub₆.setStopping previous).log (.unloaded info)) [] := rfl
  have gone : hub₆.infos = hub.infos.filter fun info => info.instanceId != instanceId := by
    have distinct : (hub.infos.map Info.instanceId).Nodup := by
      rw [infos_eq]
      exact hm.enrolled.instances
    have hplaced : hub.infos[index]? = some app.nanoapp.info := by
      rw [← kept.infos, infos, List.getElem?_map, ha]
      rfl
    rw [hinfos₆, alike₅.infos, kept.infos, ← filter_key_eq_eraseIdx distinct hplaced, hid, hinfo]
  rw [hwaiting, List.nil_append] at hwaiting₅
  exact ⟨_, status, ((h₄.trans h₅).trans h₆).trans (Runs.of_go unmarked),
    ⟨⟨info, hmem, hinfo⟩, gone⟩, hrunning₆.trans (alike₅.running.trans hrunning),
    hwaiting₆.trans hwaiting₅, plain⟩

/-- In a cycle of its own the request at the front of an otherwise empty queue is dispatched. -/
theorem cycle_concludes {work : SystemWork σ} (hm : Reachable ⟨hub, .idle count actor next :: rest⟩)
    (quiet : Quiet (.idle (count + 1) actor next :: rest) ⟨hub, .idle count actor next :: rest⟩)
    (carries : posting.completion = .work work) (running : hub.running = true)
    (grants : hub.Grants work) (reserved : hub.config.wakeupBuckets.toNat < 2 ^ 62)
    (front : hub.waiting = [posting])
    (slots : ((rest.flatMap Frame.cargo).filterMap Cargo.handle?).length + 2 ≤
      hub.pool.capacity) :
    ∃ hub' status, Runs ⟨hub, .idle count actor next :: rest⟩
      ⟨hub', .idle (count + 1) actor next :: rest⟩ ∧ hub.Fulfils work hub' ∧
      hub'.running = true ∧ hub'.waiting = [status] ∧ status.completion = .nothing := by
  obtain ⟨hub₁, handle, h₁, alike₁, hwaiting₁⟩ := opens hm quiet running front
  have hm₁ := hm.reaches h₁.reaches
  -- The request holds one slot, and another one is free.
  have hroom : 0 < hub₁.room := by
    have hcapacity := hm.capacity_eq h₁.reaches
    refine hm₁.room_pos ?_
    simp only at hcapacity
    rw [hwaiting₁, hcapacity]
    have hcargo : cargo ⟨hub₁, .complete posting :: .vacate handle :: .endCycle ::
        .idle (count + 1) actor next :: rest⟩ =
        .posting posting :: .spent handle :: rest.flatMap Frame.cargo := rfl
    rw [hcargo]
    simp only [List.length_nil, List.filterMap_cons, Cargo.handle?, List.length_cons]
    omega
  have concludes : Concludes hub₁ posting work (.vacate handle :: .endCycle ::
      .idle (count + 1) actor next :: rest) := by
    have quiet₁ := (quiet.runs h₁).above (⟨[.vacate handle, .endCycle], rfl⟩ :
      .idle (count + 1) actor next :: rest <:+
        .vacate handle :: .endCycle :: .idle (count + 1) actor next :: rest)
    have running₁ := alike₁.running.trans running
    cases work with
    | load app =>
      rw [← alike₁.config] at reserved
      exact load_concludes hm₁ quiet₁ carries running₁ (alike₁.grants grants) reserved hwaiting₁
        hroom
    | unload instanceId force =>
      exact unload_concludes hm₁ quiet₁ carries running₁ (alike₁.grants grants) hwaiting₁ hroom
    | shutdown | call => cases grants
  obtain ⟨hub₂, status, h₂, fulfils, running₂, hwaiting₂, plain⟩ := concludes
  have hm₂ := hm₁.reaches h₂.reaches
  obtain ⟨hub', h₃, alike₃, hwaiting₃⟩ := closes hm₂ ((quiet.runs h₁).runs h₂)
  exact ⟨hub', status, (h₁.trans h₂).trans h₃, (alike₁.fulfils fulfils).alike alike₃,
    alike₃.running.trans running₂, hwaiting₃.trans hwaiting₂, plain⟩

/-- In a cycle of its own a status event is dispatched, and the queue is empty again. -/
theorem cycle_passes (hm : Reachable ⟨hub, .idle count actor next :: rest⟩)
    (quiet : Quiet (.idle (count + 1) actor next :: rest) ⟨hub, .idle count actor next :: rest⟩)
    (plain : posting.completion = .nothing) (running : hub.running = true)
    (front : hub.waiting = [posting]) :
    ∃ hub', Runs ⟨hub, .idle count actor next :: rest⟩
      ⟨hub', .idle (count + 1) actor next :: rest⟩ ∧ hub.Alike hub' ∧ hub'.waiting = [] := by
  obtain ⟨hub₁, handle, h₁, alike₁, hwaiting₁⟩ := opens hm quiet running front
  have hcompletes : (Frame.complete posting).step hub₁ = .go hub₁ [] := by
    simp only [Frame.step, complete, plain]
  have h₂ : Runs ⟨hub, .idle count actor next :: rest⟩
      ⟨hub₁, .vacate handle :: .endCycle :: .idle (count + 1) actor next :: rest⟩ :=
    h₁.trans (Runs.of_go hcompletes)
  obtain ⟨hub', h₃, alike₃, hwaiting₃⟩ := closes (hm.reaches h₂.reaches) (quiet.runs h₂)
  exact ⟨hub', h₂.trans h₃, alike₁.trans alike₃, hwaiting₃.trans hwaiting₁⟩

/-- A load or an unload is requested while no event is in flight, and then what is queued is
dispatched. With two slots the work is done if asking for it at once would not be refused, provided
that no code posts anything meanwhile and that the app may stay. -/
theorem request_served {r : Reach} {a : Answer} {poster : Actor σ r a} {work : SystemWork σ}
    {asked : Bool → Routine σ r a} {below : List (Frame σ)}
    (hm : Reachable ⟨hub, .code poster (.request work asked) :: below⟩)
    (goes : ∀ hub, Runs ⟨hub, .code poster (asked true) :: below⟩
      ⟨hub, .code (.loop actor) (.runUntilIdle next) :: rest⟩)
    (running : hub.running = true) (still : hub.pool.allocated = 0)
    (slots : 2 ≤ hub.pool.capacity) (grants : hub.Grants work)
    (reserved : hub.config.wakeupBuckets.toNat < 2 ^ 62)
    (quiet : ∀ count, Quiet (.idle count actor next :: rest)
      ⟨hub, .code poster (.request work asked) :: below⟩) :
    ∃ hub', Runs ⟨hub, .code poster (.request work asked) :: below⟩
        ⟨hub', .code (.loop actor) (next 2) :: rest⟩ ∧
      hub.Fulfils work hub' ∧ hub'.running = true ∧ hub'.waiting = [] ∧
      hub'.pool.allocated = 0 := by
  -- The request is queued, and it has the only slot that is handed out.
  have hnone : hub.waiting.length = 0 ∧ hub.pool.allocated.toNat = 0 := by
    have hallocated : hub.pool.allocated.toNat = hub.waiting.length + _ := hm.allocated_eq
    have hzero : hub.pool.allocated.toNat = 0 := by rw [still]; rfl
    omega
  have hfree : hub.pool.isFull = false := by
    rw [Pool.isFull, decide_eq_false_iff_not]
    omega
  obtain ⟨m₁, hub₁, hstep, hqueued, admitted⟩ := admitted_free hm .work running hfree
  have hposted : Runs ⟨hub, .code poster (.request work asked) :: below⟩
      ⟨hub₁, .code poster (asked true) :: below⟩ := .head hstep hqueued
  have h₁ : Runs ⟨hub, .code poster (.request work asked) :: below⟩
      ⟨hub₁, .code (.loop actor) (.runUntilIdle next) :: rest⟩ := hposted.trans (goes hub₁)
  have hm₁ := hm.reaches h₁.reaches
  have hwaiting₁ : hub₁.waiting =
      [(⟨hub.postings, .system work.kind, .work work⟩ : Posting σ).stamped hub₁.now] := by
    have hwaiting := admitted.waiting
    simp only at hwaiting
    rw [hwaiting, List.length_eq_zero_iff.mp hnone.1]
    rfl
  have alike₁ : hub.Alike hub₁ := .of_side admitted.side
  have hrest : ((rest.flatMap Frame.cargo).filterMap Cargo.handle?).length = 0 := by
    have hallocated := hm₁.allocated_eq
    have hone := admitted.allocated
    have hcargo : cargo ⟨hub₁, .code (.loop actor) (.runUntilIdle next) :: rest⟩ =
        rest.flatMap Frame.cargo := rfl
    rw [hcargo, hwaiting₁] at hallocated
    simp only [List.length_nil, List.length_singleton] at hone hallocated
    omega
  have idles : (Frame.code (.loop actor) (.runUntilIdle next)).step hub₁ =
      .go hub₁ [.idle 0 actor next] := rfl
  have h₂ : Runs ⟨hub, .code poster (.request work asked) :: below⟩
      ⟨hub₁, .idle 0 actor next :: rest⟩ := h₁.trans (Runs.of_go idles)
  have hm₂ := hm.reaches h₂.reaches
  -- It is dispatched, then its status event.
  have hcapacity : hub₁.pool.capacity = hub.pool.capacity := hm.capacity_eq h₂.reaches
  obtain ⟨hub₃, status, h₃, fulfils, running₃, hwaiting₃, plain⟩ :=
    cycle_concludes hm₂ ((quiet 1).runs h₂) rfl (alike₁.running.trans running)
      (alike₁.grants grants) (by rwa [alike₁.config]) hwaiting₁ (by omega)
  have hm₃ := hm₂.reaches h₃.reaches
  obtain ⟨hub₄, h₄, alike₄, hwaiting₄⟩ :=
    cycle_passes hm₃ (((quiet 2).runs h₂).runs h₃) plain running₃ hwaiting₃
  have hm₄ := hm₃.reaches h₄.reaches
  obtain ⟨hub', h₅, kept⟩ := rests hm₄ hwaiting₄
  have hm' := hm₄.reaches h₅.reaches
  refine ⟨hub', ((h₂.trans h₃).trans h₄).trans h₅,
    ((alike₁.fulfils fulfils).alike alike₄).alike kept.toAlike,
    kept.running.trans (alike₄.running.trans running₃), kept.waiting.trans hwaiting₄, ?_⟩
  have hallocated := hm'.allocated_eq
  have hcargo : cargo ⟨hub', .code (.loop actor) (next 2) :: rest⟩ = rest.flatMap Frame.cargo := rfl
  rw [hcargo, hrest] at hallocated
  simp only [kept.waiting.trans hwaiting₄, List.length_nil, Nat.add_zero] at hallocated
  exact UInt64.toNat_inj.mp hallocated

/-- The machine stops within so many steps. As long as it dispatches for code that waits for an
empty queue, no code posts an event, and every app that starts may stay. -/
def quietly : Nat → Machine σ → Bool
  | 0, _ => false
  | budget + 1, m =>
    (!(m.frames.any Frame.isIdle) || m.frames.head?.all fun f => !f.posts && !f.declines) &&
      match m.step with
      | .stepped next => quietly budget next
      | _ => true

theorem quiet_of_quietly {budget : Nat} (h : m.quietly budget = true) :
    m.Quiet (.idle count actor next :: rest) := by
  intro m' hr hs
  induction budget generalizing m with
  | zero => cases h
  | succ budget ih =>
    rw [quietly, Bool.and_eq_true] at h
    obtain ⟨now, later⟩ := h
    rcases hr.cases_head with rfl | ⟨m₁, hstep, hr₁⟩
    · have hidle : m.frames.any Frame.isIdle = true :=
        List.any_eq_true.mpr ⟨_, hs.subset (List.mem_cons_self ..), rfl⟩
      intro frame hf
      rw [hidle, Bool.not_true, Bool.false_or, Option.mem_def.mp hf] at now
      simpa using now
    · rw [hstep] at later
      exact ih later hr₁

def requestLoad (slots : UInt64) : Machine Unit :=
  launch (.create { Config.default with eventBlocks := 1, eventsPerBlock := slots } .none () 0) <|
  .request (.load (inertApp 1)) fun _ =>
  .runUntilIdle fun _ =>
  .done ()

/-- With two slots the app is loaded. -/
theorem request_served_twoSlots :
    ∃ hub', (requestLoad 2).Runs ⟨hub', [.code (.loop .outside) (.done ())]⟩ ∧
      hub'.infos.map Info.appId = [1] := by
  have hm : (requestLoad 2).Reachable :=
    ⟨_, isStart_iff.mpr ⟨_, .none, (), 0, _, rfl, rfl⟩, .refl⟩
  have grants : (requestLoad 2).hub.Grants (.load (inertApp 1)) :=
    ⟨by decide +kernel, by decide +kernel⟩
  have quiet : (requestLoad 2).quietly 60 = true := by decide +kernel
  obtain ⟨hub', hruns, ⟨instanceId, -, hinfos⟩, -⟩ := request_served hm (fun _ => .refl) rfl rfl
    (by decide) grants (by decide) fun _ => quiet_of_quietly quiet
  refine ⟨hub', hruns, ?_⟩
  rw [hinfos]
  rfl

/-- With a single slot the request keeps it while the app is loaded, and the status event of the
load is a fatal error, although nothing else speaks against the load. -/
theorem request_fails_singleSlot :
    ∃ (m m' : Machine Unit) (hub : Hub Unit) (app : App Unit), m.Reachable ∧
      m.hub.running = true ∧ m.hub.queue.toList = [] ∧ m.hub.pool.allocated = 0 ∧
      m.hub.pool.capacity = 1 ∧ m.hub.Grants (.load app) ∧
      m.frames = [.code (.loop .outside)
        (.request (.load app) fun _ => .runUntilIdle fun _ => .done ())] ∧
      (∀ count, m.Quiet [.idle count .outside fun _ => .done ()]) ∧
      m.Runs m' ∧ m'.step = .failed hub (.noSpace EventType.nanoappStarted) := by
  have hm : (requestLoad 1).Reachable :=
    ⟨_, isStart_iff.mpr ⟨_, .none, (), 0, _, rfl, rfl⟩, .refl⟩
  have grants : (requestLoad 1).hub.Grants (.load (inertApp 1)) :=
    ⟨by decide +kernel, by decide +kernel⟩
  have quiet : (requestLoad 1).quietly 60 = true := by decide +kernel
  have hfailed : ((requestLoad 1).advance 60).2 = .failed (.noSpace EventType.nanoappStarted) := by
    decide +kernel
  obtain ⟨m', hub, hruns, hstep⟩ := runs_of_failed hfailed
  exact ⟨requestLoad 1, m', hub, inertApp 1, hm, rfl, rfl, rfl, rfl, grants, rfl,
    fun _ => quiet_of_quietly quiet, hruns, hstep⟩

end Machine

end SensorHub
