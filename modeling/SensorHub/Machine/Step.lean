import SensorHub.Machine.Dispatch
/-!
One step of a hub at work. A step depends on the uppermost frame and the state of the hub, not
on the frames below.
-/

namespace SensorHub

variable {σ : Type}

namespace Routine

/-- One step of a routine: the operation it starts with, then the routine that goes on. -/
def step (hub : Hub σ) {r : Reach} {a : Answer} (actor : Actor σ r a) (routine : Routine σ r a) :
    Effect σ :=
  match r, a, actor, routine with
  | _, _, actor, .recall next => .go hub [.code actor (next hub.memory)]
  | _, _, actor, .store memory next => .go { hub with memory := memory } [.code actor next]
  | _, _, actor, .note line next => .go (hub.record (.noted line)) [.code actor next]
  | _, _, actor, .pause nanoseconds next => .go (hub.elapse nanoseconds) [.code actor next]
  | _, _, actor, .observe next => .go hub [.code actor (next hub.snapshot)]
  | _, _, actor, .post event free next =>
    let (posting, hub) := hub.offer .critical (Hub.critical event) (.ofCallback free)
    (hub.postCritical posting).above [.code actor next]
  | _, _, actor, .postLow event free next =>
    let (posting, hub) := hub.offer .low { event with lowPriority := true } (.ofCallback free)
    let (queued, hub, frames) := hub.postDroppable posting
    .go hub (frames ++ [.code actor (next queued)])
  | _, _, actor, .request work next =>
    let (queued, effect) := hub.request work
    effect.above [.code actor (next queued)]
  | _, _, actor, .lookInward next =>
    match hub.apps[actor.index]? with
    | none => .go hub []
    | some app =>
      let self := ⟨app.nanoapp.info, app.nanoapp.registrations, actor.stopping⟩
      .go hub [.code actor (next self)]
  | _, _, actor, .send event free next =>
    match hub.apps[actor.index]? with
    | none => .go hub []
    | some app =>
      let event := { event with sender := app.nanoapp.info.instanceId, lowPriority := true }
      let (posting, hub) := hub.offer .low event (.ofCallback free)
      let (queued, hub, frames) := hub.postDroppable posting
      .go hub (frames ++ [.code actor (next queued)])
  | _, _, actor, .register type mask next =>
    match hub.apps[actor.index]? with
    | none => .go hub []
    | some app =>
      let (accepted, registrations) := app.nanoapp.registrations.register type mask
      .go (hub.alterApp actor.index fun n => { n with registrations := registrations })
        [.code actor (next accepted)]
  | _, _, actor, .unregister type mask next =>
    match hub.apps[actor.index]? with
    | none => .go hub []
    | some app =>
      let (found, registrations) := app.nanoapp.registrations.unregister type mask
      .go (hub.alterApp actor.index fun n => { n with registrations := registrations })
        [.code actor (next found)]
  | _, _, actor, .blame next =>
    .go ((hub.alterApp actor.index Nanoapp.blame).record (.blamed (hub.loadAt actor.index)))
      [.code actor next]
  | _, _, actor, .inspect next => .go hub [.code actor (next hub.view)]
  | _, _, .loop actor, .start app next => hub.load app (.routine actor next)
  | _, _, actor, .unload instanceId force next =>
    let (result, hub, frames) := hub.unload instanceId force true
    .go hub (frames ++ [.code actor (next result)])
  | _, _, .loop actor, .runUntilIdle next => .go hub [.idle 0 actor next]
  | _, _, actor, .run next =>
    .go (hub.log (.running hub.pool.capacity)) [.serve, .code actor next]
  | _, _, actor, .deliver instanceId type payload next =>
    let (found, hub, frames) := hub.deliverDirect instanceId type payload
    .go hub (frames ++ [.code actor (next found)])
  | _, _, actor, .rollWakeups next => .go hub.rollWakeups [.code actor next]
  | _, _, actor, .freeMessage appId closure next =>
    let (found, hub, frames) := hub.freeMessage appId closure
    .go hub (frames ++ [.code actor (next found)])
  | _, _, .loop _, .done () => .go hub []
  | _, _, .handle _, .done () => .go hub []
  | _, _, .release kind info, .done count =>
    .go (if count = 0 then hub else hub.log (.leftovers info.appId count kind)) []
  | _, _, .start index _ client, .done ok => hub.finishStart index client ok
  | _, _, .entry index _ point, .done () => .go (hub.record (.left (hub.loadAt index) point)) []

end Routine

namespace Frame

/-- One step of the uppermost frame. -/
def step (hub : Hub σ) : Frame σ → Effect σ
  | .code actor routine => routine.step hub actor
  | .evict [] => .go hub []
  | .evict (handle :: rest) =>
    let (hub, frames) := hub.releaseEvicted handle
    .go hub (frames ++ [.evict rest])
  | .vacate handle => .go (hub.vacate handle) []
  | .enqueue posting =>
    match hub.enqueue posting with
    | (true, hub) => .go hub []
    | (false, hub) => hub.fail (.notAdmitted posting.event.type)
  | .dispatch handle => hub.dispatch handle
  | .discard handle => hub.discard handle
  | .distribute posting index reached => hub.offerTo posting index reached
  | .delivered index => .go (hub.finishDelivery index) []
  | .complete posting => hub.complete posting
  | .restore previous => .go (hub.setCurrent previous) []
  | .answer (.routine actor next) result => .go hub [.code (.loop actor) (next result)]
  | .answer (.request _) (.ok _) => .go hub []
  | .answer (.request appId) (.error reason) => .go (hub.log (.deferredLoadFailed appId reason)) []
  | .mark info started => hub.markStopping info started
  | .flush =>
    match hub.pop? with
    | none => .go hub []
    | some (handle, hub) => .go hub [.dispatch handle, .flush]
  | .settle info started previous => hub.settleUnload info started previous
  | .remove index started => hub.removeAt index started
  | .release _ _ [] => .go hub []
  | .release load info ((place, manager) :: rest) =>
    .go (hub.record (.released load manager.kind place))
      [.code (.release manager.kind info) (manager.release info), .release load info rest]
  | .erase index load info => .go ((hub.erase index load info.instanceId).setCurrent none) []
  | .unmark info previous => .go ((hub.setStopping previous).log (.unloaded info)) []
  | .cycle handle =>
    .go hub
      [.code (.handle .beforeCycle) (hub.collaborators.beforeCycle (hub.queue.size + 1)),
        .turn handle]
  | .turn handle => .go hub.rollWakeups [.dispatch handle, .endCycle]
  | .endCycle =>
    .go hub [.code (.handle .afterCycle) (hub.collaborators.afterCycle hub.queue.size)]
  | .idle count actor next =>
    if hub.running then
      let hub := hub.sampleUsage
      match hub.pop? with
      | none => .go hub [.code (.loop actor) (next count)]
      | some (handle, hub) => .go hub [.cycle handle, .idle (count + 1) actor next]
    else .go hub [.code (.loop actor) (next count)]
  | .serve =>
    if hub.running then .go hub.sampleUsage [.await]
    else .go hub [.drain, .clear, .drain, .exit]
  | .await =>
    match hub.pop? with
    | none => .wait
    | some (handle, hub) => .go hub [.cycle handle, .serve]
  | .drain =>
    match hub.pop? with
    | none => .go hub []
    | some (handle, hub) => .go hub [.discard handle, .drain]
  | .clear =>
    if hub.apps.isEmpty then .go hub []
    else .go hub [.remove (hub.apps.length - 1) true, .clear]
  | .exit => .go (hub.log .exiting) []

end Frame

end SensorHub
