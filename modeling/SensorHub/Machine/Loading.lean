import SensorHub.Machine.Posting
/-!
Loading and unloading apps. An unload flushes the app's host messages, marks the app as
stopping so that its events are refused, dispatches everything queued, announces the stop, ends
the app, releases its resources and takes it out of the registry. An app that did not start
goes the same way without the queue, the announcement and the end.
-/

namespace SensorHub.Hub

variable {σ : Type}

/-- The reason to refuse a load before an instance id is assigned. -/
def loadRefusal? (hub : Hub σ) (info : Info) : Option Refusal :=
  if info.targetApi < hub.config.firstSupportedApi then
    some (.incompatibleApi info.appId info.targetApi hub.config.firstSupportedApi)
  else (hub.instanceOfApp? info.appId).map (.duplicateApp info.appId)

def refuseLoad (hub : Hub σ) (client : LoadClient σ) (reason : Refusal) : Effect σ :=
  .go (hub.log (.loadRefused reason)) [.answer client (.error reason)]

/-- Loads an app and lets it start. The hub fails if there is no room for the app's wakeup
counters. -/
def load (hub : Hub σ) (app : App σ) (client : LoadClient σ) : Effect σ :=
  match hub.loadRefusal? app.nanoapp.info with
  | some reason => hub.refuseLoad client reason
  | none =>
    match hub.assignId with
    | (none, hub) => hub.refuseLoad client (.idsExhausted app.nanoapp.info.appId)
    | (some instanceId, hub) =>
      match Wakeups.new? hub.config.wakeupBuckets.toNat with
      | none => .fail hub .capacityOverflow
      | some wakeups =>
        let index := hub.apps.length
        let (_, hub) := hub.enroll app instanceId wakeups
        let stopping := hub.isStopping instanceId
        let hub := hub.setCurrent (some instanceId)
        .go (hub.record (.entered hub.loads instanceId .start stopping))
          [.code (.start index stopping client) app.onStart]

def unload (hub : Hub σ) (instanceId : UInt16) (force started : Bool) :
    Except Refusal Unit × Hub σ × List (Frame σ) :=
  match hub.apps.find? fun app => app.nanoapp.info.instanceId == instanceId with
  | none =>
    (.error (.notFound instanceId), hub.log (.nothingToUnload instanceId), [])
  | some app =>
    if !force && app.nanoapp.info.isSystem then
      (.error (.systemNanoapp instanceId), hub.log (.systemProtected instanceId), [])
    else
      let info := app.nanoapp.info
      (.ok (), hub,
        [.code (.handle (.flushMessages info)) (hub.collaborators.flushMessages info),
          .mark info started])

/-- Goes on after an app's first entry point has ended with `ok`. An app that did not start is
unloaded again. -/
def finishStart (hub : Hub σ) (index : Nat) (client : LoadClient σ) (ok : Bool) : Effect σ :=
  let hub := hub.setCurrent none
  match hub.apps[index]? with
  | none => .go hub []
  | some app =>
    let info := app.nanoapp.info
    let hub := hub.record (.left app.nanoapp.load .start)
    if ok then
      ((hub.log (.started info)).announce EventType.nanoappStarted app.nanoapp.load info).above
        [.answer client (.ok info.instanceId)]
    else
      let failed : Frame σ := .answer client (.error (.startFailed info.appId info.instanceId))
      match (hub.log (.startFailed info)).unload info.instanceId true false with
      | (.ok (), hub, frames) => .go hub (frames ++ [failed])
      | (.error reason, hub, _) => .go (hub.log (.cleanupFailed reason)) [failed]

/-- Goes on with an unload after the host messages are flushed. -/
def markStopping (hub : Hub σ) (info : Info) (started : Bool) : Effect σ :=
  let previous := hub.stopping
  let settle : Frame σ := .settle info started previous
  .go (hub.setStopping (some info.instanceId)) (if started then [.flush, settle] else [settle])

/-- Goes on with an unload after the queue is flushed. Work that was flushed may have removed
the app already. -/
def settleUnload (hub : Hub σ) (info : Info) (started : Bool) (previous : Option UInt16) :
    Effect σ :=
  match hub.indexOf? info.instanceId with
  | none => .go ((hub.log (.wentAway info.instanceId)).setStopping previous) []
  | some index =>
    let rest : List (Frame σ) := [.remove index started, .unmark info previous]
    if started then
      (hub.announce EventType.nanoappStopped (hub.loadAt index) info).above rest
    else .go hub rest

/-- Lets the app at a place end, then has its resources released and takes it out of the
registry, all in the name of the app. -/
def removeAt (hub : Hub σ) (index : Nat) (started : Bool) : Effect σ :=
  match hub.apps[index]? with
  | none => .go hub []
  | some app =>
    let info := app.nanoapp.info
    let load := app.nanoapp.load
    let hub := hub.setCurrent (some info.instanceId)
    let rest : List (Frame σ) :=
      [.release load info hub.collaborators.inReleaseOrder, .erase index load info]
    if started then
      .go (hub.record (.entered load info.instanceId .finish true))
        (.code (.entry index true .finish) app.onEnd :: rest)
    else .go hub rest

end SensorHub.Hub
