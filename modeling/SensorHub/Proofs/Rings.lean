import SensorHub.Proofs.Course
import SensorHub.Proofs.Periods

namespace SensorHub

variable {σ : Type}

/-- The wakeup counters of a hub with what the journal tells of them. -/
structure Rings where
  config : Config
  /-- The counters of the loaded apps under the numbers of their loads. -/
  rings : List (Nat × Wakeups)
  lastRoll : Nat
  loads : Nat
  /-- The loads, rolls and blames, latest first. -/
  chronicle : List Incident

namespace Rings

/-- The counters of the app at a place count a wakeup, in the name of its load. -/
def blame (r : Rings) (index load : Nat) : Rings :=
  { r with
    rings := r.rings.modify index fun ring => (ring.1, ring.2.blame)
    chronicle := .blamed load :: r.chronicle }

def roll (r : Rings) (now : Nat) : Rings :=
  { r with
    rings := r.rings.map fun ring => (ring.1, ring.2.roll)
    lastRoll := now
    chronicle := .rolled now :: r.chronicle }

def join (r : Rings) (info : Info) : Rings :=
  { r with
    rings := r.rings ++ [(r.loads + 1, .new r.config.wakeupBuckets.toNat)]
    loads := r.loads + 1
    chronicle := .loaded (r.loads + 1) info :: r.chronicle }

def leave (r : Rings) (index : Nat) : Rings :=
  { r with rings := r.rings.eraseIdx index }

/-- What a step that does not look whether a period is over can do to the counters. -/
inductive Turns (r : Rings) : Rings → Prop
  | keep : Turns r r
  | blame {index load : Nat} {w : Wakeups} (h : r.rings[index]? = some (load, w)) :
      Turns r (r.blame index load)
  | join (info : Info) : Turns r (r.join info)
  | leave (index : Nat) : Turns r (r.leave index)

end Rings

theorem Incident.isWakeup_of_isMinor {incident : Incident} {now : Nat}
    (h : incident.isMinor now = true) : incident.isWakeup = false := by
  cases incident with
  | loaded | rolled | blamed => cases h
  | _ => rfl

/-- The wakeup counters, as the course of a hub has them. -/
def Course.rings (c : Course σ) : Rings where
  config := c.config
  rings := c.apps.map fun app => (app.nanoapp.load, app.nanoapp.wakeups)
  lastRoll := c.lastRoll
  loads := c.loads
  chronicle := c.journal.filter Incident.isWakeup

theorem Course.Passes.rings {c c' : Course σ} (h : c.Passes c') : c'.rings = c.rings := by
  obtain ⟨news, rfl, minor⟩ := h
  have hnews : news.filter Incident.isWakeup = [] := by
    apply List.filter_eq_nil_iff.mpr
    intro incident hmem
    simp [Incident.isWakeup_of_isMinor (minor incident hmem)]
  simp only [Course.rings, List.filter_append, hnews, List.nil_append]

namespace Hub

variable {hub hub' : Hub σ}

/-- The loads, rolls and blames of the journal, latest first. -/
def chronicle (hub : Hub σ) : List Incident :=
  hub.journal.filter Incident.isWakeup

def rings (hub : Hub σ) : Rings where
  config := hub.config
  rings := hub.apps.map fun app => (app.nanoapp.load, app.nanoapp.wakeups)
  lastRoll := hub.lastRoll
  loads := hub.loads
  chronicle := hub.chronicle

theorem rings_checkLatency (hub : Hub σ) (event : Event) (receiver : UInt16) :
    (hub.checkLatency event receiver).rings = hub.rings := by
  unfold checkLatency
  dsimp only
  split
  next => split <;> rfl
  next => rfl

theorem rings_deliverTo (hub : Hub σ) (index : Nat) (app : App σ) (serial : Option Nat)
    (event : Event) (hasCallback : Bool) :
    (hub.deliverTo index app serial event hasCallback).1.rings = hub.rings := by
  have hsame := rings_checkLatency hub event app.nanoapp.info.instanceId
  exact hsame

/-- The counters go by the number of the load and by the wakeups alone. -/
theorem rings_alterApp (hub : Hub σ) (index : Nat) {change : Nanoapp → Nanoapp}
    (turn : Wakeups → Wakeups)
    (turns : ∀ n : Nanoapp, (change n).load = n.load ∧ (change n).wakeups = turn n.wakeups) :
    (hub.alterApp index change).rings =
      { hub.rings with
        rings := hub.rings.rings.modify index fun ring => (ring.1, turn ring.2) } := by
  have hrings : (hub.alterApp index change).rings.rings =
      hub.rings.rings.modify index fun ring => (ring.1, turn ring.2) := by
    apply List.ext_getElem?
    intro k
    simp only [rings, alterApp, List.getElem?_map, List.getElem?_modify]
    cases hub.apps[k]? with
    | none => rfl
    | some app =>
      obtain ⟨hload, hturn⟩ := turns app.nanoapp
      by_cases hk : index = k
      · simp [hk, App.alter, hload, hturn]
      · simp [hk]
  exact congrArg (fun rings => { hub.rings with rings := rings }) hrings

theorem rings_unturned (hub : Hub σ) (index : Nat) {change : Nanoapp → Nanoapp}
    (keeps : ∀ n : Nanoapp, (change n).load = n.load ∧ (change n).wakeups = n.wakeups) :
    (hub.alterApp index change).rings = hub.rings := by
  have hid : (fun ring : Nat × Wakeups => (ring.1, ring.2)) = id := rfl
  rw [hub.rings_alterApp index id keeps]
  simp only [id, hid, List.modify_id]

theorem rings_enroll (hub : Hub σ) (app : App σ) (id : UInt16) :
    (hub.enroll app id (.new hub.config.wakeupBuckets.toNat)).2.rings =
      hub.rings.join { app.nanoapp.info with instanceId := id } := by
  have hrings : (hub.enroll app id (.new hub.config.wakeupBuckets.toNat)).2.rings.rings =
      hub.rings.rings ++ [(hub.loads + 1, .new hub.config.wakeupBuckets.toNat)] := by
    simp only [rings, enroll, record, List.map_append]
    rfl
  exact congrArg (fun rings =>
    { hub.rings.join { app.nanoapp.info with instanceId := id } with rings := rings }) hrings

theorem rings_erase (hub : Hub σ) (index load : Nat) (id : UInt16) :
    (hub.erase index load id).rings = hub.rings.leave index := by
  have hrings : (hub.erase index load id).rings.rings = hub.rings.rings.eraseIdx index := by
    simp only [rings, erase, record, List.eraseIdx_map]
  exact congrArg (fun rings => { hub.rings with rings := rings }) hrings

theorem rings_rollWakeups (hub : Hub σ) :
    hub.rollWakeups.rings =
      if hub.config.wakeupInterval < hub.now - hub.lastRoll then hub.rings.roll hub.now
      else hub.rings := by
  unfold Hub.rollWakeups
  split
  next =>
    simp only [rings, record, Rings.roll, List.map_map]
    rfl
  next => rfl

end Hub

namespace Frame

variable {hub hub' : Hub σ} {frame : Frame σ} {frames : List (Frame σ)}

/-- A step that looks whether a period is over does nothing else. -/
theorem step_check (checks : frame.checksPeriod = true) (h : frame.step hub = .go hub' frames) :
    hub' = hub.rollWakeups := by
  cases frame with
  | turn handle =>
    cases h
    rfl
  | code actor routine =>
    cases routine with
    | rollWakeups next =>
      cases actor
      cases h
      rfl
    | _ => cases checks
  | _ => cases checks

theorem step_turns (placed : ∀ i, frame.index? = some i → i < hub.apps.length)
    (unchecked : frame.checksPeriod = false) (h : frame.step hub = .go hub' frames) :
    hub.rings.Turns hub'.rings := by
  obtain ⟨c, hedits, hpasses⟩ | hdelivers := step_proceeds placed h
  case inr =>
    obtain ⟨hasCallback, -, -⟩ := hdelivers
    rw [Hub.rings_deliverTo]
    exact .keep
  have hrings : hub'.rings = c.rings := hpasses.rings
  rw [hrings]
  have keep : c.rings = hub.rings → hub.rings.Turns c.rings := fun h => h ▸ .keep
  cases hedits with
  | keep | elapse | sample | miss => exact .keep
  | tune index registrations =>
    have htune := hub.rings_unturned index fun n : Nanoapp =>
      show ({ n with registrations := registrations } : Nanoapp).load = n.load ∧
        ({ n with registrations := registrations } : Nanoapp).wakeups = n.wakeups from ⟨rfl, rfl⟩
    exact keep htune
  | count index =>
    have hcount := hub.rings_unturned index fun n : Nanoapp =>
      show n.countEvent.load = n.load ∧ n.countEvent.wakeups = n.wakeups from ⟨rfl, rfl⟩
    exact keep hcount
  | @blame index hplace =>
    have happ := List.getElem?_eq_getElem hplace
    have hring : hub.rings.rings[index]? =
        some (hub.loadAt index, hub.apps[index].nanoapp.wakeups) := by
      simp [Hub.rings, Hub.loadAt, happ]
    have halter := hub.rings_alterApp index Wakeups.blame
      fun n : Nanoapp => show n.blame.load = n.load ∧ n.blame.wakeups = n.wakeups.blame from
        ⟨rfl, rfl⟩
    have hblame : ((hub.alterApp index Nanoapp.blame).record
        (.blamed (hub.loadAt index))).rings = hub.rings.blame index (hub.loadAt index) :=
      congrArg (fun r : Rings =>
        { r with chronicle := .blamed (hub.loadAt index) :: r.chronicle }) halter
    have hturns : hub.rings.Turns ((hub.alterApp index Nanoapp.blame).record
        (.blamed (hub.loadAt index))).rings := hblame ▸ .blame hring
    exact hturns
  | @enroll hub₁ hbefore app id =>
    have hsame : hub₁.rings = hub.rings := hbefore.rings
    have henroll := Hub.rings_enroll hub₁ app id
    rw [hsame] at henroll
    have hturns : hub.rings.Turns
        (hub₁.enroll app id (.new hub₁.config.wakeupBuckets.toNat)).2.rings := henroll ▸ .join _
    exact hturns
  | erase index load id =>
    have herase := hub.rings_erase index load id
    have hturns : hub.rings.Turns (hub.erase index load id).rings := herase ▸ .leave index
    exact hturns
  | roll checks =>
    rw [unchecked] at checks
    cases checks

end Frame

end SensorHub
