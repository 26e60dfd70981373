import SensorHub.Demo.Simulation
import SensorHub.Proofs.Requests

namespace SensorHub.Demo.Simulation

open SensorHub.Hub

/-- What an event of a simulation is for. -/
inductive Role
  | status
  | tick
  | ping
  | reading
  | pong
  deriving DecidableEq

namespace Role

def receiver? : Role → Option Nat
  | .status => none
  | .tick => some 0
  | .reading | .pong => some 1
  | .ping => some 2

def reply? : Role → Option Role
  | .tick => some .reading
  | .ping => some .pong
  | _ => none

def Fits : Role → Event → Prop
  | .status, e => e.type = EventType.nanoappStarted ∧ e.target = broadcastId
  | .tick, e => e.type = sampleTick ∧ e.target = broadcastId ∧ e.groupMask = allGroups ∧
      ∃ raw, e.payload = some (.word32 raw)
  | .ping, e => e.type = Demo.ping ∧ e.target = 3 ∧ e.payload = some (.word16 2)
  | .reading, e => e.type = Demo.reading ∧ e.target = broadcastId ∧ e.groupMask = allGroups
  | .pong, e => e.type = Demo.pong ∧ e.target = 2

/-- A posted event has that role, and nothing is to be done once it is done. -/
def Plays (role : Role) (posting : Posting Memory) : Prop :=
  role.Fits posting.event ∧ posting.completion = .nothing

/-- The event, as far as it is still to be delivered when it is offered from a place on. -/
def owed (role : Role) (index : Nat) : Option Role :=
  if role.receiver?.any (index ≤ ·) then some role else none

variable {role : Role} {index : Nat}

/-- An event keeps its role when it is sent and when it is stamped. -/
theorem fits_sent {event : Event} {sender : UInt16} {low : Bool} (stamp : UInt16)
    (h : role.Fits event) :
    role.Fits { event with sender := sender, lowPriority := low, stamp := stamp } := by
  cases role <;> exact h

theorem owed_self (h : role.receiver? = some index) : role.owed index = some role := by
  simp [owed, h]

theorem owed_past (h : role.receiver? = some index) : role.owed (index + 1) = none := by
  simp [owed, h]

theorem owed_succ (h : role.receiver? ≠ some index) : role.owed (index + 1) = role.owed index := by
  unfold owed
  cases hr : role.receiver? with
  | none => rfl
  | some place =>
    have hne : place ≠ index := fun he => h (hr.trans (congrArg some he))
    have hiff : index + 1 ≤ place ↔ index ≤ place := by omega
    simp only [Option.any_some, decide_eq_decide.mpr hiff]

theorem owed_end (h : 3 ≤ index) : role.owed index = none := by
  have hnone : role.receiver?.any (index ≤ ·) = false := by
    cases role <;> simp [receiver?] <;> omega
  simp [owed, hnone]

end Role

/-- What an app registers for and which instance id it has. -/
def Holds (nanoapp : Nanoapp) (instanceId : UInt16) (entries : List (UInt16 × UInt32)) : Prop :=
  nanoapp.info.instanceId = instanceId ∧ nanoapp.registrations.entries = entries

theorem Holds.same {n n' : Nanoapp} {instanceId : UInt16} {entries : List (UInt16 × UInt32)}
    (h : Holds n instanceId entries)
    (keeps : n'.info = n.info ∧ n'.registrations = n.registrations) :
    Holds n' instanceId entries :=
  ⟨(congrArg Info.instanceId keeps.1).trans h.1,
    (congrArg Registrations.entries keeps.2).trans h.2⟩

/-- The three apps are loaded, and no other one. -/
inductive Crew : List (App Memory) → Prop
  | mk {first second third : Nanoapp} (sampler : Holds first 1 [(sampleTick, allGroups)])
      (counter : Holds second 2 [(reading, allGroups)]) (echo : Holds third 3 []) :
      Crew [Demo.sampler Memory.averageCell first, Demo.counter Memory.tallyCell second,
        Demo.echo third]

namespace Crew

variable {apps : List (App Memory)} {role : Role} {event : Event} {index : Nat} {app : App Memory}

/-- Changes to what the hub keeps about the apps, apart from their ids and registrations, leave the
crew as it is. -/
theorem modify (crew : Crew apps) (index : Nat) {change : Nanoapp → Nanoapp}
    (keeps : ∀ n : Nanoapp, (change n).info = n.info ∧ (change n).registrations = n.registrations) :
    Crew (apps.modify index (App.alter change)) := by
  obtain ⟨sampler, counter, echo⟩ := crew
  match index with
  | 0 => exact .mk (sampler.same (keeps _)) counter echo
  | 1 => exact .mk sampler (counter.same (keeps _)) echo
  | 2 => exact .mk sampler counter (echo.same (keeps _))
  | index + 3 =>
    rw [List.modify_eq_self (Nat.le_add_left 3 index)]
    exact .mk sampler counter echo

theorem map (crew : Crew apps) {change : Nanoapp → Nanoapp}
    (keeps : ∀ n : Nanoapp, (change n).info = n.info ∧ (change n).registrations = n.registrations) :
    Crew (apps.map (App.alter change)) := by
  obtain ⟨sampler, counter, echo⟩ := crew
  exact .mk (sampler.same (keeps _)) (counter.same (keeps _)) (echo.same (keeps _))

theorem length_eq (crew : Crew apps) : apps.length = 3 := by
  cases crew
  rfl

theorem onEnd (crew : Crew apps) (h : app ∈ apps) : app.onEnd = .done () := by
  cases crew
  simp only [List.mem_cons, List.not_mem_nil, or_false] at h
  rcases h with rfl | rfl | rfl <;> rfl

/-- An event of a simulation goes to its receiver and to no other app. -/
theorem wanted (crew : Crew apps) (fits : role.Fits event) (ha : apps[index]? = some app) :
    Hub.wanted event app.nanoapp = true ↔ role.receiver? = some index := by
  obtain ⟨⟨hfirst, hticks⟩, ⟨hsecond, hreadings⟩, hthird, hnone⟩ := crew
  match index, ha with
  | 0, rfl | 1, rfl | 2, rfl =>
    cases role <;>
      simp_all [Role.Fits, Hub.wanted, Event.isBroadcast, Registrations.accepts, Role.receiver?,
        sampler, counter, echo, sampleTick, Demo.reading, Demo.ping, Demo.pong,
        EventType.nanoappStarted, EventType.firstUser, broadcastId, allGroups]

/-- No app receives an event that is addressed to the system. -/
theorem unwanted (crew : Crew apps) (system : event.target = systemId) (ha : app ∈ apps) :
    Hub.wanted event app.nanoapp = false := by
  obtain ⟨⟨hfirst, -⟩, ⟨hsecond, -⟩, hthird, -⟩ := crew
  simp only [List.mem_cons, List.not_mem_nil, or_false] at ha
  rcases ha with rfl | rfl | rfl <;>
    simp_all [Hub.wanted, Event.isBroadcast, sampler, counter, echo, systemId, broadcastId]

end Crew

/-- The memory as far as the report and the producers read it. -/
structure SameReport (memory memory' : Memory) : Prop where
  tally : memory'.tally = memory.tally
  replyTo : memory'.replyTo = memory.replyTo
  echo : memory'.echo = memory.echo

def counted (role : Role) (tally : Tally) : Tally :=
  match role with
  | .reading => { tally with readings := tally.readings + 1 }
  | .pong => { tally with pongs := tally.pongs + 1 }
  | _ => tally

/-- Code comes to its end after so many steps at most. If it deals with an event, it sends the answer
to it, or counts it if there is none, and that is all it does for the report. -/
inductive Does : {r : Reach} → Memory → Routine Memory r .nothing → Option Role → Nat → Prop
  | done {r memory} : Does memory (.done () : Routine Memory r .nothing) none 1
  | recall {r memory hand n} {next : Memory → Routine Memory r .nothing}
      (h : Does memory (next memory) hand n) : Does memory (.recall next) hand (n + 1)
  | store {r memory memory' hand n} {next : Routine Memory r .nothing}
      (same : SameReport memory memory') (h : Does memory' next hand n) :
      Does memory (.store memory' next) hand (n + 1)
  | count {r memory role n} {next : Routine Memory r .nothing} (last : role.reply? = none)
      (h : Does { memory with tally := counted role memory.tally } next none n) :
      Does memory (.store { memory with tally := counted role memory.tally } next) (some role)
        (n + 1)
  | blame {memory hand n} {next : Routine Memory .app .nothing} (h : Does memory next hand n) :
      Does memory (.blame next) hand (n + 1)
  | send {memory role reply event n} {next : Bool → Routine Memory .app .nothing}
      (asks : role.reply? = some reply) (fits : reply.Fits event)
      (h : ∀ queued, Does memory (next queued) none n) :
      Does memory (.send event none next) (some role) (n + 1)

theorem Crew.does {apps : List (App Memory)} {role : Role} {event : Event} {index : Nat}
    {app : App Memory} (crew : Crew apps) (fits : role.Fits event) (ha : apps[index]? = some app)
    (receives : role.receiver? = some index) (memory : Memory) (hasCallback : Bool) :
    ∃ n ≤ 5, Does memory (app.onEvent event hasCallback) (some role) n := by
  obtain ⟨-, -, -⟩ := crew
  cases role with
  | status => cases receives
  | tick =>
    cases receives
    cases ha
    obtain ⟨-, -, -, raw, payload⟩ := fits
    have send : ∀ {memory : Memory} {bits : UInt32}, Does memory
        (.send { Event.new Demo.reading with payload := some (.single bits) } none fun _ =>
          .done ()) (some .tick) 2 := .send rfl ⟨rfl, rfl, rfl⟩ fun _ => .done
    simp only [sampler, payload]
    by_cases wakes : (((Memory.averageCell.get memory).add raw).samples % 32 == 0) = true
    · refine ⟨5, Nat.le_refl 5, .recall ?_⟩
      rw [if_pos wakes]
      exact .store ⟨rfl, rfl, rfl⟩ (.blame send)
    · refine ⟨4, by decide, .recall ?_⟩
      rw [if_neg wakes]
      exact .store ⟨rfl, rfl, rfl⟩ send
  | ping =>
    cases receives
    cases ha
    obtain ⟨type, -, payload⟩ := fits
    simp only [echo, payload, type, BEq.rfl, if_true]
    exact ⟨2, by decide, .send rfl ⟨rfl, rfl⟩ fun _ => .done⟩
  | reading =>
    cases receives
    cases ha
    have add : ∀ tally : Tally, tally.add event.type = counted .reading tally := by
      intro tally
      simp only [Tally.add, fits.1, BEq.rfl, if_true, counted]
    simp only [counter, Memory.tallyCell, add]
    exact ⟨3, by decide, .recall (.count rfl .done)⟩
  | pong =>
    cases receives
    cases ha
    have add : ∀ tally : Tally, tally.add event.type = counted .pong tally := by
      intro tally
      have hne : (Demo.pong == Demo.reading) = false := rfl
      simp only [Tally.add, fits.1, hne, Bool.false_eq_true, BEq.rfl, if_true, if_false, counted]
    simp only [counter, Memory.tallyCell, add]
    exact ⟨3, by decide, .recall (.count rfl .done)⟩

end SensorHub.Demo.Simulation
