import SensorHub.Proofs.Run

namespace SensorHub

variable {σ : Type}

/-- What the loop goes by when it deals with a loaded app. -/
structure Member where
  load : Nat
  info : Info
  registrations : Registrations

def Nanoapp.member (n : Nanoapp) : Member :=
  ⟨n.load, n.info, n.registrations⟩

def Incident.owner? : Incident → Option Nat
  | .loaded load _ | .entered load _ _ _ | .left load _ | .released load _ _ | .erased load _ =>
    some load
  | _ => none

/-- The parts of a hub that only the loop changes, except that an app changes what it is registered
for. -/
structure LoopSide (σ : Type) where
  config : Config
  collaborators : Collaborators σ
  running : Bool
  directory : List Info
  shownCurrent : UInt16
  shownStopping : UInt16
  members : List Member
  current : Option UInt16
  stopping : Option UInt16
  nextId : UInt16
  loads : Nat
  /-- What happened in the lives of apps, latest first. -/
  deeds : List Incident

namespace Hub

def infos (hub : Hub σ) : List Info :=
  hub.apps.map fun app => app.nanoapp.info

/-- The loaded apps as the loop deals with them, oldest load first. -/
def members (hub : Hub σ) : List Member :=
  hub.apps.map fun app => app.nanoapp.member

def deeds (hub : Hub σ) : List Incident :=
  hub.journal.filter fun i => i.owner?.isSome

def loopSide (hub : Hub σ) : LoopSide σ where
  config := hub.config
  collaborators := hub.collaborators
  running := hub.running
  directory := hub.directory
  shownCurrent := hub.shownCurrent
  shownStopping := hub.shownStopping
  members := hub.members
  current := hub.current
  stopping := hub.stopping
  nextId := hub.nextId
  loads := hub.loads
  deeds := hub.deeds

theorem loopSide_record (hub : Hub σ) {incident : Incident} (h : incident.owner? = none) :
    (hub.record incident).loopSide = hub.loopSide := by
  have hdeeds : (hub.record incident).deeds = hub.deeds :=
    List.filter_cons_of_neg (by simp [h])
  simp only [loopSide, hdeeds]
  rfl

@[simp] theorem loopSide_log (hub : Hub σ) (report : LogRecord) :
    (hub.log report).loopSide = hub.loopSide := rfl

@[simp] theorem loopSide_logAll (hub : Hub σ) (reports : List LogRecord) :
    (hub.logAll reports).loopSide = hub.loopSide := by
  induction reports generalizing hub with
  | nil => rfl
  | cons report reports ih => exact ih (hub.log report)

@[simp] theorem loopSide_elapse (hub : Hub σ) (nanoseconds : Nat) :
    (hub.elapse nanoseconds).loopSide = hub.loopSide := rfl

@[simp] theorem loopSide_offer (hub : Hub σ) (way : Way) (event : Event)
    (completion : Completion σ) : (hub.offer way event completion).2.loopSide = hub.loopSide := rfl

@[simp] theorem loopSide_enqueue (hub : Hub σ) (posting : Posting σ) :
    (hub.enqueue posting).2.loopSide = hub.loopSide := by
  simp only [enqueue]
  rcases hub.pool.allocate _ with ⟨refused | handle, pool, reports⟩
  · exact loopSide_logAll _ _
  · exact loopSide_logAll _ _

@[simp] theorem loopSide_makeRoom (hub : Hub σ) : hub.makeRoom.2.loopSide = hub.loopSide := by
  simp only [makeRoom]
  split
  · rfl
  · split <;> rfl

@[simp] theorem loopSide_vacate (hub : Hub σ) (handle : Handle) :
    (hub.vacate handle).loopSide = hub.loopSide :=
  loopSide_logAll _ _

@[simp] theorem loopSide_take (hub : Hub σ) (handle : Handle) :
    (hub.take handle).2.loopSide = hub.loopSide := rfl

@[simp] theorem loopSide_detach (hub : Hub σ) (posting : Posting σ) :
    (hub.detach posting).1.loopSide = hub.loopSide := by
  unfold detach
  split <;> rfl

theorem infos_eq_members (hub : Hub σ) : hub.infos = hub.members.map Member.info := by
  rw [members, List.map_map]
  rfl

theorem infos_of_loopSide {hub hub' : Hub σ} (h : hub'.loopSide = hub.loopSide) :
    hub'.infos = hub.infos := by
  have hmembers : hub'.members = hub.members := congrArg LoopSide.members h
  rw [infos_eq_members, infos_eq_members, hmembers]

end Hub

end SensorHub
