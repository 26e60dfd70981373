import SensorHub.Proofs.Closing
import SensorHub.Proofs.Tenure

namespace SensorHub

variable {σ : Type}

namespace ResourceKind

theorem mem_all (kind : ResourceKind) : kind ∈ all := by
  cases kind <;> decide

def Before (kind kind' : ResourceKind) : Prop :=
  all.idxOf kind < all.idxOf kind'

instance (kind kind' : ResourceKind) : Decidable (Before kind kind') :=
  inferInstanceAs (Decidable (_ < _))

theorem pairwise_all : all.Pairwise Before := by
  decide

end ResourceKind

/-- Entries sorted by their keys are the same entries. -/
private theorem perm_flatMap_filter {α κ : Type} [DecidableEq κ] (key : α → κ) (l : List α)
    {keys : List κ} (distinct : keys.Nodup) :
    (keys.flatMap fun k => l.filter fun a => key a == k).Perm (l.filter fun a => key a ∈ keys) := by
  induction keys with
  | nil => simp
  | cons k keys ih =>
    obtain ⟨hk, hkeys⟩ := List.nodup_cons.mp distinct
    have hfirst : (l.filter fun a => key a ∈ k :: keys).filter (fun a => key a == k) =
        l.filter fun a => key a == k := by
      rw [List.filter_filter]
      refine List.filter_congr fun a _ => ?_
      by_cases ha : key a = k <;> simp [ha]
    have hothers : (l.filter fun a => key a ∈ k :: keys).filter (fun a => !(key a == k)) =
        l.filter fun a => key a ∈ keys := by
      rw [List.filter_filter]
      refine List.filter_congr fun a _ => ?_
      by_cases ha : key a = k
      · simp [ha, hk]
      · simp [ha]
    have hsplit := List.filter_append_perm (fun a => key a == k)
      (l.filter fun a => key a ∈ k :: keys)
    rw [hfirst, hothers] at hsplit
    rw [List.flatMap_cons]
    exact ((ih hkeys).append_left _).trans hsplit

namespace Collaborators

/-- One manager is asked before the other: by their domains, and within a domain by their places in
the order of registration. -/
def Precedes (r r' : Nat × Releaser σ) : Prop :=
  r.2.kind.Before r'.2.kind ∨ r.2.kind = r'.2.kind ∧ r.1 < r'.1

theorem perm_inReleaseOrder (c : Collaborators σ) :
    (c.inReleaseOrder.map Prod.swap).Perm c.releasers.zipIdx := by
  have hall : (c.releasers.zipIdx.filter fun r => r.1.kind ∈ ResourceKind.all) =
      c.releasers.zipIdx := by
    rw [List.filter_eq_self]
    intro r _
    exact decide_eq_true (ResourceKind.mem_all r.1.kind)
  have hperm := perm_flatMap_filter (fun r : Releaser σ × Nat => r.1.kind) c.releasers.zipIdx
    (show ResourceKind.all.Nodup by decide)
  rw [hall] at hperm
  rw [inReleaseOrder, List.map_flatMap]
  refine Eq.mp (congrArg (List.Perm · _) ?_) hperm
  refine List.flatMap_congr fun kind _ => ?_
  rw [List.map_map]
  exact (List.map_id _).symm

theorem pairwise_inReleaseOrder (c : Collaborators σ) : c.inReleaseOrder.Pairwise Precedes := by
  have hplaces : c.releasers.zipIdx.Pairwise fun r r' => r.2 < r'.2 := by
    rw [List.pairwise_iff_getElem]
    intro i j hi hj hij
    simpa using hij
  rw [inReleaseOrder, List.pairwise_flatMap]
  constructor
  · intro kind _
    rw [List.pairwise_map]
    refine (hplaces.filter _).imp_of_mem fun {r r'} hr hr' hlt => .inr ⟨?_, hlt⟩
    have hkind : r.1.kind = kind := beq_iff_eq.mp (List.mem_filter.mp hr).2
    have hkind' : r'.1.kind = kind := beq_iff_eq.mp (List.mem_filter.mp hr').2
    exact hkind.trans hkind'.symm
  · refine ResourceKind.pairwise_all.imp fun {kind kind'} before r hr r' hr' => .inl ?_
    obtain ⟨s, hs, rfl⟩ := List.mem_map.mp hr
    obtain ⟨s', hs', rfl⟩ := List.mem_map.mp hr'
    have hkind : s.1.kind = kind := beq_iff_eq.mp (List.mem_filter.mp hs).2
    have hkind' : s'.1.kind = kind' := beq_iff_eq.mp (List.mem_filter.mp hs').2
    rw [hkind, hkind']
    exact before

end Collaborators

namespace Life

variable {load : Nat} {info : Info} {collaborators : Collaborators σ}

/-- What an app that has come so far has lived is the beginning of a whole life, not all of it. -/
private theorem prefix_whole {task : Task σ} {index : Nat} {frames : List (Frame σ)} {ok : Bool}
    (busy : Frame.Busy collaborators index load info task frames) (answer : task.answer? = some ok)
    (stopping : Bool) (visits : List (Option Nat × Bool)) :
    ∃ visits', task.life load info stopping visits <+:
        whole collaborators load info stopping ok visits' := by
  induction busy with
  | above _ _ ih => exact ih answer
  | start => cases answer
  | @handle serial last =>
    cases answer
    refine ⟨visits ++ [(serial, last)], ?_⟩
    simp [Task.life, whole, told, visit, List.append_assoc]
  | mark | settle | remove =>
    cases answer
    exact ⟨[], by simp [Task.life, whole, told]⟩
  | leave | finish =>
    cases answer
    refine ⟨visits, ?_⟩
    simp [Task.life, whole, told, List.append_assoc]
  | @release started managers left _ order =>
    cases answer
    refine ⟨visits, ?_⟩
    rw [whole, ← order]
    simp [Task.life, told, List.append_assoc]
  | erase =>
    cases answer
    exact ⟨visits, List.prefix_append ..⟩

private theorem info_of_loaded {task : Task σ} {other : Info} {stopping : Bool}
    {visits : List (Option Nat × Bool)}
    (h : .loaded load other ∈ task.life load info stopping visits) : other = info := by
  cases task with
  | release started =>
    cases started with
    | true | false => simpa [Task.life, told, visit] using h
  | _ => simpa [Task.life, visit] using h

private theorem loaded_mem {task : Task σ} {stopping : Bool} {visits : List (Option Nat × Bool)} :
    .loaded load info ∈ task.life load info stopping visits := by
  cases task <;> simp [Task.life, told]

private theorem not_erased {task : Task σ} {instanceId : UInt16} {stopping : Bool}
    {visits : List (Option Nat × Bool)} :
    .erased load instanceId ∉ task.life load info stopping visits := by
  cases task with
  | release started =>
    cases started with
    | true | false => simp [Task.life, told, visit]
  | _ => simp [Task.life, visit]

private theorem ne_whole {task : Task σ} {stopping stopping' ok : Bool}
    {visits visits' : List (Option Nat × Bool)} :
    task.life load info stopping visits ≠ whole collaborators load info stopping' ok visits' := by
  intro h
  have hlast : .erased load info.instanceId ∈
      whole collaborators load info stopping' ok visits' := by
    simp [whole]
  exact not_erased (h ▸ hlast)

end Life

namespace Records

variable {r : Records σ} {answered : Nat → Bool → Prop} {frames : List (Frame σ)} {load : Nat}
  {info : Info}

/-- The app with this load has started with the answer `ok`. What it has lived is the beginning of
a whole life, and all of it once the app is not loaded any more. -/
def Lives (r : Records σ) (load : Nat) (info : Info) (ok : Bool) : Prop :=
  ∃ stopping visits,
    r.life load <+: Life.whole r.collaborators load info stopping ok visits ∧
      (r.life load = Life.whole r.collaborators load info stopping ok visits ↔
        load ∉ r.roster.map Prod.fst)

theorem Tended.loaded (h : Tended answered r frames) (lived : r.life load ≠ []) :
    ∃ info, .loaded load info ∈ r.life load := by
  have atRest : AtRest answered r load → ∃ info, .loaded load info ∈ r.life load := by
    intro atRest
    cases atRest with
    | unborn _ hlife => exact absurd hlife lived
    | @staying info _ _ _ _ hlife => exact ⟨info, hlife ▸ Life.loaded_mem⟩
    | @gone info _ _ _ _ _ _ hlife => exact ⟨info, by simp [hlife, Life.whole, Life.told]⟩
  cases h with
  | idle _ _ rest => exact atRest (rest load)
  | @busy _ busyLoad info _ _ _ _ _ _ _ hlife rest =>
    by_cases hload : load = busyLoad
    · subst hload
      exact ⟨info, hlife ▸ Life.loaded_mem⟩
    · exact atRest (rest load hload)

/-- Of every app that is tended the life is known: its first entry point runs, or it lives on with
the answer that this gave. -/
theorem Tended.lives (h : Tended answered r frames) (loaded : .loaded load info ∈ r.life load) :
    (∃ stopping, r.life load =
      [.loaded load info, .entered load info.instanceId .start stopping]) ∨
    ∃ ok, answered load ok ∧ r.Lives load info ok := by
  have atRest : AtRest answered r load → ∃ ok, answered load ok ∧ r.Lives load info ok := by
    intro atRest
    cases atRest with
    | unborn _ hlife =>
      rw [hlife] at loaded
      cases loaded
    | @staying _ stopping visits mem answer hlife =>
      rw [hlife] at loaded
      obtain rfl := Life.info_of_loaded loaded
      refine ⟨true, answer, stopping, visits, ?_, ?_⟩
      · rw [hlife]
        simp [Task.life, Life.whole, Life.told, List.append_assoc]
      · rw [hlife]
        exact ⟨fun h => absurd h Life.ne_whole,
          fun absent => absurd (List.mem_map_of_mem mem) absent⟩
    | @gone other stopping started visits left old answer hlife =>
      have hm := hlife ▸ loaded
      obtain rfl : info = other := by
        rcases List.mem_append.mp hm with hm | hm
        · exact @Life.info_of_loaded σ load other (.release started _) info stopping visits hm
        · cases List.mem_singleton.mp hm
      refine ⟨started, answer, stopping, visits, ⟨[], ?_⟩, ?_⟩
      · rw [List.append_nil, hlife]
      · refine ⟨fun _ hm => ?_, fun _ => hlife⟩
        obtain ⟨⟨_, other⟩, ho, rfl⟩ := List.mem_map.mp hm
        exact left other ho
  cases h with
  | idle _ _ rest => exact .inr (atRest (rest load))
  | @busy index busyLoad _ task stopping visits enrolled placed busy answer hlife rest =>
    by_cases hload : load = busyLoad
    · subst hload
      have hm := hlife ▸ loaded
      obtain rfl := Life.info_of_loaded hm
      cases ha : task.answer? with
      | none =>
        cases task with
        | start => exact .inl ⟨stopping, hlife⟩
        | _ => cases ha
      | some ok =>
        obtain ⟨visits', hprefix⟩ := Life.prefix_whole busy ha stopping visits
        rw [← hlife] at hprefix
        refine .inr ⟨ok, answer ok ha, stopping, visits', hprefix, ?_⟩
        rw [hlife]
        refine ⟨fun h => absurd h Life.ne_whole, fun absent => ?_⟩
        exact absurd (List.mem_map_of_mem (List.mem_of_getElem? placed)) absent
    · exact .inr (atRest (rest load hload))

end Records

namespace Hub

variable {hub hub' : Hub σ} {frames : List (Frame σ)}

theorem life_records (hub : Hub σ) (load : Nat) : hub.records.life load = Life.of hub.journal load := by
  have hdeeds : (hub.journal.filter fun i => i.owner?.isSome).filter (fun i => i.owner? == some load) =
      hub.journal.filter fun i => i.owner? == some load := by
    rw [List.filter_filter]
    refine List.filter_congr fun i _ => ?_
    cases i.owner? <;> simp
  exact congrArg List.reverse hdeeds

theorem mem_journal_of_life {incident : Incident} {load : Nat}
    (h : incident ∈ hub.records.life load) : incident ∈ hub.journal := by
  rw [life_records] at h
  exact List.mem_of_mem_filter (List.mem_reverse.mp h)

theorem mem_life {incident : Incident} {load : Nat} (h : incident ∈ hub.journal)
    (own : incident.owner? = some load) : incident ∈ hub.records.life load := by
  rw [life_records]
  exact List.mem_reverse.mpr (List.mem_filter.mpr ⟨h, by simp [own]⟩)

theorem mem_roster_iff {load : Nat} :
    load ∈ hub.records.roster.map Prod.fst ↔ load ∈ hub.apps.map fun app => app.nanoapp.load := by
  rw [roster_eq, List.map_map]
  rfl

theorem loadAt_of_roster {index load : Nat} {info : Info}
    (placed : hub.records.roster[index]? = some (load, info)) : hub.loadAt index = load := by
  rw [roster_eq, List.getElem?_map] at placed
  obtain ⟨app, ha, he⟩ := Option.map_eq_some_iff.mp placed
  rw [loadAt_eq ha]
  exact congrArg Prod.fst he

theorem left_of_finishStart {index : Nat} {client : LoadClient σ} {ok : Bool}
    (placed : index < hub.apps.length) (h : hub.finishStart index client ok = .go hub' frames) :
    .left (hub.loadAt index) .start ∈ hub'.deeds := by
  have ha := List.getElem?_eq_getElem placed
  have hnow : ∀ report : LogRecord,
      .left (hub.loadAt index) .start ∈ (((hub.setCurrent none).record
        (.left hub.apps[index].nanoapp.load .start)).log report).deeds := by
    intro report
    rw [loadAt_eq ha]
    exact List.mem_filter.mpr ⟨List.mem_cons_of_mem _ (List.mem_cons_self ..), rfl⟩
  rcases finishStart_cases ha h with ⟨-, upper, hgo, -⟩ | ⟨-, other, -, -, rfl, -⟩
  · obtain ⟨side, -⟩ := light_announce hgo
    have hdeeds : hub'.deeds = _ := congrArg LoopSide.deeds side
    rw [hdeeds]
    exact hnow (.started hub.apps[index].nanoapp.info)
  · exact hnow (.startFailed hub.apps[index].nanoapp.info)

end Hub

namespace Machine

open Records

variable {start m next : Machine σ} {load : Nat} {info : Info} {ok : Bool}

/-- On the way from `start` to `m` the first entry point of the app with this load has ended with
the answer `ok`. -/
def Answered (start m : Machine σ) (load : Nat) (ok : Bool) : Prop :=
  ∃ (m₁ m₂ : Machine σ) (index : Nat) (stopping : Bool) (client : LoadClient σ)
    (rest : List (Frame σ)), start.Reaches m₁ ∧
      m₁.frames = .code (.start index stopping client) (.done ok) :: rest ∧
      m₁.hub.loadAt index = load ∧ m₁.step = .stepped m₂ ∧ m₂.Reaches m

theorem Answered.later (h : start.Answered m load ok) (hmove : Move m next) :
    start.Answered next load ok := by
  obtain ⟨m₁, m₂, index, stopping, client, rest, hr, hframes, hload, hstep, hr'⟩ := h
  exact ⟨m₁, m₂, index, stopping, client, rest, hr, hframes, hload, hstep, hr'.tail hmove⟩

theorem Reaches.tended (hs : start.IsStart) (hr : start.Reaches m) :
    Tended (start.Answered m) m.hub.records m.frames := by
  induction hr with
  | refl =>
    obtain ⟨config, collaborators, memory, now, routine, -, rfl⟩ := isStart_iff.mp hs
    refine .idle ⟨rfl, .nil, ?_, .nil, ?_, .nil, ?_⟩ ?_ fun load => .unborn ?_ rfl
    · simp [Hub.records, LoopSide.records, Hub.loopSide, Hub.members, Hub.create, launch]
    · simp [Hub.records, LoopSide.records, Hub.loopSide, Hub.members, Hub.create, launch, infos]
    · simp [Hub.records, LoopSide.records, Hub.loopSide, Hub.members, Hub.create, launch, infos]
    · simp [launch, Frame.isBusy]
    · simp [Hub.records, LoopSide.records, Hub.loopSide, Hub.members, Hub.create, launch]
  | tail hr hmove ih =>
    refine hmove.tended ⟨start, hs, hr⟩ (fun load ok h => h.later hmove) ?_ ih
    intro index stopping client ok rest load info hstep hframes placed
    exact ⟨_, _, index, stopping, client, rest, hr, hframes, Hub.loadAt_of_roster placed, hstep,
      .refl⟩

/-- The answer for this load can only be `ok`; those for other loads are open. -/
def AnswerIs (load : Nat) (ok : Bool) (other : Nat) (answer : Bool) : Prop :=
  other = load → answer = ok

/-- The first entry point of the app with this load has ended, and its life goes by the answer
`ok`. -/
structure Decided (m : Machine σ) (load : Nat) (ok : Bool) : Prop where
  left : .left load .start ∈ m.hub.journal
  tended : Tended (AnswerIs load ok) m.hub.records m.frames

theorem Decided.of_end {index : Nat} {stopping : Bool} {client : LoadClient σ}
    {rest : List (Frame σ)} (hs : start.IsStart) (hr : start.Reaches m)
    (hframes : m.frames = .code (.start index stopping client) (.done ok) :: rest)
    (hload : m.hub.loadAt index = load) (hstep : m.step = .stepped next) :
    next.Decided load ok := by
  have hm : m.Reachable := ⟨start, hs, hr⟩
  have placed : index < m.hub.apps.length := by
    have hn := hm.nested
    rw [hframes] at hn
    exact hn.1 index rfl
  have hroster := Hub.getElem?_roster (List.getElem?_eq_getElem placed)
  rw [← Hub.loadAt_eq (List.getElem?_eq_getElem placed), hload] at hroster
  constructor
  · obtain ⟨hub, frame, lower, hub', frames, rfl, hgo, rfl⟩ := step_eq_stepped.mp hstep
    cases hframes
    have hend := Hub.left_of_finishStart placed hgo
    rw [hload] at hend
    exact List.mem_of_mem_filter hend
  · have hbefore := hr.tended hs
    rw [hframes] at hbefore
    have hopen : Tended (AnswerIs load ok) m.hub.records
        (.code (.start index stopping client) (.done ok) :: rest) :=
      (hbefore.starting hroster fun other answer hne _ he => absurd he hne).1
    rw [← hframes] at hopen
    refine Move.tended hm (.step hstep) (fun _ _ h => h) ?_ hopen
    intro _ _ _ answer _ _ _ _ he _ _
    rw [hframes] at he
    cases he
    rfl

theorem Decided.left_mem (h : m.Decided load ok) :
    .left load .start ∈ m.hub.records.life load :=
  Hub.mem_life h.left rfl

theorem Decided.move (hm : m.Reachable) (h : m.Decided load ok) (hmove : Move m next) :
    next.Decided load ok := by
  refine ⟨Reaches.remembers hm (.single hmove) h.left, ?_⟩
  refine hmove.tended hm (fun _ _ h => h) ?_ h.tended
  intro index stopping client answer rest other info _ hframes placed
  rintro rfl
  have htended := h.tended
  rw [hframes] at htended
  obtain ⟨-, _, hlife⟩ := htended.starting placed fun _ _ _ h => h
  have hleft := h.left_mem
  rw [hlife] at hleft
  simp at hleft

theorem Answered.decided (hs : start.IsStart) (h : start.Answered m load ok) :
    m.Decided load ok := by
  obtain ⟨m₁, m₂, index, stopping, client, rest, hr, hframes, hload, hstep, hr'⟩ := h
  have hm₂ : m₂.Reachable := ⟨start, hs, hr.tail (.step hstep)⟩
  have hdecided := Decided.of_end hs hr hframes hload hstep
  induction hr' with
  | refl => exact hdecided
  | tail hr' hmove ih => exact ih.move (hm₂.reaches hr') hmove

def twoManagers : Collaborators Unit :=
  { Collaborators.none with
    releasers := [⟨.heap, fun _ => .done 0⟩, ⟨.wifi, fun _ => .done 0⟩] }

def loadAndUnload : Routine Unit .loop .nothing :=
  .start ⟨.new 1 1, .done true, fun _ _ => .done (), .done ()⟩ fun _ =>
  .post { Event.new EventType.firstUser with target := 1 } none <|
  .runUntilIdle fun _ =>
  .unload 1 false fun _ =>
  .done ()

def managed : Machine Unit :=
  launch (.create .default twoManagers () 0) loadAndUnload

end Machine

end SensorHub
