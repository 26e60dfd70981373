import Mathlib.Logic.Relation
import SensorHub.Machine.Basic

namespace SensorHub

variable {σ : Type}

theorem Effect.above_eq_go {effect : Effect σ} {lower frames : List (Frame σ)} {hub : Hub σ} :
    effect.above lower = .go hub frames ↔
      ∃ upper, effect = .go hub upper ∧ frames = upper ++ lower := by
  cases effect with
  | go hub' upper =>
    simp only [Effect.above, Effect.go.injEq]
    constructor
    · rintro ⟨rfl, rfl⟩
      exact ⟨upper, ⟨rfl, rfl⟩, rfl⟩
    · rintro ⟨_, ⟨rfl, rfl⟩, rfl⟩
      exact ⟨rfl, rfl⟩
  | wait => simp [Effect.above]
  | fail => simp [Effect.above]

namespace Machine

/-- A machine goes on: by a step of its own, or because another thread begins to act. -/
inductive Move (m : Machine σ) : Machine σ → Prop
  | step {next : Machine σ} (h : m.step = .stepped next) : Move m next
  | interrupt (routine : Routine σ .handle .nothing) : Move m (m.interrupt routine)

/-- A run leads from one machine to another. -/
abbrev Reaches : Machine σ → Machine σ → Prop :=
  Relation.ReflTransGen Move

/-- A new hub, whose configuration meets every condition, in the hands of the code around it. -/
def IsStart (m : Machine σ) : Prop :=
  ∃ config collaborators memory now hub routine,
    Hub.new config collaborators memory now = .ok hub ∧ m = launch hub routine

/-- The machine is a point of some run of a new hub. -/
def Reachable (m : Machine σ) : Prop :=
  ∃ start : Machine σ, start.IsStart ∧ start.Reaches m

theorem step_eq_stepped {m next : Machine σ} :
    m.step = .stepped next ↔
      ∃ hub frame rest hub' frames, m = ⟨hub, frame :: rest⟩ ∧
        frame.step hub = .go hub' frames ∧ next = ⟨hub', frames ++ rest⟩ := by
  obtain ⟨hub, stack⟩ := m
  cases stack with
  | nil => simp [step]
  | cons frame rest =>
    simp only [step]
    constructor
    · intro h
      cases hgo : frame.step hub with
      | go hub' frames =>
        rw [hgo] at h
        cases h
        exact ⟨hub, frame, rest, hub', frames, rfl, hgo, rfl⟩
      | wait | fail =>
        rw [hgo] at h
        cases h
    · rintro ⟨hub, frame, rest, hub', frames, he, hgo, rfl⟩
      cases he
      rw [hgo]

theorem Move.of_go {hub hub' : Hub σ} {frame : Frame σ} {frames rest : List (Frame σ)}
    (h : frame.step hub = .go hub' frames) : Move ⟨hub, frame :: rest⟩ ⟨hub', frames ++ rest⟩ :=
  .step (step_eq_stepped.mpr ⟨hub, frame, rest, hub', frames, rfl, h, rfl⟩)

/-- A run begins with a hub that was created under a configuration without a defect. -/
theorem isStart_iff {m : Machine σ} :
    m.IsStart ↔ ∃ (config : Config) (collaborators : Collaborators σ) (memory : σ) (now : Nat)
      (routine : Routine σ .loop .nothing), config.defect? = none ∧
        m = launch (.create config collaborators memory now) routine := by
  constructor
  · rintro ⟨config, collaborators, memory, now, hub, routine, hnew, rfl⟩
    unfold Hub.new at hnew
    split at hnew
    next => cases hnew
    next sound =>
      cases hnew
      exact ⟨config, collaborators, memory, now, routine, sound, rfl⟩
  · rintro ⟨config, collaborators, memory, now, routine, sound, rfl⟩
    refine ⟨config, collaborators, memory, now, _, routine, ?_, rfl⟩
    rw [Hub.new, sound]

/-- What holds of a hub and its frames is kept by a move if it is kept by the step of the
uppermost frame and by the arrival of another thread. -/
theorem Move.keeps {P : Hub σ → List (Frame σ) → Prop} {m next : Machine σ} (hm : Move m next)
    (step : ∀ {hub hub' frame frames rest}, m = ⟨hub, frame :: rest⟩ → P hub (frame :: rest) →
      frame.step hub = .go hub' frames → P hub' (frames ++ rest))
    (interrupt : ∀ routine : Routine σ .handle .nothing, P m.hub m.frames →
      P m.hub (.code (.handle .foreign) routine :: m.frames))
    (h : P m.hub m.frames) : P next.hub next.frames := by
  cases hm with
  | step hs =>
    obtain ⟨hub, frame, rest, hub', frames, rfl, hgo, rfl⟩ := step_eq_stepped.mp hs
    exact step rfl h hgo
  | interrupt routine => exact interrupt routine h

/-- The same for every point of a run, where each step may use that the run has got there. -/
theorem Reaches.keeps {P : Hub σ → List (Frame σ) → Prop} {start m : Machine σ}
    (hr : start.Reaches m) (h : P start.hub start.frames)
    (step : ∀ {hub hub' frame frames rest}, start.Reaches ⟨hub, frame :: rest⟩ →
      P hub (frame :: rest) → frame.step hub = .go hub' frames → P hub' (frames ++ rest))
    (interrupt : ∀ {hub frames} (routine : Routine σ .handle .nothing),
      start.Reaches ⟨hub, frames⟩ → P hub frames →
      P hub (.code (.handle .foreign) routine :: frames)) : P m.hub m.frames := by
  induction hr with
  | refl => exact h
  | tail hr hm ih => exact hm.keeps (fun e => step (e ▸ hr)) (fun routine => interrupt routine hr) ih

theorem Reachable.move {m next : Machine σ} (h : m.Reachable) (hm : Move m next) :
    next.Reachable := by
  obtain ⟨start, hs, hr⟩ := h
  exact ⟨start, hs, hr.tail hm⟩

/-- What a new hub has, what a step keeps and what another thread cannot disturb holds at every
point of every run. -/
theorem Reachable.keeps {P : Hub σ → List (Frame σ) → Prop} {m : Machine σ} (hm : m.Reachable)
    (launched : ∀ (config : Config) (collaborators : Collaborators σ) (memory : σ) (now : Nat)
      (routine : Routine σ .loop .nothing), config.defect? = none →
        P (.create config collaborators memory now) [.code (.loop .outside) routine])
    (step : ∀ {hub hub' frame frames rest}, Reachable ⟨hub, frame :: rest⟩ →
      P hub (frame :: rest) → frame.step hub = .go hub' frames → P hub' (frames ++ rest))
    (interrupt : ∀ {hub frames} (routine : Routine σ .handle .nothing), P hub frames →
      P hub (.code (.handle .foreign) routine :: frames)) : P m.hub m.frames := by
  obtain ⟨start, hs, hr⟩ := hm
  refine hr.keeps ?_ (fun hr => step ⟨start, hs, hr⟩) fun routine _ => interrupt routine
  obtain ⟨config, collaborators, memory, now, routine, sound, rfl⟩ := isStart_iff.mp hs
  exact launched config collaborators memory now routine sound

theorem Reachable.reaches {m m' : Machine σ} (hm : m.Reachable) (h : m.Reaches m') :
    m'.Reachable := by
  obtain ⟨start, hs, hr⟩ := hm
  exact ⟨start, hs, hr.trans h⟩

/-- What holds of the frames above `lower` as long as there are any, and is kept by the step of the
uppermost frame and by the arrival of another thread, holds at every point of a run that does not go
down to `lower`. The moves of the run may be known to be in `R`. -/
theorem keeps_above {R : Machine σ → Machine σ → Prop} {P : Machine σ → List (Frame σ) → Prop}
    {m₁ last : Machine σ} {upper lower : List (Frame σ)}
    (hr : Relation.ReflTransGen (fun m next => Move m next ∧ R m next) m₁ last)
    (hframes : m₁.frames = upper ++ lower) (begins : P m₁ upper) (nonempty : ∀ {m}, ¬P m [])
    (step : ∀ {hub frame above hub' frames}, m₁.Reaches ⟨hub, frame :: (above ++ lower)⟩ →
      P ⟨hub, frame :: (above ++ lower)⟩ (frame :: above) →
      R ⟨hub, frame :: (above ++ lower)⟩ ⟨hub', frames ++ (above ++ lower)⟩ →
      frame.step hub = .go hub' frames → P ⟨hub', frames ++ (above ++ lower)⟩ (frames ++ above))
    (interrupt : ∀ {m upper} (routine : Routine σ .handle .nothing), m.frames = upper ++ lower →
      P m upper → R m (m.interrupt routine) →
      P (m.interrupt routine) (.code (.handle .foreign) routine :: upper)) :
    m₁.Reaches last ∧ ∃ upper, last.frames = upper ++ lower ∧ P last upper := by
  induction hr with
  | refl => exact ⟨.refl, upper, hframes, begins⟩
  | @tail m next _ hmove ih =>
    obtain ⟨hmove, hr⟩ := hmove
    obtain ⟨hreached, upper, he, hp⟩ := ih
    refine ⟨hreached.tail hmove, ?_⟩
    cases hmove with
    | interrupt routine =>
      exact ⟨.code (.handle .foreign) routine :: upper, congrArg (_ :: ·) he,
        interrupt routine he hp hr⟩
    | step hs =>
      obtain ⟨hub, frame, rest, hub', frames, rfl, h, rfl⟩ := step_eq_stepped.mp hs
      cases upper with
      | nil => exact absurd hp nonempty
      | cons first above =>
        cases he
        exact ⟨frames ++ above, (List.append_assoc ..).symm, step hreached hp hr h⟩

def plain (routine : Routine Unit .loop .nothing) : Machine Unit :=
  launch (.create .default .none () 0) routine

theorem isStart_plain (routine : Routine Unit .loop .nothing) : (plain routine).IsStart :=
  ⟨.default, .none, (), 0, .create .default .none () 0, routine, rfl, rfl⟩

/-- A run that steps on its own and has not come to its end leads to where it has got to, from points
at which `P` holds. -/
theorem reaches_while {P : Machine σ → Prop} {m : Machine σ} {budget : Nat}
    (unfinished : (m.advance budget).2 = .unfinished)
    (before : ∀ k < budget, P (m.advance k).1) :
    Relation.ReflTransGen (fun m next => Move m next ∧ P m) m (m.advance budget).1 := by
  induction budget generalizing m with
  | zero => exact .refl
  | succ budget ih =>
    have hfirst : P m := before 0 (Nat.succ_pos _)
    simp only [advance] at unfinished ⊢
    cases hs : m.step with
    | stepped next =>
      simp only [hs] at unfinished ⊢
      refine .head ⟨.step hs, hfirst⟩ (ih unfinished fun k hk => ?_)
      have hlater := before (k + 1) (Nat.succ_lt_succ hk)
      simp only [advance, hs] at hlater
      exact hlater
    | finished | waiting | failed =>
      simp only [hs] at unfinished
      cases unfinished

/-- A run that steps on its own and has not come to its end leads to where it has got to. -/
theorem reaches_unfinished {m : Machine σ} {budget : Nat}
    (h : (m.advance budget).2 = .unfinished) : m.Reaches (m.advance budget).1 := by
  have hrun := @reaches_while σ (fun _ => True) m budget h fun _ _ => trivial
  exact Relation.ReflTransGen.mono (fun _ _ hmove => hmove.1) _ _ hrun

theorem step_advance {m : Machine σ} {budget : Nat}
    (unfinished : (m.advance (budget + 1)).2 = .unfinished) :
    (m.advance budget).1.step = .stepped (m.advance (budget + 1)).1 := by
  induction budget generalizing m with
  | zero =>
    simp only [advance] at unfinished ⊢
    cases hs : m.step with
    | stepped next => rfl
    | finished | waiting | failed =>
      simp only [hs] at unfinished
      cases unfinished
  | succ budget ih =>
    rw [advance] at unfinished ⊢
    rw [advance]
    cases hs : m.step with
    | stepped next =>
      simp only [hs] at unfinished ⊢
      exact ih unfinished
    | finished | waiting | failed =>
      simp only [hs] at unfinished
      cases unfinished

theorem reaches_later {m : Machine σ} (budget more : Nat)
    (h : (m.advance (budget + more)).2 = .unfinished) :
    (m.advance budget).1.Reaches (m.advance (budget + more)).1 := by
  induction budget generalizing m with
  | zero =>
    rw [Nat.zero_add] at h ⊢
    exact reaches_unfinished h
  | succ budget ih =>
    rw [Nat.add_right_comm] at h ⊢
    simp only [advance] at h ⊢
    cases hs : m.step with
    | stepped next =>
      simp only [hs] at h ⊢
      exact ih h
    | finished | waiting | failed =>
      simp only [hs] at h
      cases h

end Machine

end SensorHub
